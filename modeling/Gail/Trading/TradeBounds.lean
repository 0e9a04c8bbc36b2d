import Gail.Trading.DecisionGates

/-! The bounds of a trade's size. The size is clamped first; rounding to cents and the share of the portfolio
come after. -/
namespace Gail.Trading.Decision
open Gail.Library

/-- The share of the size that a rebalance weight leaves. -/
def shareOf (weight : Option ℚ) : ℚ := (weight.map fun weight => clamp (Scalar.abs weight) 0.0 1.0).getD 1.0

/-- The amount of a size after rounding and under a share stays within the bounds of the sizes. -/
def SizeWithin (low high share size : ℚ) : Prop := low ≤ toCents size * share ∧ toCents size * share ≤ high

section Size

theorem shareOf_nonneg (weight : Option ℚ) : 0 ≤ shareOf weight := by
  unfold shareOf
  cases weight with
  | none => norm_num
  | some weight => exact (clamp_unit_mem _).1

theorem round_eq (x : ℚ) :
    AmountScalar.round x = if x < 0 then -((-x + 1 / 2).floor : ℚ) else ((x + 1 / 2).floor : ℚ) := rfl

theorem round_mono {x y : ℚ} (h : x ≤ y) : (AmountScalar.round x : ℚ) ≤ AmountScalar.round y := by
  rw [round_eq, round_eq]
  split_ifs with hx hy
  · have hfloor : (-y + 1 / 2).floor ≤ (-x + 1 / 2).floor := Rat.floor_monotone (by linarith)
    exact neg_le_neg (by exact_mod_cast hfloor)
  · have hx' : (0 : ℤ) ≤ (-x + 1 / 2).floor := Rat.le_floor_iff.mpr (by push_cast; linarith)
    have hy' : (0 : ℤ) ≤ (y + 1 / 2).floor := Rat.le_floor_iff.mpr (by push_cast; linarith)
    have hx'' : (0 : ℚ) ≤ ((-x + 1 / 2).floor : ℚ) := by exact_mod_cast hx'
    have hy'' : (0 : ℚ) ≤ ((y + 1 / 2).floor : ℚ) := by exact_mod_cast hy'
    linarith
  · linarith
  · have hfloor : (x + 1 / 2).floor ≤ (y + 1 / 2).floor := Rat.floor_monotone (by linarith)
    exact_mod_cast hfloor

theorem toCents_mono {x y : ℚ} (h : x ≤ y) : toCents x ≤ toCents y := by
  unfold toCents
  norm_num
  have hround := round_mono (mul_le_mul_of_nonneg_right h (by norm_num : (0 : ℚ) ≤ 100))
  linarith

/-- A size between two that stay within the bounds stays within them. -/
theorem SizeWithin.between {low high share left right size : ℚ} (hshare : 0 ≤ share) (hleft : left ≤ size)
    (hright : size ≤ right) (h : SizeWithin low high share left) (h' : SizeWithin low high share right) :
    SizeWithin low high share size :=
  ⟨h.1.trans (mul_le_mul_of_nonneg_right (toCents_mono hleft) hshare),
    (mul_le_mul_of_nonneg_right (toCents_mono hright) hshare).trans h'.2⟩

/-- The size before rounding is between its bounds, whichever way round they are. -/
theorem SizeWithin.of_ends {low high share scale : ℚ} (hshare : 0 ≤ share) (hscale : 0 ≤ scale)
    (hscale' : scale ≤ 1) (h : SizeWithin low high share low) (h' : SizeWithin low high share high) :
    SizeWithin low high share (low + (high - low) * scale) := by
  rcases le_total low high with hle | hle
  · refine .between hshare ?_ ?_ h h'
    · nlinarith
    · nlinarith
  · refine .between hshare ?_ ?_ h' h
    · nlinarith
    · nlinarith

end Size

section Amount

theorem decideOn_amount {input : DecisionInput ℚ} {market : TargetMarket ℚ}
    {feedback : Option (RoiFeedbackAdjustment ℚ)}
    (hworth : (input.economics market (input.blendedSignal feedback)
      (input.blendedConfidence feedback)).isWorthwhile = true) :
    (input.decideOn market feedback).amountUsd =
      sizeTrade (Scalar.abs (input.blendedSignal feedback)) (input.blendedConfidence feedback)
        (input.economics market (input.blendedSignal feedback) (input.blendedConfidence feedback)).sizeMultiplier
        input.effective.microTradeMinUsd input.effective.microTradeMaxUsd *
      shareOf (input.consensus.voteDistribution.getF64 "rebalance_weight") := by
  unfold DecisionInput.decideOn
  dsimp only
  rw [if_neg fun h => h.2 hworth]
  rfl

/-- A size that both ends of its range allow is within the bounds for every scale between them. -/
theorem amount_within {input : DecisionInput ℚ}
    (hengine : input.decide.overrideApplied = false) (htrade : input.decide.action ≠ .hold)
    (hlow : SizeWithin input.effective.microTradeMinUsd input.effective.microTradeMaxUsd
      (shareOf (input.consensus.voteDistribution.getF64 "rebalance_weight")) input.effective.microTradeMinUsd)
    (hhigh : SizeWithin input.effective.microTradeMinUsd input.effective.microTradeMaxUsd
      (shareOf (input.consensus.voteDistribution.getF64 "rebalance_weight")) input.effective.microTradeMaxUsd) :
    input.effective.microTradeMinUsd ≤ input.decide.amountUsd ∧
      input.decide.amountUsd ≤ input.effective.microTradeMaxUsd := by
  obtain ⟨-, hdecide⟩ := decide_of_no_override hengine
  rw [hdecide] at htrade ⊢
  obtain ⟨market, -, hclears, -, -, heq⟩ := decideUnder_trades htrade
  rw [heq, decideOn_amount hclears.worthwhile]
  unfold sizeTrade
  dsimp only
  exact SizeWithin.of_ends (shareOf_nonneg _) (clamp_unit_mem _).1 (clamp_unit_mem _).2 hlow hhigh

end Amount

section Ends

/-- A strong signal of some confidence under the sizes and the rebalance weight. -/
def DecisionInput.atEnd (low high : ℚ) (weight : Option ℚ) (confidence : ℚ) : DecisionInput ℚ :=
  { engineFuzzyWeight := 0
    fuzzy := { signal := 1, confidence }
    consensus :=
      sampleConsensus 1 confidence 50
        (weight.toList.map fun weight => ("rebalance_weight", .number weight (isFinite_rat weight)))
    bestMarket := some .bitcoin
    state := .new 1000 200
    config :=
      { DecisionSettings.sample low high with
        decisionRoiFeedbackEnabled := false }
    now := 1000 }

variable (low high : ℚ) (weight : Option ℚ) (confidence : ℚ)

theorem atEnd_weight :
    (DecisionInput.atEnd low high weight confidence).consensus.voteDistribution.getF64 "rebalance_weight" =
      weight := by
  cases weight <;> rfl

theorem atEnd_blended :
    (DecisionInput.atEnd low high weight confidence).blendedSignal none = 1 ∧
      (DecisionInput.atEnd low high weight confidence).blendedConfidence none = confidence := by
  have hweight : (DecisionInput.atEnd low high weight confidence).effective.fuzzyWeight = 0 := by
    change clamp (0 : ℚ) 0.0 1.0 = 0
    norm_num [clamp]
  unfold DecisionInput.blendedSignal DecisionInput.blendedConfidence
  dsimp only
  unfold DecisionInput.baseBlendedSignal DecisionInput.baseBlendedConfidence
  rw [hweight]
  constructor
  · change (1 : ℚ) * 0 + 1 * (1.0 - 0) = 1
    norm_num
  · change confidence * 0 + confidence * (1.0 - 0) = confidence
    norm_num

theorem atEnd_economics (market : TargetMarket ℚ) :
    let economics := (DecisionInput.atEnd low high weight confidence).economics market 1 confidence
    economics.expectedNetEdgeBps = 50 ∧ economics.requiredNetEdgeBps = 1 ∧
      economics.expectedGrossEdgeBps = 50 := by
  refine ⟨rfl, rfl, ?_⟩
  change (50 : ℚ) + Scalar.max (Scalar.ofCount 0) 0.0 = 50
  rw [max_eq]
  change (50 : ℚ) + max ((0 : Nat) : ℚ) 0.0 = 50
  norm_num

theorem atEnd_worthwhile (market : TargetMarket ℚ) :
    ((DecisionInput.atEnd low high weight confidence).economics market 1 confidence).isWorthwhile = true ∧
      ((DecisionInput.atEnd low high weight confidence).economics market 1 confidence).sizeMultiplier = 1 := by
  obtain ⟨hnet, hrequired, hgross⟩ := atEnd_economics low high weight confidence market
  have hworth : ((DecisionInput.atEnd low high weight confidence).economics market 1
      confidence).isWorthwhile = true := by
    unfold TradeEconomics.isWorthwhile
    rw [hnet, hrequired]
    decide +kernel
  refine ⟨hworth, ?_⟩
  unfold TradeEconomics.sizeMultiplier
  rw [hworth, if_neg (by decide)]
  dsimp only
  rw [hnet, hrequired, hgross]
  decide +kernel

/-- The strong signal is traded at the size of its confidence. -/
theorem atEnd_decide (hconfidence : ¬ confidence < 0) :
    let input := DecisionInput.atEnd low high weight confidence
    input.decide.overrideApplied = false ∧ input.decide.action ≠ .hold ∧
      input.decide.amountUsd = sizeTrade 1 confidence 1 low high * shareOf weight := by
  intro input
  obtain ⟨hsignal, hconf⟩ := atEnd_blended low high weight confidence
  obtain ⟨hworth, hmultiplier⟩ := atEnd_worthwhile low high weight confidence .bitcoin
  have hthreshold : input.adaptiveGate.threshold = 0 := by
    change clamp (clamp (0 : ℚ) 0.0 1.0) (clamp (0 : ℚ) 0.0 1.0) 1.0 = 0
    decide +kernel
  have hclears : input.Clears .bitcoin (input.blendedSignal none) (input.blendedConfidence none) := by
    refine ⟨?_, fun _ => ?_, rfl, ?_⟩
    · rw [hthreshold, hconf]
      exact hconfidence
    · exact Nat.zero_lt_succ 9
    · rw [hsignal, hconf]
      exact hworth
  have hact : signalToAction (input.blendedSignal none) = .strongBuy := by
    rw [hsignal]
    decide +kernel
  have hdecide : input.decide = input.decideUnder none := rfl
  obtain ⟨haction, heq⟩ := decideUnder_of_clears rfl hclears (hact ▸ by decide)
  refine ⟨?_, ?_, ?_⟩
  · rw [hdecide, heq]
    exact decideOn_override input .bitcoin none
  · rw [hdecide, haction, hact]
    decide
  · rw [hdecide, heq, decideOn_amount hclears.worthwhile, hsignal, hconf, hmultiplier, atEnd_weight]
    congr 1

end Ends

/-- Whether every trade under some sizes and some rebalance weight stays within the sizes: exactly if the least
and the largest size do after rounding and under the share of the weight. -/
theorem amounts_within_iff (low high : ℚ) (weight : Option ℚ) :
    (∀ input : DecisionInput ℚ, input.effective.microTradeMinUsd = low →
        input.effective.microTradeMaxUsd = high →
        input.consensus.voteDistribution.getF64 "rebalance_weight" = weight →
        input.decide.overrideApplied = false → input.decide.action ≠ .hold →
          low ≤ input.decide.amountUsd ∧ input.decide.amountUsd ≤ high) ↔
      SizeWithin low high (shareOf weight) low ∧ SizeWithin low high (shareOf weight) high := by
  constructor
  · intro h
    have hend : ∀ confidence : ℚ, ¬ confidence < 0 →
        SizeWithin low high (shareOf weight) (low + (high - low) * clamp (1 * confidence * 1) 0.0 1.0) := by
      intro confidence hconfidence
      obtain ⟨hengine, htrade, hamount⟩ := atEnd_decide low high weight confidence hconfidence
      have hbounds := h _ rfl rfl (atEnd_weight low high weight confidence) hengine htrade
      rw [hamount] at hbounds
      exact hbounds
    constructor
    · have hlow := hend 0 (by norm_num)
      rw [show clamp (1 * 0 * 1 : ℚ) 0.0 1.0 = 0 by decide +kernel, mul_zero, add_zero] at hlow
      exact hlow
    · have hhigh := hend 1 (by norm_num)
      rw [show clamp (1 * 1 * 1 : ℚ) 0.0 1.0 = 1 by decide +kernel, mul_one, add_sub_cancel] at hhigh
      exact hhigh
  · rintro ⟨hlow, hhigh⟩ input rfl rfl rfl hengine htrade
    exact amount_within hengine htrade hlow hhigh

/-- A tenth of the portfolio is traded for twenty-eight cents, where a dollar is the least size. -/
theorem small_share_below_minimum :
    let input := { DecisionInput.sample (2 / 5) (1 / 2) 50 with
      consensus := sampleConsensus (2 / 5) (1 / 2) 50 [("rebalance_weight", .number (1 / 10) rfl)] }
    input.decide.overrideApplied = false ∧ input.decide.action = .buy ∧
      input.effective.microTradeMinUsd = 1 ∧ input.effective.microTradeMaxUsd = 10 ∧
      input.decide.amountUsd < 1 := by
  decide +kernel
end Gail.Trading.Decision
