import Gail.Trading.DecisionGates

/-! The feedback of past outcomes as a second run of one decision: what it takes for it to turn a buy into a
sale, or a sale into a buy. -/
namespace Gail.Trading.Decision
open Gail.Library

/-- One action buys and the other sells. -/
def Opposed (action other : TradeAction) : Prop :=
  action.side = some .buy ∧ other.side = some .sell ∨ action.side = some .sell ∧ other.side = some .buy

section Definitions
variable {F : Type} [AmountScalar F]

namespace DecisionInput
variable (input : DecisionInput F)

/-- The past of a direction, on the target or on all markets. -/
def past (direction : DirectionalAction) : DirectionalRoiSummary F :=
  feedbackSummary input.state.outcomeLedger (input.bestMarket.map (·.symbol)) direction input.effective

/-- The decision on an input whose past leaves no feedback. -/
def decideWithoutFeedback [NumberText F] : TradeDecision F :=
  match input.state.pendingOverride with
  | some ov => applyOverride ov input.config input.now
  | none => input.decideUnder none

end DecisionInput
end Definitions

/-- The past of the direction is so bad that the feedback on it takes the signal from one side to the other,
past both thresholds, and either signal passes the gates. -/
structure DecisionInput.Reverses (input : DecisionInput ℚ) (market : TargetMarket ℚ)
    (direction : DirectionalAction) : Prop where
  undirected : input.state.pendingOverride = none
  target : input.bestMarket = some market
  enabled : input.effective.decisionRoiFeedbackEnabled = true
  side : directionalActionForSignal input.baseBlendedSignal = some direction
  sampled : max input.effective.decisionRoiFeedbackMinSamples 2 ≤ (input.past direction).samples
  acted : 1 / 5 ≤ |input.baseBlendedSignal|
  overturned : |input.baseBlendedSignal| + 1 / 5 ≤
    -(input.past direction).performance input.effective *
      input.effective.decisionRoiFeedbackMaxSignalAdjustment
  clear : input.Clears market input.baseBlendedSignal input.baseBlendedConfidence
  clearAfter : input.Clears market (input.blendedSignal input.roiFeedback)
    (input.blendedConfidence input.roiFeedback)

theorem buys_iff (signal : ℚ) : (signalToAction signal).side = some .buy ↔ 1 / 5 ≤ signal := by
  unfold signalToAction
  norm_num
  split_ifs <;> simp [TradeAction.side] <;> linarith

theorem sells_iff (signal : ℚ) : (signalToAction signal).side = some .sell ↔ signal ≤ -1 / 5 := by
  unfold signalToAction
  norm_num
  split_ifs <;> simp [TradeAction.side] <;> linarith

def DirectionalAction.sign : DirectionalAction → ℚ
  | .buy => 1
  | .sell => -1

/-- The feedback on a signal, by the performance of its direction. -/
theorem roiFeedback_signal {input : DecisionInput ℚ} {feedback : RoiFeedbackAdjustment ℚ}
    (h : input.roiFeedback = some feedback) :
    ∃ direction, input.effective.decisionRoiFeedbackEnabled = true ∧
      directionalActionForSignal input.baseBlendedSignal = some direction ∧
      max input.effective.decisionRoiFeedbackMinSamples 2 ≤ (input.past direction).samples ∧
      feedback.signalAdjustment = direction.sign * (input.past direction).performance input.effective *
        input.effective.decisionRoiFeedbackMaxSignalAdjustment := by
  unfold DecisionInput.roiFeedback roiFeedbackAdjustment at h
  split at h
  · cases h
  rename_i henabled
  obtain ⟨direction, hdirection, h⟩ := Option.bind_eq_some_iff.mp h
  dsimp only at h
  split at h
  · cases h
  rename_i hsamples
  split at h
  · cases h
  refine ⟨direction, by simpa using henabled, hdirection, Nat.le_of_not_lt hsamples, ?_⟩
  rw [← Option.some.inj h]
  have hsign : (if direction = .buy then 1.0 else -1.0 : ℚ) = direction.sign := by
    cases direction with
    | buy => exact (if_pos rfl).trans (show (1.0 : ℚ) = 1 by norm_num)
    | sell => exact (if_neg (by decide)).trans (show (-1.0 : ℚ) = -1 by norm_num)
  exact congrArg (· * _ * _) hsign

/-- A past that counts gives a feedback. -/
theorem roiFeedback_isSome {input : DecisionInput ℚ} {direction : DirectionalAction}
    (henabled : input.effective.decisionRoiFeedbackEnabled = true)
    (hdirection : directionalActionForSignal input.baseBlendedSignal = some direction)
    (hsamples : max input.effective.decisionRoiFeedbackMinSamples 2 ≤ (input.past direction).samples)
    (hperformance : 1 / 100 ≤ |(input.past direction).performance input.effective|) :
    ∃ feedback, input.roiFeedback = some feedback := by
  have hcounts : ¬ Scalar.abs ((input.past direction).performance input.effective) < 0.01 := by
    rw [abs_eq]
    norm_num
    linarith
  unfold DecisionInput.past at hsamples hcounts
  unfold DecisionInput.roiFeedback roiFeedbackAdjustment
  rw [henabled, hdirection, if_neg (by decide), Option.bind_some]
  dsimp only
  rw [if_neg (Nat.not_lt_of_le hsamples), if_neg hcounts]
  exact ⟨_, rfl⟩

theorem directionalActionForSignal_eq (signal : ℚ) :
    directionalActionForSignal signal =
      if 0 < signal then some .buy else if signal < 0 then some .sell else none := by
  unfold directionalActionForSignal
  norm_num

/-- The signal that the feedback leaves crosses over exactly as far as the bad past carries it. -/
theorem crosses_iff {input : DecisionInput ℚ} {feedback : RoiFeedbackAdjustment ℚ}
    {direction : DirectionalAction} (hfeedback : input.roiFeedback = some feedback)
    (hdirection : directionalActionForSignal input.baseBlendedSignal = some direction) :
    Opposed (signalToAction (input.blendedSignal (some feedback))) (signalToAction input.baseBlendedSignal) ↔
      1 / 5 ≤ |input.baseBlendedSignal| ∧
        |input.baseBlendedSignal| + 1 / 5 ≤
          -(input.past direction).performance input.effective *
            input.effective.decisionRoiFeedbackMaxSignalAdjustment := by
  obtain ⟨direction', -, hdirection', -, hadjustment⟩ := roiFeedback_signal hfeedback
  obtain rfl : direction = direction' := Option.some.inj (hdirection.symm.trans hdirection')
  unfold Opposed
  rw [buys_iff, buys_iff, sells_iff, sells_iff]
  unfold DecisionInput.blendedSignal
  dsimp only
  rw [show (-1.0 : ℚ) = -1 by norm_num, show (1.0 : ℚ) = 1 by norm_num]
  rw [le_clamp_iff (by norm_num) (by norm_num), clamp_le_iff (by norm_num) (by norm_num), hadjustment]
  rw [directionalActionForSignal_eq] at hdirection
  cases direction with
  | buy =>
    have hpositive : 0 < input.baseBlendedSignal := by
      split_ifs at hdirection with hpositive
      · exact hpositive
      · cases hdirection
    rw [abs_of_pos hpositive, DirectionalAction.sign]
    constructor
    · rintro (⟨hbuy, hsell⟩ | ⟨hsell, hbuy⟩)
      · linarith
      · exact ⟨hbuy, by linarith⟩
    · rintro ⟨hbuy, hover⟩
      exact .inr ⟨by linarith, hbuy⟩
  | sell =>
    have hnegative : input.baseBlendedSignal < 0 := by
      split_ifs at hdirection with hpositive hnegative
      · cases hdirection
      · exact hnegative
    rw [abs_of_neg hnegative, DirectionalAction.sign]
    constructor
    · rintro (⟨hbuy, hsell⟩ | ⟨hsell, hbuy⟩)
      · exact ⟨by linarith, by linarith⟩
      · linarith
    · rintro ⟨hsell, hover⟩
      exact .inl ⟨by linarith, by linarith⟩

theorem maxSignalAdjustment_mem (input : DecisionInput ℚ) :
    0 ≤ input.effective.decisionRoiFeedbackMaxSignalAdjustment ∧
      input.effective.decisionRoiFeedbackMaxSignalAdjustment ≤ 1 / 2 := by
  have hlow : (0.0 : ℚ) ≤ input.effective.decisionRoiFeedbackMaxSignalAdjustment := low_le_clamp (by norm_num)
  have hhigh : input.effective.decisionRoiFeedbackMaxSignalAdjustment ≤ (0.5 : ℚ) := clamp_le_high (by norm_num)
  norm_num at hlow hhigh ⊢
  exact ⟨hlow, hhigh⟩

/-- A past that carries a signal over is not one that goes for nothing. -/
theorem DecisionInput.Reverses.performance_counts {input : DecisionInput ℚ} {market : TargetMarket ℚ}
    {direction : DirectionalAction} (h : input.Reverses market direction) :
    1 / 100 ≤ |(input.past direction).performance input.effective| := by
  obtain ⟨hlow, hhigh⟩ := maxSignalAdjustment_mem input
  have hacted := h.acted
  have hover := h.overturned
  by_contra hsmall
  obtain ⟨hbelow, -⟩ := abs_lt.mp (not_le.mp hsmall)
  have hproduct : -(input.past direction).performance input.effective *
      input.effective.decisionRoiFeedbackMaxSignalAdjustment ≤ 1 / 100 * (1 / 2) :=
    mul_le_mul (by linarith) hhigh hlow (by norm_num)
  linarith

theorem not_opposed_self (action : TradeAction) : ¬ Opposed action action := by
  rintro (⟨hbuy, hsell⟩ | ⟨hsell, hbuy⟩) <;> rw [hbuy] at hsell <;> cases hsell

theorem Opposed.traded {action other : TradeAction} (h : Opposed action other) :
    action ≠ .hold ∧ other ≠ .hold := by
  constructor <;> rintro rfl <;> rcases h with ⟨h, h'⟩ | ⟨h, h'⟩ <;> first | cases h | cases h'

/-- The feedback turns a decision over exactly where the past of its direction carries it over. -/
theorem opposed_iff (input : DecisionInput ℚ) :
    Opposed input.decide.action input.decideWithoutFeedback.action ↔
      ∃ market direction, input.Reverses market direction := by
  unfold DecisionInput.decide DecisionInput.decideWithoutFeedback
  cases hpending : input.state.pendingOverride with
  | some ov =>
    refine iff_of_false (not_opposed_self _) ?_
    rintro ⟨market, direction, h⟩
    rw [h.undirected] at hpending
    cases hpending
  | none =>
    dsimp only
    constructor
    · intro hopposed
      obtain ⟨htrade, htrade'⟩ := hopposed.traded
      obtain ⟨market, hmarket, hclears, -, haction, -⟩ := decideUnder_trades htrade
      obtain ⟨market', hmarket', hclears', -, haction', -⟩ := decideUnder_trades htrade'
      obtain rfl : market = market' := Option.some.inj (hmarket.symm.trans hmarket')
      rw [haction, haction'] at hopposed
      cases hfeedback : input.roiFeedback with
      | none =>
        rw [hfeedback] at hopposed
        exact absurd hopposed (not_opposed_self _)
      | some feedback =>
        obtain ⟨direction, henabled, hdirection, hsamples, -⟩ := roiFeedback_signal hfeedback
        rw [hfeedback] at hopposed
        obtain ⟨hacted, hover⟩ := (crosses_iff hfeedback hdirection).mp hopposed
        exact ⟨market, direction, hpending, hmarket, henabled, hdirection, hsamples, hacted, hover, hclears',
          hclears⟩
    · rintro ⟨market, direction, h⟩
      obtain ⟨feedback, hfeedback⟩ := roiFeedback_isSome h.enabled h.side h.sampled h.performance_counts
      have hopposed := (crosses_iff hfeedback h.side).mpr ⟨h.acted, h.overturned⟩
      have hclear := h.clearAfter
      rw [hfeedback] at hclear ⊢
      obtain ⟨htrade, htrade'⟩ := hopposed.traded
      have hclearBare : input.Clears market (input.blendedSignal none) (input.blendedConfidence none) :=
        h.clear
      have hbare := (decideUnder_of_clears h.target hclearBare htrade').1
      rw [(decideUnder_of_clears h.target hclear htrade).1, hbare]
      exact hopposed

theorem feedback_keeps_side_iff (input : DecisionInput ℚ) :
    ¬ Opposed input.decide.action input.decideWithoutFeedback.action ↔
      ∀ market direction, ¬ input.Reverses market direction := by
  rw [opposed_iff]
  exact ⟨fun h market direction hreverses => h ⟨market, direction, hreverses⟩,
    fun h ⟨market, direction, hreverses⟩ => h market direction hreverses⟩

section Sample

/-- Two purchases that lost two hundred basis points each. -/
def lostPurchases : Snapshot.OutcomeLedger ℚ :=
  { observations := ["1", "2"].map fun orderId =>
      { (Snapshot.tradeMarkoutDefault : Snapshot.TradeMarkout ℚ) with
        orderId
        resolvedAt := some 900
        symbol := "BTC/USDT"
        action := .buy
        entryPrice := 50000
        netDirectionalReturnBps := some (-200) } }

/-- A moderate signal to buy becomes a sale after two lost purchases. -/
theorem lost_purchases_sell :
    let input := { DecisionInput.sample (1 / 4) 1 50 with
      state := { (Snapshot.TradingState.new 1000 200) with outcomeLedger := lostPurchases } }
    input.decide.action = .sell ∧ input.decideWithoutFeedback.action = .buy ∧
      Opposed input.decide.action input.decideWithoutFeedback.action := by
  refine ⟨by decide +kernel, by decide +kernel, .inr ⟨by decide +kernel, by decide +kernel⟩⟩

end Sample

end Gail.Trading.Decision
