import Gail.Trading.Decision
import Gail.Trading.ScalarOrder
import Gail.Trading.StateRestore

/-! The gates between a signal and a trade: what passes them all is traded, and nothing else is. -/
namespace Gail.Trading.Decision
open Gail.Library

section Gates
variable {F : Type} [AmountScalar F] [NumberText F]

/-- A signal of a confidence passes the gates on a market. -/
structure DecisionInput.Clears (input : DecisionInput F) (market : TargetMarket F) (signal confidence : F) :
    Prop where
  confident : ¬ confidence < input.adaptiveGate.threshold
  room : 0.0 < signal → openPositionCount input.state < input.effective.maxOpenPositions
  cooled : input.cooldownRemaining = none
  worthwhile : (input.economics market signal confidence).isWorthwhile = true

variable {input : DecisionInput F} {feedback : Option (RoiFeedbackAdjustment F)} {market : TargetMarket F}

/-- On a market either nothing is traded, or what the signal says at the size of its economics. -/
theorem decideOn_cases (input : DecisionInput F) (market : TargetMarket F)
    (feedback : Option (RoiFeedbackAdjustment F)) :
    ((input.decideOn market feedback).action = .hold ∧
      (signalToAction (input.blendedSignal feedback) = .hold ∨
        (input.economics market (input.blendedSignal feedback)
          (input.blendedConfidence feedback)).isWorthwhile = false)) ∨
    signalToAction (input.blendedSignal feedback) ≠ .hold ∧
      (input.economics market (input.blendedSignal feedback)
        (input.blendedConfidence feedback)).isWorthwhile = true ∧
      (input.decideOn market feedback).action = signalToAction (input.blendedSignal feedback) := by
  unfold DecisionInput.decideOn
  dsimp only
  by_cases hact : signalToAction (input.blendedSignal feedback) = .hold
  · rw [if_neg fun h => h.1 hact]
    exact .inl ⟨hact, .inl hact⟩
  · cases hworth : (input.economics market (input.blendedSignal feedback)
        (input.blendedConfidence feedback)).isWorthwhile with
    | false =>
      rw [if_pos ⟨hact, Bool.false_ne_true⟩]
      exact .inl ⟨rfl, .inr rfl⟩
    | true =>
      rw [if_neg fun h => h.2 rfl]
      exact .inr ⟨hact, rfl, rfl⟩

/-- What is traded has passed every gate. -/
theorem decideUnder_trades (h : (input.decideUnder feedback).action ≠ .hold) :
    ∃ market, input.bestMarket = some market ∧
      input.Clears market (input.blendedSignal feedback) (input.blendedConfidence feedback) ∧
      signalToAction (input.blendedSignal feedback) ≠ .hold ∧
      (input.decideUnder feedback).action = signalToAction (input.blendedSignal feedback) ∧
      input.decideUnder feedback = input.decideOn market feedback := by
  unfold DecisionInput.decideUnder at h ⊢
  dsimp only at h ⊢
  split at h
  · exact absurd rfl h
  rename_i hconfident
  split at h
  · exact absurd rfl h
  rename_i hroom
  rw [if_neg hconfident, if_neg hroom]
  cases hcooled : input.cooldownRemaining with
  | some remaining =>
    rw [hcooled] at h
    exact absurd rfl h
  | none =>
    cases hmarket : input.bestMarket with
    | none =>
      rw [hcooled, hmarket] at h
      exact absurd rfl h
    | some market =>
      rw [hcooled, hmarket] at h
      dsimp only at h ⊢
      rcases decideOn_cases input market feedback with ⟨hheld, -⟩ | ⟨hact, hworth, haction⟩
      · exact absurd hheld h
      · refine ⟨market, rfl, ⟨hconfident, fun hpositive => ?_, hcooled, hworth⟩, hact, haction, rfl⟩
        exact Nat.lt_of_not_le fun hfull => hroom ⟨hfull, hpositive⟩

/-- What passes every gate is traded. -/
theorem decideUnder_of_clears (hmarket : input.bestMarket = some market)
    (h : input.Clears market (input.blendedSignal feedback) (input.blendedConfidence feedback))
    (hact : signalToAction (input.blendedSignal feedback) ≠ .hold) :
    (input.decideUnder feedback).action = signalToAction (input.blendedSignal feedback) ∧
      input.decideUnder feedback = input.decideOn market feedback := by
  have hroom : ¬ (input.effective.maxOpenPositions ≤ openPositionCount input.state ∧
      0.0 < input.blendedSignal feedback) := fun hfull => absurd (h.room hfull.2) (Nat.not_lt_of_le hfull.1)
  unfold DecisionInput.decideUnder
  dsimp only
  rw [if_neg h.confident, if_neg hroom, h.cooled, hmarket]
  dsimp only
  rcases decideOn_cases input market feedback with ⟨-, hheld | hworth⟩ | ⟨-, -, haction⟩
  · exact absurd hheld hact
  · rw [h.worthwhile] at hworth
    cases hworth
  · exact ⟨haction, rfl⟩

theorem decideOn_confidence (input : DecisionInput F) (market : TargetMarket F)
    (feedback : Option (RoiFeedbackAdjustment F)) :
    (input.decideOn market feedback).confidence = input.blendedConfidence feedback ∧
      (input.decideOn market feedback).exchange = market.exchange ∧
      (input.decideOn market feedback).symbol = market.symbol ∧
      (input.decideOn market feedback).economics =
        input.economics market (input.blendedSignal feedback) (input.blendedConfidence feedback) := by
  unfold DecisionInput.decideOn
  dsimp only
  split <;> exact ⟨rfl, rfl, rfl, rfl⟩

theorem decideOn_override (input : DecisionInput F) (market : TargetMarket F)
    (feedback : Option (RoiFeedbackAdjustment F)) : (input.decideOn market feedback).overrideApplied = false := by
  unfold DecisionInput.decideOn
  dsimp only
  split <;> rfl

theorem decide_of_no_override (h : input.decide.overrideApplied = false) :
    input.state.pendingOverride = none ∧ input.decide = input.decideUnder input.roiFeedback := by
  unfold DecisionInput.decide at h ⊢
  cases hpending : input.state.pendingOverride with
  | none => exact ⟨rfl, rfl⟩
  | some ov =>
    rw [hpending] at h
    cases h

end Gates

section Thresholds
variable {F : Type} [Scalar F] [Scalar.Comparable F]

theorem signalToAction_buys {signal : F} (h : (signalToAction signal).side = some .buy) : 0.0 < signal := by
  unfold signalToAction at h
  split_ifs at h with hstrong hbuy
  · exact Scalar.lt_of_lt_of_le Scalar.Comparable.zero_lt_signals.2 hstrong
  · exact Scalar.lt_of_lt_of_le Scalar.Comparable.zero_lt_signals.1 hbuy
  · cases h
  · cases h
  · cases h

/-- The gate never comes down from the threshold that is configured. -/
theorem baseThreshold_le (config : EffectiveConfig F) (consensus : Received.AiConsensus F) :
    ¬ (adaptiveConfidenceGate config consensus).threshold <
      (adaptiveConfidenceGate config consensus).baseThreshold :=
  Scalar.not_clamp_lt (Scalar.not_lt_clamp (Scalar.not_lt_of_le Scalar.Comparable.zero_le_one))

end Thresholds

section Traded
variable {F : Type} [AmountScalar F] [NumberText F] [Scalar.Comparable F]

/-- Every trade of the engine's own has passed the gates that `decide` has. The comparisons are those of the
code: none of them holds of NaN, and the net edge is given `f64::EPSILON`. -/
theorem decide_gated (input : DecisionInput F) (hengine : input.decide.overrideApplied = false)
    (htrade : input.decide.action ≠ .hold) :
    ¬ input.decide.confidence < input.adaptiveGate.threshold ∧
      ¬ input.adaptiveGate.threshold < input.adaptiveGate.baseThreshold ∧
      (∀ last ∈ input.state.lastTradeAt,
        ¬ input.now - last < Scalar.ofCount input.effective.minTradeIntervalSeconds) ∧
      (input.decide.action.side = some .buy →
        openPositionCount input.state < input.effective.maxOpenPositions) ∧
      input.decide.economics.requiredNetEdgeBps ≤
        input.decide.economics.expectedNetEdgeBps + Scalar.epsilon ∧
      ∃ market, input.bestMarket = some market ∧ input.decide.exchange = market.exchange ∧
        input.decide.symbol = market.symbol := by
  obtain ⟨-, hdecide⟩ := decide_of_no_override hengine
  rw [hdecide] at htrade ⊢
  obtain ⟨market, hmarket, hclears, -, haction, heq⟩ := decideUnder_trades htrade
  obtain ⟨hconfidence, hexchange, hsymbol, heconomics⟩ := decideOn_confidence input market input.roiFeedback
  refine ⟨?_, baseThreshold_le _ _, ?_, ?_, ?_, market, hmarket, ?_, ?_⟩
  · rw [heq, hconfidence]
    exact hclears.confident
  · intro last hlast hrecent
    have hcooled := hclears.cooled
    unfold DecisionInput.cooldownRemaining at hcooled
    rw [show input.state.lastTradeAt = some last from hlast, Option.bind_some, if_pos hrecent] at hcooled
    cases hcooled
  · rw [haction]
    exact fun hbuy => hclears.room (signalToAction_buys hbuy)
  · rw [heq, heconomics]
    exact of_decide_eq_true hclears.worthwhile
  · rw [heq, hexchange]
  · rw [heq, hsymbol]

end Traded

section Sample

def DecisionSettings.sample (microTradeMinUsd microTradeMaxUsd : ℚ) : DecisionSettings ℚ :=
  { fuzzyWeight := 2 / 5
    fuzzyConfidenceThreshold := 0
    maxOpenPositions := 10
    minTradeIntervalSeconds := 300
    microTradeMinUsd
    microTradeMaxUsd
    decisionRoiFeedbackEnabled := true
    decisionRoiFeedbackLookbackTrades := 200
    decisionRoiFeedbackMinSamples := 2
    decisionRoiFeedbackTargetRoiPct := 1
    decisionRoiFeedbackMaxSignalAdjustment := 1 / 2
    decisionRoiFeedbackMaxConfidencePenalty := 1 / 4
    decisionRoiFeedbackMaxConfidenceBoost := 1 / 10
    markoutCalibrationMinSamples := 20
    expectedMoveBps := 100
    estimatedFeeBps := 10
    estimatedSlippageBps := 5
    minimumNetEdgeBps := 1 }

/-- Three advisers have answered, and the quant policy has put an edge into the vote distribution. -/
def sampleConsensus (signal confidence netEdgeBps : ℚ) (members : List (String × Library.Json ℚ)) :
    Received.AiConsensus ℚ :=
  { action := "buy"
    confidence
    signal
    voteDistribution :=
      .object (("edge_lower_bound_bps", .number netEdgeBps rfl) ::
        ("estimated_round_trip_cost_bps", .integer 0) :: members)
    advices := []
    responders := 3
    failures := 0 }

def TargetMarket.bitcoin : TargetMarket ℚ :=
  { exchange := "binance", symbol := "BTC/USDT", price := 50000, fetchedAt := 1000, priceChangePct24h := none }

/-- A fuzzy signal and a consensus that agree, over a state without a past. -/
def DecisionInput.sample (signal confidence netEdgeBps : ℚ) : DecisionInput ℚ :=
  { engineFuzzyWeight := 2 / 5
    fuzzy := { signal, confidence }
    consensus := sampleConsensus signal confidence netEdgeBps []
    bestMarket := some .bitcoin
    state := .new 1000 200
    config := .sample 1 10
    now := 1000 }

theorem decide_gated_sample :
    let input := DecisionInput.sample 1 1 50
    ¬ input.decide.confidence < input.adaptiveGate.threshold ∧
      ¬ input.adaptiveGate.threshold < input.adaptiveGate.baseThreshold ∧
      (∀ last ∈ input.state.lastTradeAt,
        ¬ input.now - last < Scalar.ofCount input.effective.minTradeIntervalSeconds) ∧
      (input.decide.action.side = some .buy →
        openPositionCount input.state < input.effective.maxOpenPositions) ∧
      input.decide.economics.requiredNetEdgeBps ≤
        input.decide.economics.expectedNetEdgeBps + Scalar.epsilon ∧
      ∃ market, input.bestMarket = some market ∧ input.decide.exchange = market.exchange ∧
        input.decide.symbol = market.symbol :=
  decide_gated (DecisionInput.sample 1 1 50) (by decide +kernel) (by decide +kernel)

/-- A net edge just below the required one is traded. -/
theorem short_edge_traded :
    let input := DecisionInput.sample 1 1 (1 - 1 / 2 ^ 53)
    input.decide.action = .strongBuy ∧ input.decide.overrideApplied = false ∧
      input.decide.economics.expectedNetEdgeBps < input.decide.economics.requiredNetEdgeBps := by
  decide +kernel

end Sample
end Gail.Trading.Decision
