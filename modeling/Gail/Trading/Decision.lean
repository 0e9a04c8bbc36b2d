import Gail.Trading.Consensus
import Gail.Trading.OutcomeLedger
import Gail.Trading.SnapshotState
import Gail.Trading.TradeEconomics

/-! The decision engine: the fuzzy signal and the consensus are blended, the outcomes of past decisions adjust
the blend, and what passes every gate becomes a trade. -/
namespace Gail.Trading.Decision
open Gail.Library

/-- The output of the fuzzy logic. -/
structure FuzzyDecision (F : Type) where
  signal : F
  confidence : F

structure TargetMarket (F : Type) extends MarketSnapshot F where
  priceChangePct24h : Option F

structure AdaptiveConfidenceGate (F : Type) where
  threshold : F
  baseThreshold : F
  coverage : F
  responders : Nat
  failures : Nat

structure RoiFeedbackAdjustment (F : Type) where
  signalAdjustment : F
  confidenceMultiplier : F
  samples : Nat
  avgDirectionalRoi : F
  winRate : F

structure TradeDecision (F : Type) where
  action : TradeAction
  exchange : String
  symbol : String
  amountUsd : F
  confidence : F
  rationale : String
  fuzzySignal : F
  fuzzyConfidence : F
  aiSignal : F
  aiConfidence : F
  blendedSignal : F
  /-- The feedback that was applied, whose members the source keeps one by one. -/
  roiFeedback : Option (RoiFeedbackAdjustment F)
  overrideApplied : Bool
  createdAt : F
  marketFetchedAt : Option F
  referencePrice : Option F
  economics : TradeEconomics F
  providerKeys : List String
  marketRegime : String
  holdingHorizonSeconds : Option Nat
  portfolioTargetWeight : Option F

/-- What a decision is made of. -/
structure DecisionInput (F : Type) [Scalar F] where
  /-- The weight that the engine is built with. -/
  engineFuzzyWeight : F
  fuzzy : FuzzyDecision F
  consensus : Received.AiConsensus F
  bestMarket : Option (TargetMarket F)
  state : Snapshot.TradingState F
  config : DecisionSettings F
  now : F

section Definitions
variable {F : Type} [Scalar F]

def TradeDecision.hold (rationale : String) (now : F) : TradeDecision F :=
  { action := .hold
    exchange := ""
    symbol := ""
    amountUsd := 0.0
    confidence := 0.0
    rationale
    fuzzySignal := 0.0
    fuzzyConfidence := 0.0
    aiSignal := 0.0
    aiConfidence := 0.0
    blendedSignal := 0.0
    roiFeedback := none
    overrideApplied := false
    createdAt := now
    marketFetchedAt := none
    referencePrice := none
    economics := .default
    providerKeys := []
    marketRegime := "unknown"
    holdingHorizonSeconds := none
    portfolioTargetWeight := none }

def signalToAction (signal : F) : TradeAction :=
  if 0.65 ≤ signal then .strongBuy
  else if 0.2 ≤ signal then .buy
  else if signal ≤ -0.65 then .strongSell
  else if signal ≤ -0.2 then .sell
  else .hold

def isCashAsset (asset : String) : Bool :=
  ["USD", "USDT", "USDC", "BUSD", "DAI", "EUR", "GBP"].contains (toAsciiUppercase (trim asset))

/-- The assets that are held for more than a cent, cash apart. -/
def openPositionCount (state : Snapshot.TradingState F) : Nat :=
  match state.currentPortfolio with
  | none => 0
  | some portfolio =>
    portfolio.currencies.countP fun (asset, balance) =>
      !isCashAsset asset && Scalar.isFinite balance.total && decide (0.0 < balance.total) &&
        balance.valueUsd.any fun value => Scalar.isFinite value && decide (0.01 < value)

def marketRegimeLabel (snapshot : Option (TargetMarket F)) : String :=
  let change := (snapshot.bind TargetMarket.priceChangePct24h).getD 0.0
  if 3.0 ≤ change then "bull_volatile"
  else if 0.5 ≤ change then "bull"
  else if change ≤ -3.0 then "bear_volatile"
  else if change ≤ -0.5 then "bear"
  else "range"

/-- The threshold that a confidence has to reach, tighter where few advisers have answered. -/
def adaptiveConfidenceGate (config : EffectiveConfig F) (consensus : Received.AiConsensus F) :
    AdaptiveConfidenceGate F :=
  let baseThreshold := clamp config.fuzzyConfidenceThreshold 0.0 1.0
  let responders := consensus.responders
  let failures := consensus.failures
  let coverage := Scalar.ofCount responders / Scalar.ofCount (max (responders + failures) 1)
  let agreement := ((consensus.voteDistribution.getF64 "agreement").map (clamp · 0.0 1.0)).getD 1.0
  let averageRisk := ((consensus.voteDistribution.getF64 "average_risk").map (clamp · 0.0 1.0)).getD 0.5
  let shouldTighten := responders == 0 || decide (0 < failures) || decide (responders < 2)
  let threshold :=
    if shouldTighten then
      let responderDepth := clamp (Scalar.ofCount responders / 3.0) 0.0 1.0
      let degradation :=
        clamp ((1.0 - coverage) * 0.45 + (1.0 - responderDepth) * 0.30 + (1.0 - agreement) * 0.15 +
          averageRisk * 0.10) 0.0 1.0
      let maximumPenalty := minimum (1.0 - baseThreshold) 0.22
      if responders = 0 then 1.0 else baseThreshold + maximumPenalty * degradation
    else baseThreshold
  { threshold := clamp threshold baseThreshold 1.0, baseThreshold, coverage, responders, failures }

inductive DirectionalAction where
  | buy
  | sell
  deriving DecidableEq

structure DirectionalRoiSummary (F : Type) where
  samples : Nat
  avgDirectionalRoi : F
  winRate : F

def directionalActionForSignal (signal : F) : Option DirectionalAction :=
  if 0.0 < signal then some .buy else if signal < 0.0 then some .sell else none

def directionalRoiSummary (outcomes : Snapshot.OutcomeLedger F) (direction : DirectionalAction)
    (symbolFilter : Option String) (lookbackTrades : Nat) : DirectionalRoiSummary F :=
  let summary := outcomes.directionalPerformance symbolFilter (direction = .buy) lookbackTrades
  if summary.samples = 0 then { samples := 0, avgDirectionalRoi := 0.0, winRate := 0.0 }
  else
    { samples := summary.samples
      avgDirectionalRoi := summary.averageNetReturnBps / 10000.0
      winRate := summary.winRate }

/-- The past of a direction on the preferred symbol, or on all where that has too few samples. -/
def feedbackSummary (outcomes : Snapshot.OutcomeLedger F) (preferredSymbol : Option String)
    (direction : DirectionalAction) (config : EffectiveConfig F) : DirectionalRoiSummary F :=
  let lookback := max config.decisionRoiFeedbackLookbackTrades 2
  let minSamples := max config.decisionRoiFeedbackMinSamples 2
  let symbolSummary := (preferredSymbol.map fun symbol =>
    directionalRoiSummary outcomes direction (some symbol) lookback).filter (minSamples ≤ ·.samples)
  symbolSummary.getD (directionalRoiSummary outcomes direction none lookback)

/-- How well a direction has done, from -1 to 1. -/
def DirectionalRoiSummary.performance (summary : DirectionalRoiSummary F) (config : EffectiveConfig F) : F :=
  let targetRoi := Scalar.max (config.decisionRoiFeedbackTargetRoiPct / 100.0) 0.001
  let normalizedRoi := clamp (summary.avgDirectionalRoi / targetRoi) (-1.0) 1.0
  let winBias := clamp ((summary.winRate - 0.5) * 2.0) (-1.0) 1.0
  clamp (normalizedRoi * 0.7 + winBias * 0.3) (-1.0) 1.0

def roiFeedbackAdjustment (outcomes : Snapshot.OutcomeLedger F) (preferredSymbol : Option String) (signal : F)
    (config : EffectiveConfig F) : Option (RoiFeedbackAdjustment F) :=
  if !config.decisionRoiFeedbackEnabled then none
  else
    (directionalActionForSignal signal).bind fun direction =>
      let summary := feedbackSummary outcomes preferredSymbol direction config
      let performance := summary.performance config
      if summary.samples < max config.decisionRoiFeedbackMinSamples 2 then none
      else if Scalar.abs performance < 0.01 then none
      else
        let directionSign : F := if direction = .buy then 1.0 else -1.0
        some
          { signalAdjustment :=
              directionSign * performance * config.decisionRoiFeedbackMaxSignalAdjustment
            confidenceMultiplier :=
              clamp
                (if performance < 0.0 then
                  1.0 - -performance * config.decisionRoiFeedbackMaxConfidencePenalty
                else 1.0 + performance * config.decisionRoiFeedbackMaxConfidenceBoost)
                0.05 2.0
            samples := summary.samples
            avgDirectionalRoi := summary.avgDirectionalRoi
            winRate := summary.winRate }

namespace DecisionInput
variable (input : DecisionInput F)

def effective : EffectiveConfig F :=
  .ofBase input.config.toDecisionConfig input.state.configOverrides input.engineFuzzyWeight

def baseBlendedSignal : F :=
  input.fuzzy.signal * input.effective.fuzzyWeight +
    input.consensus.signal * (1.0 - input.effective.fuzzyWeight)

def baseBlendedConfidence : F :=
  input.fuzzy.confidence * input.effective.fuzzyWeight +
    input.consensus.confidence * (1.0 - input.effective.fuzzyWeight)

def roiFeedback : Option (RoiFeedbackAdjustment F) :=
  roiFeedbackAdjustment input.state.outcomeLedger (input.bestMarket.map (·.symbol)) input.baseBlendedSignal
    input.effective

/-- The blended signal under a feedback. -/
def blendedSignal (feedback : Option (RoiFeedbackAdjustment F)) : F :=
  match feedback with
  | none => input.baseBlendedSignal
  | some adjustment => clamp (input.baseBlendedSignal + adjustment.signalAdjustment) (-1.0) 1.0

def blendedConfidence (feedback : Option (RoiFeedbackAdjustment F)) : F :=
  match feedback with
  | none => input.baseBlendedConfidence
  | some adjustment => clamp (input.baseBlendedConfidence * adjustment.confidenceMultiplier) 0.0 1.0

def adaptiveGate : AdaptiveConfidenceGate F := adaptiveConfidenceGate input.effective input.consensus

/-- The last trade is too recent; the time that is left. -/
def cooldownRemaining : Option F :=
  input.state.lastTradeAt.bind fun last =>
    let elapsed := input.now - last
    let interval := Scalar.ofCount input.effective.minTradeIntervalSeconds
    if elapsed < interval then some (interval - elapsed) else none

def providerKeys : List String :=
  (input.consensus.advices.filter (·.parsedOk)).map fun advice =>
    match advice.model with
    | none => advice.provider
    | some model => advice.provider ++ "/" ++ model

def portfolioTargetWeight : Option F :=
  (input.consensus.voteDistribution.getF64 "rebalance_weight").map fun weight => clamp (Scalar.abs weight) 0.0 1.0

/-- The economics of a trade on a market. -/
def economics (market : TargetMarket F) (signal confidence : F) : TradeEconomics F :=
  let calibration := input.state.outcomeLedger.calibrationFor market.symbol input.providerKeys
    (marketRegimeLabel input.bestMarket) input.config.markoutCalibrationMinSamples
  let estimated := estimateTradeEconomics (Scalar.abs signal) confidence calibration.multiplier input.config
  match input.consensus.voteDistribution.getF64 "edge_lower_bound_bps",
    input.consensus.voteDistribution.getF64 "estimated_round_trip_cost_bps" with
  | some netLowerBound, some executableCost => estimated.withQuantEdge netLowerBound executableCost
  | _, _ => estimated

/-- A hold on the target that a gate leads to. -/
def heldBack (signal confidence : F) (rationale : String) : TradeDecision F :=
  { TradeDecision.hold rationale input.now with
    exchange := (input.bestMarket.map (·.exchange)).getD ""
    symbol := (input.bestMarket.map (·.symbol)).getD ""
    confidence
    fuzzySignal := input.fuzzy.signal
    fuzzyConfidence := input.fuzzy.confidence
    aiSignal := input.consensus.signal
    aiConfidence := input.consensus.confidence
    blendedSignal := signal }

end DecisionInput

section Texts
variable [NumberText F]

/-- `{:+.n}`. -/
def signedText (digits : Nat) (value : F) : String :=
  (if 0.0 ≤ value then "+" else "") ++ NumberText.fixed digits value

def buildRationale (action : TradeAction) (signal confidence : F) (consensus : Received.AiConsensus F)
    (roiFeedback : Option (RoiFeedbackAdjustment F)) : String :=
  let topReasoning := ((consensus.advices.filter fun advice => advice.parsedOk && !advice.reasoning.isEmpty).take
    2).map (·.reasoning)
  let aiSummary :=
    if topReasoning.isEmpty then
      "AI consensus: " ++ consensus.action ++ " (" ++ toString consensus.responders ++ " responders)"
    else "; ".intercalate topReasoning
  let rationale := "Action=" ++ action.name ++ " signal=" ++ NumberText.fixed 3 signal ++ " confidence=" ++
    NumberText.fixed 2 confidence ++ ". " ++ aiSummary
  match roiFeedback with
  | none => rationale
  | some feedback =>
    rationale ++ " Historical directional ROI feedback: avg_roi=" ++
      NumberText.fixed 2 (feedback.avgDirectionalRoi * 100.0) ++ "% win_rate=" ++
      NumberText.fixed 0 (feedback.winRate * 100.0) ++ "% samples=" ++ toString feedback.samples ++
      " signal_adj=" ++ signedText 3 feedback.signalAdjustment ++ " confidence_x=" ++
      NumberText.fixed 2 feedback.confidenceMultiplier ++ "."

def AdaptiveConfidenceGate.rationale (gate : AdaptiveConfidenceGate F) (confidence : F) : String :=
  "Confidence " ++ NumberText.fixed 2 confidence ++ " below adaptive threshold " ++
    NumberText.fixed 2 gate.threshold ++ " (base " ++ NumberText.fixed 2 gate.baseThreshold ++ ", coverage " ++
    NumberText.fixed 0 (gate.coverage * 100.0) ++ "%, responders=" ++ toString gate.responders ++
    ", failures=" ++ toString gate.failures ++ ")"

def TradeEconomics.rationale (economics : TradeEconomics F) : String :=
  "Expected net edge " ++ NumberText.fixed 1 economics.expectedNetEdgeBps ++ "bps below required " ++
    NumberText.fixed 1 economics.requiredNetEdgeBps ++ "bps (gross " ++
    NumberText.fixed 1 economics.expectedGrossEdgeBps ++ "bps, costs " ++
    NumberText.fixed 1 economics.estimatedRoundTripCostBps ++ "bps, calibration " ++
    NumberText.fixed 2 economics.calibrationMultiplier ++ "x)"

end Texts
end Definitions

section Decide
variable {F : Type} [AmountScalar F] [NumberText F]

def applyOverride (ov : Snapshot.TradeOverride F) (config : DecisionSettings F) (now : F) : TradeDecision F :=
  { TradeDecision.hold ("Operator override by " ++ ov.issuedBy ++ ": " ++ ov.reason.getD "no reason given")
      now with
    action := ov.action
    exchange := ov.exchange.getD ""
    symbol := ov.symbol.getD ""
    amountUsd := clamp (ov.amountUsd.getD config.microTradeMinUsd) config.microTradeMinUsd config.microTradeMaxUsd
    confidence := 1.0
    overrideApplied := true
    marketRegime := "operator_override" }

namespace DecisionInput
variable (input : DecisionInput F)

/-- The decision on a market that all earlier gates let pass. -/
def decideOn (market : TargetMarket F) (feedback : Option (RoiFeedbackAdjustment F)) : TradeDecision F :=
  let signal := input.blendedSignal feedback
  let confidence := input.blendedConfidence feedback
  let action := signalToAction signal
  let economics := input.economics market signal confidence
  let seen :=
    { input.heldBack signal confidence "" with
      exchange := market.exchange
      symbol := market.symbol
      marketFetchedAt := some market.fetchedAt
      referencePrice := some market.price
      economics
      providerKeys := input.providerKeys
      marketRegime := marketRegimeLabel input.bestMarket }
  if action ≠ .hold ∧ ¬ economics.isWorthwhile then { seen with rationale := economics.rationale }
  else
    { seen with
      action
      amountUsd :=
        sizeTrade (Scalar.abs signal) confidence economics.sizeMultiplier input.effective.microTradeMinUsd
          input.effective.microTradeMaxUsd * input.portfolioTargetWeight.getD 1.0
      rationale := buildRationale action signal confidence input.consensus feedback
      roiFeedback := feedback
      holdingHorizonSeconds := input.consensus.voteDistribution.getU64 "selected_horizon_seconds"
      portfolioTargetWeight := input.portfolioTargetWeight }

/-- The decision without an override, under a feedback. -/
def decideUnder (feedback : Option (RoiFeedbackAdjustment F)) : TradeDecision F :=
  let signal := input.blendedSignal feedback
  let confidence := input.blendedConfidence feedback
  let openPositions := openPositionCount input.state
  if confidence < input.adaptiveGate.threshold then
    input.heldBack signal confidence (input.adaptiveGate.rationale confidence)
  else if input.effective.maxOpenPositions ≤ openPositions ∧ 0.0 < signal then
    input.heldBack signal confidence ("Max open positions reached (" ++ toString openPositions ++ "/" ++
      toString input.effective.maxOpenPositions ++ ")")
  else
    match input.cooldownRemaining with
    | some remaining =>
      input.heldBack signal confidence ("Cooldown: " ++ NumberText.fixed 0 remaining ++ "s remaining")
    | none =>
      match input.bestMarket with
      | none => input.heldBack signal confidence "No target market available"
      | some market => input.decideOn market feedback

def decide : TradeDecision F :=
  match input.state.pendingOverride with
  | some ov => applyOverride ov input.config input.now
  | none => input.decideUnder input.roiFeedback

end DecisionInput
end Decide
end Gail.Trading.Decision
