import Gail.Trading.OrderReplies

/-! The settings that decisions are made under: those of the deployment, and the runtime overrides that
go before them. -/
namespace Gail.Trading

/-- `f64::min`. -/
def minimum {F : Type} [Scalar F] (x y : F) : F := -Scalar.max (-x) (-y)

structure TradingConfigOverride (F : Type) where
  evaluationIntervalSeconds : Option Nat
  microTradeMaxUsd : Option F
  microTradeMinUsd : Option F
  maxOpenPositions : Option Nat
  fuzzyConfidenceThreshold : Option F
  fuzzyWeight : Option F
  decisionRoiFeedbackTargetRoiPct : Option F
  decisionRoiFeedbackMaxSignalAdjustment : Option F
  decisionRoiFeedbackMaxConfidencePenalty : Option F
  decisionRoiFeedbackMaxConfidenceBoost : Option F
  targetExchanges : Option (List String)
  targetCurrencies : Option (List String)
  deriving DecidableEq

/-- The settings of the deployment that overrides and effective settings are formed from. -/
structure DecisionConfig (F : Type) where
  fuzzyWeight : F
  fuzzyConfidenceThreshold : F
  maxOpenPositions : Nat
  minTradeIntervalSeconds : Nat
  microTradeMinUsd : F
  microTradeMaxUsd : F
  decisionRoiFeedbackEnabled : Bool
  decisionRoiFeedbackLookbackTrades : Nat
  decisionRoiFeedbackMinSamples : Nat
  decisionRoiFeedbackTargetRoiPct : F
  decisionRoiFeedbackMaxSignalAdjustment : F
  decisionRoiFeedbackMaxConfidencePenalty : F
  decisionRoiFeedbackMaxConfidenceBoost : F
  deriving DecidableEq

/-- What `decide` goes by. -/
structure EffectiveConfig (F : Type) where
  fuzzyWeight : F
  fuzzyConfidenceThreshold : F
  maxOpenPositions : Nat
  minTradeIntervalSeconds : Nat
  microTradeMinUsd : F
  microTradeMaxUsd : F
  decisionRoiFeedbackEnabled : Bool
  decisionRoiFeedbackLookbackTrades : Nat
  decisionRoiFeedbackMinSamples : Nat
  decisionRoiFeedbackTargetRoiPct : F
  decisionRoiFeedbackMaxSignalAdjustment : F
  decisionRoiFeedbackMaxConfidencePenalty : F
  decisionRoiFeedbackMaxConfidenceBoost : F
  deriving DecidableEq

namespace TradingConfigOverride

/-- No field is overridden. -/
def none {F : Type} : TradingConfigOverride F :=
  { evaluationIntervalSeconds := .none
    microTradeMaxUsd := .none
    microTradeMinUsd := .none
    maxOpenPositions := .none
    fuzzyConfidenceThreshold := .none
    fuzzyWeight := .none
    decisionRoiFeedbackTargetRoiPct := .none
    decisionRoiFeedbackMaxSignalAdjustment := .none
    decisionRoiFeedbackMaxConfidencePenalty := .none
    decisionRoiFeedbackMaxConfidenceBoost := .none
    targetExchanges := .none
    targetCurrencies := .none }

/-- Each field of the overrides in force. -/
def fields {F : Type} (overrides : Option (TradingConfigOverride F)) : TradingConfigOverride F :=
  overrides.getD none

end TradingConfigOverride

section Definitions
variable {F : Type} [Scalar F]

/-- `==` of two optional numbers. -/
def sameNumber : Option F → Option F → Bool
  | none, none => true
  | some x, some y => decide (x ≤ y) && decide (y ≤ x)
  | _, _ => false

/-- `==` of two records of overrides. -/
def TradingConfigOverride.sameAs (left right : TradingConfigOverride F) : Bool :=
  left.evaluationIntervalSeconds == right.evaluationIntervalSeconds &&
    sameNumber left.microTradeMaxUsd right.microTradeMaxUsd &&
    sameNumber left.microTradeMinUsd right.microTradeMinUsd &&
    left.maxOpenPositions == right.maxOpenPositions &&
    sameNumber left.fuzzyConfidenceThreshold right.fuzzyConfidenceThreshold &&
    sameNumber left.fuzzyWeight right.fuzzyWeight &&
    sameNumber left.decisionRoiFeedbackTargetRoiPct right.decisionRoiFeedbackTargetRoiPct &&
    sameNumber left.decisionRoiFeedbackMaxSignalAdjustment right.decisionRoiFeedbackMaxSignalAdjustment &&
    sameNumber left.decisionRoiFeedbackMaxConfidencePenalty right.decisionRoiFeedbackMaxConfidencePenalty &&
    sameNumber left.decisionRoiFeedbackMaxConfidenceBoost right.decisionRoiFeedbackMaxConfidenceBoost &&
    left.targetExchanges == right.targetExchanges && left.targetCurrencies == right.targetCurrencies

/-- `EffectiveConfig::from`. -/
def EffectiveConfig.ofBase (base : DecisionConfig F) (overrides : Option (TradingConfigOverride F))
    (defaultFuzzyWeight : F) : EffectiveConfig F :=
  let ov := TradingConfigOverride.fields overrides
  { fuzzyWeight := clamp (ov.fuzzyWeight.getD defaultFuzzyWeight) 0.0 1.0
    fuzzyConfidenceThreshold := ov.fuzzyConfidenceThreshold.getD base.fuzzyConfidenceThreshold
    maxOpenPositions := ov.maxOpenPositions.getD base.maxOpenPositions
    minTradeIntervalSeconds := base.minTradeIntervalSeconds
    microTradeMinUsd := ov.microTradeMinUsd.getD base.microTradeMinUsd
    microTradeMaxUsd := ov.microTradeMaxUsd.getD base.microTradeMaxUsd
    decisionRoiFeedbackEnabled := base.decisionRoiFeedbackEnabled
    decisionRoiFeedbackLookbackTrades := base.decisionRoiFeedbackLookbackTrades
    decisionRoiFeedbackMinSamples := base.decisionRoiFeedbackMinSamples
    decisionRoiFeedbackTargetRoiPct :=
      clamp (ov.decisionRoiFeedbackTargetRoiPct.getD base.decisionRoiFeedbackTargetRoiPct) 0.1 50.0
    decisionRoiFeedbackMaxSignalAdjustment :=
      clamp (ov.decisionRoiFeedbackMaxSignalAdjustment.getD base.decisionRoiFeedbackMaxSignalAdjustment)
        0.0 0.5
    decisionRoiFeedbackMaxConfidencePenalty :=
      clamp (ov.decisionRoiFeedbackMaxConfidencePenalty.getD
        base.decisionRoiFeedbackMaxConfidencePenalty) 0.0 0.95
    decisionRoiFeedbackMaxConfidenceBoost :=
      clamp (ov.decisionRoiFeedbackMaxConfidenceBoost.getD base.decisionRoiFeedbackMaxConfidenceBoost)
        0.0 0.5 }

/-- The weight that the engine is built with. -/
def DecisionConfig.engineFuzzyWeight (config : DecisionConfig F) : F := clamp config.fuzzyWeight 0.0 1.0

/-- What `decide` makes of the settings and the overrides in force. -/
def DecisionConfig.effective (config : DecisionConfig F) (overrides : Option (TradingConfigOverride F)) :
    EffectiveConfig F :=
  .ofBase config overrides config.engineFuzzyWeight

/-- What the feedback on an order below the exchange's minimum writes: a new minimum, a new maximum. -/
def tradeFloorChanges (config : DecisionConfig F) (overrides : Option (TradingConfigOverride F))
    (recommendedMinUsd : F) : Option F × Option F :=
  if !Scalar.isFinite recommendedMinUsd || decide (recommendedMinUsd ≤ 0.0) then (.none, .none)
  else
    let target := minimum (Scalar.max recommendedMinUsd config.microTradeMinUsd) 1000000.0
    let ov := TradingConfigOverride.fields overrides
    let currentMin := ov.microTradeMinUsd.getD config.microTradeMinUsd
    let currentMax := ov.microTradeMaxUsd.getD config.microTradeMaxUsd
    (if currentMin + Scalar.epsilon < target then some target else .none,
      if currentMax + Scalar.epsilon < target then some target else .none)

/-- The sizes that were written go over the others. -/
def TradingConfigOverride.withSizes (overrides : TradingConfigOverride F) (min max : Option F) :
    TradingConfigOverride F :=
  { overrides with
    microTradeMinUsd := min.or overrides.microTradeMinUsd
    microTradeMaxUsd := max.or overrides.microTradeMaxUsd }

/-- An override record is only made when there is something to write. -/
def applyTradeFloorFeedback (config : DecisionConfig F) (overrides : Option (TradingConfigOverride F))
    (recommendedMinUsd : F) : Option (TradingConfigOverride F) :=
  match tradeFloorChanges config overrides recommendedMinUsd with
  | (.none, .none) => overrides
  | (min, max) => some ((TradingConfigOverride.fields overrides).withSizes min max)

end Definitions
end Gail.Trading
