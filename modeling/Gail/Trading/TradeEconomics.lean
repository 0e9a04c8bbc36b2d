import Gail.Trading.ConfigOverrides

/-! What a trade is expected to bring after its costs, and how large it is. -/
namespace Gail.Trading.Decision
variable {F : Type}

/-- The settings of the deployment that a decision reads. -/
structure DecisionSettings (F : Type) extends DecisionConfig F where
  markoutCalibrationMinSamples : Nat
  expectedMoveBps : F
  estimatedFeeBps : F
  estimatedSlippageBps : F
  minimumNetEdgeBps : F

structure TradeEconomics (F : Type) where
  expectedGrossEdgeBps : F
  estimatedRoundTripCostBps : F
  expectedNetEdgeBps : F
  requiredNetEdgeBps : F
  calibrationMultiplier : F
  deriving DecidableEq

section Economics
variable [Scalar F]

namespace TradeEconomics

def default : TradeEconomics F :=
  { expectedGrossEdgeBps := 0.0
    estimatedRoundTripCostBps := 0.0
    expectedNetEdgeBps := 0.0
    requiredNetEdgeBps := 0.0
    calibrationMultiplier := 0.0 }

def isWorthwhile (economics : TradeEconomics F) : Bool :=
  economics.requiredNetEdgeBps ≤ economics.expectedNetEdgeBps + Scalar.epsilon

/-- A marginal trade remains small, and a strong one may reach the maximum. -/
def sizeMultiplier (economics : TradeEconomics F) : F :=
  if !economics.isWorthwhile then 0.0
  else
    let surplus := economics.expectedNetEdgeBps - economics.requiredNetEdgeBps
    let usefulRange :=
      Scalar.max (economics.expectedGrossEdgeBps - economics.requiredNetEdgeBps)
        (Scalar.max economics.requiredNetEdgeBps 1.0)
    clamp (0.20 + 0.80 * clamp (surplus / usefulRange) 0.0 1.0) 0.0 1.0

end TradeEconomics

def estimateTradeEconomics (signalStrength confidence calibrationMultiplier : F) (config : DecisionSettings F) :
    TradeEconomics F :=
  let calibrationMultiplier := clamp calibrationMultiplier 0.25 1.50
  let expectedGrossEdgeBps :=
    config.expectedMoveBps * clamp signalStrength 0.0 1.0 * clamp confidence 0.0 1.0 * calibrationMultiplier
  -- The position is entered now and unwound later.
  let estimatedRoundTripCostBps := 2.0 * (config.estimatedFeeBps + config.estimatedSlippageBps)
  { expectedGrossEdgeBps
    estimatedRoundTripCostBps
    expectedNetEdgeBps := expectedGrossEdgeBps - estimatedRoundTripCostBps
    requiredNetEdgeBps := config.minimumNetEdgeBps
    calibrationMultiplier }

/-- The edge that the quant policy states takes the place of the estimate. -/
def TradeEconomics.withQuantEdge (economics : TradeEconomics F) (netLowerBound executableCost : F) :
    TradeEconomics F :=
  let estimatedRoundTripCostBps := Scalar.max executableCost 0.0
  { economics with
    expectedNetEdgeBps := netLowerBound
    estimatedRoundTripCostBps
    expectedGrossEdgeBps := netLowerBound + estimatedRoundTripCostBps }

end Economics

/-- To two decimal places. -/
def toCents [AmountScalar F] (amount : F) : F := AmountScalar.round (amount * 100.0) / 100.0

/-- The size grows with the signal, the confidence and the expected edge. -/
def sizeTrade [AmountScalar F] (signalStrength confidence edgeMultiplier minUsd maxUsd : F) : F :=
  let scale := clamp (signalStrength * confidence * edgeMultiplier) 0.0 1.0
  toCents (minUsd + (maxUsd - minUsd) * scale)

end Gail.Trading.Decision
