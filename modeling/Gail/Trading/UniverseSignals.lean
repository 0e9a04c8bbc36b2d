import Gail.Trading.NativeReplay
import Gail.Trading.Portfolio

/-! The deterministic policy of an arm over a universe of markets: the prediction for each market, and
the one market that the allocation puts first. -/
namespace Gail.Trading
open Gail.Library Datalake

section Predictions
variable {F : Type} [Scalar F]

def volatilityNormalisedReturn (returnPct volatilityPct horizonScale : F) : F :=
  let denominator := Scalar.max (Scalar.max (Scalar.abs volatilityPct) 0.25 * Scalar.max horizonScale 1.0) 0.25
  clamp (returnPct / denominator) (-1.0) 1.0

def featureCoverage (history : Option (MarketHistoricalFeatures F)) (snapshot : Datalake.MarketSnapshot F) :
    F :=
  match history with
  | none => if snapshot.priceChangePct1h.isSome && snapshot.volume24h.isSome then 0.40 else 0.20
  | some history =>
    let available := [history.momentumShortPct, history.momentumMidPct, history.momentumLongPct,
      history.volatilityPct, history.drawdownPct, history.volumeRatioShortLong].countP Option.isSome
    clamp (Scalar.ofCount available / 6.0) 0.0 1.0

def rangeRisk (snapshot : Datalake.MarketSnapshot F) : F :=
  match snapshot.high24h, snapshot.low24h with
  | some high, some low =>
    if 0.0 < high ∧ 0.0 < low ∧ low ≤ high then clamp ((high - low) / low / 0.20) 0.0 1.0 else 0.5
  | _, _ => 0.5

def riskPressure (history : MarketHistoricalFeatures F) : F :=
  let volatilityComponent := clamp (Scalar.abs (history.volatilityPct.getD 0.0) / 8.0) 0.0 1.0
  let drawdownComponent := clamp (Scalar.abs (history.drawdownPct.getD 0.0) / 15.0) 0.0 1.0
  clamp (volatilityComponent * 0.65 + drawdownComponent * 0.35) 0.0 1.0

def predictionFor (snapshot : Datalake.MarketSnapshot F) (history : Option (MarketHistoricalFeatures F))
    (parameters : QuantParameters F) : QuantPrediction F :=
  let prediction (signal confidence riskScore : F) (actionable : Bool) : QuantPrediction F :=
    { parameterId := parameters.id
      exchange := snapshot.exchange
      symbol := snapshot.symbol
      entryPrice := snapshot.price
      signal
      confidence
      riskScore
      actionable }
  match parameters.kind with
  | .cash => prediction 0.0 0.0 0.0 false
  | .momentum =>
    let volatilityPct := Scalar.max ((((history.bind MarketHistoricalFeatures.volatilityPct).filter
      Scalar.isFinite).map Scalar.abs).getD 2.0) 0.25
    let normalised (horizonScale value : F) := volatilityNormalisedReturn value volatilityPct horizonScale
    let live := ((snapshot.priceChangePct1h <|> snapshot.priceChangePct24h).map (normalised 2.0)).getD 0.0
    let short := ((history.bind MarketHistoricalFeatures.momentumShortPct).map (normalised 2.0)).getD live
    let mid :=
      ((history.bind MarketHistoricalFeatures.momentumMidPct).map (normalised 4.0)).getD (live * 0.5)
    let long := ((history.bind MarketHistoricalFeatures.momentumLongPct).map (normalised 8.0)).getD 0.0
    let volumeConfirmation :=
      ((history.bind MarketHistoricalFeatures.volumeRatioShortLong <|>
        snapshot.volumeChangePct.map fun value => 1.0 + value / 100.0).map
          fun ratio => clamp ((ratio - 1.0) / 1.5) (-1.0) 1.0).getD 0.0
    let riskScore := (history.map riskPressure).getD (rangeRisk snapshot)
    let momentum := short * parameters.shortMomentumWeight + mid * parameters.midMomentumWeight +
      long * parameters.longMomentumWeight + live * parameters.liveMomentumWeight
    let confirmationDirection :=
      if Scalar.abs momentum ≤ Scalar.epsilon then 0.0 else Scalar.signum momentum
    let confirmed :=
      momentum + confirmationDirection * volumeConfirmation * parameters.volumeConfirmationWeight
    let signal := clamp (confirmed * (1.0 - parameters.riskAttenuation * riskScore)) (-1.0) 1.0
    let coverage := featureCoverage history snapshot
    let strength := clamp (Scalar.abs signal / Scalar.max parameters.entryThreshold 0.01) 0.0 1.0
    let confidence :=
      clamp ((0.35 + strength * 0.55 + coverage * 0.10) * (1.0 - riskScore * 0.30)) 0.0 1.0
    prediction signal confidence riskScore
      (decide (0.45 ≤ coverage) &&
        decide (parameters.entryThreshold ≤ Scalar.abs signal + Scalar.epsilon) &&
        decide (riskScore < 0.82))

def evaluateSymbol (parameters : QuantParameters F) (snapshot : Datalake.MarketSnapshot F)
    (history : Option (MarketHistoricalFeatures F)) : QuantSignal F :=
  let prediction := predictionFor snapshot history parameters
  { parameterId := parameters.id
    exchange := snapshot.exchange
    symbol := snapshot.symbol
    signal := prediction.signal
    confidence := prediction.confidence
    riskScore := prediction.riskScore
    actionable := prediction.actionable }

def executableDepthUsd (snapshot : Datalake.MarketSnapshot F) : Option F :=
  match snapshot.microstructure.bidDepthUsd, snapshot.microstructure.askDepthUsd with
  | some bid, some ask => some (if ask < bid then ask else bid)
  | some depth, none => some depth
  | none, some depth => some depth
  | none, none => none

end Predictions

/-- The quote is what follows the last slash. -/
def isUsdtQuote (symbol : String) : Bool :=
  symbol.toList.contains '/' &&
    eqIgnoreAsciiCase (trim (String.ofList (symbol.toList.reverse.takeWhile (· != '/')).reverse)) "USDT"

def correlationCluster (symbol : String) : String :=
  let base := toAsciiUppercase (String.ofList (symbol.toList.takeWhile (· != '/')))
  if ["BTC", "ETH", "BNB", "SOL"].contains base then "large_cap" else base

/-- `QuantSignal::hold` of no market. -/
def QuantSignal.hold {F : Type} [Scalar F] : QuantSignal F :=
  { parameterId := ""
    exchange := ""
    symbol := ""
    signal := 0.0
    confidence := 0.0
    riskScore := 0.0
    actionable := false }

section Universe
variable (functions : ScoreFunctions ℚ) (portfolioConfig : CrossSectionalConfig ℚ)
  (microstructureSignalWeight : ℚ) (parameters : QuantParameters ℚ) (frame : QuantBacktestFrame ℚ)

def usableMarkets : List (Datalake.MarketSnapshot ℚ) :=
  frame.snapshots.filter fun snapshot =>
    Scalar.isFinite snapshot.price && decide (0 < snapshot.price) && isUsdtQuote snapshot.symbol

/-- The first market by name, without a signal. -/
def benchmarkHoldSignal : QuantSignal ℚ :=
  match (sortByKey (fun snapshot : Datalake.MarketSnapshot ℚ => toLex (snapshot.exchange, snapshot.symbol))
      (usableMarkets frame)).head? with
  | none => .hold
  | some snapshot =>
    { QuantSignal.hold with
      parameterId := parameters.id
      exchange := snapshot.exchange
      symbol := snapshot.symbol }

/-- What the allocation is given for a market, for a portfolio that holds nothing. -/
def crossSectionalInput (snapshot : Datalake.MarketSnapshot ℚ) : QuantSignal ℚ × CrossSectionalInput ℚ :=
  let history := frame.historicalFeatures (marketFeatureKey snapshot.exchange snapshot.symbol)
  let signal := evaluateSymbol parameters snapshot history
  let microstructure := snapshot.microstructure
  let microstructureSignal :=
    clamp ((microstructure.orderFlowImbalance <|> microstructure.tradeFlowImbalance).getD 0) (-1) 1
  let quoteVolumeUsd := microstructure.quoteVolume24h <|>
    snapshot.volume24h.map (· * snapshot.price)
  (signal,
    { exchange := snapshot.exchange
      symbol := snapshot.symbol
      directionalSignal := clamp (signal.signal * (1 - microstructureSignalWeight) +
        microstructureSignal * microstructureSignalWeight) (-1) 1
      confidence := signal.confidence
      riskScore := signal.riskScore
      volatilityPct := Scalar.max (Scalar.abs ((history.bind MarketHistoricalFeatures.volatilityPct).getD
        (rangeRisk snapshot * 8))) (1 / 100)
      quoteVolumeUsd := quoteVolumeUsd.filter fun value => Scalar.isFinite value && decide (0 ≤ value)
      spreadBps := spreadBps snapshot
      depthUsd := executableDepthUsd snapshot
      listingAgeDays := microstructure.listingAgeDays
      inventoryEligible := 0 ≤ signal.signal
      actionable := signal.actionable
      correlationCluster := correlationCluster snapshot.symbol
      currentWeight := 0 })

/-- `evaluate_universe_for_parameters` in exact arithmetic, for a portfolio that holds nothing. -/
def evaluateUniverse : QuantSignal ℚ :=
  match parameters.kind with
  | .cash => benchmarkHoldSignal parameters frame
  | .momentum =>
    let candidates :=
      (usableMarkets frame).map (crossSectionalInput microstructureSignalWeight parameters frame)
    let recommendation :=
      (CrossSectionalAllocator.new portfolioConfig).allocate functions (candidates.map Prod.snd)
    match recommendation.allocations.head? with
    | none => benchmarkHoldSignal parameters frame
    | some selected =>
      match candidates.find? fun candidate =>
          eqIgnoreAsciiCase candidate.1.exchange selected.exchange &&
            eqIgnoreAsciiCase candidate.1.symbol selected.symbol with
      | none => benchmarkHoldSignal parameters frame
      | some candidate => candidate.1

end Universe

end Gail.Trading
