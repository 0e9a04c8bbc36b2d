import Gail.Datalake.BacktestFrames
import Gail.Trading.QuantState

/-! The native replay of one arm over recorded frames: its positions, its ledger and the statistics of
what it traded. -/
namespace Gail.Trading
open Gail.Library Datalake

/-- What a replay and its promotion checks read of the settings. -/
structure NativeBacktestConfig (F : Type) where
  initialEquityUsd : F
  tradeNotionalUsd : F
  holdingHorizonSeconds : Nat
  feeBps : F
  slippageBps : F
  minimumTrainingFrames : Nat
  validationFrames : Nat
  embargoFrames : Nat
  minimumValidationTrades : Nat
  confidenceZScore : F
  minimumNetEdgeBps : F
  maximumPbo : F

structure NativeBacktestTrade (F : Type) where
  parameterId : String
  exchange : String
  symbol : String
  enteredAt : F
  exitedAt : F
  direction : F
  entryPrice : F
  exitPrice : F
  grossReturnBps : F
  entryMarketCostBps : F
  exitMarketCostBps : F
  roundTripCostBps : F
  netReturnBps : F
  pnlUsd : F

structure ActionableStatistics (F : Type) where
  samples : Nat
  meanNetReturnBps : F
  standardDeviationBps : F
  lowerConfidenceBoundBps : F
  winRate : F
  downsideMeanBps : F
  cumulativePnlUsd : F

structure CandidateBacktestReport (F : Type) where
  parameterId : String
  trades : Nat
  endingEquityUsd : F
  maximumDrawdownPct : F
  statistics : ActionableStatistics F
  tradeLedger : List (NativeBacktestTrade F)

structure PendingPosition (F : Type) where
  exchange : String
  symbol : String
  enteredAt : F
  dueAt : F
  direction : F
  entryPrice : F
  entryMarketCostBps : F

/-- What a replay carries from frame to frame. -/
structure ReplayState (F : Type) where
  positions : List (PendingPosition F)
  trades : List (NativeBacktestTrade F)
  equity : F
  peakEquity : F
  maximumDrawdownPct : F

/-- The replay engine: its normalised settings, and `evaluate_universe_for_parameters` for an empty
portfolio, which is left open. -/
structure NativeQuantBacktester (F : Type) where
  config : NativeBacktestConfig F
  evaluate : QuantParameters F → QuantBacktestFrame F → QuantSignal F

section Definitions
variable {F : Type} [Scalar F]

def NativeBacktestConfig.normalise (config : NativeBacktestConfig F) : NativeBacktestConfig F :=
  let initialEquityUsd := clamp config.initialEquityUsd 100.0 1000000000.0
  let validationFrames := clampCount config.validationFrames 5 1000000
  { initialEquityUsd
    tradeNotionalUsd := clamp config.tradeNotionalUsd 0.01 initialEquityUsd
    holdingHorizonSeconds := clampCount config.holdingHorizonSeconds 60 (30 * 86400)
    feeBps := clamp config.feeBps 0.0 500.0
    slippageBps := clamp config.slippageBps 0.0 2500.0
    minimumTrainingFrames := clampCount config.minimumTrainingFrames 10 1000000
    validationFrames
    embargoFrames := min config.embargoFrames validationFrames
    minimumValidationTrades := clampCount config.minimumValidationTrades 1 100000
    confidenceZScore := clamp config.confidenceZScore 0.0 4.0
    minimumNetEdgeBps := clamp config.minimumNetEdgeBps 0.0 2500.0
    maximumPbo := clamp config.maximumPbo 0.0 1.0 }

def NativeQuantBacktester.new (config : NativeBacktestConfig F)
    (evaluate : QuantParameters F → QuantBacktestFrame F → QuantSignal F) : NativeQuantBacktester F :=
  { config := config.normalise, evaluate }

namespace ActionableStatistics

def default : ActionableStatistics F :=
  { samples := 0
    meanNetReturnBps := 0.0
    standardDeviationBps := 0.0
    lowerConfidenceBoundBps := 0.0
    winRate := 0.0
    downsideMeanBps := 0.0
    cumulativePnlUsd := 0.0 }

def fromTrades (trades : List (NativeBacktestTrade F)) (confidenceZScore : F) : ActionableStatistics F :=
  if trades.isEmpty then default
  else
    let values := trades.map NativeBacktestTrade.netReturnBps
    let average := mean values
    let variance :=
      if 1 < values.length then
        total (values.map fun value => (value - average) * (value - average)) /
          Scalar.ofCount (values.length - 1)
      else 0.0
    let standardDeviation := Scalar.sqrt variance
    let standardError := standardDeviation / Scalar.sqrt (Scalar.ofCount values.length)
    let losses := values.filter fun value => decide (value < 0.0)
    { samples := values.length
      meanNetReturnBps := average
      standardDeviationBps := standardDeviation
      lowerConfidenceBoundBps := average - confidenceZScore * standardError
      winRate :=
        Scalar.ofCount (values.countP fun value => decide (0.0 < value)) / Scalar.ofCount values.length
      downsideMeanBps := if losses.isEmpty then 0.0 else mean (losses.map Scalar.abs)
      cumulativePnlUsd := total (trades.map NativeBacktestTrade.pnlUsd) }

@[simp] theorem fromTrades_samples (trades : List (NativeBacktestTrade F)) (confidenceZScore : F) :
    (fromTrades trades confidenceZScore).samples = trades.length := by
  cases trades with
  | nil => rfl
  | cons trade trades => exact List.length_map _

def score (statistics : ActionableStatistics F) : F :=
  statistics.lowerConfidenceBoundBps - 0.25 * statistics.downsideMeanBps

end ActionableStatistics

/-- The trades entered between two times, as near as doubles tell. -/
def tradesBetween (start stop : F) (trades : List (NativeBacktestTrade F)) :
    List (NativeBacktestTrade F) :=
  trades.filter fun trade =>
    decide (start ≤ trade.enteredAt + Scalar.epsilon) && decide (trade.enteredAt ≤ stop + Scalar.epsilon)

def statisticsBetween (trades : List (NativeBacktestTrade F)) (start stop confidenceZScore : F) :
    ActionableStatistics F :=
  .fromTrades (tradesBetween start stop trades) confidenceZScore

def spreadBps (snapshot : Datalake.MarketSnapshot F) : Option F := do
  let bid ← snapshot.microstructure.bestBid
  let ask ← snapshot.microstructure.bestAsk
  if !Scalar.isFinite bid || !Scalar.isFinite ask || decide (bid ≤ 0.0) || decide (ask < bid) then none
  else
    let midpoint := (bid + ask) / 2.0
    if 0.0 < midpoint then some ((ask - bid) / midpoint * 10000.0) else none

def projectedOneWaySlippageBps (snapshot : Datalake.MarketSnapshot F) (side : String)
    (notionalUsd fallbackSlippageBps : F) : F :=
  let halfSpread := (spreadBps snapshot).map (· / 2.0)
  let depth :=
    if eqIgnoreAsciiCase side "sell" then snapshot.microstructure.bidDepthUsd
    else snapshot.microstructure.askDepthUsd
  let depthImpact := (depth.filter fun depth => Scalar.isFinite depth && decide (0.0 < depth)).map
    fun depth => clamp (Scalar.max notionalUsd 0.0 / depth * 1000.0) 0.0 2500.0
  match halfSpread, depthImpact with
  | some spread, some impact => spread + impact
  | some spread, none => Scalar.max spread (Scalar.max fallbackSlippageBps 0.0)
  | none, some impact => Scalar.max impact (Scalar.max fallbackSlippageBps 0.0)
  | none, none => Scalar.max fallbackSlippageBps 0.0

def latestMarket (snapshots : List (Datalake.MarketSnapshot F)) (exchange symbol : String) :
    Option (Datalake.MarketSnapshot F) :=
  maxBy Datalake.MarketSnapshot.fetchedAt <| snapshots.filter fun snapshot =>
    Scalar.isFinite snapshot.price && decide (0.0 < snapshot.price) &&
      eqIgnoreAsciiCase snapshot.exchange exchange && eqIgnoreAsciiCase snapshot.symbol symbol

namespace ReplayState
variable (config : NativeBacktestConfig F) (parameters : QuantParameters F) (frame : QuantBacktestFrame F)

def start : ReplayState F :=
  { positions := []
    trades := []
    equity := config.initialEquityUsd
    peakEquity := config.initialEquityUsd
    maximumDrawdownPct := 0.0 }

/-- The trade that a position comes to at an exit. -/
def closedTrade (position : PendingPosition F) (exit : Datalake.MarketSnapshot F) :
    NativeBacktestTrade F :=
  let grossReturnBps := position.direction * (exit.price / position.entryPrice - 1.0) * 10000.0
  let exitSide := if position.direction < 0.0 then "buy" else "sell"
  let exitMarketCostBps :=
    projectedOneWaySlippageBps exit exitSide config.tradeNotionalUsd config.slippageBps
  let roundTripCostBps := 2.0 * config.feeBps + position.entryMarketCostBps + exitMarketCostBps
  let netReturnBps := grossReturnBps - roundTripCostBps
  { parameterId := parameters.id
    exchange := position.exchange
    symbol := position.symbol
    enteredAt := position.enteredAt
    exitedAt := frame.timestamp
    direction := position.direction
    entryPrice := position.entryPrice
    exitPrice := exit.price
    grossReturnBps
    entryMarketCostBps := position.entryMarketCostBps
    exitMarketCostBps
    roundTripCostBps
    netReturnBps
    pnlUsd := config.tradeNotionalUsd * netReturnBps / 10000.0 }

def record (state : ReplayState F) (trade : NativeBacktestTrade F) : ReplayState F :=
  let equity := state.equity + trade.pnlUsd
  let peakEquity := Scalar.max state.peakEquity equity
  { state with
    trades := state.trades ++ [trade]
    equity
    peakEquity
    maximumDrawdownPct :=
      if 0.0 < peakEquity then
        Scalar.max state.maximumDrawdownPct (Scalar.max (peakEquity - equity) 0.0 / peakEquity * 100.0)
      else state.maximumDrawdownPct }

/-- A position stays until it is due and its market is in the frame. -/
def closePosition (state : ReplayState F) (position : PendingPosition F) : ReplayState F :=
  if frame.timestamp < position.dueAt then { state with positions := state.positions ++ [position] }
  else
    match latestMarket frame.snapshots position.exchange position.symbol with
    | none => { state with positions := state.positions ++ [position] }
    | some exit => state.record (closedTrade config parameters frame position exit)

def closeDue (state : ReplayState F) : ReplayState F :=
  state.positions.foldl (closePosition config parameters frame) { state with positions := [] }

/-- One position for each market at a time, on a signal of at least a fifth. -/
def openPosition (signal : QuantSignal F) (state : ReplayState F) : ReplayState F :=
  if !signal.actionable || decide (Scalar.abs signal.signal < 0.2) || signal.symbol.isEmpty then state
  else if state.positions.any fun position =>
      eqIgnoreAsciiCase position.exchange signal.exchange &&
        eqIgnoreAsciiCase position.symbol signal.symbol then state
  else
    match latestMarket frame.snapshots signal.exchange signal.symbol with
    | none => state
    | some entry =>
      { state with
        positions := state.positions ++
          [{ exchange := signal.exchange
             symbol := signal.symbol
             enteredAt := frame.timestamp
             dueAt := frame.timestamp + Scalar.ofCount config.holdingHorizonSeconds
             direction := Scalar.signum signal.signal
             entryPrice := entry.price
             entryMarketCostBps :=
               projectedOneWaySlippageBps entry (if signal.signal < 0.0 then "sell" else "buy")
                 config.tradeNotionalUsd config.slippageBps }] }

end ReplayState

namespace NativeQuantBacktester
variable (backtester : NativeQuantBacktester F)

def replayFrame (parameters : QuantParameters F) (state : ReplayState F) (frame : QuantBacktestFrame F) :
    ReplayState F :=
  (state.closeDue backtester.config parameters frame).openPosition backtester.config frame
    (backtester.evaluate parameters frame)

def replayCandidate (frames : List (QuantBacktestFrame F)) (parameters : QuantParameters F) :
    CandidateBacktestReport F :=
  let state := frames.foldl (backtester.replayFrame parameters) (.start backtester.config)
  { parameterId := parameters.id
    trades := state.trades.length
    endingEquityUsd := state.equity
    maximumDrawdownPct := state.maximumDrawdownPct
    statistics := .fromTrades state.trades backtester.config.confidenceZScore
    tradeLedger := state.trades }

end NativeQuantBacktester

end Definitions

section Invariants
variable {F : Type} [Scalar F] {config : NativeBacktestConfig F} {parameters : QuantParameters F}
  {frame : QuantBacktestFrame F} {state : ReplayState F}

/-- What closing one position preserves, of the state and the positions that are still to be looked at, a
frame preserves in closing what is due. -/
theorem closeDue_invariant {I : ReplayState F → List (PendingPosition F) → Prop}
    (hclose : ∀ state position rest, I state (position :: rest) →
      I (state.closePosition config parameters frame position) rest)
    (h : I { state with positions := [] } state.positions) :
    I (state.closeDue config parameters frame) [] := by
  have hrun : ∀ (positions : List (PendingPosition F)) state, I state positions →
      I (positions.foldl (ReplayState.closePosition config parameters frame) state) [] := by
    intro positions
    induction positions with
    | nil => exact fun state h => h
    | cons position positions ih => exact fun state h => ih _ (hclose state position positions h)
  exact hrun state.positions _ h

/-- What recording a trade preserves, whatever positions are held, a replay preserves. -/
theorem replay_invariant (backtester : NativeQuantBacktester F) (parameters : QuantParameters F)
    {I : ReplayState F → Prop}
    (hpositions : ∀ state positions, I state → I { state with positions })
    (hrecord : ∀ state frame position exit, I state →
      I (state.record (ReplayState.closedTrade backtester.config parameters frame position exit)))
    (frames : List (QuantBacktestFrame F)) (h : I state) :
    I (frames.foldl (backtester.replayFrame parameters) state) := by
  have hclose : ∀ (frame : QuantBacktestFrame F) state, I state →
      I (state.closeDue backtester.config parameters frame) := by
    intro frame state h
    apply closeDue_invariant (I := fun state _ => I state)
    · intro state position rest h
      unfold ReplayState.closePosition
      split
      · exact hpositions _ _ h
      · split
        · exact hpositions _ _ h
        · exact hrecord _ _ _ _ h
    · exact hpositions _ _ h
  have hopen : ∀ (frame : QuantBacktestFrame F) signal state, I state →
      I (state.openPosition backtester.config frame signal) := by
    intro frame signal state h
    unfold ReplayState.openPosition
    split
    · exact h
    · split
      · exact h
      · split
        · exact h
        · exact hpositions _ _ h
  induction frames generalizing state with
  | nil => exact h
  | cons frame frames ih =>
    apply ih
    exact hopen _ _ _ (hclose _ _ h)

end Invariants

/-! Every trade of a ledger is of the arm whose ledger it is. -/

section Owners
variable {F : Type} [Scalar F] {parameters : QuantParameters F}

/-- The trades are all of one arm. -/
def OfArm (id : String) (trades : List (NativeBacktestTrade F)) : Prop :=
  ∀ trade ∈ trades, trade.parameterId = id

theorem replayCandidate_ofArm (backtester : NativeQuantBacktester F)
    (frames : List (QuantBacktestFrame F)) (parameters : QuantParameters F) :
    OfArm parameters.id (backtester.replayCandidate frames parameters).tradeLedger := by
  apply replay_invariant backtester parameters (I := fun state => OfArm parameters.id state.trades)
  · exact fun _ _ h => h
  · intro state frame position exit h trade htrade
    rcases List.mem_append.mp htrade with hold | hnew
    · exact h trade hold
    · rw [List.mem_singleton.mp hnew]
      rfl
  · exact fun trade htrade => by cases htrade

end Owners

end Gail.Trading
