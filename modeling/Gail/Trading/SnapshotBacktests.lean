import Gail.Trading.BacktestTuning
import Gail.Trading.NativeBacktest
import Gail.Trading.SnapshotMarkets

/-! What the file of the trading state holds of overrides and backtests. Types that are modelled with all
their members elsewhere are taken from there. -/
namespace Gail.Trading.Snapshot
open Gail.Library Codec Members
variable {F : Type} [Scalar F]

def assessmentName : ApproachAssessment → String
  | .viable => "viable"
  | .marginal => "marginal"
  | .unprofitable => "unprofitable"
  | .incomplete => "incomplete"

def approachAssessment : Codec F ApproachAssessment :=
  choice [.viable, .marginal, .unprofitable, .incomplete] assessmentName .incomplete
    fun assessment => by cases assessment <;> rfl

def tradingConfigOverride : Codec F (TradingConfigOverride F) :=
  record .fromTypes
    (member "evaluation_interval_seconds" (·.evaluationIntervalSeconds) optionalNatural <|
      member "micro_trade_max_usd" (·.microTradeMaxUsd) optionalNumber <|
      member "micro_trade_min_usd" (·.microTradeMinUsd) optionalNumber <|
      member "max_open_positions" (·.maxOpenPositions) optionalNatural <|
      member "fuzzy_confidence_threshold" (·.fuzzyConfidenceThreshold) optionalNumber <|
      member "fuzzy_weight" (·.fuzzyWeight) optionalNumber <|
      member "decision_roi_feedback_target_roi_pct" (·.decisionRoiFeedbackTargetRoiPct) optionalNumber <|
      member "decision_roi_feedback_max_signal_adjustment"
        (·.decisionRoiFeedbackMaxSignalAdjustment) optionalNumber <|
      member "decision_roi_feedback_max_confidence_penalty"
        (·.decisionRoiFeedbackMaxConfidencePenalty) optionalNumber <|
      member "decision_roi_feedback_max_confidence_boost"
        (·.decisionRoiFeedbackMaxConfidenceBoost) optionalNumber <|
      member "target_exchanges" (·.targetExchanges) (option texts solid_list) <|
      member "target_currencies" (·.targetCurrencies) (option texts solid_list) done)
    (fun (evaluationIntervalSeconds, microTradeMaxUsd, microTradeMinUsd, maxOpenPositions,
        fuzzyConfidenceThreshold, fuzzyWeight, decisionRoiFeedbackTargetRoiPct,
        decisionRoiFeedbackMaxSignalAdjustment, decisionRoiFeedbackMaxConfidencePenalty,
        decisionRoiFeedbackMaxConfidenceBoost, targetExchanges, targetCurrencies, _) =>
      { evaluationIntervalSeconds, microTradeMaxUsd, microTradeMinUsd, maxOpenPositions,
        fuzzyConfidenceThreshold, fuzzyWeight, decisionRoiFeedbackTargetRoiPct,
        decisionRoiFeedbackMaxSignalAdjustment, decisionRoiFeedbackMaxConfidencePenalty,
        decisionRoiFeedbackMaxConfidenceBoost, targetExchanges, targetCurrencies })
    (fun _ => rfl) (fun _ => rfl) (by decide +kernel)

theorem solid_tradingConfigOverride : (tradingConfigOverride : Codec F (TradingConfigOverride F)).Solid :=
  solid_record

structure BacktestSummary (F : Type) where
  runAt : F
  assessment : ApproachAssessment
  profitabilityPct : Option F
  marketAvgPct : Option F
  beatsMarket : Option Bool
  totalTrades : Nat
  errorsCount : Nat
  symbols : List String
  notes : String
  runId : Option Nat

def backtestSummary : Codec F (BacktestSummary F) :=
  record .fromMember
    (member "run_at" (·.runAt) float <|
      member "assessment" (·.assessment) approachAssessment <|
      member "profitability_pct" (·.profitabilityPct) optionalNumber <|
      member "market_avg_pct" (·.marketAvgPct) optionalNumber <|
      member "beats_market" (·.beatsMarket) (option bool nofun) <|
      member "total_trades" (·.totalTrades) natural <|
      member "errors_count" (·.errorsCount) natural <|
      member "symbols" (·.symbols) texts <|
      member "notes" (·.notes) text <|
      member "run_id" (·.runId) optionalNatural done)
    (fun (runAt, assessment, profitabilityPct, marketAvgPct, beatsMarket, totalTrades, errorsCount, symbols,
        notes, runId, _) =>
      { runAt, assessment, profitabilityPct, marketAvgPct, beatsMarket, totalTrades, errorsCount, symbols,
        notes, runId })
    (fun _ => rfl) (fun _ => rfl) (by decide +kernel)

structure BacktestAutoTuneTrial (F : Type) where
  startedAt : F
  historyLenAtStart : Nat
  baselineMeanProfitPct : F
  baselineMedianProfitPct : F
  baselineSamples : Nat
  previousOverrides : Option (TradingConfigOverride F)
  candidateOverrides : TradingConfigOverride F
  triggerAssessment : String

def backtestAutoTuneTrial : Codec F (BacktestAutoTuneTrial F) :=
  record .fromMember
    (member "started_at" (·.startedAt) float <|
      member "history_len_at_start" (·.historyLenAtStart) natural <|
      member "baseline_mean_profit_pct" (·.baselineMeanProfitPct) float <|
      member "baseline_median_profit_pct" (·.baselineMedianProfitPct) float <|
      member "baseline_samples" (·.baselineSamples) natural <|
      member "previous_overrides" (·.previousOverrides) (option tradingConfigOverride solid_tradingConfigOverride) <|
      member "candidate_overrides" (·.candidateOverrides) tradingConfigOverride <|
      member "trigger_assessment" (·.triggerAssessment) text done)
    (fun (startedAt, historyLenAtStart, baselineMeanProfitPct, baselineMedianProfitPct, baselineSamples,
        previousOverrides, candidateOverrides, triggerAssessment, _) =>
      { startedAt, historyLenAtStart, baselineMeanProfitPct, baselineMedianProfitPct, baselineSamples,
        previousOverrides, candidateOverrides, triggerAssessment })
    (fun _ => rfl) (fun _ => rfl) (by decide +kernel)

structure BacktestAutoTuneState (F : Type) where
  activeTrial : Option (BacktestAutoTuneTrial F)
  cooldownUntil : Option F
  lastAction : Option String
  lastActionAt : Option F

def backtestAutoTuneState : Codec F (BacktestAutoTuneState F) :=
  record .fromTypes
    (member "active_trial" (·.activeTrial) (option backtestAutoTuneTrial solid_record) <|
      member "cooldown_until" (·.cooldownUntil) optionalNumber <|
      member "last_action" (·.lastAction) optionalText <|
      member "last_action_at" (·.lastActionAt) optionalNumber done)
    (fun (activeTrial, cooldownUntil, lastAction, lastActionAt, _) =>
      { activeTrial, cooldownUntil, lastAction, lastActionAt })
    (fun _ => rfl) (fun _ => rfl) (by decide +kernel)

def nativeBacktestTrade : Codec F (NativeBacktestTrade F) :=
  record .fromTypes
    (member "parameter_id" (·.parameterId) text <|
      member "exchange" (·.exchange) text <|
      member "symbol" (·.symbol) text <|
      member "entered_at" (·.enteredAt) float <|
      member "exited_at" (·.exitedAt) float <|
      member "direction" (·.direction) float <|
      member "entry_price" (·.entryPrice) float <|
      member "exit_price" (·.exitPrice) float <|
      member "gross_return_bps" (·.grossReturnBps) float <|
      member "entry_market_cost_bps" (·.entryMarketCostBps) float <|
      member "exit_market_cost_bps" (·.exitMarketCostBps) float <|
      member "round_trip_cost_bps" (·.roundTripCostBps) float <|
      member "net_return_bps" (·.netReturnBps) float <|
      member "pnl_usd" (·.pnlUsd) float done)
    (fun (parameterId, exchange, symbol, enteredAt, exitedAt, direction, entryPrice, exitPrice,
        grossReturnBps, entryMarketCostBps, exitMarketCostBps, roundTripCostBps, netReturnBps, pnlUsd, _) =>
      { parameterId, exchange, symbol, enteredAt, exitedAt, direction, entryPrice, exitPrice,
        grossReturnBps, entryMarketCostBps, exitMarketCostBps, roundTripCostBps, netReturnBps, pnlUsd })
    (fun _ => rfl) (fun _ => rfl) (by decide +kernel)

def actionableStatistics : Codec F (ActionableStatistics F) :=
  record .fromTypes
    (member "samples" (·.samples) natural <|
      member "mean_net_return_bps" (·.meanNetReturnBps) float <|
      member "standard_deviation_bps" (·.standardDeviationBps) float <|
      member "lower_confidence_bound_bps" (·.lowerConfidenceBoundBps) float <|
      member "win_rate" (·.winRate) float <|
      member "downside_mean_bps" (·.downsideMeanBps) float <|
      member "cumulative_pnl_usd" (·.cumulativePnlUsd) float done)
    (fun (samples, meanNetReturnBps, standardDeviationBps, lowerConfidenceBoundBps, winRate,
        downsideMeanBps, cumulativePnlUsd, _) =>
      { samples, meanNetReturnBps, standardDeviationBps, lowerConfidenceBoundBps, winRate, downsideMeanBps,
        cumulativePnlUsd })
    (fun _ => rfl) (fun _ => rfl) (by decide +kernel)

def candidateBacktestReport : Codec F (CandidateBacktestReport F) :=
  record .fromTypes
    (member "parameter_id" (·.parameterId) text <|
      member "trades" (·.trades) natural <|
      member "ending_equity_usd" (·.endingEquityUsd) float <|
      member "maximum_drawdown_pct" (·.maximumDrawdownPct) float <|
      member "statistics" (·.statistics) actionableStatistics <|
      member "trade_ledger" (·.tradeLedger) (list nativeBacktestTrade) done)
    (fun (parameterId, trades, endingEquityUsd, maximumDrawdownPct, statistics, tradeLedger, _) =>
      { parameterId, trades, endingEquityUsd, maximumDrawdownPct, statistics, tradeLedger })
    (fun _ => rfl) (fun _ => rfl) (by decide +kernel)

def walkForwardFoldReport : Codec F (WalkForwardFoldReport F) :=
  record .fromTypes
    (member "training_start" (·.trainingStart) float <|
      member "training_end" (·.trainingEnd) float <|
      member "validation_start" (·.validationStart) float <|
      member "validation_end" (·.validationEnd) float <|
      member "selected_parameter_id" (·.selectedParameterId) text <|
      member "training_statistics" (·.trainingStatistics) actionableStatistics <|
      member "validation_statistics" (·.validationStatistics) actionableStatistics done)
    (fun (trainingStart, trainingEnd, validationStart, validationEnd, selectedParameterId,
        trainingStatistics, validationStatistics, _) =>
      { trainingStart, trainingEnd, validationStart, validationEnd, selectedParameterId, trainingStatistics,
        validationStatistics })
    (fun _ => rfl) (fun _ => rfl) (by decide +kernel)

structure NativeBacktestReport (F : Type) where
  generatedAt : F
  frames : Nat
  candidates : List (CandidateBacktestReport F)
  walkForwardFolds : List (WalkForwardFoldReport F)
  outOfSampleStatistics : ActionableStatistics F
  probabilityBacktestOverfit : F
  selectedParameterId : Option String
  promotionQualified : Bool
  rejectionReasons : List String

def nativeBacktestReport : Codec F (NativeBacktestReport F) :=
  record .fromTypes
    (member "generated_at" (·.generatedAt) float <|
      member "frames" (·.frames) natural <|
      member "candidates" (·.candidates) (list candidateBacktestReport) <|
      member "walk_forward_folds" (·.walkForwardFolds) (list walkForwardFoldReport) <|
      member "out_of_sample_statistics" (·.outOfSampleStatistics) actionableStatistics <|
      member "probability_backtest_overfit" (·.probabilityBacktestOverfit) float <|
      member "selected_parameter_id" (·.selectedParameterId) optionalText <|
      member "promotion_qualified" (·.promotionQualified) bool <|
      member "rejection_reasons" (·.rejectionReasons) texts done)
    (fun (generatedAt, frames, candidates, walkForwardFolds, outOfSampleStatistics,
        probabilityBacktestOverfit, selectedParameterId, promotionQualified, rejectionReasons, _) =>
      { generatedAt, frames, candidates, walkForwardFolds, outOfSampleStatistics,
        probabilityBacktestOverfit, selectedParameterId, promotionQualified, rejectionReasons })
    (fun _ => rfl) (fun _ => rfl) (by decide +kernel)

end Gail.Trading.Snapshot
