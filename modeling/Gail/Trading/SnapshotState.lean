import Gail.Trading.SnapshotBacktests
import Gail.Trading.SnapshotLedgers

/-! The trading state with all its members, as its file holds it. -/
namespace Gail.Trading.Snapshot
open Gail.Library Codec Members
variable {F : Type} [Scalar F]

structure TradingLogEntry (F : Type) [Scalar F] where
  ts : F
  level : String
  category : String
  message : String
  context : Library.Json F

def tradingLogEntry : Codec F (TradingLogEntry F) :=
  record .fromTypes
    (member "ts" (·.ts) float <|
      member "level" (·.level) text <|
      member "category" (·.category) text <|
      member "message" (·.message) text <|
      member "context" (·.context) value done)
    (fun (ts, level, category, message, context, _) => { ts, level, category, message, context })
    (fun _ => rfl) (fun _ => rfl) (by decide +kernel)

def tradeRecordSourceName : TradeRecordSource → String
  | .gail => "gail"
  | .octobotImported => "octobot_imported"

def tradeRecordSource : Codec F TradeRecordSource :=
  choice [.gail, .octobotImported] tradeRecordSourceName .gail fun source => by cases source <;> rfl

structure ExecutedTrade (F : Type) [Scalar F] where
  ts : F
  exchange : String
  symbol : String
  action : TradeAction
  amountUsd : F
  price : Option F
  orderId : Option String
  confidence : F
  rationale : String
  aiVotes : Library.Json F
  fuzzyConfidence : F
  aiConfidence : F
  source : TradeRecordSource

def executedTrade : Codec F (ExecutedTrade F) :=
  record .fromMember
    (member "ts" (·.ts) float <|
      member "exchange" (·.exchange) text <|
      member "symbol" (·.symbol) text <|
      member "action" (·.action) tradeAction <|
      member "amount_usd" (·.amountUsd) float <|
      member "price" (·.price) optionalNumber <|
      member "order_id" (·.orderId) optionalText <|
      member "confidence" (·.confidence) float <|
      member "rationale" (·.rationale) text <|
      member "ai_votes" (·.aiVotes) value <|
      member "fuzzy_confidence" (·.fuzzyConfidence) float <|
      member "ai_confidence" (·.aiConfidence) float <|
      defaulted "source" (·.source) tradeRecordSource done)
    (fun (ts, exchange, symbol, action, amountUsd, price, orderId, confidence, rationale, aiVotes,
        fuzzyConfidence, aiConfidence, source, _) =>
      { ts, exchange, symbol, action, amountUsd, price, orderId, confidence, rationale, aiVotes,
        fuzzyConfidence, aiConfidence, source })
    (fun _ => rfl) (fun _ => rfl) (by decide +kernel)

def executionIntentClaim : Codec F (ExecutionIntentClaim F) :=
  record .fromTypes
    (member "authority" (·.authority) text <|
      member "claimed_at" (·.claimedAt) float <|
      member "expires_at" (·.expiresAt) float done)
    (fun (authority, claimedAt, expiresAt, _) => { authority, claimedAt, expiresAt })
    (fun _ => rfl) (fun _ => rfl) (by decide +kernel)

structure TradeOverride (F : Type) where
  action : TradeAction
  exchange : Option String
  symbol : Option String
  amountUsd : Option F
  reason : Option String
  issuedAt : F
  issuedBy : String

def tradeOverride : Codec F (TradeOverride F) :=
  record .fromMember
    (member "action" (·.action) tradeAction <|
      member "exchange" (·.exchange) optionalText <|
      member "symbol" (·.symbol) optionalText <|
      member "amount_usd" (·.amountUsd) optionalNumber <|
      member "reason" (·.reason) optionalText <|
      member "issued_at" (·.issuedAt) float <|
      member "issued_by" (·.issuedBy) text done)
    (fun (action, exchange, symbol, amountUsd, reason, issuedAt, issuedBy, _) =>
      { action, exchange, symbol, amountUsd, reason, issuedAt, issuedBy })
    (fun _ => rfl) (fun _ => rfl) (by decide +kernel)

/-- Maps are kept as their entries, queues as lists with the oldest first. -/
structure TradingState (F : Type) [Scalar F] where
  paused : Bool
  lastEvaluationAt : Option F
  lastTradeAt : Option F
  evaluationCount : Nat
  tradeCount : Nat
  pendingOverride : Option (TradeOverride F)
  currentPortfolio : Option (OctobotPortfolio F)
  openPositions : List (OctobotOrder F)
  availableExchanges : List OctobotExchange
  exchangeCircuit : List (String × ExchangeCircuitState F)
  recentTrades : List (ExecutedTrade F)
  tradeHistory : List (ExecutedTrade F)
  activityLog : List (TradingLogEntry F)
  lastError : Option String
  configOverrides : Option (TradingConfigOverride F)
  logRingSize : Nat
  tradeRingSize : Nat
  lastBacktest : Option (BacktestSummary F)
  backtestInProgress : Bool
  backtestHistory : List (BacktestSummary F)
  backtestAutoTune : BacktestAutoTuneState F
  apiSchema : AdaptiveApiSchema F
  observedExternalLogFingerprints : List String
  inFlightOrderIntents : List (String × ExecutionIntentClaim F)
  outcomeLedger : OutcomeLedger F
  quantMigration : QuantMigrationState F
  lastNativeQuantBacktest : Option (NativeBacktestReport F)
  quantEdgeCalibration : MultiHorizonCalibrationState F
  executionTelemetry : ExecutionTelemetryState F
  paperQualification : PaperQualificationState F
  alphaSleeves : AlphaSleevesState F
  llmRiskOverlay : LlmRiskOverlayState F

def tradingState : Codec F (TradingState F) :=
  record .fromMember
    (member "paused" (·.paused) bool <|
      member "last_evaluation_at" (·.lastEvaluationAt) optionalNumber <|
      member "last_trade_at" (·.lastTradeAt) optionalNumber <|
      member "evaluation_count" (·.evaluationCount) natural <|
      member "trade_count" (·.tradeCount) natural <|
      member "pending_override" (·.pendingOverride) (option tradeOverride solid_record) <|
      member "current_portfolio" (·.currentPortfolio) (option octobotPortfolio solid_record) <|
      member "open_positions" (·.openPositions) (list octobotOrder) <|
      member "available_exchanges" (·.availableExchanges) (list octobotExchange) <|
      defaulted "exchange_circuit" (·.exchangeCircuit) (textTable exchangeCircuitState) <|
      member "recent_trades" (·.recentTrades) (list executedTrade) <|
      defaulted "trade_history" (·.tradeHistory) (list executedTrade) <|
      member "activity_log" (·.activityLog) (list tradingLogEntry) <|
      member "last_error" (·.lastError) optionalText <|
      member "config_overrides" (·.configOverrides) (option tradingConfigOverride solid_tradingConfigOverride) <|
      member "log_ring_size" (·.logRingSize) natural <|
      member "trade_ring_size" (·.tradeRingSize) natural <|
      member "last_backtest" (·.lastBacktest) (option backtestSummary solid_record) <|
      defaulted "backtest_in_progress" (·.backtestInProgress) bool <|
      member "backtest_history" (·.backtestHistory) (list backtestSummary) <|
      defaulted "backtest_auto_tune" (·.backtestAutoTune) backtestAutoTuneState <|
      defaulted "api_schema" (·.apiSchema) adaptiveApiSchema <|
      defaulted "observed_external_log_fingerprints" (·.observedExternalLogFingerprints) texts <|
      defaulted "in_flight_order_intents" (·.inFlightOrderIntents) (textTable executionIntentClaim) <|
      defaulted "outcome_ledger" (·.outcomeLedger) outcomeLedger <|
      defaulted "quant_migration" (·.quantMigration) quantMigrationState <|
      defaulted "last_native_quant_backtest" (·.lastNativeQuantBacktest)
        (option nativeBacktestReport solid_record) <|
      defaulted "quant_edge_calibration" (·.quantEdgeCalibration) multiHorizonCalibrationState <|
      defaulted "execution_telemetry" (·.executionTelemetry) executionTelemetryState <|
      defaulted "paper_qualification" (·.paperQualification) paperQualificationState <|
      defaulted "alpha_sleeves" (·.alphaSleeves) alphaSleevesState <|
      defaulted "llm_risk_overlay" (·.llmRiskOverlay) llmRiskOverlayState done)
    (fun (paused, lastEvaluationAt, lastTradeAt, evaluationCount, tradeCount, pendingOverride,
        currentPortfolio, openPositions, availableExchanges, exchangeCircuit, recentTrades, tradeHistory,
        activityLog, lastError, configOverrides, logRingSize, tradeRingSize, lastBacktest,
        backtestInProgress, backtestHistory, backtestAutoTune, apiSchema, observedExternalLogFingerprints,
        inFlightOrderIntents, outcomeLedger, quantMigration, lastNativeQuantBacktest, quantEdgeCalibration,
        executionTelemetry, paperQualification, alphaSleeves, llmRiskOverlay, _) =>
      { paused, lastEvaluationAt, lastTradeAt, evaluationCount, tradeCount, pendingOverride,
        currentPortfolio, openPositions, availableExchanges, exchangeCircuit, recentTrades, tradeHistory,
        activityLog, lastError, configOverrides, logRingSize, tradeRingSize, lastBacktest,
        backtestInProgress, backtestHistory, backtestAutoTune, apiSchema, observedExternalLogFingerprints,
        inFlightOrderIntents, outcomeLedger, quantMigration, lastNativeQuantBacktest, quantEdgeCalibration,
        executionTelemetry, paperQualification, alphaSleeves, llmRiskOverlay })
    (fun _ => rfl) (fun _ => rfl) (by decide +kernel)

end Gail.Trading.Snapshot
