import Gail.Trading.OrderRecords
import Gail.Trading.QuantState
import Gail.Trading.SnapshotMarkets

/-! The ledgers in the file of the trading state: what became of orders and predictions, and what the
migration and the sleeves are decided on. -/
namespace Gail.Trading.Snapshot
open Gail.Library Codec Members
variable {F : Type} [Scalar F]

structure TradeMarkout (F : Type) where
  orderId : String
  executedAt : F
  dueAt : F
  resolvedAt : Option F
  exchange : String
  symbol : String
  action : TradeAction
  amountUsd : F
  entryPrice : F
  observedPrice : Option F
  providers : List String
  regime : String
  grossDirectionalReturnBps : Option F
  netDirectionalReturnBps : Option F

def tradeMarkoutDefault : TradeMarkout F where
  orderId := ""
  executedAt := 0.0
  dueAt := 0.0
  resolvedAt := none
  exchange := ""
  symbol := ""
  action := .hold
  amountUsd := 0.0
  entryPrice := 0.0
  observedPrice := none
  providers := []
  regime := "unknown"
  grossDirectionalReturnBps := none
  netDirectionalReturnBps := none

def tradeMarkout : Codec F (TradeMarkout F) :=
  record (.fromValue tradeMarkoutDefault)
    (member "order_id" (·.orderId) text <|
      member "executed_at" (·.executedAt) float <|
      member "due_at" (·.dueAt) float <|
      member "resolved_at" (·.resolvedAt) optionalNumber <|
      member "exchange" (·.exchange) text <|
      member "symbol" (·.symbol) text <|
      member "action" (·.action) tradeAction <|
      member "amount_usd" (·.amountUsd) float <|
      member "entry_price" (·.entryPrice) float <|
      member "observed_price" (·.observedPrice) optionalNumber <|
      member "providers" (·.providers) texts <|
      member "regime" (·.regime) text <|
      member "gross_directional_return_bps" (·.grossDirectionalReturnBps) optionalNumber <|
      member "net_directional_return_bps" (·.netDirectionalReturnBps) optionalNumber done)
    (fun (orderId, executedAt, dueAt, resolvedAt, exchange, symbol, action, amountUsd, entryPrice,
        observedPrice, providers, regime, grossDirectionalReturnBps, netDirectionalReturnBps, _) =>
      { orderId, executedAt, dueAt, resolvedAt, exchange, symbol, action, amountUsd, entryPrice,
        observedPrice, providers, regime, grossDirectionalReturnBps, netDirectionalReturnBps })
    (fun _ => rfl) (fun _ => rfl) (by decide +kernel)
structure OutcomeLedger (F : Type) where
  observations : List (TradeMarkout F)

def outcomeLedger : Codec F (OutcomeLedger F) :=
  record .fromTypes
    (member "observations" (·.observations) (list tradeMarkout) done)
    (fun (observations, _) => { observations })
    (fun _ => rfl) (fun _ => rfl) (by decide +kernel)

structure PaperQualificationState (F : Type) where
  buildRevision : String
  startedAt : Option F
  lastObservationAt : Option F
  qualifiedAt : Option F
  evaluationCountAtStart : Nat
  observedEvaluations : Nat
  validatedIntents : Nat
  duplicateIntentsRejected : Nat
  recentIntents : List (String × F)

def paperQualificationState : Codec F (PaperQualificationState F) :=
  record .fromTypes
    (member "build_revision" (·.buildRevision) text <|
      member "started_at" (·.startedAt) optionalNumber <|
      member "last_observation_at" (·.lastObservationAt) optionalNumber <|
      member "qualified_at" (·.qualifiedAt) optionalNumber <|
      member "evaluation_count_at_start" (·.evaluationCountAtStart) natural <|
      member "observed_evaluations" (·.observedEvaluations) natural <|
      member "validated_intents" (·.validatedIntents) natural <|
      member "duplicate_intents_rejected" (·.duplicateIntentsRejected) natural <|
      member "recent_intents" (·.recentIntents) (textTable float) done)
    (fun (buildRevision, startedAt, lastObservationAt, qualifiedAt, evaluationCountAtStart,
        observedEvaluations, validatedIntents, duplicateIntentsRejected, recentIntents, _) =>
      { buildRevision, startedAt, lastObservationAt, qualifiedAt, evaluationCountAtStart,
        observedEvaluations, validatedIntents, duplicateIntentsRejected, recentIntents })
    (fun _ => rfl) (fun _ => rfl) (by decide +kernel)

structure PendingHorizonObservation (F : Type) where
  observationId : String
  createdAt : F
  dueAt : F
  expiresAt : F
  horizonSeconds : Nat
  exchange : String
  symbol : String
  entryPrice : F
  signal : F
  confidence : F
  regime : String
  estimatedRoundTripCostBps : F

def pendingHorizonObservation : Codec F (PendingHorizonObservation F) :=
  record .fromTypes
    (member "observation_id" (·.observationId) text <|
      member "created_at" (·.createdAt) float <|
      member "due_at" (·.dueAt) float <|
      member "expires_at" (·.expiresAt) float <|
      member "horizon_seconds" (·.horizonSeconds) natural <|
      member "exchange" (·.exchange) text <|
      member "symbol" (·.symbol) text <|
      member "entry_price" (·.entryPrice) float <|
      member "signal" (·.signal) float <|
      member "confidence" (·.confidence) float <|
      member "regime" (·.regime) text <|
      member "estimated_round_trip_cost_bps" (·.estimatedRoundTripCostBps) float done)
    (fun (observationId, createdAt, dueAt, expiresAt, horizonSeconds, exchange, symbol, entryPrice, signal,
        confidence, regime, estimatedRoundTripCostBps, _) =>
      { observationId, createdAt, dueAt, expiresAt, horizonSeconds, exchange, symbol, entryPrice, signal,
        confidence, regime, estimatedRoundTripCostBps })
    (fun _ => rfl) (fun _ => rfl) (by decide +kernel)

structure ResolvedHorizonObservation (F : Type) where
  observationId : String
  createdAt : F
  resolvedAt : F
  horizonSeconds : Nat
  exchange : String
  symbol : String
  signal : F
  confidence : F
  regime : String
  grossReturnBps : F
  estimatedRoundTripCostBps : F
  netReturnBps : F

def resolvedHorizonObservation : Codec F (ResolvedHorizonObservation F) :=
  record .fromTypes
    (member "observation_id" (·.observationId) text <|
      member "created_at" (·.createdAt) float <|
      member "resolved_at" (·.resolvedAt) float <|
      member "horizon_seconds" (·.horizonSeconds) natural <|
      member "exchange" (·.exchange) text <|
      member "symbol" (·.symbol) text <|
      member "signal" (·.signal) float <|
      member "confidence" (·.confidence) float <|
      member "regime" (·.regime) text <|
      member "gross_return_bps" (·.grossReturnBps) float <|
      member "estimated_round_trip_cost_bps" (·.estimatedRoundTripCostBps) float <|
      member "net_return_bps" (·.netReturnBps) float done)
    (fun (observationId, createdAt, resolvedAt, horizonSeconds, exchange, symbol, signal, confidence,
        regime, grossReturnBps, estimatedRoundTripCostBps, netReturnBps, _) =>
      { observationId, createdAt, resolvedAt, horizonSeconds, exchange, symbol, signal, confidence, regime,
        grossReturnBps, estimatedRoundTripCostBps, netReturnBps })
    (fun _ => rfl) (fun _ => rfl) (by decide +kernel)

structure MultiHorizonCalibrationState (F : Type) where
  pending : List (PendingHorizonObservation F)
  resolved : List (ResolvedHorizonObservation F)
  lastRecordedByHorizon : List (Nat × F)

def multiHorizonCalibrationState : Codec F (MultiHorizonCalibrationState F) :=
  record .fromTypes
    (member "pending" (·.pending) (list pendingHorizonObservation) <|
      member "resolved" (·.resolved) (list resolvedHorizonObservation) <|
      member "last_recorded_by_horizon" (·.lastRecordedByHorizon) (naturalTable float) done)
    (fun (pending, resolved, lastRecordedByHorizon, _) => { pending, resolved, lastRecordedByHorizon })
    (fun _ => rfl) (fun _ => rfl) (by decide +kernel)

def executionCostObservation : Codec F (ExecutionCostObservation F) :=
  record .fromTypes
    (member "observed_at" (·.observedAt) float <|
      member "exchange" (·.exchange) text <|
      member "symbol" (·.symbol) text <|
      member "side" (·.side) text <|
      member "order_id" (·.orderId) text <|
      member "notional_usd" (·.notionalUsd) float <|
      member "reference_price" (·.referencePrice) float <|
      member "fill_price" (·.fillPrice) float <|
      member "observed_slippage_bps" (·.observedSlippageBps) float <|
      member "estimated_fee_bps" (·.estimatedFeeBps) float done)
    (fun (observedAt, exchange, symbol, side, orderId, notionalUsd, referencePrice, fillPrice,
        observedSlippageBps, estimatedFeeBps, _) =>
      { observedAt, exchange, symbol, side, orderId, notionalUsd, referencePrice, fillPrice,
        observedSlippageBps, estimatedFeeBps })
    (fun _ => rfl) (fun _ => rfl) (by decide +kernel)

structure ExecutionTelemetryState (F : Type) where
  observations : List (ExecutionCostObservation F)

def executionTelemetryState : Codec F (ExecutionTelemetryState F) :=
  record .fromTypes
    (member "observations" (·.observations) (list executionCostObservation) done)
    (fun (observations, _) => { observations })
    (fun _ => rfl) (fun _ => rfl) (by decide +kernel)

inductive AlphaSleeveKind where
  | pairs
  | carry

def AlphaSleeveKind.name : AlphaSleeveKind → String
  | pairs => "pairs"
  | carry => "carry"

def alphaSleeveKind : Codec F AlphaSleeveKind :=
  choice [.pairs, .carry] AlphaSleeveKind.name .pairs fun kind => by cases kind <;> rfl

structure SleeveRecommendation (F : Type) where
  sleeveId : String
  kind : AlphaSleeveKind
  generatedAt : F
  exchange : String
  symbol : String
  hedgeExchange : Option String
  hedgeSymbol : Option String
  signal : F
  confidence : F
  expectedGrossEdgeBps : F
  estimatedRoundTripCostBps : F
  expectedNetEdgeBps : F
  actionable : Bool
  executable : Bool
  shadowOnly : Bool
  rationale : String

def sleeveRecommendation : Codec F (SleeveRecommendation F) :=
  record .fromTypes
    (member "sleeve_id" (·.sleeveId) text <|
      member "kind" (·.kind) alphaSleeveKind <|
      member "generated_at" (·.generatedAt) float <|
      member "exchange" (·.exchange) text <|
      member "symbol" (·.symbol) text <|
      member "hedge_exchange" (·.hedgeExchange) optionalText <|
      member "hedge_symbol" (·.hedgeSymbol) optionalText <|
      member "signal" (·.signal) float <|
      member "confidence" (·.confidence) float <|
      member "expected_gross_edge_bps" (·.expectedGrossEdgeBps) float <|
      member "estimated_round_trip_cost_bps" (·.estimatedRoundTripCostBps) float <|
      member "expected_net_edge_bps" (·.expectedNetEdgeBps) float <|
      member "actionable" (·.actionable) bool <|
      member "executable" (·.executable) bool <|
      member "shadow_only" (·.shadowOnly) bool <|
      member "rationale" (·.rationale) text done)
    (fun (sleeveId, kind, generatedAt, exchange, symbol, hedgeExchange, hedgeSymbol, signal, confidence,
        expectedGrossEdgeBps, estimatedRoundTripCostBps, expectedNetEdgeBps, actionable, executable,
        shadowOnly, rationale, _) =>
      { sleeveId, kind, generatedAt, exchange, symbol, hedgeExchange, hedgeSymbol, signal, confidence,
        expectedGrossEdgeBps, estimatedRoundTripCostBps, expectedNetEdgeBps, actionable, executable,
        shadowOnly, rationale })
    (fun _ => rfl) (fun _ => rfl) (by decide +kernel)

structure PairObservation (F : Type) where
  observedAt : F
  firstLogPrice : F
  secondLogPrice : F

def pairObservation : Codec F (PairObservation F) :=
  record .fromTypes
    (member "observed_at" (·.observedAt) float <|
      member "first_log_price" (·.firstLogPrice) float <|
      member "second_log_price" (·.secondLogPrice) float done)
    (fun (observedAt, firstLogPrice, secondLogPrice, _) => { observedAt, firstLogPrice, secondLogPrice })
    (fun _ => rfl) (fun _ => rfl) (by decide +kernel)

structure PairsSleeveState (F : Type) where
  observations : List (String × List (PairObservation F))

def pairsSleeveState : Codec F (PairsSleeveState F) :=
  record .fromTypes
    (member "observations" (·.observations) (textTable (list pairObservation)) done)
    (fun (observations, _) => { observations })
    (fun _ => rfl) (fun _ => rfl) (by decide +kernel)

structure SleeveShadowObservation (F : Type) where
  observationId : String
  sleeveId : String
  kind : AlphaSleeveKind
  createdAt : F
  dueAt : F
  expiresAt : F
  exchange : String
  symbol : String
  entryPrice : F
  hedgeExchange : String
  hedgeSymbol : String
  hedgeEntryPrice : F
  signal : F
  estimatedRoundTripCostBps : F
  entryFundingRate : Option F
  entryBasisBps : Option F
  fundingIntervalHours : F

def sleeveShadowObservation : Codec F (SleeveShadowObservation F) :=
  record .fromTypes
    (member "observation_id" (·.observationId) text <|
      member "sleeve_id" (·.sleeveId) text <|
      member "kind" (·.kind) alphaSleeveKind <|
      member "created_at" (·.createdAt) float <|
      member "due_at" (·.dueAt) float <|
      member "expires_at" (·.expiresAt) float <|
      member "exchange" (·.exchange) text <|
      member "symbol" (·.symbol) text <|
      member "entry_price" (·.entryPrice) float <|
      member "hedge_exchange" (·.hedgeExchange) text <|
      member "hedge_symbol" (·.hedgeSymbol) text <|
      member "hedge_entry_price" (·.hedgeEntryPrice) float <|
      member "signal" (·.signal) float <|
      member "estimated_round_trip_cost_bps" (·.estimatedRoundTripCostBps) float <|
      member "entry_funding_rate" (·.entryFundingRate) optionalNumber <|
      member "entry_basis_bps" (·.entryBasisBps) optionalNumber <|
      member "funding_interval_hours" (·.fundingIntervalHours) float done)
    (fun (observationId, sleeveId, kind, createdAt, dueAt, expiresAt, exchange, symbol, entryPrice,
        hedgeExchange, hedgeSymbol, hedgeEntryPrice, signal, estimatedRoundTripCostBps, entryFundingRate,
        entryBasisBps, fundingIntervalHours, _) =>
      { observationId, sleeveId, kind, createdAt, dueAt, expiresAt, exchange, symbol, entryPrice,
        hedgeExchange, hedgeSymbol, hedgeEntryPrice, signal, estimatedRoundTripCostBps, entryFundingRate,
        entryBasisBps, fundingIntervalHours })
    (fun _ => rfl) (fun _ => rfl) (by decide +kernel)

structure SleeveResolvedObservation (F : Type) where
  observationId : String
  sleeveId : String
  kind : AlphaSleeveKind
  createdAt : F
  resolvedAt : F
  grossReturnBps : F
  estimatedRoundTripCostBps : F
  netReturnBps : F

def sleeveResolvedObservation : Codec F (SleeveResolvedObservation F) :=
  record .fromTypes
    (member "observation_id" (·.observationId) text <|
      member "sleeve_id" (·.sleeveId) text <|
      member "kind" (·.kind) alphaSleeveKind <|
      member "created_at" (·.createdAt) float <|
      member "resolved_at" (·.resolvedAt) float <|
      member "gross_return_bps" (·.grossReturnBps) float <|
      member "estimated_round_trip_cost_bps" (·.estimatedRoundTripCostBps) float <|
      member "net_return_bps" (·.netReturnBps) float done)
    (fun (observationId, sleeveId, kind, createdAt, resolvedAt, grossReturnBps, estimatedRoundTripCostBps,
        netReturnBps, _) =>
      { observationId, sleeveId, kind, createdAt, resolvedAt, grossReturnBps, estimatedRoundTripCostBps,
        netReturnBps })
    (fun _ => rfl) (fun _ => rfl) (by decide +kernel)

structure AlphaSleevesState (F : Type) where
  pairs : PairsSleeveState F
  latestRecommendations : List (SleeveRecommendation F)
  recommendationLedger : List (SleeveRecommendation F)
  evaluations : Nat
  lastEvaluatedAt : Option F
  pending : List (SleeveShadowObservation F)
  resolved : List (SleeveResolvedObservation F)
  lastRecordedBySleeve : List (String × F)

def alphaSleevesState : Codec F (AlphaSleevesState F) :=
  record .fromTypes
    (member "pairs" (·.pairs) pairsSleeveState <|
      member "latest_recommendations" (·.latestRecommendations) (list sleeveRecommendation) <|
      member "recommendation_ledger" (·.recommendationLedger) (list sleeveRecommendation) <|
      member "evaluations" (·.evaluations) natural <|
      member "last_evaluated_at" (·.lastEvaluatedAt) optionalNumber <|
      member "pending" (·.pending) (list sleeveShadowObservation) <|
      member "resolved" (·.resolved) (list sleeveResolvedObservation) <|
      member "last_recorded_by_sleeve" (·.lastRecordedBySleeve) (textTable float) done)
    (fun (pairs, latestRecommendations, recommendationLedger, evaluations, lastEvaluatedAt, pending,
        resolved, lastRecordedBySleeve, _) =>
      { pairs, latestRecommendations, recommendationLedger, evaluations, lastEvaluatedAt, pending, resolved,
        lastRecordedBySleeve })
    (fun _ => rfl) (fun _ => rfl) (by decide +kernel)

structure LlmRiskOverlayState (F : Type) where
  updatedAt : Option F
  expiresAt : Option F
  riskScore : F
  coverage : F
  agreement : F
  confidenceMultiplier : F
  veto : Bool
  responders : Nat

def llmRiskOverlayState : Codec F (LlmRiskOverlayState F) :=
  record .fromTypes
    (member "updated_at" (·.updatedAt) optionalNumber <|
      member "expires_at" (·.expiresAt) optionalNumber <|
      member "risk_score" (·.riskScore) float <|
      member "coverage" (·.coverage) float <|
      member "agreement" (·.agreement) float <|
      member "confidence_multiplier" (·.confidenceMultiplier) float <|
      member "veto" (·.veto) bool <|
      member "responders" (·.responders) natural done)
    (fun (updatedAt, expiresAt, riskScore, coverage, agreement, confidenceMultiplier, veto, responders, _)
        =>
      { updatedAt, expiresAt, riskScore, coverage, agreement, confidenceMultiplier, veto, responders })
    (fun _ => rfl) (fun _ => rfl) (by decide +kernel)

def quantModeName : QuantMode → String
  | .shadow => "shadow"
  | .primary => "primary"

def quantMode : Codec F QuantMode :=
  choice [.shadow, .primary] quantModeName .shadow fun mode => by cases mode <;> rfl

def quantParameterKindName : QuantParameterKind → String
  | .momentum => "momentum"
  | .cash => "cash"

def quantParameterKind : Codec F QuantParameterKind :=
  choice [.momentum, .cash] quantParameterKindName .momentum fun kind => by cases kind <;> rfl

def quantParameters : Codec F (QuantParameters F) :=
  record (.fromValue .default)
    (member "id" (·.id) text <|
      member "kind" (·.kind) quantParameterKind <|
      member "short_momentum_weight" (·.shortMomentumWeight) float <|
      member "mid_momentum_weight" (·.midMomentumWeight) float <|
      member "long_momentum_weight" (·.longMomentumWeight) float <|
      member "live_momentum_weight" (·.liveMomentumWeight) float <|
      member "volume_confirmation_weight" (·.volumeConfirmationWeight) float <|
      member "risk_attenuation" (·.riskAttenuation) float <|
      member "entry_threshold" (·.entryThreshold) float done)
    (fun (id, kind, shortMomentumWeight, midMomentumWeight, longMomentumWeight, liveMomentumWeight,
        volumeConfirmationWeight, riskAttenuation, entryThreshold, _) =>
      { id, kind, shortMomentumWeight, midMomentumWeight, longMomentumWeight, liveMomentumWeight,
        volumeConfirmationWeight, riskAttenuation, entryThreshold })
    (fun _ => rfl) (fun _ => rfl) (by decide +kernel)

def quantPrediction : Codec F (QuantPrediction F) :=
  record .fromTypes
    (member "parameter_id" (·.parameterId) text <|
      member "exchange" (·.exchange) text <|
      member "symbol" (·.symbol) text <|
      member "entry_price" (·.entryPrice) float <|
      member "signal" (·.signal) float <|
      member "confidence" (·.confidence) float <|
      member "risk_score" (·.riskScore) float <|
      member "actionable" (·.actionable) bool done)
    (fun (parameterId, exchange, symbol, entryPrice, signal, confidence, riskScore, actionable, _) =>
      { parameterId, exchange, symbol, entryPrice, signal, confidence, riskScore, actionable })
    (fun _ => rfl) (fun _ => rfl) (by decide +kernel)

def quantPendingEvaluation : Codec F (QuantPendingEvaluation F) :=
  record .fromTypes
    (member "evaluation_id" (·.evaluationId) text <|
      member "created_at" (·.createdAt) float <|
      member "due_at" (·.dueAt) float <|
      member "expires_at" (·.expiresAt) float <|
      member "exchange" (·.exchange) text <|
      member "symbol" (·.symbol) text <|
      member "entry_price" (·.entryPrice) float <|
      member "active_parameter_id" (·.activeParameterId) text <|
      member "llm_exchange" (·.llmExchange) text <|
      member "llm_symbol" (·.llmSymbol) text <|
      member "llm_entry_price" (·.llmEntryPrice) float <|
      member "llm_signal" (·.llmSignal) optionalNumber <|
      member "llm_actionable" (·.llmActionable) bool <|
      member "predictions" (·.predictions) (list quantPrediction) done)
    (fun (evaluationId, createdAt, dueAt, expiresAt, exchange, symbol, entryPrice, activeParameterId,
        llmExchange, llmSymbol, llmEntryPrice, llmSignal, llmActionable, predictions, _) =>
      { evaluationId, createdAt, dueAt, expiresAt, exchange, symbol, entryPrice, activeParameterId,
        llmExchange, llmSymbol, llmEntryPrice, llmSignal, llmActionable, predictions })
    (fun _ => rfl) (fun _ => rfl) (by decide +kernel)

def quantCandidateOutcome : Codec F (QuantCandidateOutcome F) :=
  record .fromTypes
    (member "parameter_id" (·.parameterId) text <|
      member "exchange" (·.exchange) text <|
      member "symbol" (·.symbol) text <|
      member "actionable" (·.actionable) bool <|
      member "net_return_bps" (·.netReturnBps) float done)
    (fun (parameterId, exchange, symbol, actionable, netReturnBps, _) =>
      { parameterId, exchange, symbol, actionable, netReturnBps })
    (fun _ => rfl) (fun _ => rfl) (by decide +kernel)

def quantResolvedEvaluation : Codec F (QuantResolvedEvaluation F) :=
  record .fromTypes
    (member "evaluation_id" (·.evaluationId) text <|
      member "created_at" (·.createdAt) float <|
      member "resolved_at" (·.resolvedAt) float <|
      member "exchange" (·.exchange) text <|
      member "symbol" (·.symbol) text <|
      member "active_parameter_id" (·.activeParameterId) text <|
      member "active_quant_actionable" (·.activeQuantActionable) bool <|
      member "active_quant_net_return_bps" (·.activeQuantNetReturnBps) float <|
      member "llm_actionable" (·.llmActionable) bool <|
      member "llm_net_return_bps" (·.llmNetReturnBps) optionalNumber <|
      member "candidate_outcomes" (·.candidateOutcomes) (list quantCandidateOutcome) done)
    (fun (evaluationId, createdAt, resolvedAt, exchange, symbol, activeParameterId, activeQuantActionable,
        activeQuantNetReturnBps, llmActionable, llmNetReturnBps, candidateOutcomes, _) =>
      { evaluationId, createdAt, resolvedAt, exchange, symbol, activeParameterId, activeQuantActionable,
        activeQuantNetReturnBps, llmActionable, llmNetReturnBps, candidateOutcomes })
    (fun _ => rfl) (fun _ => rfl) (by decide +kernel)

def quantMigrationState : Codec F (QuantMigrationState F) :=
  record (.fromValue .default)
    (member "version" (·.version) natural <|
      member "mode" (·.mode) quantMode <|
      member "active_parameter_id" (·.activeParameterId) text <|
      member "parameter_sets" (·.parameterSets) (list quantParameters) <|
      member "pending" (·.pending) (list quantPendingEvaluation) <|
      member "resolved" (·.resolved) (list quantResolvedEvaluation) <|
      member "promotion_streak" (·.promotionStreak) natural <|
      member "demotion_streak" (·.demotionStreak) natural <|
      member "initialized_at" (·.initializedAt) optionalNumber <|
      member "promoted_at" (·.promotedAt) optionalNumber <|
      member "last_shadow_recorded_at" (·.lastShadowRecordedAt) optionalNumber <|
      member "total_resolved" (·.totalResolved) natural <|
      member "last_tuned_resolved_count" (·.lastTunedResolvedCount) natural <|
      member "native_validation_parameter_id" (·.nativeValidationParameterId) optionalText <|
      member "native_validation_at" (·.nativeValidationAt) optionalNumber done)
    (fun (version, mode, activeParameterId, parameterSets, pending, resolved, promotionStreak,
        demotionStreak, initializedAt, promotedAt, lastShadowRecordedAt, totalResolved,
        lastTunedResolvedCount, nativeValidationParameterId, nativeValidationAt, _) =>
      { version, mode, activeParameterId, parameterSets, pending, resolved, promotionStreak, demotionStreak,
        initializedAt, promotedAt, lastShadowRecordedAt, totalResolved, lastTunedResolvedCount,
        nativeValidationParameterId, nativeValidationAt })
    (fun _ => rfl) (fun _ => rfl) (by decide +kernel)

end Gail.Trading.Snapshot
