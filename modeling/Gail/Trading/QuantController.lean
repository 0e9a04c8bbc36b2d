import Gail.Trading.QuantState

/-! The decisions of the quant controller: what a markout earned, which arm is best, and when quant
replaces the LLM or gives way to it again. -/
namespace Gail.Trading
variable {F : Type} [Scalar F]

/-- The usable quote of a market that was fetched last. -/
def exactMarketSnapshot (snapshots : List (MarketSnapshot F)) (exchange symbol : String) :
    Option (MarketSnapshot F) :=
  maxBy MarketSnapshot.fetchedAt <| snapshots.filter fun snapshot =>
    Scalar.isFinite snapshot.price && decide ((0.0 : F) < snapshot.price) &&
      eqIgnoreAsciiCase snapshot.exchange exchange && eqIgnoreAsciiCase snapshot.symbol symbol

def directionalNetReturnBps (signal : F) (actionable : Bool) (rawReturnBps roundTripCostBps : F) :
    F :=
  if !actionable || decide (Scalar.abs signal < 0.2) then 0.0
  else Scalar.signum signal * rawReturnBps - Scalar.max roundTripCostBps 0.0

/-- What a policy earned on the market it chose: nothing for a hold, unknown without a quote. -/
def policyNetReturnBps (snapshots : List (MarketSnapshot F)) (exchange symbol : String)
    (entryPrice signal : F) (actionable : Bool) (roundTripCostBps : F) : Option F :=
  if !actionable || decide (Scalar.abs signal < 0.2) then some 0.0
  else if !Scalar.isFinite entryPrice || decide (entryPrice ≤ 0.0) then none
  else
    (exactMarketSnapshot snapshots exchange symbol).bind fun observed =>
      let rawReturnBps := (observed.price / entryPrice - 1.0) * 10000.0
      if Scalar.isFinite rawReturnBps then
        some (directionalNetReturnBps signal actionable rawReturnBps roundTripCostBps)
      else none

structure PerformanceSummary (F : Type) where
  samples : Nat
  actionableSamples : Nat
  meanNetReturnBps : F
  opportunityMeanNetReturnBps : F
  netEdgeLowerBoundBps : F
  winRate : F
  meanDownsideBps : F

namespace PerformanceSummary

def default : PerformanceSummary F := ⟨0, 0, 0.0, 0.0, 0.0, 0.0, 0.0⟩

/-- The sample variance, zero for a single value. -/
def variance (values : List F) : F :=
  if 1 < values.length then
    total (values.map fun value => (value - mean values) * (value - mean values))
      / Scalar.ofCount (values.length - 1)
  else 0.0

def fromPolicyValues (values : List F) (actionable : List Bool) (confidenceZScore : F) :
    PerformanceSummary F :=
  if values.isEmpty then default
  else
    let actionableValues := (values.zip actionable).filterMap fun (value, isActionable) =>
      if isActionable then some value else none
    if actionableValues.isEmpty then
      { default with samples := values.length, opportunityMeanNetReturnBps := mean values }
    else
      let count : F := Scalar.ofCount actionableValues.length
      let losses := (actionableValues.filter fun value => decide (value < 0.0)).map Scalar.abs
      { samples := values.length
        actionableSamples := actionableValues.length
        meanNetReturnBps := mean actionableValues
        opportunityMeanNetReturnBps := mean values
        netEdgeLowerBoundBps := mean actionableValues
          - clamp confidenceZScore 0.0 4.0 * Scalar.sqrt (variance actionableValues)
            / Scalar.sqrt count
        winRate := Scalar.ofCount (actionableValues.countP fun value => decide ((0.0 : F) < value))
          / count
        meanDownsideBps := if losses.isEmpty then 0.0 else mean losses }

end PerformanceSummary

structure ParameterPerformance (F : Type) where
  parameterId : String
  samples : Nat
  actionableSamples : Nat
  meanNetReturnBps : F
  opportunityMeanNetReturnBps : F
  netEdgeLowerBoundBps : F
  winRate : F
  meanDownsideBps : F
  riskAdjustedScoreBps : F

structure QuantParameterAdjustment (F : Type) where
  previousParameterId : String
  selectedParameterId : String
  riskAdjustedImprovementBps : F
  selectedPerformance : ParameterPerformance F

inductive QuantMigrationTransition
  | promoted
  | demoted
  deriving DecidableEq, Repr

structure QuantMigrationDecision (F : Type) where
  transition : QuantMigrationTransition
  parameterId : String
  samples : Nat
  actionableSamples : Nat
  quant : PerformanceSummary F
  llm : PerformanceSummary F
  outperformanceBps : F
  confirmationStreak : Nat

structure QuantControllerPerformance (F : Type) where
  pairedSamples : Nat
  quant : PerformanceSummary F
  llm : PerformanceSummary F

structure QuantUpdate (F : Type) where
  resolved : Nat
  expired : Nat
  parameterAdjustment : Option (QuantParameterAdjustment F)
  migration : Option (QuantMigrationDecision F)
  performance : Option (QuantControllerPerformance F)

/-- What `resolve_due` makes of one pending evaluation. -/
inductive Settlement (F : Type)
  | waiting
  | expired
  | resolved (evaluation : QuantResolvedEvaluation F)

def Settlement.isWaiting : Settlement F → Bool
  | .waiting => true
  | _ => false

def Settlement.isExpired : Settlement F → Bool
  | .expired => true
  | _ => false

def Settlement.evaluation : Settlement F → Option (QuantResolvedEvaluation F)
  | .resolved evaluation => some evaluation
  | _ => none

namespace QuantPendingEvaluation

/-- The markout of one arm, on its own market where it named one. -/
def candidateOutcome (pending : QuantPendingEvaluation F) (snapshots : List (MarketSnapshot F))
    (roundTripCostBps : F) (prediction : QuantPrediction F) : Option (QuantCandidateOutcome F) :=
  let exchange := if prediction.exchange.isEmpty then pending.exchange else prediction.exchange
  let symbol := if prediction.symbol.isEmpty then pending.symbol else prediction.symbol
  let entryPrice := if 0.0 < prediction.entryPrice then prediction.entryPrice else pending.entryPrice
  (policyNetReturnBps snapshots exchange symbol entryPrice prediction.signal prediction.actionable
    roundTripCostBps).map fun netReturnBps =>
      { parameterId := prediction.parameterId, exchange, symbol
        actionable := prediction.actionable, netReturnBps }

/-- The markout of the LLM's policy. -/
def llmNetReturnBps (pending : QuantPendingEvaluation F) (snapshots : List (MarketSnapshot F))
    (roundTripCostBps : F) : Option F :=
  pending.llmSignal.bind fun signal =>
    let exchange := if pending.llmExchange.isEmpty then pending.exchange else pending.llmExchange
    let symbol := if pending.llmSymbol.isEmpty then pending.symbol else pending.llmSymbol
    let entryPrice := if 0.0 < pending.llmEntryPrice then pending.llmEntryPrice
      else pending.entryPrice
    policyNetReturnBps snapshots exchange symbol entryPrice signal pending.llmActionable
      roundTripCostBps

/-- A due evaluation is resolved once the active arm has its markout and the LLM, if it was asked,
has its own; until then it waits, and expires. -/
def settle (pending : QuantPendingEvaluation F) (config : TradingConfig F)
    (snapshots : List (MarketSnapshot F)) (now : F) : Settlement F :=
  if now < pending.dueAt then .waiting
  else
    let roundTripCostBps := 2.0 * (config.estimatedFeeBps + config.estimatedSlippageBps)
    let outcomes :=
      pending.predictions.filterMap (pending.candidateOutcome snapshots roundTripCostBps)
    let unresolved := if now < pending.expiresAt then .waiting else .expired
    match outcomes.find? (fun outcome => outcome.parameterId == pending.activeParameterId) with
    | none => unresolved
    | some active =>
      let llmNetReturn := pending.llmNetReturnBps snapshots roundTripCostBps
      if pending.llmSignal.isSome && llmNetReturn.isNone then unresolved
      else
        .resolved
          { evaluationId := pending.evaluationId
            createdAt := pending.createdAt
            resolvedAt := now
            exchange := active.exchange
            symbol := active.symbol
            activeParameterId := pending.activeParameterId
            activeQuantActionable := active.actionable
            activeQuantNetReturnBps := active.netReturnBps
            llmActionable := pending.llmActionable
            llmNetReturnBps := llmNetReturn
            candidateOutcomes := outcomes }

end QuantPendingEvaluation

/-- A queue after `pop_front` until it is no longer than the size. -/
def latest {α : Type} (size : Nat) (items : List α) : List α := items.drop (items.length - size)

namespace QuantMigrationState

/-- The evaluations that `resolve_due` resolves, in the order of the queue. -/
def newlyResolved (state : QuantMigrationState F) (config : TradingConfig F)
    (snapshots : List (MarketSnapshot F)) (now : F) : List (QuantResolvedEvaluation F) :=
  state.pending.filterMap fun pending => (pending.settle config snapshots now).evaluation

/-- The ledgers after the loop of `resolve_due` over the pending evaluations. -/
def settleDue (state : QuantMigrationState F) (config : TradingConfig F)
    (snapshots : List (MarketSnapshot F)) (now : F) : QuantMigrationState F :=
  let resolved := state.newlyResolved config snapshots now
  { state with
    pending := state.pending.filter fun pending => (pending.settle config snapshots now).isWaiting
    resolved := latest config.quantShadowLedgerSize (state.resolved ++ resolved)
    totalResolved := resolved.foldl (fun count _ => saturatingSucc count) state.totalResolved }

/-- The newest evaluations of the active arm that carry a return of the LLM. -/
def paired (state : QuantMigrationState F) (config : TradingConfig F) :
    List (QuantResolvedEvaluation F) :=
  (state.resolved.reverse.filter fun item =>
    item.llmNetReturnBps.isSome && item.activeParameterId == state.activeParameterId).take
      config.quantMigrationWindowSamples

def controllerPerformance (state : QuantMigrationState F) (config : TradingConfig F) :
    QuantControllerPerformance F :=
  let paired := state.paired config
  { pairedSamples := paired.length
    quant := PerformanceSummary.fromPolicyValues
      (paired.map QuantResolvedEvaluation.activeQuantNetReturnBps)
      (paired.map QuantResolvedEvaluation.activeQuantActionable) config.selection.confidenceZScore
    llm := PerformanceSummary.fromPolicyValues
      (paired.filterMap QuantResolvedEvaluation.llmNetReturnBps)
      (paired.map QuantResolvedEvaluation.llmActionable) config.selection.confidenceZScore }

def parameterPerformance (state : QuantMigrationState F) (window : Nat) (confidenceZScore : F)
    (parameters : QuantParameters F) : ParameterPerformance F :=
  let outcomes := (state.resolved.reverse.filterMap fun item =>
    item.candidateOutcomes.find? fun outcome => outcome.parameterId == parameters.id).take window
  let summary := PerformanceSummary.fromPolicyValues
    (outcomes.map QuantCandidateOutcome.netReturnBps)
    (outcomes.map QuantCandidateOutcome.actionable) confidenceZScore
  let isCash := parameters.kind == .cash
  { parameterId := parameters.id
    samples := summary.samples
    actionableSamples := summary.actionableSamples
    meanNetReturnBps := summary.meanNetReturnBps
    opportunityMeanNetReturnBps := summary.opportunityMeanNetReturnBps
    netEdgeLowerBoundBps := if isCash then 0.0 else summary.netEdgeLowerBoundBps
    winRate := summary.winRate
    meanDownsideBps := summary.meanDownsideBps
    riskAdjustedScoreBps := if isCash then 0.0
      else summary.netEdgeLowerBoundBps - summary.meanDownsideBps * 0.25 }

def parameterPerformances (state : QuantMigrationState F) (window : Nat) (confidenceZScore : F) :
    List (ParameterPerformance F) :=
  state.parameterSets.map (state.parameterPerformance window confidenceZScore)

/-- The trading arm of highest score among those with enough samples and a positive edge. -/
def bestTradingArm (config : TradingConfig F) (performances : List (ParameterPerformance F)) :
    Option (ParameterPerformance F) :=
  maxBy ParameterPerformance.riskAdjustedScoreBps <| performances.filter fun performance =>
    performance.parameterId != config.selection.cashParameterId &&
      decide (config.quantTuningMinSamples ≤ performance.samples) &&
      decide (config.quantTuningMinActionableSamples ≤ performance.actionableSamples) &&
      decide (config.selection.minimumActionableNetEdgeBps < performance.netEdgeLowerBoundBps)

def maybeRetune (state : QuantMigrationState F) (config : TradingConfig F) :
    Option (QuantParameterAdjustment F) × QuantMigrationState F :=
  let total := state.totalResolved
  if state.resolved.length < config.quantTuningMinSamples ∨
      total - state.lastTunedResolvedCount < config.quantTuningIntervalSamples then
    (none, state)
  else
    let performances := state.parameterPerformances config.quantMigrationWindowSamples
      config.selection.confidenceZScore
    match performances.find? (fun performance =>
        performance.parameterId == state.activeParameterId),
      performances.find? (fun performance =>
        performance.parameterId == config.selection.cashParameterId) with
    | some current, some cash =>
      -- Cash wins whenever no trading arm establishes a positive absolute edge.
      let best := (bestTradingArm config performances).getD cash
      let tuned := { state with lastTunedResolvedCount := total }
      let improvement := best.riskAdjustedScoreBps - current.riskAdjustedScoreBps
      if best.parameterId = state.activeParameterId ∨
          improvement + Scalar.epsilon < config.quantTuningMinOutperformanceBps then
        (none, tuned)
      else
        (some
          { previousParameterId := state.activeParameterId
            selectedParameterId := best.parameterId
            riskAdjustedImprovementBps := improvement
            selectedPerformance := best },
          { tuned with activeParameterId := best.parameterId })
    | _, _ => (none, state)

def nativeValidationCurrent (state : QuantMigrationState F) (config : TradingConfig F) (now : F) :
    Bool :=
  !config.selection.requireNativeValidationForPromotion ||
    (state.nativeValidationParameterId == some state.activeParameterId &&
      state.nativeValidationAt.any fun validatedAt =>
        decide (now - validatedAt ≤ Scalar.ofCount config.selection.nativeValidationMaxAgeSeconds))

def activeIsCash (state : QuantMigrationState F) : Bool :=
  state.activeParameters.any fun parameters => parameters.kind == .cash

def outperformanceBps (state : QuantMigrationState F) (config : TradingConfig F) : F :=
  let performance := state.controllerPerformance config
  performance.quant.opportunityMeanNetReturnBps - performance.llm.opportunityMeanNetReturnBps

def actionableSamples (state : QuantMigrationState F) (config : TradingConfig F) : Nat :=
  (state.paired config).countP QuantResolvedEvaluation.activeQuantActionable

/-- The migration guard, for the active arm and the ledger of the state. -/
def qualified (state : QuantMigrationState F) (config : TradingConfig F) (now : F) : Bool :=
  let performance := state.controllerPerformance config
  decide (config.quantMigrationMinSamples ≤ (state.paired config).length) &&
    decide (config.quantMigrationMinActionableSamples ≤ state.actionableSamples config) &&
    !state.activeIsCash &&
    state.nativeValidationCurrent config now &&
    decide (config.selection.minimumActionableNetEdgeBps < performance.quant.netEdgeLowerBoundBps) &&
    decide ((0.0 : F) < performance.quant.opportunityMeanNetReturnBps) &&
    decide (config.quantMigrationMinOutperformanceBps ≤ state.outperformanceBps config) &&
    decide (performance.quant.meanDownsideBps ≤
      performance.llm.meanDownsideBps + config.quantMigrationMaxDownsideRegressionBps)

def migrationDecision (state : QuantMigrationState F) (config : TradingConfig F)
    (transition : QuantMigrationTransition) (confirmationStreak : Nat) : QuantMigrationDecision F :=
  { transition
    parameterId := state.activeParameterId
    samples := (state.paired config).length
    actionableSamples := state.actionableSamples config
    quant := (state.controllerPerformance config).quant
    llm := (state.controllerPerformance config).llm
    outperformanceBps := state.outperformanceBps config
    confirmationStreak }

def evaluateMigration (state : QuantMigrationState F) (config : TradingConfig F) (now : F) :
    Option (QuantMigrationDecision F) × QuantMigrationState F :=
  match state.mode with
  | .primary =>
    if state.qualified config now then (none, { state with demotionStreak := 0 })
    else if (state.paired config).length < config.quantMigrationMinSamples then (none, state)
    else
      let demotionStreak := saturatingSucc state.demotionStreak
      if demotionStreak < config.quantMigrationRequiredStreak then
        (none, { state with demotionStreak })
      else
        (some (state.migrationDecision config .demoted config.quantMigrationRequiredStreak),
          { state with mode := .shadow, promotedAt := none, promotionStreak := 0
                       demotionStreak := 0 })
  | .shadow =>
    let promotionStreak :=
      if state.qualified config now then saturatingSucc state.promotionStreak else 0
    if promotionStreak < config.quantMigrationRequiredStreak then
      (none, { state with demotionStreak := 0, promotionStreak })
    else
      (some (state.migrationDecision config .promoted promotionStreak),
        { state with demotionStreak := 0, promotionStreak, mode := .primary, promotedAt := some now })

/-- Resolve what is due, tune the active arm on the new ledger, then evaluate the migration. -/
def resolveNormalized (state : QuantMigrationState F) (config : TradingConfig F)
    (snapshots : List (MarketSnapshot F)) (now : F) : QuantUpdate F × QuantMigrationState F :=
  let resolved := state.newlyResolved config snapshots now
  let expired := state.pending.countP fun pending => (pending.settle config snapshots now).isExpired
  let settled := state.settleDue config snapshots now
  if resolved.isEmpty then
    ({ resolved := 0, expired, parameterAdjustment := none, migration := none
       performance := none }, settled)
  else
    let (parameterAdjustment, retuned) := settled.maybeRetune config
    let (migration, migrated) := retuned.evaluateMigration config now
    ({ resolved := resolved.length, expired, parameterAdjustment, migration
       performance := some (migrated.controllerPerformance config) }, migrated)

def resolveDue (state : QuantMigrationState F) (config : TradingConfig F)
    (snapshots : List (MarketSnapshot F)) (now : F) : QuantUpdate F × QuantMigrationState F :=
  state.normalize.resolveNormalized config snapshots now

end QuantMigrationState

/-- The part of the LLM's consensus that a shadow sample keeps. -/
structure AiConsensus (F : Type) where
  action : String
  signal : F

structure QuantEvaluationContext (F : Type) where
  snapshots : List (MarketSnapshot F)
  /-- The signal of each arm over the snapshots, features and portfolio of the cycle. -/
  evaluateUniverseForParameters : QuantParameters F → QuantSignal F
  llmConsensus : Option (AiConsensus F)
  llmSnapshot : Option (MarketSnapshot F)
  llmEvaluationAllowed : Bool
  now : F

structure QuantRecordSummary (F : Type) where
  evaluationId : String
  mode : QuantMode
  parameterId : String
  exchange : String
  symbol : String
  signal : F
  confidence : F
  actionable : Bool
  llmSignal : Option F
  llmActionable : Bool
  dueAt : F

namespace QuantEvaluationContext

/-- What an arm predicts at the time of the sample, with the price of the market it chose. -/
def prediction (context : QuantEvaluationContext F) (parameters : QuantParameters F) :
    QuantPrediction F :=
  let candidate := context.evaluateUniverseForParameters parameters
  { parameterId := parameters.id
    exchange := candidate.exchange
    symbol := candidate.symbol
    entryPrice := ((exactMarketSnapshot context.snapshots candidate.exchange candidate.symbol).map
      MarketSnapshot.price).getD 0.0
    signal := candidate.signal
    confidence := candidate.confidence
    riskScore := candidate.riskScore
    actionable := candidate.actionable }

def llmSignal (context : QuantEvaluationContext F) : Option F :=
  context.llmConsensus.map fun consensus => clamp consensus.signal (-1.0) 1.0

def llmActionable (context : QuantEvaluationContext F) : Bool :=
  context.llmEvaluationAllowed && context.llmSnapshot.isSome &&
    context.llmConsensus.any fun consensus => consensus.action != "hold"

end QuantEvaluationContext

/-- Record one sample at least a horizon after the last one. -/
def QuantMigrationState.recordNormalized (state : QuantMigrationState F) (config : TradingConfig F)
    (evaluationId : String) (signal : QuantSignal F) (context : QuantEvaluationContext F) :
    Option (QuantRecordSummary F) × QuantMigrationState F :=
  let horizon : F := Scalar.ofCount config.quantShadowHorizonSeconds
  if !config.quantShadowEnabled || signal.symbol.isEmpty then (none, state)
  else
    match exactMarketSnapshot context.snapshots signal.exchange signal.symbol with
    | none => (none, state)
    | some snapshot =>
      if state.lastShadowRecordedAt.any fun last =>
          decide (context.now - last + Scalar.epsilon < horizon) then
        (none, state)
      else
        let evaluation : QuantPendingEvaluation F :=
          { evaluationId
            createdAt := context.now
            dueAt := context.now + horizon
            expiresAt := context.now + horizon + Scalar.ofCount config.quantShadowExpirySeconds
            exchange := snapshot.exchange
            symbol := snapshot.symbol
            entryPrice := snapshot.price
            activeParameterId := state.activeParameterId
            llmExchange := (context.llmSnapshot.map MarketSnapshot.exchange).getD ""
            llmSymbol := (context.llmSnapshot.map MarketSnapshot.symbol).getD ""
            llmEntryPrice := (context.llmSnapshot.map MarketSnapshot.price).getD 0.0
            llmSignal := context.llmSignal
            llmActionable := context.llmActionable
            predictions := state.parameterSets.map context.prediction }
        (some
          { evaluationId
            mode := state.mode
            parameterId := signal.parameterId
            exchange := snapshot.exchange
            symbol := snapshot.symbol
            signal := signal.signal
            confidence := signal.confidence
            actionable := signal.actionable
            llmSignal := context.llmSignal
            llmActionable := context.llmActionable
            dueAt := context.now + horizon },
          { state with
            pending := latest config.quantShadowLedgerSize (state.pending ++ [evaluation])
            lastShadowRecordedAt := some context.now })

def QuantMigrationState.recordEvaluation (state : QuantMigrationState F) (config : TradingConfig F)
    (evaluationId : String) (signal : QuantSignal F) (context : QuantEvaluationContext F) :
    Option (QuantRecordSummary F) × QuantMigrationState F :=
  state.normalize.recordNormalized config evaluationId signal context

/-- The outcome of Gail's own backtest, from `run_configured_backtest`. -/
def QuantMigrationState.recordNativeValidation (state : QuantMigrationState F)
    (promotionQualified : Bool) (selectedParameterId : Option String) (now : F) :
    QuantMigrationState F :=
  if promotionQualified then
    { state with nativeValidationParameterId := selectedParameterId, nativeValidationAt := some now }
  else { state with nativeValidationParameterId := none, nativeValidationAt := none }

end Gail.Trading
