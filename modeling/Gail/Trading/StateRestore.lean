import Gail.Trading.SnapshotState
import Gail.Trading.TradeRuns

/-! From the file of the trading state back to a running process: reading, repairing and taking over what
is durable. A file that is not read leaves the process with a fresh state. -/
namespace Gail.Trading.Snapshot
open Gail.Library Codec Members
variable {F Bytes : Type} [Scalar F]

/-- `serde_json` on texts of JSON, which it reads up to 127 levels deep. -/
structure SerdeText (F Bytes : Type) [Scalar F] where
  toStringPretty : Library.Json F → Bytes
  fromStr : Bytes → Option (Library.Json F)
  /-- What a plain write of a text leaves that ends early. -/
  cut : Nat → Bytes → Bytes
  fromStr_toStringPretty (json : Library.Json F) :
    fromStr (toStringPretty json) = if json.depth ≤ 127 then some json else none

section Repair

def saturatedCounter : Nat := 2 ^ 64 - 1

def repairCounter (count : Nat) : Nat := if count = saturatedCounter then 0 else count

def AdaptiveEndpointSchema.repair (endpoint : AdaptiveEndpointSchema F) : AdaptiveEndpointSchema F :=
  { endpoint with
    successCount := repairCounter endpoint.successCount
    failureCount := repairCounter endpoint.failureCount }

def AdaptiveSemanticHint.repair (hint : AdaptiveSemanticHint F) : AdaptiveSemanticHint F :=
  { hint with count := repairCounter hint.count }

/-- `repair_saturated_schema_counters`, with whether there was one. -/
def repairSaturatedSchemaCounters (schema : AdaptiveApiSchema F) : AdaptiveApiSchema F × Bool :=
  ({ schema with
      endpoints := schema.endpoints.map fun entry => (entry.1, entry.2.repair)
      semanticHints := schema.semanticHints.map fun entry => (entry.1, entry.2.repair) },
    schema.endpoints.any (fun entry =>
      entry.2.successCount == saturatedCounter || entry.2.failureCount == saturatedCounter) ||
    schema.semanticHints.any fun entry => entry.2.count == saturatedCounter)

def lacksContext : Library.Json F → Bool
  | .object entry => (entry.lookup "context").isNone
  | _ => false

def insertContext : Library.Json F → Library.Json F
  | .object entry => if (entry.lookup "context").isNone then .object (entry ++ [("context", .null)]) else .object entry
  | json => json

def logLacksContext : Library.Json F → Bool
  | .array entries => entries.any lacksContext
  | _ => false

def insertContexts : Library.Json F → Library.Json F
  | .array entries => .array (entries.map insertContext)
  | json => json

/-- A member that an older file does not have. -/
def insertMissing (name : String) (json : Library.Json F) (root : List (String × Library.Json F) × Bool) :
    List (String × Library.Json F) × Bool :=
  if (root.1.lookup name).isSome then root else (root.1 ++ [(name, json)], true)

def repairLegacyStatePayload : Library.Json F → Library.Json F × Bool
  | .object root =>
    let log := (root.map (fun member =>
        if member.1 = "activity_log" then (member.1, insertContexts member.2) else member),
      root.any fun member => member.1 == "activity_log" && logLacksContext member.2)
    let repaired := insertMissing "backtest_auto_tune" (.object [])
      (insertMissing "observed_external_log_fingerprints" (.array [])
        (insertMissing "api_schema" (.object []) log))
    (.object repaired.1, repaired.2)
  | json => (json, false)

def setMember (name : String) (json : Library.Json F) : Library.Json F → Library.Json F
  | .object members => .object (members.map fun member => if member.1 = name then (name, json) else member)
  | json => json

/-- `parse_persisted_state`: the state, and the payload that is to be written back if it was repaired. -/
def parsePersistedState (payload : Library.Json F) : Option (TradingState F × Option (Library.Json F)) := do
  let (payload, legacyRepaired) := repairLegacyStatePayload payload
  let state ← tradingState.decode payload
  let (apiSchema, schemaRepaired) := repairSaturatedSchemaCounters state.apiSchema
  let payload := if schemaRepaired then setMember "api_schema" (adaptiveApiSchema.encode apiSchema) payload else payload
  return ({ state with apiSchema }, if legacyRepaired || schemaRepaired then some payload else none)

end Repair

section Restore

/-- `TradingState::new`. -/
def TradingState.new (logRingSize tradeRingSize : Nat) : TradingState F where
  paused := false
  lastEvaluationAt := none
  lastTradeAt := none
  evaluationCount := 0
  tradeCount := 0
  pendingOverride := none
  currentPortfolio := none
  openPositions := []
  availableExchanges := []
  exchangeCircuit := []
  recentTrades := []
  tradeHistory := []
  activityLog := []
  lastError := none
  configOverrides := none
  logRingSize
  tradeRingSize
  lastBacktest := none
  backtestInProgress := false
  backtestHistory := []
  backtestAutoTune := backtestAutoTuneState.initial
  apiSchema := adaptiveApiSchema.initial
  observedExternalLogFingerprints := []
  inFlightOrderIntents := []
  outcomeLedger := Snapshot.outcomeLedger.initial
  quantMigration := .default
  lastNativeQuantBacktest := none
  quantEdgeCalibration := multiHorizonCalibrationState.initial
  executionTelemetry := executionTelemetryState.initial
  paperQualification := paperQualificationState.initial
  alphaSleeves := alphaSleevesState.initial
  llmRiskOverlay := llmRiskOverlayState.initial

/-- The newest trades of the history, as many as the ring holds. -/
def TradingState.rebuildRecentTrades (state : TradingState F) : TradingState F :=
  { state with recentTrades := state.tradeHistory.drop (state.tradeHistory.length - state.tradeRingSize) }

def TradingState.logInfo (state : TradingState F) (now : F) (category message : String) : TradingState F :=
  let kept :=
    if state.logRingSize ≤ state.activityLog.length then state.activityLog.drop 1 else state.activityLog
  { state with activityLog := kept ++ [{ ts := now, level := "info", category, message, context := .null }] }

/-- What `restore` takes over of the state that it has read. -/
def TradingState.adopt (state restored : TradingState F) (now : F) : TradingState F :=
  let history := if restored.tradeHistory.isEmpty then restored.recentTrades else restored.tradeHistory
  TradingState.logInfo
    { TradingState.rebuildRecentTrades { state with tradeHistory := history } with
      paused := restored.paused
      evaluationCount := restored.evaluationCount
      tradeCount := restored.tradeCount
      lastEvaluationAt := restored.lastEvaluationAt
      lastTradeAt := restored.lastTradeAt
      activityLog := restored.activityLog
      configOverrides := restored.configOverrides
      lastBacktest := restored.lastBacktest
      backtestHistory := restored.backtestHistory
      backtestAutoTune := restored.backtestAutoTune
      apiSchema := restored.apiSchema
      exchangeCircuit := restored.exchangeCircuit
      observedExternalLogFingerprints := restored.observedExternalLogFingerprints
      inFlightOrderIntents := restored.inFlightOrderIntents
      outcomeLedger := restored.outcomeLedger
      quantMigration := restored.quantMigration.normalize
      lastNativeQuantBacktest := restored.lastNativeQuantBacktest
      quantEdgeCalibration := restored.quantEdgeCalibration
      executionTelemetry := restored.executionTelemetry
      paperQualification := restored.paperQualification
      alphaSleeves := restored.alphaSleeves
      llmRiskOverlay := restored.llmRiskOverlay }
    now "startup" "Restored trading state from disk"

/-- The state that a file is parsed to. -/
def SerdeText.parse (serde : SerdeText F Bytes) (bytes : Bytes) :
    Option (TradingState F × Option (Library.Json F)) :=
  (serde.fromStr bytes).bind parsePersistedState

/-- `restore` on a fresh state: the state after it, and the text that it writes over the file. -/
def SerdeText.restore (serde : SerdeText F Bytes) (fresh : TradingState F) (now : F) (file : Option Bytes) :
    TradingState F × Option Bytes :=
  match file.bind serde.parse with
  | none => (fresh, none)
  | some (restored, repaired) => (fresh.adopt restored now, repaired.map serde.toStringPretty)

end Restore

/-- What a restart must not lose. -/
structure DurablePart (F : Type) [Scalar F] where
  paused : Bool
  inFlightOrderIntents : List (String × ExecutionIntentClaim F)
  tradeHistory : List (ExecutedTrade F)
  configOverrides : Option (TradingConfigOverride F)
  paperQualification : PaperQualificationState F
  quantMigration : QuantMigrationState F

def TradingState.durablePart (state : TradingState F) : DurablePart F where
  paused := state.paused
  inFlightOrderIntents := state.inFlightOrderIntents
  tradeHistory := state.tradeHistory
  configOverrides := state.configOverrides
  paperQualification := state.paperQualification
  quantMigration := state.quantMigration

/-- The part with the migration state as its controller repairs it before every use. -/
def DurablePart.normalised (part : DurablePart F) : DurablePart F :=
  { part with quantMigration := part.quantMigration.normalize }

/-- A state that its file gives back. -/
structure Recoverable (state : TradingState F) : Prop where
  shallow : (tradingState.encode state).depth ≤ 127
  required : AllFinite (tradingState.required state)
  trades : AllFinite ((list executedTrade).optional state.tradeHistory)
  overrides : AllFinite ((option tradingConfigOverride solid_record).optional state.configOverrides)
  qualification : AllFinite (paperQualificationState.optional state.paperQualification)
  migration : AllFinite (quantMigrationState.optional state.quantMigration)
  /-- Trades are on record in the history first. -/
  recorded : state.tradeHistory = [] → state.recentTrades = []

section Reading
variable {state : TradingState F} {schema : AdaptiveApiSchema F}

theorem insertContext_encode (entry : TradingLogEntry F) :
    insertContext (tradingLogEntry.encode entry) = tradingLogEntry.encode entry := rfl

theorem lacksContext_encode (entry : TradingLogEntry F) :
    lacksContext (tradingLogEntry.encode entry) = false := rfl

theorem insertContexts_encode (log : List (TradingLogEntry F)) :
    insertContexts ((list tradingLogEntry).encode log) = (list tradingLogEntry).encode log := by
  simp only [list, insertContexts, List.map_map, Function.comp_def, insertContext_encode]

theorem logLacksContext_encode (log : List (TradingLogEntry F)) :
    logLacksContext ((list tradingLogEntry).encode log) = false := by
  simp [list, logLacksContext, lacksContext_encode]

theorem repairLegacyStatePayload_encode (state : TradingState F) :
    repairLegacyStatePayload (tradingState.encode state) = (tradingState.encode state, false) := by
  have hlog := insertContexts_encode state.activityLog
  have hlacks := logLacksContext_encode state.activityLog
  simp only [tradingState, record, member, defaulted, cons, done, repairLegacyStatePayload, List.map_cons,
    List.map_nil, List.any_cons, List.any_nil, insertMissing, List.lookup_cons, hlog, hlacks, String.reduceEq,
    if_false, if_true, String.reduceBEq]
  rfl

theorem setMember_encode (state : TradingState F) (schema : AdaptiveApiSchema F) :
    setMember "api_schema" (adaptiveApiSchema.encode schema) (tradingState.encode state) =
      tradingState.encode { state with apiSchema := schema } := by
  rfl

theorem required_withSchema (state : TradingState F)
    (h : adaptiveApiSchema.required schema = adaptiveApiSchema.required state.apiSchema) :
    tradingState.required { state with apiSchema := schema } = tradingState.required state := by
  simp only [tradingState, record, member, defaulted, cons, done, h]

theorem depth_withSchema (state : TradingState F)
    (h : (adaptiveApiSchema.encode schema).depth = (adaptiveApiSchema.encode state.apiSchema).depth) :
    (tradingState.encode { state with apiSchema := schema }).depth = (tradingState.encode state).depth := by
  simp only [tradingState, record, member, defaulted, cons, done, Json.depth, depthOfMembers, h]

/-- The counters are no numbers that could be lost. -/
theorem required_repairSaturatedSchemaCounters (schema : AdaptiveApiSchema F) :
    adaptiveApiSchema.required (repairSaturatedSchemaCounters schema).1 = adaptiveApiSchema.required schema := by
  simp only [adaptiveApiSchema, repairSaturatedSchemaCounters, record, member, cons, done, textTable, table,
    List.flatMap_map]
  rfl

theorem depth_natural (n : Nat) : ((natural : Codec F Nat).encode n).depth = 0 := rfl

theorem depth_endpointRepair (endpoint : AdaptiveEndpointSchema F) :
    (adaptiveEndpointSchema.encode endpoint.repair).depth = (adaptiveEndpointSchema.encode endpoint).depth := by
  simp only [adaptiveEndpointSchema, AdaptiveEndpointSchema.repair, record, member, cons, done, Json.depth,
    depthOfMembers, depth_natural]

theorem depth_hintRepair (hint : AdaptiveSemanticHint F) :
    (adaptiveSemanticHint.encode hint.repair).depth = (adaptiveSemanticHint.encode hint).depth := by
  simp only [adaptiveSemanticHint, AdaptiveSemanticHint.repair, record, member, cons, done, Json.depth,
    depthOfMembers, depth_natural]

theorem depth_repairSaturatedSchemaCounters (schema : AdaptiveApiSchema F) :
    (adaptiveApiSchema.encode (repairSaturatedSchemaCounters schema).1).depth =
      (adaptiveApiSchema.encode schema).depth := by
  have hendpoints : depthOfMembers (schema.endpoints.map fun entry =>
      (id entry.1, adaptiveEndpointSchema.encode entry.2.repair)) =
        depthOfMembers (schema.endpoints.map fun entry => (id entry.1, adaptiveEndpointSchema.encode entry.2)) :=
    depthOfMembers_congr (fun entry => depth_endpointRepair entry.2) _
  have hhints : depthOfMembers (schema.semanticHints.map fun entry =>
      (id entry.1, adaptiveSemanticHint.encode entry.2.repair)) =
        depthOfMembers (schema.semanticHints.map fun entry => (id entry.1, adaptiveSemanticHint.encode entry.2)) :=
    depthOfMembers_congr (fun entry => depth_hintRepair entry.2) _
  simp only [adaptiveApiSchema, repairSaturatedSchemaCounters, record, member, cons, done, textTable, table,
    Json.depth, depthOfMembers, List.map_map, Function.comp_def, hendpoints, hhints]

/-- The state that a file is parsed to which holds a state, and what is written back. -/
theorem parsePersistedState_encode (state : TradingState F) :
    parsePersistedState (tradingState.encode state) =
      if AllFinite (tradingState.required state) then
        let repaired := repairSaturatedSchemaCounters (tradingState.kept state).apiSchema
        some ({ tradingState.kept state with apiSchema := repaired.1 },
          if repaired.2 then some (tradingState.encode { state with apiSchema := repaired.1 }) else none)
      else none := by
  rw [parsePersistedState, repairLegacyStatePayload_encode]
  simp only [tradingState.decode_encode]
  by_cases h : AllFinite (tradingState.required state)
  · simp only [if_pos h, Option.bind_eq_bind, Option.bind_some, Bool.false_or, setMember_encode]
    split <;> rfl
  · simp only [if_neg h, Option.bind_eq_bind, Option.bind_none]

theorem SerdeText.parse_encode (serde : SerdeText F Bytes) (state : TradingState F) :
    serde.parse (serde.toStringPretty (tradingState.encode state)) =
      if (tradingState.encode state).depth ≤ 127 then parsePersistedState (tradingState.encode state)
      else none := by
  rw [SerdeText.parse, serde.fromStr_toStringPretty]
  split <;> rfl

theorem optional_kept_leases (leases : List (String × ExecutionIntentClaim F)) :
    (textTable executionIntentClaim).kept leases = leases :=
  ((textTable executionIntentClaim).kept_eq_iff leases).mpr (allFinite_flatMap.mpr fun _ _ => allFinite_nil)

/-- Repairing the arms touches no optional number. -/
theorem optional_normalize (migration : QuantMigrationState F) :
    AllFinite (quantMigrationState.optional migration.normalize) ↔
      AllFinite (quantMigrationState.optional migration) := by
  have hsets : ∀ sets : List (QuantParameters F), AllFinite ((list quantParameters).optional sets) :=
    fun _ => allFinite_flatMap.mpr fun _ _ => allFinite_nil
  simp only [quantMigrationState, record, member, cons, done, allFinite_append, hsets]
  exact Iff.rfl

/-- The history is taken over as it was exactly if it has all its numbers, and there was none but the
recent trades. -/
theorem adopted_history_iff (state : TradingState F) :
    (if ((list executedTrade).kept state.tradeHistory).isEmpty then (list executedTrade).kept state.recentTrades
        else (list executedTrade).kept state.tradeHistory) = state.tradeHistory ↔
      AllFinite ((list executedTrade).optional state.tradeHistory) ∧
        (state.tradeHistory = [] → state.recentTrades = []) := by
  by_cases h : state.tradeHistory = []
  · have hempty : (list executedTrade).kept ([] : List (ExecutedTrade F)) = [] := rfl
    have hfinite : AllFinite ((list executedTrade).optional ([] : List (ExecutedTrade F))) := allFinite_nil
    have hrecent : (list executedTrade).kept state.recentTrades = [] ↔ state.recentTrades = [] :=
      List.map_eq_nil_iff
    simp [h, hempty, hfinite, hrecent]
  · have hne : ((list executedTrade).kept state.tradeHistory).isEmpty = false := by
      simpa [list] using h
    simp [hne, h, (list executedTrade).kept_eq_iff]

theorem durablePart_adopt (fresh restored : TradingState F) (now : F) :
    (fresh.adopt restored now).durablePart =
      { paused := restored.paused
        inFlightOrderIntents := restored.inFlightOrderIntents
        tradeHistory :=
          if restored.tradeHistory.isEmpty then restored.recentTrades else restored.tradeHistory
        configOverrides := restored.configOverrides
        paperQualification := restored.paperQualification
        quantMigration := restored.quantMigration.normalize } := rfl

/-- The migration state is taken over exactly if it has all its numbers. -/
theorem adopted_migration_iff (migration : QuantMigrationState F) :
    (quantMigrationState.kept migration).normalize = migration.normalize ↔
      AllFinite (quantMigrationState.optional migration) := by
  constructor
  · intro h
    rw [← optional_normalize, ← h, optional_normalize]
    exact quantMigrationState.optional_kept migration
  · intro h
    rw [(quantMigrationState.kept_eq_iff migration).mpr h]

theorem adopt_kept_iff (fresh state : TradingState F) (now : F) (schema : AdaptiveApiSchema F) :
    (fresh.adopt { tradingState.kept state with apiSchema := schema } now).durablePart =
        state.durablePart.normalised ↔
      (AllFinite ((list executedTrade).optional state.tradeHistory) ∧
        (state.tradeHistory = [] → state.recentTrades = [])) ∧
      AllFinite ((option tradingConfigOverride solid_record).optional state.configOverrides) ∧
      AllFinite (paperQualificationState.optional state.paperQualification) ∧
      AllFinite (quantMigrationState.optional state.quantMigration) := by
  rw [durablePart_adopt, DurablePart.normalised, TradingState.durablePart, DurablePart.mk.injEq,
    ← adopted_history_iff, ← adopted_migration_iff,
    ← (option tradingConfigOverride solid_record).kept_eq_iff, ← paperQualificationState.kept_eq_iff]
  have hpaused : (tradingState.kept state).paused = state.paused := rfl
  have hleases : (tradingState.kept state).inFlightOrderIntents = state.inFlightOrderIntents :=
    optional_kept_leases state.inFlightOrderIntents
  constructor
  · rintro ⟨-, -, hhistory, hoverrides, hqualification, hmigration⟩
    exact ⟨hhistory, hoverrides, hqualification, hmigration⟩
  · rintro ⟨hhistory, hoverrides, hqualification, hmigration⟩
    exact ⟨hpaused, hleases, hhistory, hoverrides, hqualification, hmigration⟩

/-- A file that holds a state gives its durable part back exactly if the state is recoverable. -/
theorem restore_durablePart_iff (serde : SerdeText F Bytes) (fresh state : TradingState F) (now : F) :
    (serde.parse (serde.toStringPretty (tradingState.encode state))).isSome = true ∧
        (serde.restore fresh now (some (serde.toStringPretty (tradingState.encode state)))).1.durablePart =
          state.durablePart.normalised ↔
      Recoverable state := by
  rw [SerdeText.restore, Option.bind_some, serde.parse_encode, parsePersistedState_encode]
  by_cases hdepth : (tradingState.encode state).depth ≤ 127
  swap
  · rw [if_neg hdepth]
    exact ⟨fun h => absurd h.1 (by simp), fun h => absurd h.shallow hdepth⟩
  by_cases hrequired : AllFinite (tradingState.required state)
  swap
  · rw [if_pos hdepth, if_neg hrequired]
    exact ⟨fun h => absurd h.1 (by simp), fun h => absurd h.required hrequired⟩
  rw [if_pos hdepth, if_pos hrequired]
  refine ⟨fun h => ?_, fun h => ⟨rfl, ?_⟩⟩
  · obtain ⟨⟨htrades, hrecorded⟩, hoverrides, hqualification, hmigration⟩ :=
      (adopt_kept_iff fresh state now _).mp h.2
    exact ⟨hdepth, hrequired, htrades, hoverrides, hqualification, hmigration, hrecorded⟩
  · exact (adopt_kept_iff fresh state now _).mpr
      ⟨⟨h.trades, h.recorded⟩, h.overrides, h.qualification, h.migration⟩

/-- What is written back for a recoverable state is a recoverable state again. -/
theorem Recoverable.repaired (h : Recoverable state) :
    Recoverable { state with
      apiSchema := (repairSaturatedSchemaCounters (tradingState.kept state).apiSchema).1 } where
  shallow := by
    rw [depth_withSchema]
    · exact h.shallow
    · rw [depth_repairSaturatedSchemaCounters]
      exact adaptiveApiSchema.depth_kept state.apiSchema
  required := by
    rw [required_withSchema]
    · exact h.required
    · rw [required_repairSaturatedSchemaCounters]
      exact adaptiveApiSchema.required_kept state.apiSchema
  trades := h.trades
  overrides := h.overrides
  qualification := h.qualification
  migration := h.migration
  recorded := h.recorded

/-- A restore writes nothing, or the state that it has read with its counters repaired. -/
theorem SerdeText.restore_repair (serde : SerdeText F Bytes) (fresh : TradingState F) (now : F)
    (h : Recoverable state) {written : Bytes}
    (hw : (serde.restore fresh now (some (serde.toStringPretty (tradingState.encode state)))).2 = some written) :
    written = serde.toStringPretty (tradingState.encode { state with
      apiSchema := (repairSaturatedSchemaCounters (tradingState.kept state).apiSchema).1 }) := by
  rw [SerdeText.restore, Option.bind_some, serde.parse_encode, parsePersistedState_encode, if_pos h.shallow,
    if_pos h.required] at hw
  obtain ⟨json, hj, rfl⟩ := Option.map_eq_some_iff.mp hw
  by_cases hsaturated : (repairSaturatedSchemaCounters (tradingState.kept state).apiSchema).2 = true
  · rw [if_pos hsaturated] at hj
    rw [← Option.some.inj hj]
  · rw [if_neg hsaturated] at hj
    cases hj

end Reading

end Gail.Trading.Snapshot
