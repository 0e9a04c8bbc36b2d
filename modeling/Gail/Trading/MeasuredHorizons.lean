import Gail.Trading.HorizonMarkouts

/-! Runs in which observations and evaluations are recorded, resolved and carried over restarts, and what the
returns in the ledgers were measured over. -/
namespace Gail.Trading
open Gail.Library
variable {F : Type} [Scalar F]

/-- What happens to the ledgers of the calibration and of the quant controller. -/
inductive LedgerAction (F : Type)
  | recordSignal (config : MultiHorizonConfig F) (uuids : Nat → String) (signal : GatedSignal F)
    (snapshot : MarketSnapshot F) (regime : String) (estimatedRoundTripCostBps now : F)
  | resolveHorizons (config : MultiHorizonConfig F) (snapshots : List (MarketSnapshot F)) (now : F)
  /-- An action of the engine on the controller, under the settings of that time. -/
  | migrate (config : TradingConfig F) (action : QuantAction F)
  /-- The state is written to its file. -/
  | save
  /-- The state is read back from its file. -/
  | restart

structure Ledgers (F : Type) where
  calibration : Snapshot.MultiHorizonCalibrationState F
  migration : QuantMigrationState F

/-- The ledgers of a running engine, and those in its file. -/
structure EngineLedgers (F : Type) where
  current : Ledgers F
  saved : Ledgers F

namespace EngineLedgers

def step (engine : EngineLedgers F) : LedgerAction F → EngineLedgers F
  | .recordSignal config uuids signal snapshot regime cost now =>
    { engine with
      current.calibration :=
        (engine.current.calibration.recordSignal config uuids signal snapshot regime cost now).2 }
  | .resolveHorizons config snapshots now =>
    { engine with current.calibration := (engine.current.calibration.resolveDue config snapshots now).2 }
  | .migrate config action =>
    { engine with current.migration := engine.current.migration.step config action }
  | .save => { engine with saved := engine.current }
  | .restart =>
    { engine with current := { engine.saved with migration := engine.saved.migration.normalize } }

/-- An engine that has not traded yet. -/
def fresh : EngineLedgers F :=
  let ledgers : Ledgers F := { calibration := ⟨[], [], []⟩, migration := .default }
  { current := ledgers, saved := ledgers }

/-- What the action resolves is resolved at quotes of its window, and what is overdue then is expired. -/
def ResolvesInTime (engine : EngineLedgers F) : LedgerAction F → Prop
  | .resolveHorizons _ snapshots now =>
    ∀ pending ∈ engine.current.calibration.pending, pending.ResolvesInTime snapshots now
  | .migrate config (.resolveDue snapshots now _) => config.quantShadowEnabled = true →
    ∀ pending ∈ engine.current.migration.pending, pending.ResolvesInTime config snapshots now
  | _ => True

/-- What the action finds quoted is not overdue, and its quotes were fetched in their window. -/
def QuotedInTime (engine : EngineLedgers F) : LedgerAction F → Prop
  | .resolveHorizons _ snapshots now =>
    ∀ pending ∈ engine.current.calibration.pending, pending.QuotedInTime snapshots now
  | .migrate config (.resolveDue snapshots now _) => config.quantShadowEnabled = true →
    ∀ pending ∈ engine.current.migration.pending, pending.QuotedInTime snapshots now
  | _ => True

instance (engine : EngineLedgers F) : (action : LedgerAction F) → Decidable (engine.QuotedInTime action)
  | .resolveHorizons _ snapshots now =>
    inferInstanceAs (Decidable (∀ pending ∈ engine.current.calibration.pending,
      pending.QuotedInTime snapshots now))
  | .migrate config (.resolveDue snapshots now _) =>
    inferInstanceAs (Decidable (config.quantShadowEnabled = true →
      ∀ pending ∈ engine.current.migration.pending, pending.QuotedInTime snapshots now))
  | .recordSignal .. | .save | .restart | .migrate _ (.start _) | .migrate _ .restore
  | .migrate _ (.recordEvaluation ..) | .migrate _ (.nativeValidation ..) => isTrue trivial

theorem quotedInTime_iff [Scalar.Comparable F] {engine : EngineLedgers F} {action : LedgerAction F} :
    engine.QuotedInTime action ↔ engine.ResolvesInTime action := by
  cases action with
  | resolveHorizons config snapshots now =>
    exact forall₂_congr fun pending _ => Snapshot.PendingHorizonObservation.quotedInTime_iff
  | migrate config action =>
    cases action with
    | resolveDue snapshots now persisted =>
      exact imp_congr_right fun _ => forall₂_congr fun pending _ => QuantPendingEvaluation.quotedInTime_iff
    | _ => rfl
  | _ => rfl

end EngineLedgers

section Histories
variable {actions : List (LedgerAction F)}

/-- The times of an observation follow from the horizon and the grace period it was recorded with. -/
structure Snapshot.PendingHorizonObservation.RecordedAt (pending : PendingHorizonObservation F)
    (config : MultiHorizonConfig F) (snapshot : MarketSnapshot F) (now : F) : Prop where
  exchange : pending.exchange = snapshot.exchange
  symbol : pending.symbol = snapshot.symbol
  entryPrice : pending.entryPrice = snapshot.price
  createdAt : pending.createdAt = now
  dueAt : pending.dueAt = now + Scalar.ofCount pending.horizonSeconds
  expiresAt : pending.expiresAt = pending.dueAt + Scalar.ofCount config.expiryGraceSeconds

def Snapshot.PendingHorizonObservation.Recorded (pending : PendingHorizonObservation F)
    (actions : List (LedgerAction F)) : Prop :=
  ∃ config uuids signal snapshot regime cost now,
    .recordSignal config uuids signal snapshot regime cost now ∈ actions ∧ pending.RecordedAt config snapshot now

/-- The return of an observation is that from the quote it was recorded at to one of its window. -/
def Snapshot.ResolvedHorizonObservation.Measured (observation : ResolvedHorizonObservation F)
    (actions : List (LedgerAction F)) : Prop :=
  ∃ pending : PendingHorizonObservation F, pending.Recorded actions ∧
    ∃ config snapshots now quote, .resolveHorizons config snapshots now ∈ actions ∧
      pending.quote snapshots = some quote ∧ observation = pending.resolvedBy quote now ∧
      quote.InWindow pending.dueAt pending.expiresAt

structure QuantPendingEvaluation.RecordedAt (pending : QuantPendingEvaluation F) (config : TradingConfig F)
    (context : QuantEvaluationContext F) : Prop where
  createdAt : pending.createdAt = context.now
  dueAt : pending.dueAt = context.now + Scalar.ofCount config.quantShadowHorizonSeconds
  expiresAt : pending.expiresAt = pending.dueAt + Scalar.ofCount config.quantShadowExpirySeconds

def QuantPendingEvaluation.Recorded (pending : QuantPendingEvaluation F) (actions : List (LedgerAction F)) :
    Prop :=
  ∃ config evaluationId signal context,
    .migrate config (.recordEvaluation evaluationId signal context) ∈ actions ∧ pending.RecordedAt config context

/-- Every return of an evaluation was earned in the window it was recorded with. -/
def QuantResolvedEvaluation.Measured (evaluation : QuantResolvedEvaluation F)
    (actions : List (LedgerAction F)) : Prop :=
  ∃ pending : QuantPendingEvaluation F, pending.Recorded actions ∧
    ∃ config snapshots now persisted, .migrate config (.resolveDue snapshots now persisted) ∈ actions ∧
      pending.settle config snapshots now = .resolved evaluation ∧
        pending.EarnedIn config snapshots evaluation

/-- What is pending was recorded in the run, and what is resolved was measured in it. -/
structure Ledgers.Measured (ledgers : Ledgers F) (actions : List (LedgerAction F)) : Prop where
  pendingObservations : ∀ pending ∈ ledgers.calibration.pending, pending.Recorded actions
  observations : ∀ observation ∈ ledgers.calibration.resolved, observation.Measured actions
  pendingEvaluations : ∀ pending ∈ ledgers.migration.pending, pending.Recorded actions
  evaluations : ∀ evaluation ∈ ledgers.migration.resolved, evaluation.Measured actions

end Histories

section Calibration
open Snapshot
variable {state : MultiHorizonCalibrationState F} {config : MultiHorizonConfig F} {uuids : Nat → String}
  {signal : GatedSignal F} {snapshot : MarketSnapshot F} {regime : String} {cost now : F}
  {snapshots : List (MarketSnapshot F)}

omit [Scalar F] in
theorem mem_of_mem_latest {α : Type} {size : Nat} {items : List α} {item : α} (h : item ∈ latest size items) :
    item ∈ items := List.mem_of_mem_drop h

private theorem recordHorizons_spec (horizons : List Nat) (recorded : Nat × MultiHorizonCalibrationState F) :
    let final := horizons.foldl (MultiHorizonCalibrationState.recordHorizon config uuids signal snapshot
      regime cost now) recorded
    final.2.resolved = recorded.2.resolved ∧
      ∀ pending ∈ final.2.pending, pending ∈ recorded.2.pending ∨ pending.RecordedAt config snapshot now := by
  induction horizons generalizing recorded with
  | nil => exact ⟨rfl, fun pending hp => .inl hp⟩
  | cons horizon horizons ih =>
    have hstep : (MultiHorizonCalibrationState.recordHorizon config uuids signal snapshot regime cost now
        recorded horizon).2.resolved = recorded.2.resolved ∧
        ∀ pending ∈ (MultiHorizonCalibrationState.recordHorizon config uuids signal snapshot regime cost now
          recorded horizon).2.pending,
          pending ∈ recorded.2.pending ∨ pending.RecordedAt config snapshot now := by
      unfold MultiHorizonCalibrationState.recordHorizon
      dsimp only
      split
      · exact ⟨rfl, fun pending hp => .inl hp⟩
      · refine ⟨rfl, fun pending hp => ?_⟩
        rcases List.mem_append.mp hp with hp | hp
        · exact .inl hp
        · rw [List.mem_singleton.mp hp]
          exact .inr ⟨rfl, rfl, rfl, rfl, rfl, rfl⟩
    obtain ⟨hresolved, hpending⟩ := ih (MultiHorizonCalibrationState.recordHorizon config uuids signal
      snapshot regime cost now recorded horizon)
    refine ⟨hresolved.trans hstep.1, fun pending hp => ?_⟩
    rcases hpending pending hp with hp | hp
    · exact hstep.2 pending hp
    · exact .inr hp

theorem recordSignal_spec (state : MultiHorizonCalibrationState F) (config : MultiHorizonConfig F)
    (uuids : Nat → String) (signal : GatedSignal F) (snapshot : MarketSnapshot F) (regime : String)
    (cost now : F) :
    (state.recordSignal config uuids signal snapshot regime cost now).2.resolved = state.resolved ∧
      ∀ pending ∈ (state.recordSignal config uuids signal snapshot regime cost now).2.pending,
        pending ∈ state.pending ∨ pending.RecordedAt config snapshot now := by
  unfold MultiHorizonCalibrationState.recordSignal
  split
  · exact ⟨rfl, fun pending hp => .inl hp⟩
  · obtain ⟨hresolved, hpending⟩ := recordHorizons_spec config.horizonsSeconds (0, state)
    exact ⟨hresolved, fun pending hp => hpending pending (mem_of_mem_latest hp)⟩

theorem mem_resolveDue {observation : ResolvedHorizonObservation F}
    (h : observation ∈ (state.resolveDue config snapshots now).2.resolved) : observation ∈ state.resolved ∨
      ∃ pending ∈ state.pending, pending.settle snapshots now = .resolved observation := by
  rcases List.mem_append.mp (mem_of_mem_latest h) with h | h
  · exact .inl h
  · obtain ⟨pending, hpending, hsettle⟩ := List.mem_filterMap.mp h
    refine .inr ⟨pending, hpending, ?_⟩
    cases hs : pending.settle snapshots now with
    | resolved other =>
      rw [hs] at hsettle
      rw [Option.some.inj hsettle]
    | _ => rw [hs] at hsettle; cases hsettle

end Calibration

namespace QuantMigrationState

omit [Scalar F] in
private theorem evaluation_eq_some {settlement : Settlement F} {evaluation : QuantResolvedEvaluation F}
    (h : settlement.evaluation = some evaluation) : settlement = .resolved evaluation := by
  cases settlement with
  | resolved other => rw [Option.some.inj h]
  | _ => cases h

/-- Resolving leaves what it keeps of the queue and adds what it settles. -/
theorem resolveDue_queue (state : QuantMigrationState F) (config : TradingConfig F)
    (snapshots : List (MarketSnapshot F)) (now : F) :
    (∀ pending ∈ (state.resolveDue config snapshots now).2.pending, pending ∈ state.pending) ∧
      ∀ evaluation ∈ (state.resolveDue config snapshots now).2.resolved, evaluation ∈ state.resolved ∨
        ∃ pending ∈ state.pending, pending.settle config snapshots now = .resolved evaluation := by
  obtain ⟨hpending, hresolved, -⟩ := resolveNormalized_ledgers state.normalize config snapshots now
  constructor
  · intro pending hp
    rw [resolveDue, hpending] at hp
    exact (List.mem_filter.mp hp).1
  · intro evaluation he
    rw [resolveDue, hresolved] at he
    rcases List.mem_append.mp (mem_of_mem_latest he) with he | he
    · exact .inl he
    · obtain ⟨pending, hp, hsettle⟩ := List.mem_filterMap.mp he
      exact .inr ⟨pending, hp, evaluation_eq_some hsettle⟩

theorem recordEvaluation_queue (state : QuantMigrationState F) (config : TradingConfig F)
    (evaluationId : String) (signal : QuantSignal F) (context : QuantEvaluationContext F) :
    (state.recordEvaluation config evaluationId signal context).2.resolved = state.resolved ∧
      ∀ pending ∈ (state.recordEvaluation config evaluationId signal context).2.pending,
        pending ∈ state.pending ∨ pending.RecordedAt config context := by
  unfold recordEvaluation recordNormalized
  dsimp only
  repeat' split
  · exact ⟨rfl, fun pending hp => .inl hp⟩
  · exact ⟨rfl, fun pending hp => .inl hp⟩
  · exact ⟨rfl, fun pending hp => .inl hp⟩
  · refine ⟨rfl, fun pending hp => ?_⟩
    rcases List.mem_append.mp (mem_of_mem_latest hp) with hp | hp
    · exact .inl hp
    · rw [List.mem_singleton.mp hp]
      exact .inr ⟨rfl, rfl, rfl⟩

end QuantMigrationState

namespace Ledgers
variable {actions : List (LedgerAction F)} {ledgers : Ledgers F} {config : TradingConfig F}
  {action : QuantAction F}

/-- Only the evaluations of the migration count. -/
theorem Measured.withMigration (h : ledgers.Measured actions) {next : QuantMigrationState F}
    (hpending : next.pending = ledgers.migration.pending) (hresolved : next.resolved = ledgers.migration.resolved) :
    Measured { ledgers with migration := next } actions := by
  refine ⟨h.pendingObservations, h.observations, ?_, ?_⟩
  · rw [hpending]
    exact h.pendingEvaluations
  · rw [hresolved]
    exact h.evaluations

theorem Measured.recordEvaluation (h : ledgers.Measured actions) {evaluationId : String} {signal : QuantSignal F}
    {context : QuantEvaluationContext F}
    (ha : .migrate config (.recordEvaluation evaluationId signal context) ∈ actions) :
    Measured { ledgers with
      migration := (ledgers.migration.recordEvaluation config evaluationId signal context).2 } actions := by
  obtain ⟨hresolved, hpending⟩ := QuantMigrationState.recordEvaluation_queue ledgers.migration config evaluationId
    signal context
  refine ⟨h.pendingObservations, h.observations, fun pending hp => ?_, ?_⟩
  · rcases hpending pending hp with hp | hp
    · exact h.pendingEvaluations pending hp
    · exact ⟨config, evaluationId, signal, context, ha, hp⟩
  · rw [hresolved]
    exact h.evaluations

theorem Measured.resolveDue (h : ledgers.Measured actions) {snapshots : List (MarketSnapshot F)} {now : F}
    {persisted : Bool} (ha : .migrate config (.resolveDue snapshots now persisted) ∈ actions)
    (hearned : ∀ pending ∈ ledgers.migration.pending, pending.ResolvesInTime config snapshots now) :
    Measured { ledgers with migration := (ledgers.migration.resolveDue config snapshots now).2 } actions := by
  obtain ⟨hpending, hresolved⟩ := QuantMigrationState.resolveDue_queue ledgers.migration config snapshots now
  refine ⟨h.pendingObservations, h.observations, ?_, fun evaluation hevaluation => ?_⟩
  · exact fun pending hp => h.pendingEvaluations pending (hpending pending hp)
  · rcases hresolved evaluation hevaluation with hold | ⟨pending, hp, hsettle⟩
    · exact h.evaluations evaluation hold
    · exact ⟨pending, h.pendingEvaluations pending hp, config, snapshots, now, persisted, ha, hsettle,
        (hearned pending hp).priced evaluation hsettle⟩

theorem Measured.migrate (h : ledgers.Measured actions) (ha : .migrate config action ∈ actions)
    (hearned : ∀ snapshots now persisted, action = .resolveDue snapshots now persisted →
      config.quantShadowEnabled = true → ∀ pending ∈ ledgers.migration.pending,
        pending.ResolvesInTime config snapshots now) :
    Measured { ledgers with migration := ledgers.migration.step config action } actions := by
  cases action with
  | start now =>
    obtain ⟨initializedAt, he⟩ := QuantMigrationState.initializeState_eq ledgers.migration now
    rw [QuantMigrationState.step, he]
    split
    · exact h.withMigration rfl rfl
    · exact h
  | restore => exact h.withMigration rfl rfl
  | nativeValidation promotionQualified selectedParameterId now =>
    obtain ⟨validatedId, validatedAt, he⟩ := QuantMigrationState.recordNativeValidation_eq ledgers.migration
      promotionQualified selectedParameterId now
    rw [QuantMigrationState.step, he]
    exact h.withMigration rfl rfl
  | recordEvaluation evaluationId signal context =>
    rw [QuantMigrationState.step]
    split
    · exact h
    · exact h.recordEvaluation ha
  | resolveDue snapshots now persisted =>
    rw [QuantMigrationState.step, QuantMigrationState.resolveQuantEvaluations]
    split
    · exact h
    · rename_i henabled
      rw [Bool.not_eq_true', Bool.not_eq_false] at henabled
      rcases QuantMigrationState.afterPersisting_eq ledgers.migration persisted
        (ledgers.migration.resolveDue config snapshots now) with he | he
      · rw [he]
        exact h.resolveDue ha (hearned snapshots now persisted rfl henabled)
      · rw [he]
        exact h

theorem Measured.normalize (h : ledgers.Measured actions) :
    Measured { ledgers with migration := ledgers.migration.normalize } actions :=
  ⟨h.pendingObservations, h.observations, h.pendingEvaluations, h.evaluations⟩

end Ledgers

namespace EngineLedgers
variable {actions : List (LedgerAction F)} {engine : EngineLedgers F} {action : LedgerAction F}

/-- In memory and in the file. -/
def Measured (engine : EngineLedgers F) (actions : List (LedgerAction F)) : Prop :=
  engine.current.Measured actions ∧ engine.saved.Measured actions

theorem fresh_measured : (fresh : EngineLedgers F).Measured actions := by
  have hempty : (fresh : EngineLedgers F).current.Measured actions := by
    refine ⟨?_, ?_, ?_, ?_⟩
    all_goals
      intro item hitem
      cases hitem
  exact ⟨hempty, hempty⟩

/-- What is resolved in time stays measured, whatever is recorded, saved and read back. -/
theorem measured_step (h : engine.Measured actions) (ha : action ∈ actions)
    (hr : engine.ResolvesInTime action) : (engine.step action).Measured actions := by
  obtain ⟨hcurrent, hsaved⟩ := h
  cases action with
  | recordSignal config uuids signal snapshot regime cost now =>
    obtain ⟨hresolved, hpending⟩ := recordSignal_spec engine.current.calibration config uuids signal snapshot
      regime cost now
    refine ⟨⟨fun pending hp => ?_, ?_, hcurrent.pendingEvaluations, hcurrent.evaluations⟩, hsaved⟩
    · rcases hpending pending hp with hp | hp
      · exact hcurrent.pendingObservations pending hp
      · exact ⟨config, uuids, signal, snapshot, regime, cost, now, ha, hp⟩
    · intro observation ho
      exact hcurrent.observations observation (hresolved ▸ ho)
  | resolveHorizons config snapshots now =>
    refine ⟨⟨fun pending hp => ?_, fun observation ho => ?_, hcurrent.pendingEvaluations,
      hcurrent.evaluations⟩, hsaved⟩
    · exact hcurrent.pendingObservations pending (List.mem_filter.mp hp).1
    · rcases mem_resolveDue ho with ho | ⟨pending, hp, hsettle⟩
      · exact hcurrent.observations observation ho
      · obtain ⟨quote, hquote, hentered, hwindow⟩ := (hr pending hp).priced observation hsettle
        exact ⟨pending, hcurrent.pendingObservations pending hp, config, snapshots, now, quote, ha, hquote,
          hentered, hwindow⟩
  | migrate config action =>
    refine ⟨hcurrent.migrate ha ?_, hsaved⟩
    rintro snapshots now persisted rfl henabled
    exact hr henabled
  | save => exact ⟨hcurrent, hcurrent⟩
  | restart => exact ⟨hsaved.normalize, hsaved⟩

/-- In a run, every observation is resolved in time exactly when all that is found quoted is quoted in time, and
then every return in the ledgers was measured over its horizon, up to the grace period. -/
theorem quotedInTime_iff_measured [Scalar.Comparable F] (actions : List (LedgerAction F)) :
    Along step QuotedInTime fresh actions ↔
      Along step ResolvesInTime fresh actions ∧ (run step fresh actions).Measured actions := by
  constructor
  · intro h
    have hresolves : Along step ResolvesInTime fresh actions :=
      h.mono step fun engine action => quotedInTime_iff.mp
    refine ⟨hresolves, ?_⟩
    have hmembers : Along step (fun _ action => action ∈ actions) (fresh : EngineLedgers F) actions :=
      along_of_forall step fun action ha _ => ha
    have hkeep (engine : EngineLedgers F) (action : LedgerAction F) (hm : engine.Measured actions)
        (hguard : action ∈ actions ∧ engine.ResolvesInTime action) : (engine.step action).Measured actions :=
      measured_step hm hguard.1 hguard.2
    exact run_invariant step hkeep fresh_measured (hmembers.and step hresolves)
  · rintro ⟨hresolves, -⟩
    exact hresolves.mono step fun engine action => quotedInTime_iff.mpr

section Sample

def quarterHour : MultiHorizonConfig ℚ :=
  { enabled := true
    horizonsSeconds := [900]
    expiryGraceSeconds := 3600
    ledgerSize := 100
    minimumSamples := 3
    confidenceZScore := 1
    minimumNetEdgeBps := 10
    requireCalibratedEdge := true }

def bitcoinAt (price fetchedAt : ℚ) : MarketSnapshot ℚ :=
  { exchange := "binance", symbol := "BTC/USDT", price, fetchedAt }

def bitcoinBuy : GatedSignal ℚ :=
  { parameterId := "balanced-v1"
    exchange := "binance"
    symbol := "BTC/USDT"
    signal := 1 / 2
    confidence := 1
    riskScore := 0
    actionable := true
    rawActionable := true
    selectedHorizonSeconds := none
    expectedGrossEdgeBps := none
    edgeLowerBoundBps := none
    estimatedRoundTripCostBps := 0
    edgeGateReason := none
    rationale := "" }

/-- An observation is recorded, and the engine is down until some time. -/
def recordedBefore (restart : ℚ) : List (LedgerAction ℚ) :=
  [ .recordSignal quarterHour (fun _ => "observation") bitcoinBuy (bitcoinAt 100 0) "trend" 4 0,
    .save,
    .restart,
    .resolveHorizons quarterHour [bitcoinAt 101 restart] restart ]

theorem punctual_restart_measured :
    (run step fresh (recordedBefore 1000)).Measured (recordedBefore 1000) :=
  ((quotedInTime_iff_measured (recordedBefore 1000)).mp (by decide +kernel)).2

/-- After a day of downtime the return of a quarter of an hour is entered from the quote of that day. -/
theorem late_restart_resolves :
    ((run step fresh (recordedBefore 86400)).current.calibration.resolved.map fun observation =>
      (observation.horizonSeconds, observation.resolvedAt)) = [(900, 86400)] ∧
    ¬ Along step ResolvesInTime fresh (recordedBefore 86400) := by
  refine ⟨by decide +kernel, fun h => ?_⟩
  have hquoted := h.mono step fun engine action => quotedInTime_iff.mpr
  revert hquoted
  decide +kernel

end Sample

end EngineLedgers

end Gail.Trading
