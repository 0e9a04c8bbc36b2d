import Gail.Ledger.LedgerRuns

/-! The trainer worker, which holds the lock that admits one of them. It takes rows into a snapshot, keeps a marker on
disk while the snapshot is trained, and marks the rows when the marker is gone. It can stop at any point. -/
namespace Gail.Ledger
open Gail.Library
variable {Value F : Type}

/-- The text of `active_training.json`. -/
inductive MarkerFile
  | absent
  | blank
  | unreadable
  | active (snapshotId : String) (ledgerIds : List Nat)
  deriving DecidableEq

def MarkerFile.ledgerIds : MarkerFile → List Nat
  | .active _ ledgerIds => ledgerIds
  | _ => []

structure TrainerConfig extends LedgerConfig where
  maxAttempts : Nat
  minSamples : Nat
  maxSamplesPerSnapshot : Nat
  includeDegraded : Bool

/-- What `active_training_snapshot` finds around a marker. -/
structure LifecycleView where
  /-- `GAIL_TRAIN_SLURM_SPOOL` is set. -/
  spool : Bool
  completedArtifacts : Bool
  /-- The exit code of a terminal result, where there is a result and it has one. -/
  terminalResult : Option (Option Int)
  /-- The request of the snapshot is queued or running. -/
  requestPresent : Bool
  heartbeatFresh : Bool

namespace LifecycleView

def terminalSuccess (view : LifecycleView) : Bool :=
  view.spool && (view.completedArtifacts || view.terminalResult == some (some 0))

/-- The reasons for which the rows of the marker are requeued, each before the marker is removed. -/
def releases (view : LifecycleView) : List String :=
  (if view.spool then
    match view.terminalResult with
    | none => []
    | some none => ["terminal Slurm result was invalid; snapshot will be retried"]
    | some (some _) => ["terminal Slurm result reported failure; snapshot will be retried"]
  else []) ++
    if (view.spool && view.requestPresent) || view.heartbeatFresh then []
    else ["stale unresolved training lifecycle; request cancelled and requeued"]

/-- The lifecycle is given up, so that a new snapshot may be started. -/
def stale (view : LifecycleView) : Bool := !((view.spool && view.requestPresent) || view.heartbeatFresh)

end LifecycleView

/-- `is_non_retryable_training_error`. -/
def isNonRetryableTrainingError (error : String) : Bool :=
  let error := toAsciiLowercase error
  containsText error "unsupported architecture" || containsText error "cannot be registered as safetensors" ||
    containsText error "synthetic bootstrap" || containsText error "not a production"

/-- What the pipeline returns for a snapshot that came to its end. -/
structure TrainingOutcome where
  snapshotTag : String
  status : TrainStatus
  closes : TrainColumns.closing status = true

theorem TrainingOutcome.completes (outcome : TrainingOutcome) : outcome.status.completes = true := by
  obtain ⟨_, status, hcloses⟩ := outcome
  cases status with
  | retry => cases hcloses
  | failed => cases hcloses
  | _ => rfl

/-- What follows when all rows have been requeued. -/
inductive AfterRelease
  | sleep
  | removeMarker (ledgerIds : List Nat) (reasons : List String) (fetches : Bool)

def AfterRelease.ledgerIds : AfterRelease → List Nat
  | .sleep => []
  | .removeMarker ledgerIds _ _ => ledgerIds

inductive TrainerPhase
  | idle
  | fetching
  | fetched (snapshotId : String) (ledgerIds : List Nat)
  /-- The dataset is written and the marker is not. -/
  | prepared (snapshotId : String) (ledgerIds : List Nat)
  | running (snapshotId : String) (ledgerIds : List Nat)
  /-- The pipeline has returned, with the outcome of the snapshot or with an error. -/
  | ended (ledgerIds : List Nat) (outcome : Except String TrainingOutcome)
  /-- The marker of a completed snapshot was removed, and its rows are to be marked. -/
  | unmarked (ledgerIds : List Nat) (outcome : TrainingOutcome)
  | releasing (todo : List Nat) (reason : String) (maxAttempts : Nat) (next : AfterRelease)

/-- The rows that the worker has in hand for a snapshot that is not complete. -/
def TrainerPhase.ledgerIds : TrainerPhase → List Nat
  | .idle => []
  | .fetching => []
  | .fetched _ ledgerIds => ledgerIds
  | .prepared _ ledgerIds => ledgerIds
  | .running _ ledgerIds => ledgerIds
  | .ended ledgerIds (.error _) => ledgerIds
  | .ended _ (.ok _) => []
  | .unmarked _ _ => []
  | .releasing todo _ _ next => todo ++ next.ledgerIds

/-- The rows of a snapshot that is complete and not marked. -/
def TrainerPhase.completed : TrainerPhase → List Nat
  | .ended ledgerIds (.ok _) => ledgerIds
  | .unmarked ledgerIds _ => ledgerIds
  | _ => []

/-- What the worker does next, with what it meets. A statement may fail, and so may a write. -/
inductive TrainerAction
  /-- A request that waits too long in the spool is cancelled; this is the statement for one of its rows. -/
  | requeueStale (id : Nat) (executed : Bool) (now : Nat)
  | recoverRegistrations (batchSize now : Nat)
  | requeueInfrastructure (ids : List Nat) (now : Nat)
  | poll (view : LifecycleView)
  | fetch (snapshotId : String) (now : Nat)
  | writeDataset (failure : Option String)
  | writeMarker (written : Bool) (left : MarkerFile) (torn : left.ledgerIds = [])
  | pipeline (outcome : Except String TrainingOutcome)
  | removeMarker (removed : Bool)
  | mark (executed : Bool) (now : Nat)
  /-- A marker that is being written may be left torn. -/
  | crash (left : Option MarkerFile) (torn : ∀ file ∈ left, file.ledgerIds = [])

inductive TrainerEvent (Value F : Type)
  | trainer (action : TrainerAction)
  /-- A statement of the gateway or of a mirror worker, or the request for validations. -/
  | elsewhere (statement : Statement Value F) (other : statement.marksTraining = false)

/-- The row of the id counts as trained. -/
def LedgerTable.trained (id : Nat) (table : LedgerTable Value F) : Bool :=
  (rowOf LedgerInteraction.id id table.rows).any (·.train.trainedAt.isSome)

structure TrainerWorld (Value F : Type) where
  table : LedgerTable Value F
  marker : MarkerFile
  phase : TrainerPhase

namespace TrainerWorld
variable (config : TrainerConfig)

def start : TrainerWorld Value F := ⟨.empty, .absent, .idle⟩

def execute (statement : Statement Value F) (executed : Bool) (world : TrainerWorld Value F) : TrainerWorld Value F :=
  if executed then { world with table := world.table.step config.toLedgerConfig statement } else world

/-- The next round of requeueing the rows of a marker, or what follows when there is none. -/
def release (ledgerIds : List Nat) (reasons : List String) (fetches : Bool) : TrainerPhase :=
  match reasons with
  | reason :: reasons => .releasing ledgerIds reason config.maxAttempts (.removeMarker ledgerIds reasons fetches)
  | [] => if fetches then .fetching else .idle

/-- The inspection of the lifecycle at a poll. -/
def inspect (view : LifecycleView) (world : TrainerWorld Value F) : TrainerWorld Value F :=
  match world.marker with
  | .absent => { world with phase := .fetching }
  | .blank => { world with marker := .absent, phase := .fetching }
  | .unreadable => world
  | .active snapshotId ledgerIds =>
    if view.terminalSuccess then { world with phase := .running snapshotId ledgerIds }
    else { world with phase := release config ledgerIds view.releases view.stale }

/-- An action that does not fit the phase changes nothing. -/
def act (world : TrainerWorld Value F) : TrainerAction → TrainerWorld Value F
  | .crash left _ => { world with marker := left.getD world.marker, phase := .idle }
  | .requeueStale id executed now =>
    match world.phase with
    | .idle => world.execute config
        (.trainingRetry id "stale Slurm queue request cancelled and requeued" config.maxAttempts now) executed
    | _ => world
  | .recoverRegistrations batchSize now =>
    match world.phase with
    | .idle => world.execute config (.recoverRegistrations batchSize now) true
    | _ => world
  | .requeueInfrastructure ids now =>
    match world.phase with
    | .idle => world.execute config (.requeueInfrastructure ids now) true
    | _ => world
  | .poll view =>
    match world.phase with
    | .idle => world.inspect config view
    | _ => world
  | .fetch snapshotId now =>
    match world.phase with
    | .fetching =>
      let entries := world.table.fetchPendingTraining config.maxSamplesPerSnapshot config.includeDegraded now
      if entries.length < config.minSamples then { world with phase := .idle }
      else { world with phase := .fetched snapshotId (entries.map LedgerInteraction.id) }
    | _ => world
  | .writeDataset failure =>
    match world.phase with
    | .fetched snapshotId ledgerIds =>
      match failure with
      | none => { world with phase := .prepared snapshotId ledgerIds }
      | some error =>
        { world with phase := .releasing ledgerIds ("dataset_write_failed: " ++ error) config.maxAttempts .sleep }
    | _ => world
  | .writeMarker written left _ =>
    match world.phase with
    | .prepared snapshotId ledgerIds =>
      if written then { world with marker := .active snapshotId ledgerIds, phase := .running snapshotId ledgerIds }
      else { world with marker := left, phase := .idle }
    | _ => world
  | .pipeline outcome =>
    match world.phase with
    | .running _ ledgerIds => { world with phase := .ended ledgerIds outcome }
    | _ => world
  | .removeMarker removed =>
    let marker := if removed then .absent else world.marker
    match world.phase with
    | .ended ledgerIds (.ok outcome) => { world with marker, phase := .unmarked ledgerIds outcome }
    | .ended ledgerIds (.error error) =>
      { world with
        marker
        phase :=
          .releasing ledgerIds error (if isNonRetryableTrainingError error then 1 else config.maxAttempts) .sleep }
    | .releasing [] _ _ (.removeMarker ledgerIds reasons fetches) =>
      if removed then { world with marker, phase := release config ledgerIds reasons fetches }
      else { world with phase := .idle }
    | _ => world
  | .mark executed now =>
    match world.phase with
    | .unmarked ledgerIds outcome =>
      { world.execute config (.trainingSuccess ledgerIds outcome.snapshotTag outcome.status
          outcome.completes now) executed with phase := .idle }
    | .releasing (id :: todo) reason maxAttempts next =>
      { world.execute config (.trainingRetry id reason maxAttempts now) executed with
        phase := .releasing todo reason maxAttempts next }
    | .releasing [] _ _ .sleep => { world with phase := .idle }
    | _ => world

def step (world : TrainerWorld Value F) : TrainerEvent Value F → TrainerWorld Value F
  | .trainer action => world.act config action
  | .elsewhere statement _ => { world with table := world.table.step config.toLedgerConfig statement }

/-- The event completes a snapshot that has the row. -/
def completes (id : Nat) (world : TrainerWorld Value F) : TrainerEvent Value F → Bool
  | .trainer (.pipeline (.ok _)) =>
    match world.phase with
    | .running _ ledgerIds => id ∈ ledgerIds
    | _ => false
  | _ => false

/-- The event keeps a completed snapshot of the row from being recorded, or takes back that the row counts as
trained. -/
def unsettles (id : Nat) (world : TrainerWorld Value F) : TrainerEvent Value F → Bool
  | .trainer (.crash _ _) => id ∈ world.phase.completed
  | .trainer (.removeMarker false) => id ∈ world.phase.completed
  | .trainer (.mark false _) => id ∈ world.phase.completed
  | .trainer (.requeueStale other true _) =>
    match world.phase with
    | .idle => other = id && world.table.trained id
    | _ => false
  | .trainer (.mark true _) =>
    match world.phase with
    | .releasing (other :: _) _ _ _ => other = id && world.table.trained id
    | _ => false
  | _ => false

end TrainerWorld

namespace LedgerTable
variable {config : LedgerConfig} {table : LedgerTable Value F}

theorem trained_update {chosen : LedgerInteraction Value F → Bool}
    {change : LedgerInteraction Value F → LedgerInteraction Value F} (h : ∀ row, (change row).id = row.id) (id : Nat) :
    trained id (table.update chosen change) = (rowOf LedgerInteraction.id id table.rows).any fun row =>
      (if chosen row then change row else row).train.trainedAt.isSome := by
  rw [trained, LedgerTable.update, rowOf_updateWhere fun row _ => h row, Option.any_map]

theorem trained_iff (id : Nat) : trained id table = true ↔
    ∃ row, rowOf LedgerInteraction.id id table.rows = some row ∧ row.train.trainedAt.isSome = true :=
  Option.any_eq_true _ _

theorem mem_fetchPendingTraining {batchSize now : Nat} {includeDegraded : Bool} {row : LedgerInteraction Value F}
    (h : row ∈ table.fetchPendingTraining batchSize includeDegraded now) :
    row ∈ table.rows ∧ row.pendingTraining includeDegraded now = true :=
  List.mem_filter.mp ((sortByKey_perm _).mem_iff.mp (List.mem_of_mem_take h))

/-- A row that counts as trained does so after a statement of anyone but the trainer. -/
theorem trained_elsewhere {statement : Statement Value F} (h : statement.marksTraining = false) {id : Nat}
    (ht : trained id table = true) : trained id (table.step config statement) = true := by
  obtain ⟨row, hrow, hat⟩ := (trained_iff id).mp ht
  by_cases hs : ∃ record, statement = .persist record
  · obtain ⟨record, rfl⟩ := hs
    rcases persist_cases record table with ⟨_, he⟩ | ⟨_, he⟩ <;> rw [LedgerTable.step, he, trained]
    · rw [rowOf_append, hrow, Option.some_or, Option.any_some, hat]
    · rw [rowOf_updateWhere, hrow, Option.map_some, Option.any_some]
      · split <;> exact hat
      · exact fun _ _ => rfl
  · obtain ⟨chosen, change, he, hk, _, _, hm⟩ := step_worker config table (not_exists.mp hs)
    rw [he, trained_update fun row => (hk row).1, hrow, Option.any_some]
    split
    · rw [hm h row, hat]
    · exact hat

/-- So it does after the trainer has marked others for a retry. -/
theorem trained_retry {id other : Nat} (hne : other ≠ id) (reason : String) (maxAttempts now : Nat)
    (ht : trained id table = true) :
    trained id (table.step config (.trainingRetry other reason maxAttempts now)) = true := by
  obtain ⟨row, hrow, hat⟩ := (trained_iff id).mp ht
  rw [LedgerTable.step, markTrainingRetry, trained_update, hrow, Option.any_some,
    if_neg (by simpa [(rowOf_some hrow).2] using Ne.symm hne), hat]
  exact fun _ => rfl

/-- The rows of a completed snapshot count as trained, and no other ceases to. -/
theorem trained_success {id : Nat} (ids : List Nat) (snapshot : String) {status : TrainStatus}
    (hclosing : TrainColumns.closing status = true) (completes : status.completes = true) (now : Nat)
    (ht : trained id table = true ∨ (id ∈ ids ∧ id ∈ table.rows.map LedgerInteraction.id)) :
    trained id (table.step config (.trainingSuccess ids snapshot status completes now)) = true := by
  rw [LedgerTable.step, markTrainingSuccess, trained_update]
  swap
  · exact fun _ => rfl
  rcases ht with ht | ⟨hid, hknown⟩
  · obtain ⟨row, hrow, hat⟩ := (trained_iff id).mp ht
    rw [hrow, Option.any_some]
    split
    · simp [TrainColumns.success, hclosing]
    · exact hat
  · cases hrow : rowOf LedgerInteraction.id id table.rows with
    | none =>
      obtain ⟨row, hmem, heq⟩ := List.mem_map.mp hknown
      exact absurd heq (rowOf_eq_none.mp hrow row hmem)
    | some row =>
      rw [Option.any_some, if_pos (by simpa [(rowOf_some hrow).2] using hid)]
      simp [TrainColumns.success, hclosing]

/-- The recoveries at the start of a trainer leave the rows alone that count as trained. -/
theorem trained_recover (config : LedgerConfig) {maxAttempts : Nat} (hkeyed : table.Keyed)
    (hsound : ∀ row ∈ table.rows, row.Sound maxAttempts)
    {id : Nat} (ht : trained id table = true) (batchSize now : Nat) (ids : List Nat) :
    trained id (table.step config (.recoverRegistrations batchSize now)) = true ∧
      trained id (table.step config (.requeueInfrastructure ids now)) = true := by
  obtain ⟨row, hrow, hat⟩ := (trained_iff id).mp ht
  have hmem := (rowOf_some hrow).1
  obtain ⟨status, hstatus, hclosing⟩ := (hsound row hmem).train.closed.mp hat
  constructor
  · rw [LedgerTable.step, recoverIncompleteTrainingRegistrations, trained_update, hrow, Option.any_some,
      if_neg, hat]
    swap
    · exact fun _ => rfl
    intro hchosen
    obtain ⟨other, hother, heq⟩ := List.mem_map.mp (of_decide_eq_true hchosen)
    obtain ⟨hin, hincomplete⟩ := List.mem_filter.mp ((sortByKey_perm _).mem_iff.mp (List.mem_of_mem_take hother))
    rw [List.inj_on_of_nodup_map hkeyed.ids hin hmem heq, TrainColumns.registrationIncomplete, hstatus] at hincomplete
    cases status with
    | trained => simp at hincomplete
    | snapshotted => simp at hincomplete
    | _ => cases hclosing
  · rw [LedgerTable.step, requeueInfrastructureFailures, trained_update, hrow, Option.any_some,
      if_neg, hat]
    swap
    · exact fun _ => rfl
    intro hchosen
    have hfailed := (of_decide_eq_true hchosen).2
    rw [hstatus, Option.some_inj] at hfailed
    rw [hfailed] at hclosing
    cases hclosing

end LedgerTable

namespace TrainerWorld
variable {config : TrainerConfig} {world : TrainerWorld Value F} {id : Nat}

/-- The table is in order, and what the worker knows of are rows of it. -/
structure Sound (config : TrainerConfig) (world : TrainerWorld Value F) : Prop where
  keyed : world.table.Keyed
  rows : world.table.Sound config.mirrorMaxAttempts
  marker : ∀ id ∈ world.marker.ledgerIds, id ∈ world.table.rows.map LedgerInteraction.id
  phase : ∀ id ∈ world.phase.ledgerIds, id ∈ world.table.rows.map LedgerInteraction.id
  completed : ∀ id ∈ world.phase.completed, id ∈ world.table.rows.map LedgerInteraction.id

/-- The row is trained and no more taken up, or it will be so when the worker has marked the snapshot in hand. -/
def settled (id : Nat) (world : TrainerWorld Value F) : Prop :=
  (world.table.trained id = true ∧ id ∉ world.marker.ledgerIds ∧ id ∉ world.phase.ledgerIds) ∨
    match world.phase with
    | .ended ledgerIds (.ok _) => id ∈ ledgerIds
    | .unmarked ledgerIds _ => id ∈ ledgerIds ∧ id ∉ world.marker.ledgerIds
    | _ => False

/-- A statement leaves the worker where it is. -/
theorem Sound.setTable (h : world.Sound config) (statement : Statement Value F) :
    Sound config { world with table := world.table.step config.toLedgerConfig statement } where
  keyed := h.keyed.step _ statement
  rows := h.rows.step _ statement
  marker id hid := LedgerTable.mem_ids_step _ (h.marker id hid)
  phase id hid := LedgerTable.mem_ids_step _ (h.phase id hid)
  completed id hid := LedgerTable.mem_ids_step _ (h.completed id hid)

theorem execute_phase (statement : Statement Value F) (executed : Bool) :
    (world.execute config statement executed).phase = world.phase := by
  unfold TrainerWorld.execute
  split <;> rfl

theorem execute_marker (statement : Statement Value F) (executed : Bool) :
    (world.execute config statement executed).marker = world.marker := by
  unfold TrainerWorld.execute
  split <;> rfl

theorem release_ledgerIds (config : TrainerConfig) (ledgerIds : List Nat) (reasons : List String) (fetches : Bool) :
    (release config ledgerIds reasons fetches).ledgerIds ⊆ ledgerIds ∧
      (release config ledgerIds reasons fetches).completed = [] := by
  cases reasons with
  | nil => cases fetches <;> exact ⟨List.nil_subset _, rfl⟩
  | cons reason reasons => exact ⟨List.append_subset.mpr ⟨List.Subset.refl _, List.Subset.refl _⟩, rfl⟩

/-- The rows that the worker is to train, and those that it may take up. -/
def takable (world : TrainerWorld Value F) : List Nat :=
  world.marker.ledgerIds ++ (world.phase.ledgerIds ++
    (world.table.rows.filter (·.train.trainedAt.isNone)).map LedgerInteraction.id)

/-- What the worker may have in hand after an action. -/
def TakesUp (world after : TrainerWorld Value F) : Prop :=
  after.marker.ledgerIds ⊆ world.takable ∧ after.phase.ledgerIds ⊆ world.takable ∧
    after.phase.completed ⊆ world.phase.ledgerIds ++ world.phase.completed

theorem takesUp_act (action : TrainerAction) : world.TakesUp (world.act config action) := by
  have hmarker : world.marker.ledgerIds ⊆ world.takable := List.subset_append_left _ _
  have hphase : world.phase.ledgerIds ⊆ world.takable :=
    List.subset_append_of_subset_right _ (List.subset_append_left _ _)
  have hcompleted : world.phase.completed ⊆ world.phase.ledgerIds ++ world.phase.completed :=
    List.subset_append_right _ _
  have hnone {ids : List Nat} : [] ⊆ ids := List.nil_subset _
  have hstay : world.TakesUp world := ⟨hmarker, hphase, hcompleted⟩
  have hexecute (statement : Statement Value F) (executed : Bool) :
      world.TakesUp (world.execute config statement executed) := by
    rw [TakesUp, execute_phase, execute_marker]
    exact hstay
  have hrelease {ledgerIds : List Nat} (h : ledgerIds ⊆ world.takable) (marker : MarkerFile)
      (hm : marker.ledgerIds ⊆ world.takable) (reasons : List String) (fetches : Bool) :
      world.TakesUp { world with marker, phase := release config ledgerIds reasons fetches } := by
    obtain ⟨hsub, hempty⟩ := release_ledgerIds config ledgerIds reasons fetches
    exact ⟨hm, fun id hid => h (hsub hid), hempty ▸ hnone⟩
  cases action with
  | crash left torn =>
    refine ⟨?_, hnone, hnone⟩
    cases left with
    | none => exact hmarker
    | some file => exact torn file rfl ▸ hnone
  | requeueStale | recoverRegistrations | requeueInfrastructure =>
    rw [TrainerWorld.act]
    split
    · exact hexecute _ _
    · exact hstay
  | poll view =>
    rw [TrainerWorld.act]
    split
    · rw [TrainerWorld.inspect]
      split
      · exact ⟨hmarker, hnone, hnone⟩
      · exact ⟨hnone, hnone, hnone⟩
      · exact hstay
      · rename_i hm
        have hids := hmarker
        rw [hm] at hids
        split
        · exact ⟨hmarker, hids, hnone⟩
        · exact hrelease hids _ hmarker _ _
    · exact hstay
  | fetch snapshotId now =>
    rw [TrainerWorld.act]
    split
    · dsimp only
      split
      · exact ⟨hmarker, hnone, hnone⟩
      · refine ⟨hmarker, fun id hid => ?_, hnone⟩
        obtain ⟨row, hrow, rfl⟩ := List.mem_map.mp hid
        obtain ⟨hmem, hpending⟩ := LedgerTable.mem_fetchPendingTraining hrow
        simp only [LedgerInteraction.pendingTraining, Bool.and_eq_true] at hpending
        have hopen : row ∈ world.table.rows.filter (·.train.trainedAt.isNone) :=
          List.mem_filter.mpr ⟨hmem, hpending.1.1.1.1⟩
        exact List.mem_append_right _ (List.mem_append_right _ (List.mem_map_of_mem hopen))
    · exact hstay
  | writeDataset failure =>
    rw [TrainerWorld.act]
    split
    · rename_i hp
      rw [hp] at hphase
      cases failure with
      | none => exact ⟨hmarker, hphase, hnone⟩
      | some error => exact ⟨hmarker, List.append_subset.mpr ⟨hphase, hnone⟩, hnone⟩
    · exact hstay
  | writeMarker written left torn =>
    rw [TrainerWorld.act]
    split
    · rename_i hp
      rw [hp] at hphase
      split
      · exact ⟨hphase, hphase, hnone⟩
      · exact ⟨torn ▸ hnone, hnone, hnone⟩
    · exact hstay
  | pipeline outcome =>
    rw [TrainerWorld.act]
    split
    · rename_i hp
      cases outcome with
      | error error =>
        rw [hp] at hphase
        exact ⟨hmarker, hphase, hnone⟩
      | ok outcome => exact ⟨hmarker, hnone, List.subset_append_of_subset_left _ (hp ▸ List.Subset.refl _)⟩
    · exact hstay
  | removeMarker removed =>
    have hleft : (if removed then MarkerFile.absent else world.marker).ledgerIds ⊆ world.takable := by
      cases removed with
      | true => exact hnone
      | false => exact hmarker
    rw [TrainerWorld.act]
    split
    · rename_i hp
      rw [hp] at hcompleted
      exact ⟨hleft, hnone, hp ▸ hcompleted⟩
    · rename_i hp
      rw [hp] at hphase
      exact ⟨hleft, List.append_subset.mpr ⟨hphase, hnone⟩, hnone⟩
    · rename_i hp
      rw [hp] at hphase
      split
      · exact hrelease hphase _ hnone _ _
      · exact ⟨hmarker, hnone, hnone⟩
    · exact hstay
  | mark executed now =>
    rw [TrainerWorld.act]
    split
    · exact ⟨(execute_marker _ _).symm ▸ hmarker, hnone, hnone⟩
    · rename_i hp
      rw [hp] at hphase
      exact ⟨(execute_marker _ _).symm ▸ hmarker, fun id hid => hphase (List.mem_cons_of_mem _ hid), hnone⟩
    · exact ⟨hmarker, hnone, hnone⟩
    · exact hstay

variable (config world) in
/-- An action executes one statement at most, which leaves the rows alone that are trained and not in hand. -/
theorem table_act (action : TrainerAction) : (world.act config action).table = world.table ∨
    ∃ statement, (world.act config action).table = world.table.step config.toLedgerConfig statement ∧
      ∀ id, world.Sound config → world.table.trained id = true → id ∉ world.phase.ledgerIds →
        world.unsettles id (.trainer action) = false →
          (world.table.step config.toLedgerConfig statement).trained id = true := by
  cases action with
  | requeueStale other executed now =>
    rw [TrainerWorld.act]
    split
    · rename_i hp
      cases executed with
      | false => exact .inl rfl
      | true =>
        refine .inr ⟨_, rfl, fun id _ ht _ hu => LedgerTable.trained_retry ?_ _ _ _ ht⟩
        rw [unsettles, hp, ht, Bool.and_true] at hu
        exact of_decide_eq_false hu
    · exact .inl rfl
  | recoverRegistrations batchSize now =>
    rw [TrainerWorld.act]
    split
    · exact .inr ⟨_, rfl, fun id h ht _ _ => (LedgerTable.trained_recover _ h.keyed h.rows.each ht batchSize now []).1⟩
    · exact .inl rfl
  | requeueInfrastructure ids now =>
    rw [TrainerWorld.act]
    split
    · exact .inr ⟨_, rfl, fun id h ht _ _ => (LedgerTable.trained_recover _ h.keyed h.rows.each ht 0 now ids).2⟩
    · exact .inl rfl
  | mark executed now =>
    rw [TrainerWorld.act]
    split
    · rename_i ledgerIds outcome hp
      cases executed with
      | false => exact .inl rfl
      | true =>
        refine .inr ⟨.trainingSuccess ledgerIds outcome.snapshotTag outcome.status outcome.completes now, rfl,
          fun id _ ht _ _ => ?_⟩
        exact LedgerTable.trained_success _ _ outcome.closes outcome.completes now (.inl ht)
    · rename_i hp
      cases executed with
      | false => exact .inl rfl
      | true =>
        refine .inr ⟨_, rfl, fun id _ ht hid _ => LedgerTable.trained_retry ?_ _ _ _ ht⟩
        rintro rfl
        exact hid (hp ▸ List.mem_cons_self)
    · exact .inl rfl
    · exact .inl rfl
  | poll view =>
    rw [TrainerWorld.act, TrainerWorld.inspect]
    repeat' split
    all_goals exact .inl rfl
  | fetch snapshotId now =>
    rw [TrainerWorld.act]
    split
    · dsimp only
      split <;> exact .inl rfl
    · exact .inl rfl
  | writeDataset failure =>
    rw [TrainerWorld.act]
    split
    · cases failure <;> exact .inl rfl
    · exact .inl rfl
  | _ =>
    refine .inl ?_
    rw [TrainerWorld.act]
    repeat' split
    all_goals rfl

theorem Sound.act (h : world.Sound config) (action : TrainerAction) : (world.act config action).Sound config := by
  have hknown : ∀ id ∈ world.takable, id ∈ world.table.rows.map LedgerInteraction.id := by
    intro id hid
    rcases List.mem_append.mp hid with hid | hid
    · exact h.marker id hid
    · rcases List.mem_append.mp hid with hid | hid
      · exact h.phase id hid
      · exact ((List.filter_sublist).map _).subset hid
  have hdone : ∀ id ∈ world.phase.ledgerIds ++ world.phase.completed, id ∈ world.table.rows.map LedgerInteraction.id :=
    fun id hid => (List.mem_append.mp hid).elim (h.phase id) (h.completed id)
  obtain ⟨hmarker, hphase, hcompleted⟩ : world.TakesUp (world.act config action) := takesUp_act action
  rcases table_act config world action with ht | ⟨statement, ht, -⟩
  · exact ⟨ht ▸ h.keyed, ht ▸ h.rows, fun id hid => ht ▸ hknown id (hmarker hid),
      fun id hid => ht ▸ hknown id (hphase hid), fun id hid => ht ▸ hdone id (hcompleted hid)⟩
  · have hstep := h.setTable statement
    exact ⟨ht ▸ hstep.keyed, ht ▸ hstep.rows,
      fun id hid => ht ▸ LedgerTable.mem_ids_step _ (hknown id (hmarker hid)),
      fun id hid => ht ▸ LedgerTable.mem_ids_step _ (hknown id (hphase hid)),
      fun id hid => ht ▸ LedgerTable.mem_ids_step _ (hdone id (hcompleted hid))⟩

theorem Sound.step (h : world.Sound config) (event : TrainerEvent Value F) :
    (world.step config event).Sound config := by
  cases event with
  | trainer action => exact h.act action
  | elsewhere statement other => exact h.setTable statement

/-- Only a worker that has a completed snapshot in hand has settled a row that does not count as trained. -/
theorem settled_iff_of_completed (hc : id ∉ world.phase.completed) :
    world.settled id ↔ world.table.trained id = true ∧ id ∉ world.marker.ledgerIds ∧ id ∉ world.phase.ledgerIds := by
  unfold settled
  refine or_iff_left fun hdone => ?_
  split at hdone
  · rename_i hp
    rw [hp] at hc
    exact hc hdone
  · rename_i hp
    rw [hp] at hc
    exact hc hdone.1
  · exact hdone

/-- A row that is trained and not in hand stays so, unless the action unsettles it. -/
theorem settled_act_trained (h : world.Sound config) (ht : world.table.trained id = true)
    (hm : id ∉ world.marker.ledgerIds) (hp : id ∉ world.phase.ledgerIds) {action : TrainerAction}
    (hu : world.unsettles id (.trainer action) = false) : (world.act config action).settled id := by
  have hnot : id ∉ world.takable := by
    intro hid
    rcases List.mem_append.mp hid with hid | hid
    · exact hm hid
    · obtain ⟨row, hrow, rfl⟩ := List.mem_map.mp ((List.mem_append.mp hid).resolve_left hp)
      obtain ⟨hmem, hopen⟩ := List.mem_filter.mp hrow
      rw [LedgerTable.trained, rowOf_eq_some h.keyed.ids hmem, Option.any_some] at ht
      rw [Option.isNone_iff_eq_none.mp hopen] at ht
      cases ht
  obtain ⟨hmarker, hphase, -⟩ : world.TakesUp (world.act config action) := takesUp_act action
  refine .inl ⟨?_, fun hid => hnot (hmarker hid), fun hid => hnot (hphase hid)⟩
  rcases table_act config world action with hsame | ⟨statement, hstep, htrained⟩
  · rw [hsame, ht]
  · rw [hstep, htrained id h ht hp hu]

/-- A row that is settled stays so, unless the event unsettles it. -/
theorem settled_act (h : world.Sound config) (hs : world.settled id) {action : TrainerAction}
    (hu : world.unsettles id (.trainer action) = false) : (world.act config action).settled id := by
  have hstay := hs
  rcases hs with ⟨ht, hm, hp⟩ | hdone
  · exact settled_act_trained h ht hm hp hu
  split at hdone
  · rename_i ledgerIds outcome hp
    -- The snapshot is complete: next its marker is removed.
    cases action with
    | crash left torn =>
      rw [unsettles, hp] at hu
      exact absurd hdone (of_decide_eq_false hu)
    | removeMarker removed =>
      cases removed with
      | false =>
        rw [unsettles, hp] at hu
        exact absurd hdone (of_decide_eq_false hu)
      | true =>
        rw [TrainerWorld.act, hp]
        exact .inr ⟨hdone, List.not_mem_nil⟩
    | _ =>
      rw [TrainerWorld.act, hp]
      exact hstay
  · rename_i ledgerIds outcome hp
    -- Its marker is removed: next its rows are marked.
    have hnot {ok : Prop} (hu : decide (id ∈ ledgerIds) = false) : ok := absurd hdone.1 (of_decide_eq_false hu)
    cases action with
    | crash left torn =>
      rw [unsettles, hp] at hu
      exact hnot hu
    | removeMarker removed =>
      rw [TrainerWorld.act, hp]
      exact hstay
    | mark executed now =>
      cases executed with
      | false =>
        rw [unsettles, hp] at hu
        exact hnot hu
      | true =>
        have hknown := h.completed id (hp ▸ hdone.1)
        rw [TrainerWorld.act, hp]
        refine .inl ⟨?_, hdone.2, List.not_mem_nil⟩
        change (world.table.step config.toLedgerConfig _).trained id = true
        exact LedgerTable.trained_success _ _ outcome.closes outcome.completes now (.inr ⟨hdone.1, hknown⟩)
    | _ =>
      rw [TrainerWorld.act, hp]
      exact hstay
  · exact hdone.elim

theorem settled_step (h : world.Sound config) (hs : world.settled id) {event : TrainerEvent Value F}
    (hu : world.unsettles id event = false) : (world.step config event).settled id := by
  cases event with
  | trainer action => exact settled_act h hs hu
  | elsewhere statement other =>
    rcases hs with ⟨ht, hm, hp⟩ | hdone
    · exact .inl ⟨LedgerTable.trained_elsewhere other ht, hm, hp⟩
    · exact .inr hdone

/-- A row of a snapshot that is trained was not settled, and is settled when the snapshot is complete. -/
theorem settled_completes {event : TrainerEvent Value F} (hc : world.completes id event = true) :
    ¬ world.settled id ∧ (world.step config event).settled id := by
  unfold completes at hc
  split at hc
  · split at hc
    · rename_i outcome _ snapshotId ledgerIds hp
      have hid : id ∈ ledgerIds := of_decide_eq_true hc
      constructor
      · rw [settled_iff_of_completed (by rw [hp]; exact List.not_mem_nil)]
        rintro ⟨_, _, hout⟩
        rw [hp] at hout
        exact hout hid
      · rw [TrainerWorld.step, TrainerWorld.act, hp]
        exact .inr hid
    · cases hc
  · cases hc

theorem sound_start (config : TrainerConfig) : (start : TrainerWorld Value F).Sound config where
  keyed := LedgerTable.keyed_empty
  rows := LedgerTable.sound_empty
  marker _ hid := nomatch hid
  phase _ hid := nomatch hid
  completed _ hid := nomatch hid

/-- In every order of events a row is in one completed snapshot at most, and in one more for each time that a completed
snapshot of it is not recorded or that its being trained is taken back. -/
theorem completions_bounded (config : TrainerConfig) (id : Nat) (events : List (TrainerEvent Value F)) :
    countAlong (step config) (completes id) start events ≤
      1 + countAlong (step config) (unsettles id) start events := by
  classical
  have hstore (world : TrainerWorld Value F) : (if world.settled id then 0 else 1) ≤ 1 := by split <;> simp
  have hstep (world : TrainerWorld Value F) (event : TrainerEvent Value F) (h : world.Sound config) :
      (world.step config event).Sound config ∧
        (if world.completes id event then 1 else 0) + (if (world.step config event).settled id then 0 else 1) ≤
          (if world.settled id then 0 else 1) + if world.unsettles id event then 1 else 0 := by
    refine ⟨h.step event, ?_⟩
    cases hc : world.completes id event with
    | true =>
      obtain ⟨hbefore, hafter⟩ : ¬ world.settled id ∧ (world.step config event).settled id := settled_completes hc
      rw [if_neg hbefore, if_pos hafter]
      exact Nat.le_add_right _ _
    | false =>
      rw [if_neg Bool.false_ne_true, Nat.zero_add]
      by_cases hs : world.settled id
      · cases hu : world.unsettles id event with
        | true => exact (hstore _).trans (Nat.le_add_left _ _)
        | false =>
          rw [if_pos (settled_step h hs hu)]
          exact Nat.zero_le _
      · rw [if_neg hs]
        exact (hstore _).trans (Nat.le_add_right _ _)
  have hpaid := countAlong_paid (step config) (fun world => if world.settled id then 0 else 1) hstep
    (sound_start config) events
  exact (Nat.le_add_right _ _).trans (hpaid.trans (Nat.add_le_add_right (hstore _) _))

/-- A worker that stops between the end of a snapshot and its mark trains the row again. -/
example :
    let config : TrainerConfig := ⟨⟨1, 60, 60, Nat.one_pos⟩, 3, 1, 8, false⟩
    let record : LlmLedgerRecord Unit Nat := ⟨"r", "c", "general", "general", none, none, none, none, none, none, "p",
      some "a", [], "ok", none, none, none, none, none, 1⟩
    let view : LifecycleView := ⟨false, false, none, false, false⟩
    let snapshot : List (TrainerEvent Unit Nat) := [.trainer (.poll view), .trainer (.fetch "s" 5),
      .trainer (.writeDataset none), .trainer (.writeMarker true .absent rfl),
      .trainer (.pipeline (.ok ⟨"s", .trained, rfl⟩)), .trainer (.removeMarker true)]
    countAlong (step config) (completes 1) start
      (.elsewhere (.persist record) rfl :: snapshot ++ .trainer (.crash none nofun) :: snapshot) = 2 := by
  decide +kernel

end TrainerWorld

end Gail.Ledger
