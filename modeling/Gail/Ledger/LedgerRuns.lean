import Gail.Ledger.InteractionTable
import Gail.Library.Run

/-! Runs of the statements on the interaction table, in whatever order the gateway and its workers issue them. The
table is a store of the record last written for each request, and each row says soundly how far its mirroring and
its training have come. -/
namespace Gail.Ledger
open Gail.Library
variable {Value F : Type}

/-- The settings that bound the retries, as normalisation leaves them. -/
structure LedgerConfig where
  mirrorMaxAttempts : Nat
  mirrorBackoffSeconds : Nat
  trainerBackoffSeconds : Nat
  mirrorMaxAttempts_pos : 0 < mirrorMaxAttempts

/-- The statuses of a snapshot that came to its end. -/
def TrainStatus.completes (status : TrainStatus) : Bool := status != .retry && status != .failed

/-- A statement that changes the table, with the time of its transaction. -/
inductive Statement (Value F : Type)
  | persist (record : LlmLedgerRecord Value F)
  | mirrorSuccess (id now : Nat)
  | mirrorRetry (id : Nat) (error : String) (now : Nat)
  | validation (id : Nat) (status : ValidationStatus) (error : Option String) (intervalSeconds now : Nat)
  | scheduleValidation (now : Nat)
  | trainingSuccess (ids : List Nat) (snapshot : String) (status : TrainStatus) (completes : status.completes = true)
    (now : Nat)
  /-- The limit is that of the settings, or one for an error that is not retried. -/
  | trainingRetry (id : Nat) (error : String) (maxAttempts now : Nat)
  | recoverRegistrations (batchSize now : Nat)
  | requeueInfrastructure (ids : List Nat) (now : Nat)

/-- The statements that mark how the mirroring of a row has come. -/
def Statement.marksMirror : Statement Value F → Bool
  | .mirrorSuccess _ _ => true
  | .mirrorRetry _ _ _ => true
  | _ => false

/-- The statements that say how the training on rows has come. -/
def Statement.marksTraining : Statement Value F → Bool
  | .trainingSuccess _ _ _ _ _ => true
  | .trainingRetry _ _ _ _ => true
  | .recoverRegistrations _ _ => true
  | .requeueInfrastructure _ _ => true
  | _ => false

namespace LedgerTable
variable (config : LedgerConfig)

def step (table : LedgerTable Value F) : Statement Value F → LedgerTable Value F
  | .persist record => table.persistPostgresRecord record
  | .mirrorSuccess id now => table.markMirrorSuccess id .mirrored now
  | .mirrorRetry id error now => table.markMirrorRetry id error config.mirrorMaxAttempts config.mirrorBackoffSeconds now
  | .validation id status error interval now => table.markValidation id status error interval now
  | .scheduleValidation now => table.scheduleValidationNow now
  | .trainingSuccess ids snapshot status _ now => table.markTrainingSuccess ids snapshot status now
  | .trainingRetry id error maxAttempts now =>
    table.markTrainingRetry id error maxAttempts config.trainerBackoffSeconds now
  | .recoverRegistrations batchSize now => table.recoverIncompleteTrainingRegistrations batchSize now
  | .requeueInfrastructure ids now => table.requeueInfrastructureFailures ids now

end LedgerTable

/-- The columns that concern mirroring fit together. -/
structure MirrorColumns.Sound (maxAttempts : Nat) (columns : MirrorColumns) : Prop where
  untried : columns.status = none ↔ columns.attempts = 0
  closed : columns.mirroredAt.isSome ↔ columns.status = some .mirrored ∨ columns.status = some .failed
  waiting : columns.nextMirrorAt.isSome ↔ columns.status = some .retry
  blamed : columns.error.isSome ↔ columns.status = some .retry ∨ columns.status = some .failed
  below : columns.mirroredAt = none → columns.attempts < maxAttempts
  exhausted : columns.status = some .failed → maxAttempts ≤ columns.attempts

structure TrainColumns.Sound (columns : TrainColumns) : Prop where
  closed : columns.trainedAt.isSome ↔ ∃ status, columns.status = some status ∧ closing status = true
  waiting : columns.nextTrainAt.isSome ↔
    columns.status = some .retry ∨ columns.status = some .trainedRegistrationPending
  named : columns.trainedAt.isSome → columns.trainingSnapshot.isSome ∧ columns.error = none
  blamed : columns.status = some .failed → columns.error.isSome

structure LedgerInteraction.Sound (maxAttempts : Nat) (row : LedgerInteraction Value F) : Prop where
  mirror : row.mirror.Sound maxAttempts
  train : row.train.Sound

structure LedgerTable.Sound (maxAttempts : Nat) (table : LedgerTable Value F) : Prop where
  each : ∀ row ∈ table.rows, row.Sound maxAttempts

namespace MirrorColumns.Sound
variable {maxAttempts : Nat} {columns : MirrorColumns}

theorem of_fresh (h : 0 < maxAttempts) : fresh.Sound maxAttempts where
  untried := by simp [fresh]
  closed := by simp [fresh]
  waiting := by simp [fresh]
  blamed := by simp [fresh]
  below _ := h
  exhausted := by simp [fresh]

theorem success (now : Nat) (columns : MirrorColumns) : (columns.success .mirrored now).Sound maxAttempts where
  untried := by simp [MirrorColumns.success]
  closed := by simp [MirrorColumns.success]
  waiting := by simp [MirrorColumns.success]
  blamed := by simp [MirrorColumns.success]
  below := by simp [MirrorColumns.success]
  exhausted := by simp [MirrorColumns.success]

theorem retried (error : String) (backoff now : Nat) (columns : MirrorColumns) :
    (columns.retried error maxAttempts backoff now).Sound maxAttempts := by
  by_cases h : maxAttempts ≤ columns.attempts + 1
  · constructor <;> simp [MirrorColumns.retried, h]
  · constructor <;> simp [MirrorColumns.retried, h]
    omega

end MirrorColumns.Sound

namespace TrainColumns.Sound
variable {columns : TrainColumns}

theorem of_fresh : fresh.Sound := by
  constructor <;> simp [fresh]

theorem success (snapshot : String) {status : TrainStatus} (h : status.completes = true) (now : Nat)
    (columns : TrainColumns) : (columns.success snapshot status now).Sound := by
  cases status with
  | retry => cases h
  | failed => cases h
  | _ => constructor <;> simp [TrainColumns.success, closing]

theorem retried (error : String) (maxAttempts backoff now : Nat) (columns : TrainColumns) :
    (columns.retried error maxAttempts backoff now).Sound := by
  by_cases h : maxAttempts ≤ columns.attempts + 1 <;> constructor <;> simp [TrainColumns.retried, h, closing]

theorem registrationRecovered (now : Nat) (columns : TrainColumns) : (columns.registrationRecovered now).Sound := by
  constructor <;> simp [TrainColumns.registrationRecovered, closing]

theorem infrastructureRecovered (now : Nat) (columns : TrainColumns) :
    (columns.infrastructureRecovered now).Sound := by
  constructor <;> simp [TrainColumns.infrastructureRecovered, closing]

end TrainColumns.Sound

namespace LedgerTable
variable {config : LedgerConfig}

/-- A statement of a worker: it updates rows and leaves their ids and records. -/
theorem step_worker (config : LedgerConfig) (table : LedgerTable Value F) {statement : Statement Value F}
    (hs : ∀ record, statement ≠ .persist record) :
    ∃ chosen change, table.step config statement = table.update chosen change ∧
      (∀ row, (change row).id = row.id ∧ (change row).record = row.record) ∧
      (∀ row, row.Sound config.mirrorMaxAttempts → (change row).Sound config.mirrorMaxAttempts) ∧
      (statement.marksMirror = false → ∀ row, (change row).mirror = row.mirror) ∧
      (statement.marksTraining = false → ∀ row, (change row).train = row.train) := by
  cases statement with
  | persist record => exact absurd rfl (hs record)
  | mirrorSuccess id now =>
    exact ⟨_, _, rfl, fun _ => ⟨rfl, rfl⟩, fun row h => ⟨.success now row.mirror, h.train⟩,
      fun h => (nomatch h), fun _ _ => rfl⟩
  | mirrorRetry id error now =>
    exact ⟨_, _, rfl, fun _ => ⟨rfl, rfl⟩, fun row h => ⟨.retried error _ now row.mirror, h.train⟩,
      fun h => (nomatch h), fun _ _ => rfl⟩
  | validation id status error interval now =>
    exact ⟨_, _, rfl, fun _ => ⟨rfl, rfl⟩, fun row h => ⟨h.mirror, h.train⟩,
      fun _ _ => rfl, fun _ _ => rfl⟩
  | scheduleValidation now =>
    exact ⟨_, _, rfl, fun _ => ⟨rfl, rfl⟩, fun row h => ⟨h.mirror, h.train⟩,
      fun _ _ => rfl, fun _ _ => rfl⟩
  | trainingSuccess ids snapshot status completes now =>
    exact ⟨_, _, rfl, fun _ => ⟨rfl, rfl⟩, fun row h => ⟨h.mirror, .success snapshot completes now row.train⟩,
      fun _ _ => rfl, fun h => (nomatch h)⟩
  | trainingRetry id error maxAttempts now =>
    exact ⟨_, _, rfl, fun _ => ⟨rfl, rfl⟩, fun row h => ⟨h.mirror, .retried error maxAttempts _ now row.train⟩,
      fun _ _ => rfl, fun h => (nomatch h)⟩
  | recoverRegistrations batchSize now =>
    exact ⟨_, _, rfl, fun _ => ⟨rfl, rfl⟩, fun row h => ⟨h.mirror, .registrationRecovered now row.train⟩,
      fun _ _ => rfl, fun h => (nomatch h)⟩
  | requeueInfrastructure ids now =>
    exact ⟨_, _, rfl, fun _ => ⟨rfl, rfl⟩, fun row h => ⟨h.mirror, .infrastructureRecovered now row.train⟩,
      fun _ _ => rfl, fun h => (nomatch h)⟩

/-- No two rows share an id or a request, and the sequence is past every id. -/
structure Keyed (table : LedgerTable Value F) : Prop where
  ids : (table.rows.map LedgerInteraction.id).Nodup
  requests : (table.rows.map LedgerInteraction.requestId).Nodup
  sequence : ∀ row ∈ table.rows, row.id ≤ table.sequence

/-- The record that a request has in the table. -/
def recordOf (requestId : String) (table : LedgerTable Value F) : Option (LlmLedgerRecord Value F) :=
  (rowOf LedgerInteraction.requestId requestId table.rows).map LedgerInteraction.record

def idOf (requestId : String) (table : LedgerTable Value F) : Option Nat :=
  (rowOf LedgerInteraction.requestId requestId table.rows).map LedgerInteraction.id

section Update
variable {table : LedgerTable Value F} {chosen : LedgerInteraction Value F → Bool}
  {change : LedgerInteraction Value F → LedgerInteraction Value F}
  (hk : ∀ row, (change row).id = row.id ∧ (change row).record = row.record)
include hk

theorem requestId_change (row : LedgerInteraction Value F) : (change row).requestId = row.requestId :=
  congrArg LlmLedgerRecord.requestId (hk row).2

theorem Keyed.update (h : table.Keyed) : (table.update chosen change).Keyed where
  ids := by
    rw [LedgerTable.update, map_updateWhere fun row _ => (hk row).1]
    exact h.ids
  requests := by
    rw [LedgerTable.update, map_updateWhere fun row _ => requestId_change hk row]
    exact h.requests
  sequence := forall_updateWhere h.sequence fun row _ hle _ => (hk row).1.symm ▸ hle

theorem recordOf_update (requestId : String) :
    (table.update chosen change).recordOf requestId = table.recordOf requestId := by
  rw [recordOf, LedgerTable.update, rowOf_updateWhere fun row _ => requestId_change hk row, Option.map_map, recordOf]
  congr 1
  funext row
  rw [Function.comp_apply]
  split
  · exact (hk row).2
  · rfl

theorem idOf_update (requestId : String) : (table.update chosen change).idOf requestId = table.idOf requestId := by
  rw [idOf, LedgerTable.update, rowOf_updateWhere fun row _ => requestId_change hk row, Option.map_map, idOf]
  congr 1
  funext row
  rw [Function.comp_apply]
  split
  · exact (hk row).1
  · rfl

end Update

section Persist
variable {table : LedgerTable Value F} (record : LlmLedgerRecord Value F)

/-- A record makes a new row, or takes the place of the record of its request. -/
theorem persist_cases (table : LedgerTable Value F) :
    ((∀ row ∈ table.rows, row.requestId ≠ record.requestId) ∧ table.persistPostgresRecord record =
        ⟨table.rows ++ [.inserted (table.sequence + 1) record.stored], table.sequence + 1⟩) ∨
      ((∃ row ∈ table.rows, row.requestId = record.requestId) ∧ table.persistPostgresRecord record =
        ⟨updateWhere (·.requestId = record.requestId) (fun row => { row with record := record.stored }) table.rows,
          table.sequence + 1⟩) := by
  unfold persistPostgresRecord
  cases hr : rowOf LedgerInteraction.requestId record.requestId table.rows with
  | none => exact .inl ⟨rowOf_eq_none.mp hr, rfl⟩
  | some row => exact .inr ⟨⟨row, rowOf_some hr⟩, rfl⟩

/-- A row whose record is replaced keeps its request. -/
private theorem requestId_replaced (row : LedgerInteraction Value F)
    (h : decide (row.requestId = record.requestId) = true) :
    ({ row with record := record.stored } : LedgerInteraction Value F).requestId = row.requestId :=
  (of_decide_eq_true h).symm

theorem Keyed.persist (h : table.Keyed) : (table.persistPostgresRecord record).Keyed := by
  rcases persist_cases record table with ⟨hnew, he⟩ | ⟨_, he⟩ <;> rw [he]
  · refine ⟨nodup_keys_append h.ids fun other ho => ?_, nodup_keys_append h.requests hnew, fun row hrow => ?_⟩
    · exact Nat.ne_of_lt (Nat.lt_succ_of_le (h.sequence other ho))
    · rcases List.mem_append.mp hrow with hrow | hrow
      · exact Nat.le_succ_of_le (h.sequence row hrow)
      · rw [List.mem_singleton.mp hrow]
        exact le_rfl
  · refine ⟨?_, ?_, ?_⟩
    · rw [map_updateWhere]
      · exact h.ids
      · exact fun _ _ => rfl
    · rw [map_updateWhere (requestId_replaced record)]
      exact h.requests
    · exact forall_updateWhere (fun row hrow => Nat.le_succ_of_le (h.sequence row hrow)) fun _ _ hle _ => hle

theorem requestId_inserted (id : Nat) :
    (LedgerInteraction.inserted id record.stored).requestId = record.requestId := rfl

/-- The row of a request after a record was written: its record is the new one if it is for that request. -/
theorem rowOf_persist (requestId : String) :
    rowOf LedgerInteraction.requestId requestId (table.persistPostgresRecord record).rows =
      if record.requestId = requestId then
        some (match rowOf LedgerInteraction.requestId requestId table.rows with
          | none => .inserted (table.sequence + 1) record.stored
          | some row => { row with record := record.stored })
      else rowOf LedgerInteraction.requestId requestId table.rows := by
  rcases persist_cases record table with ⟨hnew, he⟩ | ⟨⟨old, hold, hreq⟩, he⟩ <;> rw [he]
  · rw [rowOf_append, rowOf_singleton, requestId_inserted]
    by_cases hr : record.requestId = requestId
    · rw [if_pos hr, if_pos hr, rowOf_eq_none.mpr (hr ▸ hnew), Option.none_or]
    · rw [if_neg hr, if_neg hr, Option.or_none]
  · rw [rowOf_updateWhere (requestId_replaced record)]
    by_cases hr : record.requestId = requestId
    · subst hr
      rw [if_pos rfl]
      cases hf : rowOf LedgerInteraction.requestId record.requestId table.rows with
      | none => exact absurd hreq (rowOf_eq_none.mp hf old hold)
      | some row => rw [Option.map_some, if_pos (decide_eq_true (rowOf_some hf).2)]
    · rw [if_neg hr]
      cases hf : rowOf LedgerInteraction.requestId requestId table.rows with
      | none => rfl
      | some row => rw [Option.map_some, if_neg (by simpa [(rowOf_some hf).2] using Ne.symm hr)]

theorem recordOf_persist (requestId : String) :
    (table.persistPostgresRecord record).recordOf requestId =
      if record.requestId = requestId then some record.stored else table.recordOf requestId := by
  rw [recordOf, rowOf_persist]
  split
  · cases rowOf LedgerInteraction.requestId requestId table.rows <;> rfl
  · rfl

/-- A request that has an id keeps it. -/
theorem idOf_persist {requestId : String} {id : Nat} (h : table.idOf requestId = some id) :
    (table.persistPostgresRecord record).idOf requestId = some id := by
  rw [idOf] at h
  rw [idOf, rowOf_persist]
  split
  · cases hr : rowOf LedgerInteraction.requestId requestId table.rows with
    | none => rw [hr] at h; cases h
    | some row => rw [hr] at h; exact h
  · exact h

theorem Sound.persist {maxAttempts : Nat} (hpos : 0 < maxAttempts) (h : table.Sound maxAttempts) :
    (table.persistPostgresRecord record).Sound maxAttempts := by
  rcases persist_cases record table with ⟨_, he⟩ | ⟨_, he⟩ <;> rw [he] <;> constructor
  · intro row hrow
    rcases List.mem_append.mp hrow with hrow | hrow
    · exact h.each row hrow
    · rw [List.mem_singleton.mp hrow]
      exact ⟨.of_fresh hpos, .of_fresh⟩
  · exact forall_updateWhere h.each fun row _ hs _ => ⟨hs.mirror, hs.train⟩

end Persist

theorem keyed_empty : (empty : LedgerTable Value F).Keyed := ⟨List.nodup_nil, List.nodup_nil, by simp [empty]⟩

theorem sound_empty {maxAttempts : Nat} : (empty : LedgerTable Value F).Sound maxAttempts :=
  ⟨fun _ hrow => nomatch hrow⟩

section Runs
variable (config : LedgerConfig)

theorem Keyed.step {table : LedgerTable Value F} (h : table.Keyed) (statement : Statement Value F) :
    (table.step config statement).Keyed := by
  by_cases hs : ∃ record, statement = .persist record
  · obtain ⟨record, rfl⟩ := hs
    exact h.persist record
  · obtain ⟨chosen, change, he, hk, _⟩ := step_worker config table (not_exists.mp hs)
    rw [he]
    exact h.update hk

/-- Every statement keeps the rows sound. -/
theorem Sound.step {table : LedgerTable Value F} (h : table.Sound config.mirrorMaxAttempts)
    (statement : Statement Value F) : (table.step config statement).Sound config.mirrorMaxAttempts := by
  by_cases hs : ∃ record, statement = .persist record
  · obtain ⟨record, rfl⟩ := hs
    exact h.persist record config.mirrorMaxAttempts_pos
  · obtain ⟨chosen, change, he, _, hk, _⟩ := step_worker config table (not_exists.mp hs)
    rw [he]
    exact ⟨forall_updateWhere h.each fun row _ hsound _ => hk row hsound⟩

/-- The ids stay in the table. -/
theorem mem_ids_step {table : LedgerTable Value F} {statement : Statement Value F} {id : Nat}
    (h : id ∈ table.rows.map LedgerInteraction.id) :
    id ∈ (table.step config statement).rows.map LedgerInteraction.id := by
  by_cases hs : ∃ record, statement = .persist record
  · obtain ⟨record, rfl⟩ := hs
    rcases persist_cases record table with ⟨_, he⟩ | ⟨_, he⟩ <;> rw [LedgerTable.step, he]
    · rw [List.map_append]
      exact List.mem_append_left _ h
    · rw [map_updateWhere]
      · exact h
      · exact fun _ _ => rfl
  · obtain ⟨chosen, change, he, hk, _⟩ := step_worker config table (not_exists.mp hs)
    rw [he, LedgerTable.update, map_updateWhere fun row _ => (hk row).1]
    exact h

/-- The record that was written last for a request. -/
def lastRecorded (requestId : String) (statements : List (Statement Value F)) : Option (LlmLedgerRecord Value F) :=
  statements.foldl (fun last statement => match statement with
    | .persist record => if record.requestId = requestId then some record.stored else last
    | _ => last) none

theorem recordOf_step (table : LedgerTable Value F) (statement : Statement Value F) (requestId : String) :
    (table.step config statement).recordOf requestId =
      match statement with
      | .persist record => if record.requestId = requestId then some record.stored else table.recordOf requestId
      | _ => table.recordOf requestId := by
  by_cases hs : ∃ record, statement = .persist record
  · obtain ⟨record, rfl⟩ := hs
    exact recordOf_persist record requestId
  · obtain ⟨chosen, change, he, hk, _⟩ := step_worker config table (not_exists.mp hs)
    rw [he, recordOf_update hk]
    cases statement with
    | persist record => exact absurd ⟨record, rfl⟩ hs
    | _ => rfl

theorem idOf_step {table : LedgerTable Value F} {requestId : String} {id : Nat} (h : table.idOf requestId = some id)
    (statement : Statement Value F) : (table.step config statement).idOf requestId = some id := by
  by_cases hs : ∃ record, statement = .persist record
  · obtain ⟨record, rfl⟩ := hs
    exact idOf_persist record h
  · obtain ⟨chosen, change, he, hk, _⟩ := step_worker config table (not_exists.mp hs)
    rw [he, idOf_update hk, h]

theorem recordOf_run (table : LedgerTable Value F) (statements : List (Statement Value F)) (requestId : String) :
    (run (step config) table statements).recordOf requestId =
      statements.foldl (fun last statement => match statement with
        | .persist record => if record.requestId = requestId then some record.stored else last
        | _ => last) (table.recordOf requestId) := by
  induction statements generalizing table with
  | nil => rfl
  | cons statement statements ih =>
    rw [run_cons, ih, recordOf_step, List.foldl_cons]

/-- In every order of statements the table has one row for each request that was recorded and none for others. The
row holds what was recorded last and keeps its id, whatever the workers do. -/
theorem run_one_row_per_request (before after : List (Statement Value F)) (requestId : String) :
    (run (step config) empty (before ++ after)).Keyed ∧
      (run (step config) empty (before ++ after)).recordOf requestId = lastRecorded requestId (before ++ after) ∧
      ∀ id, (run (step config) empty before).idOf requestId = some id →
        (run (step config) empty (before ++ after)).idOf requestId = some id := by
  refine ⟨?_, recordOf_run config empty _ requestId, fun id h => ?_⟩
  · exact run_keeps (step config) (I := Keyed) (fun _ statement h => h.step config statement) _ keyed_empty
  · rw [run_append]
    exact run_keeps (step config) (I := fun table => table.idOf requestId = some id)
      (fun _ statement h => idOf_step config h statement) after h

end Runs

end LedgerTable

end Gail.Ledger
