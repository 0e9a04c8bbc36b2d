import Gail.Library.KeyedTable
import Gail.Library.StableSort
import Gail.Library.Text
import Mathlib.Data.Prod.Lex

/-! The table of interactions in Postgres that the gateway writes and the mirror and trainer workers read and
mark: its columns and the statements on it. Times are microseconds, and each statement has its own. -/
namespace Gail.Ledger
open Gail.Library

structure LlmLedgerRecord (Value F : Type) where
  requestId : String
  conversationId : String
  workflow : String
  role : String
  providerRequested : Option String
  modelRequested : Option String
  providerResolved : Option String
  modelResolved : Option String
  requestCategory : Option String
  systemPrompt : Option String
  promptText : String
  responseText : Option String
  messageRoles : List String
  status : String
  errorText : Option String
  latencyMs : Option Nat
  usage : Option Value
  raw : Option Value
  metadata : Option Value
  createdTs : F

inductive MirrorStatus
  | mirrored
  | retry
  | failed
  deriving DecidableEq, Repr

inductive TrainStatus
  | trained
  | snapshotted
  | retry
  | failed
  /-- Left behind by an older worker. -/
  | trainedRegistrationPending
  deriving DecidableEq, Repr

inductive ValidationStatus
  | disabled
  | skippedNoContent
  | skippedNoTarget
  | sampled
  | snapshotChanged
  deriving DecidableEq, Repr

/-- The columns of a row that concern its mirroring. -/
structure MirrorColumns where
  attempts : Nat
  status : Option MirrorStatus
  error : Option String
  nextMirrorAt : Option Nat
  mirroredAt : Option Nat
  deriving DecidableEq, Repr

structure TrainColumns where
  attempts : Nat
  status : Option TrainStatus
  error : Option String
  nextTrainAt : Option Nat
  trainedAt : Option Nat
  trainingSnapshot : Option String
  deriving DecidableEq, Repr

structure ValidationColumns where
  attempts : Nat
  status : Option ValidationStatus
  error : Option String
  nextValidationAt : Option Nat
  validatedAt : Option Nat
  deriving DecidableEq, Repr

structure LedgerInteraction (Value F : Type) where
  id : Nat
  record : LlmLedgerRecord Value F
  mirror : MirrorColumns
  train : TrainColumns
  validation : ValidationColumns

/-- The rows, and the last value of the sequence that their ids come from. -/
structure LedgerTable (Value F : Type) where
  rows : List (LedgerInteraction Value F)
  sequence : Nat

/-- `make_interval`. -/
def seconds (n : Nat) : Nat := n * 1000000

/-- `truncate_chars`. -/
def truncateChars (value : String) (limit : Nat) : String := String.ofList (value.toList.take (max limit 1))

/-- A moment that is not set counts as one that has come. -/
def due (moment : Option Nat) (now : Nat) : Bool := moment.all (· ≤ now)

namespace MirrorColumns

def fresh : MirrorColumns := ⟨0, none, none, none, none⟩

def success (status : MirrorStatus) (now : Nat) (columns : MirrorColumns) : MirrorColumns :=
  { attempts := columns.attempts + 1, status := some status, error := none, nextMirrorAt := none,
    mirroredAt := some now }

def retried (error : String) (maxAttempts retryBackoffSeconds now : Nat) (columns : MirrorColumns) : MirrorColumns :=
  let exhausted := maxAttempts ≤ columns.attempts + 1
  { attempts := columns.attempts + 1
    status := some (if exhausted then .failed else .retry)
    error := some (truncateChars error 4000)
    nextMirrorAt := if exhausted then none else some (now + seconds retryBackoffSeconds)
    mirroredAt := if exhausted then some now else none }

end MirrorColumns

namespace TrainColumns

def fresh : TrainColumns := ⟨0, none, none, none, none, none⟩

/-- The statuses that `mark_training_success` closes a row with. -/
def closing (status : TrainStatus) : Bool := status == .trained || status == .snapshotted

def success (snapshot : String) (status : TrainStatus) (now : Nat) (columns : TrainColumns) : TrainColumns :=
  { attempts := columns.attempts + 1
    status := some status
    error := none
    nextTrainAt := if closing status then none else some now
    trainedAt := if closing status then some now else none
    trainingSnapshot := some snapshot }

def retried (error : String) (maxAttempts retryBackoffSeconds now : Nat) (columns : TrainColumns) : TrainColumns :=
  let exhausted := maxAttempts ≤ columns.attempts + 1
  { attempts := columns.attempts + 1
    status := some (if exhausted then .failed else .retry)
    error := some (truncateChars error 4000)
    nextTrainAt := if exhausted then none else some (now + seconds retryBackoffSeconds)
    trainedAt := none
    trainingSnapshot := columns.trainingSnapshot }

/-- The rows that `recover_incomplete_training_registrations` repairs. -/
def registrationIncomplete (columns : TrainColumns) : Bool :=
  columns.status == some .trainedRegistrationPending || (columns.status == some .retry && columns.trainedAt.isSome)

def registrationRecovered (now : Nat) (columns : TrainColumns) : TrainColumns :=
  { columns with
    status := some .retry
    error := some (columns.error.getD "serving model registration was not completed")
    nextTrainAt := some now
    trainedAt := none }

def infrastructureRecovered (now : Nat) (columns : TrainColumns) : TrainColumns :=
  { columns with
    attempts := 0, status := some .retry, error := none, nextTrainAt := some now, trainedAt := none
    trainingSnapshot := none }

end TrainColumns

namespace ValidationColumns

def fresh : ValidationColumns := ⟨0, none, none, none, none⟩

def marked (status : ValidationStatus) (error : Option String) (intervalSeconds now : Nat)
    (columns : ValidationColumns) : ValidationColumns :=
  { attempts := columns.attempts + 1
    status := some status
    error := error.map (truncateChars · 4000)
    nextValidationAt := some (now + seconds (min intervalSeconds 2147483647))
    validatedAt := some now }

/-- `schedule_validation_now`. -/
def scheduled (now : Nat) (columns : ValidationColumns) : ValidationColumns :=
  { columns with nextValidationAt := some now, status := some .snapshotChanged }

end ValidationColumns

/-- `is_recoverable_training_infrastructure_error`. -/
def isRecoverableTrainingInfrastructureError (error : String) : Bool :=
  let error := toAsciiLowercase error
  if containsText error "unsupported architecture" || containsText error "cannot be registered as safetensors" then
    false
  else if containsText error "ollama api /api/create failed" then true
  else
    (containsText error "not found" || containsText error "no such file" || containsText error "command not found") &&
      (containsText error "gail-qlora-sft" || containsText error "failed to spawn trainer command")

/-- The patterns with which `recover_training_infrastructure_failures` selects failed rows. -/
def matchesInfrastructure (error : String) : Bool :=
  ["%gail-qlora-sft%", "%failed to spawn trainer command%", "%Ollama API /api/create failed%",
    "%Slurm training exited with status%", "%Ollama adapter conversion exited%",
    "%unable to inspect Safetensors adapter%"].any fun pattern =>
      containsText (toAsciiLowercase error) (toAsciiLowercase (String.ofList (pattern.toList.tail.dropLast)))

variable {Value F : Type}

/-- The record as the columns of its row hold it. -/
def LlmLedgerRecord.stored (record : LlmLedgerRecord Value F) : LlmLedgerRecord Value F :=
  { record with latencyMs := record.latencyMs.map (min · 9223372036854775807) }

namespace LedgerInteraction

def requestId (row : LedgerInteraction Value F) : String := row.record.requestId

/-- `COALESCE(response_text, '') <> ''`. -/
def hasResponse (row : LedgerInteraction Value F) : Bool := row.record.responseText.getD "" ≠ ""

/-- The condition of `fetch_pending_mirror`. -/
def pendingMirror (now : Nat) (row : LedgerInteraction Value F) : Bool :=
  (row.mirror.mirroredAt.isNone && due row.mirror.nextMirrorAt now) ||
    (row.hasResponse && due row.validation.nextValidationAt now)

/-- The condition of `fetch_pending_training`. -/
def pendingTraining (includeDegraded : Bool) (now : Nat) (row : LedgerInteraction Value F) : Bool :=
  row.train.trainedAt.isNone && row.train.status != some .failed && due row.train.nextTrainAt now && row.hasResponse &&
    (row.record.status = "ok" || (includeDegraded && row.record.status = "degraded"))

/-- Retries come before rows that were never tried, and each of them in the order of their ids. -/
def trainingOrder (row : LedgerInteraction Value F) : Nat ×ₗ Nat :=
  toLex (if row.train.status = some .retry then 0 else 1, row.id)

/-- A row as `INSERT` makes it. -/
def inserted (id : Nat) (record : LlmLedgerRecord Value F) : LedgerInteraction Value F :=
  ⟨id, record, .fresh, .fresh, .fresh⟩

end LedgerInteraction

namespace LedgerTable

def empty : LedgerTable Value F := ⟨[], 0⟩

def update (chosen : LedgerInteraction Value F → Bool) (change : LedgerInteraction Value F → LedgerInteraction Value F)
    (table : LedgerTable Value F) : LedgerTable Value F :=
  { table with rows := updateWhere chosen change table.rows }

/-- The conflict of a second row with the same request id replaces the record of the first. Either way the
sequence moves on. -/
def persistPostgresRecord (record : LlmLedgerRecord Value F) (table : LedgerTable Value F) : LedgerTable Value F :=
  let id := table.sequence + 1
  match rowOf LedgerInteraction.requestId record.requestId table.rows with
  | none => ⟨table.rows ++ [.inserted id record.stored], id⟩
  | some _ =>
    ⟨updateWhere (·.requestId = record.requestId) (fun row => { row with record := record.stored }) table.rows, id⟩

def fetchPendingMirror (batchSize now : Nat) (table : LedgerTable Value F) : List (LedgerInteraction Value F) :=
  (sortByKey LedgerInteraction.id (table.rows.filter (·.pendingMirror now))).take batchSize

def markMirrorSuccess (id : Nat) (status : MirrorStatus) (now : Nat) : LedgerTable Value F → LedgerTable Value F :=
  update (·.id = id) fun row => { row with mirror := row.mirror.success status now }

def markMirrorRetry (id : Nat) (error : String) (maxAttempts retryBackoffSeconds now : Nat) :
    LedgerTable Value F → LedgerTable Value F :=
  update (·.id = id) fun row => { row with mirror := row.mirror.retried error maxAttempts retryBackoffSeconds now }

def markValidation (id : Nat) (status : ValidationStatus) (error : Option String) (intervalSeconds now : Nat) :
    LedgerTable Value F → LedgerTable Value F :=
  update (·.id = id) fun row => { row with validation := row.validation.marked status error intervalSeconds now }

def scheduleValidationNow (now : Nat) : LedgerTable Value F → LedgerTable Value F :=
  update (·.hasResponse) fun row => { row with validation := row.validation.scheduled now }

def fetchPendingTraining (batchSize : Nat) (includeDegraded : Bool) (now : Nat) (table : LedgerTable Value F) :
    List (LedgerInteraction Value F) :=
  (sortByKey LedgerInteraction.trainingOrder (table.rows.filter (·.pendingTraining includeDegraded now))).take batchSize

def markTrainingSuccess (ids : List Nat) (snapshot : String) (status : TrainStatus) (now : Nat) :
    LedgerTable Value F → LedgerTable Value F :=
  update (·.id ∈ ids) fun row => { row with train := row.train.success snapshot status now }

def markTrainingRetry (id : Nat) (error : String) (maxAttempts retryBackoffSeconds now : Nat) :
    LedgerTable Value F → LedgerTable Value F :=
  update (·.id = id) fun row => { row with train := row.train.retried error maxAttempts retryBackoffSeconds now }

def recoverIncompleteTrainingRegistrations (batchSize now : Nat) (table : LedgerTable Value F) : LedgerTable Value F :=
  let recoverable := (sortByKey LedgerInteraction.id (table.rows.filter (·.train.registrationIncomplete))).take
    (max 1 (min batchSize 100000))
  table.update (fun row => row.id ∈ recoverable.map LedgerInteraction.id)
    fun row => { row with train := row.train.registrationRecovered now }

/-- The selection of `recover_training_infrastructure_failures`, its first statement. -/
def infrastructureFailures (batchSize : Nat) (table : LedgerTable Value F) : List Nat :=
  let rows := (sortByKey LedgerInteraction.id (table.rows.filter fun row =>
    row.train.status = some .failed ∧ row.train.error.any matchesInfrastructure)).take (max 1 (min batchSize 100000))
  (rows.filter fun row => row.train.error.any isRecoverableTrainingInfrastructureError).map LedgerInteraction.id

/-- The second statement of `recover_training_infrastructure_failures`. -/
def requeueInfrastructureFailures (ids : List Nat) (now : Nat) : LedgerTable Value F → LedgerTable Value F :=
  update (fun row => row.id ∈ ids ∧ row.train.status = some .failed)
    fun row => { row with train := row.train.infrastructureRecovered now }

end LedgerTable

end Gail.Ledger
