import Gail.Elm.RegistryDisk

/-! The registry operations. A call runs under the writer lock of the directory and the write lock
of its process, so it takes the shared disk and its own state and returns both. -/
namespace Gail.Elm
variable {Bytes : Type}

/-- What a call answers and leaves behind. -/
structure Reply (Bytes α : Type) where
  result : Except ElmError α
  state : RegistryState
  disk : Disk Bytes

/-- What a call does under the lock once its checks have passed: answer without writing, or
persist the index of `next` and then adopt it. -/
inductive Outcome (α : Type) where
  | keep (result : α)
  | write (next : RegistryState) (result : α)

section Operations
variable (serde : Serde Bytes) (maxBytes : Nat)

/-- Adopt an index that was read, unless it is not newer than the copy in memory. -/
def adoptFresh (disk : Disk Bytes) (state : RegistryState) (fresh : RegistryFile) :
    Except ElmError (Bool × RegistryState) :=
  if fresh.revision ≤ state.file.revision then .ok (false, state)
  else
    match loadChampions serde disk fresh maxBytes with
    | .error error => .error error
    | .ok champions => .ok (true, { file := fresh, champions })

def refreshLocked (disk : Disk Bytes) (state : RegistryState) :
    Except ElmError (Bool × RegistryState) :=
  match readRegistryFile serde disk maxBytes with
  | .error error => .error error
  | .ok fresh => adoptFresh serde maxBytes disk state fresh

/-- Persist the next index and, only when that succeeds, adopt the next state. -/
def commit {α : Type} (disk : Disk Bytes) (state : RegistryState) (fault : Option IoFault) :
    Outcome α → Reply Bytes α
  | .keep result => ⟨.ok result, state, disk⟩
  | .write next result =>
    match persistRegistry serde disk next.file maxBytes fault with
    | (.error error, disk) => ⟨.error error, state, disk⟩
    | (.ok (), disk) => ⟨.ok result, next, disk⟩

/-- The frame shared by the writers: refresh under the lock, decide, commit. -/
def underWriterLock {α : Type} (disk : Disk Bytes) (state : RegistryState)
    (fault : Option IoFault) (decision : RegistryState → Except ElmError (Outcome α)) :
    Reply Bytes α :=
  match refreshLocked serde maxBytes disk state with
  | .error error => ⟨.error error, state, disk⟩
  | .ok (_, state) =>
    match decision state with
    | .error error => ⟨.error error, state, disk⟩
    | .ok outcome => commit serde maxBytes disk state fault outcome

def canaryExhausted : String :=
  "canary decision budget exhausted; automatically returned to shadow"

def claimedFile (file : RegistryFile) (index : Nat) (modelId : String) (maximum : UInt64)
    (now : Nat) : RegistryFile :=
  let count := saturatingSucc (file.canaryCount modelId)
  let revision := saturatingSucc file.revision
  { file with
    revision
    canaryDecisions := file.canaryDecisions.insert modelId count
    records :=
      if maximum.toNat ≤ count then
        file.records.modify index (fun record => record.moveTo .shadow canaryExhausted now revision)
      else file.records }

def claimDecision (modelId : String) (maximum : UInt64) (now : Nat) (state : RegistryState) :
    Except ElmError (Outcome Bool) :=
  match state.file.position modelId with
  | none => .error (.artifact "canary model not found")
  | some (index, record) =>
    if record.stage ≠ .canary ∨ record.fixtureOnly then .ok (.keep false)
    else if maximum.toNat ≤ state.file.canaryCount modelId then .ok (.keep false)
    else
      .ok (.write { state with file := claimedFile state.file index modelId maximum now } true)

/-- The count is persisted before the caller may infer, and the last permitted claim returns the
model to shadow in the same write. -/
def claimCanaryDecision (disk : Disk Bytes) (state : RegistryState) (modelId : String)
    (maximum : UInt64) (now : Nat) (fault : Option IoFault) : Reply Bytes Bool :=
  if maximum = 0 then ⟨.ok false, state, disk⟩
  else underWriterLock serde maxBytes disk state fault (claimDecision modelId maximum now)

def publishedRecord (artifact : ElmArtifact) (revision now : Nat) : RegistryRecord :=
  { revision
    modelId := artifact.metadata.modelId
    taskId := artifact.metadata.taskId
    digest := artifact.contentSha256
    stage := .trained
    artifactFile := artifactPath artifact.metadata.modelId
    reason := some (if artifact.metadata.fixtureOnly then "fixture_only: cannot be qualified"
      else "evaluation report attached; promotion requires policy evidence")
    updatedAt := now
    fixtureOnly := artifact.metadata.fixtureOnly }

def publishedFile (file : RegistryFile) (artifact : ElmArtifact) (now : Nat) : RegistryFile :=
  let revision := saturatingSucc file.revision
  { file with revision, records := file.records ++ [publishedRecord artifact revision now] }

def publishOutcome (artifact : ElmArtifact) (now : Nat) (state : RegistryState) :
    Outcome RegistryRecord :=
  .write { state with file := publishedFile state.file artifact now }
    (publishedRecord artifact (saturatingSucc state.file.revision) now)

/-- The two files a publication replaces, each with its own possible failure. -/
structure PublishFaults where
  artifact : Option IoFault := none
  index : Option IoFault := none
  deriving DecidableEq

/-- The checks that come before the lock. -/
def checkArtifact (artifact : ElmArtifact) : Except ElmError Bytes :=
  match artifact.verify serde with
  | .error error => .error error
  | .ok () =>
    match serde.artifactToVec artifact with
    | .error error => .error (.artifact error)
    | .ok bytes =>
      if maxBytes < serde.len bytes then
        .error (.artifact "artifact exceeds configured size limit")
      else .ok bytes

/-- The artifact file is replaced before the index is. -/
def publishCandidate (disk : Disk Bytes) (state : RegistryState) (artifact : ElmArtifact)
    (expectedRevision now : Nat) (faults : PublishFaults) : Reply Bytes RegistryRecord :=
  match checkArtifact serde maxBytes artifact with
  | .error error => ⟨.error error, state, disk⟩
  | .ok bytes =>
    match refreshLocked serde maxBytes disk state with
    | .error error => ⟨.error error, state, disk⟩
    | .ok (_, state) =>
      if state.file.revision ≠ expectedRevision then ⟨.error .revisionConflict, state, disk⟩
      else
        match writeAtomic disk (artifactPath artifact.metadata.modelId) bytes faults.artifact with
        | (.error error, disk) => ⟨.error error, state, disk⟩
        | (.ok (), disk) =>
          commit serde maxBytes disk state faults.index (publishOutcome artifact now state)

/-- The stored artifact matches its record and could stand in for the outgoing champion. -/
def ElmArtifact.compatible (candidate : ElmArtifact) (record : RegistryRecord)
    (outgoing : ElmArtifact) : Bool :=
  candidate.contentSha256 == record.digest && candidate.featureSchema == outgoing.featureSchema
    && candidate.metadata.tenantScope == outgoing.metadata.tenantScope
    && candidate.metadata.domainScope == outgoing.metadata.domainScope

/-- The artifact of a record, when it can be loaded and is compatible. -/
def compatibleArtifact (disk : Disk Bytes) (outgoing : ElmArtifact) (record : RegistryRecord) :
    Option ElmArtifact :=
  match loadArtifact serde disk record.artifactFile maxBytes with
  | .error _ => none
  | .ok candidate => if candidate.compatible record outgoing then some candidate else none

/-- The search of both fallback paths: the newest of the candidates first, then its artifact. -/
def fallback (disk : Disk Bytes) (outgoing : ElmArtifact) (candidates : List RegistryRecord) :
    Option (String × ElmArtifact) :=
  (maxByKey RegistryRecord.revision candidates).bind fun record =>
    (compatibleArtifact serde maxBytes disk outgoing record).map fun artifact =>
      (record.modelId, artifact)

/-- Install the fallback as champion of a task, or leave the task without one. -/
def installFallback (file : RegistryFile) (champions : Champions) (task : String) :
    Option (String × ElmArtifact) → RegistryState
  | some (modelId, artifact) =>
    { file := { file with championByTask := file.championByTask.insert task modelId }
      champions := champions.insert task artifact }
  | none =>
    { file := { file with championByTask := file.championByTask.erase task }
      champions := champions.erase task }

def replacedReason : String := "replaced by a newer compatible lifecycle snapshot"

/-- The first record of the previous champion goes back to shadow when it is ahead of it. -/
def demotePrevious (file : RegistryFile) (previous : Option String) (modelId : String)
    (now revision : Nat) : List RegistryRecord :=
  match previous with
  | none => file.records
  | some previousId =>
    if previousId = modelId then file.records
    else
      match file.position previousId with
      | none => file.records
      | some (index, record) =>
        match record.stage with
        | .qualified | .canary | .active =>
          file.records.modify index (fun record =>
            record.moveTo .shadow replacedReason now revision)
        | _ => file.records

/-- The index after the stage change, before the champion of the task is chosen. -/
def promotedFile (file : RegistryFile) (index : Nat) (modelId : String) (target : LifecycleStage)
    (serving : Bool) (task reason : String) (now : Nat) : RegistryFile :=
  let revision := saturatingSucc file.revision
  let records :=
    if serving then demotePrevious file file.championByTask[task]? modelId now revision
    else file.records
  { file with
    revision
    records := records.modify index (fun record => record.moveTo target reason now revision)
    championByTask :=
      if serving then file.championByTask.insert task modelId else file.championByTask }

/-- The state after a promotion: the model serves, or it gives up its task to the fallback, or the
champion of its task is another model. -/
def promotedState (disk : Disk Bytes) (state : RegistryState) (file : RegistryFile)
    (modelId : String) (artifact : ElmArtifact) (serving : Bool) : RegistryState :=
  let task := artifact.metadata.taskId
  if serving then { file, champions := state.champions.insert task artifact }
  else if state.file.championByTask[task]? = some modelId then
    installFallback file state.champions task
      (fallback serde maxBytes disk artifact
        (file.records.filter (fun candidate => candidate.servesTask task)))
  else { file, champions := state.champions }

def promoteDecision (disk : Disk Bytes) (modelId : String) (target : LifecycleStage)
    (expectedRevision : Nat) (reason : String) (now : Nat) (state : RegistryState) :
    Except ElmError (Outcome RegistryRecord) :=
  if state.file.revision ≠ expectedRevision then .error .revisionConflict
  else
    match state.file.position modelId with
    | none => .error (.artifact "model not found")
    | some (index, record) =>
      if ¬ allowedTransition record.stage target then
        let previous := record.stage.debug
        let wanted := target.debug
        .error (.artifact s!"invalid lifecycle transition: {previous} -> {wanted}")
      else if record.fixtureOnly ∧ target.isServing then
        .error (.artifact "fixture-only models cannot enter a serving stage")
      else
        match loadArtifact serde disk record.artifactFile maxBytes with
        | .error error => .error error
        | .ok artifact =>
          if ¬ artifact.isOf record modelId record.taskId then .error recordMismatch
          else
            let serving := target.isServing && !artifact.metadata.fixtureOnly
            let file := promotedFile state.file index modelId target serving
              artifact.metadata.taskId reason now
            .ok (.write (promotedState serde maxBytes disk state file modelId artifact serving)
              (file.records.getD index record))

def promote (disk : Disk Bytes) (state : RegistryState) (modelId : String)
    (target : LifecycleStage) (expectedRevision : Nat) (reason : String) (now : Nat)
    (fault : Option IoFault) : Reply Bytes RegistryRecord :=
  underWriterLock serde maxBytes disk state fault
    (promoteDecision serde maxBytes disk modelId target expectedRevision reason now)

def markEvaluated (disk : Disk Bytes) (state : RegistryState) (modelId : String)
    (expectedRevision : Nat) (reason : String) (now : Nat) (fault : Option IoFault) :
    Reply Bytes RegistryRecord :=
  promote serde maxBytes disk state modelId .evaluated expectedRevision reason now fault

/-- The index once the champion of a task has been moved to `rolledBack`. -/
def rolledBackFile (file : RegistryFile) (index : Nat) (reason : String) (now : Nat) :
    RegistryFile :=
  let revision := saturatingSucc file.revision
  { file with
    revision
    records := file.records.modify index (fun record =>
      record.moveTo .rolledBack reason now revision) }

/-- The records from which a rollback may choose. -/
def rollbackCandidates (file : RegistryFile) (task currentId : String) : List RegistryRecord :=
  file.records.filter (fun candidate =>
    candidate.servesTask task && candidate.modelId != currentId)

/-- The event of a rollback and the state that records it. -/
def rolledBackState (state : RegistryState) (file : RegistryFile) (currentId : String)
    (chosen : Option (String × ElmArtifact)) (task idempotencyKey reason : String) :
    RegistryState × RollbackEvent :=
  let next := installFallback file state.champions task chosen
  let event : RollbackEvent :=
    { idempotencyKey
      taskId := task
      rolledBackModelId := currentId
      fallbackModelId := chosen.map Prod.fst
      revision := file.revision
      reason }
  ({ next with file :=
    { next.file with rollbackHistory := next.file.rollbackHistory ++ [event] } }, event)

def rollbackDecision (disk : Disk Bytes) (task idempotencyKey : String) (expectedRevision : Nat)
    (reason : String) (now : Nat) (state : RegistryState) :
    Except ElmError (Outcome RollbackEvent) :=
  match state.file.rollbackHistory.find? (fun event => event.idempotencyKey == idempotencyKey) with
  | some event =>
    if event.taskId ≠ task then
      .error (.artifact "rollback idempotency key was already used for another task")
    else .ok (.keep event)
  | none =>
    if state.file.revision ≠ expectedRevision then .error .revisionConflict
    else
      match state.file.championByTask[task]? with
      | none => .error (.artifact "task has no serving champion to roll back")
      | some currentId =>
        match state.champions[task]? with
        | none => .error (.artifact "serving champion snapshot is unavailable")
        | some currentArtifact =>
          match state.file.position currentId with
          | none => .error (.artifact "serving champion record is missing")
          | some (index, record) =>
            if ¬ allowedTransition record.stage .rolledBack then
              let current := record.stage.debug
              .error (.artifact s!"serving stage {current} cannot be rolled back")
            else
              let file := rolledBackFile state.file index reason now
              let chosen := fallback serde maxBytes disk currentArtifact
                (rollbackCandidates file task currentId)
              let (next, event) :=
                rolledBackState state file currentId chosen task idempotencyKey reason
              .ok (.write next event)

/-- Repeating an idempotency key answers the recorded event and changes nothing. -/
def rollbackChampion (disk : Disk Bytes) (state : RegistryState) (task idempotencyKey : String)
    (expectedRevision : Nat) (reason : String) (now : Nat) (fault : Option IoFault) :
    Reply Bytes RollbackEvent :=
  if isBlank idempotencyKey ∨ isBlank reason then
    ⟨.error (.invalidInput "rollback requires an idempotency key and reason"), state, disk⟩
  else
    underWriterLock serde maxBytes disk state fault
      (rollbackDecision serde maxBytes disk task idempotencyKey expectedRevision reason now)

end Operations

end Gail.Elm
