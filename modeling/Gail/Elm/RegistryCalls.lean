import Gail.Elm.ModelRegistry

/-! The five writers as calls of one type. Each makes its own checks, refreshes under the lock,
decides on the refreshed state and commits, so everything a call can do is in one case list. -/
namespace Gail.Elm
variable {Bytes : Type}

/-- A writer call, with the I/O failures it meets. -/
inductive Call where
  | publishCandidate (artifact : ElmArtifact) (expectedRevision : Nat) (faults : PublishFaults)
  | promote (modelId : String) (target : LifecycleStage) (expectedRevision : Nat)
      (reason : String) (fault : Option IoFault)
  | markEvaluated (modelId : String) (expectedRevision : Nat) (reason : String)
      (fault : Option IoFault)
  | claimCanaryDecision (modelId : String) (maximum : UInt64) (fault : Option IoFault)
  | rollbackChampion (task idempotencyKey : String) (expectedRevision : Nat) (reason : String)
      (fault : Option IoFault)

inductive Answer where
  | record (record : RegistryRecord)
  | claimed (granted : Bool)
  | rolledBack (event : RollbackEvent)
  deriving DecidableEq

def Reply.map {α β : Type} (f : α → β) (reply : Reply Bytes α) : Reply Bytes β :=
  ⟨reply.result.map f, reply.state, reply.disk⟩

def Outcome.map {α β : Type} (f : α → β) : Outcome α → Outcome β
  | .keep result => .keep (f result)
  | .write next result => .write next (f result)

/-- The failure met while the index is replaced. -/
def Call.indexFault : Call → Option IoFault
  | .publishCandidate _ _ faults => faults.index
  | .promote _ _ _ _ fault | .markEvaluated _ _ _ fault | .claimCanaryDecision _ _ fault
  | .rollbackChampion _ _ _ _ fault => fault

section Calls
variable (serde : Serde Bytes) (maxBytes now : Nat)

def Call.perform (disk : Disk Bytes) (state : RegistryState) : Call → Reply Bytes Answer
  | .publishCandidate artifact expectedRevision faults =>
    (Elm.publishCandidate serde maxBytes disk state artifact expectedRevision now
      faults).map .record
  | .promote modelId target expectedRevision reason fault =>
    (Elm.promote serde maxBytes disk state modelId target expectedRevision reason now
      fault).map .record
  | .markEvaluated modelId expectedRevision reason fault =>
    (Elm.markEvaluated serde maxBytes disk state modelId expectedRevision reason now
      fault).map .record
  | .claimCanaryDecision modelId maximum fault =>
    (Elm.claimCanaryDecision serde maxBytes disk state modelId maximum now fault).map .claimed
  | .rollbackChampion task idempotencyKey expectedRevision reason fault =>
    (Elm.rollbackChampion serde maxBytes disk state task idempotencyKey expectedRevision reason now
      fault).map .rolledBack

/-- What a call checks before it takes the lock; a result ends the call. -/
def Call.precheck : Call → Option (Except ElmError Answer)
  | .publishCandidate artifact _ _ =>
    match checkArtifact serde maxBytes artifact with
    | .error error => some (.error error)
    | .ok _ => none
  | .claimCanaryDecision _ maximum _ => if maximum = 0 then some (.ok (.claimed false)) else none
  | .rollbackChampion _ idempotencyKey _ reason _ =>
    if isBlank idempotencyKey ∨ isBlank reason then
      some (.error (.invalidInput "rollback requires an idempotency key and reason"))
    else none
  | _ => none

variable {serde maxBytes} in
/-- The only success before the lock is a claim against an empty budget. -/
theorem Call.precheck_ok {call : Call} {answer : Answer}
    (h : call.precheck serde maxBytes = some (.ok answer)) :
    ∃ modelId fault, call = .claimCanaryDecision modelId 0 fault ∧ answer = .claimed false := by
  cases call with
  | claimCanaryDecision modelId maximum fault =>
    simp only [Call.precheck] at h
    split at h
    · next hz =>
      cases h
      exact ⟨modelId, fault, by rw [hz], rfl⟩
    · cases h
  | publishCandidate artifact expected faults =>
    simp only [Call.precheck] at h
    split at h <;> cases h
  | rollbackChampion task key expected reason fault =>
    simp only [Call.precheck] at h
    split at h <;> cases h
  | promote => cases h
  | markEvaluated => cases h

variable {serde maxBytes} in
/-- A publication takes the lock only with an artifact that passed its checks. -/
theorem Call.precheck_publish {artifact : ElmArtifact} {expected : Nat} {faults : PublishFaults}
    (h : (Call.publishCandidate artifact expected faults).precheck serde maxBytes = none) :
    ∃ bytes, checkArtifact serde maxBytes artifact = .ok bytes := by
  simp only [Call.precheck] at h
  cases hb : checkArtifact serde maxBytes artifact with
  | error error => rw [hb] at h; cases h
  | ok bytes => exact ⟨bytes, rfl⟩

/-- What a call decides on the refreshed state, without its I/O. -/
def Call.decision (disk : Disk Bytes) (state : RegistryState) :
    Call → Except ElmError (Outcome Answer)
  | .publishCandidate artifact expectedRevision _ =>
    if state.file.revision ≠ expectedRevision then .error .revisionConflict
    else .ok ((publishOutcome artifact now state).map .record)
  | .promote modelId target expectedRevision reason _ =>
    (promoteDecision serde maxBytes disk modelId target expectedRevision reason now state).map
      (Outcome.map .record)
  | .markEvaluated modelId expectedRevision reason _ =>
    (promoteDecision serde maxBytes disk modelId .evaluated expectedRevision reason now state).map
      (Outcome.map .record)
  | .claimCanaryDecision modelId maximum _ =>
    (claimDecision modelId maximum now state).map (Outcome.map .claimed)
  | .rollbackChampion task idempotencyKey expectedRevision reason _ =>
    (rollbackDecision serde maxBytes disk task idempotencyKey expectedRevision reason now
      state).map (Outcome.map .rolledBack)

/-- The file a call replaces before the index: the artifact of a publication. -/
def Call.store (disk : Disk Bytes) : Call → Except ElmError Unit × Disk Bytes
  | .publishCandidate artifact _ faults =>
    match checkArtifact serde maxBytes artifact with
    | .error error => (.error error, disk)
    | .ok bytes => writeAtomic disk (artifactPath artifact.metadata.modelId) bytes faults.artifact
  | _ => (.ok (), disk)

theorem commit_map {α β : Type} (f : α → β) (disk : Disk Bytes) (state : RegistryState)
    (fault : Option IoFault) (outcome : Outcome α) :
    commit serde maxBytes disk state fault (outcome.map f) =
      (commit serde maxBytes disk state fault outcome).map f := by
  cases outcome with
  | keep result => rfl
  | write next result =>
    simp only [commit, Outcome.map]
    rcases persistRegistry serde disk next.file maxBytes fault with ⟨_ | _, disk'⟩ <;> rfl

private theorem underWriterLock_map {α : Type} (f : α → Answer) (disk : Disk Bytes)
    (state : RegistryState) (fault : Option IoFault)
    (decision : RegistryState → Except ElmError (Outcome α)) :
    (underWriterLock serde maxBytes disk state fault decision).map f =
      match refreshLocked serde maxBytes disk state with
      | .error error => ⟨.error error, state, disk⟩
      | .ok (_, fresh) =>
        match (decision fresh).map (Outcome.map f) with
        | .error error => ⟨.error error, fresh, disk⟩
        | .ok outcome => commit serde maxBytes disk fresh fault outcome := by
  unfold underWriterLock
  cases refreshLocked serde maxBytes disk state with
  | error error => rfl
  | ok refreshed =>
    dsimp only
    cases decision refreshed.2 with
    | error error => rfl
    | ok outcome => exact (commit_map serde maxBytes f disk refreshed.2 fault outcome).symm

/-- Every writer has the same frame. -/
theorem Call.perform_eq (call : Call) (disk : Disk Bytes) (state : RegistryState) :
    call.perform serde maxBytes now disk state =
      match call.precheck serde maxBytes with
      | some result => ⟨result, state, disk⟩
      | none =>
        match refreshLocked serde maxBytes disk state with
        | .error error => ⟨.error error, state, disk⟩
        | .ok (_, fresh) =>
          match call.decision serde maxBytes now disk fresh with
          | .error error => ⟨.error error, fresh, disk⟩
          | .ok outcome =>
            match call.store serde maxBytes disk with
            | (.error error, disk) => ⟨.error error, fresh, disk⟩
            | (.ok (), disk) => commit serde maxBytes disk fresh call.indexFault outcome := by
  cases call with
  | publishCandidate artifact expected faults =>
    simp only [perform, Elm.publishCandidate, precheck, decision, store, indexFault]
    cases checkArtifact serde maxBytes artifact with
    | error error => rfl
    | ok bytes =>
      cases refreshLocked serde maxBytes disk state with
      | error error => rfl
      | ok refreshed =>
        dsimp only
        by_cases hr : refreshed.2.file.revision ≠ expected
        · rw [if_pos hr, if_pos hr]; rfl
        · rw [if_neg hr, if_neg hr]
          rcases writeAtomic disk (artifactPath artifact.metadata.modelId) bytes faults.artifact
            with ⟨_ | _, disk'⟩
          · rfl
          · exact (commit_map serde maxBytes _ disk' refreshed.2 faults.index _).symm
  | promote modelId target expected reason fault =>
    exact underWriterLock_map serde maxBytes _ disk state fault _
  | markEvaluated modelId expected reason fault =>
    exact underWriterLock_map serde maxBytes _ disk state fault _
  | claimCanaryDecision modelId maximum fault =>
    simp only [perform, Elm.claimCanaryDecision, precheck]
    by_cases hz : maximum = 0
    · rw [if_pos hz, if_pos hz]; rfl
    · rw [if_neg hz, if_neg hz]
      exact underWriterLock_map serde maxBytes _ disk state fault _
  | rollbackChampion task key expected reason fault =>
    simp only [perform, Elm.rollbackChampion, precheck]
    by_cases hb : isBlank key ∨ isBlank reason
    · rw [if_pos hb, if_pos hb]; rfl
    · rw [if_neg hb, if_neg hb]
      exact underWriterLock_map serde maxBytes _ disk state fault _

/-- The call replaces the index by the one of `next`, once its artifact is in place. -/
structure Call.Replaces (call : Call) (disk : Disk Bytes) (fresh next : RegistryState)
    (answer : Answer) (after : Disk Bytes) : Prop where
  decided : call.decision serde maxBytes now disk fresh = .ok (.write next answer)
  stored : (call.store serde maxBytes disk).1 = .ok ()
  written : ∃ bytes, serde.registryToVec next.file = .ok bytes ∧
    after = Function.update (call.store serde maxBytes disk).2 indexPath (some bytes)

/-- Everything a call can do: `fresh` is the state its refresh leaves. -/
inductive Call.Effect (call : Call) (disk : Disk Bytes) (state : RegistryState) :
    Reply Bytes Answer → Prop where
  | early (result : Except ElmError Answer) (h : call.precheck serde maxBytes = some result) :
      Effect call disk state ⟨result, state, disk⟩
  | unread (error : ElmError) (hp : call.precheck serde maxBytes = none)
      (h : refreshLocked serde maxBytes disk state = .error error) :
      Effect call disk state ⟨.error error, state, disk⟩
  | refused (adopted : Bool) (fresh : RegistryState) (error : ElmError)
      (hp : call.precheck serde maxBytes = none)
      (hr : refreshLocked serde maxBytes disk state = .ok (adopted, fresh))
      (h : call.decision serde maxBytes now disk fresh = .error error) :
      Effect call disk state ⟨.error error, fresh, disk⟩
  | kept (adopted : Bool) (fresh : RegistryState) (answer : Answer)
      (hp : call.precheck serde maxBytes = none)
      (hr : refreshLocked serde maxBytes disk state = .ok (adopted, fresh))
      (h : call.decision serde maxBytes now disk fresh = .ok (.keep answer)) :
      Effect call disk state ⟨.ok answer, fresh, disk⟩
  | halted (adopted : Bool) (fresh next : RegistryState) (answer : Answer) (error : ElmError)
      (hp : call.precheck serde maxBytes = none)
      (hr : refreshLocked serde maxBytes disk state = .ok (adopted, fresh))
      (h : call.decision serde maxBytes now disk fresh = .ok (.write next answer)) :
      Effect call disk state ⟨.error error, fresh, (call.store serde maxBytes disk).2⟩
  | interrupted (adopted : Bool) (fresh next : RegistryState) (answer : Answer) (fault : IoFault)
      (after : Disk Bytes) (hp : call.precheck serde maxBytes = none)
      (hr : refreshLocked serde maxBytes disk state = .ok (adopted, fresh))
      (h : call.Replaces serde maxBytes now disk fresh next answer after)
      (hf : call.indexFault = some fault) (hs : fault.step.afterRename) :
      Effect call disk state ⟨.error (.artifact fault.error), fresh, after⟩
  | written (adopted : Bool) (fresh next : RegistryState) (answer : Answer) (after : Disk Bytes)
      (hp : call.precheck serde maxBytes = none)
      (hr : refreshLocked serde maxBytes disk state = .ok (adopted, fresh))
      (h : call.Replaces serde maxBytes now disk fresh next answer after) :
      Effect call disk state ⟨.ok answer, next, after⟩

/-- Only a publication stores a file, and it always writes the index. -/
private theorem Call.store_of_keep {call : Call} {disk : Disk Bytes} {fresh : RegistryState}
    {answer : Answer} (h : call.decision serde maxBytes now disk fresh = .ok (.keep answer)) :
    call.store serde maxBytes disk = (.ok (), disk) := by
  cases call with
  | publishCandidate artifact expected faults =>
    simp only [decision] at h
    split at h <;> cases h
  | _ => rfl

theorem Call.effect (call : Call) (disk : Disk Bytes) (state : RegistryState) :
    call.Effect serde maxBytes now disk state (call.perform serde maxBytes now disk state) := by
  rw [call.perform_eq]
  cases hp : call.precheck serde maxBytes with
  | some result => exact .early result hp
  | none =>
    cases hr : refreshLocked serde maxBytes disk state with
    | error error => exact .unread error hp hr
    | ok refreshed =>
      obtain ⟨adopted, fresh⟩ := refreshed
      dsimp only
      cases hd : call.decision serde maxBytes now disk fresh with
      | error error => exact .refused adopted fresh error hp hr hd
      | ok outcome =>
        cases outcome with
        | keep answer =>
          rw [call.store_of_keep serde maxBytes now hd]
          exact .kept adopted fresh answer hp hr hd
        | write next answer =>
          have hstep : ∀ error, call.Effect serde maxBytes now disk state
              ⟨.error error, fresh, (call.store serde maxBytes disk).2⟩ :=
            fun error => .halted adopted fresh next answer error hp hr hd
          rcases hs : call.store serde maxBytes disk with ⟨error | ⟨⟩, stored⟩
          · rw [hs] at hstep
            exact hstep error
          rw [hs] at hstep
          simp only [commit, persistRegistry]
          cases hv : serde.registryToVec next.file with
          | error error => exact hstep _
          | ok bytes =>
            dsimp only
            have hreplaces : call.Replaces serde maxBytes now disk fresh next answer
                (Function.update stored indexPath (some bytes)) :=
              ⟨hd, by rw [hs], bytes, hv, by rw [hs]⟩
            by_cases hl : maxBytes < serde.len bytes
            · rw [if_pos hl]; exact hstep _
            rw [if_neg hl]
            cases hf : call.indexFault with
            | none => exact .written adopted fresh next answer _ hp hr hreplaces
            | some fault =>
              simp only [writeAtomic]
              cases ha : fault.step.afterRename with
              | false => exact hstep _
              | true => exact .interrupted adopted fresh next answer fault _ hp hr hreplaces hf ha

variable {serde maxBytes now} in
/-- A call that succeeds was answered before the lock, or kept its refreshed state, or wrote. -/
theorem Call.Effect.of_ok {call : Call} {disk : Disk Bytes} {state : RegistryState}
    {reply : Reply Bytes Answer} {answer : Answer}
    (h : call.Effect serde maxBytes now disk state reply) (hok : reply.result = .ok answer) :
    (call.precheck serde maxBytes = some (.ok answer) ∧ reply.state = state ∧ reply.disk = disk) ∨
      ∃ adopted fresh, call.precheck serde maxBytes = none ∧
        refreshLocked serde maxBytes disk state = .ok (adopted, fresh) ∧
        ((call.decision serde maxBytes now disk fresh = .ok (.keep answer) ∧
            reply.state = fresh ∧ reply.disk = disk) ∨
          call.Replaces serde maxBytes now disk fresh reply.state answer reply.disk) := by
  cases h with
  | early result h => exact .inl ⟨by rw [h, ← hok], rfl, rfl⟩
  | unread error hp h => cases hok
  | refused adopted fresh error hp hr h => cases hok
  | kept adopted fresh found hp hr h =>
    cases hok
    exact .inr ⟨adopted, fresh, hp, hr, .inl ⟨h, rfl, rfl⟩⟩
  | halted adopted fresh next found error hp hr h => cases hok
  | interrupted adopted fresh next found fault after hp hr h hf hs => cases hok
  | written adopted fresh next found after hp hr h =>
    cases hok
    exact .inr ⟨adopted, fresh, hp, hr, .inr h⟩

end Calls

section Files
variable {serde : Serde Bytes} {maxBytes now : Nat}

theorem artifactPath_ne_indexPath (modelId : String) : artifactPath modelId ≠ indexPath := by
  intro h
  have hl := congrArg (fun s => s.toList.head?) h
  simp [artifactPath, indexPath, String.toList_append] at hl

theorem artifactPath_injective : Function.Injective artifactPath := by
  intro a b h
  have hl := congrArg String.toList h
  simp only [artifactPath, String.toList_append, List.append_left_inj,
    List.append_right_inj] at hl
  exact String.toList_inj.mp hl

/-- Storing an artifact leaves the index alone. -/
theorem Call.store_index (call : Call) (disk : Disk Bytes) :
    (call.store serde maxBytes disk).2 indexPath = disk indexPath := by
  cases call with
  | publishCandidate artifact expected faults =>
    simp only [store]
    cases checkArtifact serde maxBytes artifact with
    | error error => rfl
    | ok bytes =>
      exact writeAtomic_ne (artifactPath_ne_indexPath artifact.metadata.modelId).symm bytes _
  | _ => rfl

end Files

end Gail.Elm
