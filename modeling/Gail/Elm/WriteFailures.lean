import Gail.Elm.RegistryRuns

/-! Calls that fail at an I/O step. Up to the rename of the index a failure leaves at most a refreshed
copy and a stored artifact behind, and the call can be repeated as if it had not been made. -/
namespace Gail.Elm
open Gail.Library
variable {Bytes : Type} {serde : Serde Bytes} {maxBytes now : Nat} {disk : Disk Bytes}
  {state : RegistryState}

/-- The same call, meeting no failure. -/
def Call.withoutFaults : Call → Call
  | .publishCandidate artifact expected _ => .publishCandidate artifact expected {}
  | .promote modelId target expected reason _ => .promote modelId target expected reason none
  | .markEvaluated modelId expected reason _ => .markEvaluated modelId expected reason none
  | .claimCanaryDecision modelId maximum _ => .claimCanaryDecision modelId maximum none
  | .rollbackChampion task key expected reason _ => .rollbackChampion task key expected reason none

@[simp] theorem Call.withoutFaults_precheck (call : Call) :
    call.withoutFaults.precheck serde maxBytes = call.precheck serde maxBytes := by
  cases call <;> rfl

@[simp] theorem Call.withoutFaults_decision (call : Call) :
    call.withoutFaults.decision serde maxBytes now disk state =
      call.decision serde maxBytes now disk state := by
  cases call <;> rfl

/-- What an interrupted store leaves makes no difference to the decision. -/
private theorem decision_stored (call : Call) (now : Nat) :
    call.decision serde maxBytes now (call.store serde maxBytes disk).2 state =
      call.decision serde maxBytes now disk state := by
  cases call <;> rfl

variable (serde maxBytes disk) in
/-- Storing again overwrites what an interrupted store left. -/
private theorem store_stored (call : Call) :
    call.withoutFaults.store serde maxBytes (call.store serde maxBytes disk).2 =
        call.withoutFaults.store serde maxBytes disk ∨
      ∃ error, call.precheck serde maxBytes = some (.error error) := by
  cases call with
  | publishCandidate artifact expected faults =>
    cases hc : checkArtifact serde maxBytes artifact with
    | error error => right; exact ⟨error, by simp only [Call.precheck, hc]⟩
    | ok bytes =>
      left
      simp only [Call.withoutFaults, Call.store, hc]
      cases hf : faults.artifact with
      | none => simp [writeAtomic]
      | some fault =>
        by_cases hs : fault.step.afterRename
        · simp [writeAtomic, hs]
        · simp [writeAtomic, hs]
  | _ => exact .inl rfl

/-- A state that has been refreshed stays as it is while the index does. -/
private theorem refreshLocked_again {after : Disk Bytes} {fresh : RegistryState} {adopted : Bool}
    (hr : refreshLocked serde maxBytes disk state = .ok (adopted, fresh))
    (hi : after indexPath = disk indexPath) :
    refreshLocked serde maxBytes after fresh = .ok (false, fresh) := by
  unfold refreshLocked at hr ⊢
  have hread : readRegistryFile serde after maxBytes = readRegistryFile serde disk maxBytes := by
    simp only [readRegistryFile, hi]
  rw [hread]
  cases hf : readRegistryFile serde disk maxBytes with
  | error error => rw [hf] at hr; cases hr
  | ok found =>
    rw [hf] at hr
    have hle : found.revision ≤ fresh.file.revision := by
      rcases adoptFresh_ok hr with ⟨hle, -, rfl⟩ | ⟨-, -, he, -⟩
      · exact hle
      · exact he ▸ le_rfl
    exact if_pos hle

/-- Only a publication stores a file, and whether it is refused does not depend on the time. -/
private theorem store_of_refused {call : Call} {later : Nat} {outcome : Outcome Answer}
    {error : ElmError} (h : call.decision serde maxBytes now disk state = .ok outcome)
    (he : call.decision serde maxBytes later disk state = .error error) :
    (call.store serde maxBytes disk).2 = disk := by
  cases call with
  | publishCandidate artifact expected faults =>
    simp only [Call.decision] at h he
    split at h
    · cases h
    · rename_i hr
      rw [if_neg hr] at he
      cases he
  | _ => rfl

variable (now) in
/-- Repeating a call from what its failure left gives what it would have given at once. -/
private theorem retry_eq {call : Call} {after : Disk Bytes} {fresh : RegistryState}
    {adopted : Bool} (hc : call.precheck serde maxBytes = none)
    (hr : refreshLocked serde maxBytes disk state = .ok (adopted, fresh))
    (ha : after = disk ∨ after = (call.store serde maxBytes disk).2 ∧
      ∃ outcome, call.decision serde maxBytes now disk fresh = .ok outcome) (later : Nat) :
    call.withoutFaults.perform serde maxBytes later after fresh =
      call.withoutFaults.perform serde maxBytes later disk state := by
  have hindex : after indexPath = disk indexPath := by
    rcases ha with rfl | ⟨rfl, -⟩
    · rfl
    · exact call.store_index disk
  have hdecision : call.decision serde maxBytes later after fresh =
      call.decision serde maxBytes later disk fresh := by
    rcases ha with rfl | ⟨rfl, -⟩
    · rfl
    · exact decision_stored call later
  have hstore : call.withoutFaults.store serde maxBytes after =
      call.withoutFaults.store serde maxBytes disk := by
    rcases ha with rfl | ⟨rfl, -⟩
    · rfl
    · rcases store_stored serde maxBytes disk call with
        hs | ⟨error, hs⟩
      · exact hs
      · rw [hc] at hs; cases hs
  rw [Call.perform_eq, Call.perform_eq, call.withoutFaults_precheck, hc,
    refreshLocked_again hr hindex, hr]
  simp only [call.withoutFaults_decision, hdecision]
  cases hd : call.decision serde maxBytes later disk fresh with
  | ok outcome => dsimp only; rw [hstore]
  | error error =>
    rcases ha with rfl | ⟨rfl, outcome, ho⟩
    · rfl
    · dsimp only; rw [store_of_refused ho hd]

private theorem recoverable {call : Call} {reply : Reply Bytes Answer} {error : ElmError}
    (h : call.Effect serde maxBytes now disk state reply)
    (hf : ∀ fault, call.indexFault = some fault → fault.step.afterRename = false)
    (he : reply.result = .error error) (later : Nat) :
    reply.disk indexPath = disk indexPath ∧
      (reply.state = state ∨ ∃ adopted,
        refreshLocked serde maxBytes disk state = .ok (adopted, reply.state)) ∧
      call.withoutFaults.perform serde maxBytes later reply.disk reply.state =
        call.withoutFaults.perform serde maxBytes later disk state := by
  cases h with
  | early result h => exact ⟨rfl, .inl rfl, rfl⟩
  | unread error hp h => exact ⟨rfl, .inl rfl, rfl⟩
  | refused adopted fresh error hp hr h =>
    exact ⟨rfl, .inr ⟨adopted, hr⟩, retry_eq now hp hr (.inl rfl) later⟩
  | kept adopted fresh answer hp hr h => cases he
  | halted adopted fresh next answer error hp hr h =>
    exact ⟨call.store_index disk, .inr ⟨adopted, hr⟩, retry_eq now hp hr (.inr ⟨rfl, _, h⟩) later⟩
  | interrupted adopted fresh next answer fault after hp hr h hfault hs =>
    rw [hf fault hfault] at hs
    cases hs
  | written adopted fresh next answer after hp hr h => cases he

/-- One process has published, another still holds the empty registry. -/
def laggingProcess : List (Nat × Action) :=
  openRegistry 0 ++ openRegistry 1 ++
    [(0, .call (.publishCandidate (plainArtifact "a" "t" "s" false) 0 {}) 0)]

end Gail.Elm
