import Gail.Elm.RegistryRuns

/-! When a model is in service, and what the writers can do about it. Publishing a model or moving it
to a stage that does not serve keeps it out; a promotion to a serving stage puts it in as soon as the
index is replaced, whatever is answered. -/
namespace Gail.Elm
variable {Bytes : Type}

/-- The registry as one process sees it: its own copy and the shared directory. -/
abbrev Registry (Bytes : Type) := RegistryState × Disk Bytes

def Reply.registry {α : Type} (reply : Reply Bytes α) : Registry Bytes := (reply.state, reply.disk)

variable {serde : Serde Bytes} {maxBytes now : Nat} {disk after : Disk Bytes}
  {state fresh next : RegistryState} {file : RegistryFile} {modelId : String}

/-- The model is in a serving stage, or it is the champion of a task. -/
def RegistryFile.InService (file : RegistryFile) (modelId : String) : Prop :=
  (∃ record ∈ file.records, record.modelId = modelId ∧ record.stage.isServing) ∨
    ∃ task : String, file.championByTask[task]? = some modelId

/-- The model is among the champions that the process has loaded. -/
def RegistryState.Loads (state : RegistryState) (modelId : String) : Prop :=
  ∃ (task : String) (artifact : ElmArtifact),
    state.champions[task]? = some artifact ∧ artifact.metadata.modelId = modelId

variable (serde modelId) in
def DurablyServed (disk : Disk Bytes) : Prop :=
  ∃ file, durable serde disk = some file ∧ file.InService modelId

variable (serde modelId) in
/-- Neither the directory nor the worker's process serves the model. -/
structure OutOfService (registry : Registry Bytes) : Prop where
  durable : ¬ DurablyServed serde modelId registry.2
  memory : ¬ registry.1.file.InService modelId
  loaded : ¬ registry.1.Loads modelId

private theorem loadChampion_ok {loaded champions : Champions} {entry : String × String}
    (h : loadChampion serde disk file maxBytes loaded entry = .ok champions) :
    champions = loaded ∨ ∃ artifact : ElmArtifact, artifact.metadata.modelId = entry.2 ∧
      champions = loaded.insert entry.1 artifact := by
  unfold loadChampion at h
  cases hr : file.record entry.2 with
  | none => rw [hr] at h; cases h
  | some record =>
    rw [hr] at h
    dsimp only at h
    by_cases hs : ¬ record.servesTask entry.1
    · rw [if_pos hs] at h
      cases h
      exact .inl rfl
    rw [if_neg hs] at h
    cases hl : loadArtifact serde disk record.artifactFile maxBytes with
    | error error => rw [hl] at h; cases h
    | ok artifact =>
      rw [hl] at h
      dsimp only at h
      by_cases hi : artifact.isOf record entry.2 entry.1
      · rw [if_pos hi] at h
        cases h
        exact .inr ⟨artifact, (ElmArtifact.isOf_iff.mp hi).1, rfl⟩
      · rw [if_neg hi] at h
        cases h

private theorem loaded_of_fold {entries : List (String × String)} {loaded champions : Champions}
    (h : entries.foldlM (loadChampion serde disk file maxBytes) loaded = .ok champions)
    {task : String} {artifact : ElmArtifact} (hc : champions[task]? = some artifact) :
    loaded[task]? = some artifact ∨ (task, artifact.metadata.modelId) ∈ entries := by
  induction entries generalizing loaded with
  | nil => cases h; exact .inl hc
  | cons entry entries ih =>
    rw [List.foldlM_cons] at h
    cases hs : loadChampion serde disk file maxBytes loaded entry with
    | error error => rw [hs] at h; cases h
    | ok next =>
      rw [hs] at h
      rcases ih h with hin | hmem
      · rcases loadChampion_ok hs with rfl | ⟨found, hid, rfl⟩
        · exact .inl hin
        · rw [Std.TreeMap.getElem?_insert] at hin
          split at hin
          · next ht =>
            cases hin
            right
            rw [hid, ← Std.LawfulEqCmp.compare_eq_iff_eq.mp ht]
            exact List.mem_cons_self
          · exact .inl hin
      · exact .inr (List.mem_cons_of_mem entry hmem)

/-- What a refresh loads is named by the index. -/
private theorem loadChampions_named {champions : Champions}
    (h : loadChampions serde disk file maxBytes = .ok champions) {task : String}
    {artifact : ElmArtifact} (hc : champions[task]? = some artifact) :
    file.championByTask[task]? = some artifact.metadata.modelId := by
  rcases loaded_of_fold h hc with hin | hmem
  · simp at hin
  · exact Std.TreeMap.mem_toList_iff_getElem?_eq_some.mp hmem

theorem OutOfService.refreshed (h : OutOfService serde modelId (state, disk)) {adopted : Bool}
    (hr : refreshLocked serde maxBytes disk state = .ok (adopted, fresh)) :
    OutOfService serde modelId (fresh, disk) := by
  obtain ⟨found, hd, ha⟩ := refreshLocked_ok hr
  rcases adoptFresh_ok ha with ⟨-, -, rfl⟩ | ⟨-, -, rfl, hl⟩
  · exact h
  have hfile : ¬ fresh.file.InService modelId := fun hs => h.durable ⟨fresh.file, hd, hs⟩
  refine ⟨h.durable, hfile, ?_⟩
  rintro ⟨task, artifact, hc, rfl⟩
  exact hfile (.inr ⟨task, loadChampions_named hl hc⟩)

theorem OutOfService.congr (h : OutOfService serde modelId (state, disk))
    (hi : after indexPath = disk indexPath) : OutOfService serde modelId (state, after) := by
  refine ⟨?_, h.memory, h.loaded⟩
  rintro ⟨file, hd, hserved⟩
  exact h.durable ⟨file, (durable_congr hi).symm.trans hd, hserved⟩

/-- An operation that leaves the index alone, and at most refreshes the copy in memory. -/
theorem OutOfService.of_index (h : OutOfService serde modelId (state, disk))
    (hi : after indexPath = disk indexPath)
    (hs : next = state ∨ ∃ adopted, refreshLocked serde maxBytes disk state = .ok (adopted, next)) :
    OutOfService serde modelId (next, after) := by
  rcases hs with rfl | ⟨adopted, hr⟩
  · exact h.congr hi
  · exact (h.refreshed hr).congr hi

/-- A call whose writes do not serve the model. -/
theorem OutOfService.performed {call : Call} (h : OutOfService serde modelId (state, disk))
    (hw : ∀ fresh next answer, OutOfService serde modelId (fresh, disk) →
      call.decision serde maxBytes now disk fresh = .ok (.write next answer) →
      ¬ next.file.InService modelId ∧ ¬ next.Loads modelId) :
    OutOfService serde modelId (call.perform serde maxBytes now disk state).registry := by
  rcases (call.effect serde maxBytes now disk state).kept_or_replaced with
    ⟨hi, hs⟩ | ⟨adopted, fresh, next, answer, -, hr, hreplaces, hs⟩
  · exact h.of_index hi hs
  have hfresh := h.refreshed hr
  obtain ⟨hfile, hloads⟩ := hw fresh next answer hfresh hreplaces.decided
  have hdurable : ¬ DurablyServed serde modelId (call.perform serde maxBytes now disk state).disk := by
    rintro ⟨file, hd, hserved⟩
    cases Option.some.inj (hd.symm.trans hreplaces.durable)
    exact hfile hserved
  rcases hs with ⟨he, -⟩ | ⟨he, -⟩
  · exact ⟨hdurable, by rw [Reply.registry, he]; exact hfile, by rw [Reply.registry, he]; exact hloads⟩
  · refine ⟨hdurable, ?_, ?_⟩
    · rw [Reply.registry, he]; exact hfresh.memory
    · rw [Reply.registry, he]; exact hfresh.loaded

theorem OutOfService.published (h : OutOfService serde modelId (state, disk))
    (artifact : ElmArtifact) (expected : Nat) (faults : PublishFaults) :
    OutOfService serde modelId
      (publishCandidate serde maxBytes disk state artifact expected now faults).registry := by
  change OutOfService serde modelId
    ((Call.publishCandidate artifact expected faults).perform serde maxBytes now disk state).registry
  refine h.performed ?_
  intro fresh next answer hfresh hd
  simp only [Call.decision] at hd
  split at hd
  · cases hd
  cases hd
  refine ⟨?_, hfresh.loaded⟩
  rintro (⟨record, hmem, hid, hs⟩ | hc)
  · rcases List.mem_append.mp hmem with hold | hnew
    · exact hfresh.memory (.inl ⟨record, hold, hid, hs⟩)
    · cases List.mem_singleton.mp hnew
      cases hs
  · exact hfresh.memory (.inr hc)

/-- A model out of service is moved to a stage that does not serve: no champion changes. -/
theorem OutOfService.promoted (h : OutOfService serde modelId (state, disk))
    {target : LifecycleStage} (ht : target.isServing = false) (expected : Nat) (reason : String)
    (fault : Option IoFault) :
    OutOfService serde modelId
      (promote serde maxBytes disk state modelId target expected reason now fault).registry := by
  change OutOfService serde modelId
    ((Call.promote modelId target expected reason fault).perform serde maxBytes now disk
      state).registry
  refine h.performed ?_
  intro fresh next answer hfresh hd
  obtain ⟨_, hp, -⟩ := map_eq_write hd
  obtain ⟨index, record, artifact, -, hposition, -, -, -, -, he⟩ := promoteDecision_ok hp
  simp only [ht, Bool.false_and, promotedState, Bool.false_eq_true, if_false, promotedFile] at he
  rw [if_neg fun hc => hfresh.memory (.inr ⟨_, hc⟩)] at he
  cases he
  refine ⟨?_, hfresh.loaded⟩
  rintro (⟨found, hmem, hid, hs⟩ | hc)
  · obtain ⟨i, hi⟩ := List.mem_iff_getElem?.mp hmem
    rw [List.getElem?_modify] at hi
    obtain ⟨old, hold, rfl⟩ := Option.map_eq_some_iff.mp hi
    split at hs
    · rw [RegistryRecord.moveTo_stage, ht] at hs
      cases hs
    · next hne =>
      rw [if_neg hne] at hid
      exact hfresh.memory (.inl ⟨old, List.mem_of_getElem? hold, hid, hs⟩)
  · exact hfresh.memory (.inr hc)

/-- The demotion of the previous champion renames no record. -/
private theorem demotePrevious_modelId {index : Nat} {record : RegistryRecord}
    (hget : file.records[index]? = some record) (previous : Option String) (revision : Nat) :
    ∃ found, (demotePrevious file previous modelId now revision)[index]? = some found ∧
      found.modelId = record.modelId := by
  rcases demotePrevious_cases file previous modelId now revision with
    he | ⟨_, j, _, -, -, -, -, -, he⟩
  · exact ⟨record, by rw [he, hget], rfl⟩
  · rw [he, List.getElem?_modify, hget]
    refine ⟨_, rfl, ?_⟩
    dsimp only
    split
    · rfl
    · rfl

/-- The record of a promoted model is in the new index, at its new stage. -/
private theorem promotedFile_moved {index : Nat} {record : RegistryRecord}
    (hp : file.position modelId = some (index, record)) (target : LifecycleStage) (serving : Bool)
    (task reason : String) :
    ∃ moved ∈ (promotedFile file index modelId target serving task reason now).records,
      moved.modelId = modelId ∧ moved.stage = target := by
  obtain ⟨hget, hid, -⟩ := RegistryFile.position_eq_some.mp hp
  let demoted := if serving then
      demotePrevious file file.championByTask[task]? modelId now (saturatingSucc file.revision)
    else file.records
  have hdemoted : ∃ found, demoted[index]? = some found ∧ found.modelId = modelId := by
    cases serving with
    | true => rw [← hid]; exact demotePrevious_modelId hget _ _
    | false => exact ⟨record, hget, hid⟩
  obtain ⟨found, hfound, hname⟩ := hdemoted
  have hmoved : (promotedFile file index modelId target serving task reason now).records[index]? =
      some (found.moveTo target reason now (saturatingSucc file.revision)) := by
    change (demoted.modify index _)[index]? = _
    rw [List.getElem?_modify, hfound]
    simp
  exact ⟨_, List.mem_of_getElem? hmoved, hname, rfl⟩

/-- A promotion to a serving stage that replaces the index puts the model in service. -/
private theorem served_of_replaces {target : LifecycleStage} (ht : target.isServing)
    {expected : Nat} {reason : String} {fault : Option IoFault} {answer : Answer}
    (h : (Call.promote modelId target expected reason fault).Replaces serde maxBytes now disk fresh
      next answer after) : DurablyServed serde modelId after := by
  obtain ⟨_, hp, -⟩ := map_eq_write h.decided
  obtain ⟨index, record, artifact, -, hposition, -, -, -, -, he⟩ := promoteDecision_ok hp
  cases he
  refine ⟨_, h.durable, .inl ?_⟩
  obtain ⟨champions, hf⟩ := promotedState_file disk fresh (promotedFile fresh.file index modelId
    target (target.isServing && !artifact.metadata.fixtureOnly) artifact.metadata.taskId reason now)
    modelId artifact (target.isServing && !artifact.metadata.fixtureOnly)
  rw [hf]
  obtain ⟨moved, hmem, hid, hstage⟩ := promotedFile_moved hposition target
    (target.isServing && !artifact.metadata.fixtureOnly) artifact.metadata.taskId reason
  exact ⟨moved, hmem, hid, by rw [hstage]; exact ht⟩

/-- Once served, a model stays served by a further promotion to a serving stage. -/
theorem DurablyServed.promoted (h : DurablyServed serde modelId disk) {target : LifecycleStage}
    (ht : target.isServing) (expected : Nat) (reason : String) (fault : Option IoFault) :
    DurablyServed serde modelId
      (promote serde maxBytes disk state modelId target expected reason now fault).disk := by
  change DurablyServed serde modelId ((Call.promote modelId target expected reason fault).perform
    serde maxBytes now disk state).disk
  rcases ((Call.promote modelId target expected reason fault).effect serde maxBytes now disk
    state).kept_or_replaced with ⟨hi, -⟩ | ⟨_, _, _, _, -, -, hreplaces, -⟩
  · obtain ⟨file, hd, hs⟩ := h
    exact ⟨file, (durable_congr hi).trans hd, hs⟩
  · exact served_of_replaces ht hreplaces

section Faults
variable {expected : Nat} {reason : String} {target : LifecycleStage}

/-- A call that meets no failure and is refused has not replaced the index. -/
private theorem OutOfService.refused {call : Call} (h : OutOfService serde modelId (state, disk))
    (hf : call.indexFault = none) {error : ElmError}
    (he : (call.perform serde maxBytes now disk state).result = .error error) :
    OutOfService serde modelId (call.perform serde maxBytes now disk state).registry := by
  have heffect := call.effect serde maxBytes now disk state
  generalize call.perform serde maxBytes now disk state = reply at heffect he
  cases heffect with
  | early result hp => exact h
  | unread error hp hr => exact h
  | refused adopted fresh error hp hr hd => exact h.refreshed hr
  | kept adopted fresh answer hp hr hd => cases he
  | halted adopted fresh next answer error hp hr hd =>
    exact (h.refreshed hr).congr (call.store_index disk)
  | interrupted adopted fresh next answer fault after hp hr hreplaces hfault hs =>
    rw [hf] at hfault
    cases hfault
  | written adopted fresh next answer after hp hr hreplaces => cases he

/-- What a failure makes of a write: nothing, if it would be refused anyway; otherwise an error, with
the index replaced when the rename comes before it. -/
private theorem commit_fault {α : Type} (fresh next : RegistryState) (result : α)
    (failure : IoFault) :
    let quiet := commit serde maxBytes disk fresh none (.write next result)
    let reply := commit serde maxBytes disk fresh (some failure) (.write next result)
    (∃ error, quiet.result = .error error ∧ reply = quiet) ∨
      (quiet.result = .ok result ∧ reply = ⟨.error (.artifact failure.error), fresh,
        if failure.step.afterRename then quiet.disk else disk⟩) := by
  simp only [commit, persistRegistry]
  cases serde.registryToVec next.file with
  | error error => exact .inl ⟨.artifact error, rfl, rfl⟩
  | ok bytes =>
    dsimp only
    by_cases hl : maxBytes < serde.len bytes
    · rw [if_pos hl, if_pos hl]
      exact .inl ⟨_, rfl, rfl⟩
    · rw [if_neg hl, if_neg hl]
      exact .inr ⟨rfl, rfl⟩

private theorem promote_fault (failure : IoFault) :
    let quiet := promote serde maxBytes disk state modelId target expected reason now none
    let reply := promote serde maxBytes disk state modelId target expected reason now (some failure)
    (∃ error, quiet.result = .error error ∧ reply = quiet) ∨
      ∃ record adopted fresh, quiet.result = .ok record ∧
        refreshLocked serde maxBytes disk state = .ok (adopted, fresh) ∧
        reply = ⟨.error (.artifact failure.error), fresh,
          if failure.step.afterRename then quiet.disk else disk⟩ := by
  unfold promote underWriterLock
  cases refreshLocked serde maxBytes disk state with
  | error error => exact .inl ⟨error, rfl, rfl⟩
  | ok refreshed =>
    obtain ⟨adopted, fresh⟩ := refreshed
    dsimp only
    cases hd : promoteDecision serde maxBytes disk modelId target expected reason now fresh with
    | error error => exact .inl ⟨error, rfl, rfl⟩
    | ok outcome =>
      obtain ⟨_, _, _, -, -, -, -, -, -, rfl⟩ := promoteDecision_ok hd
      rcases commit_fault fresh _ _ failure with hrefused | ⟨hok, he⟩
      · exact .inl hrefused
      · exact .inr ⟨_, adopted, fresh, hok, rfl, he⟩

/-- A promotion replaces the index when it would succeed and no failure comes before the rename. -/
def PromotionLands (serde : Serde Bytes) (maxBytes : Nat) (registry : Registry Bytes)
    (modelId : String) (target : LifecycleStage) (expected : Nat) (reason : String) (now : Nat)
    (fault : Option IoFault) : Prop :=
  (∃ record, (promote serde maxBytes registry.2 registry.1 modelId target expected reason now
    none).result = .ok record) ∧ ∀ failure, fault = some failure → failure.step.afterRename

/-- A promotion that does not land is refused and leaves the model out of service. -/
theorem OutOfService.not_landed (h : OutOfService serde modelId (state, disk))
    {fault : Option IoFault} (hl : ¬ PromotionLands serde maxBytes (state, disk) modelId target
      expected reason now fault) :
    let reply := promote serde maxBytes disk state modelId target expected reason now fault
    OutOfService serde modelId reply.registry ∧ ∃ error, reply.result = .error error := by
  have hquiet : ∀ error, (promote serde maxBytes disk state modelId target expected reason now
      none).result = .error error → OutOfService serde modelId
        (promote serde maxBytes disk state modelId target expected reason now none).registry := by
    intro error he
    let call : Call := .promote modelId target expected reason none
    have hcall : (call.perform serde maxBytes now disk state).result = .error error :=
      congrArg (Except.map Answer.record) he
    exact OutOfService.refused h rfl hcall
  cases fault with
  | none =>
    cases he : (promote serde maxBytes disk state modelId target expected reason now none).result with
    | error error => exact ⟨hquiet error he, error, he⟩
    | ok record => exact absurd ⟨⟨record, he⟩, fun _ hf => nomatch hf⟩ hl
  | some failure =>
    rcases promote_fault failure with ⟨error, he, hreply⟩ | ⟨record, adopted, fresh, hok, hr, hreply⟩
    · intro reply
      rw [show reply = _ from hreply]
      exact ⟨hquiet error he, error, he⟩
    · intro reply
      have hearly : failure.step.afterRename = false := by
        by_contra hs
        exact hl ⟨⟨record, hok⟩, by rintro _ ⟨⟩; simpa using hs⟩
      rw [show reply = _ from hreply, hearly]
      exact ⟨h.refreshed hr, _, rfl⟩

private theorem promote_writes {fault : Option IoFault} {answer : Answer} :
    (Call.promote modelId target expected reason fault).decision serde maxBytes now disk state ≠
      .ok (.keep answer) := by
  simp only [Call.decision]
  cases hd : promoteDecision serde maxBytes disk modelId target expected reason now state with
  | error error => intro he; cases he
  | ok outcome =>
    obtain ⟨_, _, _, -, -, -, -, -, -, rfl⟩ := promoteDecision_ok hd
    intro he
    cases he

/-- A promotion that lands serves the model, and is answered by an error if anything failed. -/
theorem PromotionLands.served {fault : Option IoFault} (hs : target.isServing)
    (hl : PromotionLands serde maxBytes (state, disk) modelId target expected reason now fault) :
    let reply := promote serde maxBytes disk state modelId target expected reason now fault
    DurablyServed serde modelId reply.disk ∧ ((∃ record, reply.result = .ok record) ↔ fault = none) := by
  obtain ⟨⟨record, hok⟩, hfault⟩ := hl
  have hquiet : DurablyServed serde modelId
      (promote serde maxBytes disk state modelId target expected reason now none).disk := by
    let call : Call := .promote modelId target expected reason none
    have hcall : (call.perform serde maxBytes now disk state).result = .ok (.record record) :=
      congrArg (Except.map Answer.record) hok
    rcases (call.effect serde maxBytes now disk state).of_ok hcall with
      ⟨hp, -⟩ | ⟨adopted, fresh, -, -, ⟨hkeep, -⟩ | hreplaces⟩
    · cases hp
    · exact absurd hkeep promote_writes
    · exact served_of_replaces hs hreplaces
  cases fault with
  | none => exact ⟨hquiet, fun _ => rfl, fun _ => ⟨record, hok⟩⟩
  | some failure =>
    rcases promote_fault failure with ⟨error, he, -⟩ | ⟨_, adopted, fresh, -, -, hreply⟩
    · rw [hok] at he
      cases he
    · intro reply
      rw [show reply = _ from hreply, hfault failure rfl]
      exact ⟨hquiet, fun ⟨_, hc⟩ => (nomatch hc), fun hc => (nomatch hc)⟩

end Faults

end Gail.Elm
