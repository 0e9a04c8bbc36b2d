import Gail.Elm.RegistryRuns

/-! Runs in which every publication brings a new model: the artifact of a record stays on disk as it was published, so what
a process loads for a champion is the model the index names. The index, the record it points to and the champions
loaded by the process that wrote last agree on the champion of a task. -/
namespace Gail.Elm
open Gail.Library RegistryFile
section Published
variable {Bytes : Type} {serde : Serde Bytes} {maxBytes now : Nat} {disk : Disk Bytes}

/-- The file of a record holds the artifact the record was made for. -/
structure RegistryRecord.Backed (serde : Serde Bytes) (disk : Disk Bytes)
    (record : RegistryRecord) : Prop where
  path : record.artifactFile = artifactPath record.modelId
  stored : ∃ artifact bytes, disk record.artifactFile = some bytes ∧
    serde.artifactToVec artifact = .ok bytes ∧
    artifact.isOf record record.modelId record.taskId

theorem loadArtifact_ok {path : String} {loaded : ElmArtifact}
    (h : loadArtifact serde disk path maxBytes = .ok loaded) :
    ∃ bytes, disk path = some bytes ∧ serde.artifactFromSlice bytes = .ok loaded := by
  unfold loadArtifact at h
  cases hd : disk path with
  | none => rw [hd] at h; cases h
  | some bytes =>
    rw [hd] at h
    dsimp only at h
    split at h
    · cases h
    cases hs : serde.artifactFromSlice bytes with
    | error error => rw [hs] at h; cases h
    | ok artifact =>
      rw [hs] at h
      dsimp only at h
      split at h
      · cases h
      · cases h; exact ⟨bytes, rfl, hs⟩

theorem RegistryRecord.Backed.load {record : RegistryRecord} {loaded : ElmArtifact}
    (h : record.Backed serde disk)
    (hl : loadArtifact serde disk record.artifactFile maxBytes = .ok loaded) :
    loaded.isOf record record.modelId record.taskId := by
  obtain ⟨artifact, bytes, hd, hv, hi⟩ := h.stored
  obtain ⟨bytes', hd', hs⟩ := loadArtifact_ok hl
  cases Option.some.inj (hd.symm.trans hd')
  have ha := serde.artifact_round_trip hv hs
  rw [ElmArtifact.isOf_iff] at hi ⊢
  rwa [ha.metadata, ha.contentSha256]

section Loading
variable {file : RegistryFile} {champions : Champions}

/-- The loaded champions are the models that the index names. -/
def RegistryState.Agrees (state : RegistryState) : Prop :=
  ∀ task : String, (state.champions[task]?).map (fun artifact : ElmArtifact => artifact.metadata.modelId) =
    state.file.championByTask[task]?

private theorem champions_of_fold {step : Champions → String × String → Except ElmError Champions}
    {entries : List (String × String)}
    (hstep : ∀ loaded entry next, entry ∈ entries → step loaded entry = .ok next →
      ∃ artifact : ElmArtifact, artifact.metadata.modelId = entry.2 ∧
        next = loaded.insert entry.1 artifact)
    (hkeys : entries.Pairwise fun a b => a.1 ≠ b.1) {loaded : Champions}
    (h : entries.foldlM step loaded = .ok champions) :
    (∀ entry ∈ entries,
      (champions[entry.1]?).map (fun artifact : ElmArtifact => artifact.metadata.modelId) = some entry.2) ∧
    ∀ task : String, (∀ entry ∈ entries, entry.1 ≠ task) → champions[task]? = loaded[task]? := by
  induction entries generalizing loaded with
  | nil => cases h; exact ⟨by simp, fun _ _ => rfl⟩
  | cons entry entries ih =>
    obtain ⟨hfirst, hrest⟩ := List.pairwise_cons.mp hkeys
    rw [List.foldlM_cons] at h
    cases hs : step loaded entry with
    | error error => rw [hs] at h; cases h
    | ok next =>
      rw [hs] at h
      obtain ⟨artifact, hid, rfl⟩ := hstep loaded entry next List.mem_cons_self hs
      obtain ⟨hin, hout⟩ := ih (fun l e n he => hstep l e n (List.mem_cons_of_mem _ he)) hrest h
      refine ⟨?_, ?_⟩
      · intro other hother
        rcases List.mem_cons.mp hother with rfl | hmem
        · rw [hout other.1 fun e he => (hfirst e he).symm]
          simp [hid]
        · exact hin other hmem
      · intro task htask
        have hne := htask entry List.mem_cons_self
        rw [hout task fun e he => htask e (List.mem_cons_of_mem _ he)]
        simp [Std.TreeMap.getElem?_insert, hne]

private theorem champions_agree {step : Champions → String × String → Except ElmError Champions}
    (hstep : ∀ loaded task modelId next, file.championByTask[task]? = some modelId →
      step loaded (task, modelId) = .ok next → ∃ artifact : ElmArtifact,
        artifact.metadata.modelId = modelId ∧ next = loaded.insert task artifact)
    (h : file.championByTask.toList.foldlM step ∅ = .ok champions) :
    RegistryState.Agrees { file, champions } := by
  have hmem : ∀ {task modelId}, (task, modelId) ∈ file.championByTask.toList ↔
      file.championByTask[task]? = some modelId :=
    Std.TreeMap.mem_toList_iff_getElem?_eq_some
  have hkeys : file.championByTask.toList.Pairwise fun a b => a.1 ≠ b.1 :=
    (Std.TreeMap.distinct_keys_toList (t := file.championByTask)).imp fun hne he => hne (by simp [he])
  obtain ⟨hin, hout⟩ := champions_of_fold
    (fun loaded entry next he => hstep loaded entry.1 entry.2 next (hmem.mp he)) hkeys h
  intro task
  cases hc : file.championByTask[task]? with
  | some modelId => exact hin (task, modelId) (hmem.mpr hc)
  | none =>
    have hnone := hout task (by
      rintro ⟨other, modelId⟩ he rfl
      rw [hmem.mp he] at hc
      cases hc)
    rw [show champions[task]? = none by rw [hnone]; rfl]
    rfl

variable (hw : file.WellFormed) (hb : ∀ record ∈ file.records, record.Backed serde disk)
include hw hb

variable (maxBytes) in
private theorem champion_entry {task modelId : String}
    (hc : file.championByTask[task]? = some modelId) :
    ∃ record, file.record modelId = some record ∧ record.servesTask task ∧
      ∀ artifact, loadArtifact serde disk record.artifactFile maxBytes = .ok artifact →
        artifact.isOf record modelId task ∧ artifact.metadata.modelId = modelId := by
  obtain ⟨record, hr, hs⟩ := hw.champion task modelId hc
  refine ⟨record, hr, hs, ?_⟩
  intro artifact hl
  have hi := (hb record (record_mem hr)).load hl
  rw [record_modelId hr, (RegistryRecord.servesTask_iff.mp hs).1] at hi
  exact ⟨hi, (ElmArtifact.isOf_iff.mp hi).1⟩

theorem loadChampions_agree (h : loadChampions serde disk file maxBytes = .ok champions) :
    RegistryState.Agrees { file, champions } := by
  refine champions_agree ?_ h
  intro loaded task modelId next hc hn
  obtain ⟨record, hr, hs, hload⟩ := champion_entry maxBytes hw hb hc
  unfold loadChampion at hn
  rw [hr] at hn
  simp only [hs, not_true_eq_false, if_false] at hn
  cases hl : loadArtifact serde disk record.artifactFile maxBytes with
  | error error => rw [hl] at hn; cases hn
  | ok artifact =>
    obtain ⟨hi, hid⟩ := hload artifact hl
    rw [hl] at hn
    dsimp only at hn
    rw [if_pos hi] at hn
    cases hn
    exact ⟨artifact, hid, rfl⟩

theorem restoreChampions_agree (h : restoreChampions serde disk file maxBytes = .ok champions) :
    RegistryState.Agrees { file, champions } := by
  refine champions_agree ?_ h
  intro loaded task modelId next hc hn
  obtain ⟨record, hr, hs, hload⟩ := champion_entry maxBytes hw hb hc
  unfold restoreChampion at hn
  rw [hr] at hn
  simp only [hs, not_true_eq_false, if_false] at hn
  cases hl : loadArtifact serde disk record.artifactFile maxBytes with
  | error error => rw [hl] at hn; cases hn
  | ok artifact =>
    obtain ⟨hi, hid⟩ := hload artifact hl
    rw [hl] at hn
    dsimp only at hn
    rw [if_pos hi] at hn
    cases hn
    exact ⟨artifact, hid, rfl⟩

end Loading

section Storing
variable {call : Call} {artifact : ElmArtifact} {after : Disk Bytes}

/-- Only the file of the published model can change, and only by a publication. -/
theorem Call.store_ne {path : String}
    (h : ∀ artifact expected faults, call = .publishCandidate artifact expected faults →
      path ≠ artifactPath artifact.metadata.modelId) :
    (call.store serde maxBytes disk).2 path = disk path := by
  cases call with
  | publishCandidate artifact expected faults =>
    have hne := h artifact expected faults rfl
    simp only [store]
    cases checkArtifact serde maxBytes artifact with
    | error error => rfl
    | ok bytes =>
      cases hf : faults.artifact with
      | none => exact Function.update_of_ne hne ..
      | some fault =>
        simp only [writeAtomic]
        split
        · exact Function.update_of_ne hne ..
        · rfl
  | _ => rfl

/-- A call replaces the index and the file it stores, and no other. -/
theorem Call.Effect.disk_ne {state : RegistryState} {reply : Reply Bytes Answer} {path : String}
    (h : call.Effect serde maxBytes now disk state reply) (hi : path ≠ indexPath) :
    reply.disk path = disk path ∨ ∃ adopted fresh next answer,
      call.precheck serde maxBytes = none ∧
      refreshLocked serde maxBytes disk state = .ok (adopted, fresh) ∧
      call.decision serde maxBytes now disk fresh = .ok (.write next answer) ∧
      reply.disk path = (call.store serde maxBytes disk).2 path := by
  have hreplaced : ∀ {fresh next answer after},
      call.Replaces serde maxBytes now disk fresh next answer after →
      after path = (call.store serde maxBytes disk).2 path := by
    intro fresh next answer after hr
    obtain ⟨bytes, -, rfl⟩ := hr.written
    exact Function.update_of_ne hi ..
  cases h with
  | early result h => exact .inl rfl
  | unread error hp h => exact .inl rfl
  | refused adopted fresh error hp hr h => exact .inl rfl
  | kept adopted fresh answer hp hr h => exact .inl rfl
  | halted adopted fresh next answer error hp hr h =>
    exact .inr ⟨adopted, fresh, next, answer, hp, hr, h, rfl⟩
  | interrupted adopted fresh next answer fault after hp hr h hf hs =>
    exact .inr ⟨adopted, fresh, next, answer, hp, hr, h.decided, hreplaced h⟩
  | written adopted fresh next answer after hp hr h =>
    exact .inr ⟨adopted, fresh, next, answer, hp, hr, h.decided, hreplaced h⟩

theorem checkArtifact_ok {bytes : Bytes} (h : checkArtifact serde maxBytes artifact = .ok bytes) :
    serde.artifactToVec artifact = .ok bytes := by
  unfold checkArtifact at h
  split at h
  · cases h
  split at h
  · cases h
  · rename_i hv
    split at h
    · cases h
    · cases h; exact hv

/-- A publication that stores its artifact backs its record. -/
theorem publishedRecord_backed {expected revision : Nat} {faults : PublishFaults}
    (h : ((Call.publishCandidate artifact expected faults).store serde maxBytes disk).1 = .ok ()) :
    (publishedRecord artifact revision now).Backed serde
      ((Call.publishCandidate artifact expected faults).store serde maxBytes disk).2 := by
  refine ⟨rfl, ?_⟩
  simp only [Call.store] at h ⊢
  cases hc : checkArtifact serde maxBytes artifact with
  | error error => rw [hc] at h; cases h
  | ok bytes =>
    rw [hc] at h
    cases hf : faults.artifact with
    | some fault => simp [writeAtomic, hf] at h
    | none =>
      refine ⟨artifact, bytes, Function.update_self .., checkArtifact_ok hc, ?_⟩
      exact ElmArtifact.isOf_iff.mpr ⟨rfl, rfl, rfl⟩

theorem RegistryRecord.Backed.congr {record : RegistryRecord} (h : record.Backed serde disk)
    (he : after record.artifactFile = disk record.artifactFile) : record.Backed serde after :=
  ⟨h.path, by rw [he]; exact h.stored⟩

theorem RegistryRecord.Backed.of_sameModel {a b : RegistryRecord} (h : a.Backed serde disk)
    (hs : a.SameModel b) : b.Backed serde disk := by
  obtain ⟨artifact, bytes, hd, hv, hi⟩ := h.stored
  refine ⟨by rw [← hs.artifactFile, ← hs.modelId]; exact h.path, artifact, bytes, ?_, hv, ?_⟩
  · rw [← hs.artifactFile]; exact hd
  · rw [ElmArtifact.isOf_iff] at hi ⊢
    rwa [← hs.modelId, ← hs.taskId, ← hs.digest]

end Storing

section Sound
variable {w : World Bytes}

/-- The step is a publication that passes its checks, so it writes the file of the artifact. -/
def World.Publishes (serde : Serde Bytes) (w : World Bytes) (input : Nat × Action)
    (artifact : ElmArtifact) : Prop :=
  ∃ maxBytes state adopted fresh faults now, w.process input.1 = .idle maxBytes state ∧
    input.2 = .call (.publishCandidate artifact fresh.file.revision faults) now ∧
    (∃ bytes, checkArtifact serde maxBytes artifact = .ok bytes) ∧
    refreshLocked serde maxBytes w.disk state = .ok (adopted, fresh)

/-- What a publication stores belongs to a model that no index carries. -/
def World.BringsNew (serde : Serde Bytes) (w : World Bytes) (input : Nat × Action) : Prop :=
  ∀ artifact, w.Publishes serde input artifact → ∀ file, w.Sees serde file →
    ∀ record ∈ file.records, record.modelId ≠ artifact.metadata.modelId

structure IndexSound (serde : Serde Bytes) (disk : Disk Bytes) (file : RegistryFile) : Prop where
  wellFormed : file.WellFormed
  distinct : (file.records.map RegistryRecord.modelId).Nodup
  backed : ∀ record ∈ file.records, record.Backed serde disk

structure World.Sound (serde : Serde Bytes) (w : World Bytes) : Prop where
  durable : ∃ file, durable serde w.disk = some file
  seen : ∀ file, w.Sees serde file → IndexSound serde w.disk file
  agree : ∀ p state, (w.process p).memory = some state → state.Agrees

theorem World.sound_start {file : RegistryFile} (hd : Elm.durable serde disk = some file)
    (h : IndexSound serde disk file) : (World.start disk).Sound serde where
  durable := ⟨file, hd⟩
  seen found hf := by
    cases Option.some.inj (hd.symm.trans (World.sees_start.mp hf))
    exact h
  agree p state hm := nomatch hm

theorem World.sound_empty : (World.empty : World Bytes).Sound serde :=
  World.sound_start rfl ⟨wellFormed_empty, List.nodup_nil, fun _ h => nomatch h⟩

/-- A file changes at a step only if it is the index or the artifact of a publication. -/
theorem World.next_disk_ne {input : Nat × Action} {path : String} (hi : path ≠ indexPath)
    (h : ∀ artifact, w.Publishes serde input artifact →
      path ≠ artifactPath artifact.metadata.modelId) :
    (w.next serde input).disk path = w.disk path := by
  obtain ⟨process, hs, -⟩ := w.next_steps serde input
  rcases hs.quiet_or_called with ⟨he, -⟩ | ⟨maxBytes, state, call, now, hp, ha, -, he, -⟩
  · rw [he]
  rw [he]
  have hstore : ∀ {adopted fresh next answer}, call.precheck serde maxBytes = none →
      refreshLocked serde maxBytes w.disk state = .ok (adopted, fresh) →
      call.decision serde maxBytes now w.disk fresh = .ok (.write next answer) →
      (call.store serde maxBytes w.disk).2 path = w.disk path := by
    intro adopted fresh next answer hc hr hd
    apply Call.store_ne
    rintro artifact expected faults rfl
    apply h artifact
    rcases Call.write_records hd with ⟨_, _, hcall, -⟩ | ⟨-, hcall⟩
    · cases hcall
      exact ⟨maxBytes, state, adopted, fresh, faults, now, hp, ha, Call.precheck_publish hc, hr⟩
    · exact absurd rfl (hcall artifact expected faults)
  rcases (call.effect serde maxBytes now w.disk state).disk_ne hi with
    hsame | ⟨adopted, fresh, next, answer, hc, hr, hd, hsame⟩
  · exact hsame
  · exact hsame.trans (hstore hc hr hd)

/-- No step touches the artifact of a record, when publications bring new models. -/
theorem World.Sound.artifact_kept {input : Nat × Action} (h : w.Sound serde)
    (hn : w.BringsNew serde input) {file : RegistryFile} (hf : w.Sees serde file)
    {record : RegistryRecord} (hr : record ∈ file.records) :
    (w.next serde input).disk record.artifactFile = w.disk record.artifactFile := by
  have hpath := ((h.seen file hf).backed record hr).path
  apply World.next_disk_ne
  · rw [hpath]; exact artifactPath_ne_indexPath _
  · intro artifact hp he
    rw [hpath] at he
    exact hn artifact hp file hf record hr (artifactPath_injective he)

end Sound

section Writing
variable {state next : RegistryState}

/-- A record that may serve after a write is one that was there, so its artifact is. -/
private theorem backed_of_serves (hwrite : Writes serde maxBytes disk state next)
    (hb : ∀ record ∈ state.file.records, record.Backed serde disk) {record : RegistryRecord}
    {task : String} (hm : record ∈ next.file.records) (hs : record.servesTask task) :
    record.Backed serde disk := by
  obtain ⟨i, hi⟩ := List.mem_iff_getElem?.mp hm
  by_cases hl : i < state.file.records.length
  · obtain ⟨old, hold, hmoves⟩ := hwrite.extends.records.origin hl hi
    exact (hb old (List.mem_of_getElem? hold)).of_sameModel hmoves.1
  · have hstage := hwrite.added (not_lt.mp hl) hi
    have hserving := (RegistryRecord.servesTask_iff.mp hs).2.2
    rw [hstage] at hserving
    cases hserving

private theorem fallback_modelId {outgoing artifact : ElmArtifact} {modelId : String}
    {candidates : List RegistryRecord} (hb : ∀ record ∈ candidates, record.Backed serde disk)
    (hf : fallback serde maxBytes disk outgoing candidates = some (modelId, artifact)) :
    artifact.metadata.modelId = modelId := by
  obtain ⟨newest, hn, rfl, hc⟩ := fallback_eq_some hf
  have hl := (compatibleArtifact_eq_some.mp hc).1
  exact (ElmArtifact.isOf_iff.mp ((hb newest (maxByKey_spec hn).1).load hl)).1

private theorem installFallback_agrees {file : RegistryFile} {champions : Champions}
    {chosen : Option (String × ElmArtifact)} (task : String)
    (h : RegistryState.Agrees { file, champions })
    (hc : ∀ modelId artifact, chosen = some (modelId, artifact) →
      artifact.metadata.modelId = modelId) :
    (installFallback file champions task chosen).Agrees := by
  intro other
  rw [installFallback_champion, installFallback_champions]
  by_cases ht : task = other
  · rw [if_pos ht, if_pos ht]
    cases chosen with
    | none => rfl
    | some found => exact congrArg some (hc found.1 found.2 rfl)
  · rw [if_neg ht, if_neg ht]
    exact h other

/-- A write keeps the loaded champions in agreement with the index. -/
theorem Writes.agrees (hwrite : Writes serde maxBytes disk state next)
    (hb : ∀ record ∈ state.file.records, record.Backed serde disk) (ha : state.Agrees) :
    next.Agrees := by
  have hserves : ∀ {record : RegistryRecord} {task : String}, record ∈ next.file.records →
      record.servesTask task → record.Backed serde disk := backed_of_serves hwrite hb
  cases hwrite with
  | published artifact now => exact ha
  | claimed index record modelId maximum now hp hs hf hm => exact ha
  | promoted index record modelId target artifact reason now hp ht hf hl hi serving hserving =>
    obtain ⟨champions, he⟩ := promotedState_file disk state (promotedFile state.file index modelId
      target serving artifact.metadata.taskId reason now) modelId artifact serving
    rw [he] at hserves
    have hid := (ElmArtifact.isOf_iff.mp hi).1
    cases serving with
    | true =>
      intro task
      simp only [promotedState, promotedFile, if_true, Std.TreeMap.getElem?_insert,
        Std.LawfulEqCmp.compare_eq_iff_eq]
      by_cases ht : artifact.metadata.taskId = task
      · rw [if_pos ht, if_pos ht, Option.map_some, hid]
      · rw [if_neg ht, if_neg ht]
        exact ha task
    | false =>
      simp only [promotedState, Bool.false_eq_true, if_false]
      split
      · refine installFallback_agrees _ ha ?_
        intro found fallen hfound
        refine fallback_modelId ?_ hfound
        intro candidate hcandidate
        obtain ⟨hmem, hs⟩ := List.mem_filter.mp hcandidate
        exact hserves hmem hs
      · exact ha
  | rolledBack task currentId currentArtifact index record key reason now hc hca hp ht =>
    obtain ⟨champions, he⟩ := rolledBackState_file state
      (rolledBackFile state.file index reason now) currentId (fallback serde maxBytes disk
        currentArtifact (rollbackCandidates (rolledBackFile state.file index reason now) task
          currentId)) task key reason
    rw [he] at hserves
    refine installFallback_agrees task ha ?_
    intro found fallen hfound
    refine fallback_modelId ?_ hfound
    intro candidate hcandidate
    obtain ⟨hmem, hs⟩ := List.mem_filter.mp hcandidate
    exact hserves hmem (Bool.and_eq_true_iff.mp hs).1

end Writing

section Step
variable {w : World Bytes} {input : Nat × Action}

/-- Where the memory of a process comes from. -/
theorem Process.Steps.memory {after : Disk Bytes} {process next : Process} {action : Action}
    {answer : Option (Except ElmError Answer)} {state : RegistryState}
    (h : Process.Steps serde disk process action next after answer)
    (hm : next.memory = some state) :
    process.memory = some state ∨
      (process.Holds state.file ∧ ∃ maxBytes,
        restoreChampions serde disk state.file maxBytes = .ok state.champions ∨
          loadChampions serde disk state.file maxBytes = .ok state.champions) ∨
      ∃ maxBytes old, ∃ call : Call, ∃ now, process = .idle maxBytes old ∧
        state = (call.perform serde maxBytes now disk old).state ∧ answer.isSome := by
  cases h with
  | stays => exact .inl hm
  | closes => cases hm
  | opens maxBytes found h => cases hm
  | opened maxBytes found champions h =>
    cases hm
    exact .inr (.inl ⟨.opening .., maxBytes, .inl h⟩)
  | refreshes maxBytes state fresh h => exact .inl hm
  | abandoned maxBytes state fresh => exact .inl hm
  | refreshed maxBytes old written fresh adopted h =>
    cases hm
    rcases adoptFresh_ok h with ⟨-, -, rfl⟩ | ⟨-, -, he, hl⟩
    · exact .inl rfl
    · exact .inr (.inl ⟨he ▸ .fresh .., maxBytes, .inr (he ▸ hl)⟩)
  | called maxBytes old call now =>
    cases hm
    exact .inr (.inr ⟨maxBytes, old, call, now, rfl, rfl, rfl⟩)

/-- What a call works on is sound, whether its refresh adopted the index or not. -/
theorem World.Sound.fresh (h : w.Sound serde) {p : Nat} {state fresh : RegistryState}
    {adopted : Bool} (hp : w.process p = .idle maxBytes state)
    (hr : refreshLocked serde maxBytes w.disk state = .ok (adopted, fresh)) :
    w.Sees serde fresh.file ∧ fresh.Agrees := by
  obtain ⟨found, hd, ha⟩ := refreshLocked_ok hr
  rcases adoptFresh_ok ha with ⟨-, -, rfl⟩ | ⟨-, -, he, hl⟩
  · exact ⟨.inr ⟨p, by rw [hp]; exact .idle ..⟩, h.agree p fresh (by rw [hp]; rfl)⟩
  · subst he
    have hs := h.seen _ (.inl hd)
    exact ⟨.inl hd, loadChampions_agree hs.wellFormed hs.backed hl⟩

/-- The index that a call writes is sound in the directory the call leaves. -/
private theorem written_sound (h : w.Sound serde) (hn : w.BringsNew serde input) {call : Call}
    {state fresh next : RegistryState} {adopted : Bool} {answer : Answer}
    (hp : w.process input.1 = .idle maxBytes state) (ha : input.2 = .call call now)
    (hc : call.precheck serde maxBytes = none)
    (hr : refreshLocked serde maxBytes w.disk state = .ok (adopted, fresh))
    (hw : call.Replaces serde maxBytes now w.disk fresh next answer (w.next serde input).disk) :
    IndexSound serde (w.next serde input).disk next.file := by
  obtain ⟨hseen, -⟩ := h.fresh hp hr
  have hold := h.seen _ hseen
  have hwrite := Call.writes hw.decided
  have hkept : ∀ i record, i < fresh.file.records.length →
      next.file.records[i]? = some record → record.Backed serde (w.next serde input).disk := by
    intro i record hi hrecord
    obtain ⟨old, ho, hmoves⟩ := hwrite.extends.records.origin hi hrecord
    have hmem := List.mem_of_getElem? ho
    exact ((hold.backed old hmem).congr (h.artifact_kept hn hseen hmem)).of_sameModel hmoves.1
  refine ⟨hwrite.wellFormed hold.wellFormed, ?_, ?_⟩
  · rcases Call.write_records hw.decided with ⟨artifact, faults, rfl, rfl⟩ | ⟨hl, -⟩
    · simp only [publishedFile, List.map_append, List.map_cons, List.map_nil]
      refine List.nodup_append.mpr ⟨hold.distinct, by simp, ?_⟩
      rintro modelId hmem _ hsingle rfl
      obtain ⟨record, hrecord, rfl⟩ := List.mem_map.mp hmem
      have hpublishes : w.Publishes serde input artifact :=
        ⟨maxBytes, state, adopted, fresh, faults, now, hp, ha, Call.precheck_publish hc, hr⟩
      exact hn artifact hpublishes _ hseen record hrecord (List.mem_singleton.mp hsingle)
    · rw [hwrite.extends.records.map_eq (fun a b hm => hm.1.modelId) hl]
      exact hold.distinct
  · intro record hrecord
    obtain ⟨i, hi⟩ := List.mem_iff_getElem?.mp hrecord
    by_cases hl : i < fresh.file.records.length
    · exact hkept i record hl hi
    · rcases Call.write_records hw.decided with ⟨artifact, faults, rfl, rfl⟩ | ⟨hlen, -⟩
      · have hmem := List.mem_of_getElem? (List.getElem?_append_right (not_lt.mp hl) ▸ hi)
        obtain ⟨bytes, -, hafter⟩ := hw.written
        rw [List.mem_singleton.mp hmem]
        apply (publishedRecord_backed hw.stored).congr
        rw [hafter]
        exact Function.update_of_ne (artifactPath_ne_indexPath _) ..
      · have := (List.getElem?_eq_some_iff.mp hi).1
        omega

/-- What was sound before a step is sound in the directory after it. -/
theorem World.Sound.kept (h : w.Sound serde) (hn : w.BringsNew serde input) {file : RegistryFile}
    (hf : w.Sees serde file) : IndexSound serde (w.next serde input).disk file where
  wellFormed := (h.seen file hf).wellFormed
  distinct := (h.seen file hf).distinct
  backed record hr := ((h.seen file hf).backed record hr).congr (h.artifact_kept hn hf hr)

/-- A step that is no call leaves its process with champions that agree. -/
private theorem quiet_agrees (h : w.Sound serde) {p : Nat} {action : Action} {process : Process}
    {after : Disk Bytes} {memory : RegistryState}
    (hs : Process.Steps serde w.disk (w.process p) action process after none)
    (hm : process.memory = some memory) : memory.Agrees := by
  rcases hs.memory hm with hold | ⟨hh, maxBytes, hl⟩ | ⟨_, _, _, _, -, -, hsome⟩
  · exact h.agree p memory hold
  · have hfile := h.seen _ (.inr ⟨p, hh⟩)
    rcases hl with hl | hl
    · exact restoreChampions_agree hfile.wellFormed hfile.backed hl
    · exact loadChampions_agree hfile.wellFormed hfile.backed hl
  · cases hsome

/-- A call leaves a sound state in its process and a sound index in the directory. -/
private theorem called_sound (h : w.Sound serde) (hn : w.BringsNew serde input) {call : Call}
    {state : RegistryState} (hp : w.process input.1 = .idle maxBytes state)
    (ha : input.2 = .call call now)
    (he : (w.next serde input).disk = (call.perform serde maxBytes now w.disk state).disk) :
    IndexSound serde (w.next serde input).disk
        (call.perform serde maxBytes now w.disk state).state.file ∧
      (call.perform serde maxBytes now w.disk state).state.Agrees ∧
      ∃ file, Elm.durable serde (w.next serde input).disk = some file ∧
        IndexSound serde (w.next serde input).disk file := by
  obtain ⟨file, hd⟩ := h.durable
  rcases (call.effect serde maxBytes now w.disk state).kept_or_replaced with
    ⟨hindex, hm⟩ | ⟨adopted, fresh, written, granted, hc, hr, hw, hm⟩
  · have hdurable : Elm.durable serde (w.next serde input).disk = some file := by
      rw [he, durable_congr hindex, hd]
    have hfile := h.kept hn (.inl hd)
    rcases hm with hm | ⟨adopted, hr⟩
    · rw [hm]
      exact ⟨h.kept hn (.inr ⟨input.1, by rw [hp]; exact .idle ..⟩),
        h.agree input.1 state (by rw [hp]; rfl), file, hdurable, hfile⟩
    · obtain ⟨hseen, hagree⟩ := h.fresh hp hr
      exact ⟨h.kept hn hseen, hagree, file, hdurable, hfile⟩
  · rw [← he] at hw
    obtain ⟨hseen, hagree⟩ := h.fresh hp hr
    have hwritten := written_sound h hn hp ha hc hr hw
    rcases hm with ⟨hm, -⟩ | ⟨hm, -⟩
    · rw [hm]
      exact ⟨hwritten, (Call.writes hw.decided).agrees (h.seen _ hseen).backed hagree,
        written.file, hw.durable, hwritten⟩
    · rw [hm]
      exact ⟨h.kept hn hseen, hagree, written.file, hw.durable, hwritten⟩

/-- Soundness is kept by every step whose publication, if it is one, brings a new model. -/
theorem World.Sound.next (h : w.Sound serde) (hn : w.BringsNew serde input) :
    (w.next serde input).Sound serde := by
  obtain ⟨process, hs, hp⟩ := w.next_steps serde input
  have hother : ∀ q, q ≠ input.1 → (w.next serde input).process q = w.process q := by
    intro q hq
    rw [hp, Function.update_of_ne hq]
  have hself : (w.next serde input).process input.1 = process := by
    rw [hp, Function.update_self]
  -- The other processes hold what they held; the case split is about the one that stepped.
  rcases hs.quiet_or_called with
    ⟨he, hanswer, hk⟩ | ⟨maxBytes, state, call, now, hi, ha, hprocess, he, -⟩
  · refine ⟨by rw [he]; exact h.durable, ?_, ?_⟩
    · rintro file (hd | ⟨q, hq⟩)
      · exact h.kept hn (.inl (he ▸ hd))
      · by_cases hqp : q = input.1
        · rw [hqp, hself] at hq
          exact h.kept hn ((hk file hq).elim (fun hh => .inr ⟨_, hh⟩) .inl)
        · rw [hother q hqp] at hq
          exact h.kept hn (.inr ⟨q, hq⟩)
    · intro q memory hm
      by_cases hqp : q = input.1
      · rw [hqp, hself] at hm
        rw [hanswer] at hs
        exact quiet_agrees h hs hm
      · rw [hother q hqp] at hm
        exact h.agree q memory hm
  · obtain ⟨hsound, hagree, file, hd, hfile⟩ := called_sound h hn hi ha he
    refine ⟨⟨file, hd⟩, ?_, ?_⟩
    · rintro found (hfound | ⟨q, hq⟩)
      · cases Option.some.inj (hd.symm.trans hfound)
        exact hfile
      · by_cases hqp : q = input.1
        · rw [hqp, hself, hprocess] at hq
          cases hq
          exact hsound
        · rw [hother q hqp] at hq
          exact h.kept hn (.inr ⟨q, hq⟩)
    · intro q memory hm
      by_cases hqp : q = input.1
      · rw [hqp, hself, hprocess] at hm
        cases hm
        exact hagree
      · rw [hother q hqp] at hm
        exact h.agree q memory hm

/-- Soundness over runs whose publications bring new models. -/
theorem World.Sound.run (h : w.Sound serde) {inputs : List (Nat × Action)}
    (hn : Along (World.next serde) (World.BringsNew serde) w inputs) :
    (Library.run (World.next serde) w inputs).Sound serde :=
  run_invariant (World.next serde) (fun _ _ hs hb => hs.next hb) h hn

end Step

end Published

section Agreement
variable {Bytes : Type} {serde : Serde Bytes} {w : World Bytes} {input : Nat × Action}

/-- The step is a call that succeeds and replaces the index. -/
def World.Commits (serde : Serde Bytes) (w : World Bytes) (input : Nat × Action) : Prop :=
  ∃ maxBytes state call now adopted fresh next answer,
    w.process input.1 = .idle maxBytes state ∧ input.2 = .call call now ∧
    refreshLocked serde maxBytes w.disk state = .ok (adopted, fresh) ∧
    call.decision serde maxBytes now w.disk fresh = .ok (.write next answer) ∧
    w.answer serde input = some (.ok answer)

/-- The step leaves the index as it is. -/
def World.KeepsIndex (serde : Serde Bytes) (w : World Bytes) (input : Nat × Action) : Prop :=
  (w.next serde input).disk indexPath = w.disk indexPath

/-- Whatever the process holds is the durable index. -/
def World.Current (serde : Serde Bytes) (w : World Bytes) (p : Nat) : Prop :=
  ∀ copy, (w.process p).Holds copy → durable serde w.disk = some copy

theorem World.Commits.current (h : w.Commits serde input) :
    (w.next serde input).Current serde input.1 := by
  obtain ⟨maxBytes, state, call, now, adopted, fresh, next, answer, hp, ha, hr, hd, hanswer⟩ := h
  have hstep : (w.process input.1).step serde w.disk input.2 =
      (.idle maxBytes (call.perform serde maxBytes now w.disk state).state,
        (call.perform serde maxBytes now w.disk state).disk,
        some (call.perform serde maxBytes now w.disk state).result) := by
    rw [hp, ha]; rfl
  have hresult : (call.perform serde maxBytes now w.disk state).result = .ok answer := by
    simpa only [World.answer, hstep, Option.some.injEq] using hanswer
  intro copy hcopy
  simp only [World.next, hstep, Function.update_self] at hcopy ⊢
  cases hcopy
  rcases (call.effect serde maxBytes now w.disk state).of_ok hresult with
    ⟨hc, -⟩ | ⟨adopted', fresh', -, hr', ⟨hkeep, -⟩ | hreplaces⟩
  · obtain ⟨modelId, fault, rfl, -⟩ := Call.precheck_ok hc
    obtain ⟨_, hw, -⟩ := map_eq_write hd
    obtain ⟨_, _, -, -, -, hm, -⟩ := claimDecision_write hw
    cases hm
  · cases Except.ok.inj (hr.symm.trans hr')
    cases hd.symm.trans hkeep
  · exact hreplaces.durable

theorem World.Current.next {p : Nat} (h : w.Current serde p) (hk : w.KeepsIndex serde input) :
    (w.next serde input).Current serde p := by
  have hd : durable serde (w.next serde input).disk = durable serde w.disk := durable_congr hk
  intro copy hcopy
  rw [hd]
  rcases w.next_index serde input with
    ⟨-, hheld⟩ | ⟨maxBytes, state, fresh, written, hi, ⟨adopted, hr⟩, -, hn, hheld⟩
  · exact (hheld p copy hcopy).elim (h copy) id
  · rcases hheld p copy hcopy with hh | ⟨rfl, rfl | rfl⟩
    · exact h copy hh
    · rw [← hd]
      exact hn
    · rcases refreshLocked_file hr with he | hfresh
      · exact h _ (by rw [hi, he]; exact .idle ..)
      · exact hfresh

/-- Two processes open the directory and one of them brings a model to shadow. -/
def oneModel : List (Nat × Action) :=
  openRegistry 0 ++ openRegistry 1 ++ enterShadow 0 (plainArtifact "a" "t" "s" false) 0

private theorem bringsNew_of_action {call : Call} {p now : Nat}
    (h : ∀ artifact expected faults, call ≠ .publishCandidate artifact expected faults) :
    w.BringsNew serde (p, .call call now) := by
  rintro artifact ⟨_, _, _, _, _, _, -, ha, -⟩
  cases ha
  exact absurd rfl (h _ _ _)

/-- After two processes have opened an empty directory no record is in sight. -/
private theorem opened_bringsNew (input : Nat × Action) :
    (run (World.next plainSerde) World.empty (openRegistry 0 ++ openRegistry 1)).BringsNew
      plainSerde input := by
  intro artifact _ file hf record hr
  have hnone : file.records = [] := by
    rcases hf with hd | ⟨q, hq⟩
    · cases hd; rfl
    · by_cases h1 : q = 1
      · subst h1
        cases hq with
        | _ => rfl
      · by_cases h0 : q = 0
        · subst h0
          cases hq with
          | _ => rfl
        · simp [openRegistry, World.next, World.empty, World.start, Function.update_of_ne h1,
            Function.update_of_ne h0] at hq
          cases hq
  rw [hnone] at hr
  cases hr

private theorem oneModel_bringsNew :
    Along (World.next plainSerde) (World.BringsNew plainSerde) World.empty oneModel := by
  have hquiet : ∀ (w : World StoredFile) p action, (∀ call now, action ≠ .call call now) →
      w.BringsNew plainSerde (p, action) := by
    rintro w p action h artifact ⟨_, _, _, _, _, _, -, ha, -⟩
    exact absurd ha (h _ _)
  rw [oneModel, along_append]
  exact ⟨⟨hquiet _ _ _ (by simp), hquiet _ _ _ (by simp), hquiet _ _ _ (by simp),
    hquiet _ _ _ (by simp), trivial⟩, opened_bringsNew _, bringsNew_of_action (by simp),
    bringsNew_of_action (by simp), bringsNew_of_action (by simp), trivial⟩

end Agreement

end Gail.Elm
