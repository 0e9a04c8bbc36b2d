import Gail.Elm.RegistryHistory

/-! The invariant of the index: only the first record of a model leaves training, no fixture
serves, and every champion names a record that may serve its task. Every write keeps it. -/
namespace Gail.Elm
open RegistryFile
variable {Bytes : Type} {serde : Serde Bytes} {maxBytes : Nat} {disk : Disk Bytes}
  {file next : RegistryFile} {task other modelId : String} {index : Nat} {record : RegistryRecord}

theorem ElmArtifact.isOf_iff {artifact : ElmArtifact} :
    artifact.isOf record modelId task ↔ artifact.metadata.modelId = modelId ∧
      artifact.metadata.taskId = task ∧ artifact.contentSha256 = record.digest := by
  simp [ElmArtifact.isOf, and_assoc]

theorem RegistryRecord.servesTask_iff :
    record.servesTask task ↔ record.taskId = task ∧ record.fixtureOnly = false ∧
      record.stage.isServing := by
  simp [RegistryRecord.servesTask, and_assoc]

structure RegistryFile.RecordsWellFormed (file : RegistryFile) : Prop where
  first : ∀ i record, file.records[i]? = some record → record.stage ≠ .trained →
    file.position record.modelId = some (i, record)
  fixture : ∀ record ∈ file.records, record.fixtureOnly → record.stage.isServing = false

/-- The model has a record that may serve the task. -/
def RegistryFile.Serves (file : RegistryFile) (task modelId : String) : Prop :=
  ∃ record, file.record modelId = some record ∧ record.servesTask task

structure RegistryFile.WellFormed (file : RegistryFile) : Prop extends file.RecordsWellFormed where
  champion : ∀ task modelId, file.championByTask[task]? = some modelId → file.Serves task modelId

theorem RegistryFile.wellFormed_empty : ({} : RegistryFile).WellFormed where
  first := by simp
  fixture := by simp
  champion := by simp

/-- A model serves one task at most. -/
theorem RegistryFile.Serves.task_unique (h : file.Serves task modelId)
    (h' : file.Serves other modelId) : task = other := by
  obtain ⟨record, hr, hs⟩ := h
  obtain ⟨record', hr', hs'⟩ := h'
  cases Option.some.inj (hr.symm.trans hr')
  exact (RegistryRecord.servesTask_iff.mp hs).1.symm.trans (RegistryRecord.servesTask_iff.mp hs').1

/-- A record that may serve is past training, so it is the one its model finds. -/
theorem RegistryFile.RecordsWellFormed.serves_of_mem (h : file.RecordsWellFormed)
    (hm : record ∈ file.records) (hs : record.servesTask task) :
    file.Serves task record.modelId := by
  obtain ⟨i, hi⟩ := List.mem_iff_getElem?.mp hm
  have hserving := (RegistryRecord.servesTask_iff.mp hs).2.2
  have hp := h.first i record hi (by rintro he; rw [he] at hserving; cases hserving)
  exact ⟨record, record_of_position hp, hs⟩

/-- Only the record list matters. -/
theorem RegistryFile.RecordsWellFormed.congr (h : file.RecordsWellFormed)
    (he : next.records = file.records) : next.RecordsWellFormed where
  first i record hi hs := by simpa only [position, he] using h.first i record (he ▸ hi) hs
  fixture record hr := h.fixture record (he ▸ hr)

theorem RegistryFile.Serves.congr (h : file.Serves task modelId)
    (he : next.records = file.records) : next.Serves task modelId := by
  obtain ⟨record, hr, hs⟩ := h
  exact ⟨record, by simpa only [RegistryFile.record, he] using hr, hs⟩

section Modify
variable {stage : LifecycleStage} {reason : String} {now revision : Nat}

/-- Moving the first record of a model keeps the invariant, unless a fixture would serve. -/
theorem RegistryFile.RecordsWellFormed.modify (h : file.RecordsWellFormed)
    (hp : file.position modelId = some (index, record))
    (hrecords : next.records =
      file.records.modify index (fun record => record.moveTo stage reason now revision))
    (hf : stage.isServing → record.fixtureOnly = false) : next.RecordsWellFormed := by
  have hget := (position_eq_some.mp hp).1
  have hid := (position_eq_some.mp hp).2.1
  refine ⟨?_, ?_⟩
  · intro i found hi hstage
    rw [hrecords, List.getElem?_modify] at hi
    obtain ⟨old, hold, he⟩ := Option.map_eq_some_iff.mp hi
    by_cases hii : index = i
    · subst hii
      cases Option.some.inj (hget.symm.trans hold)
      have hn := position_modify hrecords (fun _ => rfl) hp
      rw [if_pos rfl] at he hn
      rw [← he, RegistryRecord.moveTo_modelId, hid]
      exact hn
    · rw [if_neg hii] at he
      cases he
      have hn := position_modify hrecords (fun _ => rfl) (h.first i found hold hstage)
      rwa [if_neg hii] at hn
  · intro found hfound hfixture
    obtain ⟨i, hi⟩ := List.mem_iff_getElem?.mp hfound
    rw [hrecords, List.getElem?_modify] at hi
    obtain ⟨old, hold, he⟩ := Option.map_eq_some_iff.mp hi
    by_cases hii : index = i
    · subst hii
      cases Option.some.inj (hget.symm.trans hold)
      rw [if_pos rfl] at he
      cases he
      by_contra hserving
      have := hf (by simpa using hserving)
      rw [RegistryRecord.moveTo_fixtureOnly, this] at hfixture
      cases hfixture
    · rw [if_neg hii] at he
      cases he
      exact h.fixture found (List.mem_of_getElem? hold) hfixture

/-- Moving a record does not concern what another model serves. -/
theorem RegistryFile.Serves.modify_ne (h : file.Serves task other)
    (hp : file.position modelId = some (index, record)) (hne : other ≠ modelId)
    (hrecords : next.records =
      file.records.modify index (fun record => record.moveTo stage reason now revision)) :
    next.Serves task other := by
  obtain ⟨found, hfound, hs⟩ := h
  exact ⟨found, record_modify_ne hrecords (fun _ => rfl) hp hne hfound, hs⟩

/-- Moving a record to a serving stage keeps what every model serves. -/
theorem RegistryFile.Serves.modify_serving (h : file.Serves task other)
    (hp : file.position modelId = some (index, record)) (hstage : stage.isServing)
    (hrecords : next.records =
      file.records.modify index (fun record => record.moveTo stage reason now revision)) :
    next.Serves task other := by
  by_cases hne : other = modelId
  · subst hne
    obtain ⟨found, hfound, hs⟩ := h
    cases Option.some.inj (hfound.symm.trans (record_of_position hp))
    obtain ⟨htask, hfixture, -⟩ := RegistryRecord.servesTask_iff.mp hs
    exact ⟨_, record_modify_self hrecords (fun _ => rfl) hp,
      RegistryRecord.servesTask_iff.mpr ⟨htask, hfixture, hstage⟩⟩
  · exact h.modify_ne hp hne hrecords

end Modify

/-- The index between the demotion of the previous champion and the move of the target. -/
private theorem demoted_wellFormed (h : file.WellFormed)
    (hp : file.position modelId = some (index, record)) (previous : Option String)
    (now revision : Nat) (demoted : RegistryFile)
    (hd : demoted.records = demotePrevious file previous modelId now revision) :
    demoted.RecordsWellFormed ∧ demoted.position modelId = some (index, record) ∧
      ∀ task other, file.Serves task other → demoted.Serves task other := by
  rcases demotePrevious_cases file previous modelId now revision with
    he | ⟨previousId, j, found, -, hne, hq, hserving, -, he⟩
  · have hsame : demoted.records = file.records := hd.trans he
    refine ⟨h.toRecordsWellFormed.congr hsame, ?_, fun task other hs => hs.congr hsame⟩
    simpa only [position, hsame] using hp
  · rw [he] at hd
    have hmem := List.mem_of_getElem? (position_eq_some.mp hq).1
    have hfixture : found.fixtureOnly = false := by
      by_contra hf
      have := h.fixture found hmem (by simpa using hf)
      rw [hserving] at this
      cases this
    refine ⟨h.toRecordsWellFormed.modify hq hd fun _ => hfixture, ?_, ?_⟩
    · have hn := position_modify hd (fun _ => rfl) hp
      rwa [if_neg (position_ne hp hq hne)] at hn
    · intro task other hs
      exact hs.modify_serving hq rfl hd

/-- What a fallback search finds serves the task. -/
private theorem serves_of_fallback {outgoing artifact : ElmArtifact}
    {candidates : List RegistryRecord} (h : file.RecordsWellFormed)
    (hc : ∀ record ∈ candidates, record ∈ file.records ∧ record.servesTask task)
    (hf : fallback serde maxBytes disk outgoing candidates = some (modelId, artifact)) :
    file.Serves task modelId := by
  obtain ⟨newest, hn, rfl, -⟩ := fallback_eq_some hf
  obtain ⟨hmem, hs⟩ := hc newest (maxByKey_spec hn).1
  exact h.serves_of_mem hmem hs

/-- Choosing the fallback of one task keeps the champions of the others. -/
private theorem installFallback_champion_serves {champions : Champions}
    {chosen : Option (String × ElmArtifact)}
    (hchosen : ∀ modelId artifact, chosen = some (modelId, artifact) → file.Serves task modelId)
    (hother : ∀ other modelId, task ≠ other → file.championByTask[other]? = some modelId →
      file.Serves other modelId) :
    ∀ other modelId,
      (installFallback file champions task chosen).file.championByTask[other]? = some modelId →
      file.Serves other modelId := by
  intro other modelId hc
  rw [installFallback_champion] at hc
  by_cases ht : task = other
  · rw [if_pos ht] at hc
    obtain ⟨⟨found, artifact⟩, hf, rfl⟩ := Option.map_eq_some_iff.mp hc
    exact ht ▸ hchosen found artifact hf
  · rw [if_neg ht] at hc
    exact hother other modelId ht hc

/-- What a promotion does to the records, whatever it does to the champions. -/
private theorem promotedFile_wellFormed (h : file.WellFormed)
    (hp : file.position modelId = some (index, record)) {target : LifecycleStage}
    (hf : ¬ (record.fixtureOnly ∧ target.isServing)) (serving : Bool) (reason : String) (now : Nat)
    (hnext : next = promotedFile file index modelId target serving record.taskId reason now) :
    next.RecordsWellFormed ∧
      (∀ task other, other ≠ modelId → file.Serves task other → next.Serves task other) ∧
      (target.isServing → next.Serves record.taskId modelId ∧
        ∀ task other, file.Serves task other → next.Serves task other) := by
  have hfixture : target.isServing → record.fixtureOnly = false := by
    intro hs
    by_contra hc
    exact hf ⟨by simpa using hc, hs⟩
  let previous := if serving then file.championByTask[record.taskId]? else none
  let demoted : RegistryFile :=
    { file with records := demotePrevious file previous modelId now (saturatingSucc file.revision) }
  have hrecords : next.records = demoted.records.modify index
      (fun record => record.moveTo target reason now (saturatingSucc file.revision)) := by
    rw [hnext]
    cases serving <;> rfl
  obtain ⟨hw, hq, hkeep⟩ := demoted_wellFormed h hp previous now _ demoted rfl
  refine ⟨hw.modify hq hrecords hfixture, ?_, fun hs => ⟨?_, ?_⟩⟩
  · intro task other hne hserves
    exact (hkeep task other hserves).modify_ne hq hne hrecords
  · exact ⟨_, record_modify_self hrecords (fun _ => rfl) hq,
      RegistryRecord.servesTask_iff.mpr ⟨rfl, hfixture hs, hs⟩⟩
  · intro task other hserves
    exact (hkeep task other hserves).modify_serving hq hs hrecords

variable (serde maxBytes disk) in
private theorem promoted_champion {state : RegistryState} (h : state.file.WellFormed)
    (hp : state.file.position modelId = some (index, record)) {target : LifecycleStage}
    {artifact : ElmArtifact} (hf : ¬ (record.fixtureOnly ∧ target.isServing)) {serving : Bool}
    (hserving : serving = (target.isServing && !artifact.metadata.fixtureOnly))
    (htask : artifact.metadata.taskId = record.taskId) (reason : String) (now : Nat)
    (hnext : next = promotedFile state.file index modelId target serving record.taskId reason now) :
    ∀ task other, (promotedState serde maxBytes disk state next modelId artifact
      serving).file.championByTask[task]? = some other → next.Serves task other := by
  obtain ⟨hw, hne, hkeep⟩ := promotedFile_wellFormed h hp hf serving reason now hnext
  intro task other hc
  cases serving with
  | true =>
    have hs : target.isServing := by
      by_contra hs
      simp [hs] at hserving
    simp only [promotedState, if_pos, hnext, promotedFile, Std.TreeMap.getElem?_insert,
      Std.LawfulEqCmp.compare_eq_iff_eq] at hc
    by_cases ht : record.taskId = task
    · rw [if_pos ht] at hc
      exact ht ▸ Option.some.inj hc ▸ (hkeep hs).1
    · rw [if_neg ht] at hc
      exact (hkeep hs).2 task other (h.champion task other hc)
  | false =>
    have hsame : next.championByTask = state.file.championByTask := by rw [hnext]; rfl
    simp only [promotedState, Bool.false_eq_true, if_false, htask] at hc
    by_cases hcurrent : state.file.championByTask[record.taskId]? = some modelId
    · rw [if_pos hcurrent] at hc
      refine installFallback_champion_serves ?_ ?_ task other hc
      · intro found fallen hfound
        refine serves_of_fallback hw ?_ hfound
        intro candidate hcandidate
        exact List.mem_filter.mp hcandidate
      · intro task' found ht hfound
        rw [hsame] at hfound
        have hold := h.champion task' found hfound
        refine hne task' found ?_ hold
        rintro rfl
        exact ht ((h.champion _ _ hcurrent).task_unique hold)
    · rw [if_neg hcurrent, hsame] at hc
      have hold := h.champion task other hc
      refine hne task other ?_ hold
      rintro rfl
      obtain ⟨found, hfound, hs⟩ := hold
      cases Option.some.inj (hfound.symm.trans (record_of_position hp))
      rw [(RegistryRecord.servesTask_iff.mp hs).1] at hcurrent
      exact hcurrent hc

private theorem rolledBack_champion {state : RegistryState} {currentId : String}
    (h : state.file.WellFormed) (hc : state.file.championByTask[task]? = some currentId)
    (hp : state.file.position currentId = some (index, record)) (outgoing : ElmArtifact)
    (key reason : String) (now : Nat) (hnext : next = rolledBackFile state.file index reason now) :
    next.RecordsWellFormed ∧
      ∀ other modelId, (rolledBackState state next currentId (fallback serde maxBytes disk outgoing
        (rollbackCandidates next task currentId)) task key reason).1.file.championByTask[other]? =
          some modelId → next.Serves other modelId := by
  have hrecords : next.records = state.file.records.modify index (fun record =>
      record.moveTo .rolledBack reason now (saturatingSucc state.file.revision)) := by
    rw [hnext]; rfl
  have hw : next.RecordsWellFormed := h.toRecordsWellFormed.modify hp hrecords (by intro hs; cases hs)
  refine ⟨hw, ?_⟩
  intro other modelId hother
  refine installFallback_champion_serves ?_ ?_ other modelId hother
  · intro found fallen hfound
    refine serves_of_fallback hw ?_ hfound
    intro candidate hcandidate
    obtain ⟨hmem, hs⟩ := List.mem_filter.mp hcandidate
    exact ⟨hmem, (Bool.and_eq_true_iff.mp hs).1⟩
  · intro task' found ht hfound
    rw [hnext] at hfound
    have hold := h.champion task' found hfound
    refine hold.modify_ne hp ?_ hrecords
    rintro rfl
    exact ht ((h.champion _ _ hc).task_unique hold)

/-- Every write keeps the index well formed, whatever copy of it is written from. -/
theorem Writes.wellFormed {state next : RegistryState} (hwrite : Writes serde maxBytes disk state next)
    (h : state.file.WellFormed) : next.file.WellFormed := by
  cases hwrite with
  | published artifact now =>
    have hrecords : (publishedFile state.file artifact now).records = state.file.records ++
        [publishedRecord artifact (saturatingSucc state.file.revision) now] := rfl
    refine ⟨⟨?_, ?_⟩, ?_⟩
    · intro i found hi hs
      rw [hrecords] at hi
      by_cases hlt : i < state.file.records.length
      · rw [List.getElem?_append_left hlt] at hi
        exact position_append hrecords (h.first i found hi hs)
      · rw [List.getElem?_append_right (not_lt.mp hlt)] at hi
        exact absurd (List.mem_singleton.mp (List.mem_of_getElem? hi) ▸ rfl) hs
    · intro found hfound hfixture
      rcases List.mem_append.mp (hrecords ▸ hfound) with hold | hnew
      · exact h.fixture found hold hfixture
      · rw [List.mem_singleton.mp hnew]; rfl
    · intro task modelId hc
      obtain ⟨found, hfound, hs⟩ := h.champion task modelId hc
      exact ⟨found, record_append hrecords hfound, hs⟩
  | claimed index record modelId maximum now hp hs hf hm =>
    by_cases hlast : maximum.toNat ≤ saturatingSucc (state.file.canaryCount modelId)
    · have hrecords : (claimedFile state.file index modelId maximum now).records =
          state.file.records.modify index (fun record =>
            record.moveTo .shadow canaryExhausted now (saturatingSucc state.file.revision)) := by
        simp only [claimedFile, if_pos hlast]
      refine ⟨h.toRecordsWellFormed.modify hp hrecords fun _ => hf, ?_⟩
      intro task other hc
      exact (h.champion task other hc).modify_serving hp rfl hrecords
    · have hrecords : (claimedFile state.file index modelId maximum now).records =
          state.file.records := by simp only [claimedFile, if_neg hlast]
      refine ⟨h.toRecordsWellFormed.congr hrecords, ?_⟩
      intro task other hc
      exact (h.champion task other hc).congr hrecords
  | promoted index record modelId target artifact reason now hp ht hf hl hi serving hserving =>
    have htask := (ElmArtifact.isOf_iff.mp hi).2.1
    rw [htask]
    obtain ⟨hw, -, -⟩ := promotedFile_wellFormed h hp hf serving reason now rfl
    have hc := promoted_champion serde maxBytes disk h hp hf hserving htask reason now rfl
    obtain ⟨champions, he⟩ := promotedState_file disk state (promotedFile state.file index modelId
      target serving record.taskId reason now) modelId artifact serving
    have hrecords := congrArg RegistryFile.records he
    exact ⟨hw.congr hrecords, fun task other hfound => (hc task other hfound).congr hrecords⟩
  | rolledBack task currentId currentArtifact index record key reason now hc ha hp ht =>
    obtain ⟨hw, hchampion⟩ := rolledBack_champion h hc hp currentArtifact key reason now rfl
    obtain ⟨champions, he⟩ := rolledBackState_file state
      (rolledBackFile state.file index reason now) currentId (fallback serde maxBytes disk
        currentArtifact (rollbackCandidates (rolledBackFile state.file index reason now) task
          currentId)) task key reason
    have hrecords := congrArg RegistryFile.records he
    exact ⟨hw.congr hrecords, fun other found hfound => (hchampion other found hfound).congr hrecords⟩

end Gail.Elm
