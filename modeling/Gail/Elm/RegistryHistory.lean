import Gail.Elm.RegistryDecisions
import Gail.Library.GrowingList

/-! A write never loses anything: records keep their index and their model and move along the
transition table, the rollback history is extended and no canary count falls. -/
namespace Gail.Elm
open Gail.Library
variable {Bytes : Type} {serde : Serde Bytes} {maxBytes : Nat} {disk : Disk Bytes}

/-- The members of a record that never change. -/
structure RegistryRecord.SameModel (a b : RegistryRecord) : Prop where
  modelId : a.modelId = b.modelId
  taskId : a.taskId = b.taskId
  digest : a.digest = b.digest
  artifactFile : a.artifactFile = b.artifactFile
  fixtureOnly : a.fixtureOnly = b.fixtureOnly

theorem RegistryRecord.SameModel.refl (a : RegistryRecord) : a.SameModel a :=
  ⟨rfl, rfl, rfl, rfl, rfl⟩

theorem RegistryRecord.SameModel.trans {a b c : RegistryRecord} (h : a.SameModel b)
    (h' : b.SameModel c) : a.SameModel c :=
  ⟨h.modelId.trans h'.modelId, h.taskId.trans h'.taskId, h.digest.trans h'.digest,
    h.artifactFile.trans h'.artifactFile, h.fixtureOnly.trans h'.fixtureOnly⟩

theorem RegistryRecord.moveTo_sameModel (a : RegistryRecord) (stage : LifecycleStage)
    (reason : String) (now revision : Nat) : a.SameModel (a.moveTo stage reason now revision) :=
  ⟨rfl, rfl, rfl, rfl, rfl⟩

/-- A record stays in its stage or takes one edge of the table. -/
def StageStep (a b : LifecycleStage) : Prop := a = b ∨ allowedTransition a b

/-- A record takes any number of edges. -/
abbrev StagePath : LifecycleStage → LifecycleStage → Prop :=
  Relation.ReflTransGen fun a b => allowedTransition a b

theorem StageStep.path {a b : LifecycleStage} (h : StageStep a b) : StagePath a b := by
  rcases h with rfl | h
  · exact .refl
  · exact .single h

theorem withdrawn_of_path {a b : LifecycleStage} (ha : a.isWithdrawn) (h : StagePath a b) :
    b.isWithdrawn := by
  induction h with
  | refl => exact ha
  | tail _ hedge ih => exact withdrawn_closed ih hedge

/-- What a record may become. -/
def RegistryRecord.Moves (edge : LifecycleStage → LifecycleStage → Prop) (a b : RegistryRecord) :
    Prop :=
  a.SameModel b ∧ edge a.stage b.stage

theorem RegistryRecord.Moves.refl (a : RegistryRecord) : a.Moves StageStep a :=
  ⟨.refl a, .inl rfl⟩

theorem RegistryRecord.moves_moveTo {a : RegistryRecord} {stage : LifecycleStage} (reason : String)
    (now revision : Nat) (h : allowedTransition a.stage stage) :
    a.Moves StageStep (a.moveTo stage reason now revision) :=
  ⟨a.moveTo_sameModel stage reason now revision, .inr h⟩

/-- The new index holds everything the old one did. -/
structure RegistryFile.Extends (edge : LifecycleStage → LifecycleStage → Prop)
    (old new : RegistryFile) : Prop where
  records : Grows (RegistryRecord.Moves edge) old.records new.records
  history : old.rollbackHistory <+: new.rollbackHistory
  counts : ∀ modelId, old.canaryCount modelId ≤ new.canaryCount modelId

namespace RegistryFile

theorem Extends.path {old new : RegistryFile} (h : old.Extends StageStep new) :
    old.Extends StagePath new :=
  ⟨h.records.mono fun _ _ hm => ⟨hm.1, hm.2.path⟩, h.history, h.counts⟩

theorem Extends.refl (file : RegistryFile) : file.Extends StagePath file :=
  ⟨.refl (fun a => ⟨.refl a, .refl⟩) _, List.prefix_rfl, fun _ => le_rfl⟩

theorem Extends.trans {old mid new : RegistryFile} (h : old.Extends StagePath mid)
    (h' : mid.Extends StagePath new) : old.Extends StagePath new :=
  ⟨h.records.trans (fun a b => ⟨a.1.trans b.1, a.2.trans b.2⟩) h'.records,
    h.history.trans h'.history, fun modelId => (h.counts modelId).trans (h'.counts modelId)⟩

end RegistryFile

theorem canaryCount_claimedFile (file : RegistryFile) (index : Nat) (modelId : String)
    (maximum : UInt64) (now : Nat) (other : String) :
    (claimedFile file index modelId maximum now).canaryCount other =
      if modelId = other then saturatingSucc (file.canaryCount modelId)
      else file.canaryCount other := by
  simp only [RegistryFile.canaryCount, claimedFile, Std.TreeMap.getElem?_insert,
    Std.LawfulEqCmp.compare_eq_iff_eq]
  split <;> rfl

/-- Below the maximum of a claim the count has room. -/
theorem saturatingSucc_of_lt_maximum {n : Nat} {maximum : UInt64} (h : n < maximum.toNat) :
    saturatingSucc n = n + 1 := by
  have hm := maximum.toNat_lt
  apply saturatingSucc_of_lt
  unfold u64Max
  omega

section Positions
variable {file : RegistryFile} {modelId previousId : String} {index other : Nat}
  {record found : RegistryRecord}

/-- The first record of a model is the only one at its index. -/
theorem RegistryFile.eq_of_position (hp : file.position modelId = some (index, record)) :
    ∀ a, file.records[index]? = some a → a = record := by
  intro a ha
  exact Option.some.inj (ha.symm.trans (RegistryFile.position_eq_some.mp hp).1)

/-- Different models stand at different indexes. -/
theorem RegistryFile.position_ne (hp : file.position modelId = some (index, record))
    (hq : file.position previousId = some (other, found)) (hne : previousId ≠ modelId) :
    other ≠ index := by
  rintro rfl
  have he := RegistryFile.eq_of_position hp found (RegistryFile.position_eq_some.mp hq).1
  exact hne ((RegistryFile.position_eq_some.mp hq).2.1.symm.trans
    (he ▸ (RegistryFile.position_eq_some.mp hp).2.1))

end Positions

/-- The first record of a model stays the first one. -/
theorem RegistryFile.Extends.position {edge : LifecycleStage → LifecycleStage → Prop}
    {old new : RegistryFile} {modelId : String} {index : Nat} {record : RegistryRecord}
    (h : old.Extends edge new) (hp : old.position modelId = some (index, record)) :
    ∃ moved, new.position modelId = some (index, moved) ∧ record.Moves edge moved := by
  obtain ⟨hget, hid, hbefore⟩ := RegistryFile.position_eq_some.mp hp
  obtain ⟨moved, hm, hmoves⟩ := h.records index record hget
  refine ⟨moved, RegistryFile.position_eq_some.mpr ⟨hm, hmoves.1.modelId ▸ hid, ?_⟩, hmoves⟩
  intro j hj earlier hearlier
  have hlt := (List.getElem?_eq_some_iff.mp hget).1
  obtain ⟨origin, ho, horigin⟩ := h.records.origin (hj.trans hlt) hearlier
  exact horigin.1.modelId ▸ hbefore j hj origin ho

private theorem grows_claimed {file : RegistryFile} {index : Nat} {record : RegistryRecord}
    {modelId : String} (maximum : UInt64) (now : Nat)
    (hp : file.position modelId = some (index, record)) (hs : record.stage = .canary) :
    Grows (RegistryRecord.Moves StageStep) file.records
      (claimedFile file index modelId maximum now).records := by
  simp only [claimedFile]
  split
  · apply grows_modify .refl
    intro a ha
    rw [RegistryFile.eq_of_position hp a ha]
    exact RegistryRecord.moves_moveTo _ _ _ (by rw [hs]; rfl)
  · exact .refl .refl _

private theorem grows_promoted {file : RegistryFile} {index : Nat} {record : RegistryRecord}
    {modelId : String} {target : LifecycleStage} (serving : Bool) (task reason : String)
    (now : Nat) (hp : file.position modelId = some (index, record))
    (ht : allowedTransition record.stage target) :
    Grows (RegistryRecord.Moves StageStep) file.records
      (promotedFile file index modelId target serving task reason now).records := by
  have htarget : ∀ a, file.records[index]? = some a →
      a.Moves StageStep (a.moveTo target reason now (saturatingSucc file.revision)) := by
    intro a ha
    rw [RegistryFile.eq_of_position hp a ha]
    exact RegistryRecord.moves_moveTo _ _ _ ht
  simp only [promotedFile]
  cases serving with
  | false => exact grows_modify .refl htarget
  | true =>
    rw [if_pos rfl]
    rcases demotePrevious_cases file file.championByTask[task]? modelId now
      (saturatingSucc file.revision) with he | ⟨previousId, other, found, -, hne, hq, -, hd, he⟩
    · rw [he]; exact grows_modify .refl htarget
    · rw [he]
      refine grows_modify_modify .refl (RegistryFile.position_ne hp hq hne) ?_ htarget
      intro a ha
      rw [RegistryFile.eq_of_position hq a ha]
      exact RegistryRecord.moves_moveTo _ _ _ hd

private theorem grows_rolledBack {file : RegistryFile} {index : Nat} {record : RegistryRecord}
    {modelId : String} (reason : String) (now : Nat)
    (hp : file.position modelId = some (index, record))
    (ht : allowedTransition record.stage .rolledBack) :
    Grows (RegistryRecord.Moves StageStep) file.records
      (rolledBackFile file index reason now).records := by
  apply grows_modify .refl
  intro a ha
  rw [RegistryFile.eq_of_position hp a ha]
  exact RegistryRecord.moves_moveTo _ _ _ ht

/-- No write loses a record, a rollback event or a canary count, and none leaves the table. -/
theorem Writes.extends {state next : RegistryState} (h : Writes serde maxBytes disk state next) :
    state.file.Extends StageStep next.file := by
  cases h with
  | published artifact now =>
    exact ⟨grows_append .refl _ _, List.prefix_rfl, fun _ => le_rfl⟩
  | claimed index record modelId maximum now hp hs hf hm =>
    refine ⟨grows_claimed maximum now hp hs, List.prefix_rfl, ?_⟩
    intro other
    rw [canaryCount_claimedFile, saturatingSucc_of_lt_maximum hm]
    split
    · rename_i he
      rw [he]
      omega
    · exact le_rfl
  | promoted index record modelId target artifact reason now hp ht hf hl hi serving hserving =>
    obtain ⟨champions, he⟩ := promotedState_file disk state (promotedFile state.file index modelId
      target serving artifact.metadata.taskId reason now) modelId artifact serving
    rw [he]
    exact ⟨grows_promoted serving _ reason now hp ht, List.prefix_rfl, fun _ => le_rfl⟩
  | rolledBack task currentId currentArtifact index record key reason now hc ha hp ht =>
    obtain ⟨champions, he⟩ := rolledBackState_file state
      (rolledBackFile state.file index reason now) currentId _ task key reason
    rw [he]
    exact ⟨grows_rolledBack reason now hp ht, List.prefix_append _ _, fun _ => le_rfl⟩

private theorem claimedFile_length (file : RegistryFile) (index : Nat) (modelId : String)
    (maximum : UInt64) (now : Nat) :
    (claimedFile file index modelId maximum now).records.length = file.records.length := by
  simp only [claimedFile]
  split
  · exact List.length_modify ..
  · rfl

private theorem promotedState_length (state : RegistryState) (index : Nat) (modelId : String)
    (target : LifecycleStage) (serving : Bool) (artifact : ElmArtifact) (reason : String)
    (now : Nat) :
    (promotedState serde maxBytes disk state (promotedFile state.file index modelId target serving
      artifact.metadata.taskId reason now) modelId artifact serving).file.records.length =
        state.file.records.length := by
  obtain ⟨champions, he⟩ := promotedState_file disk state (promotedFile state.file index modelId
    target serving artifact.metadata.taskId reason now) modelId artifact serving
  rw [he]
  simp only [promotedFile, List.length_modify]
  split
  · rcases demotePrevious_cases state.file state.file.championByTask[artifact.metadata.taskId]?
      modelId now (saturatingSucc state.file.revision) with hd | ⟨_, _, _, -, -, -, -, -, hd⟩
    · rw [hd]
    · rw [hd, List.length_modify]
  · rfl

private theorem rolledBackState_length (state : RegistryState) (index : Nat) (currentId : String)
    (chosen : Option (String × ElmArtifact)) (task key reason : String) (now : Nat) :
    (rolledBackState state (rolledBackFile state.file index reason now) currentId chosen task key
      reason).1.file.records.length = state.file.records.length := by
  obtain ⟨champions, he⟩ := rolledBackState_file state
    (rolledBackFile state.file index reason now) currentId chosen task key reason
  rw [he]
  exact List.length_modify ..

/-- Only a publication makes the list longer. -/
theorem Writes.length {state next : RegistryState} (h : Writes serde maxBytes disk state next) :
    next.file.records.length = state.file.records.length ∨
      ∃ artifact now, next = { state with file := publishedFile state.file artifact now } := by
  cases h with
  | published artifact now => exact .inr ⟨artifact, now, rfl⟩
  | claimed index record modelId maximum now hp hs hf hm => exact .inl (claimedFile_length ..)
  | promoted index record modelId target artifact reason now hp ht hf hl hi serving hserving =>
    exact .inl (promotedState_length ..)
  | rolledBack task currentId currentArtifact index record key reason now hc ha hp ht =>
    exact .inl (rolledBackState_length ..)

/-- A record that was not there before enters as trained. -/
theorem Writes.added {state next : RegistryState} (h : Writes serde maxBytes disk state next)
    {i : Nat} {record : RegistryRecord} (hi : state.file.records.length ≤ i)
    (hr : next.file.records[i]? = some record) : record.stage = .trained := by
  rcases h.length with hl | ⟨artifact, now, rfl⟩
  · have hlt := (List.getElem?_eq_some_iff.mp hr).1
    omega
  · have hmem := List.mem_of_getElem? (List.getElem?_append_right hi ▸ hr)
    rw [List.mem_singleton.mp hmem]
    rfl

private theorem modify_changed {records : List RegistryRecord} {f : RegistryRecord → RegistryRecord}
    {index i : Nat} {record moved : RegistryRecord} (hr : records[i]? = some record)
    (hm : (records.modify index f)[i]? = some moved) : moved = record ∨ index = i := by
  by_cases hi : index = i
  · exact .inr hi
  · simp only [List.getElem?_modify, hr, if_neg hi] at hm
    exact .inl (Option.some.inj hm).symm

private theorem position_at {file : RegistryFile} {modelId : String} {index : Nat}
    {found record : RegistryRecord} (hp : file.position modelId = some (index, found))
    (hr : file.records[index]? = some record) : file.position record.modelId = some (index, record) := by
  obtain rfl := RegistryFile.eq_of_position hp record hr
  rw [(RegistryFile.position_eq_some.mp hp).2.1]
  exact hp

/-- A write changes no record but the first one of a model. -/
theorem Writes.changed {state next : RegistryState} (h : Writes serde maxBytes disk state next)
    {i : Nat} {record moved : RegistryRecord} (hr : state.file.records[i]? = some record)
    (hm : next.file.records[i]? = some moved) :
    moved = record ∨ state.file.position record.modelId = some (i, record) := by
  cases h with
  | published artifact now =>
    have hlt := (List.getElem?_eq_some_iff.mp hr).1
    have hsame := (List.getElem?_append_left hlt).symm.trans hm
    exact .inl (Option.some.inj (hsame.symm.trans hr))
  | claimed index found modelId maximum now hp hs hf hm' =>
    simp only [claimedFile] at hm
    split at hm
    · rcases modify_changed hr hm with he | rfl
      · exact .inl he
      · exact .inr (position_at hp hr)
    · exact .inl (Option.some.inj (hm.symm.trans hr))
  | promoted index found modelId target artifact reason now hp ht hf hl hi serving hserving =>
    obtain ⟨champions, he⟩ := promotedState_file disk state (promotedFile state.file index modelId
      target serving artifact.metadata.taskId reason now) modelId artifact serving
    rw [he] at hm
    by_cases hindex : index = i
    · subst hindex
      exact .inr (position_at hp hr)
    simp only [promotedFile, List.getElem?_modify, if_neg hindex, id_map'] at hm
    split at hm
    · rcases demotePrevious_cases state.file state.file.championByTask[artifact.metadata.taskId]?
        modelId now (saturatingSucc state.file.revision) with hd | ⟨_, _, _, -, -, hq, -, -, hd⟩
      · rw [hd] at hm
        exact .inl (Option.some.inj (hm.symm.trans hr))
      · rw [hd] at hm
        rcases modify_changed hr hm with he | rfl
        · exact .inl he
        · exact .inr (position_at hq hr)
    · exact .inl (Option.some.inj (hm.symm.trans hr))
  | rolledBack task currentId currentArtifact index found key reason now hc ha hp ht =>
    obtain ⟨champions, he⟩ := rolledBackState_file state
      (rolledBackFile state.file index reason now) currentId _ task key reason
    rw [he] at hm
    rcases modify_changed hr hm with he | rfl
    · exact .inl he
    · exact .inr (position_at hp hr)

/-- A call that writes adds the record it publishes, if it publishes one, and keeps every other. -/
theorem Call.write_records {call : Call} {now : Nat} {state next : RegistryState} {answer : Answer}
    (h : call.decision serde maxBytes now disk state = .ok (.write next answer)) :
    (∃ artifact faults, call = .publishCandidate artifact state.file.revision faults ∧
        next = { state with file := publishedFile state.file artifact now }) ∨
      next.file.records.length = state.file.records.length ∧
        ∀ artifact expected faults, call ≠ .publishCandidate artifact expected faults := by
  cases call with
  | publishCandidate artifact expected faults =>
    simp only [decision] at h
    by_cases hr : state.file.revision ≠ expected
    · rw [if_pos hr] at h; cases h
    · rw [if_neg hr] at h
      cases h
      exact .inl ⟨artifact, faults, by rw [not_not.mp hr], rfl⟩
  | promote modelId target expected reason fault =>
    obtain ⟨_, hd, -⟩ := map_eq_write h
    obtain ⟨index, record, artifact, -, -, -, -, -, -, he⟩ := promoteDecision_ok hd
    cases he
    exact .inr ⟨promotedState_length .., by simp⟩
  | markEvaluated modelId expected reason fault =>
    obtain ⟨_, hd, -⟩ := map_eq_write h
    obtain ⟨index, record, artifact, -, -, -, -, -, -, he⟩ := promoteDecision_ok hd
    cases he
    exact .inr ⟨promotedState_length .., by simp⟩
  | claimCanaryDecision modelId maximum fault =>
    obtain ⟨_, hd, -⟩ := map_eq_write h
    obtain ⟨index, record, -, -, -, -, rfl, -⟩ := claimDecision_write hd
    exact .inr ⟨claimedFile_length .., by simp⟩
  | rollbackChampion task key expected reason fault =>
    obtain ⟨_, hd, -⟩ := map_eq_write h
    obtain ⟨currentId, currentArtifact, index, record, -, -, -, -, -, he⟩ :=
      rollbackDecision_write hd
    obtain ⟨rfl, -⟩ := Prod.mk.inj he
    exact .inr ⟨rolledBackState_length .., by simp⟩

end Gail.Elm
