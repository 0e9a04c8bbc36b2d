import Gail.Elm.RegistryFile

/-! Lookups in the record list, and how the two ways of changing it, appending a record and
changing one in place, act on them. -/
namespace Gail.Elm
namespace RegistryFile

theorem position_eq_some {file : RegistryFile} {modelId : String} {index : Nat}
    {record : RegistryRecord} :
    file.position modelId = some (index, record) ↔
      file.records[index]? = some record ∧ record.modelId = modelId ∧
        ∀ j < index, ∀ earlier, file.records[j]? = some earlier → earlier.modelId ≠ modelId := by
  constructor
  · intro h
    obtain ⟨i, hi, hr⟩ := Option.bind_eq_some_iff.mp h
    obtain ⟨found, hfound, he⟩ := Option.map_eq_some_iff.mp hr
    obtain ⟨rfl, rfl⟩ := Prod.mk.inj he
    obtain ⟨hlt, hmatch, hbefore⟩ := List.findIdx?_eq_some_iff_getElem.mp hi
    have hget := (List.getElem?_eq_some_iff.mp hfound).2
    refine ⟨hfound, by simpa [hget] using hmatch, ?_⟩
    intro j hj earlier hearlier
    obtain ⟨_, hej⟩ := List.getElem?_eq_some_iff.mp hearlier
    simpa [hej] using hbefore j hj
  · rintro ⟨hget, hid, hbefore⟩
    obtain ⟨hlt, he⟩ := List.getElem?_eq_some_iff.mp hget
    have hfind : file.records.findIdx? (fun record => record.modelId == modelId) = some index := by
      refine List.findIdx?_eq_some_iff_getElem.mpr ⟨hlt, by simp [he, hid], ?_⟩
      intro j hj
      simpa using hbefore j hj _ (List.getElem?_eq_getElem (hj.trans hlt))
    simp [position, hfind, hget]

theorem position_eq_none {file : RegistryFile} {modelId : String} :
    file.position modelId = none ↔ ∀ record ∈ file.records, record.modelId ≠ modelId := by
  constructor
  · intro h record hmem he
    cases hf : file.records.findIdx? (fun record => record.modelId == modelId) with
    | none => simpa [he] using List.findIdx?_eq_none_iff.mp hf record hmem
    | some i =>
      have hlt := (List.findIdx?_eq_some_iff_getElem.mp hf).1
      simp [position, hf, List.getElem?_eq_getElem hlt] at h
  · intro h
    have hf : file.records.findIdx? (fun record => record.modelId == modelId) = none :=
      List.findIdx?_eq_none_iff.mpr (fun record hmem => by simpa using h record hmem)
    simp [position, hf]

theorem record_eq_position (file : RegistryFile) (modelId : String) :
    file.record modelId = (file.position modelId).map Prod.snd := by
  cases hp : file.position modelId with
  | none =>
    refine List.find?_eq_none.mpr ?_
    intro record hmem
    simpa using position_eq_none.mp hp record hmem
  | some found =>
    obtain ⟨index, record⟩ := found
    obtain ⟨hget, hid, hbefore⟩ := position_eq_some.mp hp
    obtain ⟨hlt, he⟩ := List.getElem?_eq_some_iff.mp hget
    refine List.find?_eq_some_iff_getElem.mpr ⟨by simp [hid], index, hlt, he, ?_⟩
    intro j hj
    simpa using hbefore j hj _ (List.getElem?_eq_getElem (hj.trans hlt))

theorem record_modelId {file : RegistryFile} {modelId : String} {record : RegistryRecord}
    (h : file.record modelId = some record) : record.modelId = modelId := by
  simpa using List.find?_some h

theorem record_mem {file : RegistryFile} {modelId : String} {record : RegistryRecord}
    (h : file.record modelId = some record) : record ∈ file.records :=
  List.mem_of_find?_eq_some h

theorem record_of_position {file : RegistryFile} {modelId : String} {index : Nat}
    {record : RegistryRecord} (h : file.position modelId = some (index, record)) :
    file.record modelId = some record := by
  rw [record_eq_position, h]; rfl

theorem exists_position {file : RegistryFile} {modelId : String} {record : RegistryRecord}
    (h : file.record modelId = some record) :
    ∃ index, file.position modelId = some (index, record) := by
  rw [record_eq_position] at h
  obtain ⟨⟨index, found⟩, hp, rfl⟩ := Option.map_eq_some_iff.mp h
  exact ⟨index, hp⟩

section Modify
variable {file next : RegistryFile} {index : Nat} {f : RegistryRecord → RegistryRecord}

/-- Changing a record in place, without its model, keeps every position. -/
theorem position_modify (hrecords : next.records = file.records.modify index f)
    (hf : ∀ record, (f record).modelId = record.modelId) {modelId : String} {j : Nat}
    {record : RegistryRecord} (h : file.position modelId = some (j, record)) :
    next.position modelId = some (j, if index = j then f record else record) := by
  obtain ⟨hget, hid, hbefore⟩ := position_eq_some.mp h
  refine position_eq_some.mpr ⟨?_, ?_, ?_⟩
  · rw [hrecords, List.getElem?_modify, hget]
    split <;> rfl
  · split
    · rw [hf, hid]
    · exact hid
  · intro k hk earlier hearlier
    rw [hrecords, List.getElem?_modify] at hearlier
    obtain ⟨old, hold, he⟩ := Option.map_eq_some_iff.mp hearlier
    have hne := hbefore k hk old hold
    split at he
    · rw [← he, hf]; exact hne
    · rw [← he]; exact hne

theorem record_modify_self (hrecords : next.records = file.records.modify index f)
    (hf : ∀ record, (f record).modelId = record.modelId) {modelId : String}
    {record : RegistryRecord} (h : file.position modelId = some (index, record)) :
    next.record modelId = some (f record) := by
  have hp := position_modify hrecords hf h
  rw [if_pos rfl] at hp
  exact record_of_position hp

theorem record_modify_ne (hrecords : next.records = file.records.modify index f)
    (hf : ∀ record, (f record).modelId = record.modelId) {modelId other : String}
    {record found : RegistryRecord} (h : file.position modelId = some (index, record))
    (hne : other ≠ modelId) (hfound : file.record other = some found) :
    next.record other = some found := by
  obtain ⟨j, hj⟩ := exists_position hfound
  have hij : index ≠ j := by
    rintro rfl
    have := (position_eq_some.mp h).1.symm.trans (position_eq_some.mp hj).1
    cases Option.some.inj this
    exact hne ((record_modelId hfound).symm.trans (position_eq_some.mp h).2.1)
  have hp := position_modify hrecords hf hj
  rw [if_neg hij] at hp
  exact record_of_position hp

end Modify

/-- A record appended at the end is behind every record that was there. -/
theorem position_append {file next : RegistryFile} {added : RegistryRecord}
    (hrecords : next.records = file.records ++ [added]) {modelId : String} {j : Nat}
    {record : RegistryRecord} (h : file.position modelId = some (j, record)) :
    next.position modelId = some (j, record) := by
  obtain ⟨hget, hid, hbefore⟩ := position_eq_some.mp h
  have hlt := (List.getElem?_eq_some_iff.mp hget).1
  refine position_eq_some.mpr ⟨?_, hid, ?_⟩
  · rw [hrecords, List.getElem?_append_left hlt, hget]
  · intro k hk earlier hearlier
    rw [hrecords, List.getElem?_append_left (hk.trans hlt)] at hearlier
    exact hbefore k hk earlier hearlier

theorem record_append {file next : RegistryFile} {added : RegistryRecord}
    (hrecords : next.records = file.records ++ [added]) {modelId : String}
    {record : RegistryRecord} (h : file.record modelId = some record) :
    next.record modelId = some record := by
  obtain ⟨j, hj⟩ := exists_position h
  exact record_of_position (position_append hrecords hj)

end RegistryFile

@[simp] theorem RegistryRecord.moveTo_modelId (record : RegistryRecord) (stage : LifecycleStage)
    (reason : String) (now revision : Nat) :
    (record.moveTo stage reason now revision).modelId = record.modelId := rfl

@[simp] theorem RegistryRecord.moveTo_taskId (record : RegistryRecord) (stage : LifecycleStage)
    (reason : String) (now revision : Nat) :
    (record.moveTo stage reason now revision).taskId = record.taskId := rfl

@[simp] theorem RegistryRecord.moveTo_stage (record : RegistryRecord) (stage : LifecycleStage)
    (reason : String) (now revision : Nat) :
    (record.moveTo stage reason now revision).stage = stage := rfl

@[simp] theorem RegistryRecord.moveTo_fixtureOnly (record : RegistryRecord)
    (stage : LifecycleStage) (reason : String) (now revision : Nat) :
    (record.moveTo stage reason now revision).fixtureOnly = record.fixtureOnly := rfl

/-- `max_by_key` finds an element of greatest key whenever there is an element. -/
theorem maxByKey_spec {α : Type} {key : α → Nat} {items : List α} {found : α}
    (h : maxByKey key items = some found) : found ∈ items ∧ ∀ item ∈ items, key item ≤ key found :=
  ⟨List.mem_reverse.mp (List.argmax_mem h),
    fun _ hitem => List.le_of_mem_argmax (List.mem_reverse.mpr hitem) h⟩

end Gail.Elm
