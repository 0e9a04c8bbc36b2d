import Mathlib.Data.List.Basic

/-! A value in memory and the file it is saved to. A writer takes the lock of the file, then its copy, and
replaces the file by it. One that is dropped while it does leaves its copy adrift, and the file may still
be replaced by that later. Copies are numbered as they are taken; no operation reads the numbers. -/
namespace Gail.Library
variable {α : Type*}

structure LockedFile (α : Type*) where
  memory : α
  file : Option (Nat × α)
  /-- The copy of the writer that has the lock. -/
  writer : Option (Nat × α)
  adrift : List (Nat × α)
  copies : Nat

namespace LockedFile

def start (memory : α) (file : Option α) : LockedFile α :=
  { memory, file := file.map fun value => (0, value), writer := none, adrift := [], copies := 1 }

def setMemory (store : LockedFile α) (memory : α) : LockedFile α := { store with memory }

/-- The lock is taken, if it is free, and the memory copied. -/
def copy (store : LockedFile α) : LockedFile α :=
  match store.writer with
  | none => { store with writer := some (store.copies, store.memory), copies := store.copies + 1 }
  | some _ => store

/-- The writer ends, with the file replaced or not. -/
def finish (store : LockedFile α) (replaced : Bool) : LockedFile α :=
  match store.writer with
  | none => store
  | some written => { store with file := if replaced then some written else store.file, writer := none }

/-- The writer is dropped while the file is being replaced. -/
def drop (store : LockedFile α) : LockedFile α :=
  match store.writer with
  | none => store
  | some written => { store with writer := none, adrift := written :: store.adrift }

/-- A copy that is adrift replaces the file. -/
def land (store : LockedFile α) (index : Nat) : LockedFile α :=
  match store.adrift[index]? with
  | none => store
  | some written => { store with file := some written, adrift := store.adrift.eraseIdx index }

/-- The process ends, and a new one starts with a memory of its own. -/
def reopen (store : LockedFile α) (memory : α) : LockedFile α :=
  { store with memory, writer := none, adrift := [] }

/-- The copy does not replace one that was taken after it. -/
def InOrder (store : LockedFile α) (index : Nat) : Prop :=
  ∀ landing ∈ store.adrift[index]?, ∀ written ∈ store.file, written.1 < landing.1

/-- The copy of the writer is the last that was taken. -/
structure Numbered (store : LockedFile α) : Prop where
  file : ∀ written ∈ store.file, written.1 < store.copies
  adrift : ∀ copy ∈ store.adrift, copy.1 < store.copies
  writer : ∀ copy ∈ store.writer, copy.1 < store.copies ∧
    (∀ written ∈ store.file, written.1 < copy.1) ∧ ∀ other ∈ store.adrift, other.1 < copy.1

/-- `P` holds of the memory, of the file and of all that may still replace the file in order. -/
structure Saved (P : α → Prop) (store : LockedFile α) : Prop where
  memory : P store.memory
  file : ∃ written ∈ store.file, P written.2 ∧ ∀ copy ∈ store.adrift, written.1 < copy.1 → P copy.2
  writer : ∀ copy ∈ store.writer, P copy.2

section Fields
variable {store : LockedFile α}

@[simp] theorem copy_memory : store.copy.memory = store.memory := by
  unfold copy
  split <;> rfl

theorem copy_writer (h : store.writer = none) : store.copy.writer = some (store.copies, store.memory) := by
  simp only [copy, h]

theorem copy_eq_self {written : Nat × α} (h : store.writer = some written) : store.copy = store := by
  simp only [copy, h]

@[simp] theorem finish_memory {replaced : Bool} : (store.finish replaced).memory = store.memory := by
  unfold finish
  split <;> rfl

@[simp] theorem drop_memory : store.drop.memory = store.memory := by
  unfold drop
  split <;> rfl

@[simp] theorem land_memory {index : Nat} : (store.land index).memory = store.memory := by
  unfold land
  split <;> rfl

@[simp] theorem land_writer {index : Nat} : (store.land index).writer = store.writer := by
  unfold land
  split <;> rfl

end Fields

section Numbers
variable {store : LockedFile α}

theorem start_numbered (memory : α) (file : Option α) : (start memory file).Numbered where
  file := by
    intro written h
    obtain ⟨value, -, rfl⟩ := Option.map_eq_some_iff.mp h
    exact Nat.one_pos
  adrift _ h := nomatch h
  writer _ h := nomatch h

theorem Numbered.setMemory (h : store.Numbered) (memory : α) : (store.setMemory memory).Numbered :=
  ⟨h.file, h.adrift, h.writer⟩

theorem Numbered.copy (h : store.Numbered) : store.copy.Numbered := by
  unfold LockedFile.copy
  split
  · constructor
    · exact fun written hw => Nat.lt_succ_of_lt (h.file written hw)
    · exact fun other ho => Nat.lt_succ_of_lt (h.adrift other ho)
    · intro copy hc
      cases hc
      exact ⟨Nat.lt_succ_self _, h.file, h.adrift⟩
  · exact h

theorem Numbered.finish (h : store.Numbered) (replaced : Bool) : (store.finish replaced).Numbered := by
  unfold LockedFile.finish
  split
  · exact h
  next written hw =>
  refine ⟨?_, h.adrift, fun _ hn => nomatch hn⟩
  intro other ho
  cases replaced with
  | false => exact h.file other ho
  | true =>
    cases ho
    exact (h.writer _ hw).1

theorem Numbered.drop (h : store.Numbered) : store.drop.Numbered := by
  unfold LockedFile.drop
  split
  · exact h
  next written hw =>
  refine ⟨h.file, ?_, fun _ hn => nomatch hn⟩
  exact List.forall_mem_cons.mpr ⟨(h.writer _ hw).1, h.adrift⟩

theorem Numbered.land (h : store.Numbered) (index : Nat) : (store.land index).Numbered := by
  unfold LockedFile.land
  split
  · exact h
  next landing hl =>
  have hmem : landing ∈ store.adrift := List.mem_of_getElem? hl
  have hrest : ∀ other ∈ store.adrift.eraseIdx index, other ∈ store.adrift :=
    fun _ ho => List.mem_of_mem_eraseIdx ho
  constructor
  · intro written hw
    cases hw
    exact h.adrift _ hmem
  · exact fun other ho => h.adrift other (hrest other ho)
  · intro copy hc
    obtain ⟨hcopies, -, hadrift⟩ := h.writer copy hc
    refine ⟨hcopies, ?_, fun other ho => hadrift other (hrest other ho)⟩
    intro written hw
    cases hw
    exact hadrift _ hmem

theorem Numbered.reopen (h : store.Numbered) (memory : α) : (store.reopen memory).Numbered :=
  ⟨h.file, fun _ hm => (List.not_mem_nil hm).elim, fun _ hn => nomatch hn⟩

end Numbers

section Kept
variable {store : LockedFile α} {P : α → Prop}

theorem Saved.setMemory {memory : α} (h : store.Saved P) (hm : P memory) :
    (store.setMemory memory).Saved P :=
  ⟨hm, h.file, h.writer⟩

theorem Saved.copy (h : store.Saved P) : store.copy.Saved P := by
  unfold LockedFile.copy
  split
  · refine ⟨h.memory, h.file, ?_⟩
    intro copy hc
    cases hc
    exact h.memory
  · exact h

/-- A writer that replaces the file saves what holds of its copy and of the memory. -/
theorem Numbered.saved (h : store.Numbered) {copy : Nat × α} (hw : store.writer = some copy)
    (hc : P copy.2) (hm : P store.memory) : (store.finish true).Saved P := by
  unfold LockedFile.finish
  rw [hw]
  refine ⟨hm, ⟨copy, rfl, hc, ?_⟩, fun _ hn => nomatch hn⟩
  -- All that is adrift was copied earlier.
  intro other ho hlt
  exact absurd hlt (Nat.lt_asymm ((h.writer copy hw).2.2 other ho))

theorem Saved.finish (h : store.Saved P) (hn : store.Numbered) (replaced : Bool) :
    (store.finish replaced).Saved P := by
  cases hw : store.writer with
  | none =>
    unfold LockedFile.finish
    rw [hw]
    exact h
  | some copy =>
    cases replaced with
    | true => exact hn.saved hw (h.writer copy hw) h.memory
    | false =>
      unfold LockedFile.finish
      rw [hw]
      exact ⟨h.memory, h.file, fun _ hn => nomatch hn⟩

theorem Saved.drop (h : store.Saved P) : store.drop.Saved P := by
  unfold LockedFile.drop
  split
  · exact h
  next copy hw =>
  obtain ⟨written, hf, hp, hadrift⟩ := h.file
  refine ⟨h.memory, ⟨written, hf, hp, ?_⟩, fun _ hn => nomatch hn⟩
  exact List.forall_mem_cons.mpr ⟨fun _ => h.writer copy hw, hadrift⟩

theorem Saved.land (h : store.Saved P) {index : Nat} (ho : store.InOrder index) :
    (store.land index).Saved P := by
  unfold LockedFile.land
  split
  · exact h
  next landing hl =>
  obtain ⟨written, hf, -, hadrift⟩ := h.file
  have hlt := ho landing hl written hf
  refine ⟨h.memory, ⟨landing, rfl, hadrift landing (List.mem_of_getElem? hl) hlt, ?_⟩, h.writer⟩
  intro copy hc hlater
  exact hadrift copy (List.mem_of_mem_eraseIdx hc) (Nat.lt_trans hlt hlater)

/-- A new process that reads the file back. -/
theorem Saved.reopen (h : store.Saved P) {memory : α}
    (hm : ∀ written ∈ store.file, P written.2 → P memory) : (store.reopen memory).Saved P := by
  obtain ⟨written, hf, hp, -⟩ := h.file
  exact ⟨hm written hf hp, ⟨written, hf, hp, fun _ hn => nomatch hn⟩, fun _ hn => nomatch hn⟩

end Kept

end LockedFile

end Gail.Library
