import Gail.Library.Run

/-! A value in memory that any number of operations change and copy under one lock and write to a
file under another. The writes follow the changes as long as the second lock is taken in the order of
the first. Stamps count the changes; no operation reads them. A copy with the stamp of its cell is the value of
the cell, so comparing stamps is enough to bring it up to date. -/
namespace Gail.Library
variable {α : Type*}

section StampedCell
variable {β : Type*} [PartialOrder β] (stamp : α → β)

/-- The copy is the value of the cell or has an older stamp. -/
structure InStep (cell copy : α) : Prop where
  le : stamp copy ≤ stamp cell
  eq : stamp copy = stamp cell → copy = cell

theorem InStep.refl (cell : α) : InStep stamp cell cell := ⟨le_rfl, fun _ => rfl⟩

variable {stamp}

/-- A copy that is not older than the cell is its value. -/
theorem InStep.current {cell copy : α} (h : InStep stamp cell copy) (hle : stamp cell ≤ stamp copy) :
    copy = cell :=
  h.eq (le_antisymm h.le hle)

/-- Every copy stays in step with a cell that moves to a larger stamp. -/
theorem InStep.advance {cell copy next : α} (h : InStep stamp cell copy)
    (hlt : stamp cell < stamp next) : InStep stamp next copy :=
  ⟨h.le.trans hlt.le, fun he => absurd (he ▸ h.le) (not_le_of_gt hlt)⟩

end StampedCell

/-- Where an operation stands. -/
inductive SavePhase (α : Type*) where
  | absent
  /-- The snapshot is taken, the lock of the file is not. -/
  | holding (snapshot : Nat × α)
  | writing (snapshot : Nat × α)
  | done

/-- The snapshot of an operation that has not written it yet. -/
def SavePhase.pending : SavePhase α → Option (Nat × α)
  | .holding snapshot | .writing snapshot => some snapshot
  | _ => none

structure SnapshotStore (α : Type*) where
  memory : Nat × α
  file : Option (Nat × α)
  phase : Nat → SavePhase α
  /-- The operation that has the lock of the file. -/
  writer : Option Nat

inductive SaveAction (α : Type*) where
  /-- The operation changes the value and copies it, or returns without a change. -/
  | record (operation : Nat) (change : α → Option α)
  /-- The operation gets the lock of the file. -/
  | acquire (operation : Nat)
  /-- The file is replaced and its lock released. -/
  | replace (operation : Nat)

namespace SnapshotStore

/-- A store whose file this run has not written yet. -/
def start (value : α) : SnapshotStore α :=
  { memory := (0, value), file := none, phase := fun _ => .absent, writer := none }

def setPhase (store : SnapshotStore α) (operation : Nat) (phase : SavePhase α) : SnapshotStore α :=
  { store with phase := Function.update store.phase operation phase }

/-- An action that does not fit the phase of its operation, or whose lock is taken, does nothing. -/
def next (store : SnapshotStore α) : SaveAction α → SnapshotStore α
  | .record operation change =>
    match store.phase operation with
    | .absent =>
      match change store.memory.2 with
      | none => store.setPhase operation .done
      | some value =>
        let memory := (store.memory.1 + 1, value)
        { store.setPhase operation (.holding memory) with memory }
    | _ => store
  | .acquire operation =>
    match store.phase operation, store.writer with
    | .holding snapshot, none =>
      { store.setPhase operation (.writing snapshot) with writer := some operation }
    | _, _ => store
  | .replace operation =>
    match store.phase operation with
    | .writing snapshot =>
      { store.setPhase operation .done with file := some snapshot, writer := none }
    | _ => store

/-- The lock of the file goes to an operation only when none that took its snapshot earlier still
waits for it. -/
def InTurn (store : SnapshotStore α) (action : SaveAction α) : Prop :=
  ∀ operation snapshot, action = .acquire operation → store.phase operation = .holding snapshot →
    ∀ other earlier, store.phase other = .holding earlier → snapshot.1 ≤ earlier.1

/-- The action replaces a newer snapshot in the file by an older one. -/
def Reverts (store : SnapshotStore α) (action : SaveAction α) : Prop :=
  ∃ operation snapshot newer, action = .replace operation ∧
    store.phase operation = .writing snapshot ∧ store.file = some newer ∧ snapshot.1 < newer.1

/-- No operation is under way. -/
def Quiet (store : SnapshotStore α) : Prop := ∀ operation, (store.phase operation).pending = none

/-- Every snapshot not yet written is at least as new as the file, and the newest one is either
pending or in the file. -/
structure Ordered (store : SnapshotStore α) : Prop where
  copies : ∀ operation snapshot, (store.phase operation).pending = some snapshot →
    InStep Prod.fst store.memory snapshot
  behind : ∀ written, store.file = some written → ∀ operation snapshot,
    (store.phase operation).pending = some snapshot → written.1 ≤ snapshot.1
  latest : store.memory.1 = 0 ∨ store.file = some store.memory ∨
    ∃ operation, (store.phase operation).pending = some store.memory
  lock : ∀ operation snapshot, store.phase operation = .writing snapshot →
    store.writer = some operation ∧ ∀ other later,
      (store.phase other).pending = some later → snapshot.1 ≤ later.1
  old : ∀ written, store.file = some written → written.1 ≤ store.memory.1

/-- A store without a change is as it was started. -/
def Fresh (value : α) (store : SnapshotStore α) : Prop :=
  store.memory.1 = 0 → store.memory.2 = value ∧ store.file = none ∧ store.Quiet

variable {store : SnapshotStore α} {value : α} {action : SaveAction α} {operation : Nat}

theorem start_ordered : (start value).Ordered where
  copies _ _ h := by cases h
  behind _ h := by cases h
  latest := .inl rfl
  lock _ _ h := by cases h
  old _ h := by cases h

@[simp] theorem setPhase_memory {phase : SavePhase α} :
    (store.setPhase operation phase).memory = store.memory := rfl

@[simp] theorem setPhase_file {phase : SavePhase α} :
    (store.setPhase operation phase).file = store.file := rfl

@[simp] theorem setPhase_writer {phase : SavePhase α} :
    (store.setPhase operation phase).writer = store.writer := rfl

theorem setPhase_pending {phase : SavePhase α} (other : Nat) :
    ((store.setPhase operation phase).phase other).pending =
      if other = operation then phase.pending else (store.phase other).pending := by
  simp only [setPhase, Function.update_apply]
  split <;> rfl

theorem setPhase_writing {phase : SavePhase α} {other : Nat} {snapshot : Nat × α}
    (h : (store.setPhase operation phase).phase other = .writing snapshot) :
    (other = operation ∧ phase = .writing snapshot) ∨
      other ≠ operation ∧ store.phase other = .writing snapshot := by
  simp only [setPhase, Function.update_apply] at h
  split at h
  · next he => exact .inl ⟨he, h⟩
  · next he => exact .inr ⟨he, h⟩

/-- An operation that returns without a change. -/
theorem Ordered.unchanged (h : store.Ordered) (hp : store.phase operation = .absent) :
    (store.setPhase operation .done).Ordered := by
  have hpending : ∀ other, ((store.setPhase operation .done).phase other).pending =
      (store.phase other).pending := by
    intro other
    rw [setPhase_pending]
    split
    · next he => rw [he, hp]; rfl
    · rfl
  have hwriting : ∀ other snapshot, (store.setPhase operation .done).phase other = .writing snapshot →
      store.phase other = .writing snapshot := by
    intro other snapshot hw
    rcases setPhase_writing hw with ⟨-, he⟩ | ⟨-, hw⟩
    · cases he
    · exact hw
  constructor
  · simpa only [hpending, setPhase_memory] using h.copies
  · simpa only [hpending, setPhase_file] using h.behind
  · simpa only [hpending, setPhase_file, setPhase_memory] using h.latest
  · intro other snapshot hw
    simpa only [hpending, setPhase_writer] using h.lock other snapshot (hwriting other snapshot hw)
  · exact h.old

/-- A change brings a snapshot that is newer than every other. -/
theorem Ordered.changed (h : store.Ordered) (operation : Nat) (value : α) :
    ({ store.setPhase operation (.holding (store.memory.1 + 1, value)) with
      memory := (store.memory.1 + 1, value) } : SnapshotStore α).Ordered := by
  have hlt : store.memory.1 < (store.memory.1 + 1, value).1 := Nat.lt_succ_self _
  have hcases : ∀ other snapshot, ((store.setPhase operation
      (.holding (store.memory.1 + 1, value))).phase other).pending = some snapshot →
      snapshot = (store.memory.1 + 1, value) ∨
        (store.phase other).pending = some snapshot := by
    intro other snapshot hs
    rw [setPhase_pending] at hs
    split at hs
    · exact .inl (Option.some.inj hs).symm
    · exact .inr hs
  constructor
  · intro other snapshot hs
    rcases hcases other snapshot hs with rfl | hs
    · exact .refl _ _
    · exact (h.copies other snapshot hs).advance hlt
  · intro written hw other snapshot hs
    rcases hcases other snapshot hs with rfl | hs
    · exact (h.old written hw).trans hlt.le
    · exact h.behind written hw other snapshot hs
  · exact .inr (.inr ⟨operation, by rw [setPhase_pending, if_pos rfl]; rfl⟩)
  · intro other snapshot hw
    rcases setPhase_writing hw with ⟨-, he⟩ | ⟨-, hw⟩
    · cases he
    obtain ⟨hlock, hfirst⟩ := h.lock other snapshot hw
    refine ⟨hlock, ?_⟩
    intro another later hs
    rcases hcases another later hs with rfl | hs
    · exact (h.copies other snapshot (by rw [hw]; rfl)).le.trans hlt.le
    · exact hfirst another later hs
  · intro written hw
    exact (h.old written hw).trans hlt.le

theorem Ordered.acquired (h : store.Ordered) {snapshot : Nat × α}
    (hp : store.phase operation = .holding snapshot) (hw : store.writer = none)
    (hturn : store.InTurn (.acquire operation)) :
    ({ store.setPhase operation (.writing snapshot) with
      writer := some operation } : SnapshotStore α).Ordered := by
  have hpending : ∀ other, ((store.setPhase operation (.writing snapshot)).phase other).pending =
      (store.phase other).pending := by
    intro other
    rw [setPhase_pending]
    split
    · next he => rw [he, hp]; rfl
    · rfl
  have hfree : ∀ other current, store.phase other ≠ .writing current := by
    intro other current hc
    cases hw.symm.trans (h.lock other current hc).1
  constructor
  · simpa only [hpending, setPhase_memory] using h.copies
  · simpa only [hpending, setPhase_file] using h.behind
  · simpa only [hpending, setPhase_file, setPhase_memory] using h.latest
  · intro other current hc
    rcases setPhase_writing hc with ⟨rfl, he⟩ | ⟨-, hc⟩
    · cases he
      refine ⟨rfl, ?_⟩
      intro another later hs
      rw [hpending] at hs
      cases ha : store.phase another with
      | holding held =>
        rw [ha] at hs
        cases hs
        exact hturn other snapshot rfl hp another later ha
      | writing held => exact absurd ha (hfree another held)
      | absent => rw [ha] at hs; cases hs
      | done => rw [ha] at hs; cases hs
    · exact absurd hc (hfree other current)
  · exact h.old

theorem Ordered.replaced (h : store.Ordered) {snapshot : Nat × α}
    (hp : store.phase operation = .writing snapshot) :
    ({ store.setPhase operation .done with
      file := some snapshot, writer := none } : SnapshotStore α).Ordered := by
  obtain ⟨hlock, hfirst⟩ := h.lock operation snapshot hp
  have hown : (store.phase operation).pending = some snapshot := by rw [hp]; rfl
  have hcases : ∀ other later, ((store.setPhase operation .done).phase other).pending = some later →
      (store.phase other).pending = some later := by
    intro other later hs
    rw [setPhase_pending] at hs
    split at hs
    · cases hs
    · exact hs
  constructor
  · exact fun other later hs => h.copies other later (hcases other later hs)
  · intro written he other later hs
    cases he
    exact hfirst other later (hcases other later hs)
  · rcases Nat.lt_or_ge snapshot.1 store.memory.1 with hlt | hge
    · rcases h.latest with hz | hf | ⟨other, ho⟩
      · exact .inl hz
      · -- The file is not newer than the snapshot that is being written.
        have := h.behind store.memory hf operation snapshot hown
        omega
      · have hne : other ≠ operation := by
          rintro rfl
          cases hown.symm.trans ho
          exact lt_irrefl _ hlt
        exact .inr (.inr ⟨other, (setPhase_pending other).trans ((if_neg hne).trans ho)⟩)
    · rw [(h.copies operation snapshot hown).current hge]
      exact .inr (.inl rfl)
  · intro other current hc
    rcases setPhase_writing hc with ⟨-, he⟩ | ⟨hne, hc⟩
    · cases he
    · cases hlock.symm.trans (h.lock other current hc).1
      exact absurd rfl hne
  · intro written he
    cases he
    exact (h.copies operation snapshot hown).le

/-- Every step in turn keeps the order. -/
theorem Ordered.next (h : store.Ordered) (hturn : store.InTurn action) :
    (store.next action).Ordered := by
  cases action with
  | record operation change =>
    simp only [SnapshotStore.next]
    split
    · next hp =>
      split
      · exact h.unchanged hp
      · exact h.changed operation _
    · exact h
  | acquire operation =>
    simp only [SnapshotStore.next]
    split
    · next hp hw => exact h.acquired hp hw hturn
    · exact h
  | replace operation =>
    simp only [SnapshotStore.next]
    split
    · next hp => exact h.replaced hp
    · exact h

/-- In order, no older snapshot replaces a newer one. -/
theorem Ordered.not_reverts (h : store.Ordered) : ¬ store.Reverts action := by
  rintro ⟨operation, snapshot, newer, -, hp, hf, hlt⟩
  have := h.behind newer hf operation snapshot (by rw [hp]; rfl)
  omega

/-- In order, the file of a quiet store that has changed is the value in memory. -/
theorem Ordered.quiet (h : store.Ordered) (hq : store.Quiet) (hc : store.memory.1 ≠ 0) :
    store.file = some store.memory := by
  rcases h.latest with hz | hf | ⟨operation, hp⟩
  · exact absurd hz hc
  · exact hf
  · rw [hq operation] at hp
    cases hp

theorem start_fresh : (start value).Fresh value := fun _ => ⟨rfl, rfl, fun _ => rfl⟩

theorem Fresh.next (h : store.Fresh value) : (store.next action).Fresh value := by
  -- Without a change no operation holds a snapshot.
  have hidle : store.memory.1 = 0 → ∀ operation snapshot,
      (store.phase operation).pending ≠ some snapshot := by
    intro hz operation snapshot hs
    rw [(h hz).2.2 operation] at hs
    cases hs
  cases action with
  | record operation change =>
    simp only [SnapshotStore.next]
    split
    · split
      · intro hz
        obtain ⟨hvalue, hfile, hquiet⟩ := h hz
        refine ⟨hvalue, hfile, ?_⟩
        intro other
        rw [setPhase_pending]
        split
        · rfl
        · exact hquiet other
      · intro hz
        cases hz
    · exact h
  | acquire operation =>
    simp only [SnapshotStore.next]
    split
    · next snapshot hp _ =>
      intro hz
      exact absurd (by rw [hp]; rfl) (hidle hz operation snapshot)
    · exact h
  | replace operation =>
    simp only [SnapshotStore.next]
    split
    · next snapshot hp =>
      intro hz
      exact absurd (by rw [hp]; rfl) (hidle hz operation snapshot)
    · exact h

/-- In order, the file of a quiet store is the value in memory, unless nothing has changed. -/
theorem Ordered.settled (h : store.Ordered) (hf : store.Fresh value) (hq : store.Quiet) :
    store.file = some store.memory ∨ store.file = none ∧ store.memory.2 = value := by
  by_cases hc : store.memory.1 = 0
  · obtain ⟨hvalue, hfile, -⟩ := hf hc
    exact .inr ⟨hfile, hvalue⟩
  · exact .inl (h.quiet hq hc)

end SnapshotStore

end Gail.Library
