import Mathlib.Data.List.DropRight

/-! Queues that drop at most one item, the oldest, to make room for a new one. -/
namespace Gail.Library
variable {α : Type*} {bound : Nat} {items : List α}

/-- Adds an item at the end, and drops the first one where the queue is full. -/
def pushRing (bound : Nat) (items : List α) (item : α) : List α :=
  (if bound ≤ items.length then items.tail else items) ++ [item]

theorem length_pushRing (bound : Nat) (items : List α) (item : α) :
    (pushRing bound items item).length =
      if bound ≤ items.length then max 1 items.length else items.length + 1 := by
  unfold pushRing
  split
  · rw [List.length_append, List.length_tail, List.length_singleton]
    omega
  · rw [List.length_append, List.length_singleton]

/-- A queue stays within its bound, and one that is above it stays above. -/
theorem length_pushRing_le (item : α) :
    (pushRing bound items item).length ≤ max 1 bound ↔ items.length ≤ max 1 bound := by
  rw [length_pushRing]
  split <;> omega

theorem length_rtake (n : Nat) (items : List α) : (items.rtake n).length = min n items.length := by
  unfold List.rtake
  rw [List.length_drop]
  omega

/-- What holds the last items of a history holds them after one more item of both. -/
theorem pushRing_rtake (h : 0 < bound) (history : List α) (item : α) :
    pushRing bound (history.rtake bound) item = (history ++ [item]).rtake bound := by
  obtain ⟨bound, rfl⟩ := Nat.exists_eq_succ_of_ne_zero h.ne'
  rw [List.rtake_concat_succ]
  unfold pushRing
  congr 1
  rw [length_rtake]
  unfold List.rtake
  split
  · rw [List.tail_drop]
    congr 1
    omega
  · congr 1
    omega

theorem map_pushRing {β : Type*} (f : α → β) (item : α) :
    (pushRing bound items item).map f = pushRing bound (items.map f) (f item) := by
  unfold pushRing
  rw [List.length_map, List.map_append]
  split
  · rw [List.map_tail]
    rfl
  · rfl

theorem map_rtake {β : Type*} (f : α → β) (n : Nat) : (items.rtake n).map f = (items.map f).rtake n := by
  unfold List.rtake
  rw [List.map_drop, List.length_map]

/-- One more item moves the window on when the history, without repetition, has not grown. -/
theorem pushRing_rtake_ne (h : 2 ≤ bound) {history : List α} (hnodup : history.Nodup) (item : α) :
    pushRing bound (history.rtake bound) item ≠ history.rtake bound := by
  intro hsame
  have hlength := congrArg List.length hsame
  rw [length_pushRing] at hlength
  split at hlength
  · rename_i hfull
    have hwindow : (history.rtake bound).Nodup := hnodup.sublist (List.drop_sublist _ _)
    match hw : history.rtake bound with
    | [] => rw [hw] at hfull; exact absurd hfull (by simp; omega)
    | [a] => rw [hw] at hfull; exact absurd hfull (by simp; omega)
    | a :: b :: rest =>
      rw [hw] at hsame hwindow hfull
      rw [pushRing, if_pos hfull] at hsame
      have hhead : b = a := (List.cons.inj hsame).1
      exact (List.nodup_cons.mp hwindow).1 (hhead ▸ List.mem_cons_self)
  · omega

end Gail.Library
