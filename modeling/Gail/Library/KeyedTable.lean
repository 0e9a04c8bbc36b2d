import Mathlib.Data.List.Nodup

/-! Tables of rows under distinct keys: what a statement changes that updates the rows it chooses in their places. -/
namespace Gail.Library
variable {ρ κ : Type*} [DecidableEq κ] {key : ρ → κ} {rows : List ρ} {chosen : ρ → Bool} {change : ρ → ρ}

/-- `UPDATE ... WHERE`. -/
def updateWhere (chosen : ρ → Bool) (change : ρ → ρ) (rows : List ρ) : List ρ :=
  rows.map fun row => if chosen row then change row else row

/-- The row of a key. -/
def rowOf (key : ρ → κ) (k : κ) (rows : List ρ) : Option ρ := rows.find? fun row => key row = k

theorem map_updateWhere {β : Type*} {f : ρ → β} (h : ∀ row, chosen row = true → f (change row) = f row) :
    (updateWhere chosen change rows).map f = rows.map f := by
  rw [updateWhere, List.map_map]
  refine List.map_congr_left fun row _ => ?_
  rw [Function.comp_apply]
  split
  · rename_i hchosen
    exact h row hchosen
  · rfl

/-- What holds of every row, and of every row that is changed, holds after the statement. -/
theorem forall_updateWhere {P : ρ → Prop} (h : ∀ row ∈ rows, P row)
    (hc : ∀ row ∈ rows, P row → chosen row = true → P (change row)) :
    ∀ row ∈ updateWhere chosen change rows, P row := by
  intro row hrow
  obtain ⟨old, hold, rfl⟩ := List.mem_map.mp hrow
  split
  · rename_i hchosen
    exact hc old hold (h old hold) hchosen
  · exact h old hold

theorem mem_updateWhere_of_not {row : ρ} (h : row ∈ rows) (hc : chosen row = false) :
    row ∈ updateWhere chosen change rows :=
  List.mem_map.mpr ⟨row, h, by rw [if_neg (by simp [hc])]⟩

theorem rowOf_some {k : κ} {row : ρ} (h : rowOf key k rows = some row) : row ∈ rows ∧ key row = k :=
  ⟨List.mem_of_find?_eq_some h, by simpa using List.find?_some h⟩

theorem rowOf_eq_none {k : κ} : rowOf key k rows = none ↔ ∀ row ∈ rows, key row ≠ k := by
  simp [rowOf]

theorem rowOf_eq_some (hd : (rows.map key).Nodup) {row : ρ} (h : row ∈ rows) : rowOf key (key row) rows = some row := by
  cases hf : rowOf key (key row) rows with
  | none => exact absurd rfl (rowOf_eq_none.mp hf row h)
  | some other =>
    have ho := rowOf_some hf
    exact congrArg some (List.inj_on_of_nodup_map hd ho.1 h ho.2)

/-- A statement that leaves the keys alone changes the row of a key as it changes any row. -/
theorem rowOf_updateWhere (h : ∀ row, chosen row = true → key (change row) = key row) (k : κ) :
    rowOf key k (updateWhere chosen change rows) =
      (rowOf key k rows).map fun row => if chosen row then change row else row := by
  rw [rowOf, updateWhere, List.find?_map, rowOf]
  congr 2
  funext row
  rw [Function.comp_apply]
  split
  · rename_i hchosen
    rw [h row hchosen]
  · rfl

theorem rowOf_append (k : κ) (others : List ρ) :
    rowOf key k (rows ++ others) = (rowOf key k rows).or (rowOf key k others) :=
  List.find?_append

theorem rowOf_singleton (row : ρ) (k : κ) : rowOf key k [row] = if key row = k then some row else none := by
  simp [rowOf, List.find?_cons]
  split <;> simp_all

omit [DecidableEq κ] in
/-- A new row with a key that no row has. -/
theorem nodup_keys_append (hd : (rows.map key).Nodup) {row : ρ} (h : ∀ other ∈ rows, key other ≠ key row) :
    ((rows ++ [row]).map key).Nodup := by
  rw [List.map_append, List.map_singleton]
  refine List.nodup_append.mpr ⟨hd, List.nodup_singleton _, ?_⟩
  intro a ha b hb
  obtain ⟨other, ho, rfl⟩ := List.mem_map.mp ha
  rw [List.mem_singleton.mp hb]
  exact h other ho

end Gail.Library
