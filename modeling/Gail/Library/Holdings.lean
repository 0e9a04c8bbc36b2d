import Mathlib.Algebra.BigOperators.Group.Finset.Piecewise

/-! What numbered holders have between them, when one of them changes. -/
namespace Gail.Library
open Finset
variable {β M : Type*} [AddCommMonoid M]

/-- The sum of what the first holders have. -/
def holdings (weight : β → M) (count : Nat) (phase : Nat → β) : M :=
  ∑ i ∈ range count, weight (phase i)

variable {weight : β → M} {count : Nat} {phase : Nat → β} {index : Nat}

/-- A holder that changes takes what it had out of the sum and brings what it has. -/
theorem holdings_update (weight : β → M) (phase : Nat → β) (h : index < count) (next : β) :
    weight (phase index) + holdings weight count (Function.update phase index next) =
      weight next + holdings weight count phase := by
  have hmem : index ∈ range count := mem_range.mpr h
  have hrest : ∑ i ∈ (range count).erase index, weight (Function.update phase index next i) =
      ∑ i ∈ (range count).erase index, weight (phase i) := by
    apply sum_congr rfl
    intro i hi
    rw [Function.update_of_ne (ne_of_mem_erase hi)]
  unfold holdings
  rw [← add_sum_erase _ _ hmem, ← add_sum_erase (range count) (fun i => weight (phase i)) hmem, hrest,
    Function.update_self, add_left_comm]

/-- A holder that has the same as before leaves the sum. -/
theorem holdings_update_same (next : β) (h : weight next = weight (phase index)) :
    holdings weight count (Function.update phase index next) = holdings weight count phase := by
  apply sum_congr rfl
  intro i _
  rcases eq_or_ne i index with rfl | hne
  · rw [Function.update_self, h]
  · rw [Function.update_of_ne hne]

/-- A new holder adds what it has. -/
theorem holdings_succ (weight : β → M) (count : Nat) (phase : Nat → β) :
    holdings weight (count + 1) phase = holdings weight count phase + weight (phase count) :=
  sum_range_succ _ _

theorem holdings_update_ge (h : count ≤ index) (next : β) :
    holdings weight count (Function.update phase index next) = holdings weight count phase := by
  apply sum_congr rfl
  intro i hi
  rw [Function.update_of_ne ((mem_range.mp hi).trans_le h).ne]

/-- Nobody has anything when a measure that is zero only on nothing adds up to zero. -/
theorem holdings_eq_zero {measure : M →+ Nat}
    (hm : ∀ i, measure (weight (phase i)) = 0 → weight (phase i) = 0)
    (h : measure (holdings weight count phase) = 0) : holdings weight count phase = 0 := by
  unfold holdings at h ⊢
  rw [map_sum, sum_eq_zero_iff] at h
  exact sum_eq_zero fun i hi => hm i (h i hi)

end Gail.Library
