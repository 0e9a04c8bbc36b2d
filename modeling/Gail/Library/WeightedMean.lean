import Mathlib.Algebra.Order.BigOperators.Group.List
import Mathlib.Algebra.Order.Field.Basic
import Mathlib.Algebra.BigOperators.Ring.List
import Mathlib.Tactic.LinearCombination
import Mathlib.Tactic.Ring

/-! Means of weighted values, and what they do when the weight of one value changes. -/
namespace Gail.Library
universe u v
variable {K : Type u} {ι : Type v}

section Field
variable [Field K]

/-- The sum of the weights. -/
def mass (weight : ι → K) (items : List ι) : K := (items.map weight).sum

/-- The sum of the values, each times its weight. -/
def moment (value weight : ι → K) (items : List ι) : K :=
  (items.map fun item => value item * weight item).sum

def weightedMean (value weight : ι → K) (items : List ι) : K :=
  moment value weight items / mass weight items

variable {value weight : ι → K}

theorem mass_append (items others : List ι) :
    mass weight (items ++ others) = mass weight items + mass weight others := by
  rw [mass, List.map_append, List.sum_append]
  rfl

theorem moment_append (items others : List ι) :
    moment value weight (items ++ others) = moment value weight items + moment value weight others := by
  rw [moment, List.map_append, List.sum_append]
  rfl

theorem mass_perm {items others : List ι} (h : items.Perm others) :
    mass weight items = mass weight others := (h.map weight).sum_eq

theorem moment_perm {items others : List ι} (h : items.Perm others) :
    moment value weight items = moment value weight others := (h.map _).sum_eq

theorem mass_of_forall_eq {items : List ι} {w : K} (h : ∀ item ∈ items, weight item = w) :
    mass weight items = items.length * w := by
  rw [mass, List.map_congr_left h, List.map_const', List.sum_replicate, nsmul_eq_mul]

theorem moment_of_forall_eq {items : List ι} {x w : K}
    (h : ∀ item ∈ items, value item = x ∧ weight item = w) :
    moment value weight items = x * mass weight items := by
  rw [mass_of_forall_eq fun item hm => (h item hm).2, moment,
    List.map_congr_left (g := fun _ => x * w) fun item hm => by rw [(h item hm).1, (h item hm).2],
    List.map_const', List.sum_replicate, nsmul_eq_mul]
  ring

/-- The mean with the items of one value and one weight apart. -/
theorem weightedMean_parts {parts rest : List ι} {x w : K}
    (h : ∀ item ∈ parts, value item = x ∧ weight item = w) :
    weightedMean value weight (parts ++ rest) =
      (x * (parts.length * w) + moment value weight rest) /
        (parts.length * w + mass weight rest) := by
  have hmass := mass_of_forall_eq fun item hm => (h item hm).2
  rw [weightedMean, moment_append, mass_append, moment_of_forall_eq h, hmass]

theorem weightedMean_perm {items others : List ι} (h : items.Perm others) :
    weightedMean value weight items = weightedMean value weight others := by
  rw [weightedMean, weightedMean, mass_perm h, moment_perm h]

/-- One value has its weight changed: the mean stays only when the weight does, or when the value is
the mean of the others. -/
theorem mean_reweighed_iff {x m m' rest total : K} (hm : m + total ≠ 0) (hm' : m' + total ≠ 0) :
    (x * m' + rest) / (m' + total) = (x * m + rest) / (m + total) ↔ m' = m ∨ x * total = rest := by
  rw [div_eq_div_iff hm' hm, ← sub_eq_zero, ← sub_eq_zero (a := m'), ← sub_eq_zero (a := x * total),
    ← mul_eq_zero]
  constructor
  · intro h
    linear_combination h
  · intro h
    linear_combination h

end Field

section Order
variable [Field K] [LinearOrder K] [IsStrictOrderedRing K] {value weight : ι → K} {items : List ι}

theorem mass_nonneg (h : ∀ item ∈ items, 0 ≤ weight item) : 0 ≤ mass weight items := by
  apply List.sum_nonneg
  intro w hw
  obtain ⟨item, hm, rfl⟩ := List.mem_map.mp hw
  exact h item hm

theorem mass_pos (h : ∀ item ∈ items, 0 < weight item) (hne : items ≠ []) : 0 < mass weight items := by
  obtain ⟨item, rest, rfl⟩ := List.exists_cons_of_ne_nil hne
  have hrest : 0 ≤ mass weight rest :=
    mass_nonneg fun other ho => (h other (List.mem_cons_of_mem _ ho)).le
  have hsplit : mass weight (item :: rest) = weight item + mass weight rest := by
    rw [mass, List.map_cons, List.sum_cons]
    rfl
  rw [hsplit]
  exact add_pos_of_pos_of_nonneg (h item List.mem_cons_self) hrest

/-- A mean lies between the bounds of its values. -/
theorem weightedMean_mem {low high : K} (hw : ∀ item ∈ items, 0 < weight item) (hne : items ≠ [])
    (hv : ∀ item ∈ items, low ≤ value item ∧ value item ≤ high) :
    low ≤ weightedMean value weight items ∧ weightedMean value weight items ≤ high := by
  have hpos := mass_pos hw hne
  rw [weightedMean, le_div_iff₀ hpos, div_le_iff₀ hpos, mass, ← List.sum_map_mul_left, ← List.sum_map_mul_left]
  constructor
  · apply List.sum_le_sum
    intro item hm
    exact mul_le_mul_of_nonneg_right (hv item hm).1 (hw item hm).le
  · apply List.sum_le_sum
    intro item hm
    exact mul_le_mul_of_nonneg_right (hv item hm).2 (hw item hm).le

end Order
end Gail.Library
