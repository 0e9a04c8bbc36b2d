import Gail.Library.FloatOrder
import Gail.Trading.Scalar
import Mathlib.Algebra.BigOperators.Group.List.Basic
import Mathlib.Algebra.Order.Field.Basic
import Mathlib.Tactic.Linarith

/-! The operations of the numbers in exact arithmetic, in the terms of ordered fields, and what holds of the
comparison and of the products of IEEE doubles, infinities and NaN among them. A double is a number if it compares
with itself. -/
namespace Gail.Trading
open Gail.Library

section Exact

theorem max_eq (x y : ℚ) : Scalar.max x y = max x y := by
  change (if x < y then y else x) = max x y
  rw [max_def]
  split_ifs with hlt hle <;> first | rfl | linarith

theorem abs_eq (x : ℚ) : Scalar.abs x = |x| := by
  change (if x < 0 then -x else x) = |x|
  split_ifs with hneg
  · rw [abs_of_neg hneg]
  · rw [abs_of_nonneg (not_lt.mp hneg)]

theorem total_eq (values : List ℚ) : total values = values.sum := by
  rw [total, List.sum_eq_foldl]
  congr 1
  norm_num

theorem clamp_eq_max_min {x low high : ℚ} (h : low ≤ high) : clamp x low high = max low (min x high) := by
  unfold clamp
  rcases lt_or_ge x low with hlow | hlow
  · rw [if_pos hlow, min_eq_left (hlow.le.trans h), max_eq_left hlow.le]
  · rw [if_neg (not_lt.mpr hlow)]
    rcases lt_or_ge high x with hhigh | hhigh
    · rw [if_pos hhigh, min_eq_right hhigh.le, max_eq_right h]
    · rw [if_neg (not_lt.mpr hhigh), min_eq_left hhigh, max_eq_right hlow]

theorem clamp_clamp {x low high : ℚ} (h : low ≤ high) :
    clamp (clamp x low high) low high = clamp x low high := by
  rw [clamp_eq_max_min h, clamp_eq_max_min h, min_eq_left (max_le h (min_le_right _ _)),
    max_eq_right (le_max_left _ _)]

theorem low_le_clamp {x low high : ℚ} (h : low ≤ high) : low ≤ clamp x low high := by
  rw [clamp_eq_max_min h]
  exact le_max_left _ _

theorem clamp_le_high {x low high : ℚ} (h : low ≤ high) : clamp x low high ≤ high := by
  rw [clamp_eq_max_min h]
  exact max_le h (min_le_right _ _)

theorem clamp_of_mem {x low high : ℚ} (hlow : low ≤ x) (hhigh : x ≤ high) : clamp x low high = x := by
  rw [clamp_eq_max_min (hlow.trans hhigh), min_eq_left hhigh, max_eq_right hlow]

theorem clamp_unit_mem (x : ℚ) : 0 ≤ clamp x 0.0 1.0 ∧ clamp x 0.0 1.0 ≤ 1 := by
  have hlow : (0.0 : ℚ) ≤ clamp x 0.0 1.0 := low_le_clamp (by norm_num)
  have hhigh : clamp x 0.0 1.0 ≤ (1.0 : ℚ) := clamp_le_high (by norm_num)
  norm_num at hlow hhigh ⊢
  exact ⟨hlow, hhigh⟩

theorem le_clamp_iff {x low high bound : ℚ} (hlow : low < bound) (hhigh : bound ≤ high) :
    bound ≤ clamp x low high ↔ bound ≤ x := by
  rw [clamp_eq_max_min (hlow.le.trans hhigh), le_max_iff, le_min_iff]
  exact ⟨fun h => (h.resolve_left hlow.not_ge).1, fun h => .inr ⟨h, hhigh⟩⟩

theorem clamp_le_iff {x low high bound : ℚ} (hlow : low ≤ bound) (hhigh : bound < high) :
    clamp x low high ≤ bound ↔ x ≤ bound := by
  rw [clamp_eq_max_min (hlow.trans hhigh.le), max_le_iff, min_le_iff]
  exact ⟨fun h => h.2.resolve_right hhigh.not_ge, fun h => ⟨hlow, .inl h⟩⟩

end Exact

class Scalar.Comparable (F : Type) [Scalar F] : Prop where
  lt_iff : ∀ {a b : F}, a < b ↔ a ≤ b ∧ ¬ b ≤ a
  le_trans : ∀ {a b c : F}, a ≤ b → b ≤ c → a ≤ c
  numbers : ∀ {a b : F}, a ≤ b → a ≤ a ∧ b ≤ b
  total : ∀ {a b : F}, a ≤ a → b ≤ b → a ≤ b ∨ b ≤ a
  zero_le_one : (0.0 : F) ≤ 1.0
  /-- The signals that are acted on start above zero. -/
  zero_lt_signals : (0.0 : F) < 0.2 ∧ (0.0 : F) < 0.65

instance Scalar.comparableRat : Scalar.Comparable ℚ where
  lt_iff := lt_iff_le_not_ge
  le_trans := le_trans
  numbers := fun _ => ⟨le_rfl, le_rfl⟩
  total := fun {a b} _ _ => le_total a b
  zero_le_one := by norm_num
  zero_lt_signals := by norm_num

instance Scalar.comparableFloat : Scalar.Comparable Float where
  lt_iff := by
    intro a b
    rw [FloatOrder.lt_iff]
    constructor
    · rintro ⟨x, y, hx, hy, hlt⟩
      refine ⟨FloatOrder.le_iff.mpr ⟨x, y, hx, hy, hlt.le⟩, fun hle => ?_⟩
      obtain ⟨y', x', hy', hx', hback⟩ := FloatOrder.le_iff.mp hle
      rw [Option.some.inj (hy'.symm.trans hy), Option.some.inj (hx'.symm.trans hx)] at hback
      exact hback.not_gt hlt
    · rintro ⟨hle, hnot⟩
      obtain ⟨x, y, hx, hy, hle⟩ := FloatOrder.le_iff.mp hle
      exact ⟨x, y, hx, hy, lt_of_not_ge fun hge => hnot (FloatOrder.le_iff.mpr ⟨y, x, hy, hx, hge⟩)⟩
  le_trans := by
    intro a b c hab hbc
    obtain ⟨x, y, hx, hy, hxy⟩ := FloatOrder.le_iff.mp hab
    obtain ⟨y', z, hy', hz, hyz⟩ := FloatOrder.le_iff.mp hbc
    rw [Option.some.inj (hy'.symm.trans hy)] at hyz
    exact FloatOrder.le_iff.mpr ⟨x, z, hx, hz, hxy.trans hyz⟩
  numbers := by
    intro a b hab
    obtain ⟨x, y, hx, hy, _⟩ := FloatOrder.le_iff.mp hab
    exact ⟨FloatOrder.le_iff.mpr ⟨x, x, hx, hx, le_rfl⟩, FloatOrder.le_iff.mpr ⟨y, y, hy, hy, le_rfl⟩⟩
  total := by
    intro a b ha hb
    obtain ⟨x, _, hx, _, _⟩ := FloatOrder.le_iff.mp ha
    obtain ⟨y, _, hy, _, _⟩ := FloatOrder.le_iff.mp hb
    exact (le_total x y).imp (fun h => FloatOrder.le_iff.mpr ⟨x, y, hx, hy, h⟩)
      fun h => FloatOrder.le_iff.mpr ⟨y, x, hy, hx, h⟩
  zero_le_one := by decide +kernel
  zero_lt_signals := by decide +kernel

class Scalar.Ieee (F : Type) [Scalar F] : Prop extends Scalar.Comparable F where
  /-- A factor that is neither negative nor above one brings nothing further from zero. -/
  abs_mul : ∀ {a m : F}, ¬ m < 0.0 → ¬ 1.0 < m → ¬ Scalar.abs a < Scalar.abs (a * m)
  mul_le : ∀ {a m : F}, ¬ a < 0.0 → ¬ m < 0.0 → ¬ 1.0 < m → ¬ a < a * m
  pos_of_mul : ∀ {a m : F}, ¬ m < 0.0 → 0.0 < a * m → 0.0 < a
  neg_of_mul : ∀ {a m : F}, ¬ m < 0.0 → a * m < 0.0 → a < 0.0

instance Scalar.ieeeRat : Scalar.Ieee ℚ where
  abs_mul := by
    intro a m hlow hhigh
    norm_num at hlow hhigh
    rw [abs_eq, abs_eq, not_lt, abs_mul, abs_of_nonneg hlow]
    exact mul_le_of_le_one_right (abs_nonneg a) hhigh
  mul_le := by
    intro a m ha hlow hhigh
    norm_num at ha hlow hhigh ⊢
    exact mul_le_of_le_one_right ha hhigh
  pos_of_mul := by
    intro a m hlow h
    norm_num at hlow h ⊢
    exact pos_of_mul_pos_left h hlow
  neg_of_mul := by
    intro a m hlow h
    norm_num at hlow h ⊢
    exact neg_of_mul_neg_left h hlow

namespace Scalar
variable {F : Type} [Scalar F] [Comparable F] {a b c x low high : F}

theorem not_lt_of_le (h : a ≤ b) : ¬ b < a := fun hlt => (Comparable.lt_iff.mp hlt).2 h

theorem lt_irrefl (a : F) : ¬ a < a := fun h => not_lt_of_le (Comparable.lt_iff.mp h).1 h

theorem lt_of_lt_of_le (h : a < b) (h' : b ≤ c) : a < c := by
  obtain ⟨hle, hnot⟩ := Comparable.lt_iff.mp h
  exact Comparable.lt_iff.mpr ⟨Comparable.le_trans hle h', fun hback => hnot (Comparable.le_trans h' hback)⟩

/-- Numbers that are not below are above. -/
theorem le_of_not_lt (ha : a ≤ a) (hb : b ≤ b) (h : ¬ a < b) : b ≤ a := by
  rcases Comparable.total hb ha with hle | hle
  · exact hle
  · by_contra hnot
    exact h (Comparable.lt_iff.mpr ⟨hle, hnot⟩)

/-- What comes out of a clamp is not below its lower bound. -/
theorem not_clamp_lt (h : ¬ high < low) : ¬ clamp x low high < low := by
  unfold clamp
  split_ifs with hlow hhigh
  · exact lt_irrefl low
  · exact h
  · exact hlow

theorem not_lt_clamp (h : ¬ high < low) : ¬ high < clamp x low high := by
  unfold clamp
  split_ifs with hlow hhigh
  · exact h
  · exact lt_irrefl high
  · exact hhigh

/-- A clamp to bounds at or above another bound is not below that one either. -/
theorem not_clamp_lt_of_le (hc : c ≤ low) (h : low ≤ high) : ¬ clamp x low high < c :=
  fun hlt => not_clamp_lt (not_lt_of_le h) (lt_of_lt_of_le hlt hc)

theorem clamp_clamp (h : low ≤ high) : clamp (clamp x low high) low high = clamp x low high := by
  have hordered := not_lt_of_le h
  conv_lhs => rw [clamp, if_neg (not_clamp_lt hordered), if_neg (not_lt_clamp hordered)]

/-- A clamp leaves what is not a number as it is. -/
theorem clamp_number_iff (h : low ≤ high) : clamp x low high ≤ clamp x low high ↔ x ≤ x := by
  obtain ⟨hlow, hhigh⟩ := Comparable.numbers h
  unfold clamp
  split_ifs with hbelow habove
  · exact iff_of_true hlow (Comparable.numbers (Comparable.lt_iff.mp hbelow).1).1
  · exact iff_of_true hhigh (Comparable.numbers (Comparable.lt_iff.mp habove).1).2
  · exact Iff.rfl

theorem le_clamp_iff_number (hc : c ≤ low) (h : low ≤ high) : c ≤ clamp x low high ↔ x ≤ x := by
  rw [← clamp_number_iff h]
  refine ⟨fun hle => (Comparable.numbers hle).2, fun hnumber => ?_⟩
  exact Comparable.le_trans hc (le_of_not_lt hnumber (Comparable.numbers hc).2 (not_clamp_lt (not_lt_of_le h)))

theorem clamp_le_iff_number (hc : high ≤ c) (h : low ≤ high) : clamp x low high ≤ c ↔ x ≤ x := by
  rw [← clamp_number_iff h]
  refine ⟨fun hle => (Comparable.numbers hle).1, fun hnumber => ?_⟩
  exact Comparable.le_trans (le_of_not_lt (Comparable.numbers hc).1 hnumber (not_lt_clamp (not_lt_of_le h))) hc

/-- Of numbers, no element is above the one that is chosen. -/
theorem le_maxBy {α : Type} {key : α → F} {items : List α} {best : α}
    (hnumbers : ∀ item ∈ items, key item ≤ key item) (h : maxBy key items = some best) :
    ∀ item ∈ items, key item ≤ key best := by
  have hrun : ∀ (items : List α) (first : α), (∀ item ∈ first :: items, key item ≤ key item) →
      ∀ item ∈ first :: items,
        key item ≤ key (items.foldl (fun best next => if key next < key best then best else next) first) := by
    intro items
    induction items with
    | nil =>
      intro first hnumbers item hitem
      rw [List.mem_singleton.mp hitem]
      exact hnumbers first List.mem_cons_self
    | cons next items ih =>
      intro first hnumbers item hitem
      have hfirst := hnumbers first List.mem_cons_self
      have hnext := hnumbers next (List.mem_cons_of_mem _ List.mem_cons_self)
      rw [List.foldl_cons]
      have hkept : ∃ kept, (if key next < key first then first else next) = kept ∧
          key first ≤ key kept ∧ key next ≤ key kept ∧ key kept ≤ key kept := by
        by_cases hless : key next < key first
        · exact ⟨first, if_pos hless, hfirst, (Comparable.lt_iff.mp hless).1, hfirst⟩
        · exact ⟨next, if_neg hless, le_of_not_lt hnext hfirst hless, hnext, hnext⟩
      obtain ⟨kept, hchoice, habove, hover, hself⟩ := hkept
      rw [hchoice]
      have hrest := ih kept (fun other hother => by
        rcases List.mem_cons.mp hother with rfl | hother
        · exact hself
        · exact hnumbers other (List.mem_cons_of_mem _ (List.mem_cons_of_mem _ hother)))
      rcases List.mem_cons.mp hitem with rfl | hitem
      · exact Comparable.le_trans habove (hrest kept List.mem_cons_self)
      · rcases List.mem_cons.mp hitem with rfl | hitem
        · exact Comparable.le_trans hover (hrest kept List.mem_cons_self)
        · exact hrest item (List.mem_cons_of_mem _ hitem)
  match items, h with
  | first :: items, h =>
    rw [← Option.some.inj h]
    exact hrun items first hnumbers

end Scalar

end Gail.Trading
