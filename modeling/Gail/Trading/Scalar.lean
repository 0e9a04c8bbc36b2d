import Mathlib.Algebra.Order.Ring.Rat
import Mathlib.Data.List.Basic
import Mathlib.Data.Nat.Sqrt

/-! The numbers the trading controller computes with. Its operations are those of an IEEE double and
stay uninterpreted, so what is proved over them holds whatever they round to. -/
namespace Gail.Trading

class Scalar (F : Type) extends Add F, Sub F, Mul F, Div F, Neg F, LT F, LE F, OfScientific F where
  ltDecidable : DecidableLT F
  leDecidable : DecidableLE F
  /-- The conversion `as f64` of an unsigned integer. -/
  ofCount : Nat → F
  abs : F → F
  sqrt : F → F
  signum : F → F
  max : F → F → F
  isFinite : F → Bool
  /-- `f64::EPSILON`. -/
  epsilon : F

/-- The type the source computes with. -/
instance : Scalar Float where
  ltDecidable := inferInstance
  leDecidable := inferInstance
  ofCount := Float.ofNat
  abs := Float.abs
  sqrt := Float.sqrt
  signum x := if x.isNaN then x else if 1.0 / x < 0.0 || x < 0.0 then -1.0 else 1.0
  max x y := if x.isNaN then y else if y.isNaN then x else if x < y then y else x
  isFinite := Float.isFinite
  epsilon := 2.220446049250313e-16

/-- Exact arithmetic, for runs that are evaluated. The square root is that of the integer part. -/
instance : Scalar ℚ where
  ltDecidable := inferInstance
  leDecidable := inferInstance
  ofCount n := n
  abs x := if x < 0 then -x else x
  sqrt x := Nat.sqrt x.floor.toNat
  signum x := if x < 0 then -1 else 1
  max x y := if x < y then y else x
  isFinite _ := true
  epsilon := 1 / 2 ^ 52

theorem isFinite_rat (x : ℚ) : Scalar.isFinite x = true := rfl

section
variable {F : Type} [Scalar F]

instance Scalar.decidableLT : DecidableLT F := Scalar.ltDecidable

instance Scalar.decidableLE : DecidableLE F := Scalar.leDecidable

/-- `f64::clamp`. -/
def clamp (x low high : F) : F := if x < low then low else if high < x then high else x

/-- `Ord::clamp` on an unsigned integer. -/
def clampCount (n low high : Nat) : Nat := min (max n low) high

theorem le_clampCount {n low high : Nat} (h : low ≤ high) : low ≤ clampCount n low high :=
  le_min (le_max_right n low) h

theorem clampCount_le {n low high : Nat} : clampCount n low high ≤ high := min_le_right _ high

/-- `Iterator::sum`. -/
def total (values : List F) : F := values.foldl (· + ·) 0.0

/-- The mean that the source writes as a sum over a length. -/
def mean (values : List F) : F := total values / Scalar.ofCount values.length

/-- `Iterator::max_by` for the order `partial_cmp(..).unwrap_or(Equal)` of a key: of several greatest
elements, the last one. -/
def maxBy {α : Type} (key : α → F) : List α → Option α
  | [] => none
  | item :: items =>
    some (items.foldl (fun best next => if key next < key best then best else next) item)

theorem foldl_choice_mem {α : Type} {choose : α → α → α}
    (hc : ∀ a b, choose a b = a ∨ choose a b = b) (items : List α) (item : α) :
    items.foldl choose item ∈ item :: items := by
  induction items generalizing item with
  | nil => exact List.mem_singleton.mpr rfl
  | cons next items ih =>
    have h := ih (choose item next)
    rcases hc item next with he | he <;> rw [List.foldl_cons, he] <;> rw [he] at h
    · rcases List.mem_cons.mp h with h | h
      · rw [h]; exact List.mem_cons_self
      · exact List.mem_cons_of_mem _ (List.mem_cons_of_mem _ h)
    · exact List.mem_cons_of_mem _ h

theorem maxBy_mem {α : Type} {key : α → F} {items : List α} {best : α}
    (h : maxBy key items = some best) : best ∈ items := by
  match items, h with
  | item :: items, h =>
    rw [← Option.some.inj h]
    refine foldl_choice_mem ?_ items item
    intro a b
    split
    · exact Or.inl rfl
    · exact Or.inr rfl

/-- The comparison of numbers that are all comparable: what is below one of two is below the other, or the
other is below that one. -/
class Scalar.Ordered (F : Type) [Scalar F] : Prop where
  asymm : ∀ {a b : F}, a < b → ¬ b < a
  split : ∀ {a b : F} (c : F), a < b → a < c ∨ c < b

instance Scalar.orderedRat : Scalar.Ordered ℚ where
  asymm := lt_asymm
  split := fun c h => (lt_or_ge _ c).imp_right fun hle => hle.trans_lt h

/-- No element is above the one that is chosen. -/
theorem maxBy_max [Scalar.Ordered F] {α : Type} {key : α → F} {items : List α} {best : α}
    (h : maxBy key items = some best) : ∀ item ∈ items, ¬ key best < key item := by
  have hrun : ∀ (items : List α) (first : α), ∀ item ∈ first :: items,
      ¬ key (items.foldl (fun best next => if key next < key best then best else next) first) < key item := by
    intro items
    induction items with
    | nil =>
      intro first item hitem hlt
      rw [List.mem_singleton.mp hitem] at hlt
      exact Scalar.Ordered.asymm hlt hlt
    | cons next items ih =>
      intro first item hitem hlt
      rw [List.foldl_cons] at hlt
      set kept := if key next < key first then first else next with hkept
      have habove : ¬ key kept < key first ∧ ¬ key kept < key next := by
        by_cases hless : key next < key first
        · rw [hkept, if_pos hless]
          exact ⟨fun h => Scalar.Ordered.asymm h h, Scalar.Ordered.asymm hless⟩
        · rw [hkept, if_neg hless]
          exact ⟨hless, fun h => Scalar.Ordered.asymm h h⟩
      rcases List.mem_cons.mp hitem with rfl | hitem
      · rcases Scalar.Ordered.split (key kept) hlt with hlt | hlt
        · exact ih kept kept List.mem_cons_self hlt
        · exact habove.1 hlt
      · rcases List.mem_cons.mp hitem with rfl | hitem
        · rcases Scalar.Ordered.split (key kept) hlt with hlt | hlt
          · exact ih kept kept List.mem_cons_self hlt
          · exact habove.2 hlt
        · exact ih kept item (List.mem_cons_of_mem _ hitem) hlt
  match items, h with
  | first :: items, h =>
    rw [← Option.some.inj h]
    exact hrun items first

end

end Gail.Trading
