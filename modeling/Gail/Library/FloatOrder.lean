import Mathlib

/-! The comparisons of doubles are those of a linear order on all values but NaN; the total order has a place for
NaN as well. -/
namespace Gail.Library.FloatOrder
open Float.Model Float.Model.UnpackedFloat

theorem cmp_toLex {α β : Type} [LinearOrder α] [LinearOrder β] (a c : α) (b d : β) :
    cmp (toLex (a, b)) (toLex (c, d)) = (cmp a c).then (cmp b d) := by
  rcases lt_trichotomy a c with h | h | h
  · rw [h.cmp_eq_lt]
    exact (Prod.Lex.toLex_lt_toLex.mpr (Or.inl h)).cmp_eq_lt
  · subst h
    rw [cmp_self_eq_eq]
    rcases lt_trichotomy b d with h | h | h
    · rw [h.cmp_eq_lt]
      exact LT.lt.cmp_eq_lt (Prod.Lex.toLex_lt_toLex.mpr (Or.inr ⟨rfl, h⟩))
    · subst h
      rw [cmp_self_eq_eq, cmp_self_eq_eq]
      rfl
    · rw [h.cmp_eq_gt]
      exact LT.lt.cmp_eq_gt (Prod.Lex.toLex_lt_toLex.mpr (Or.inr ⟨rfl, h⟩))
  · rw [h.cmp_eq_gt]
    exact (Prod.Lex.toLex_lt_toLex.mpr (Or.inl h)).cmp_eq_gt

/-- Where a value stands: by its sign and kind, then by its exponent and mantissa. The zeros are one, and NaN
stands nowhere. -/
def rank : UnpackedFloat → Option (ℤ ×ₗ ℤ ×ₗ ℤ)
  | .notANumber => none
  | .infinity .negative => some (toLex (-2, toLex (0, 0)))
  | .finite .negative mantissa exponent _ => some (toLex (-1, toLex (-exponent, -(mantissa : ℤ))))
  | .zero _ => some (toLex (0, toLex (0, 0)))
  | .finite .positive mantissa exponent _ => some (toLex (1, toLex (exponent, (mantissa : ℤ))))
  | .infinity .positive => some (toLex (2, toLex (0, 0)))

/-- Exponents are compared first and mantissas second, the other way round below zero. -/
theorem compare_then (e f : ℤ) (m n : Nat) :
    (compare e f).then (compare m n) = cmp (toLex (e, (m : ℤ))) (toLex (f, (n : ℤ))) := by
  rw [cmp_toLex, ← cmp_eq_compare, ← cmp_eq_compare, Nat.strictMono_cast.cmp_map_eq]

theorem compare_then_swap (e f : ℤ) (m n : Nat) :
    ((compare e f).then (compare m n)).swap = cmp (toLex (-e, -(m : ℤ))) (toLex (-f, -(n : ℤ))) := by
  have hneg : StrictAnti fun x : ℤ => -x := fun _ _ h => neg_lt_neg h
  rw [compare_then, cmp_toLex, cmp_toLex, Ordering.swap_then, cmp_swap, cmp_swap]
  exact congrArg₂ Ordering.then (hneg.cmp_map_eq e f).symm (hneg.cmp_map_eq (m : ℤ) n).symm

theorem compare_eq_cmp (a b : UnpackedFloat) :
    a.compare b = (rank a).bind fun x => (rank b).map fun y => cmp x y := by
  have hkind : ∀ (kind : ℤ) (x y : ℤ ×ₗ ℤ), cmp (toLex (kind, x)) (toLex (kind, y)) = cmp x y := by
    intro kind x y
    rw [cmp_toLex, cmp_self_eq_eq]
    rfl
  rcases a with ⟨_ | _⟩ | _ | _ | ⟨_ | _, m, e, _⟩ <;>
    rcases b with ⟨_ | _⟩ | _ | _ | ⟨_ | _, n, f, _⟩
  all_goals
    first
    | rfl
    | exact congrArg some ((compare_then e f m n).trans (hkind 1 _ _).symm)
    | exact congrArg some ((compare_then_swap e f m n).trans (hkind (-1) _ _).symm)

def rankOf (a : Float) : Option (ℤ ×ₗ ℤ ×ₗ ℤ) := rank a.toModel.unpack

theorem le_iff {a b : Float} :
    a ≤ b ↔ ∃ x y, rankOf a = some x ∧ rankOf b = some y ∧ x ≤ y := by
  have hmodel : a ≤ b ↔ (a.toModel.unpack.compare b.toModel.unpack).any (·.isLE) = true := decide_eq_true_iff
  rw [hmodel, compare_eq_cmp]
  change _ ↔ ∃ x y, rank a.toModel.unpack = some x ∧ rank b.toModel.unpack = some y ∧ x ≤ y
  rcases rank a.toModel.unpack with _ | x <;> rcases rank b.toModel.unpack with _ | y
  · simp
  · simp
  · simp
  · simp [Ordering.isLE_iff_ne_gt, cmp_eq_gt_iff]

theorem lt_iff {a b : Float} :
    a < b ↔ ∃ x y, rankOf a = some x ∧ rankOf b = some y ∧ x < y := by
  have hmodel : a < b ↔ (a.toModel.unpack.compare b.toModel.unpack == some .lt) = true := decide_eq_true_iff
  rw [hmodel, compare_eq_cmp]
  change _ ↔ ∃ x y, rank a.toModel.unpack = some x ∧ rank b.toModel.unpack = some y ∧ x < y
  rcases rank a.toModel.unpack with _ | x <;> rcases rank b.toModel.unpack with _ | y
  · simp
  · simp
  · simp
  · simp

/-- What compares with itself is anything but NaN. -/
theorem number_iff {a : Float} : a ≤ a ↔ a.toModel.unpack ≠ .notANumber := by
  have hrank : (∃ x, rankOf a = some x) ↔ a.toModel.unpack ≠ .notANumber := by
    unfold rankOf
    rcases a.toModel.unpack with ⟨_ | _⟩ | _ | _ | ⟨_ | _, _, _, _⟩ <;> simp [rank]
  rw [← hrank, le_iff]
  exact ⟨fun ⟨x, _, hx, _⟩ => ⟨x, hx⟩, fun ⟨x, hx⟩ => ⟨x, x, hx, hx, le_rfl⟩⟩

theorem isNaN_iff {a : Float} : a.isNaN = true ↔ ¬ a ≤ a := by
  rw [number_iff, not_not]
  change a.toModel.unpack.isNaN = true ↔ _
  rcases a.toModel.unpack with _ | _ | _ | _ <;> simp [UnpackedFloat.isNaN]

section TotalOrder

/-- `total_cmp` compares the bits as a signed integer, after it has turned the negative ones over. -/
def totalKey (x : Float) : ℤ :=
  let bits := x.toBits.toNat
  if bits < 2 ^ 63 then bits else 2 ^ 63 - 1 - (bits : ℤ)

/-- The key of infinity: all bits of the exponent and no others. -/
def infinityKey : ℤ := 2047 * 2 ^ 52

example : totalKey (1.0 / 0.0) = infinityKey := by decide

/-- The numbers that are not before infinity in the total order are infinite. -/
theorem rank_of_infinityKey_le {x : Float} {place : ℤ ×ₗ ℤ ×ₗ ℤ} (hx : infinityKey ≤ totalKey x)
    (h : rankOf x = some place) : place = toLex (2, toLex (0, 0)) := by
  have hrange : 2047 * 2 ^ 52 ≤ x.toModel.toBits.toBitVec.toNat ∧ x.toModel.toBits.toBitVec.toNat < 2 ^ 63 := by
    have hkey : totalKey x = if x.toModel.toBits.toBitVec.toNat < 2 ^ 63 then (x.toModel.toBits.toBitVec.toNat : ℤ)
        else 2 ^ 63 - 1 - (x.toModel.toBits.toBitVec.toNat : ℤ) := rfl
    rw [hkey, infinityKey] at hx
    have hbits := x.toModel.toBits.toBitVec.isLt
    norm_num at hx hbits ⊢
    split_ifs at hx <;> omega
  obtain ⟨hlow, hhigh⟩ := hrange
  have hexponent : @unpackExponent Format.binary64 x.toModel.toBits.toBitVec = -1#11 := by
    apply BitVec.eq_of_toNat_eq
    unfold unpackExponent
    rw [BitVec.toNat_cast, BitVec.extractLsb_toNat, Nat.shiftRight_eq_div_pow]
    change x.toModel.toBits.toBitVec.toNat / 2 ^ 52 % 2 ^ 11 = 2047
    omega
  have hsign : @unpackSign Format.binary64 x.toModel.toBits.toBitVec = 0#1 := by
    apply BitVec.eq_of_toNat_eq
    unfold unpackSign
    rw [BitVec.toNat_cast, BitVec.extractLsb_toNat, Nat.shiftRight_eq_div_pow]
    change x.toModel.toBits.toBitVec.toNat / 2 ^ 63 % 2 ^ 1 = 0
    omega
  unfold rankOf Float.Model.unpack UnpackedFloat.unpack at h
  simp only [hexponent, hsign, if_true] at h
  split_ifs at h
  · exact (Option.some.inj h).symm
  · cases h

end TotalOrder

end Gail.Library.FloatOrder
