import Mathlib.Data.List.Perm.Subperm
import Mathlib.Data.List.Rotate
import Mathlib.Data.Nat.ModEq

/-! A cursor that walks round a ring of items, and one that takes them in turn. -/
namespace Gail.Library

/-- How far ahead of the cursor a position is. -/
def ringDistance (size position cursor : Nat) : Nat :=
  if cursor % size ≤ position then position - cursor % size else position + size - cursor % size

theorem ringDistance_lt {size position cursor : Nat} (h : position < size) :
    ringDistance size position cursor < size := by
  have hc : cursor % size < size := Nat.mod_lt cursor (by omega)
  unfold ringDistance
  split <;> omega

/-- Walking on brings the cursor nearer to all that it does not pass. -/
theorem ringDistance_advance {size position cursor quota : Nat} (h : position < size)
    (hq : quota ≤ ringDistance size position cursor) :
    ringDistance size position ((cursor % size + quota) % size) =
      ringDistance size position cursor - quota := by
  have hc : cursor % size < size := Nat.mod_lt cursor (by omega)
  unfold ringDistance at hq ⊢
  rw [Nat.mod_mod]
  generalize cursor % size = offset at hq hc ⊢
  by_cases ho : offset ≤ position
  · rw [if_pos ho] at hq ⊢
    rw [Nat.mod_eq_of_lt (by omega), if_pos (by omega)]
    omega
  · rw [if_neg ho] at hq ⊢
    rcases Nat.lt_or_ge (offset + quota) size with hlt | hge
    · rw [Nat.mod_eq_of_lt hlt, if_neg (by omega)]
      omega
    · have hwrap : (offset + quota) % size = offset + quota - size := by
        rw [Nat.mod_eq_sub_mod hge, Nat.mod_eq_of_lt (by omega)]
      rw [hwrap, if_pos (by omega)]
      omega

section Turns

/-- Where a cursor that starts again from zero at its width points to in successive turns round a ring. -/
def turnPositions (width size cursor turns : Nat) : List Nat :=
  (List.range turns).map fun turn => (cursor + turn) % width % size

theorem turnPositions_succ (width size cursor turns : Nat) : turnPositions width size cursor (turns + 1) =
    cursor % width % size :: turnPositions width size (cursor + 1) turns := by
  unfold turnPositions
  rw [List.range_succ_eq_map, List.map_cons, List.map_map]
  refine congrArg₂ _ rfl (List.map_congr_left fun turn _ => ?_)
  rw [Function.comp_apply, Nat.succ_eq_add_one, Nat.add_right_comm, ← Nat.add_assoc]

theorem turnPositions_mod (width size cursor turns : Nat) :
    turnPositions width size (cursor % width) turns = turnPositions width size cursor turns := by
  unfold turnPositions
  simp only [Nat.mod_add_mod]

/-- As many turns as the ring has items reach each of them, unless the cursor starts again within them and its width is
no multiple of their number. -/
theorem turnPositions_nodup_iff {width size cursor : Nat} (hcursor : cursor < width) :
    (turnPositions width size cursor size).Nodup ↔ cursor + size ≤ width ∨ size ∣ width := by
  unfold turnPositions
  rw [List.nodup_map_iff_inj_on List.nodup_range]
  simp only [List.mem_range]
  constructor
  · intro hinjective
    by_contra hwrap
    obtain ⟨hlong, hdivides⟩ := not_or.mp hwrap
    have hrest : 0 < width % size := Nat.pos_of_ne_zero fun h => hdivides (Nat.dvd_of_mod_eq_zero h)
    have hsize : 0 < size := by omega
    have hbound := Nat.mod_lt width hsize
    have hdiv := Nat.div_add_mod width size
    -- From some turn on the cursor starts again, and it has been at the same position as many turns before as the
    -- width is past a multiple of the size, or in the first of them.
    obtain ⟨ahead, hahead⟩ : ∃ ahead, cursor + ahead = width := ⟨width - cursor, by omega⟩
    rcases Nat.lt_or_ge (width % size) ahead with hlt | hge
    · have hearlier : (cursor + (ahead - width % size)) % width % size = 0 := by
        have hposition : cursor + (ahead - width % size) = size * (width / size) := by omega
        rw [Nat.mod_eq_of_lt (show cursor + (ahead - width % size) < width by omega), hposition, Nat.mul_mod_right]
      have hagain : (cursor + ahead) % width % size = 0 := by rw [hahead, Nat.mod_self, Nat.zero_mod]
      have := hinjective _ (by omega) _ (by omega) (hearlier.trans hagain.symm)
      omega
    · have hfirst : (cursor + 0) % width % size = width % size - ahead := by
        have hposition : cursor + 0 = (width % size - ahead) + size * (width / size) := by omega
        rw [Nat.mod_eq_of_lt (show cursor + 0 < width by omega), hposition, Nat.add_mul_mod_self_left,
          Nat.mod_eq_of_lt (by omega)]
      have hagain : (cursor + width % size) % width % size = width % size - ahead := by
        have hposition : cursor + width % size = (width % size - ahead) + width := by omega
        have hwidth : width % size ≤ width := Nat.mod_le width size
        rw [hposition, Nat.add_mod_right, Nat.mod_eq_of_lt (show width % size - ahead < width by omega),
          Nat.mod_eq_of_lt (by omega)]
      have := hinjective _ hsize _ hbound (hfirst.trans hagain.symm)
      omega
  · intro hwrap first hfirst second hsecond heq
    have hsame : (cursor + first) % size = (cursor + second) % size := by
      rcases hwrap with hshort | hdivides
      · rwa [Nat.mod_eq_of_lt (show cursor + first < width by omega),
          Nat.mod_eq_of_lt (show cursor + second < width by omega)] at heq
      · rwa [Nat.mod_mod_of_dvd _ hdivides, Nat.mod_mod_of_dvd _ hdivides] at heq
    have hmod : first % size = second % size := Nat.ModEq.add_left_cancel' cursor hsame
    rwa [Nat.mod_eq_of_lt hfirst, Nat.mod_eq_of_lt hsecond] at hmod

theorem turnPositions_perm_range {width size cursor : Nat} (hsize : 0 < size)
    (h : (turnPositions width size cursor size).Nodup) :
    (turnPositions width size cursor size).Perm (List.range size) := by
  have hbelow : turnPositions width size cursor size ⊆ List.range size := by
    intro position hposition
    obtain ⟨turn, -, rfl⟩ := List.mem_map.mp hposition
    exact List.mem_range.mpr (Nat.mod_lt _ hsize)
  exact (List.subperm_of_subset h hbelow).perm_of_length_le (by simp [turnPositions])

end Turns

variable {α : Type*}

/-- The ring as seen from the cursor has an item at its distance. -/
theorem getElem?_rotate_ringDistance {ring : List α} {position cursor : Nat} (h : position < ring.length) :
    (ring.rotate (cursor % ring.length))[ringDistance ring.length position cursor]? = ring[position]? := by
  have hc : cursor % ring.length < ring.length := Nat.mod_lt cursor (by omega)
  rw [List.getElem?_rotate (ringDistance_lt h)]
  congr 1
  unfold ringDistance
  split
  · rw [Nat.sub_add_cancel (by omega), Nat.mod_eq_of_lt h]
  · rw [Nat.sub_add_cancel (by omega), Nat.add_mod_right, Nat.mod_eq_of_lt h]

end Gail.Library
