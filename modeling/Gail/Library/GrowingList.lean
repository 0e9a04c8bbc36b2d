import Mathlib.Data.List.Basic
import Mathlib.Logic.Relation

/-! Lists that only grow: entries are appended and changed in place, along a relation. -/
namespace Gail.Library
variable {α : Type*} {R S : α → α → Prop} {old mid new : List α}

/-- Every entry of the old list is still at its index, changed at most as the relation allows. -/
def Grows (R : α → α → Prop) (old new : List α) : Prop :=
  ∀ (i : Nat) a, old[i]? = some a → ∃ b, new[i]? = some b ∧ R a b

theorem Grows.refl (hR : ∀ a, R a a) (old : List α) : Grows R old old :=
  fun _ a ha => ⟨a, ha, hR a⟩

theorem Grows.trans (hR : ∀ {a b c}, R a b → R b c → R a c) (h : Grows R old mid)
    (h' : Grows R mid new) : Grows R old new := by
  intro i a ha
  obtain ⟨b, hb, hab⟩ := h i a ha
  obtain ⟨c, hc, hbc⟩ := h' i b hb
  exact ⟨c, hc, hR hab hbc⟩

theorem Grows.mono (hRS : ∀ a b, R a b → S a b) (h : Grows R old new) : Grows S old new := by
  intro i a ha
  obtain ⟨b, hb, hab⟩ := h i a ha
  exact ⟨b, hb, hRS a b hab⟩

theorem grows_append (hR : ∀ a, R a a) (old added : List α) : Grows R old (old ++ added) := by
  intro i a ha
  obtain ⟨hlt, -⟩ := List.getElem?_eq_some_iff.mp ha
  exact ⟨a, by rw [List.getElem?_append_left hlt, ha], hR a⟩

theorem grows_modify (hR : ∀ a, R a a) {index : Nat} {f : α → α}
    (hf : ∀ a, old[index]? = some a → R a (f a)) : Grows R old (old.modify index f) := by
  intro i a ha
  rw [List.getElem?_modify, ha]
  by_cases hi : index = i
  · subst hi; exact ⟨f a, by simp, hf a ha⟩
  · exact ⟨a, by simp [hi], hR a⟩

/-- Two changes in place at different indexes are no more than one change each. -/
theorem grows_modify_modify (hR : ∀ a, R a a) {index other : Nat} {f g : α → α}
    (hne : other ≠ index) (hg : ∀ a, old[other]? = some a → R a (g a))
    (hf : ∀ a, old[index]? = some a → R a (f a)) :
    Grows R old ((old.modify other g).modify index f) := by
  intro i a ha
  rw [List.getElem?_modify, List.getElem?_modify, ha]
  by_cases hi : index = i
  · subst hi; exact ⟨f a, by simp [hne], hf a ha⟩
  · by_cases ho : other = i
    · subst ho; exact ⟨g a, by simp [hi], hg a ha⟩
    · exact ⟨a, by simp [hi, ho], hR a⟩

/-- An entry below the old length comes from the entry at its index. -/
theorem Grows.origin (h : Grows R old new) {i : Nat} {b : α} (hi : i < old.length)
    (hb : new[i]? = some b) : ∃ a, old[i]? = some a ∧ R a b := by
  obtain ⟨b', hb', hab⟩ := h i old[i] (List.getElem?_eq_getElem hi)
  cases Option.some.inj (hb.symm.trans hb')
  exact ⟨old[i], List.getElem?_eq_getElem hi, hab⟩

/-- What the relation keeps is the same list when nothing is appended. -/
theorem Grows.map_eq {β : Type*} {f : α → β} (hf : ∀ a b, R a b → f a = f b) (h : Grows R old new)
    (hl : new.length = old.length) : new.map f = old.map f := by
  apply List.ext_getElem?
  intro i
  rw [List.getElem?_map, List.getElem?_map]
  by_cases hi : i < old.length
  · obtain ⟨b, hb, hab⟩ := h i old[i] (List.getElem?_eq_getElem hi)
    rw [hb, List.getElem?_eq_getElem hi, Option.map_some, Option.map_some, hf _ _ hab]
  · have hnew : new.length ≤ i := by omega
    rw [List.getElem?_eq_none hnew, List.getElem?_eq_none (by omega)]

end Gail.Library
