import Mathlib.Data.List.Nodup

/-! Repairs of values, which may fail: when one repair is enough. -/
namespace Gail.Library
variable {α β κ : Type*}

/-- The repair comes to a value that it leaves as it is. -/
def Settles (repair : α → Option α) (a : α) : Prop := ∃ b, repair a = some b ∧ repair b = some b

/-- A repair of one step that may fail comes to rest where what it made passes the step as before. -/
theorem settles_checked_iff {repair : α → Option α} {check : α → Option β} {build : α → β → α}
    (hrepair : ∀ a, repair a = (check a).bind fun b => some (build a b)) {a : α}
    (hcheck : ∀ b, check a = some b → check (build a b) = some b) :
    Settles repair a ↔ ∃ b, check a = some b ∧ build (build a b) b = build a b := by
  constructor
  · rintro ⟨_, hfirst, hsecond⟩
    rw [hrepair] at hfirst
    obtain ⟨b, hb, hmade⟩ := Option.bind_eq_some_iff.mp hfirst
    obtain rfl := Option.some.inj hmade
    rw [hrepair, hcheck b hb] at hsecond
    exact ⟨b, hb, Option.some.inj hsecond⟩
  · rintro ⟨b, hb, hsame⟩
    refine ⟨build a b, ?_, ?_⟩
    · rw [hrepair, hb]
      rfl
    · rw [hrepair, hcheck b hb]
      exact congrArg some hsame

/-- Dropping items and repairing the others settles unless a repaired item is dropped. -/
theorem map_filter_idem_iff (keep : α → Bool) {repaired : α → α} (hidem : ∀ a, repaired (repaired a) = repaired a)
    (items : List α) :
    ((((items.filter keep).map repaired).filter keep).map repaired = (items.filter keep).map repaired) ↔
      ∀ a ∈ items, keep a = true → keep (repaired a) = true := by
  constructor
  · intro h a ha hkeep
    have hlength := congrArg List.length h
    rw [List.length_map, List.length_filter_eq_length_iff] at hlength
    exact hlength _ (List.mem_map_of_mem (List.mem_filter.mpr ⟨ha, hkeep⟩))
  · intro h
    have hall : ((items.filter keep).map repaired).filter keep = (items.filter keep).map repaired := by
      rw [List.filter_eq_self]
      intro b hb
      obtain ⟨a, ha, rfl⟩ := List.mem_map.mp hb
      obtain ⟨ha, hkeep⟩ := List.mem_filter.mp ha
      exact h a ha hkeep
    rw [hall, List.map_map]
    exact congrFun (congrArg List.map (funext hidem)) _

section Distinct
variable [DecidableEq κ] {key : α → κ}

/-- The items whose keys were not seen before, each key once. -/
def distinctFrom (key : α → κ) : List κ → List α → List α
  | _, [] => []
  | seen, a :: items =>
    if key a ∈ seen then distinctFrom key seen items else a :: distinctFrom key (key a :: seen) items

theorem distinctFrom_sublist (seen : List κ) (items : List α) : (distinctFrom key seen items).Sublist items := by
  induction items generalizing seen with
  | nil => exact List.Sublist.refl []
  | cons a items ih =>
    rw [distinctFrom]
    split_ifs
    · exact (ih seen).cons a
    · exact (ih (key a :: seen)).cons_cons a

theorem distinctFrom_fresh (seen : List κ) (items : List α) :
    ((distinctFrom key seen items).map key).Nodup ∧ ∀ a ∈ distinctFrom key seen items, key a ∉ seen := by
  induction items generalizing seen with
  | nil => exact ⟨List.nodup_nil, fun a ha => absurd ha List.not_mem_nil⟩
  | cons a items ih =>
    rw [distinctFrom]
    split_ifs with hseen
    · exact ih seen
    · obtain ⟨hnodup, hfresh⟩ := ih (key a :: seen)
      refine ⟨?_, ?_⟩
      · rw [List.map_cons, List.nodup_cons]
        refine ⟨fun hmem => ?_, hnodup⟩
        obtain ⟨b, hb, hkey⟩ := List.mem_map.mp hmem
        exact hfresh b hb (hkey ▸ List.mem_cons_self)
      · intro b hb
        rcases List.mem_cons.mp hb with rfl | hb
        · exact hseen
        · exact fun hold => hfresh b hb (List.mem_cons_of_mem _ hold)

theorem distinctFrom_of_fresh {seen : List κ} {items : List α} (hnodup : (items.map key).Nodup)
    (hfresh : ∀ a ∈ items, key a ∉ seen) : distinctFrom key seen items = items := by
  induction items generalizing seen with
  | nil => rfl
  | cons a items ih =>
    rw [List.map_cons, List.nodup_cons] at hnodup
    rw [distinctFrom, if_neg (hfresh a List.mem_cons_self), ih hnodup.2]
    intro b hb hold
    rcases List.mem_cons.mp hold with hsame | hold
    · exact hnodup.1 (hsame ▸ List.mem_map_of_mem hb)
    · exact hfresh b (List.mem_cons_of_mem a hb) hold

theorem distinctFrom_idem (items : List α) :
    distinctFrom key [] (distinctFrom key [] items) = distinctFrom key [] items :=
  distinctFrom_of_fresh (distinctFrom_fresh [] items).1 fun _ _ => List.not_mem_nil

end Distinct

end Gail.Library
