import Gail.Library.StableSort
import Mathlib.Data.List.Destutter

/-! Elements of a list by their place: which one a search finds, which one is the last, and the first one of each
key. -/
namespace Gail.Library

section Search
variable {α β : Type*}

/-- A search that asks each part in turn is a search of the parts in a row. -/
theorem findSome?_find? (parts : β → List α) (accept : α → Bool) (items : List β) :
    (items.findSome? fun item => (parts item).find? accept) = (items.flatMap parts).find? accept := by
  induction items with
  | nil => rfl
  | cons item items ih =>
    rw [List.findSome?_cons, List.flatMap_cons, List.find?_append, ih]
    cases (parts item).find? accept <;> rfl

/-- A search finds nothing bad exactly when a good match comes before every bad one. -/
theorem find?_good_iff {accept : α → Bool} {good : α → Prop} {items : List α} :
    (∀ found, items.find? accept = some found → good found) ↔
      ∀ early bad later, items = early ++ bad :: later → accept bad = true → ¬ good bad →
        ∃ found ∈ early, accept found = true ∧ good found := by
  constructor
  · rintro h early bad later rfl hbad hnot
    cases he : early.find? accept with
    | some found =>
      refine ⟨found, List.mem_of_find?_eq_some he, List.find?_some he, h found ?_⟩
      rw [List.find?_append, he]
      rfl
    | none =>
      refine absurd (h bad ?_) hnot
      rw [List.find?_append, he, List.find?_cons_of_pos hbad]
      rfl
  · intro h found hfound
    obtain ⟨haccept, early, later, rfl, hearly⟩ := List.find?_eq_some_iff_append.mp hfound
    by_contra hnot
    obtain ⟨other, ho, hother, -⟩ := h early found later rfl haccept hnot
    have := hearly other ho
    rw [hother] at this
    cases this

/-- An element is the last one or one of those before it. -/
theorem split_snoc {before after early : List α} {a last : α} (h : before ++ a :: after = early ++ [last]) :
    (after = [] ∧ a = last) ∨ a ∈ early := by
  rcases List.eq_nil_or_concat after with rfl | ⟨init, final, rfl⟩
  · obtain ⟨-, hlast⟩ := List.append_inj' h rfl
    exact .inl ⟨rfl, List.singleton_inj.mp hlast⟩
  · have hassoc : before ++ a :: (init ++ [final]) = (before ++ a :: init) ++ [final] := by simp
    rw [List.concat_eq_append, hassoc] at h
    obtain ⟨rfl, -⟩ := List.append_inj' h rfl
    exact .inr (by simp)

end Search

variable {α κ : Type*} [LinearOrder κ] {key : α → κ} {items : List α}

def firstPerKey (key : α → κ) (items : List α) : List α :=
  (sortByKey key items).destutter fun a b => key a ≠ key b

private theorem mem_destutter'_iff {first x : α} {rest : List α}
    (h : (first :: rest).Pairwise fun a b => key a ≤ key b) :
    x ∈ rest.destutter' (fun a b => key a ≠ key b) first ↔
      (first :: rest).find? (fun a => key a = key x) = some x := by
  induction rest generalizing first with
  | nil =>
    rw [List.destutter'_nil, List.mem_singleton, List.find?_cons]
    constructor
    · rintro rfl
      simp
    · intro hx
      split at hx
      · exact (Option.some.inj hx).symm
      · cases hx
  | cons next rest ih =>
    obtain ⟨hfirst, hrest⟩ := List.pairwise_cons.mp h
    by_cases hkey : key first = key next
    · -- The next item repeats the key, and is dropped.
      have hkept : (first :: rest).Pairwise fun a b => key a ≤ key b :=
        List.pairwise_cons.mpr ⟨fun b hb => hfirst b (List.mem_cons_of_mem next hb), hrest.tail⟩
      rw [List.destutter'_cons_neg _ (not_not.mpr hkey), ih hkept, List.find?_cons, List.find?_cons,
        List.find?_cons, hkey]
      cases decide (key next = key x) <;> rfl
    · rw [List.destutter'_cons_pos _ hkey, List.mem_cons, ih hrest, List.find?_cons (a := first)]
      by_cases hx : key first = key x
      · have hlater : (next :: rest).find? (fun a => decide (key a = key x)) ≠ some x := by
          intro hfound
          have hmem := List.mem_of_find?_eq_some hfound
          have hnext : key first < key next := lt_of_le_of_ne (hfirst next List.mem_cons_self) hkey
          have hle : key next ≤ key x := by
            rcases List.mem_cons.mp hmem with rfl | hmem
            · exact le_rfl
            · exact (List.pairwise_cons.mp hrest).1 x hmem
          exact absurd (hnext.trans_le hle) (hx ▸ lt_irrefl _)
        rw [decide_eq_true hx]
        simp only [Option.some.injEq]
        exact ⟨fun h => (h.resolve_right hlater).symm, fun h => .inl h.symm⟩
      · rw [decide_eq_false hx]
        simp only [or_iff_right_iff_imp]
        rintro rfl
        exact absurd rfl hx

/-- What is kept is, for each key, the first item that had it. -/
theorem mem_firstPerKey_iff {x : α} :
    x ∈ firstPerKey key items ↔ items.find? (fun a => key a = key x) = some x := by
  have hsorted : StablySorted key items (sortByKey key items) := stablySorted_sortByKey items
  have hstable := hsorted.stable (key x)
  have hfind : (sortByKey key items).find? (fun a => key a = key x) =
      items.find? fun a => key a = key x := by
    rw [← List.head?_filter, ← List.head?_filter, hstable]
  rw [← hfind, firstPerKey]
  have hpairs := pairwise_sortByKey key items
  cases hitems : sortByKey key items with
  | nil => simp
  | cons first rest =>
    rw [hitems] at hpairs
    exact mem_destutter'_iff hpairs

theorem pairwise_firstPerKey (key : α → κ) (items : List α) :
    (firstPerKey key items).Pairwise fun a b => key a < key b := by
  have hsub : (firstPerKey key items).Sublist (sortByKey key items) := List.destutter_sublist _ _
  have hle := (pairwise_sortByKey key items).sublist hsub
  have hne : (firstPerKey key items).IsChain fun a b => key a ≠ key b := List.isChain_destutter _ _
  have hlt : (firstPerKey key items).IsChain fun a b => key a < key b := by
    rw [List.isChain_iff_forall_rel_of_append_cons_cons]
    intro a b before after hsplit
    have hab := List.isChain_iff_forall_rel_of_append_cons_cons.mp hle.isChain hsplit
    exact lt_of_le_of_ne hab (List.isChain_iff_forall_rel_of_append_cons_cons.mp hne hsplit)
  have : IsTrans α fun a b => key a < key b := ⟨fun _ _ _ => lt_trans⟩
  exact List.isChain_iff_pairwise.mp hlt

/-- Items whose keys rise are kept as they are. -/
theorem firstPerKey_of_pairwise (h : items.Pairwise fun a b => key a < key b) :
    firstPerKey key items = items := by
  rw [firstPerKey, sortByKey_of_pairwise (h.imp fun hlt => hlt.le)]
  exact List.destutter_of_isChain _ _ (h.imp fun hlt => hlt.ne).isChain

end Gail.Library
