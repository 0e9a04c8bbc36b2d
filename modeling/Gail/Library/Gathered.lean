import Mathlib.Data.List.Induction
import Mathlib.Data.List.Sort

/-! Lists in increasing order of a rank, and values gathered from a list under ordered keys, each made by the first item
of its key and extended by the others. -/
namespace Gail.Library
section Ranked
variable {α κ : Type*} [LinearOrder κ] {rank : α → κ} {items : List α} {item : α}

/-- The ranks increase along the list. -/
def Ranked (rank : α → κ) (items : List α) : Prop := items.Pairwise fun a b => rank a < rank b

/-- The item before the first one of a greater rank. -/
def insertRanked (rank : α → κ) (items : List α) (item : α) : List α :=
  items.takeWhile (fun other => !decide (rank item < rank other)) ++
    item :: items.dropWhile fun other => !decide (rank item < rank other)

theorem Ranked.sublist {part : List α} (h : Ranked rank items) (hs : part.Sublist items) :
    Ranked rank part := List.Pairwise.sublist hs h

theorem Ranked.nodup (h : Ranked rank items) : (items.map rank).Nodup :=
  List.pairwise_map.mpr (h.imp ne_of_lt)

/-- Of one rank a ranked list has one item. -/
theorem Ranked.inj (h : Ranked rank items) {a b : α} (ha : a ∈ items) (hb : b ∈ items)
    (hr : rank a = rank b) : a = b := List.inj_on_of_nodup_map h.nodup ha hb hr

theorem mem_insertRanked {a : α} : a ∈ insertRanked rank items item ↔ a = item ∨ a ∈ items := by
  rw [insertRanked, List.mem_append, List.mem_cons, or_left_comm, ← List.mem_append,
    List.takeWhile_append_dropWhile]

theorem Ranked.insertRanked (h : Ranked rank items) (hn : ∀ a ∈ items, rank a ≠ rank item) :
    Ranked rank (insertRanked rank items item) := by
  induction items with
  | nil => exact List.pairwise_singleton _ _
  | cons first items ih =>
    obtain ⟨hfirst, hitems⟩ := List.pairwise_cons.mp h
    by_cases hlt : rank item < rank first
    · have hplace : Library.insertRanked rank (first :: items) item = item :: first :: items := by
        simp [Library.insertRanked, hlt]
      rw [hplace]
      refine List.pairwise_cons.mpr ⟨fun a ha => ?_, h⟩
      rcases List.mem_cons.mp ha with rfl | ha
      · exact hlt
      · exact hlt.trans (hfirst a ha)
    · have hplace : Library.insertRanked rank (first :: items) item =
          first :: Library.insertRanked rank items item := by
        simp [Library.insertRanked, hlt]
      rw [hplace]
      refine List.pairwise_cons.mpr ⟨fun a ha => ?_, ih hitems fun a ha =>
        hn a (List.mem_cons_of_mem _ ha)⟩
      rcases mem_insertRanked.mp ha with rfl | ha
      · exact (hn first List.mem_cons_self).lt_of_le (not_lt.mp hlt)
      · exact hfirst a ha

theorem Ranked.concat (h : Ranked rank items) (hn : ∀ a ∈ items, rank a < rank item) :
    Ranked rank (items ++ [item]) :=
  List.pairwise_append.mpr ⟨h, List.pairwise_singleton _ _, fun a ha b hb => by
    rw [List.mem_singleton.mp hb]
    exact hn a ha⟩

/-- The last item of a ranked list has the greatest rank. -/
theorem Ranked.le_getLast (h : Ranked rank items) {last : α} (hl : items.getLast? = some last)
    {a : α} (ha : a ∈ items) : rank a ≤ rank last := by
  obtain ⟨front, rfl⟩ := List.getLast?_eq_some_iff.mp hl
  rcases List.mem_append.mp ha with ha | ha
  · exact ((List.pairwise_append.mp h).2.2 a ha last (List.mem_singleton_self _)).le
  · rw [List.mem_singleton.mp ha]

/-- Sorting by a comparison that refines a transitive order leaves the list in that order. -/
theorem pairwise_insertionSort_of {r : α → α → Prop} [DecidableRel r] {s : α → α → Prop}
    (hr : ∀ a b, r a b → s a b) (hn : ∀ a b, ¬ r a b → s b a)
    (ht : ∀ a b c, s a b → s b c → s a c) (items : List α) : (items.insertionSort r).Pairwise s := by
  induction items with
  | nil => exact List.Pairwise.nil
  | cons first items ih =>
    rw [List.insertionSort_cons]
    generalize items.insertionSort r = sorted at ih
    induction sorted with
    | nil => exact List.pairwise_singleton _ _
    | cons next sorted ihs =>
      obtain ⟨hnext, hsorted⟩ := List.pairwise_cons.mp ih
      rw [List.orderedInsert_cons]
      split_ifs with hle
      · refine List.pairwise_cons.mpr ⟨fun a ha => ?_, ih⟩
        rcases List.mem_cons.mp ha with rfl | ha
        · exact hr _ _ hle
        · exact ht _ _ _ (hr _ _ hle) (hnext a ha)
      · refine List.pairwise_cons.mpr ⟨fun a ha => ?_, ihs hsorted⟩
        rcases (List.mem_orderedInsert r).mp ha with rfl | ha
        · exact hn _ _ hle
        · exact hnext a ha

end Ranked

section Gathering
variable {α β κ : Type*} [LinearOrder κ] (rank : α → κ) (extend : Option β → α → β)

/-- The map entry of the item's key, made or extended. -/
def enter (item : α) : List (κ × β) → List (κ × β)
  | [] => [(rank item, extend none item)]
  | (key, value) :: entries =>
    if rank item < key then (rank item, extend none item) :: (key, value) :: entries
    else if rank item = key then (key, extend (some value) item) :: entries
    else (key, value) :: enter item entries

def gather (items : List α) : List (κ × β) :=
  items.foldl (fun entries item => enter rank extend item entries) []

/-- What some items of one key make. -/
def gathered (items : List α) : Option β :=
  items.foldl (fun value item => some (extend value item)) none

variable {rank extend} {item : α} {items : List α} {entries : List (κ × β)} {key : κ} {value : β}

theorem enter_keys (h : (key, value) ∈ enter rank extend item entries) :
    key = rank item ∨ ∃ old, (key, old) ∈ entries := by
  induction entries with
  | nil =>
    obtain ⟨rfl, -⟩ := Prod.mk.inj (List.mem_singleton.mp h)
    exact .inl rfl
  | cons entry entries ih =>
    obtain ⟨other, old⟩ := entry
    rw [enter] at h
    split_ifs at h with hlt heq
    · rcases List.mem_cons.mp h with h | h
      · exact .inl (Prod.mk.inj h).1
      · exact .inr ⟨_, h⟩
    · rcases List.mem_cons.mp h with h | h
      · exact .inl ((Prod.mk.inj h).1.trans heq.symm)
      · exact .inr ⟨_, List.mem_cons_of_mem _ h⟩
    · rcases List.mem_cons.mp h with h | h
      · exact .inr ⟨old, by rw [(Prod.mk.inj h).1]; exact List.mem_cons_self⟩
      · exact (ih h).imp id fun ⟨old, ho⟩ => ⟨old, List.mem_cons_of_mem _ ho⟩

theorem Ranked.enter (h : Ranked Prod.fst entries) :
    Ranked Prod.fst (enter rank extend item entries) := by
  induction entries with
  | nil => exact List.pairwise_singleton _ _
  | cons entry entries ih =>
    obtain ⟨other, old⟩ := entry
    obtain ⟨hfirst, hentries⟩ := List.pairwise_cons.mp h
    rw [Library.enter]
    split_ifs with hlt heq
    · refine List.pairwise_cons.mpr ⟨fun entry hm => ?_, h⟩
      rcases List.mem_cons.mp hm with rfl | hm
      · exact hlt
      · exact hlt.trans (hfirst entry hm)
    · exact List.pairwise_cons.mpr ⟨hfirst, hentries⟩
    · refine List.pairwise_cons.mpr ⟨fun entry hm => ?_, ih hentries⟩
      rcases enter_keys hm with hk | ⟨before, hm⟩
      · rw [hk]
        exact lt_of_le_of_ne (not_lt.mp hlt) (Ne.symm heq)
      · exact hfirst (entry.1, before) hm

/-- An item leaves the other keys alone. -/
theorem mem_enter_ne (hk : key ≠ rank item) :
    (key, value) ∈ enter rank extend item entries ↔ (key, value) ∈ entries := by
  induction entries with
  | nil => simp [enter, hk]
  | cons entry entries ih =>
    obtain ⟨other, old⟩ := entry
    rw [enter]
    split_ifs with hlt heq
    · simp [hk]
    · subst heq
      simp [hk]
    · rw [List.mem_cons, List.mem_cons, ih]

/-- Under its own key it makes a value or extends the one that is there. -/
theorem mem_enter_self (h : Ranked Prod.fst entries) :
    (rank item, value) ∈ enter rank extend item entries ↔
      (∃ old, (rank item, old) ∈ entries ∧ value = extend (some old) item) ∨
        (∀ old, (rank item, old) ∉ entries) ∧ value = extend none item := by
  induction entries with
  | nil => simp [enter]
  | cons entry entries ih =>
    obtain ⟨other, before⟩ := entry
    obtain ⟨hfirst, hentries⟩ := List.pairwise_cons.mp h
    rw [enter]
    split_ifs with hlt heq
    · have habsent : ∀ old, (rank item, old) ∉ (other, before) :: entries := by
        intro old hm
        rcases List.mem_cons.mp hm with hm | hm
        · exact absurd (Prod.mk.inj hm).1 hlt.ne
        · exact lt_asymm hlt (hfirst _ hm)
      rw [List.mem_cons]
      simp only [habsent, false_and, exists_false, or_false, false_or, Prod.mk.injEq, true_and,
        not_false_eq_true, implies_true]
    · subst heq
      have habsent : ∀ old, (rank item, old) ∉ entries := fun old hm =>
        lt_irrefl _ (hfirst (rank item, old) hm)
      simp [habsent]
    · have hne : rank item ≠ other := heq
      simp only [List.mem_cons, Prod.mk.injEq, hne, false_and, false_or]
      exact ih hentries

theorem gather_concat :
    gather rank extend (items ++ [item]) = enter rank extend item (gather rank extend items) :=
  List.foldl_concat ..

theorem gathered_concat :
    gathered extend (items ++ [item]) = some (extend (gathered extend items) item) :=
  List.foldl_concat ..

/-- Appending each item gathers the items themselves. -/
theorem gathered_collect (items : List α) :
    gathered (fun collected item => collected.getD [] ++ [item]) items =
      if items = [] then none else some items := by
  induction items using List.reverseRecOn with
  | nil => rfl
  | append_singleton items item ih =>
    have hne : items ++ [item] ≠ [] := List.append_ne_nil_of_right_ne_nil _ (List.cons_ne_nil _ _)
    rw [gathered_concat, ih, if_neg hne]
    by_cases h : items = []
    · rw [if_pos h, h]
      rfl
    · rw [if_neg h]
      rfl

theorem gather_ranked : Ranked Prod.fst (gather rank extend items) := by
  induction items using List.reverseRecOn with
  | nil => exact List.Pairwise.nil
  | append_singleton items item ih =>
    rw [gather_concat]
    exact ih.enter

/-- A key has the value that its own items make. -/
theorem mem_gather : (key, value) ∈ gather rank extend items ↔
    gathered extend (items.filter fun item => rank item = key) = some value := by
  induction items using List.reverseRecOn generalizing value with
  | nil => simp [gather, gathered]
  | append_singleton items item ih =>
    rw [gather_concat, List.filter_append]
    by_cases hk : key = rank item
    · subst hk
      rw [mem_enter_self gather_ranked, List.filter_cons_of_pos (by simp), List.filter_nil,
        gathered_concat, Option.some.injEq]
      cases hg : gathered extend (items.filter fun other => rank other = rank item) with
      | none =>
        rw [hg] at ih
        simp only [ih, reduceCtorEq, false_and, exists_false, not_false_eq_true, implies_true,
          true_and, false_or, eq_comm]
      | some old =>
        rw [hg] at ih
        simp only [ih, Option.some.injEq]
        constructor
        · rintro (⟨_, rfl, rfl⟩ | ⟨habsent, -⟩)
          · rfl
          · exact absurd rfl (habsent old)
        · rintro rfl
          exact .inl ⟨old, rfl, rfl⟩
    · rw [mem_enter_ne hk, ih, List.filter_cons_of_neg (by simpa using Ne.symm hk), List.filter_nil,
        List.append_nil]

end Gathering

end Gail.Library
