import Mathlib.Data.List.Find
import Mathlib.Data.List.Sort

/-! Sorting by a key that keeps the order of the items of one key, and what the order of the given items decides: nothing
before the first two that share a key, and there it does. -/
namespace Gail.Library
section Sorting
variable {α κ : Type*} [LinearOrder κ]

def sortByKey (key : α → κ) (items : List α) : List α :=
  items.insertionSort fun a b => key a ≤ key b

/-- The items in the order of their keys, and those of each key in the order that they had. -/
structure StablySorted (key : α → κ) (items result : List α) : Prop where
  sorted : result.Pairwise fun a b => key a ≤ key b
  stable : ∀ k, (result.filter fun a => key a = k) = items.filter fun a => key a = k

variable {key : α → κ} {items : List α}

private theorem keys_total (key : α → κ) : Std.Total fun a b => key a ≤ key b := ⟨fun a b => le_total (key a) (key b)⟩

private theorem keys_trans (key : α → κ) : IsTrans α fun a b => key a ≤ key b := ⟨fun _ _ _ => le_trans⟩

theorem sortByKey_perm (items : List α) : (sortByKey key items).Perm items := List.perm_insertionSort _ _

theorem pairwise_sortByKey (key : α → κ) (items : List α) :
    (sortByKey key items).Pairwise fun a b => key a ≤ key b :=
  have := keys_total key
  have := keys_trans key
  List.pairwise_insertionSort _ items

theorem sortByKey_of_pairwise (h : items.Pairwise fun a b => key a ≤ key b) :
    sortByKey key items = items :=
  h.insertionSort_eq

theorem sortByKey_id_mono {keys : List κ} {low high : Nat} (hle : low ≤ high)
    (hlow : low < (sortByKey id keys).length) (hhigh : high < (sortByKey id keys).length) :
    (sortByKey id keys)[low] ≤ (sortByKey id keys)[high] := by
  rcases hle.eq_or_lt with rfl | hlt
  · exact le_rfl
  · exact List.pairwise_iff_getElem.mp (pairwise_sortByKey id keys) low high hlow hhigh hlt

/-- There is one order of the keys themselves. -/
theorem eq_sortByKey_id {keys sorted : List κ} (hsorted : sorted.Pairwise (· ≤ ·)) (hperm : sorted.Perm keys) :
    sorted = sortByKey id keys :=
  (hperm.trans (sortByKey_perm keys).symm).eq_of_pairwise' hsorted (pairwise_sortByKey id keys)

theorem sortByKey_id_perm {keys keys' : List κ} (h : keys'.Perm keys) : sortByKey id keys' = sortByKey id keys :=
  eq_sortByKey_id (pairwise_sortByKey id keys') ((sortByKey_perm keys').trans h)

/-- What is found first in the order has the least key of all that could be found. -/
theorem find?_sortByKey_le {p : α → Bool} {a b : α} (h : (sortByKey key items).find? p = some a)
    (hb : b ∈ items) (hp : p b) : key a ≤ key b := by
  obtain ⟨-, before, after, hsplit, hbefore⟩ := List.find?_eq_some_iff_append.mp h
  have hmem : b ∈ before ++ a :: after := hsplit ▸ (sortByKey_perm items).mem_iff.mpr hb
  have hordered := pairwise_sortByKey key items
  rw [hsplit] at hordered
  rcases List.mem_append.mp hmem with hearlier | hlater
  · exact absurd hp (by simpa using hbefore b hearlier)
  · rcases List.mem_cons.mp hlater with rfl | hafter
    · exact le_rfl
    · exact (List.pairwise_cons.mp (List.pairwise_append.mp hordered).2.1).1 b hafter

/-- A sort that keeps the sublists which are in order already is stable. -/
theorem stablySorted_of_sublist {result : List α} (hperm : result.Perm items)
    (hsorted : result.Pairwise fun a b => key a ≤ key b)
    (hkept : ∀ ordered : List α, (ordered.Pairwise fun a b => key a ≤ key b) → ordered.Sublist items →
      ordered.Sublist result) : StablySorted key items result where
  sorted := hsorted
  stable k := by
    -- The items of one key are a sublist in order, so sorting keeps them; and there are no others.
    have hkeys : ∀ a ∈ items.filter (fun a => key a = k), key a = k := by
      intro a ha
      exact of_decide_eq_true (List.mem_filter.mp ha).2
    have hordered : (items.filter fun a => key a = k).Pairwise fun a b => key a ≤ key b := by
      apply List.pairwise_of_forall_mem_list
      intro a ha b hb
      rw [hkeys a ha, hkeys b hb]
    have hfiltered := (hkept _ hordered List.filter_sublist).filter fun a => key a = k
    rw [List.filter_filter] at hfiltered
    simp only [Bool.and_self] at hfiltered
    have hlength := (hperm.filter fun a => key a = k).length_eq
    exact (hfiltered.eq_of_length hlength.symm).symm

theorem stablySorted_sortByKey (items : List α) : StablySorted key items (sortByKey key items) := by
  refine stablySorted_of_sublist (sortByKey_perm items) (pairwise_sortByKey key items) fun ordered hordered hsub => ?_
  have := keys_total key
  have := keys_trans key
  exact List.sublist_insertionSort hordered hsub

theorem stablySorted_mergeSort (items : List α) :
    StablySorted key items (items.mergeSort fun a b => key a ≤ key b) := by
  have htrans : ∀ a b c : α, decide (key a ≤ key b) = true → decide (key b ≤ key c) = true →
      decide (key a ≤ key c) = true := fun a b c hab hbc =>
    decide_eq_true ((of_decide_eq_true hab).trans (of_decide_eq_true hbc))
  have htotal : ∀ a b : α, (decide (key a ≤ key b) || decide (key b ≤ key a)) = true := fun a b => by
    simpa using le_total (key a) (key b)
  refine stablySorted_of_sublist (List.mergeSort_perm items _) ?_ fun ordered hordered hsub => ?_
  · exact (List.pairwise_mergeSort htrans htotal items).imp fun h => of_decide_eq_true h
  · exact List.sublist_mergeSort htrans htotal (hordered.imp fun h => decide_eq_true h) hsub

theorem StablySorted.mem_iff {result : List α} (h : StablySorted key items result) {a : α} :
    a ∈ result ↔ a ∈ items := by
  have hmem : a ∈ result.filter (fun b => key b = key a) ↔ a ∈ items.filter fun b => key b = key a := by
    rw [h.stable]
  simpa using hmem

/-- First comes the first item of which none is ahead. -/
theorem StablySorted.head?_eq {result : List α} (h : StablySorted key items result) :
    result.head? = items.find? fun a => ∀ b ∈ items, key a ≤ key b := by
  cases result with
  | nil =>
    have hnone : items = [] := List.eq_nil_iff_forall_not_mem.mpr fun a ha => List.not_mem_nil (h.mem_iff.mpr ha)
    rw [hnone]
    rfl
  | cons first rest =>
    have hleast : ∀ b ∈ items, key first ≤ key b := by
      intro b hb
      rcases List.mem_cons.mp (h.mem_iff.mpr hb) with rfl | hb
      · exact le_rfl
      · exact (List.pairwise_cons.mp h.sorted).1 b hb
    have hfirst : first ∈ items := h.mem_iff.mp List.mem_cons_self
    have hsame : ∀ a ∈ items, decide (key a = key first) = decide (∀ b ∈ items, key a ≤ key b) := by
      intro a ha
      rw [decide_eq_decide]
      exact ⟨fun heq b hb => heq ▸ hleast b hb, fun hle => (hle first hfirst).antisymm (hleast a ha)⟩
    have hstable := congrArg List.head? (h.stable (key first))
    rw [List.filter_cons_of_pos (by simp), List.head?_cons, List.head?_filter] at hstable
    rw [List.head?_cons, hstable, List.find?_congr hsame]

/-- Of items in order, those of a lower set come first. -/
theorem getElem_holds_iff {p : α → Bool} (h : items.Pairwise fun a b => key a ≤ key b)
    (hp : ∀ a ∈ items, ∀ b ∈ items, key a ≤ key b → p b → p a) {k : Nat} (hk : k < items.length) :
    p items[k] ↔ k < items.countP p := by
  induction items generalizing k with
  | nil => exact absurd hk (Nat.not_lt_zero k)
  | cons a items ih =>
    obtain ⟨hfirst, hrest⟩ := List.pairwise_cons.mp h
    have hlower : ∀ b ∈ items, p b → p a := fun b hb =>
      hp a List.mem_cons_self b (List.mem_cons_of_mem a hb) (hfirst b hb)
    by_cases ha : p a = true
    · rw [List.countP_cons_of_pos ha]
      cases k with
      | zero => simp [ha]
      | succ k =>
        have hp' : ∀ b ∈ items, ∀ c ∈ items, key b ≤ key c → p c → p b := fun b hb c hc =>
          hp b (List.mem_cons_of_mem a hb) c (List.mem_cons_of_mem a hc)
        rw [List.getElem_cons_succ, ih hrest hp']
        omega
    · have hnone : items.countP p = 0 := by
        rw [List.countP_eq_zero]
        exact fun b hb hpb => ha (hlower b hb hpb)
      have hfalse : p (a :: items)[k] = false := by
        cases k with
        | zero => simpa using ha
        | succ k =>
          rw [List.getElem_cons_succ, Bool.eq_false_iff]
          exact fun hpb => ha (hlower _ (List.getElem_mem _) hpb)
      rw [List.countP_cons_of_neg ha, hnone, hfalse]
      simp

/-- The item of a rank is in a lower set exactly when more items than that are. -/
theorem sortByKey_holds_iff {p : α → Bool}
    (hp : ∀ a ∈ items, ∀ b ∈ items, key a ≤ key b → p b → p a) {k : Nat}
    (hk : k < (sortByKey key items).length) : p (sortByKey key items)[k] ↔ k < items.countP p := by
  have hmem : ∀ a, a ∈ sortByKey key items ↔ a ∈ items := fun a => (sortByKey_perm items).mem_iff
  rw [getElem_holds_iff (pairwise_sortByKey key items) _ hk, (sortByKey_perm items).countP_eq]
  intro a ha b hb
  exact hp a ((hmem a).mp ha) b ((hmem b).mp hb)

end Sorting

section Ties
variable {α β κ : Type*} [LinearOrder κ] {key : α → κ} {items items' : List α}

/-- Two orders of the same items are the same, or differ first where two items share a key. -/
theorem eq_or_first_difference {xs ys : List α} (hperm : xs.Perm ys)
    (hxs : xs.Pairwise fun a b => key a ≤ key b) (hys : ys.Pairwise fun a b => key a ≤ key b) :
    xs = ys ∨ ∃ before a b after after', xs = before ++ a :: after ∧ ys = before ++ b :: after' ∧
      a ≠ b ∧ key a = key b := by
  induction xs generalizing ys with
  | nil => exact .inl hperm.nil_eq
  | cons a xs ih =>
    cases ys with
    | nil => exact .inl hperm.eq_nil
    | cons b ys =>
      by_cases hab : a = b
      · subst hab
        rcases ih hperm.cons_inv hxs.of_cons hys.of_cons with rfl | ⟨before, c, d, after, after', hx, hy, htied⟩
        · exact .inl rfl
        · exact .inr ⟨a :: before, c, d, after, after', by rw [hx]; rfl, by rw [hy]; rfl, htied⟩
      · have hb : b ∈ xs := (List.mem_cons.mp (hperm.mem_iff.mpr List.mem_cons_self)).resolve_left (Ne.symm hab)
        have ha : a ∈ ys := (List.mem_cons.mp (hperm.mem_iff.mp List.mem_cons_self)).resolve_left hab
        have hle : key a ≤ key b := (List.pairwise_cons.mp hxs).1 b hb
        have hge : key b ≤ key a := (List.pairwise_cons.mp hys).1 a ha
        exact .inr ⟨[], a, b, xs, ys, rfl, rfl, hab, hle.antisymm hge⟩

/-- Of items in order, those of a lower set come before the others. -/
theorem filter_append_filter_not {p : α → Bool} (h : items.Pairwise fun a b => key a ≤ key b)
    (hp : ∀ a ∈ items, ∀ b ∈ items, key a ≤ key b → p b → p a) :
    items.filter p ++ (items.filter fun a => !p a) = items := by
  induction items with
  | nil => rfl
  | cons a items ih =>
    obtain ⟨hfirst, hrest⟩ := List.pairwise_cons.mp h
    have hlower : ∀ b ∈ items, p b → p a := fun b hb =>
      hp a List.mem_cons_self b (List.mem_cons_of_mem a hb) (hfirst b hb)
    by_cases ha : p a = true
    · have ih' := ih hrest fun b hb c hc => hp b (List.mem_cons_of_mem a hb) c (List.mem_cons_of_mem a hc)
      rw [List.filter_cons_of_pos ha, List.filter_cons_of_neg (by simp [ha]), List.cons_append, ih']
    · have hnone : ∀ b ∈ a :: items, ¬ p b = true := by
        intro b hb hpb
        rcases List.mem_cons.mp hb with rfl | hb
        · exact ha hpb
        · exact ha (hlower b hb hpb)
      have hall : ∀ b ∈ a :: items, (!p b) = true := fun b hb => by simp [hnone b hb]
      rw [List.filter_eq_nil_iff.mpr hnone, List.filter_eq_self.mpr hall, List.nil_append]

/-- The items of lesser keys come first. -/
theorem sortByKey_prefix (key : α → κ) (items : List α) (k : κ) : ((sortByKey key items).filter fun a => key a < k) <+: sortByKey key items := by
  refine ⟨_, filter_append_filter_not (pairwise_sortByKey key items) ?_⟩
  intro a _ b _ hle hb
  exact decide_eq_true (hle.trans_lt (of_decide_eq_true hb))

/-- What comes before the first items of a key. -/
theorem filter_lt_of_append {before after : List α} {a : α}
    (h : (before ++ a :: after).Pairwise fun a b => key a ≤ key b) :
    ((before ++ a :: after).filter fun b => key b < key a) = before.filter fun b => key b < key a := by
  have hlater : ∀ b ∈ a :: after, ¬ decide (key b < key a) = true := by
    intro b hb
    rw [decide_eq_true_eq, not_lt]
    rcases List.mem_cons.mp hb with rfl | hb
    · exact le_rfl
    · exact (List.pairwise_cons.mp (List.pairwise_append.mp h).2.1).1 b hb
  rw [List.filter_append, List.filter_eq_nil_iff.mpr hlater, List.append_nil]

/-- Two orders of the same items by a key agree on all items before some that share a key. -/
theorem sortByKey_eq_or_tied (key : α → κ) (hperm : items'.Perm items) :
    sortByKey key items' = sortByKey key items ∨ ∃ a ∈ items, ∃ b ∈ items, a ≠ b ∧ key a = key b ∧
      ((sortByKey key items).filter fun c => key c < key a) <+: sortByKey key items' := by
  have hsorted : (sortByKey key items).Perm items := sortByKey_perm items
  have hsorted' : (sortByKey key items').Perm items := (sortByKey_perm items').trans hperm
  rcases eq_or_first_difference (hsorted.trans hsorted'.symm) (pairwise_sortByKey key items) (pairwise_sortByKey key items') with
    h | ⟨before, a, b, after, after', hx, hy, hne, hkey⟩
  · exact .inl h.symm
  · have ha : a ∈ items := hsorted.mem_iff.mp (by simp [hx])
    have hb : b ∈ items := hsorted'.mem_iff.mp (by simp [hy])
    refine .inr ⟨a, ha, b, hb, hne, hkey, ?_⟩
    have hordered := pairwise_sortByKey key items
    have hordered' := pairwise_sortByKey key items'
    rw [hx] at hordered
    rw [hy] at hordered'
    have hahead : ((sortByKey key items).filter fun c => key c < key a) =
        (sortByKey key items').filter fun c => key c < key a := by
      rw [hx, filter_lt_of_append hordered, hy, hkey, filter_lt_of_append hordered']
    rw [hahead]
    exact sortByKey_prefix key items' (key a)

/-- Nothing depends on the order of the items that share a key past those that are taken. -/
theorem take_sortByKey_perm {count : Nat} (hperm : items'.Perm items)
    (h : ∀ a ∈ items, ∀ b ∈ items, a ≠ b → key a = key b → count ≤ items.countP fun c => key c < key a) :
    (sortByKey key items').take count = (sortByKey key items).take count := by
  rcases sortByKey_eq_or_tied key hperm with heq | ⟨a, ha, b, hb, hne, hkey, hahead⟩
  · rw [heq]
  · have hsorted : (sortByKey key items).Perm items := sortByKey_perm items
    have hcount := h a ha b hb hne hkey
    rw [← hsorted.countP_eq, List.countP_eq_length_filter] at hcount
    obtain ⟨rest, hrest⟩ := sortByKey_prefix key items (key a)
    obtain ⟨rest', hrest'⟩ := hahead
    rw [← hrest', List.take_append_of_le_length hcount]
    conv_rhs => rw [← hrest, List.take_append_of_le_length hcount]

/-- The first item of a key is the first one that was given. -/
theorem getElem?_sortByKey (key : α → κ) {a : α} (ha : a ∈ items) :
    (sortByKey key items)[items.countP fun b => key b < key a]? =
      (items.filter fun b => key b = key a).head? := by
  have hsorted : StablySorted key items (sortByKey key items) := stablySorted_sortByKey items
  have hlower : ∀ b ∈ sortByKey key items, ∀ c ∈ sortByKey key items, key b ≤ key c →
      decide (key c < key a) = true → decide (key b < key a) = true := fun b _ c _ hle hc =>
    decide_eq_true (hle.trans_lt (of_decide_eq_true hc))
  have hsplit := filter_append_filter_not hsorted.sorted hlower
  set ahead := (sortByKey key items).filter fun b => key b < key a with hahead
  set rest := (sortByKey key items).filter fun b => !decide (key b < key a) with hrest
  have hrestSorted : rest.Pairwise fun a b => key a ≤ key b := hsorted.sorted.filter _
  have hfirst : (rest.filter fun b => key b ≤ key a) = items.filter fun b => key b = key a := by
    rw [← hsorted.stable, hrest, List.filter_filter]
    apply List.filter_congr
    intro b _
    rcases lt_trichotomy (key b) (key a) with h | h | h
    · simp [h, h.ne]
    · simp [h]
    · simp [h.not_ge, h.ne']
  have hrestSplit := filter_append_filter_not (p := fun b => decide (key b ≤ key a)) hrestSorted
    fun b _ c _ hle hc => decide_eq_true (hle.trans (of_decide_eq_true hc))
  rw [hfirst] at hrestSplit
  have hcount : (items.countP fun b => key b < key a) = ahead.length := by
    rw [hahead, ← List.countP_eq_length_filter, (sortByKey_perm items).countP_eq]
  have hmem : a ∈ items.filter fun b => key b = key a := List.mem_filter.mpr ⟨ha, by simp⟩
  rw [hcount, ← hsplit, List.getElem?_append_right le_rfl, Nat.sub_self, ← List.head?_eq_getElem?, ← hrestSplit,
    List.head?_append_of_ne_nil _ (List.ne_nil_of_mem hmem)]

/-- If the items are given in the reverse order, another item is the first of a key that two share. -/
theorem getElem?_sortByKey_reverse {f : α → β} (hnodup : (items.map f).Nodup) {a b : α} (ha : a ∈ items)
    (hb : b ∈ items) (hne : f a ≠ f b) (hkey : key a = key b) :
    (sortByKey key items)[items.countP fun c => key c < key a]?.map f ≠
      (sortByKey key items.reverse)[items.countP fun c => key c < key a]?.map f := by
  have hreversed := getElem?_sortByKey key (List.mem_reverse.mpr ha)
  rw [List.countP_reverse, List.filter_reverse, List.head?_reverse] at hreversed
  rw [getElem?_sortByKey key ha, hreversed]
  have hdistinct : ((items.filter fun c => key c = key a).map f).Nodup :=
    hnodup.sublist (List.filter_sublist.map f)
  have ha' : a ∈ items.filter fun c => key c = key a := List.mem_filter.mpr ⟨ha, by simp⟩
  have hb' : b ∈ items.filter fun c => key c = key a := List.mem_filter.mpr ⟨hb, by simp [hkey]⟩
  revert hdistinct ha' hb'
  cases items.filter fun c => key c = key a with
  | nil => simp
  | cons first others =>
    intro hdistinct ha' hb' heq
    have hmore : others ≠ [] := by
      rintro rfl
      rw [List.mem_singleton] at ha' hb'
      exact hne (by rw [ha', hb'])
    rw [List.head?_cons, List.getLast?_cons, List.getLast?_eq_getLast_of_ne_nil hmore, Option.getD_some,
      Option.map_some, Option.map_some, Option.some_inj] at heq
    rw [List.map_cons, List.nodup_cons] at hdistinct
    exact hdistinct.1 (List.mem_map.mpr ⟨_, List.getLast_mem hmore, heq.symm⟩)

end Ties

end Gail.Library
