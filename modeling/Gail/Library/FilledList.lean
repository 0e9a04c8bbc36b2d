import Mathlib.Data.List.Count

/-! A list filled into a budget from its last item on: the last item takes what there is, and every other one its
size where that fits. -/
namespace Gail.Library
variable {α : Type*}

section Marks

/-- The items that are marked as kept. -/
def keptOf (marks : List (α × Bool)) : List α := (marks.filter Prod.snd).map Prod.fst

def droppedOf (marks : List (α × Bool)) : List α := (marks.filter fun mark => !mark.2).map Prod.fst

/-- Of the items that count, none that is dropped is later than one that is kept. -/
def KeepsLast (counts : α → Bool) (marks : List (α × Bool)) : Prop :=
  marks.Pairwise fun earlier later =>
    counts earlier.1 = true → counts later.1 = true → earlier.2 = true → later.2 = true

variable {counts : α → Bool} {marks : List (α × Bool)} {item : α}

@[simp] theorem keptOf_cons (item : α) (keep : Bool) (marks : List (α × Bool)) :
    keptOf ((item, keep) :: marks) = if keep then item :: keptOf marks else keptOf marks := by
  cases keep <;> rfl

@[simp] theorem droppedOf_cons (item : α) (keep : Bool) (marks : List (α × Bool)) :
    droppedOf ((item, keep) :: marks) = if keep then droppedOf marks else item :: droppedOf marks := by
  cases keep <;> rfl

theorem keptOf_append (front back : List (α × Bool)) : keptOf (front ++ back) = keptOf front ++ keptOf back := by
  rw [keptOf, List.filter_append, List.map_append]
  rfl

theorem keptOf_sublist (marks : List (α × Bool)) : (keptOf marks).Sublist (marks.map Prod.fst) :=
  List.filter_sublist.map Prod.fst

theorem length_keptOf_add (marks : List (α × Bool)) :
    (keptOf marks).length + (droppedOf marks).length = marks.length := by
  induction marks with
  | nil => rfl
  | cons mark marks ih =>
    obtain ⟨item, keep⟩ := mark
    rw [keptOf_cons, droppedOf_cons, List.length_cons]
    cases keep
    · rw [if_neg Bool.false_ne_true, if_neg Bool.false_ne_true, List.length_cons]
      omega
    · rw [if_pos rfl, if_pos rfl, List.length_cons]
      omega

/-- As many of the items that count are kept as there are exactly if all of them are. -/
theorem forall_kept_iff :
    (∀ mark ∈ marks, counts mark.1 = true → mark.2 = true) ↔
      ((marks.map Prod.fst).filter counts).length ≤ ((keptOf marks).filter counts).length := by
  induction marks with
  | nil => simp [keptOf]
  | cons mark marks ih =>
    obtain ⟨item, keep⟩ := mark
    have hle := ((keptOf_sublist marks).filter counts).length_le
    rw [List.forall_mem_cons, ih, keptOf_cons, List.map_cons, List.filter_cons]
    by_cases hcounts : counts item = true
    · cases keep
      · rw [if_pos hcounts, if_neg Bool.false_ne_true, List.length_cons]
        exact iff_of_false (fun h => Bool.false_ne_true (h.1 hcounts)) (by omega)
      · simp [hcounts]
    · cases keep <;> simp [hcounts]

theorem filter_keptOf_cons_of_neg (hcounts : ¬ counts item = true) (keep : Bool) (marks : List (α × Bool)) :
    (keptOf ((item, keep) :: marks)).filter counts = (keptOf marks).filter counts := by
  rw [keptOf_cons]
  split_ifs
  · exact List.filter_cons_of_neg hcounts
  · rfl

/-- Behind an item that counts and is kept, as many are kept as there are. -/
theorem KeepsLast.keeps_later (h : KeepsLast counts ((item, true) :: marks)) (hcounts : counts item = true) :
    ((marks.map Prod.fst).filter counts).length ≤ ((keptOf marks).filter counts).length := by
  obtain ⟨hhead, -⟩ := List.pairwise_cons.mp h
  exact forall_kept_iff.mp fun mark hmark hcount => hhead mark hmark hcounts hcount rfl

end Marks

section Filling
variable (size : α → Nat) (budget : Nat)

/-- What is left of the budget. -/
def room : List α → Nat
  | [] => budget
  | item :: later =>
    if later.isEmpty then budget - size item
    else if size item ≤ room later then room later - size item
    else room later

def fill : List α → List (α × Bool)
  | [] => []
  | item :: later => (item, later.isEmpty || decide (size item ≤ room size budget later)) :: fill later

/-- An item that counts has no room, and an earlier one has. -/
inductive LeavesGap (counts : α → Bool) : List α → Prop
  | here {kept skipped : α} {between later : List α} (hkept : counts kept = true) (hskipped : counts skipped = true)
    (fits : size kept ≤ room size budget (between ++ skipped :: later)) (last : later ≠ [])
    (large : room size budget later < size skipped) : LeavesGap counts (kept :: between ++ skipped :: later)
  | later {item : α} {items : List α} : LeavesGap counts items → LeavesGap counts (item :: items)

variable {size budget} {counts : α → Bool} {items : List α} {item : α}

@[simp] theorem fill_fst (size : α → Nat) (budget : Nat) (items : List α) :
    (fill size budget items).map Prod.fst = items := by
  induction items with
  | nil => rfl
  | cons item later ih => rw [fill, List.map_cons, ih]

/-- There is less and less room for the earlier items. -/
theorem room_cons_le (h : items ≠ []) : room size budget (item :: items) ≤ room size budget items := by
  rw [room, if_neg fun hempty => h (List.isEmpty_iff.mp hempty)]
  split_ifs <;> omega

/-- Where an item has room, the later ones like it had. -/
theorem count_keptOf_fill [DecidableEq α] (h : size item ≤ room size budget items) :
    (keptOf (fill size budget items)).count item = items.count item := by
  induction items with
  | nil => rfl
  | cons other later ih =>
    rw [fill, keptOf_cons]
    by_cases hempty : later = []
    · subst hempty
      rfl
    have hroom := Nat.le_trans h (room_cons_le hempty)
    by_cases hsame : other = item
    · subst hsame
      rw [decide_eq_true hroom, Bool.or_true, if_pos rfl, List.count_cons_self, List.count_cons_self, ih hroom]
    · rw [List.count_cons_of_ne hsame]
      split_ifs
      · rw [List.count_cons_of_ne hsame, ih hroom]
      · exact ih hroom

/-- The last item is kept. -/
theorem getLast?_keptOf_fill (size : α → Nat) (budget : Nat) (items : List α) :
    (keptOf (fill size budget items)).getLast? = items.getLast? := by
  induction items with
  | nil => rfl
  | cons item later ih =>
    rw [fill, keptOf_cons]
    cases later with
    | nil => rfl
    | cons next later =>
      rw [List.getLast?_cons_cons]
      split_ifs
      · rw [List.getLast?_cons, ih, List.getLast?_cons]
        rfl
      · exact ih

theorem keptOf_fill_ne_nil (size : α → Nat) (budget : Nat) (h : items ≠ []) : keptOf (fill size budget items) ≠ [] := by
  intro hnone
  have hlast := getLast?_keptOf_fill size budget items
  rw [hnone, List.getLast?_nil] at hlast
  exact h (List.getLast?_eq_none_iff.mp hlast.symm)

theorem mem_fill_iff {keep : Bool} :
    (item, keep) ∈ fill size budget items ↔
      ∃ before later, items = before ++ item :: later ∧
        keep = (later.isEmpty || decide (size item ≤ room size budget later)) := by
  induction items with
  | nil => simp [fill]
  | cons other items ih =>
    rw [fill, List.mem_cons, ih]
    constructor
    · rintro (hhere | ⟨before, later, rfl, hkeep⟩)
      · obtain ⟨rfl, hkeep⟩ := Prod.mk.inj hhere
        exact ⟨[], items, rfl, hkeep⟩
      · exact ⟨other :: before, later, rfl, hkeep⟩
    · rintro ⟨before, later, hsplit, hkeep⟩
      cases before with
      | nil =>
        obtain ⟨rfl, rfl⟩ := List.cons.inj hsplit
        exact .inl (by rw [hkeep])
      | cons first before =>
        obtain ⟨rfl, rfl⟩ := List.cons.inj hsplit
        exact .inr ⟨before, later, rfl, hkeep⟩

/-- Filling keeps the last items that count unless it leaves a gap. -/
theorem keepsLast_fill_iff : KeepsLast counts (fill size budget items) ↔ ¬ LeavesGap size budget counts items := by
  induction items with
  | nil => exact iff_of_true .nil fun h => by cases h
  | cons item items ih =>
    rw [fill, KeepsLast, List.pairwise_cons]
    change _ ∧ KeepsLast counts _ ↔ _
    rw [ih]
    constructor
    · rintro ⟨hfirst, hitems⟩ (⟨hkept, hskipped, hfits, hlast, hlarge⟩ | hgap)
      · refine absurd (hfirst _ (mem_fill_iff.mpr ⟨_, _, rfl, rfl⟩) hkept hskipped ?_) ?_
        · exact Bool.or_eq_true_iff.mpr (.inr (decide_eq_true hfits))
        · simp [hlast, hlarge]
      · exact hitems hgap
    · intro hgap
      refine ⟨?_, fun hitems => hgap (.later hitems)⟩
      rintro ⟨other, keep⟩ hother hitem hcounts hfits
      obtain ⟨between, later, rfl, rfl⟩ := mem_fill_iff.mp hother
      rw [Bool.or_eq_true_iff, decide_eq_true_iff, List.isEmpty_iff] at hfits ⊢
      by_contra hskipped
      obtain ⟨hlast, hlarge⟩ := not_or.mp hskipped
      refine hgap (.here hitem hcounts (hfits.resolve_left ?_) hlast (Nat.not_le.mp hlarge))
      exact List.append_ne_nil_of_right_ne_nil _ (List.cons_ne_nil _ _)

/-- Where an item has room, no marks keep of the later items what filling does and the item too. -/
theorem filter_keptOf_ne_of_fits [DecidableEq α] {marks : List (α × Bool)} (hall : marks.map Prod.fst = items)
    (hcounts : counts item = true) (hfits : (items.isEmpty || decide (size item ≤ room size budget items)) = true) :
    (keptOf marks).filter counts ≠ item :: (keptOf (fill size budget items)).filter counts := by
  intro hkept
  -- There would be one item like this among those kept later, beside all that there are.
  have hcount := congrArg (List.count item) hkept
  rw [List.count_cons_self, List.count_filter hcounts, List.count_filter hcounts] at hcount
  have hmost := (keptOf_sublist marks).count_le item
  rw [hall] at hmost
  rcases Bool.or_eq_true_iff.mp hfits with hempty | hroom
  · rw [List.isEmpty_iff.mp hempty, List.count_nil] at hmost
    omega
  · rw [count_keptOf_fill (of_decide_eq_true hroom)] at hcount
    omega

/-- Other marks under which the same items are kept that count, and no later one dropped, are those of filling. -/
theorem keepsLast_fill_of_kept [DecidableEq α] {marks : List (α × Bool)} (hall : marks.map Prod.fst = items)
    (hlast : KeepsLast counts marks)
    (hkept : (keptOf marks).filter counts = (keptOf (fill size budget items)).filter counts) :
    KeepsLast counts (fill size budget items) := by
  induction items generalizing marks with
  | nil => exact .nil
  | cons item items ih =>
    obtain ⟨⟨first, keep⟩, rest, rfl, hfirst, hrest⟩ := List.map_eq_cons_iff.mp hall
    obtain rfl : first = item := hfirst
    obtain ⟨-, htail⟩ := List.pairwise_cons.mp hlast
    by_cases hcounts : counts first = true
    · rw [fill, keptOf_cons, keptOf_cons] at hkept
      rw [fill]
      cases hfits : (items.isEmpty || decide (size first ≤ room size budget items)) with
      | false =>
        rw [hfits, if_neg Bool.false_ne_true] at hkept
        cases keep with
        | false => exact List.pairwise_cons.mpr ⟨fun _ _ _ _ h => (by cases h), ih hrest htail hkept⟩
        | true =>
          -- The other marks keep one more.
          have hmore := hlast.keeps_later hcounts
          have hless := ((keptOf_sublist (fill size budget items)).filter counts).length_le
          rw [if_pos rfl, List.filter_cons_of_pos hcounts] at hkept
          rw [fill_fst, ← hkept, List.length_cons] at hless
          rw [hrest] at hmore
          omega
      | true =>
        rw [hfits, if_pos rfl, List.filter_cons_of_pos hcounts] at hkept
        cases keep with
        | false => exact absurd hkept (filter_keptOf_ne_of_fits hrest hcounts hfits)
        | true =>
          rw [if_pos rfl, List.filter_cons_of_pos hcounts] at hkept
          have hsame := (List.cons.inj hkept).2
          refine List.pairwise_cons.mpr ⟨fun mark hmark _ hcount _ => ?_, ih hrest htail hsame⟩
          have hmore := hlast.keeps_later hcounts
          rw [hrest, hsame] at hmore
          refine forall_kept_iff.mpr ?_ mark hmark hcount
          rwa [fill_fst]
    · rw [fill, filter_keptOf_cons_of_neg hcounts, filter_keptOf_cons_of_neg hcounts] at hkept
      exact List.pairwise_cons.mpr ⟨fun _ _ h => absurd h hcounts, ih hrest htail hkept⟩

/-- The last of the items that are kept is the last of all, where both count. -/
theorem getLast?_keptOf {marks : List (α × Bool)} {last : α} (hlast : KeepsLast counts marks)
    (hall : (marks.map Prod.fst).getLast? = some last) (hcounts : counts last = true)
    (hkept : (keptOf marks).getLast? = some item) (hitem : counts item = true) : item = last := by
  rcases List.eq_nil_or_concat marks with rfl | ⟨init, ⟨final, keep⟩, rfl⟩
  · cases hall
  rw [List.concat_eq_append] at hlast hall hkept
  rw [List.map_append, List.map_singleton, List.getLast?_concat] at hall
  obtain rfl : final = last := Option.some.inj hall
  rw [keptOf_append, keptOf_cons] at hkept
  cases keep with
  | true =>
    rw [if_pos rfl, show keptOf ([] : List (α × Bool)) = [] from rfl, List.getLast?_concat] at hkept
    exact (Option.some.inj hkept).symm
  | false =>
    rw [if_neg Bool.false_ne_true, show keptOf ([] : List (α × Bool)) = [] from rfl, List.append_nil] at hkept
    obtain ⟨⟨other, keep⟩, hmem, rfl⟩ := List.mem_map.mp (List.mem_of_getLast? hkept)
    obtain ⟨hmark, hkeep⟩ := List.mem_filter.mp hmem
    obtain ⟨-, -, hpairs⟩ := List.pairwise_append.mp hlast
    exact absurd (hpairs _ hmark _ (List.mem_singleton_self _) hitem hcounts hkeep) Bool.false_ne_true

end Filling

end Gail.Library
