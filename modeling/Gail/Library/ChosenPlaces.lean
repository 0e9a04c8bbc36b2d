import Mathlib.Data.List.Perm.Basic

/-! The items of a list at chosen places, put there in another order while all others stay. -/
namespace Gail.Library
variable {α β : Type*}

/-- The items at the places that are marked. -/
def chosenOf (marks : List Bool) (items : List α) : List α :=
  (marks.zip items).filterMap fun (mark, item) => if mark then some item else none

/-- The marked places are taken by given items in turn, as long as there are any. -/
def refill : List Bool → List α → List α → List α
  | true :: marks, _ :: items, next :: ranked => next :: refill marks items ranked
  | _ :: marks, item :: items, ranked => item :: refill marks items ranked
  | [], items, _ => items
  | _, [], _ => []

@[simp] theorem chosenOf_nil (items : List α) : chosenOf [] items = [] := rfl

@[simp] theorem chosenOf_cons (mark : Bool) (marks : List Bool) (item : α) (items : List α) :
    chosenOf (mark :: marks) (item :: items) = if mark then item :: chosenOf marks items else chosenOf marks items := by
  cases mark <;> rfl

theorem refill_true (marks : List Bool) (item next : α) (items ranked : List α) :
    refill (true :: marks) (item :: items) (next :: ranked) = next :: refill marks items ranked := rfl

theorem refill_false (marks : List Bool) (item : α) (items ranked : List α) :
    refill (false :: marks) (item :: items) ranked = item :: refill marks items ranked := by
  cases ranked <;> rfl

/-- The items that are put in, and the others that stay, are all items. -/
theorem refill_perm {marks : List Bool} {items ranked : List α} (hl : marks.length = items.length)
    (h : ranked.length = (chosenOf marks items).length) :
    (refill marks items ranked).Perm (ranked ++ chosenOf (marks.map (!·)) items) := by
  induction marks generalizing items ranked with
  | nil =>
    rw [List.length_eq_zero_iff.mp hl.symm] at h ⊢
    rw [List.length_eq_zero_iff.mp h]
    exact .refl _
  | cons mark marks ih =>
    match items, hl with
    | item :: items, hl =>
      cases mark with
      | true =>
        match ranked, h with
        | next :: ranked, h => exact (ih (by simpa using hl) (by simpa using h)).cons next
      | false =>
        rw [refill_false]
        exact ((ih (by simpa using hl) (by simpa using h)).cons item).trans List.perm_middle.symm

theorem chosenOf_perm {marks : List Bool} {items : List α} (hl : marks.length = items.length) :
    (chosenOf marks items ++ chosenOf (marks.map (!·)) items).Perm items := by
  induction marks generalizing items with
  | nil =>
    rw [List.length_eq_zero_iff.mp hl.symm]
    exact .refl _
  | cons mark marks ih =>
    match items, hl with
    | item :: items, hl =>
      have hlen : marks.length = items.length := by simpa using hl
      have hrest := ih hlen
      cases mark with
      | true => exact hrest.cons item
      | false => exact List.perm_middle.trans (hrest.cons item)

/-- What is put in stands at the marked places in its order. -/
theorem chosenOf_refill {marks : List Bool} {items ranked : List α} (hl : marks.length = items.length)
    (h : ranked.length = (chosenOf marks items).length) : chosenOf marks (refill marks items ranked) = ranked := by
  induction marks generalizing items ranked with
  | nil =>
    rw [chosenOf_nil, List.length_nil] at h
    rw [List.length_eq_zero_iff.mp h, chosenOf_nil]
  | cons mark marks ih =>
    match items, hl with
    | item :: items, hl =>
      cases mark with
      | true =>
        match ranked, h with
        | next :: ranked, h =>
          rw [refill_true, chosenOf_cons, if_pos rfl, ih (by simpa using hl) (by simpa using h)]
      | false =>
        rw [refill_false, chosenOf_cons, if_neg Bool.false_ne_true, ih (by simpa using hl) (by simpa using h)]

/-- Every place that is not marked keeps its item. -/
theorem getElem?_refill {marks : List Bool} {items ranked : List α} {i : Nat} (h : marks[i]? = some false) :
    (refill marks items ranked)[i]? = items[i]? := by
  induction marks generalizing items ranked i with
  | nil => cases h
  | cons mark marks ih =>
    match items with
    | [] =>
      cases mark <;> cases ranked <;> rfl
    | item :: items =>
      cases i with
      | zero =>
        rw [List.getElem?_cons_zero, Option.some_inj] at h
        rw [h, refill_false]
        rfl
      | succ i =>
        rw [List.getElem?_cons_succ] at h
        cases mark with
        | false =>
          rw [refill_false]
          exact ih h
        | true =>
          cases ranked with
          | nil => exact ih h
          | cons next ranked => exact ih h

end Gail.Library
