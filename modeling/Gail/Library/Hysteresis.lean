import Mathlib.Data.List.Basic
import Mathlib.Data.List.Induction

/-! A switch with hysteresis: it turns on after a number of confirmations in a row and off after as
many refutations with no confirmation between them. Items are polled in order, each casting a vote. -/
namespace Gail.Library

inductive Vote
  | confirm
  | refute
  | abstain
  deriving DecidableEq, Repr

/-- The position, the confirmations in a row while off, and the refutations that stand while on. -/
structure Switch where
  on : Bool
  confirmed : Nat
  refuted : Nat
  deriving DecidableEq, Repr

namespace Switch
variable (required : Nat)

def off : Switch := ⟨false, 0, 0⟩

def vote (switch : Switch) : Vote → Switch
  | .confirm =>
    if switch.on then { switch with refuted := 0 }
    else ⟨decide (required ≤ switch.confirmed + 1), switch.confirmed + 1, 0⟩
  | .refute =>
    if switch.on then
      if switch.refuted + 1 < required then { switch with refuted := switch.refuted + 1 } else off
    else off
  | .abstain => if switch.on then switch else off

variable {α : Type*} (ballot : α → Vote)

def poll (switch : Switch) (items : List α) : Switch :=
  items.foldl (fun switch item => switch.vote required (ballot item)) switch

/-- The count that matters in the position has not reached the number required. -/
structure Within (switch : Switch) : Prop where
  confirmed : switch.on = false → switch.confirmed < required
  refuted : switch.on = true → switch.refuted < required

/-- Consecutive items without a confirmation refute often enough; the refutations that stand at the
start count for the items it begins with. -/
def Refuted (standing : Nat) (items : List α) : Prop :=
  ∃ front block rest, items = front ++ block ++ rest ∧ (∀ item ∈ block, ballot item ≠ .confirm) ∧
    required ≤ block.countP (fun item => ballot item = .refute) + if front = [] then standing else 0

variable {required} {ballot} {switch : Switch} {items : List α} {item : α}

theorem off_within (h : 0 < required) : off.Within required :=
  ⟨fun _ => h, fun ho => by cases ho⟩

theorem Within.vote (h : 0 < required) (hw : switch.Within required) (ballot : Vote) :
    (switch.vote required ballot).Within required := by
  cases ballot with
  | confirm =>
    simp only [Switch.vote]
    split
    · exact ⟨fun ho => by simp_all, fun _ => h⟩
    · refine ⟨fun ho => ?_, fun _ => h⟩
      exact Nat.lt_of_not_le (of_decide_eq_false ho)
  | refute =>
    simp only [Switch.vote]
    split
    · split
      · exact ⟨fun ho => by simp_all, fun _ => by assumption⟩
      · exact off_within h
    · exact off_within h
  | abstain =>
    simp only [Switch.vote]
    split
    · exact hw
    · exact off_within h

theorem poll_append (switch : Switch) (front rest : List α) :
    switch.poll required ballot (front ++ rest)
      = (switch.poll required ballot front).poll required ballot rest := List.foldl_append

theorem poll_concat (switch : Switch) (items : List α) (item : α) :
    switch.poll required ballot (items ++ [item])
      = (switch.poll required ballot items).vote required (ballot item) :=
  poll_append switch items [item]

/-- A vote that leaves the switch off confirmed an off switch once more or cleared its count. -/
private theorem vote_off {ballot : Vote} (ho : (switch.vote required ballot).on = false) :
    (ballot = .confirm ∧ switch.on = false ∧
        (switch.vote required ballot).confirmed = switch.confirmed + 1) ∨
      (switch.vote required ballot).confirmed = 0 := by
  cases hs : switch.on <;> cases ballot <;> simp_all [vote, off]
  split at ho
  · cases ho
  · rename_i h
    rw [if_neg h]

/-- A vote that turns an off switch on is the last confirmation required. -/
theorem vote_on {ballot : Vote} (hs : switch.on = false)
    (hon : (switch.vote required ballot).on = true) :
    ballot = .confirm ∧ required ≤ switch.confirmed + 1 := by
  cases ballot <;> simp_all [vote, off]

/-- While the switch is off, its count is of the last items, which all confirm. -/
theorem confirmed_last (items : List α) (ho : (off.poll required ballot items).on = false) :
    ∃ before recent, items = before ++ recent ∧
      recent.length = (off.poll required ballot items).confirmed ∧
      ∀ item ∈ recent, ballot item = .confirm := by
  induction items using List.reverseRecOn with
  | nil => exact ⟨[], [], rfl, rfl, fun _ h => by cases h⟩
  | append_singleton items item ih =>
    rw [poll_concat] at ho ⊢
    rcases vote_off ho with ⟨hb, hs, hc⟩ | hc
    · obtain ⟨before, recent, rfl, hl, hall⟩ := ih hs
      refine ⟨before, recent ++ [item], List.append_assoc _ _ _, ?_, ?_⟩
      · rw [hc, List.length_append, hl, List.length_singleton]
      · intro other ho
        rcases List.mem_append.mp ho with ho | ho
        · exact hall other ho
        · rw [List.mem_singleton.mp ho]
          exact hb
    · exact ⟨items ++ [item], [], (List.append_nil _).symm, hc.symm, fun _ h => by cases h⟩

/-- The items that turn the switch on: as many as required, the last one included. -/
theorem confirmed_of_on (items : List α) (item : α)
    (ho : (off.poll required ballot items).on = false)
    (hon : (off.poll required ballot (items ++ [item])).on = true) :
    ∃ before recent, items ++ [item] = before ++ recent ∧ required ≤ recent.length ∧
      ∀ item ∈ recent, ballot item = .confirm := by
  rw [poll_concat] at hon
  obtain ⟨hb, hr⟩ := vote_on ho hon
  obtain ⟨before, recent, rfl, hl, hall⟩ := confirmed_last items ho
  refine ⟨before, recent ++ [item], List.append_assoc _ _ _, ?_, ?_⟩
  · rw [List.length_append, hl, List.length_singleton]
    exact hr
  · intro other ho
    rcases List.mem_append.mp ho with ho | ho
    · exact hall other ho
    · rw [List.mem_singleton.mp ho]
      exact hb

private theorem turned_off_cons (hon : switch.on = true) :
    (∃ front rest, item :: items = front ++ rest ∧
        (switch.poll required ballot front).on = false) ↔
      ∃ front rest, items = front ++ rest ∧
        ((switch.vote required (ballot item)).poll required ballot front).on = false := by
  constructor
  · rintro ⟨front, rest, he, ho⟩
    match front, he with
    | [], _ => rw [show switch.poll required ballot [] = switch from rfl, hon] at ho; cases ho
    | _ :: front, he =>
      obtain ⟨rfl, hrest⟩ := List.cons.inj he
      exact ⟨front, rest, hrest, ho⟩
  · rintro ⟨front, rest, rfl, ho⟩
    exact ⟨item :: front, rest, rfl, ho⟩

variable {standing : Nat}

/-- A confirmation starts the count again. -/
private theorem refuted_confirm (hs : standing < required) (hb : ballot item = .confirm) :
    Refuted required ballot standing (item :: items) ↔ Refuted required ballot 0 items := by
  constructor
  · rintro ⟨front, block, rest, he, hall, hc⟩
    match front, block, he with
    | [], [], _ =>
      rw [if_pos rfl, List.countP_nil] at hc
      omega
    | [], other :: block, he =>
      obtain ⟨rfl, -⟩ := List.cons.inj he
      exact absurd hb (hall item List.mem_cons_self)
    | _ :: front, block, he =>
      refine ⟨front, block, rest, (List.cons.inj he).2, hall, ?_⟩
      rw [if_neg (List.cons_ne_nil _ _)] at hc
      omega
  · rintro ⟨front, block, rest, rfl, hall, hc⟩
    refine ⟨item :: front, block, rest, rfl, hall, ?_⟩
    rw [ite_self] at hc
    rw [if_neg (List.cons_ne_nil _ _)]
    exact hc

/-- Any other vote adds to what stands if it refutes. -/
private theorem refuted_other (hs : standing < required) (hb : ballot item ≠ .confirm) :
    Refuted required ballot standing (item :: items) ↔
      required ≤ standing + (if ballot item = .refute then 1 else 0) ∨
        Refuted required ballot (standing + if ballot item = .refute then 1 else 0) items := by
  constructor
  · rintro ⟨front, block, rest, he, hall, hc⟩
    match front, block, he with
    | [], [], _ =>
      rw [if_pos rfl, List.countP_nil] at hc
      omega
    | [], other :: block, he =>
      obtain ⟨rfl, hrest⟩ := List.cons.inj he
      refine Or.inr ⟨[], block, rest, hrest, fun a ha => hall a (List.mem_cons_of_mem _ ha), ?_⟩
      rw [if_pos rfl, List.countP_cons] at hc
      simp only [decide_eq_true_eq] at hc
      rw [if_pos rfl]
      omega
    | _ :: front, block, he =>
      refine Or.inr ⟨front, block, rest, (List.cons.inj he).2, hall, ?_⟩
      rw [if_neg (List.cons_ne_nil _ _)] at hc
      omega
  · rintro (hr | ⟨front, block, rest, rfl, hall, hc⟩)
    · refine ⟨[], [item], items, rfl, fun a ha => by rwa [List.mem_singleton.mp ha], ?_⟩
      rw [if_pos rfl, List.countP_singleton]
      simp only [decide_eq_true_eq]
      omega
    · match front with
      | [] =>
        refine ⟨[], item :: block, rest, rfl, ?_, ?_⟩
        · intro a ha
          rcases List.mem_cons.mp ha with rfl | ha
          · exact hb
          · exact hall a ha
        · rw [if_pos rfl] at hc
          rw [if_pos rfl, List.countP_cons]
          simp only [decide_eq_true_eq]
          omega
      | other :: front =>
        refine ⟨item :: other :: front, block, rest, rfl, hall, ?_⟩
        rw [if_neg (List.cons_ne_nil _ _)] at hc ⊢
        exact hc

/-- A switch that is on is off at some point of a poll exactly if the poll refutes it. -/
theorem turned_off_iff (h : 0 < required) (hw : switch.Within required) (hon : switch.on = true) :
    (∃ front rest, items = front ++ rest ∧ (switch.poll required ballot front).on = false) ↔
      Refuted required ballot switch.refuted items := by
  have hd := hw.refuted hon
  induction items generalizing switch with
  | nil =>
    constructor
    · rintro ⟨front, rest, he, ho⟩
      obtain ⟨rfl, -⟩ := List.append_eq_nil_iff.mp he.symm
      rw [show switch.poll required ballot [] = switch from rfl, hon] at ho
      cases ho
    · rintro ⟨front, block, rest, he, -, hc⟩
      obtain ⟨hfb, -⟩ := List.append_eq_nil_iff.mp he.symm
      obtain ⟨rfl, rfl⟩ := List.append_eq_nil_iff.mp hfb
      rw [if_pos rfl, List.countP_nil] at hc
      omega
  | cons item items ih =>
    rw [turned_off_cons hon]
    have hv := hw.vote h (ballot item)
    cases hb : ballot item with
    | confirm =>
      rw [refuted_confirm hd hb]
      have he : switch.vote required .confirm = { switch with refuted := 0 } := by
        simp only [vote, hon, if_true]
      rw [hb, he] at hv
      rw [he]
      exact ih hv hon h
    | abstain =>
      have he : switch.vote required .abstain = switch := by simp only [vote, hon, if_true]
      have hne : (Vote.abstain = Vote.refute) = False := by simp
      rw [refuted_other hd (by rw [hb]; decide), hb, he]
      simp only [hne, if_false, Nat.add_zero, Nat.not_le_of_lt hd, false_or]
      exact ih hw hon hd
    | refute =>
      rw [refuted_other hd (by rw [hb]; decide), hb, if_pos rfl]
      by_cases hlt : switch.refuted + 1 < required
      · have he : switch.vote required .refute = { switch with refuted := switch.refuted + 1 } := by
          simp only [vote, hon, if_true, if_pos hlt]
        rw [hb, he] at hv
        rw [he]
        simp only [Nat.not_le_of_lt hlt, false_or]
        exact ih hv hon hlt
      · have he : switch.vote required .refute = off := by
          simp only [vote, hon, if_true, if_neg hlt]
        rw [he]
        exact iff_of_true ⟨[], items, rfl, rfl⟩ (Or.inl (Nat.le_of_not_lt hlt))

end Switch

end Gail.Library
