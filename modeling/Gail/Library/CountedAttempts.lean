import Mathlib.Algebra.BigOperators.Fin
import Mathlib.Algebra.Order.BigOperators.Group.Finset

/-! A task that several workers attempt until a number of attempts have been counted. An attempt is counted when it
ends, so that more may have begun by then; the workers and the attempts whose end was lost say how many more. -/
namespace Gail.Library
variable {ω : Type*}

/-- How far a worker is with the task. -/
inductive AttemptPhase
  | idle
  /-- It found the task open and has not begun. -/
  | claimed
  | underway
  deriving DecidableEq

structure Attempts (ω : Type*) where
  phase : ω → AttemptPhase
  counted : Nat
  begun : Nat
  /-- Attempts that were begun and ended without being counted. -/
  lost : Nat

variable [DecidableEq ω]

/-- The steps of the workers on a task that is open while fewer than a number of attempts are counted. -/
inductive Attempts.Step (limit : Nat) : Attempts ω → Attempts ω → Prop
  | claim {s : Attempts ω} (w : ω) (hi : s.phase w = .idle) (ho : s.counted < limit) :
    Step limit s { s with phase := Function.update s.phase w .claimed }
  | begin {s : Attempts ω} (w : ω) (hc : s.phase w = .claimed) :
    Step limit s { s with phase := Function.update s.phase w .underway, begun := s.begun + 1 }
  | release {s : Attempts ω} (w : ω) (hu : s.phase w ≠ .underway) :
    Step limit s { s with phase := Function.update s.phase w .idle }
  | lose {s : Attempts ω} (w : ω) (hu : s.phase w = .underway) :
    Step limit s { s with phase := Function.update s.phase w .idle, lost := s.lost + 1 }
  | count {s : Attempts ω} (w : ω) :
    Step limit s { s with phase := Function.update s.phase w .idle, counted := s.counted + 1 }

namespace Attempts
variable [Fintype ω] {limit : Nat} {s next : Attempts ω}

/-- How many workers are in a phase. -/
def number (s : Attempts ω) (phase : AttemptPhase) : Nat := ∑ w, if s.phase w = phase then 1 else 0

omit [DecidableEq ω] in
theorem number_add (s : Attempts ω) :
    s.number .idle + s.number .claimed + s.number .underway = Fintype.card ω := by
  rw [number, number, number, ← Finset.sum_add_distrib, ← Finset.sum_add_distrib, Fintype.card_eq_sum_ones]
  refine Finset.sum_congr rfl fun w _ => ?_
  cases s.phase w <;> rfl

omit [DecidableEq ω] in
theorem number_pos {w : ω} {phase : AttemptPhase} (h : s.phase w = phase) : 0 < s.number phase :=
  Finset.sum_pos' (fun _ _ => Nat.zero_le _) ⟨w, Finset.mem_univ w, by rw [if_pos h]; exact Nat.one_pos⟩

/-- When one worker moves on, it is counted in its new phase and no longer in its old one. -/
theorem number_update (w : ω) (new phase : AttemptPhase) (counted begun lost : Nat) :
    number ⟨Function.update s.phase w new, counted, begun, lost⟩ phase + (if s.phase w = phase then 1 else 0) =
      s.number phase + if new = phase then 1 else 0 := by
  rw [number, number, Fintype.sum_eq_add_sum_compl w, Fintype.sum_eq_add_sum_compl w fun v =>
    if s.phase v = phase then 1 else 0]
  have hrest : ∑ v ∈ {w}ᶜ, (if Function.update s.phase w new v = phase then 1 else 0) =
      ∑ v ∈ {w}ᶜ, if s.phase v = phase then 1 else 0 :=
    Finset.sum_congr rfl fun v hv => by
      rw [Function.update_of_ne (by simpa using hv)]
  rw [hrest]
  simp only [Function.update_self]
  omega

/-- Every attempt that has begun is counted, underway or lost; and those that are about to begin fit in too. -/
structure Bounded (limit : Nat) (s : Attempts ω) : Prop where
  begun_le : s.begun ≤ s.counted + s.number .underway + s.lost
  begun_lt : s.begun + s.number .claimed < limit + Fintype.card ω + s.lost

theorem Bounded.step (h : s.Bounded limit) (hs : Step limit s next) : next.Bounded limit := by
  have hall := s.number_add
  cases hs with
  | claim w hi ho =>
    have hidle := number_pos hi
    have hclaimed := number_update (s := s) w .claimed .claimed s.counted s.begun s.lost
    have hunder := number_update (s := s) w .claimed .underway s.counted s.begun s.lost
    simp only [hi, reduceCtorEq, if_false, if_true] at hclaimed hunder
    have hle := h.begun_le
    constructor <;> dsimp only <;> omega
  | begin w hc =>
    have hclaimed := number_update (s := s) w .underway .claimed s.counted (s.begun + 1) s.lost
    have hunder := number_update (s := s) w .underway .underway s.counted (s.begun + 1) s.lost
    simp only [hc, reduceCtorEq, if_false, if_true] at hclaimed hunder
    have hle := h.begun_le
    have hlt := h.begun_lt
    constructor <;> dsimp only <;> omega
  | release w hu =>
    have hclaimed := number_update (s := s) w .idle .claimed s.counted s.begun s.lost
    have hunder := number_update (s := s) w .idle .underway s.counted s.begun s.lost
    simp only [hu, reduceCtorEq, if_false] at hclaimed hunder
    have hle := h.begun_le
    have hlt := h.begun_lt
    constructor <;> dsimp only <;> omega
  | lose w hu =>
    have hclaimed := number_update (s := s) w .idle .claimed s.counted s.begun (s.lost + 1)
    have hunder := number_update (s := s) w .idle .underway s.counted s.begun (s.lost + 1)
    simp only [hu, reduceCtorEq, if_false, if_true] at hclaimed hunder
    have hle := h.begun_le
    have hlt := h.begun_lt
    constructor <;> dsimp only <;> omega
  | count w =>
    have hclaimed := number_update (s := s) w .idle .claimed (s.counted + 1) s.begun s.lost
    have hunder := number_update (s := s) w .idle .underway (s.counted + 1) s.begun s.lost
    have hone : (if s.phase w = .underway then 1 else 0) ≤ 1 := by split <;> decide
    simp only [reduceCtorEq, if_false] at hclaimed hunder
    have hle := h.begun_le
    have hlt := h.begun_lt
    constructor <;> dsimp only <;> omega

/-- Over any steps from a start without attempts, as many begin as are counted at most, and one more for each further
worker and for each loss. -/
theorem Bounded.steps (h : s.Bounded limit) (hs : Relation.ReflTransGen (Step limit) s next) : next.Bounded limit := by
  induction hs with
  | refl => exact h
  | tail _ hstep ih => exact ih.step hstep

omit [DecidableEq ω] in
theorem bounded_start (hl : 0 < limit) : Bounded limit (⟨fun _ => .idle, 0, 0, 0⟩ : Attempts ω) := by
  constructor
  · exact Nat.zero_le _
  · have h : number (⟨fun _ => .idle, 0, 0, 0⟩ : Attempts ω) .claimed = 0 := by simp [number]
    rw [h]
    exact Nat.lt_of_lt_of_le hl (Nat.le_add_right_of_le (Nat.le_add_right _ _))

end Attempts

end Gail.Library
