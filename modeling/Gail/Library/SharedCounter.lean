import Mathlib.Data.List.Infix
import Mathlib.Data.List.Count

/-! One counter of consecutive failures that several sources share, against a counter of each source's
own. They agree as long as the failures that are being counted all come from one source. -/
namespace Gail.Library
variable {α : Type*}

/-- A success or a failure of a source. -/
structure Sample (α : Type*) where
  source : α
  ok : Bool
  deriving DecidableEq

/-- The sources of the failures that the shared counter holds; a success empties it, and so does the
failure that takes it to its limit. -/
def pendingAfter (limit : Nat) (pending : List α) (sample : Sample α) : List α :=
  if sample.ok then [] else if limit ≤ pending.length + 1 then [] else pending ++ [sample.source]

def pending (limit : Nat) (samples : List (Sample α)) : List α := samples.foldl (pendingAfter limit) []

@[simp] theorem pending_snoc {limit : Nat} {samples : List (Sample α)} {sample : Sample α} :
    pending limit (samples ++ [sample]) = pendingAfter limit (pending limit samples) sample := by
  simp only [pending, List.foldl_append, List.foldl_cons, List.foldl_nil]

theorem pendingAfter_failure {limit : Nat} {held : List α} {source : α} :
    pendingAfter limit held ⟨source, false⟩ =
      if limit ≤ held.length + 1 then [] else held ++ [source] := by
  rw [pendingAfter, if_neg (by simp)]

variable [DecidableEq α]

/-- The same of a counter that only looks at one source. -/
def streakAfter (limit : Nat) (source : α) (count : Nat) (sample : Sample α) : Nat :=
  if sample.source ≠ source then count
  else if sample.ok then 0
  else if limit ≤ count + 1 then 0
  else count + 1

def streak (limit : Nat) (source : α) (samples : List (Sample α)) : Nat :=
  samples.foldl (streakAfter limit source) 0

/-- What the samples of one source were. -/
def outcomes (source : α) (samples : List (Sample α)) : List Bool :=
  (samples.filter fun sample => sample.source = source).map Sample.ok

/-- Somewhere the source failed so many times in a row, whatever the others did in between. -/
def FailedInARow (count : Nat) (source : α) (samples : List (Sample α)) : Prop :=
  List.replicate count false <:+: outcomes source samples

instance (count : Nat) (source : α) (samples : List (Sample α)) :
    Decidable (FailedInARow count source samples) :=
  inferInstanceAs (Decidable (_ <:+: _))

/-- The failures that are being counted come from the source of the sample. -/
def OneSource (limit : Nat) (samples : List (Sample α)) (sample : Sample α) : Prop :=
  ∀ source ∈ pending limit samples, source = sample.source

instance (limit : Nat) (samples : List (Sample α)) (sample : Sample α) :
    Decidable (OneSource limit samples sample) :=
  inferInstanceAs (Decidable (∀ source ∈ pending limit samples, source = sample.source))

variable {limit : Nat} {samples : List (Sample α)} {sample : Sample α} {source : α}

@[simp] theorem streak_snoc :
    streak limit source (samples ++ [sample]) =
      streakAfter limit source (streak limit source samples) sample := by
  simp only [streak, List.foldl_append, List.foldl_cons, List.foldl_nil]

theorem outcomes_snoc :
    outcomes source (samples ++ [sample]) =
      outcomes source samples ++ if sample.source = source then [sample.ok] else [] := by
  simp only [outcomes, List.filter_append, List.map_append]
  split
  · next h => simp [h]
  · next h => simp [h]

theorem FailedInARow.append {count : Nat} (h : FailedInARow count source samples)
    (later : List (Sample α)) : FailedInARow count source (samples ++ later) := by
  unfold FailedInARow outcomes at h ⊢
  rw [List.filter_append, List.map_append]
  exact h.trans (List.infix_append' [] _ _)

/-- A source's own counter counts its last outcomes. -/
theorem streak_suffix (limit : Nat) (source : α) (samples : List (Sample α)) :
    List.replicate (streak limit source samples) false <:+ outcomes source samples := by
  induction samples using List.reverseRecOn with
  | nil => exact List.suffix_rfl
  | append_singleton samples sample ih =>
    rw [streak_snoc, outcomes_snoc, streakAfter]
    by_cases hs : sample.source = source
    · rw [if_neg (not_not.mpr hs), if_pos hs]
      cases hok : sample.ok with
      | true => exact List.nil_suffix
      | false =>
        rw [if_neg (by simp)]
        split
        · exact List.nil_suffix
        · rw [List.replicate_succ', List.suffix_concat_iff]
          exact .inr ⟨_, rfl, ih⟩
    · rw [if_pos hs, if_neg hs, List.append_nil]
      exact ih

/-- When the source's own counter reaches its limit, it has failed so many times in a row. -/
theorem failedInARow_of_streak (h : limit ≤ streak limit source samples + 1) (hs : sample.source = source)
    (hok : sample.ok = false) : FailedInARow limit source (samples ++ [sample]) := by
  have hrun : List.replicate (streak limit source samples + 1) false <:+
      outcomes source (samples ++ [sample]) := by
    rw [outcomes_snoc, if_pos hs, hok, List.replicate_succ', List.suffix_concat_iff]
    exact .inr ⟨_, rfl, streak_suffix limit source samples⟩
  have hle : List.replicate limit false <:+ List.replicate (streak limit source samples + 1) false := by
    refine ⟨List.replicate (streak limit source samples + 1 - limit) false, ?_⟩
    rw [← List.replicate_add]
    congr 1
    omega
  exact (hle.trans hrun).isInfix

/-- With one source at a time the shared counter holds for every source what its own one does. -/
theorem streak_eq_count
    (h : ∀ before sample after, samples = before ++ sample :: after → OneSource limit before sample)
    (source : α) : streak limit source samples = (pending limit samples).count source := by
  induction samples using List.reverseRecOn with
  | nil => rfl
  | append_singleton samples sample ih =>
    have hone : OneSource limit samples sample := h samples sample [] rfl
    have ih := ih fun before other after he =>
      h before other (after ++ [sample]) (by rw [he, List.append_assoc]; rfl)
    have hall : (pending limit samples).count sample.source = (pending limit samples).length :=
      List.count_eq_length.mpr fun other ho => (hone other ho).symm
    rw [streak_snoc, pending_snoc, streakAfter, pendingAfter, ih]
    by_cases hs : sample.source = source
    · subst hs
      rw [if_neg (not_not.mpr rfl), hall]
      split
      · rfl
      · split
        · rfl
        · rw [List.count_append, List.count_singleton_self, hall]
    · rw [if_pos hs]
      have hnone : (pending limit samples).count source = 0 :=
        List.count_eq_zero.mpr fun hm => hs (hone source hm).symm
      split
      · exact hnone
      · split
        · exact hnone
        · rw [List.count_append, List.count_singleton, if_neg (by simpa using hs), Nat.add_zero]

/-- Under the same condition both counters reach the limit at the same failure. -/
theorem limit_iff
    (h : ∀ before sample after, samples = before ++ sample :: after → OneSource limit before sample)
    (hone : OneSource limit samples sample) :
    limit ≤ (pending limit samples).length + 1 ↔
      limit ≤ streak limit sample.source samples + 1 := by
  rw [streak_eq_count h, List.count_eq_length.mpr fun other ho => (hone other ho).symm]

end Gail.Library
