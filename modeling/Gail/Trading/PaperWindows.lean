import Gail.Library.Run
import Gail.Trading.PaperQualification

/-! The evidence of a qualification against the observations that were made: what its counters, its
dates and its leases say of the window they belong to. -/
namespace Gail.Trading
open Gail.Library

structure PaperObservation (F δ : Type) where
  revision : DecisionFingerprint δ
  intentKey : String
  evaluationCount : Nat
  now : F
  policy : PaperQualificationPolicy F

/-- An observation that was made, with its result. -/
structure MadeObservation (F δ : Type) extends PaperObservation F δ where
  /-- It has begun a window: the revision is another one, or the evidence has expired. -/
  begins : Bool
  isNew : Bool

/-- The state, and all observations so far with those of the current window apart. -/
structure PaperRun (F δ : Type) where
  state : PaperQualificationState F δ
  history : List (MadeObservation F δ)
  window : List (MadeObservation F δ)

section Definitions
variable {F δ : Type} [Scalar F]

def PaperRun.start : PaperRun F δ := { state := .empty, history := [], window := [] }

/-- When the lease of the intent ends. -/
def PaperObservation.leaseEnd (seen : PaperObservation F δ) : F :=
  seen.now + Scalar.max seen.policy.intentLeaseSeconds 1.0

/-- How many intents of some observations were new, as far as the counter goes. -/
def newIntents (seen : List (MadeObservation F δ)) : Nat :=
  min (seen.countP MadeObservation.isNew) u64Max

/-- The evaluation counter has advanced as far since the first of some observations. -/
def advanced (seen : List (MadeObservation F δ)) (evaluations : Nat) : Bool :=
  seen.head?.any fun first => seen.any fun last =>
    first.evaluationCount + evaluations ≤ last.evaluationCount

/-- The time of the last observation, if the evidence of all meets its policy. -/
def meetsAt (seen : List (MadeObservation F δ)) : Option F :=
  seen.getLast?.bind fun last =>
    if advanced seen last.policy.minEvaluations ∧ last.policy.minValidatedIntents ≤ newIntents seen then
      some last.now
    else none

/-- When the evidence first met a policy that was in force. -/
def metAt (seen : List (MadeObservation F δ)) : Option F := seen.inits.findSome? meetsAt

/-- An intent is counted again only after its lease has ended, or in another window. -/
def LeasesHold (history : List (MadeObservation F δ)) : Prop :=
  ∀ before seen middle later after, history = before ++ seen :: middle ++ later :: after →
    seen.isNew = true → later.isNew = true → seen.intentKey = later.intentKey →
      ∃ made ∈ middle ++ [later], made.begins = true ∨ ¬ made.now < seen.leaseEnd

/-- The window is all that was observed since it began. -/
structure IsWindow (history window : List (MadeObservation F δ)) : Prop where
  recent : window <:+ history
  begins : ∀ first ∈ window.head?, first.begins = true
  continues : ∀ seen ∈ window.tail, seen.begins = false
  all : window = [] → history = []

variable [DecidableEq δ]

def PaperRun.observe (w : PaperRun F δ) (seen : PaperObservation F δ) : PaperRun F δ :=
  let continues := w.state.continues seen.revision seen.now seen.policy
  let observed := w.state.observeIntent seen.revision seen.intentKey seen.evaluationCount seen.now
    seen.policy
  let made := { seen with begins := !continues, isNew := observed.2 }
  { state := observed.1
    history := w.history ++ [made]
    window := (if continues then w.window else []) ++ [made] }

end Definitions

section Counters
variable {F δ : Type}

/-- The counters and the date of a state are those of some observations. -/
structure Accounts (state : PaperQualificationState F δ) (seen : List (MadeObservation F δ)) : Prop where
  start : ∀ first ∈ seen.head?, first.evaluationCount = state.evaluationCountAtStart
  validated : state.validatedIntents = newIntents seen
  observed : ∀ n, n ≤ state.observedEvaluations ↔ n = 0 ∨ advanced seen n = true
  qualified : state.qualifiedAt = metAt seen

variable {state : PaperQualificationState F δ} {seen : List (MadeObservation F δ)}
  {made : MadeObservation F δ}

theorem metAt_concat : metAt (seen ++ [made]) = (metAt seen).or (meetsAt (seen ++ [made])) := by
  have hinits : (seen ++ [made]).inits = seen.inits ++ [seen ++ [made]] := by
    rw [List.inits_append]
    rfl
  rw [metAt, hinits, List.findSome?_append, List.findSome?_singleton]
  rfl

theorem newIntents_concat : newIntents (seen ++ [made]) =
    if made.isNew then saturatingSucc (newIntents seen) else newIntents seen := by
  unfold newIntents saturatingSucc
  rw [List.countP_append]
  cases hn : made.isNew with
  | true =>
    rw [List.countP_singleton, if_pos hn, if_pos rfl]
    omega
  | false =>
    rw [List.countP_singleton, if_neg (by simp [hn]), if_neg (by simp)]
    omega

theorem accounts_empty (revision : DecisionFingerprint δ) (evaluationCount : Nat) (now : F) :
    Accounts (.startWindow revision evaluationCount now) ([] : List (MadeObservation F δ)) where
  start first h := by cases h
  validated := rfl
  observed n := by
    change n ≤ 0 ↔ n = 0 ∨ false = true
    simp
  qualified := rfl

/-- The counter since the first of some observations, with one more. -/
theorem advanced_concat {first : Nat} (h : ∀ s ∈ (seen ++ [made]).head?, s.evaluationCount = first)
    (n : Nat) : advanced (seen ++ [made]) n = true ↔
      advanced seen n = true ∨ first + n ≤ made.evaluationCount := by
  cases seen with
  | nil =>
    have hfirst : made.evaluationCount = first := h made rfl
    simp [advanced, hfirst]
  | cons s rest =>
    have hfirst : s.evaluationCount = first := h s rfl
    simp only [advanced, List.cons_append, List.head?_cons, Option.any_some, hfirst]
    rw [← List.cons_append, List.any_append, Bool.or_eq_true]
    simp

theorem advanced_zero (h : seen ≠ []) : advanced seen 0 = true := by
  cases seen with
  | nil => exact absurd rfl h
  | cons first rest => simp [advanced]

theorem IsWindow.observe {history window : List (MadeObservation F δ)}
    (h : IsWindow history window) (hbegun : window = [] → made.begins = true) :
    IsWindow (history ++ [made]) ((if made.begins then [] else window) ++ [made]) := by
  cases hb : made.begins with
  | true =>
    refine ⟨List.suffix_append history [made], fun first hf => ?_, fun seen hs => ?_, fun hn => ?_⟩
    · cases hf
      exact hb
    · cases hs
    · cases hn
  | false =>
    cases hw : window with
    | nil =>
      rw [hbegun hw] at hb
      cases hb
    | cons first rest =>
      rw [hw] at h
      refine ⟨?_, h.begins, fun seen hs => ?_, fun hn => ?_⟩
      · obtain ⟨earlier, rfl⟩ := h.recent
        exact ⟨earlier, (List.append_assoc earlier _ _).symm⟩
      · rcases List.mem_append.mp hs with hs | hs
        · exact h.continues seen hs
        · rw [List.mem_singleton.mp hs]
          exact hb
      · cases hn

end Counters

section Runs
variable {F δ : Type} [Scalar F]

/-- What a run maintains. -/
structure PaperRun.Good (w : PaperRun F δ) : Prop where
  unbegun : w.window = [] → w.state.buildRevision = none
  revision : ∀ seen ∈ w.window, w.state.buildRevision = some seen.revision
  accounts : Accounts w.state w.window
  isWindow : IsWindow w.history w.window
  /-- A lease that has not ended in this window is still held. -/
  leases : ∀ before seen after, w.history = before ++ seen :: after → seen.isNew = true →
    (∃ made ∈ after, made.begins = true ∨ ¬ made.now < seen.leaseEnd) ∨
      w.state.recentIntents seen.intentKey = some seen.leaseEnd
  counted : LeasesHold w.history

theorem PaperRun.good_start : (PaperRun.start : PaperRun F δ).Good where
  unbegun _ := rfl
  revision seen h := by cases h
  accounts :=
    { start := fun first h => by cases h
      validated := rfl
      observed := fun n => by
        change n ≤ 0 ↔ n = 0 ∨ false = true
        simp
      qualified := rfl }
  isWindow :=
    { recent := List.suffix_rfl
      begins := fun first h => by cases h
      continues := fun seen h => by cases h
      all := fun _ => rfl }
  leases before seen after h := by
    cases before <;> cases h
  counted before seen middle later after h := by
    cases before <;> cases h

variable [DecidableEq δ]

/-- What an observation makes of the window that it falls into. -/
theorem Accounts.observe {state : PaperQualificationState F δ} {kept : List (MadeObservation F δ)}
    (made : MadeObservation F δ)
    (h : Accounts (state.window made.revision made.evaluationCount made.now made.policy) kept)
    (hstart : kept = [] → (state.window made.revision made.evaluationCount made.now
      made.policy).evaluationCountAtStart = made.evaluationCount)
    (hnew : made.isNew = (state.observeIntent made.revision made.intentKey made.evaluationCount made.now
      made.policy).2) :
    Accounts (state.observeIntent made.revision made.intentKey made.evaluationCount made.now
      made.policy).1 (kept ++ [made]) := by
  set base := state.window made.revision made.evaluationCount made.now made.policy with hbase
  set after := (state.observeIntent made.revision made.intentKey made.evaluationCount made.now
    made.policy).1 with hafter
  have hfirst : ∀ first ∈ (kept ++ [made]).head?, first.evaluationCount = base.evaluationCountAtStart := by
    cases kept with
    | nil =>
      intro first hf
      cases hf
      exact (hstart rfl).symm
    | cons first rest => exact h.start
  have hvalidated : after.validatedIntents = newIntents (kept ++ [made]) := by
    rw [newIntents_concat, hnew, ← h.validated]
    rfl
  have hobserved : ∀ n, n ≤ after.observedEvaluations ↔ n = 0 ∨ advanced (kept ++ [made]) n = true := by
    intro n
    have hmax : after.observedEvaluations =
        max base.observedEvaluations (made.evaluationCount - base.evaluationCountAtStart) := rfl
    rw [advanced_concat hfirst, hmax, le_max_iff, h.observed n]
    by_cases hn : n = 0
    · simp [hn]
    · have hsub : n ≤ made.evaluationCount - base.evaluationCountAtStart ↔
          base.evaluationCountAtStart + n ≤ made.evaluationCount := by omega
      rw [hsub, or_assoc]
  have hmeets : after.qualifiedAt =
      if after.meetsCounts made.policy then base.qualifiedAt.or (some made.now)
      else base.qualifiedAt := rfl
  refine ⟨hfirst, hvalidated, hobserved, ?_⟩
  have hcounts : after.meetsCounts made.policy = true ↔
      advanced (kept ++ [made]) made.policy.minEvaluations = true ∧
        made.policy.minValidatedIntents ≤ newIntents (kept ++ [made]) := by
    rw [PaperQualificationState.meetsCounts, Bool.and_eq_true, decide_eq_true_eq, decide_eq_true_eq,
      hobserved, hvalidated]
    have hzero : advanced (kept ++ [made]) 0 = true := advanced_zero (by simp)
    refine and_congr_left fun _ => or_iff_right_of_imp ?_
    intro hn
    rw [hn]
    exact hzero
  rw [hmeets, metAt_concat, h.qualified, meetsAt, List.getLast?_concat, Option.bind_some]
  by_cases hm : after.meetsCounts made.policy = true
  · rw [if_pos hm, if_pos (hcounts.mp hm)]
  · rw [if_neg hm, if_neg (fun hc => hm (hcounts.mpr hc)), Option.or_none]

variable {w : PaperRun F δ} {seen : PaperObservation F δ}

/-- The window of an observation, with the observations that were made in it before. -/
theorem PaperRun.Good.base (h : w.Good) (seen : PaperObservation F δ) :
    Accounts (w.state.window seen.revision seen.evaluationCount seen.now seen.policy)
        (if w.state.continues seen.revision seen.now seen.policy then w.window else []) ∧
      ((if w.state.continues seen.revision seen.now seen.policy then w.window else []) = [] →
        (w.state.window seen.revision seen.evaluationCount seen.now seen.policy).evaluationCountAtStart =
          seen.evaluationCount) := by
  rw [PaperQualificationState.window_eq]
  by_cases hc : w.state.continues seen.revision seen.now seen.policy = true
  · rw [if_pos hc, if_pos hc]
    refine ⟨h.accounts, fun hnil => ?_⟩
    have hrevision := (Bool.and_eq_true_iff.mp hc).1
    rw [h.unbegun hnil] at hrevision
    cases of_decide_eq_true hrevision
  · rw [if_neg hc, if_neg hc]
    exact ⟨accounts_empty _ _ _, fun _ => rfl⟩

/-- A held lease stays until it ends or a window begins, and till then its intent is not new. -/
theorem lease_observe {state : PaperQualificationState F δ} (made : MadeObservation F δ) {key : String}
    {leaseEnd : F} (h : state.recentIntents key = some leaseEnd)
    (hbegins : made.begins = !state.continues made.revision made.now made.policy)
    (hnew : made.isNew = (state.observeIntent made.revision made.intentKey made.evaluationCount made.now
      made.policy).2) :
    (made.begins = true ∨ ¬ made.now < leaseEnd) ∨
      (state.observeIntent made.revision made.intentKey made.evaluationCount made.now
        made.policy).1.recentIntents key = some leaseEnd ∧ (made.intentKey = key → made.isNew = false) := by
  by_cases hb : made.begins = true
  · exact .inl (.inl hb)
  by_cases hlt : made.now < leaseEnd
  · right
    have hc : state.continues made.revision made.now made.policy = true := by
      rw [hbegins] at hb
      simpa using hb
    have hkept : (state.window made.revision made.evaluationCount made.now made.policy).recentIntents key =
        some leaseEnd := by
      rw [PaperQualificationState.window_eq, if_pos hc]
      exact h
    set recent := fun key => ((state.window made.revision made.evaluationCount made.now
      made.policy).recentIntents key).filter fun expiresAt => decide (made.now < expiresAt) with hrecent
    have hheld : recent key = some leaseEnd := by
      rw [hrecent]
      simp [hkept, hlt]
    have hisNew : made.isNew = (recent made.intentKey).isNone := hnew
    have hafter : (state.observeIntent made.revision made.intentKey made.evaluationCount made.now
        made.policy).1.recentIntents =
          if (recent made.intentKey).isNone then
            Function.update recent made.intentKey (some made.leaseEnd)
          else recent := rfl
    have hold : made.intentKey = key → made.isNew = false := by
      rintro rfl
      rw [hisNew, hheld]
      rfl
    refine ⟨?_, hold⟩
    rw [hafter, ← hisNew]
    split_ifs with hn
    · have hne : key ≠ made.intentKey := by
        intro hk
        rw [hold hk.symm] at hn
        cases hn
      rw [Function.update_of_ne hne]
      exact hheld
    · exact hheld
  · exact .inl (.inr hlt)

/-- A new intent has a lease. -/
theorem lease_of_new {state : PaperQualificationState F δ} (made : MadeObservation F δ)
    (hnew : made.isNew = (state.observeIntent made.revision made.intentKey made.evaluationCount made.now
      made.policy).2) (h : made.isNew = true) :
    (state.observeIntent made.revision made.intentKey made.evaluationCount made.now
      made.policy).1.recentIntents made.intentKey = some made.leaseEnd := by
  rw [hnew] at h
  unfold PaperQualificationState.observeIntent at h ⊢
  simp only at h ⊢
  rw [if_pos h, Function.update_self]
  rfl

theorem PaperRun.Good.observe (h : w.Good) (seen : PaperObservation F δ) : (w.observe seen).Good := by
  set made : MadeObservation F δ :=
    { seen with
      begins := !w.state.continues seen.revision seen.now seen.policy
      isNew := (w.state.observeIntent seen.revision seen.intentKey seen.evaluationCount seen.now
        seen.policy).2 } with hmade
  have hhistory : (w.observe seen).history = w.history ++ [made] := rfl
  have hwindow : (w.observe seen).window = (if made.begins then [] else w.window) ++ [made] := by
    cases hc : w.state.continues seen.revision seen.now seen.policy <;>
      simp [PaperRun.observe, hmade, hc]
  have hlast : ∀ {before after : List (MadeObservation F δ)} {held : MadeObservation F δ},
      w.history ++ [made] = before ++ held :: after → (held = made ∧ after = []) ∨
        ∃ middle, after = middle ++ [made] ∧ w.history = before ++ held :: middle := by
    intro before after held he
    rcases List.eq_nil_or_concat after with rfl | ⟨middle, last, rfl⟩
    · obtain ⟨-, hs⟩ := List.append_inj' he rfl
      exact .inl ⟨(List.cons.inj hs).1.symm, rfl⟩
    · rw [List.concat_eq_append, ← List.cons_append, ← List.append_assoc] at he
      obtain ⟨hb, hs⟩ := List.append_inj' he rfl
      rw [← (List.cons.inj hs).1] 
      exact .inr ⟨middle, List.concat_eq_append, hb⟩
  obtain ⟨haccounts, hstart⟩ := h.base seen
  have hrevision : (w.observe seen).state.buildRevision = some seen.revision :=
    PaperQualificationState.observeIntent_buildRevision
  have hunbegun : w.window = [] → made.begins = true := by
    intro hn
    have hrev := h.unbegun hn
    simp [hmade, PaperQualificationState.continues, hrev]
  refine ⟨fun hn => ?_, ?_, haccounts.observe made hstart rfl, ?_, ?_, ?_⟩
  · exact absurd hn (by rw [hwindow]; simp)
  · intro other ho
    rw [hrevision]
    rw [hwindow] at ho
    rcases List.mem_append.mp ho with ho | ho
    · split_ifs at ho with hb
      · cases ho
      · have hc : w.state.continues seen.revision seen.now seen.policy = true := by
          simpa [hmade] using hb
        rw [← h.revision other ho]
        exact (of_decide_eq_true (Bool.and_eq_true_iff.mp hc).1).symm
    · rw [List.mem_singleton.mp ho]
  · rw [hhistory, hwindow]
    exact h.isWindow.observe hunbegun
  · intro before held after he hn
    rw [hhistory] at he
    rcases hlast he with ⟨rfl, rfl⟩ | ⟨middle, rfl, hmiddle⟩
    · exact .inr (lease_of_new made rfl hn)
    · rcases h.leases before held middle hmiddle hn with ⟨ended, hm, hend⟩ | hheld
      · exact .inl ⟨ended, List.mem_append_left _ hm, hend⟩
      · rcases lease_observe made hheld rfl rfl with hend | ⟨hheld, -⟩
        · exact .inl ⟨made, by simp, hend⟩
        · exact .inr hheld
  · intro before held middle later after he hn hl hkey
    rw [hhistory, List.append_assoc, List.cons_append] at he
    rcases hlast he with ⟨-, hnil⟩ | ⟨rest, hrest, hmiddle⟩
    · simp at hnil
    · rcases List.eq_nil_or_concat after with rfl | ⟨front, last, rfl⟩
      · obtain ⟨rfl, hs⟩ := List.append_inj' hrest rfl
        obtain rfl := (List.cons.inj hs).1
        rcases h.leases before held middle hmiddle hn with ⟨ended, hm, hend⟩ | hheld
        · exact ⟨ended, List.mem_append_left _ hm, hend⟩
        · rcases lease_observe made hheld rfl rfl with hend | ⟨-, hold⟩
          · exact ⟨made, by simp, hend⟩
          · rw [hold hkey.symm] at hl
            cases hl
      · rw [List.concat_eq_append, ← List.cons_append, ← List.append_assoc] at hrest
        obtain ⟨rfl, -⟩ := List.append_inj' hrest rfl
        refine h.counted before held middle later front ?_ hn hl hkey
        rw [hmiddle, List.append_assoc, List.cons_append]

theorem PaperRun.good_run (observations : List (PaperObservation F δ)) :
    (run PaperRun.observe .start observations).Good :=
  run_keeps PaperRun.observe (fun _ seen h => h.observe seen) observations good_start

/-- The counters are those of the window, an intent is counted again only after its lease or its
window has ended, and who is qualified has met the policy within the window and not too long ago. -/
theorem paper_evidence_of_window (observations : List (PaperObservation F δ)) :
    let w := run PaperRun.observe .start observations
    w.state.validatedIntents = newIntents w.window ∧ IsWindow w.history w.window ∧
      LeasesHold w.history ∧
      ∀ revision now policy, w.state.isQualified revision now policy = true →
        (∀ seen ∈ w.window, seen.revision = revision) ∧
        policy.minValidatedIntents ≤ w.window.countP MadeObservation.isNew ∧
        advanced w.window policy.minEvaluations = true ∧
        ∃ since, metAt w.window = some since ∧ now - since ≤ Scalar.max policy.validitySeconds 1.0 := by
  intro w
  have h : w.Good := PaperRun.good_run observations
  refine ⟨h.accounts.validated, h.isWindow, h.counted, fun revision now policy hq => ?_⟩
  have hrevision := PaperQualificationState.isQualified_buildRevision hq
  unfold PaperQualificationState.isQualified PaperQualificationState.meetsCounts at hq
  simp only [Bool.and_eq_true, decide_eq_true_eq] at hq
  obtain ⟨⟨-, hevaluations, hintents⟩, hvalid⟩ := hq
  have hbegun : w.window ≠ [] := by
    intro hn
    rw [h.unbegun hn] at hrevision
    cases hrevision
  refine ⟨fun seen hs => ?_, ?_, ?_, ?_⟩
  · exact Option.some.inj ((h.revision seen hs).symm.trans hrevision)
  · rw [h.accounts.validated] at hintents
    exact hintents.trans (min_le_left _ _)
  · rcases (h.accounts.observed _).mp hevaluations with hzero | hadvanced
    · rw [hzero]
      exact advanced_zero hbegun
    · exact hadvanced
  · rw [← h.accounts.qualified]
    obtain ⟨since, hsince, hle⟩ := (Option.any_eq_true _ _).mp hvalid
    exact ⟨since, hsince, of_decide_eq_true hle⟩

end Runs

section Sample

def PaperObservation.sample (revision intentKey : String) (evaluationCount : Nat) (now : ℚ) :
    PaperObservation ℚ String :=
  { revision := { buildRevision := revision, digest := "" }
    intentKey
    evaluationCount
    now
    policy :=
      { minEvaluations := 3
        minValidatedIntents := 2
        validitySeconds := 100
        intentLeaseSeconds := 10 } }

theorem paper_evidence_of_two :
    let w := run PaperRun.observe .start
      [.sample "a" "buy:x" 2 10, .sample "a" "buy:x" 5 11, .sample "a" "sell:y" 5 12]
    2 ≤ w.window.countP MadeObservation.isNew ∧ advanced w.window 3 = true := by
  intro w
  obtain ⟨-, -, -, hqualified⟩ := paper_evidence_of_window
    [.sample "a" "buy:x" 2 10, .sample "a" "buy:x" 5 11, .sample "a" "sell:y" 5 12]
  obtain ⟨-, hintents, hadvanced, -⟩ := hqualified { buildRevision := "a", digest := "" } 12
    (PaperObservation.sample "a" "" 0 0).policy (by decide +kernel)
  exact ⟨hintents, hadvanced⟩

/-- Another revision counts the same intent while its lease is running. -/
theorem intent_counted_within_lease :
    let w := run PaperRun.observe .start [PaperObservation.sample "a" "buy:x" 2 10, .sample "b" "buy:x" 2 11]
    ∃ first second, w.history = [first, second] ∧ first.isNew = true ∧ second.isNew = true ∧
      first.intentKey = second.intentKey ∧ second.now < first.leaseEnd :=
  ⟨_, _, rfl, by decide +kernel⟩

end Sample

end Gail.Trading
