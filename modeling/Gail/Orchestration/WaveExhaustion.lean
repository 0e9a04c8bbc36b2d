import Gail.Orchestration.WaveRuns

/-! When the waves end without an answer, and what may be left untried then. -/
namespace Gail.Orchestration
open Gail.Library Gail.Trading

namespace WaveRequest
variable {F : Type} [RoundScalar F] (request : WaveRequest F)

/-- The response of a result that the evaluation after the loop keeps. -/
def keeps (result : InvocationResult F) : Prop :=
  result.hasResponse = true ∧ ¬ result.quality < request.earlySuccessMinQuality

def Unanswered (state : WaveState F) : Prop := ∀ result ∈ state.results, ¬ request.keeps result

/-- The completion gives up: it degrades, fails, or has nothing to evaluate. -/
def gaveUp (state : WaveState F) : Ending → Prop
  | .success => False
  | .exhausted => request.Unanswered state
  | .degraded | .unavailable _ | .badRequest _ => True

/-- The candidates that are neither tried nor throttled nor in backoff. -/
def eligible (state : WaveState F) : List (RankedCandidate F) :=
  (request.unattempted state).filter fun item => !rankedCandidateIsInProviderBackoff item

/-- Nothing eligible is left when the loop has given up. -/
def Exhausts : LoopState F → Prop
  | .running _ => True
  | .ended state ending => request.gaveUp state ending → request.eligible state = []

/-- A probe of the candidates in transient backoff is due. -/
def ProbeDue (state : WaveState F) : Prop :=
  state.results = [] ∧ request.probesTransientBackoff = true ∧ request.transientBackoff state ≠ []

/-- What is left within the budget is in backoff, while a candidate over the budget is not. -/
structure Stranded (state : WaveState F) : Prop where
  budgeted : request.budgetedUnattempted state ≠ []
  backoff : ∀ item ∈ request.budgetedUnattempted state, rankedCandidateIsInProviderBackoff item = true
  left : request.eligible state ≠ []
  unanswered : request.Unanswered state
  noProbe : ¬ request.ProbeDue state

/-- No turn of the loop begins in a stranded state. -/
def Serves : LoopState F → WaveEvent F → Prop
  | .running state, _ => ¬ request.Stranded state
  | .ended _ _, _ => True

variable {request : WaveRequest F} {state : WaveState F} {cursor : Nat} {ending : Ending}

theorem eligible_of_allOverBudget (h : request.allCandidatesOverBudget state = true) :
    request.remaining state = request.eligible state := by
  simp only [remaining, eligible, selectionPool, h, if_true]

theorem not_allOverBudget (h : request.budgetedUnattempted state ≠ []) :
    request.allCandidatesOverBudget state = false := by
  have hne : (request.budgetedUnattempted state).isEmpty = false := by simpa using h
  simp [allCandidatesOverBudget, hne]

/-- Nothing remains when nothing is eligible, or when the budget hides what is. -/
theorem remaining_eq_nil_iff : request.remaining state = [] ↔ request.eligible state = [] ∨
    (request.budgetedUnattempted state ≠ [] ∧
      ∀ item ∈ request.budgetedUnattempted state, rankedCandidateIsInProviderBackoff item = true) := by
  have hpool : request.allCandidatesOverBudget state = false →
      (request.remaining state = [] ↔
        ∀ item ∈ request.budgetedUnattempted state, rankedCandidateIsInProviderBackoff item = true) := by
    intro ha
    simp [remaining, selectionPool, ha, List.filter_eq_nil_iff]
  have hall : request.eligible state = [] →
      ∀ item ∈ request.budgetedUnattempted state, rankedCandidateIsInProviderBackoff item = true := by
    intro he item hi
    simpa using List.filter_eq_nil_iff.mp he item (List.mem_of_mem_filter hi)
  cases ha : request.allCandidatesOverBudget state with
  | true =>
    have hb : request.budgetedUnattempted state = [] := by
      by_contra hb
      rw [not_allOverBudget hb] at ha
      cases ha
    rw [eligible_of_allOverBudget ha]
    exact ⟨.inl, fun h => h.elim id fun h => absurd hb h.1⟩
  | false =>
    rw [hpool ha]
    refine ⟨fun h => ?_, fun h => h.elim hall fun h => h.2⟩
    by_cases hb : request.budgetedUnattempted state = []
    · left
      -- Without a budgeted candidate there is no cap or nothing is left.
      have hempty : request.unattempted state = [] := by
        cases hc : request.timeoutCap with
        | none =>
          have hwithin : request.budgetedUnattempted state = request.unattempted state := by
            simp [budgetedUnattempted, withinBudget, hc]
          rw [← hwithin]
          exact hb
        | some seconds => simpa [allCandidatesOverBudget, hc, hb] using ha
      simp [eligible, hempty]
    · exact .inr ⟨hb, h⟩

theorem forcedSelected_isSome (h : request.remaining state = []) (hp : request.ProbeDue state) :
    ∃ selected, request.forcedSelected state = some selected ∧ selected ≠ [] := by
  obtain ⟨hresults, hprobes, htransient⟩ := hp
  have hleft : request.unattempted state ≠ [] := by
    intro he
    exact htransient (by simp [transientBackoff, he])
  have hsome : ∃ selected, request.forcedSelected state = some selected := by
    refine ⟨_, if_pos ?_⟩
    simp [allInBackoff, h, hresults, hprobes, htransient, hleft]
  obtain ⟨selected, hs⟩ := hsome
  exact ⟨selected, hs, (forcedSelected_chosen hs).ne_nil (by simpa using hleft)⟩

theorem forcedSelected_eq_none (h : request.remaining state ≠ [] ∨ ¬ request.ProbeDue state) :
    request.forcedSelected state = none := by
  apply if_neg
  intro hforced
  simp only [allInBackoff, Bool.and_eq_true, Bool.not_eq_true', List.isEmpty_iff,
    List.isEmpty_eq_false_iff] at hforced
  rcases h with h | h
  · exact h hforced.1.1.1.1
  · exact h ⟨hforced.1.1.2, hforced.1.2, hforced.2⟩

/-- The loop stops just when nothing remains and no probe is due. -/
theorem pass_stop_iff : (∃ ending, request.pass state cursor = .stop ending) ↔
    request.remaining state = [] ∧ ¬ request.ProbeDue state := by
  have hdispatch : ∀ {target : Option Nat} {selected : List (ProviderCandidate F)}, selected ≠ [] →
      dispatch state target selected = .dispatch target selected := by
    intro target selected hne
    exact if_neg (by simpa using hne)
  constructor
  · rintro ⟨ending, hstop⟩
    by_contra hnot
    by_cases hr : request.remaining state = []
    · obtain ⟨selected, hs, hne⟩ := forcedSelected_isSome hr (by tauto)
      have hnone : (selected.isEmpty) = false := by simpa using hne
      simp only [pass, hs, Option.all_some, hnone, Bool.and_false, hdispatch hne] at hstop
      cases hstop
    · have hnone : request.forcedSelected state = none := forcedSelected_eq_none (.inl hr)
      have hne := (select_chosen request state cursor).ne_nil (by simpa using hr)
      have hback : request.allInBackoff state = false := by simp [allInBackoff, hr]
      simp only [pass, hnone, hback, Bool.false_and, hdispatch hne] at hstop
      cases hstop
  · rintro ⟨hr, hp⟩
    have hnone : request.forcedSelected state = none := forcedSelected_eq_none (.inr hp)
    have hsel : request.select state cursor = [] := by
      have hsub := (select_chosen request state cursor).subset
      rw [hr] at hsub
      exact List.subset_nil.mp hsub
    unfold pass
    dsimp only
    split
    · exact ⟨_, rfl⟩
    · rw [hnone]
      simp only [hsel, dispatch, List.isEmpty_nil, if_true]
      split <;> exact ⟨_, rfl⟩

/-- The loop that stops has given up unless it has a response to keep. -/
theorem gaveUp_iff (h : request.pass state cursor = .stop ending) :
    request.gaveUp state ending ↔ request.Unanswered state := by
  have hnone : state.results = [] → request.Unanswered state := by
    intro he result hr
    rw [he] at hr
    cases hr
  have hdispatch : ∀ {target : Option Nat} {selected : List (ProviderCandidate F)},
      dispatch state target selected = .stop ending →
      (request.gaveUp state ending ↔ request.Unanswered state) := by
    intro target selected hd
    unfold dispatch at hd
    split at hd
    · split at hd
      · next hempty =>
        cases hd
        exact ⟨fun _ => hnone (by simpa using hempty), fun _ => trivial⟩
      · cases hd
        rfl
    · cases hd
  unfold pass at h
  dsimp only at h
  split at h
  · next hempty =>
    simp only [Bool.and_eq_true, List.isEmpty_iff] at hempty
    cases h
    refine ⟨fun _ => hnone hempty.1.2, fun _ => ?_⟩
    split <;> trivial
  split at h
  · exact hdispatch h
  · exact hdispatch h

theorem Exhausts.next {loop : LoopState F} (h : request.Exhausts loop) {event : WaveEvent F}
    (hs : request.Serves loop event) : request.Exhausts (request.next loop event) := by
  cases loop with
  | ended state ending => exact h
  | running state =>
    dsimp only [WaveRequest.next]
    cases hp : request.pass state event.cursor with
    | stop ending =>
      intro hgave
      have hun := (gaveUp_iff hp).mp hgave
      obtain ⟨hr, hprobe⟩ := pass_stop_iff.mp ⟨ending, hp⟩
      by_contra hleft
      rcases remaining_eq_nil_iff.mp hr with he | ⟨hb, hall⟩
      · exact hleft he
      · exact hs ⟨hb, hall, hleft, hun, hprobe⟩
    | dispatch probeTarget selected =>
      dsimp only
      split
      · exact fun hgave => hgave.elim
      · trivial

/-- A stranded state is given up with a candidate untried. -/
theorem not_exhausts_of_stranded (h : request.Stranded state) (event : WaveEvent F) :
    ¬ request.Exhausts (request.next (.running state) event) := by
  have hr := remaining_eq_nil_iff.mpr (.inr ⟨h.budgeted, h.backoff⟩)
  obtain ⟨ending, hp⟩ : ∃ ending, request.pass state event.cursor = .stop ending :=
    pass_stop_iff.mpr ⟨hr, h.noProbe⟩
  dsimp only [WaveRequest.next]
  rw [hp]
  intro hex
  exact h.left (hex ((gaveUp_iff hp).mpr h.unanswered))

/-- The loop gives up with nothing eligible left in every state of a run exactly when no turn of the
run begins stranded. -/
theorem exhausts_iff_serves (request : WaveRequest F) (events : List (WaveEvent F)) :
    (∀ before, before <+: events → request.Exhausts (run request.next start before)) ↔
      Along request.next request.Serves start events := by
  have hstart : request.Exhausts start := trivial
  refine (along_iff_prefixes request.next (I := request.Exhausts) (fun _ _ h hs => h.next hs)
    (fun _ h => h) ?_ hstart).symm
  intro loop event _ hs
  cases loop with
  | ended state ending => exact absurd trivial hs
  | running state => exact not_exhausts_of_stranded (not_not.mp hs) event

section Sample

/-- A hosted model in backoff that is expected within the budget. -/
def quick : RankedCandidate ℚ :=
  { candidate :=
      { name := "", baseUrl := none, baseUrlScope := none, source := "config", providerType := "openai"
        configuredModel := "gpt", specialties := [], hostGroup := none, maxConcurrentRequests := none
        resourceCostCpu := 0, resourceCostRamMb := 0, resourceCostVramMb := 0, hostCpuBudget := none
        hostRamBudgetMb := none, hostVramBudgetMb := none }
    score := 1, healthOk := false, healthMode := some "timeout", generationTokensPerSecond := none }

/-- A healthy one that is expected to take a minute. -/
def slow : RankedCandidate ℚ :=
  { quick with
    candidate := { quick.candidate with providerType := "anthropic" }
    healthOk := true
    healthMode := none }

def estimate (eta : ℚ) : CandidateDispatchEstimate ℚ :=
  { samples := 1, serviceTimeMs := eta, estimatedUsefulCompletionMs := eta }

theorem dedupeCandidates_quick_slow :
    dedupeCandidates [quick.candidate, slow.candidate] = [quick.candidate, slow.candidate] := by
  decide +kernel

/-- An interactive request with 45 seconds for each candidate. -/
def interactive : WaveRequest ℚ :=
  { built := [quick.candidate, slow.candidate]
    ranked := [quick, slow]
    admitted := by rw [dedupeCandidates_quick_slow]; exact List.Subperm.refl _
    dispatchEstimates := (∅ : DispatchEstimates ℚ).insert quick.candidate.candidateId (estimate 5000)
      |>.insert slow.candidate.candidateId (estimate 60000)
    timeoutCap := some 45
    maxCandidates := 2
    selectionMode := .best
    deduplicateModelCandidates := true
    settings := { raceWindowMs := 750, maxRacedCandidates := 2 }
    transientBackoffProbeCandidates := 2
    workflow := "general"
    role := "general"
    earlySuccessMinQuality := 0
    probesTransientBackoff := false
    returnsDegradedFallback := false }

/-- The request fails as if every provider was in backoff, and the slow one is never tried. -/
theorem interactive_gives_up_early :
    ¬ interactive.Exhausts (run interactive.next start [{ cursor := 0, results := [] }]) := by
  have hrun : run interactive.next start [{ cursor := 0, results := [] }] =
      .ended { attemptedKeys := [], throttledProviderTypes := [], results := [] }
        (.unavailable backoffMessage) := rfl
  have hleft : interactive.eligible { attemptedKeys := [], throttledProviderTypes := [], results := [] } ≠
      [] := by
    apply List.ne_nil_of_length_pos
    decide +kernel
  rw [hrun]
  exact fun hex => hleft (hex trivial)

end Sample

end WaveRequest

end Gail.Orchestration
