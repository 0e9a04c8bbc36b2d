import Gail.Orchestration.WaveLoop
import Mathlib.Data.List.Dedup
import Mathlib.Data.List.Perm.Subperm

/-! Every run of the waves: what is left shrinks with each of them. -/
namespace Gail.Orchestration
open Gail.Library Gail.Trading

theorem dedupeCandidates_distinct {F : Type} (candidates : List (ProviderCandidate F)) :
    Distinct (dedupeCandidates candidates) := by
  have hkept : ∀ (seen : List String) (deduped : List (ProviderCandidate F)), Distinct deduped →
      (∀ candidate ∈ deduped, candidate.attemptKey ∈ seen) →
      Distinct (candidates.foldl (fun kept candidate =>
        if kept.1.contains candidate.attemptKey then kept
        else (candidate.attemptKey :: kept.1, kept.2 ++ [candidate])) (seen, deduped)).2 := by
    induction candidates with
    | nil => exact fun _ _ h _ => h
    | cons candidate rest ih =>
      intro seen deduped h hseen
      rw [List.foldl_cons]
      dsimp only
      split
      · exact ih seen deduped h hseen
      · next hfresh =>
        apply ih
        · rw [Distinct, List.map_append]
          refine List.nodup_append.mpr ⟨h, by simp, ?_⟩
          rintro _ hl _ hr rfl
          obtain ⟨other, ho, he⟩ := List.mem_map.mp hl
          rw [List.map_singleton, List.mem_singleton] at hr
          rw [hr] at he
          exact hfresh (by simpa using he ▸ hseen other ho)
        · intro other ho
          rcases List.mem_append.mp ho with ho | ho
          · exact List.mem_cons_of_mem _ (hseen other ho)
          · rw [List.mem_singleton.mp ho]
            exact List.mem_cons_self
  exact hkept [] [] List.nodup_nil (List.forall_mem_nil _)

theorem transientBackoffProbeTarget_pos (waveSize candidateCount configured : Nat) :
    0 < transientBackoffProbeTarget waveSize candidateCount configured := by
  unfold transientBackoffProbeTarget
  omega

namespace WaveRequest
variable {F : Type} {request : WaveRequest F} {state : WaveState F} {cursor : Nat}
  {selected : List (ProviderCandidate F)} {probeTarget : Option Nat}

theorem ranked_distinct : Distinct (request.ranked.map (·.candidate)) := by
  obtain ⟨kept, hperm, hsub⟩ := request.admitted
  have hkept : Distinct kept := (dedupeCandidates_distinct request.built).sublist (hsub.map _)
  exact (hperm.map ProviderCandidate.attemptKey).nodup_iff.mp hkept

theorem distinct_of_sublist {items : List (RankedCandidate F)} (h : items.Sublist request.ranked) :
    Distinct (items.map (·.candidate)) :=
  request.ranked_distinct.sublist ((h.map _).map _)

theorem unattempted_sublist : (request.unattempted state).Sublist request.ranked := List.filter_sublist

/-- What is left has a fresh attempt key and a provider type that no result has throttled. -/
theorem mem_unattempted {item : RankedCandidate F} : item ∈ request.unattempted state ↔
    item ∈ request.ranked ∧ item.candidate.attemptKey ∉ state.attemptedKeys ∧
      item.candidate.providerType ∉ state.throttledProviderTypes := by
  simp [unattempted]

/-- What a dispatched wave is. -/
structure Fits (request : WaveRequest F) (wave : Wave F) : Prop where
  ne_nil : wave.selected ≠ []
  length_le : wave.selected.length ≤ wave.probeTarget.getD (max 1 request.maxCandidates)
  probe : ∀ target ∈ wave.probeTarget, ∃ count, target =
    transientBackoffProbeTarget request.waveSize count request.transientBackoffProbeCandidates

/-- The attempts of some waves, in order. -/
def attempts (waves : List (Wave F)) : List String :=
  waves.flatMap fun wave => wave.selected.map ProviderCandidate.attemptKey

/-- What holds of the waves of a run. -/
structure Shrinks (request : WaveRequest F) (waves : List (Wave F)) : Prop where
  fits : ∀ wave ∈ waves, request.Fits wave
  nodup : (attempts waves).Nodup
  subset : attempts waves ⊆ request.ranked.map (·.candidate.attemptKey)

theorem Shrinks.snoc {waves : List (Wave F)} {wave : Wave F} (h : Shrinks request waves)
    (hstate : state.attemptedKeys = attempts waves) (hfits : request.Fits wave)
    (hsub : wave.selected ⊆ (request.unattempted state).map (·.candidate))
    (hnodup : (wave.selected.map ProviderCandidate.attemptKey).Nodup) :
    Shrinks request (waves ++ [wave]) := by
  have hattempts : attempts (waves ++ [wave]) =
      attempts waves ++ wave.selected.map ProviderCandidate.attemptKey := by
    simp [attempts]
  have hleft : ∀ key ∈ wave.selected.map ProviderCandidate.attemptKey,
      key ∈ request.ranked.map (·.candidate.attemptKey) ∧ key ∉ attempts waves := by
    intro key hk
    obtain ⟨candidate, hc, rfl⟩ := List.mem_map.mp hk
    obtain ⟨item, hi, rfl⟩ := List.mem_map.mp (hsub hc)
    obtain ⟨hranked, hfresh, -⟩ := mem_unattempted.mp hi
    exact ⟨List.mem_map_of_mem hranked, hstate ▸ hfresh⟩
  constructor
  · intro other ho
    rcases List.mem_append.mp ho with ho | ho
    · exact h.fits other ho
    · rw [List.mem_singleton.mp ho]
      exact hfits
  · rw [hattempts]
    refine List.nodup_append.mpr ⟨h.nodup, hnodup, ?_⟩
    rintro key hl _ hr rfl
    exact (hleft key hr).2 hl
  · rw [hattempts]
    exact List.append_subset.mpr ⟨h.subset, fun key hk => (hleft key hk).1⟩

/-- Every wave takes an attempt off a list of distinct ones. -/
theorem Shrinks.length_le {waves : List (Wave F)} (h : Shrinks request waves) :
    waves.length ≤ (request.ranked.map (·.candidate.attemptKey)).dedup.length := by
  have hone : ∀ waves : List (Wave F), (∀ wave ∈ waves, request.Fits wave) →
      waves.length ≤ (attempts waves).length := by
    intro waves hfits
    induction waves with
    | nil => exact Nat.zero_le _
    | cons wave waves ih =>
      have hwave := List.length_pos_of_ne_nil (hfits wave List.mem_cons_self).ne_nil
      have hrest := ih fun other ho => hfits other (List.mem_cons_of_mem _ ho)
      simp only [attempts, List.flatMap_cons, List.length_append, List.length_map, List.length_cons]
        at hrest ⊢
      omega
  have hsub : attempts waves ⊆ (request.ranked.map (·.candidate.attemptKey)).dedup :=
    fun key hk => List.mem_dedup.mpr (h.subset hk)
  exact (hone waves h.fits).trans (List.Nodup.subperm h.nodup hsub).length_le

variable [RoundScalar F]

theorem remaining_sublist (request : WaveRequest F) (state : WaveState F) :
    (request.remaining state).Sublist (request.unattempted state) := by
  refine List.filter_sublist.trans ?_
  unfold selectionPool
  split
  · exact .refl _
  · exact List.filter_sublist

/-- What a wave picks is left, and fits into the wave. -/
theorem select_chosen (request : WaveRequest F) (state : WaveState F) (cursor : Nat) :
    Chosen ((request.remaining state).map (·.candidate)) request.waveSize
    (request.select state cursor) := by
  have hdistinct := distinct_of_sublist ((remaining_sublist request state).trans unattempted_sublist)
  have hpositive : 1 ≤ request.waveSize := le_max_right _ _
  unfold select
  split
  · exact (selectRankedCandidates_chosen _ hdistinct).mono (List.Subset.refl _) (by omega) id
  split
  · exact (selectRoundRobinCandidates_chosen _ _ _ _ hdistinct).mono (List.Subset.refl _) (by omega) id
  · exact (selectAdaptiveCandidates_chosen _ hdistinct).mono (List.Subset.refl _) (by omega) id

theorem forcedSelected_chosen (h : request.forcedSelected state = some selected) :
    Chosen ((request.unattempted state).map (·.candidate)) (request.probeTarget state) selected := by
  unfold forcedSelected at h
  split at h
  · next hforced =>
    cases h
    simp only [Bool.and_eq_true, Bool.not_eq_true', List.isEmpty_eq_false_iff] at hforced
    have hsub : (request.transientBackoff state).Sublist (request.unattempted state) :=
      List.filter_sublist
    have htarget := transientBackoffProbeTarget_pos request.waveSize
      (request.transientBackoff state).length request.transientBackoffProbeCandidates
    refine (selectRankedCandidates_chosen _ (distinct_of_sublist (hsub.trans unattempted_sublist))).mono
      (hsub.map _).subset (max_le le_rfl htarget) ?_
    intro _
    simpa using hforced.2
  · cases h

/-- A wave is dispatched with attempts that are left, each of them once. -/
theorem pass_dispatch (h : request.pass state cursor = .dispatch probeTarget selected) :
    request.Fits { probeTarget, selected } ∧
      selected ⊆ (request.unattempted state).map (·.candidate) ∧
      (selected.map ProviderCandidate.attemptKey).Nodup := by
  have hdispatch : ∀ {target : Option Nat} {chosen : List (ProviderCandidate F)},
      dispatch state target chosen = .dispatch probeTarget selected →
      target = probeTarget ∧ chosen = selected ∧ chosen ≠ [] := by
    intro target chosen hd
    unfold dispatch at hd
    split at hd
    · split at hd <;> cases hd
    · next hne =>
      cases hd
      exact ⟨rfl, rfl, by simpa using hne⟩
  unfold pass at h
  dsimp only at h
  split at h
  · cases h
  split at h
  · next chosen hforced =>
    obtain ⟨rfl, rfl, hne⟩ := hdispatch h
    have hchosen := forcedSelected_chosen hforced
    refine ⟨⟨hne, hchosen.length_le, ?_⟩, hchosen.subset, hchosen.nodup⟩
    intro target ht
    cases ht
    exact ⟨_, rfl⟩
  · obtain ⟨rfl, rfl, hne⟩ := hdispatch h
    have hchosen := select_chosen request state cursor
    refine ⟨⟨hne, ?_, fun _ ht => nomatch ht⟩, ?_, hchosen.nodup⟩
    · rw [Option.getD_none, max_comm]
      exact hchosen.length_le
    · exact List.Subset.trans hchosen.subset ((remaining_sublist request state).map _).subset

theorem next_running (request : WaveRequest F) (state : WaveState F) (event : WaveEvent F) :
    (∃ ending, dispatched request (.running state) event = none ∧
      request.next (.running state) event = .ended state ending) ∨
    ∃ wave, request.dispatched (.running state) event = some wave ∧ request.Fits wave ∧
      wave.selected ⊆ (request.unattempted state).map (·.candidate) ∧
      (wave.selected.map ProviderCandidate.attemptKey).Nodup ∧
      (request.next (.running state) event = .ended (absorb state wave.selected event.results) .success ∨
        request.next (.running state) event = .running (absorb state wave.selected event.results)) := by
  dsimp only [next, dispatched]
  cases hp : request.pass state event.cursor with
  | stop ending => exact .inl ⟨ending, rfl, rfl⟩
  | dispatch probeTarget selected =>
    obtain ⟨hfits, hsub, hnodup⟩ := pass_dispatch hp
    refine .inr ⟨⟨probeTarget, selected⟩, rfl, hfits, hsub, hnodup, ?_⟩
    dsimp only
    split
    · exact .inl rfl
    · exact .inr rfl

/-- The waves of a run up to a state. -/
def waves (request : WaveRequest F) (events : List (WaveEvent F)) : List (Wave F) :=
  trace request.next request.dispatched start events

/-- What a running loop knows of its run. -/
structure Follows (request : WaveRequest F) (events : List (WaveEvent F)) (state : WaveState F) :
    Prop where
  attempted : state.attemptedKeys = attempts (request.waves events)
  results : state.results = events.flatMap (·.results)
  throttled : state.throttledProviderTypes =
    (state.results.filter InvocationResult.throttles).map (·.candidate.providerType)
  each : (request.waves events).length = events.length

theorem run_follows (request : WaveRequest F) (events : List (WaveEvent F)) :
    Shrinks request (request.waves events) ∧
    ∀ state, run request.next start events = .running state → Follows request events state := by
  induction events using List.reverseRecOn with
  | nil =>
    refine ⟨⟨List.forall_mem_nil _, List.nodup_nil, List.nil_subset _⟩, ?_⟩
    rintro state he
    cases he
    exact ⟨rfl, rfl, rfl, rfl⟩
  | append_singleton events event ih =>
    obtain ⟨hshrinks, hfollows⟩ := ih
    have hwaves : request.waves (events ++ [event]) = request.waves events ++
        (request.dispatched (run request.next start events) event).toList := by
      simp only [waves, trace_append, trace, List.append_nil]
    have hrun : run request.next start (events ++ [event]) =
        request.next (run request.next start events) event := run_append request.next _ _ _
    rw [hrun, hwaves]
    cases hs : run request.next start events with
    | ended state ending =>
      simp only [dispatched, Option.toList_none, List.append_nil]
      exact ⟨hshrinks, by rintro _ ⟨⟩⟩
    | running state =>
      have hf := hfollows state hs
      rcases next_running request state event with
        ⟨ending, hnone, hended⟩ | ⟨wave, hwave, hfits, hsub, hnodup, hnext⟩
      · rw [hnone, hended]
        simp only [Option.toList_none, List.append_nil]
        exact ⟨hshrinks, by rintro _ ⟨⟩⟩
      · rw [hwave, Option.toList_some]
        refine ⟨hshrinks.snoc hf.attempted hfits hsub hnodup, ?_⟩
        intro after he
        rcases hnext with hnext | hnext <;> rw [hnext] at he <;> cases he
        rw [hs, hwave, Option.toList_some] at hwaves
        constructor
        · rw [hwaves]
          simp [absorb, attempts, hf.attempted]
        · simp [absorb, hf.results]
        · simp [absorb, hf.throttled]
        · simp [hwaves, hf.each]

/-- For every ranking and whatever comes of the waves: there are at most as many of them as attempts,
each one dispatches between one candidate and its limit, no attempt is made twice, no provider type is
asked again after a result has throttled it, and the loop ends. -/
theorem waves_bounded (request : WaveRequest F) (events : List (WaveEvent F)) :
    (request.waves events).length ≤ (request.ranked.map (·.candidate.attemptKey)).dedup.length ∧
    (∀ wave ∈ request.waves events, wave.selected ≠ [] ∧
      wave.selected.length ≤ wave.probeTarget.getD (max 1 request.maxCandidates) ∧
      ∀ target ∈ wave.probeTarget, ∃ count, target =
        transientBackoffProbeTarget request.waveSize count request.transientBackoffProbeCandidates) ∧
    (attempts (request.waves events)).Nodup ∧
    (∀ before event after wave, events = before ++ event :: after →
      request.dispatched (run request.next start before) event = some wave →
      ∀ earlier ∈ before, ∀ result ∈ earlier.results, result.throttles = true →
        ∀ candidate ∈ wave.selected, candidate.providerType ≠ result.candidate.providerType) ∧
    ((request.ranked.map (·.candidate.attemptKey)).dedup.length < events.length →
      ∃ state ending, run request.next start events = .ended state ending) := by
  obtain ⟨hshrinks, hfollows⟩ := run_follows request events
  refine ⟨hshrinks.length_le, fun wave hw => ?_, hshrinks.nodup, ?_, ?_⟩
  · have hfits := hshrinks.fits wave hw
    exact ⟨hfits.ne_nil, hfits.length_le, hfits.probe⟩
  · intro before event after wave _ hwave earlier he result hr ht candidate hc heq
    cases hs : run request.next start before with
    | ended state ending =>
      rw [hs] at hwave
      cases hwave
    | running state =>
      have hf := (run_follows request before).2 state hs
      rw [hs] at hwave
      rcases next_running request state event with
        ⟨ending, hnone, -⟩ | ⟨other, hother, -, hsub, -, -⟩
      · rw [hnone] at hwave
        cases hwave
      · cases hother.symm.trans hwave
        obtain ⟨item, hi, rfl⟩ := List.mem_map.mp (hsub hc)
        apply (mem_unattempted.mp hi).2.2
        rw [hf.throttled, heq]
        apply List.mem_map_of_mem
        refine List.mem_filter.mpr ⟨?_, ht⟩
        rw [hf.results]
        exact List.mem_flatMap.mpr ⟨earlier, he, hr⟩
  · intro hlong
    cases hs : run request.next start events with
    | ended state ending => exact ⟨state, ending, rfl⟩
    | running state =>
      have hlength := hshrinks.length_le
      have heach := (hfollows state hs).each
      omega

end WaveRequest

end Gail.Orchestration
