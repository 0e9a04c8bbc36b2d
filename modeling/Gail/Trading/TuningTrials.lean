import Gail.Trading.BacktestTuning

/-! When a trial of stricter settings comes to an end: it waits for two further backtests with a result, and
looks for them in a history that keeps no more than twenty. -/
namespace Gail.Trading
open Gail.Library

section Tail
variable {α : Type} {p : α → Bool}

/-- Dropping leaves items of one kind alone exactly when it leaves no more than the last ones of it. -/
theorem forall_drop_iff (items : List α) (k : Nat) :
    (∀ a ∈ items.drop k, p a) ↔ items.length ≤ k + (items.rtakeWhile p).length := by
  induction items using List.reverseRecOn with
  | nil => simp
  | append_singleton items a ih =>
    rw [List.length_append, List.length_singleton]
    by_cases hk : k ≤ items.length
    · rw [List.drop_append_of_le_length hk, List.forall_mem_append, ih, List.forall_mem_singleton]
      by_cases ha : p a
      · rw [List.rtakeWhile_concat_pos _ _ _ ha, List.length_append, List.length_singleton]
        exact ⟨fun h => by omega, fun h => ⟨by omega, ha⟩⟩
      · rw [List.rtakeWhile_concat_neg _ _ _ ha, List.length_nil]
        exact ⟨fun h => absurd h.2 ha, fun h => by omega⟩
    · have hnone : (items ++ [a]).drop k = [] := by
        apply List.drop_eq_nil_of_le
        rw [List.length_append, List.length_singleton]
        omega
      rw [hnone]
      refine iff_of_true (fun a ha => by cases ha) ?_
      omega

end Tail

section Definitions
variable {F : Type} [AmountScalar F]

/-- The latest backtests of a history that have no result. -/
def resultless (history : List (BacktestSummary F)) : Nat :=
  (history.rtakeWhile fun summary => summary.profit.isNone).length

namespace TuningEvent

def recorded : TuningEvent F → Option (BacktestSummary F)
  | .recordBacktest summary => some summary
  | .tuneBacktest summary _ => some summary
  | _ => none

/-- The event records a backtest with a finite profit. -/
def bringsResult (event : TuningEvent F) : Bool := event.recorded.any fun summary => summary.profit.isSome

def tunes : TuningEvent F → Bool
  | .tuneBacktest _ _ => true
  | _ => false

end TuningEvent

/-- A run, and beside it how many backtests with a result have been recorded since the trial in force
began. -/
structure TrialWatch (F : Type) where
  world : TuningWorld F
  results : Nat

namespace TrialWatch

def start (overrides : Option (TradingConfigOverride F)) : TrialWatch F := { world := .start overrides, results := 0 }

def step (config : DecisionConfig F) (t : TrialWatch F) (event : TuningEvent F) : TrialWatch F :=
  { world := t.world.step config event
    results :=
      if t.world.state.activeTrial.isSome then t.results + (if event.bringsResult then 1 else 0) else 0 }

/-- No trial is in force that has its two further results. -/
def OnTime (t : TrialWatch F) : Prop := t.world.state.activeTrial.isSome → t.results < 2

/-- When a trial has a result already, a further one comes while the history still shows it the last one: no
more than eighteen backtests were held at its start or have come without a result just before. -/
def InSight (t : TrialWatch F) (event : TuningEvent F) : Prop :=
  ∀ trial ∈ t.world.state.activeTrial, 1 ≤ t.results → event.bringsResult →
    trial.historyLenAtStart + resultless t.world.state.backtestHistory ≤ 18

/-- When a trial has a result already, a further one comes from a backtest that tunes. -/
def Evaluated (t : TrialWatch F) (event : TuningEvent F) : Prop :=
  t.world.state.activeTrial.isSome → 1 ≤ t.results → event.bringsResult → event.tunes

/-- A backtest that tunes ends a trial that has its two further results by then. -/
def EndsTrial (config : DecisionConfig F) (t : TrialWatch F) (event : TuningEvent F) : Prop :=
  t.world.state.activeTrial.isSome → 1 ≤ t.results → event.bringsResult → event.tunes →
    (t.step config event).world.state.activeTrial = none

/-- As long as the history is not full, what it holds since the start of a trial are the results that are
counted. -/
structure Counted (t : TrialWatch F) : Prop where
  short : t.world.state.backtestHistory.length ≤ 20
  held : ∀ trial ∈ t.world.state.activeTrial,
    trial.historyLenAtStart ≤ t.world.state.backtestHistory.length
  counted : ∀ trial ∈ t.world.state.activeTrial, t.world.state.backtestHistory.length < 20 →
    (collectSuccessfulBacktestProfits (t.world.state.backtestHistory.drop trial.historyLenAtStart)).length =
      t.results

end TrialWatch
end Definitions

section History
variable {F : Type} {state : TuningState F} {summary : BacktestSummary F} {trial : BacktestAutoTuneTrial F}
  {history : List (BacktestSummary F)} {k : Nat}

theorem recordBacktest_open (h : state.backtestHistory.length < 20) :
    (state.recordBacktest summary).backtestHistory = state.backtestHistory ++ [summary] := by
  unfold TuningState.recordBacktest
  rw [if_neg (not_le.mpr h)]

theorem recordBacktest_full (h : 20 ≤ state.backtestHistory.length) :
    (state.recordBacktest summary).backtestHistory = state.backtestHistory.tail ++ [summary] := by
  unfold TuningState.recordBacktest
  rw [if_pos h]

theorem recordBacktest_length (h : state.backtestHistory.length ≤ 20) :
    (state.recordBacktest summary).backtestHistory.length = min 20 (state.backtestHistory.length + 1) := by
  by_cases hfull : 20 ≤ state.backtestHistory.length
  · rw [recordBacktest_full hfull, List.length_append, List.length_tail, List.length_singleton]
    omega
  · rw [recordBacktest_open (not_le.mp hfull), List.length_append, List.length_singleton]
    omega

variable [AmountScalar F]

theorem profits_append (history later : List (BacktestSummary F)) :
    collectSuccessfulBacktestProfits (history ++ later) =
      collectSuccessfulBacktestProfits history ++ collectSuccessfulBacktestProfits later :=
  List.filterMap_append

theorem profits_singleton_length (summary : BacktestSummary F) :
    (collectSuccessfulBacktestProfits [summary]).length = if summary.profit.isSome then 1 else 0 := by
  unfold collectSuccessfulBacktestProfits
  cases h : summary.profit <;> simp [h]

/-- There is no result from a position on when only the latest backtests come after it. -/
theorem profits_drop_eq_nil_iff :
    collectSuccessfulBacktestProfits (history.drop k) = [] ↔ history.length ≤ k + resultless history := by
  unfold resultless collectSuccessfulBacktestProfits
  rw [← forall_drop_iff, List.filterMap_eq_nil_iff]
  simp only [Option.isNone_iff_eq_none]

theorem verdict_eq_none_iff :
    trial.verdict history = none ↔
      (collectSuccessfulBacktestProfits (history.drop trial.historyLenAtStart)).length < 2 := by
  unfold BacktestAutoTuneTrial.verdict
  dsimp only
  split_ifs with hfew
  · exact iff_of_true rfl hfew
  · refine iff_of_false ?_ hfew
    rw [Option.map_eq_none_iff]
    unfold calculateBacktestProfitStats
    rw [if_neg]
    · exact Option.some_ne_none _
    · rw [List.isEmpty_iff_length_eq_zero, List.length_drop]
      omega

theorem startTrial_backtestHistory (state : TuningState F) (config : DecisionConfig F) (profit now : F) :
    (state.startTrial config summary profit now).backtestHistory = state.backtestHistory := by
  unfold TuningState.startTrial
  dsimp only
  split_ifs
  · rfl
  · rfl
  · rfl
  · split
    · split_ifs <;> rfl
    · rfl

/-- A trial that begins remembers the end of the history. -/
theorem startTrial_held {config : DecisionConfig F} {profit now : F} (hnone : state.activeTrial = none)
    (h : trial ∈ (state.startTrial config summary profit now).activeTrial) :
    trial.historyLenAtStart = state.backtestHistory.length := by
  have hold : trial ∉ state.activeTrial := by
    rw [hnone]
    exact Option.not_mem_none trial
  unfold TuningState.startTrial at h
  dsimp only at h
  split_ifs at h
  · exact absurd h hold
  · exact absurd h hold
  · exact absurd h hold
  · split at h
    · split_ifs at h
      · exact absurd h hold
      · rw [← Option.some.inj h]
    · exact absurd h hold

theorem applyBacktestAutoTuning_backtestHistory (state : TuningState F) (config : DecisionConfig F)
    (summary : BacktestSummary F) (now : F) :
    (state.applyBacktestAutoTuning config summary now).backtestHistory = state.backtestHistory := by
  unfold TuningState.applyBacktestAutoTuning
  split
  · rfl
  · split
    · split
      · rfl
      · unfold TuningState.conclude
        split_ifs <;> rfl
    · exact startTrial_backtestHistory _ config _ now

/-- A trial stays until a backtest with a result leads to a verdict. -/
theorem applyBacktestAutoTuning_active (htrial : state.activeTrial = some trial) (config : DecisionConfig F)
    (summary : BacktestSummary F) (now : F) :
    (state.applyBacktestAutoTuning config summary now).activeTrial =
      if summary.profit.isSome ∧ trial.verdict state.backtestHistory ≠ none then none else some trial := by
  unfold TuningState.applyBacktestAutoTuning
  cases hprofit : summary.profit with
  | none => simpa using htrial
  | some profit =>
    rw [htrial]
    cases hverdict : trial.verdict state.backtestHistory with
    | none => simpa [hverdict] using htrial
    | some acceptable =>
      simp only [hverdict, TuningState.conclude]
      cases acceptable <;> simp

/-- Without a trial, one that is there afterwards remembers the end of the history. -/
theorem applyBacktestAutoTuning_held {config : DecisionConfig F} {now : F} (hnone : state.activeTrial = none)
    (h : trial ∈ (state.applyBacktestAutoTuning config summary now).activeTrial) :
    trial.historyLenAtStart = state.backtestHistory.length := by
  unfold TuningState.applyBacktestAutoTuning at h
  rw [hnone] at h
  cases hprofit : summary.profit with
  | none =>
    rw [hprofit, hnone] at h
    cases h
  | some profit =>
    rw [hprofit] at h
    exact startTrial_held hnone h

end History

section Runs
variable {F : Type} [AmountScalar F] {config : DecisionConfig F} {t : TrialWatch F} {event : TuningEvent F}
  {trial : BacktestAutoTuneTrial F} {summary : BacktestSummary F}

namespace TrialWatch

theorem step_backtestHistory (t : TrialWatch F) (event : TuningEvent F) :
    (t.step config event).world.state.backtestHistory =
      (event.recorded.elim t.world.state t.world.state.recordBacktest).backtestHistory := by
  cases event with
  | tuneBacktest summary now => exact applyBacktestAutoTuning_backtestHistory _ config summary now
  | _ => rfl

/-- Only a backtest that tunes changes the trial. -/
theorem step_activeTrial (h : event.tunes = false) :
    (t.step config event).world.state.activeTrial = t.world.state.activeTrial := by
  cases event with
  | tuneBacktest summary now => cases h
  | _ => rfl

/-- Recording adds its result to what is held since the start of a trial, unless the history is full. -/
theorem Counted.recorded_length (h : t.Counted) (htrial : trial ∈ t.world.state.activeTrial)
    (hopen : t.world.state.backtestHistory.length < 20) (summary : BacktestSummary F) :
    (collectSuccessfulBacktestProfits ((t.world.state.recordBacktest summary).backtestHistory.drop
      trial.historyLenAtStart)).length = t.results + if summary.profit.isSome then 1 else 0 := by
  rw [recordBacktest_open hopen, List.drop_append_of_le_length (h.held trial htrial), profits_append,
    List.length_append, profits_singleton_length, h.counted trial htrial hopen]

/-- The verdict on a trial with a result finds a further one when the last one is still in sight. -/
theorem Counted.verdict_eq_none_iff (h : t.Counted) (htrial : trial ∈ t.world.state.activeTrial)
    (hresults : 1 ≤ t.results) (hprofit : summary.profit.isSome) :
    trial.verdict (t.world.state.recordBacktest summary).backtestHistory = none ↔
      18 < trial.historyLenAtStart + resultless t.world.state.backtestHistory := by
  have hheld := h.held trial htrial
  have hshort := h.short
  rw [Trading.verdict_eq_none_iff]
  by_cases hopen : t.world.state.backtestHistory.length < 20
  · -- Nothing has been lost yet: both results are held.
    have hsome : ¬ t.world.state.backtestHistory.length ≤
        trial.historyLenAtStart + resultless t.world.state.backtestHistory := by
      rw [← profits_drop_eq_nil_iff, ← List.length_eq_zero_iff, h.counted trial htrial hopen]
      omega
    rw [h.recorded_length htrial hopen, if_pos hprofit]
    omega
  · have hlength : t.world.state.backtestHistory.length = 20 := by omega
    rw [recordBacktest_full (not_lt.mp hopen)]
    by_cases hlast : trial.historyLenAtStart = 20
    · have hnone : (t.world.state.backtestHistory.tail ++ [summary]).drop trial.historyLenAtStart = [] := by
        apply List.drop_eq_nil_of_le
        rw [List.length_append, List.length_tail, List.length_singleton]
        omega
      rw [hnone]
      refine iff_of_true Nat.two_pos ?_
      omega
    · -- The oldest has fallen out, so the trial looks from one position later on.
      have hle : trial.historyLenAtStart ≤ t.world.state.backtestHistory.tail.length := by
        rw [List.length_tail]
        omega
      have hnil : collectSuccessfulBacktestProfits (t.world.state.backtestHistory.drop
          (trial.historyLenAtStart + 1)) = [] ↔ t.world.state.backtestHistory.length ≤
            trial.historyLenAtStart + 1 + resultless t.world.state.backtestHistory := profits_drop_eq_nil_iff
      rw [List.drop_append_of_le_length hle, profits_append, List.length_append, profits_singleton_length,
        if_pos hprofit, List.drop_tail]
      rw [← List.length_eq_zero_iff, hlength] at hnil
      omega

/-- A backtest that tunes leaves a trial in force until there is a verdict on it. -/
theorem step_tuneBacktest (htrial : t.world.state.activeTrial = some trial) (config : DecisionConfig F)
    (summary : BacktestSummary F) (now : F) :
    (t.step config (.tuneBacktest summary now)).world.state.activeTrial =
      if summary.profit.isSome ∧
          trial.verdict (t.world.state.recordBacktest summary).backtestHistory ≠ none then none
      else some trial := by
  have hkept : (t.world.state.recordBacktest summary).activeTrial = some trial := htrial
  exact applyBacktestAutoTuning_active hkept config summary now

/-- A trial that is in force after a step was so before, or begins at the end of the history. -/
theorem mem_step_activeTrial (h : trial ∈ (t.step config event).world.state.activeTrial) :
    trial ∈ t.world.state.activeTrial ∨ t.world.state.activeTrial = none ∧
      trial.historyLenAtStart = (t.step config event).world.state.backtestHistory.length := by
  cases event with
  | tuneBacktest summary now =>
    rw [step_backtestHistory]
    cases hbefore : t.world.state.activeTrial with
    | none => exact .inr ⟨rfl, applyBacktestAutoTuning_held hbefore h⟩
    | some old =>
      rw [step_tuneBacktest hbefore] at h
      split_ifs at h
      · cases h
      · exact .inl h
  | _ => exact .inl h

/-- One step keeps the count. -/
theorem Counted.step (h : t.Counted) (event : TuningEvent F) : (t.step config event).Counted := by
  have hshort := h.short
  have hlength : (t.step config event).world.state.backtestHistory.length =
      event.recorded.elim t.world.state.backtestHistory.length fun _ =>
        min 20 (t.world.state.backtestHistory.length + 1) := by
    rw [step_backtestHistory]
    cases event.recorded with
    | none => rfl
    | some summary => exact recordBacktest_length hshort
  refine ⟨?_, fun trial htrial => ?_, fun trial htrial hopen => ?_⟩
  · rw [hlength]
    cases event.recorded with
    | none => exact hshort
    | some summary => exact min_le_left _ _
  · rcases mem_step_activeTrial htrial with hold | ⟨-, hnew⟩
    · have hheld := h.held trial hold
      rw [hlength]
      cases event.recorded with
      | none => exact hheld
      | some summary => exact le_min (hheld.trans hshort) (Nat.le_succ_of_le hheld)
    · exact hnew.le
  · rcases mem_step_activeTrial htrial with hold | ⟨hnone, hnew⟩
    · have hresults : (t.step config event).results = t.results + if event.bringsResult then 1 else 0 :=
        if_pos (Option.isSome_of_mem hold)
      rw [hresults, step_backtestHistory, TuningEvent.bringsResult]
      cases hrecorded : event.recorded with
      | none =>
        rw [hlength, hrecorded] at hopen
        exact h.counted trial hold hopen
      | some summary =>
        rw [hlength, hrecorded] at hopen
        have hbefore : t.world.state.backtestHistory.length < 20 := by
          simp only [Option.elim_some] at hopen
          omega
        exact h.recorded_length hold hbefore summary
    · have hresults : (t.step config event).results = 0 := by
        simp only [TrialWatch.step, hnone, Option.isSome_none, Bool.false_eq_true, if_false]
      rw [hresults, hnew, List.drop_length]
      rfl

theorem start_counted (overrides : Option (TradingConfigOverride F)) : (start overrides).Counted where
  short := Nat.zero_le 20
  held trial h := by cases h
  counted trial h := by cases h

theorem run_counted (config : DecisionConfig F) (overrides : Option (TradingConfigOverride F))
    (events : List (TuningEvent F)) : (run (TrialWatch.step config) (start overrides) events).Counted :=
  run_keeps (TrialWatch.step config) (fun _ event h => h.step event) events (start_counted overrides)

/-- A backtest that tunes ends a trial with a further result exactly when the last one is in sight. -/
theorem Counted.endsTrial_iff (config : DecisionConfig F) (h : t.Counted) (htunes : event.tunes) :
    t.EndsTrial config event ↔ t.InSight event := by
  unfold EndsTrial InSight
  cases event with
  | tuneBacktest summary now =>
    cases hbefore : t.world.state.activeTrial with
    | none => simp
    | some trial =>
      have hbrings : (TuningEvent.tuneBacktest summary now).bringsResult = summary.profit.isSome := rfl
      rw [step_tuneBacktest hbefore, hbrings]
      simp only [Option.isSome_some, Option.mem_some_iff, forall_const, forall_eq']
      refine imp_congr_right fun hresults => imp_congr_right fun hprofit => ?_
      have hverdict := h.verdict_eq_none_iff (Option.mem_def.mpr hbefore) hresults hprofit
      have hends : ((if summary.profit.isSome ∧
          trial.verdict (t.world.state.recordBacktest summary).backtestHistory ≠ none then none
          else some trial) = none) ↔
            trial.verdict (t.world.state.recordBacktest summary).backtestHistory ≠ none := by
        simp [hprofit]
      rw [hends, ne_eq, hverdict, not_lt]
      exact ⟨fun hsight => hsight rfl, fun hsight _ => hsight⟩
  | _ => cases htunes

/-- The number of results that are counted, as long as there is a trial. -/
theorem step_results (h : t.world.state.activeTrial.isSome) :
    (t.step config event).results = t.results + if event.bringsResult then 1 else 0 :=
  if_pos h

theorem OnTime.step (hcounted : t.Counted) (h : t.OnTime) (hevaluated : t.Evaluated event)
    (hsight : t.InSight event) : (t.step config event).OnTime := by
  intro hactive
  obtain ⟨trial, htrial⟩ := Option.isSome_iff_exists.mp hactive
  rcases mem_step_activeTrial (Option.mem_def.mpr htrial) with hold | ⟨hnone, -⟩
  · have hbefore := Option.isSome_of_mem hold
    have hresults := h hbefore
    rw [step_results hbefore]
    by_cases hbrings : event.bringsResult
    · have hfirst : t.results = 0 := by
        by_contra hsome
        have htunes := hevaluated hbefore (Nat.one_le_iff_ne_zero.mpr hsome) hbrings
        have hends := (hcounted.endsTrial_iff config htunes).mpr hsight
        rw [hends hbefore (Nat.one_le_iff_ne_zero.mpr hsome) hbrings htunes] at hactive
        cases hactive
      rw [hfirst, if_pos hbrings]
      exact Nat.one_lt_two
    · rw [if_neg hbrings]
      exact hresults
  · simp only [TrialWatch.step, hnone, Option.isSome_none, Bool.false_eq_true, if_false]
    exact Nat.two_pos

/-- Where the condition fails a trial is left in force with its two results. -/
theorem not_onTime_step (hcounted : t.Counted)
    (hguard : ¬ (t.Evaluated event ∧ t.InSight event)) : ¬ (t.step config event).OnTime := by
  have hdue : t.world.state.activeTrial.isSome ∧ 1 ≤ t.results ∧ event.bringsResult = true := by
    by_contra hnot
    apply hguard
    constructor
    · intro hactive hresults hbrings
      exact absurd ⟨hactive, hresults, hbrings⟩ hnot
    · intro trial htrial hresults hbrings
      exact absurd ⟨Option.isSome_of_mem htrial, hresults, hbrings⟩ hnot
  obtain ⟨hactive, hresults, hbrings⟩ := hdue
  intro hontime
  have hcount : (t.step config event).results = t.results + 1 := by
    rw [step_results hactive, if_pos hbrings]
  have hended : (t.step config event).world.state.activeTrial = none := by
    by_contra hsome
    have hlt := hontime (Option.isSome_iff_ne_none.mpr hsome)
    omega
  by_cases htunes : event.tunes = true
  · refine hguard ⟨fun _ _ _ => htunes, ?_⟩
    exact (hcounted.endsTrial_iff config htunes).mp fun _ _ _ _ => hended
  · rw [step_activeTrial (Bool.eq_false_iff.mpr htunes)] at hended
    rw [hended] at hactive
    cases hactive

/-- A trial that begins with nineteen backtests held or more finds at most one result, whatever comes. -/
theorem step_keeps_trial (event : TuningEvent F) (hcounted : t.Counted)
    (htrial : trial ∈ t.world.state.activeTrial) (hheld : 19 ≤ trial.historyLenAtStart) :
    trial ∈ (t.step config event).world.state.activeTrial := by
  cases event with
  | tuneBacktest summary now =>
    have hnone : trial.verdict (t.world.state.recordBacktest summary).backtestHistory = none := by
      have hlength : (t.world.state.recordBacktest summary).backtestHistory.length = _ :=
        recordBacktest_length hcounted.short
      have hfew := List.length_filterMap_le BacktestSummary.profit
        ((t.world.state.recordBacktest summary).backtestHistory.drop trial.historyLenAtStart)
      rw [List.length_drop, hlength] at hfew
      rw [Trading.verdict_eq_none_iff, collectSuccessfulBacktestProfits]
      omega
    rw [step_tuneBacktest htrial, hnone]
    simp
  | _ => exact htrial

theorem run_keeps_trial (config : DecisionConfig F) (events : List (TuningEvent F)) (hcounted : t.Counted)
    (htrial : trial ∈ t.world.state.activeTrial) (hheld : 19 ≤ trial.historyLenAtStart) :
    trial ∈ (run (TrialWatch.step config) t events).world.state.activeTrial :=
  (run_keeps (TrialWatch.step config)
    (I := fun (t : TrialWatch F) => t.Counted ∧ trial ∈ t.world.state.activeTrial)
    (fun _ event h => ⟨h.1.step event, step_keeps_trial event h.1 h.2 hheld⟩) events ⟨hcounted, htrial⟩).2

end TrialWatch

open TrialWatch

/-- With results from other backtests counted too, the backtests that tune end the trials that are due in
exactly the runs in which each finds the last result in sight. -/
theorem tuning_ends_iff (config : DecisionConfig F) (overrides : Option (TradingConfigOverride F))
    (events : List (TuningEvent F)) :
    Along (TrialWatch.step config) (EndsTrial config) (start overrides) events ↔
      Along (TrialWatch.step config) (fun t event => event.tunes → t.InSight event) (start overrides)
        events := by
  have hcounted : ∀ {guard : TrialWatch F → TuningEvent F → Prop},
      Along (TrialWatch.step config) guard (start overrides) events →
        Along (TrialWatch.step config) (fun t _ => t.Counted) (start overrides) events :=
    along_invariant _ (fun _ event h _ => h.step event) (start_counted overrides)
  constructor
  · intro h
    refine Along.mono _ ?_ ((hcounted h).and _ h)
    exact fun t event ⟨hc, hends⟩ htunes => (hc.endsTrial_iff config htunes).mp hends
  · intro h
    refine Along.mono _ ?_ ((hcounted h).and _ h)
    exact fun t event ⟨hc, hsight⟩ hactive hresults hbrings htunes =>
      (hc.endsTrial_iff config htunes).mpr (hsight htunes) hactive hresults hbrings htunes

/-- A trial is never left in force with two further results in exactly the runs in which each second one comes
from a backtest that tunes, while the history still shows the first one. -/
theorem trial_ends_iff (config : DecisionConfig F) (overrides : Option (TradingConfigOverride F))
    (events : List (TuningEvent F)) :
    (∀ before, before <+: events → (run (TrialWatch.step config) (start overrides) before).OnTime) ↔
      Along (TrialWatch.step config) (fun t event => t.Evaluated event ∧ t.InSight event) (start overrides)
        events := by
  symm
  apply along_iff_prefixes (I := fun t => t.Counted ∧ t.OnTime)
  · intro t event ⟨hcounted, hontime⟩ ⟨hevaluated, hsight⟩
    exact ⟨hcounted.step event, hontime.step hcounted hevaluated hsight⟩
  · exact fun t h => h.2
  · exact fun t event h hguard => not_onTime_step h.1 hguard
  · exact ⟨start_counted overrides, fun hactive => by cases hactive⟩

end Runs

/-- Twenty poor backtests; the last one starts a trial. -/
def trialOnFullHistory : List (TuningEvent ℚ) :=
  List.replicate 19 (.recordBacktest { assessment := .marginal, profitabilityPct := some (-2) }) ++
    [.tuneBacktest { assessment := .marginal, profitabilityPct := some (-2) } 0]

/-- The state after them. -/
def fullHistory : TrialWatch ℚ :=
  run (TrialWatch.step defaultDecisionConfig) (.start none) trialOnFullHistory

/-- Two good backtests later the trial is in force, and so it is after whatever comes. -/
theorem trial_never_ends :
    ¬ (run (TrialWatch.step defaultDecisionConfig) (.start none) (trialOnFullHistory ++
        List.replicate 2 (.tuneBacktest { assessment := .viable, profitabilityPct := some 5 } 1))).OnTime ∧
      ∀ events, (run (TrialWatch.step defaultDecisionConfig) (.start none)
        (trialOnFullHistory ++ events)).world.state.activeTrial.isSome := by
  constructor
  · unfold TrialWatch.OnTime
    decide +kernel
  · intro events
    have hcounted : fullHistory.Counted := TrialWatch.run_counted _ none trialOnFullHistory
    have hheld : ∃ trial ∈ fullHistory.world.state.activeTrial, 19 ≤ trial.historyLenAtStart := by
      decide +kernel
    obtain ⟨trial, htrial, hlength⟩ := hheld
    rw [run_append]
    exact Option.isSome_of_mem
      (TrialWatch.run_keeps_trial defaultDecisionConfig events hcounted htrial hlength)

end Gail.Trading
