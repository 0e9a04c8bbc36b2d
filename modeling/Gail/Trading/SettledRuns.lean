import Gail.Trading.MigrationSwitch

/-! Once repaired the arms stay as they are, so a run from a settled state needs no repair. While quant is primary the
active arm is the one whose promotion made it primary, until tuning moves it. -/
namespace Gail.Trading
section Settled
open Gail.Library
variable {F : Type} [Scalar F]

namespace QuantMigrationState
variable {config : TradingConfig F} {state : QuantMigrationState F} {action : QuantAction F}

/-- The step of the controller on a settled state. -/
def settledStep (config : TradingConfig F) (state : QuantMigrationState F) :
    QuantAction F → QuantMigrationState F
  | .resolveDue snapshots now persisted =>
    if !config.quantShadowEnabled then state
    else state.afterPersisting persisted (state.touch.resolveNormalized config snapshots now)
  | .recordEvaluation evaluationId signal context =>
    if !config.quantShadowEnabled || signal.symbol.isEmpty then state
    else (state.touch.recordNormalized config evaluationId signal context).2
  | action => state.step config action

def settledEvaluated (config : TradingConfig F) (state : QuantMigrationState F) :
    QuantAction F → Option (MigrationEvaluation F)
  | .resolveDue snapshots now persisted =>
    if config.quantShadowEnabled && persisted then
      state.touch.migrationEvaluation config snapshots now
    else none
  | _ => none

theorem Settled.step_eq (h : state.Settled) (action : QuantAction F) :
    state.step config action = state.settledStep config action ∧
      state.evaluated config action = state.settledEvaluated config action := by
  cases action with
  | resolveDue snapshots now persisted =>
    simp only [step, settledStep, evaluated, settledEvaluated, resolveQuantEvaluations, resolveDue,
      h.normalize_eq]
    exact ⟨trivial, trivial⟩
  | recordEvaluation evaluationId signal context =>
    simp only [step, settledStep, evaluated, settledEvaluated, recordEvaluation, h.normalize_eq]
    exact ⟨trivial, trivial⟩
  | start now => exact ⟨rfl, rfl⟩
  | restore => exact ⟨rfl, rfl⟩
  | nativeValidation promotionQualified selectedParameterId now => exact ⟨rfl, rfl⟩

private theorem resolveNormalized_parameterSets (config : TradingConfig F)
    (state : QuantMigrationState F) (snapshots : List (MarketSnapshot F)) (now : F) :
    (state.resolveNormalized config snapshots now).2.parameterSets = state.parameterSets := by
  unfold resolveNormalized
  dsimp only
  split
  · rfl
  · rw [(evaluateMigration_arms config _ now).1, (maybeRetune_spec config _).parameterSets]
    rfl

private theorem Settled.step_parameterSets (h : state.Settled) (action : QuantAction F) :
    (state.step config action).parameterSets = state.parameterSets := by
  have hn : state.normalize.parameterSets = state.parameterSets := by rw [h.normalize_eq]; rfl
  cases action with
  | start now =>
    obtain ⟨initializedAt, he⟩ := initializeState_eq state now
    simp only [step]
    split
    · rw [he]
      exact hn
    · rfl
  | restore => exact hn
  | resolveDue snapshots now persisted =>
    have hr := resolveNormalized_parameterSets config state.normalize snapshots now
    simp only [step, resolveQuantEvaluations, resolveDue]
    split
    · rfl
    · rcases afterPersisting_eq state persisted
        (state.normalize.resolveNormalized config snapshots now) with he | he
      · rw [he]
        exact hr.trans hn
      · rw [he]
  | recordEvaluation evaluationId signal context =>
    obtain ⟨pending, last, he⟩ := recordEvaluation_eq state config evaluationId signal context
    simp only [step]
    split
    · rfl
    · rw [he]
      exact hn
  | nativeValidation promotionQualified selectedParameterId now =>
    obtain ⟨validatedId, validatedAt, he⟩ :=
      recordNativeValidation_eq state promotionQualified selectedParameterId now
    simp only [step]
    rw [he]

section Runs
variable {config : NormalisedConfig F}

private theorem Settled.step_settled (action : QuantAction F) (h : state.Settled)
    (hc : state.Consistent config) :
    (state.step config.toTradingConfig action).Settled ∧
      (state.step config.toTradingConfig action).Consistent config := by
  have hnext := step_consistent hc action
  exact ⟨h.of_eq (h.step_parameterSets action) hnext.armed.active, hnext⟩

theorem Settled.run_settled (h : state.Settled) (hc : state.Consistent config)
    (actions : List (QuantAction F)) :
    (run (step config.toTradingConfig) state actions).Settled ∧
      (run (step config.toTradingConfig) state actions).Consistent config :=
  run_keeps _ (I := fun s : QuantMigrationState F => s.Settled ∧ s.Consistent config)
    (fun _ action hs => hs.1.step_settled action hs.2) actions ⟨h, hc⟩

/-- A run from a settled state is a run of the step without repair. -/
theorem Settled.run_eq (h : state.Settled) (hc : state.Consistent config)
    (actions : List (QuantAction F)) :
    run (step config.toTradingConfig) state actions
      = run (settledStep config.toTradingConfig) state actions :=
  run_congr _ (I := fun s : QuantMigrationState F => s.Settled ∧ s.Consistent config)
    (fun _ action hs => hs.1.step_settled action hs.2) (fun _ action hs => (hs.1.step_eq action).1)
    actions ⟨h, hc⟩

theorem Settled.trace_eq (h : state.Settled) (hc : state.Consistent config)
    (actions : List (QuantAction F)) :
    trace (step config.toTradingConfig) (evaluated config.toTradingConfig) state actions
      = trace (settledStep config.toTradingConfig) (settledEvaluated config.toTradingConfig) state
        actions :=
  trace_congr _ (I := fun s : QuantMigrationState F => s.Settled ∧ s.Consistent config)
    (fun _ action hs => hs.1.step_settled action hs.2) (fun _ action hs => (hs.1.step_eq action).1)
    (fun _ action hs => (hs.1.step_eq action).2) actions ⟨h, hc⟩

theorem Settled.along_iff {guard : QuantMigrationState F → QuantAction F → Prop} (h : state.Settled)
    (hc : state.Consistent config) (actions : List (QuantAction F)) :
    Along (step config.toTradingConfig) guard state actions ↔
      Along (settledStep config.toTradingConfig) guard state actions :=
  along_congr _ (I := fun s : QuantMigrationState F => s.Settled ∧ s.Consistent config)
    (fun _ action hs => hs.1.step_settled action hs.2) (fun _ action hs => (hs.1.step_eq action).1)
    actions ⟨h, hc⟩

end Runs

/-- The controller as the trading loop first starts it. -/
def started (now : F) : QuantMigrationState F := (default.initializeState now).2

end QuantMigrationState

/-- Settings within the normalised bounds, for runs that are evaluated. -/
def sampleConfig (tuningMinSamples requiredStreak : Nat) (hp : 1 ≤ requiredStreak)
    (hl : requiredStreak ≤ 100) : NormalisedConfig ℚ where
  quantShadowEnabled := true
  quantShadowHorizonSeconds := 60
  quantShadowExpirySeconds := 300
  quantShadowLedgerSize := 100
  quantTuningMinSamples := tuningMinSamples
  quantTuningMinActionableSamples := 1
  quantTuningIntervalSamples := 1
  quantTuningMinOutperformanceBps := 1
  quantMigrationMinSamples := 10
  quantMigrationMinActionableSamples := 2
  quantMigrationWindowSamples := 10
  quantMigrationMinOutperformanceBps := 5
  quantMigrationMaxDownsideRegressionBps := 50
  quantMigrationRequiredStreak := requiredStreak
  estimatedFeeBps := 1
  estimatedSlippageBps := 1
  selection :=
    { cashParameterId := "cash-v1"
      minimumActionableNetEdgeBps := 0
      confidenceZScore := 0
      requireNativeValidationForPromotion := false
      nativeValidationMaxAgeSeconds := 86400 }
  minSamples_le_window := by decide
  window_le_ledger := by decide
  requiredStreak_pos := hp
  requiredStreak_le := hl

/-- Settings under which one good evaluation promotes. -/
def eagerConfig (tuningMinSamples : Nat) : NormalisedConfig ℚ :=
  sampleConfig tuningMinSamples 1 (by decide) (by decide)

example : (eagerConfig 3).normalise = some (eagerConfig 3) := by decide +kernel

/-- The balanced arm buys bitcoin, the fast one ether, and the others hold. -/
def sampleSignal (parameters : QuantParameters ℚ) : QuantSignal ℚ :=
  let signal : QuantSignal ℚ :=
    { parameterId := parameters.id, exchange := "binance", symbol := "BTC/USDT", signal := 0
      confidence := 1 / 2, riskScore := 0, actionable := false }
  if parameters.id = "balanced-v1" then { signal with signal := 1 / 2, actionable := true }
  else if parameters.id = "fast-trend-v1" then
    { signal with symbol := "ETH/USDT", signal := 1 / 2, actionable := true }
  else signal

/-- One cycle of the engine, a minute long, with an LLM that holds or is not asked. -/
def sampleCycle (llmAsked : Bool) (minute : Nat) (bitcoin ether : ℚ) : List (QuantAction ℚ) :=
  let now : ℚ := 60 * minute
  let snapshots : List (MarketSnapshot ℚ) :=
    [⟨"binance", "BTC/USDT", bitcoin, now⟩, ⟨"binance", "ETH/USDT", ether, now⟩]
  [ .resolveDue snapshots now true,
    .recordEvaluation "sample" (sampleSignal QuantParameters.default)
      { snapshots, now
        evaluateUniverseForParameters := sampleSignal
        llmConsensus := if llmAsked then some ⟨"hold", 0⟩ else none
        llmSnapshot := snapshots.head?
        llmEvaluationAllowed := true } ]

/-- Cycles in which bitcoin rises by one a minute and ether by the given step. -/
def risingCycles (etherStep : ℚ) (minutes : Nat) : List (QuantAction ℚ) :=
  (List.range minutes).flatMap fun minute =>
    sampleCycle true minute (64 + minute) (64 + etherStep * minute)

open QuantMigrationState

theorem started_settled : (started (0 : ℚ)).Settled :=
  ⟨by decide +kernel, by decide +kernel⟩

private theorem started_spec (config : NormalisedConfig ℚ) (he : config.quantShadowEnabled = true) :
    step config.toTradingConfig .default (.start 0) = .started 0 ∧
      (started (0 : ℚ)).Consistent config := by
  have hs : step config.toTradingConfig .default (.start 0) = .started 0 := by
    simp only [step, he, if_true, started]
  exact ⟨hs, hs ▸ step_consistent default_consistent _⟩

/-- A run of the engine on concrete markets, evaluated without repair. -/
theorem started_run (config : NormalisedConfig ℚ) (he : config.quantShadowEnabled = true)
    (actions : List (QuantAction ℚ)) :
    reached config.toTradingConfig (.start 0 :: actions)
        = run (settledStep config.toTradingConfig) (.started 0) actions ∧
      evaluations config.toTradingConfig (.start 0 :: actions)
        = trace (settledStep config.toTradingConfig) (settledEvaluated config.toTradingConfig)
          (.started 0) actions := by
  obtain ⟨hs, hc⟩ := started_spec config he
  rw [reached, evaluations, run_cons, trace, hs]
  exact ⟨started_settled.run_eq hc actions, started_settled.trace_eq hc actions⟩

/-- A stretch that follows such a run. -/
theorem started_stretch (config : NormalisedConfig ℚ) (he : config.quantShadowEnabled = true)
    (before stretch : List (QuantAction ℚ)) :
    trace (step config.toTradingConfig) (evaluated config.toTradingConfig)
        (reached config.toTradingConfig (.start 0 :: before)) stretch
      = trace (settledStep config.toTradingConfig) (settledEvaluated config.toTradingConfig)
        (run (settledStep config.toTradingConfig) (.started 0) before) stretch ∧
      ∀ guard, Along (step config.toTradingConfig) guard
          (reached config.toTradingConfig (.start 0 :: before)) stretch ↔
        Along (settledStep config.toTradingConfig) guard
          (run (settledStep config.toTradingConfig) (.started 0) before) stretch := by
  obtain ⟨hs, hc⟩ := started_spec config he
  obtain ⟨hset, hcons⟩ := started_settled.run_settled hc before
  have hrun := (started_run config he before).1
  have hreached : reached config.toTradingConfig (.start 0 :: before)
      = run (step config.toTradingConfig) (.started 0) before := by
    rw [reached, run_cons, hs]
  rw [← hreached] at hset hcons
  rw [← hrun]
  exact ⟨hset.trace_eq hcons stretch, fun guard => hset.along_iff hcons stretch⟩

end Settled

section Primary
open Gail.Library QuantMigrationState
variable {F : Type} [Scalar F]

/-- The last arm that tuning selected in a list of evaluations, or the given one. -/
def lastSelected (parameterId : String) (evaluations : List (MigrationEvaluation F)) : String :=
  evaluations.foldl (fun current evaluation => (evaluation.adjustment.map
    QuantParameterAdjustment.selectedParameterId).getD current) parameterId

/-- The evaluation returned a promotion of its arm, which is not cash and passed the guard. -/
structure Promotes (config : TradingConfig F) (evaluation : MigrationEvaluation F) : Prop where
  decision : ∃ decision, evaluation.migration config = some decision ∧
    decision.transition = .promoted ∧ decision.parameterId = evaluation.parameterId
  qualified : evaluation.tuned.qualified config evaluation.now = true
  trades : evaluation.tuned.activeIsCash = false

/-- The last decision of a run was a promotion, and its arm is active unless tuning has selected
another one since. -/
def PromotedInto (config : TradingConfig F) (evaluations : List (MigrationEvaluation F))
    (activeParameterId : String) : Prop :=
  ∃ before promotion after, evaluations = before ++ promotion :: after ∧
    Promotes config promotion ∧ (∀ later ∈ after, later.migration config = none) ∧
    activeParameterId = lastSelected promotion.parameterId after

variable {config : NormalisedConfig F}

private theorem trades_of_qualified {state : QuantMigrationState F} {config : TradingConfig F} {now : F}
    (h : state.qualified config now = true) : state.activeIsCash = false := by
  simp only [qualified, Bool.and_eq_true, Bool.not_eq_true'] at h
  exact h.1.1.1.1.1.2

theorem reached_concat (config : TradingConfig F) (actions : List (QuantAction F))
    (action : QuantAction F) :
    reached config (actions ++ [action]) = (reached config actions).step config action :=
  run_append _ _ _ _

theorem evaluations_concat (config : TradingConfig F) (actions : List (QuantAction F))
    (action : QuantAction F) :
    evaluations config (actions ++ [action]) =
      evaluations config actions ++ ((reached config actions).evaluated config action).toList := by
  rw [evaluations, trace_append, trace, trace, List.append_nil]
  rfl

private theorem PromotedInto.of_step {state next : QuantMigrationState F}
    {outcome : Option (MigrationEvaluation F)} {evaluations : List (MigrationEvaluation F)}
    (hw : state.switch.Within config.quantMigrationRequiredStreak)
    (hs : Stepped config.toTradingConfig state next outcome)
    (ih : state.isPrimary = true →
      PromotedInto config.toTradingConfig evaluations state.activeParameterId)
    (h : next.isPrimary = true) :
    PromotedInto config.toTradingConfig (evaluations ++ outcome.toList) next.activeParameterId := by
  have hswitch := hs.switch hw
  have harm := hs.arm
  cases hs with
  | quiet hs ha =>
    rw [Option.toList_none, List.append_nil, ha]
    exact ih ((congrArg Switch.on hs).symm.trans h)
  | evaluated evaluation hp hc hs hn =>
    have hon : state.isPrimary = evaluation.tuned.isPrimary := (congrArg Switch.on hs).symm
    rw [harm, Option.elim_some, Option.toList_some]
    rcases evaluateMigration_decision config.toTradingConfig evaluation.tuned evaluation.now with
      ⟨hd, hsame⟩ | ⟨decision, hd, hid, htransition, hflip⟩
    · rw [← hn, h, ← hon] at hsame
      obtain ⟨before, promotion, after, rfl, hpromotes, hlater, ha⟩ := ih hsame.symm
      refine ⟨before, promotion, after ++ [evaluation], by simp, hpromotes, ?_, ?_⟩
      · intro later hl
        rcases List.mem_append.mp hl with hl | hl
        · exact hlater later hl
        · rw [List.mem_singleton.mp hl]
          exact hd
      · rw [lastSelected, List.foldl_append, hc.parameterId, hp, ha]
        rfl
    · rw [← hn, h, ← hon] at hflip
      have hoff : state.isPrimary = false := by simpa using hflip.symm
      have hvoted : (state.switch.vote config.quantMigrationRequiredStreak
          (evaluation.ballot config.toTradingConfig)).on = true :=
        (congrArg Switch.on hswitch).symm.trans h
      have hq : evaluation.tuned.qualified config.toTradingConfig evaluation.now = true :=
        MigrationEvaluation.ballot_eq_confirm.mp (Switch.vote_on hoff hvoted).1
      refine ⟨evaluations, evaluation, [], rfl, ⟨⟨decision, hd, ?_, hid⟩, hq, ?_⟩, ?_, rfl⟩
      · rw [htransition, ← hon]
        exact hoff
      · exact trades_of_qualified hq
      · intro later hl
        cases hl

/-- Whenever quant is primary, the last decision promoted an arm that is not cash and passed the guard,
and that arm is active unless tuning has selected another one since. -/
theorem primary_arm (config : NormalisedConfig F) (actions : List (QuantAction F))
    (h : (reached config.toTradingConfig actions).isPrimary = true) :
    PromotedInto config.toTradingConfig (evaluations config.toTradingConfig actions)
      (reached config.toTradingConfig actions).activeParameterId := by
  induction actions using List.reverseRecOn with
  | nil => cases h
  | append_singleton actions action ih =>
    have hc := reached_consistent config actions
    rw [reached_concat] at h ⊢
    rw [evaluations_concat]
    exact .of_step hc.within (step_spec hc action).1 ih h

/-- Bitcoin rises until the balanced arm is promoted, then halves. -/
def crashCycles : List (QuantAction ℚ) :=
  risingCycles 0 10 ++ sampleCycle false 10 74 64 ++ sampleCycle false 11 37 64

def crashConfig : NormalisedConfig ℚ := eagerConfig 3

private theorem crashed_spec :
    (reached crashConfig.toTradingConfig (.start 0 :: crashCycles)).isPrimary = true ∧
      ((reached crashConfig.toTradingConfig (.start 0 :: crashCycles)).activeParameterId = "cash-v1" ∧
        (reached crashConfig.toTradingConfig (.start 0 :: crashCycles)).activeIsCash = true) ∧
      ((evaluations crashConfig.toTradingConfig (.start 0 :: crashCycles)).filterMap
          (MigrationEvaluation.migration crashConfig.toTradingConfig)).map
        (fun decision => (decision.transition, decision.parameterId))
          = [(.promoted, "balanced-v1")] ∧
      ∀ evaluation ∈ evaluations crashConfig.toTradingConfig (.start 0 :: crashCycles),
        evaluation.qualified crashConfig.toTradingConfig = true →
          evaluation.parameterId = "balanced-v1" := by
  obtain ⟨hrun, htrace⟩ := started_run crashConfig rfl crashCycles
  rw [hrun, htrace]
  decide +kernel

theorem primary_arm_promoted :
    PromotedInto crashConfig.toTradingConfig
      (evaluations crashConfig.toTradingConfig (.start 0 :: crashCycles))
      (reached crashConfig.toTradingConfig (.start 0 :: crashCycles)).activeParameterId :=
  primary_arm crashConfig _ crashed_spec.1

/-- After the crash quant is primary with cash, which was never promoted: the only decision of the run
promoted the balanced arm, and only that arm ever passed the guard. -/
theorem primary_with_cash :
    ((reached crashConfig.toTradingConfig (.start 0 :: crashCycles)).isPrimary = true ∧
      (reached crashConfig.toTradingConfig (.start 0 :: crashCycles)).activeParameterId = "cash-v1" ∧
      (reached crashConfig.toTradingConfig (.start 0 :: crashCycles)).activeIsCash = true) ∧
    ((evaluations crashConfig.toTradingConfig (.start 0 :: crashCycles)).filterMap
        (MigrationEvaluation.migration crashConfig.toTradingConfig)).map
      (fun decision => (decision.transition, decision.parameterId))
        = [(.promoted, "balanced-v1")] ∧
    ∀ evaluation ∈ evaluations crashConfig.toTradingConfig (.start 0 :: crashCycles),
      evaluation.qualified crashConfig.toTradingConfig = true →
        evaluation.parameterId = "balanced-v1" := by
  obtain ⟨hp, hid, hdecisions, hqualified⟩ := crashed_spec
  exact ⟨⟨hp, hid⟩, hdecisions, hqualified⟩

end Primary

end Gail.Trading
