import Gail.Library.Run
import Gail.Trading.ConfigOverrides

/-! Tuning by backtests: after poor results stricter settings are put on trial, as overrides, and taken
back when they do not help. Operators and the feedback on trade minima write the same overrides. -/
namespace Gail.Trading
open Gail.Library

inductive ApproachAssessment where
  | viable
  | marginal
  | unprofitable
  | incomplete
  deriving DecidableEq

/-- What tuning reads of a backtest. -/
structure BacktestSummary (F : Type) where
  assessment : ApproachAssessment
  profitabilityPct : Option F
  deriving DecidableEq

structure BacktestProfitStats (F : Type) where
  mean : F
  median : F
  min : F

structure BacktestAutoTuneTrial (F : Type) where
  startedAt : F
  historyLenAtStart : Nat
  baselineMeanProfitPct : F
  baselineMedianProfitPct : F
  baselineSamples : Nat
  previousOverrides : Option (TradingConfigOverride F)
  candidateOverrides : TradingConfigOverride F
  triggerAssessment : ApproachAssessment
  deriving DecidableEq

/-- The part of the trading state that tuning and the other writers of the overrides change. -/
structure TuningState (F : Type) where
  configOverrides : Option (TradingConfigOverride F)
  activeTrial : Option (BacktestAutoTuneTrial F)
  cooldownUntil : Option F
  /-- The newest last, twenty at most. -/
  backtestHistory : List (BacktestSummary F)
  deriving DecidableEq

/-- A change that a candidate makes, from one value to another. -/
inductive TuningReason (F : Type) where
  | confidenceGate (current new : F)
  | fuzzyBlend (current new : F)
  | maxTrade (current new : F)
  | roiPenalty (current new : F)
  | roiSignal (current new : F)

section Definitions
variable {F : Type} [AmountScalar F]

def BacktestSummary.profit (summary : BacktestSummary F) : Option F :=
  summary.profitabilityPct.filter Scalar.isFinite

/-- `state.record_backtest`, as far as tuning reads it. -/
def TuningState.recordBacktest (state : TuningState F) (summary : BacktestSummary F) : TuningState F :=
  let kept := if 20 ≤ state.backtestHistory.length then state.backtestHistory.tail else state.backtestHistory
  { state with backtestHistory := kept ++ [summary] }

def collectSuccessfulBacktestProfits (history : List (BacktestSummary F)) : List F :=
  history.filterMap BacktestSummary.profit

/-- Mean, median and minimum; the values are finite. -/
def calculateBacktestProfitStats (values : List F) : Option (BacktestProfitStats F) :=
  if values.isEmpty then none
  else
    let sorted := values.mergeSort fun left right => decide (left ≤ right)
    let middle := sorted.length / 2
    some
      { mean := mean values
        median :=
          if sorted.length % 2 = 0 then (sorted.getD (middle - 1) 0.0 + sorted.getD middle 0.0) / 2.0
          else sorted.getD middle 0.0
        min := sorted.getD 0 0.0 }

def roundTuningValue (value : F) : F := AmountScalar.round (value * 10000.0) / 10000.0

/-- Steps of the confidence gate and the fuzzy weight, and the scale of the largest trade. -/
def tuningSteps (latestProfitPct : F) : ApproachAssessment → Option (F × F × F)
  | .marginal => some (0.02, if latestProfitPct < 0.0 then 0.95 else 0.98, -0.03)
  | .unprofitable => some (0.05, 0.88, -0.06)
  | _ => none

/-- The candidate with the changes that led to it; without any there is none. -/
def proposeBacktestTuningCandidate (config : DecisionConfig F)
    (overrides : Option (TradingConfigOverride F)) (latestProfitPct : F)
    (assessment : ApproachAssessment) : Option (TradingConfigOverride F × List (TuningReason F)) := do
  let candidate := TradingConfigOverride.fields overrides
  let currentThreshold := candidate.fuzzyConfidenceThreshold.getD config.fuzzyConfidenceThreshold
  let currentMinUsd := Scalar.max (candidate.microTradeMinUsd.getD config.microTradeMinUsd) 0.01
  let currentMaxUsd :=
    Scalar.max (candidate.microTradeMaxUsd.getD config.microTradeMaxUsd) currentMinUsd
  let currentFuzzyWeight := candidate.fuzzyWeight.getD config.fuzzyWeight
  let currentRoiPenalty := candidate.decisionRoiFeedbackMaxConfidencePenalty.getD
    config.decisionRoiFeedbackMaxConfidencePenalty
  let currentRoiSignalAdjustment := candidate.decisionRoiFeedbackMaxSignalAdjustment.getD
    config.decisionRoiFeedbackMaxSignalAdjustment
  let (thresholdStep, sizeScale, weightStep) ← tuningSteps latestProfitPct assessment
  let newThreshold := clamp (currentThreshold + thresholdStep) 0.42 0.92
  let newWeight := clamp (currentFuzzyWeight + weightStep) 0.15 0.85
  let newMaxUsd := Scalar.max (Scalar.max (currentMaxUsd * sizeScale) currentMinUsd) 0.01
  let unprofitable := decide (assessment = .unprofitable)
  let newPenalty := clamp (currentRoiPenalty + if unprofitable then 0.07 else 0.03) 0.0 0.95
  let newSignalAdjustment :=
    clamp (currentRoiSignalAdjustment + if unprofitable then 0.05 else 0.02) 0.0 0.5
  let raisesGate := decide (currentThreshold + Scalar.epsilon < newThreshold)
  let shiftsBlend := decide (Scalar.epsilon < Scalar.abs (newWeight - currentFuzzyWeight))
  let capsMax := decide (newMaxUsd + Scalar.epsilon < currentMaxUsd)
  let losing := decide (latestProfitPct < 0.0)
  let raisesPenalty := losing && decide (currentRoiPenalty + Scalar.epsilon < newPenalty)
  let raisesSignal := losing && decide (currentRoiSignalAdjustment + Scalar.epsilon < newSignalAdjustment)
  let tuned (changes : Bool) (new : F) (old : Option F) : Option F :=
    if changes then some (roundTuningValue new) else old
  let candidate := { candidate with
    fuzzyConfidenceThreshold := tuned raisesGate newThreshold candidate.fuzzyConfidenceThreshold
    fuzzyWeight := tuned shiftsBlend newWeight candidate.fuzzyWeight
    microTradeMaxUsd := tuned capsMax newMaxUsd candidate.microTradeMaxUsd
    decisionRoiFeedbackMaxConfidencePenalty :=
      tuned raisesPenalty newPenalty candidate.decisionRoiFeedbackMaxConfidencePenalty
    decisionRoiFeedbackMaxSignalAdjustment :=
      tuned raisesSignal newSignalAdjustment candidate.decisionRoiFeedbackMaxSignalAdjustment }
  let reasons : List (TuningReason F) :=
    (if raisesGate then [.confidenceGate currentThreshold newThreshold] else []) ++
    (if shiftsBlend then [.fuzzyBlend currentFuzzyWeight newWeight] else []) ++
    (if capsMax then [.maxTrade currentMaxUsd newMaxUsd] else []) ++
    (if raisesPenalty then [.roiPenalty currentRoiPenalty newPenalty] else []) ++
    (if raisesSignal then [.roiSignal currentRoiSignalAdjustment newSignalAdjustment] else [])
  let candidateMax := Scalar.max (candidate.microTradeMaxUsd.getD config.microTradeMaxUsd) 0.01
  let candidateMin := Scalar.max (candidate.microTradeMinUsd.getD config.microTradeMinUsd) 0.01
  let candidate :=
    if candidateMax < candidateMin then
      { candidate with microTradeMinUsd := some (roundTuningValue candidateMax) }
    else candidate
  if reasons.isEmpty then none else some (candidate, reasons)

/-- Whether the trial has helped, once two backtests have been made under it. -/
def BacktestAutoTuneTrial.verdict (trial : BacktestAutoTuneTrial F) (history : List (BacktestSummary F)) :
    Option Bool :=
  let profits := collectSuccessfulBacktestProfits (history.drop trial.historyLenAtStart)
  if profits.length < 2 then none
  else
    (calculateBacktestProfitStats (profits.drop (profits.length - 2))).map fun stats =>
      decide (0.35 ≤ stats.mean - trial.baselineMeanProfitPct) &&
        decide (trial.baselineMedianProfitPct - stats.median ≤ 0.25)

namespace TuningState

/-- A trial that has not helped takes its overrides back: the whole record is as it was before. -/
def conclude (state : TuningState F) (trial : BacktestAutoTuneTrial F) (acceptable : Bool) (now : F) :
    TuningState F :=
  if acceptable then { state with activeTrial := none, cooldownUntil := none }
  else
    { state with
      configOverrides := trial.previousOverrides
      activeTrial := none
      cooldownUntil := some (now + 3600.0) }

/-- A trial begins after a poor backtest, when four results make a baseline and the candidate is not what
is in force already. -/
def startTrial (state : TuningState F) (config : DecisionConfig F) (summary : BacktestSummary F)
    (latestProfitPct now : F) : TuningState F :=
  if state.cooldownUntil.any fun cooldownUntil => decide (now < cooldownUntil) then state
  else if summary.assessment ≠ .marginal ∧ summary.assessment ≠ .unprofitable then state
  else
    let profits := collectSuccessfulBacktestProfits state.backtestHistory
    if profits.length < 4 then state
    else
      let baseline := profits.drop (profits.length - 4)
      match calculateBacktestProfitStats baseline,
          proposeBacktestTuningCandidate config state.configOverrides latestProfitPct
            summary.assessment with
      | some stats, some (candidate, _) =>
        if state.configOverrides.any fun overrides => overrides.sameAs candidate then state
        else
          { state with
            configOverrides := some candidate
            activeTrial := some
              { startedAt := now
                historyLenAtStart := state.backtestHistory.length
                baselineMeanProfitPct := stats.mean
                baselineMedianProfitPct := stats.median
                baselineSamples := baseline.length
                previousOverrides := state.configOverrides
                candidateOverrides := candidate
                triggerAssessment := summary.assessment } }
      | _, _ => state

def applyBacktestAutoTuning (state : TuningState F) (config : DecisionConfig F)
    (summary : BacktestSummary F) (now : F) : TuningState F :=
  match summary.profit with
  | none => state
  | some latestProfitPct =>
    match state.activeTrial with
    | some trial =>
      match trial.verdict state.backtestHistory with
      | none => state
      | some acceptable => state.conclude trial acceptable now
    | none => state.startTrial config summary latestProfitPct now

end TuningState

/-! The writers side by side. -/

inductive TuningEvent (F : Type) where
  /-- `trading_set_config`. -/
  | setConfig (overrides : TradingConfigOverride F)
  | floorFeedback (recommendedMinUsd : F)
  /-- A backtest that is recorded without tuning. -/
  | recordBacktest (summary : BacktestSummary F)
  /-- A backtest of the worker, which tunes. -/
  | tuneBacktest (summary : BacktestSummary F) (now : F)

/-- The state, and beside it the value that each field has from its last writer other than the trial. -/
structure TuningWorld (F : Type) where
  state : TuningState F
  owed : TradingConfigOverride F

namespace TuningWorld

def start (overrides : Option (TradingConfigOverride F)) : TuningWorld F :=
  { state :=
      { configOverrides := overrides, activeTrial := none, cooldownUntil := none, backtestHistory := [] }
    owed := .fields overrides }

/-- The state after a backtest that tunes. -/
def tuned (config : DecisionConfig F) (w : TuningWorld F) (summary : BacktestSummary F) (now : F) :
    TuningState F :=
  (w.state.recordBacktest summary).applyBacktestAutoTuning config summary now

def step (config : DecisionConfig F) (w : TuningWorld F) : TuningEvent F → TuningWorld F
  | .setConfig overrides =>
    { state := { w.state with configOverrides := some overrides }, owed := overrides }
  | .floorFeedback recommendedMinUsd =>
    let changes := tradeFloorChanges config w.state.configOverrides recommendedMinUsd
    { state := { w.state with configOverrides :=
        applyTradeFloorFeedback config w.state.configOverrides recommendedMinUsd }
      owed := w.owed.withSizes changes.1 changes.2 }
  | .recordBacktest summary => { w with state := w.state.recordBacktest summary }
  | .tuneBacktest summary now =>
    let state := w.tuned config summary now
    -- Once no trial is left, what is in force is what is owed.
    { state
      owed := if w.state.activeTrial.isSome && state.activeTrial.isNone then
        .fields state.configOverrides else w.owed }

/-- The trial that a step takes back. -/
def reverts (w : TuningWorld F) : TuningEvent F → Option (BacktestAutoTuneTrial F)
  | .tuneBacktest summary _ =>
    summary.profit.bind fun _ => w.state.activeTrial.filter fun trial =>
      trial.verdict (w.state.recordBacktest summary).backtestHistory = some false
  | _ => none

/-- A step that takes a trial back leaves each field with the value that it has from its last writer
other than the trial. -/
def UndoesOnlyTrial (config : DecisionConfig F) (w : TuningWorld F) (event : TuningEvent F) : Prop :=
  (w.reverts event).isSome → .fields (w.step config event).state.configOverrides = w.owed

/-- Whenever a trial is taken back, the fields have been left as they were before it by all others. -/
def LeftAlone (w : TuningWorld F) (event : TuningEvent F) : Prop :=
  ∀ trial ∈ w.reverts event, w.owed = .fields trial.previousOverrides

end TuningWorld
end Definitions

section Results
variable {F : Type} [AmountScalar F] {config : DecisionConfig F} {w : TuningWorld F}

theorem fields_applyTradeFloorFeedback (overrides : Option (TradingConfigOverride F))
    (recommendedMinUsd : F) :
    .fields (applyTradeFloorFeedback config overrides recommendedMinUsd) =
      (TradingConfigOverride.fields overrides).withSizes
        (tradeFloorChanges config overrides recommendedMinUsd).1
        (tradeFloorChanges config overrides recommendedMinUsd).2 := by
  unfold applyTradeFloorFeedback
  split
  · next h =>
    rw [h]
    rfl
  · next h =>
    rw [h]
    rfl

namespace TuningWorld

/-- What takes a trial back: a backtest with a result, two of which have not been good enough. -/
theorem mem_reverts {event : TuningEvent F} {trial : BacktestAutoTuneTrial F}
    (h : trial ∈ w.reverts event) :
    ∃ summary now profit, event = .tuneBacktest summary now ∧ summary.profit = some profit ∧
      w.state.activeTrial = some trial ∧
      trial.verdict (w.state.recordBacktest summary).backtestHistory = some false := by
  cases event with
  | tuneBacktest summary now =>
    obtain ⟨profit, hprofit, hfilter⟩ := Option.bind_eq_some_iff.mp h
    obtain ⟨htrial, hverdict⟩ := Option.filter_eq_some_iff.mp hfilter
    exact ⟨summary, now, profit, rfl, hprofit, htrial, of_decide_eq_true hverdict⟩
  | _ => cases h

/-- A trial that is taken back leaves the whole record that it began with. -/
theorem step_reverts {event : TuningEvent F} {trial : BacktestAutoTuneTrial F}
    (h : trial ∈ w.reverts event) :
    (w.step config event).state.configOverrides = trial.previousOverrides := by
  obtain ⟨summary, now, profit, rfl, hprofit, htrial, hverdict⟩ := mem_reverts h
  have hkeep : (w.state.recordBacktest summary).activeTrial = some trial := htrial
  simp only [step, tuned, TuningState.applyBacktestAutoTuning, hprofit, hkeep, hverdict]
  rfl

theorem undoesOnlyTrial_iff {event : TuningEvent F} :
    w.UndoesOnlyTrial config event ↔ w.LeftAlone event := by
  unfold UndoesOnlyTrial LeftAlone
  constructor
  · intro h trial ht
    rw [← h (Option.isSome_of_mem ht), step_reverts ht]
  · intro h hsome
    obtain ⟨trial, ht⟩ := Option.isSome_iff_exists.mp hsome
    rw [step_reverts ht, h trial ht]

/-- Outside a trial the fields in force are those that are owed. -/
def Settled (w : TuningWorld F) : Prop :=
  w.state.activeTrial = none → w.owed = .fields w.state.configOverrides

/-- Tuning without a trial either begins one or changes nothing. -/
theorem startTrial_cases (config : DecisionConfig F) (state : TuningState F)
    (summary : BacktestSummary F) (profit now : F) :
    (state.startTrial config summary profit now).activeTrial.isSome ∨
      state.startTrial config summary profit now = state := by
  unfold TuningState.startTrial
  dsimp only
  split_ifs
  · exact .inr rfl
  · exact .inr rfl
  · exact .inr rfl
  · split
    · split_ifs
      · exact .inr rfl
      · exact .inl rfl
    · exact .inr rfl

/-- One step keeps the account of what is owed. -/
theorem Settled.step (h : w.Settled) (event : TuningEvent F) : (w.step config event).Settled := by
  intro hnone
  cases event with
  | setConfig overrides => rfl
  | floorFeedback recommendedMinUsd =>
    have hbefore := h hnone
    simp only [TuningWorld.step]
    rw [fields_applyTradeFloorFeedback, hbefore]
  | recordBacktest summary => exact h hnone
  | tuneBacktest summary now =>
    have hafter : (w.tuned config summary now).activeTrial = none := hnone
    simp only [TuningWorld.step, hafter, Option.isNone_none, Bool.and_true]
    cases htrial : w.state.activeTrial with
    | some trial => rfl
    | none =>
      -- No trial before and none after: the overrides are untouched.
      have hsame : (w.tuned config summary now).configOverrides = w.state.configOverrides := by
        unfold tuned TuningState.applyBacktestAutoTuning at hafter ⊢
        have hkeep : (w.state.recordBacktest summary).activeTrial = none := htrial
        rw [hkeep] at hafter ⊢
        cases hprofit : summary.profit with
        | none => rfl
        | some profit =>
          rw [hprofit] at hafter
          dsimp only at hafter ⊢
          rcases startTrial_cases config (w.state.recordBacktest summary) summary profit now with
            hbegun | hsame
          · rw [hafter] at hbegun
            cases hbegun
          · rw [hsame]
            rfl
      rw [hsame]
      exact h htrial

end TuningWorld

open TuningWorld

/-- Taking trials back leaves each field as its last writer other than the trial has left it, in every
run in which the others leave all fields as they were before the trial, and in no other; outside a
trial that is what is in force. -/
theorem revert_undoes_only_iff (config : DecisionConfig F) (overrides : Option (TradingConfigOverride F))
    (events : List (TuningEvent F)) :
    (run (TuningWorld.step config) (start overrides) events).Settled ∧
      (Along (TuningWorld.step config) (UndoesOnlyTrial config) (start overrides) events ↔
        Along (TuningWorld.step config) LeftAlone (start overrides) events) := by
  constructor
  · exact run_keeps _ (fun _ event h => h.step event) events (fun _ => rfl)
  · constructor
    · exact Along.mono _ fun _ _ h => undoesOnlyTrial_iff.mp h
    · exact Along.mono _ fun _ _ h => undoesOnlyTrial_iff.mpr h

end Results

/-- The settings of the deployment, with the default sizes. -/
def defaultDecisionConfig : DecisionConfig ℚ :=
  { fuzzyWeight := 0.4
    fuzzyConfidenceThreshold := 0.65
    maxOpenPositions := 40
    minTradeIntervalSeconds := 120
    microTradeMinUsd := 1
    microTradeMaxUsd := 25
    decisionRoiFeedbackEnabled := true
    decisionRoiFeedbackLookbackTrades := 40
    decisionRoiFeedbackMinSamples := 4
    decisionRoiFeedbackTargetRoiPct := 2
    decisionRoiFeedbackMaxSignalAdjustment := 0.15
    decisionRoiFeedbackMaxConfidencePenalty := 0.3
    decisionRoiFeedbackMaxConfidenceBoost := 0.1 }

/-- Four poor backtests start a trial; an order of less than five dollars is rejected meanwhile; two
backtests later the trial is taken back. -/
def rejectionDuringTrial : List (TuningEvent ℚ) :=
  List.replicate 3 (.recordBacktest { assessment := .marginal, profitabilityPct := some (-2) }) ++
    [.tuneBacktest { assessment := .marginal, profitabilityPct := some (-2) } 0,
      .floorFeedback 5,
      .tuneBacktest { assessment := .unprofitable, profitabilityPct := some (-3) } 1]

/-- The minimum that the exchange has asked for is lowered again. -/
theorem revert_lowers_minimum :
    (run (TuningWorld.step defaultDecisionConfig) (.start none)
        rejectionDuringTrial).state.configOverrides.bind (·.microTradeMinUsd) = some 5 ∧
      (TuningWorld.step defaultDecisionConfig
        (run (TuningWorld.step defaultDecisionConfig) (.start none) rejectionDuringTrial)
        (.tuneBacktest { assessment := .unprofitable, profitabilityPct := some (-3) } 2)).state.configOverrides
          = none ∧
      ¬ Along (TuningWorld.step defaultDecisionConfig) (TuningWorld.UndoesOnlyTrial defaultDecisionConfig)
        (.start none) (rejectionDuringTrial ++
          [.tuneBacktest { assessment := .unprofitable, profitabilityPct := some (-3) } 2]) := by
  refine ⟨by decide +kernel, by decide +kernel, ?_⟩
  intro h
  have hlast := ((along_append _).mp h).2.1
  unfold TuningWorld.UndoesOnlyTrial at hlast
  exact absurd (hlast (by decide +kernel)) (by decide +kernel)

end Gail.Trading
