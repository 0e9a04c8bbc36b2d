import Gail.Library.Hysteresis
import Gail.Library.Run
import Gail.Trading.QuantController

/-! Runs of the quant controller under the trading engine. The controller is a switch with hysteresis that its migration
evaluations vote on, next to an active arm that tuning moves. -/
namespace Gail.Trading
open Gail.Library
variable {F : Type} [Scalar F]

/-- What the engine does to the controller. -/
inductive QuantAction (F : Type)
  /-- The start of the trading loop. -/
  | start (now : F)
  /-- A restart that restores the persisted state. -/
  | restore
  /-- `resolve_quant_evaluations`; the flag says whether the new state could be persisted. -/
  | resolveDue (snapshots : List (MarketSnapshot F)) (now : F) (persisted : Bool)
  /-- `record_quant_evaluation`, with the fresh id of the sample. -/
  | recordEvaluation (evaluationId : String) (signal : QuantSignal F)
      (context : QuantEvaluationContext F)
  /-- The end of a native backtest. -/
  | nativeValidation (promotionQualified : Bool) (selectedParameterId : Option String) (now : F)

/-- What `evaluate_migration` is called on in `resolve_due`: the state after tuning, with what was
resolved before it. -/
structure MigrationEvaluation (F : Type) where
  resolved : List (QuantResolvedEvaluation F)
  previousParameterId : String
  adjustment : Option (QuantParameterAdjustment F)
  tuned : QuantMigrationState F
  now : F

namespace MigrationEvaluation

def parameterId (evaluation : MigrationEvaluation F) : String := evaluation.tuned.activeParameterId

def qualified (config : TradingConfig F) (evaluation : MigrationEvaluation F) : Bool :=
  evaluation.tuned.qualified config evaluation.now

/-- The ledger holds enough evaluations of the active arm that carry a return of the LLM. -/
def benchmarked (config : TradingConfig F) (evaluation : MigrationEvaluation F) : Bool :=
  decide (config.quantMigrationMinSamples ≤ (evaluation.tuned.paired config).length)

def migration (config : TradingConfig F) (evaluation : MigrationEvaluation F) :
    Option (QuantMigrationDecision F) :=
  (evaluation.tuned.evaluateMigration config evaluation.now).1

end MigrationEvaluation

namespace QuantMigrationState
variable (config : TradingConfig F)

/-- The evaluation that `resolve_due` makes on a repaired state when it resolves anything. -/
def migrationEvaluation (state : QuantMigrationState F) (snapshots : List (MarketSnapshot F))
    (now : F) : Option (MigrationEvaluation F) :=
  if (state.newlyResolved config snapshots now).isEmpty then none
  else
    let (adjustment, tuned) := (state.settleDue config snapshots now).maybeRetune config
    some
      { resolved := state.newlyResolved config snapshots now
        previousParameterId := state.activeParameterId
        adjustment, tuned, now }

/-- The engine takes the old state back when it cannot persist an update. -/
def afterPersisting (state : QuantMigrationState F) (persisted : Bool)
    (outcome : QuantUpdate F × QuantMigrationState F) : QuantMigrationState F :=
  if outcome.1.resolved = 0 ∧ outcome.1.expired = 0 then outcome.2
  else if persisted then outcome.2
  else state

def resolveQuantEvaluations (state : QuantMigrationState F) (snapshots : List (MarketSnapshot F))
    (now : F) (persisted : Bool) : QuantMigrationState F :=
  if !config.quantShadowEnabled then state
  else state.afterPersisting persisted (state.resolveDue config snapshots now)

def step (state : QuantMigrationState F) : QuantAction F → QuantMigrationState F
  | .start now => if config.quantShadowEnabled then (state.initializeState now).2 else state
  | .restore => state.normalize
  | .resolveDue snapshots now persisted => state.resolveQuantEvaluations config snapshots now persisted
  | .recordEvaluation evaluationId signal context =>
    if !config.quantShadowEnabled || signal.symbol.isEmpty then state
    else (state.recordEvaluation config evaluationId signal context).2
  | .nativeValidation promotionQualified selectedParameterId now =>
    state.recordNativeValidation promotionQualified selectedParameterId now

/-- The migration evaluation of an action, if it makes one and its outcome is kept. -/
def evaluated (state : QuantMigrationState F) : QuantAction F → Option (MigrationEvaluation F)
  | .resolveDue snapshots now persisted =>
    if config.quantShadowEnabled && persisted then
      state.normalize.migrationEvaluation config snapshots now
    else none
  | _ => none

/-- The controller after a run from its first state. -/
def reached (actions : List (QuantAction F)) : QuantMigrationState F := run (step config) default actions

/-- The migration evaluations of a run. -/
def evaluations (actions : List (QuantAction F)) : List (MigrationEvaluation F) :=
  trace (step config) (evaluated config) default actions

end QuantMigrationState

/-- A pass of the guard confirms quant, a failure on enough LLM returns refutes it. -/
def MigrationEvaluation.ballot (config : TradingConfig F) (evaluation : MigrationEvaluation F) :
    Vote :=
  if evaluation.qualified config then .confirm
  else if evaluation.benchmarked config then .refute
  else .abstain

theorem MigrationEvaluation.ballot_eq_confirm {config : TradingConfig F}
    {evaluation : MigrationEvaluation F} :
    evaluation.ballot config = .confirm ↔ evaluation.qualified config = true := by
  unfold ballot
  split
  · rename_i hq
    exact iff_of_true rfl hq
  · rename_i hq
    refine iff_of_false (fun hb => ?_) hq
    split at hb <;> cases hb

/-- The arm of an evaluation is the one that its tuning chose, or the arm before it. -/
structure MigrationEvaluation.Chosen (evaluation : MigrationEvaluation F) : Prop where
  parameterId : evaluation.parameterId = (evaluation.adjustment.map
    QuantParameterAdjustment.selectedParameterId).getD evaluation.previousParameterId
  other : ∀ adjustment ∈ evaluation.adjustment,
    adjustment.selectedParameterId ≠ evaluation.previousParameterId

omit [Scalar F] in
theorem MigrationEvaluation.Chosen.adjustment_eq_none_iff
    {evaluation : MigrationEvaluation F} (h : evaluation.Chosen) :
    evaluation.adjustment = none ↔ evaluation.parameterId = evaluation.previousParameterId := by
  have hid := h.parameterId
  cases ha : evaluation.adjustment with
  | none =>
    rw [ha] at hid
    exact iff_of_true rfl hid
  | some adjustment =>
    rw [ha] at hid
    refine iff_of_false (fun he => by cases he) fun he => h.other adjustment ha ?_
    exact hid.symm.trans he

/-- Each evaluation starts from the arm of the one before it. -/
def Linked (evaluations : List (MigrationEvaluation F)) : Prop :=
  evaluations.IsChain fun a b => b.previousParameterId = a.parameterId

namespace QuantMigrationState
variable {config : NormalisedConfig F} {state : QuantMigrationState F}
  {snapshots : List (MarketSnapshot F)} {now : F} {action : QuantAction F}
  {evaluation : MigrationEvaluation F}

/-- The mode and the two streaks. -/
def switch (state : QuantMigrationState F) : Switch :=
  ⟨state.isPrimary, state.promotionStreak, state.demotionStreak⟩

/-- What holds of every state of a run. -/
structure Consistent (config : NormalisedConfig F) (state : QuantMigrationState F) : Prop where
  armed : state.Armed
  within : state.switch.Within config.quantMigrationRequiredStreak

theorem default_consistent : (default : QuantMigrationState F).Consistent config :=
  ⟨default_armed, Switch.off_within config.requiredStreak_pos⟩

private theorem performance_mem {window : Nat} {z : F} {performance : ParameterPerformance F}
    (h : performance ∈ state.parameterPerformances window z) :
    performance.parameterId ∈ state.parameterIds := by
  obtain ⟨parameters, hp, rfl⟩ := List.mem_map.mp h
  exact List.mem_map_of_mem hp

private theorem best_mem (config : TradingConfig F) {performances : List (ParameterPerformance F)}
    {cash : ParameterPerformance F} (hc : cash ∈ performances) :
    (bestTradingArm config performances).getD cash ∈ performances := by
  cases hb : bestTradingArm config performances with
  | none => exact hc
  | some best => exact List.mem_of_mem_filter (maxBy_mem hb)

/-- Tuning at most moves the active arm to another one of the arms, which it then reports. -/
structure Tuned (state : QuantMigrationState F) (adjustment : Option (QuantParameterAdjustment F))
    (tuned : QuantMigrationState F) : Prop where
  switch : tuned.switch = state.switch
  parameterSets : tuned.parameterSets = state.parameterSets
  resolved : tuned.resolved = state.resolved
  pending : tuned.pending = state.pending
  activeParameterId : tuned.activeParameterId =
    (adjustment.map QuantParameterAdjustment.selectedParameterId).getD state.activeParameterId
  selected : ∀ chosen ∈ adjustment, chosen.selectedParameterId ≠ state.activeParameterId ∧
    chosen.selectedParameterId ∈ state.parameterIds

omit [Scalar F] in
private theorem tuned_none (count : Nat) :
    Tuned state none { state with lastTunedResolvedCount := count } :=
  ⟨rfl, rfl, rfl, rfl, rfl, fun _ h => by cases h⟩

theorem maybeRetune_spec (config : TradingConfig F) (state : QuantMigrationState F) :
    Tuned state (state.maybeRetune config).1 (state.maybeRetune config).2 := by
  unfold maybeRetune
  dsimp only
  split
  · exact tuned_none state.lastTunedResolvedCount
  · split
    · rename_i hcurrent hcash
      have hm := best_mem config (List.mem_of_find?_eq_some hcash)
      split
      · exact tuned_none state.totalResolved
      · rename_i hne
        refine ⟨rfl, rfl, rfl, rfl, rfl, ?_⟩
        intro chosen hc
        rw [← Option.some.inj hc]
        exact ⟨fun he => hne (Or.inl he), performance_mem hm⟩
    · exact tuned_none state.lastTunedResolvedCount

omit [Scalar F] in
theorem Armed.tuned {adjustment : Option (QuantParameterAdjustment F)}
    {next : QuantMigrationState F} (h : state.Armed) (ht : Tuned state adjustment next) :
    next.Armed := by
  have hids : next.parameterIds = state.parameterIds := by
    rw [parameterIds, ht.parameterSets, parameterIds]
  constructor
  · rw [hids]
    exact h.repaired
  · rw [hids, ht.activeParameterId]
    cases adjustment with
    | none => exact h.active
    | some chosen => exact (ht.selected chosen rfl).2

/-- What an evaluation leaves alone. -/
theorem evaluateMigration_arms (config : TradingConfig F) (state : QuantMigrationState F) (now : F) :
    (state.evaluateMigration config now).2.parameterSets = state.parameterSets ∧
      (state.evaluateMigration config now).2.activeParameterId = state.activeParameterId := by
  unfold evaluateMigration
  dsimp only
  repeat' split
  all_goals exact ⟨rfl, rfl⟩

theorem evaluateMigration_ledgers (config : TradingConfig F) (state : QuantMigrationState F)
    (now : F) : (state.evaluateMigration config now).2.resolved = state.resolved ∧
      (state.evaluateMigration config now).2.pending = state.pending := by
  unfold evaluateMigration
  dsimp only
  repeat' split
  all_goals exact ⟨rfl, rfl⟩

omit [Scalar F] in
private theorem saturatingSucc_streak {n : Nat} (h : n < config.quantMigrationRequiredStreak) :
    saturatingSucc n = n + 1 := by
  have hr := config.requiredStreak_le
  apply saturatingSucc_of_lt
  unfold u64Max
  omega

/-- An evaluation is a vote on the switch. -/
theorem evaluateMigration_switch (hw : state.switch.Within config.quantMigrationRequiredStreak)
    (now : F) :
    (state.evaluateMigration config.toTradingConfig now).2.switch =
      state.switch.vote config.quantMigrationRequiredStreak
        (MigrationEvaluation.ballot config.toTradingConfig ⟨[], "", none, state, now⟩) := by
  have hr := config.requiredStreak_pos
  simp only [MigrationEvaluation.ballot, MigrationEvaluation.qualified,
    MigrationEvaluation.benchmarked, decide_eq_true_eq]
  cases hm : state.mode with
  | primary =>
    have hs : saturatingSucc state.demotionStreak = state.demotionStreak + 1 :=
      saturatingSucc_streak (hw.refuted (by simp [switch, isPrimary, hm]))
    by_cases hq : state.qualified config.toTradingConfig now = true
    · simp [evaluateMigration, switch, Switch.vote, isPrimary, hm, hq]
    · rcases Nat.lt_or_ge (state.paired config.toTradingConfig).length
        config.quantMigrationMinSamples with hb | hb
      · simp [evaluateMigration, switch, Switch.vote, isPrimary, hm, hq, hb, Nat.not_le_of_lt hb]
      · by_cases hl : state.demotionStreak + 1 < config.quantMigrationRequiredStreak
        · simp [evaluateMigration, switch, Switch.vote, isPrimary, hm, hq, hb, hs, hl,
            Nat.not_lt_of_le hb]
        · simp [evaluateMigration, switch, Switch.vote, Switch.off, isPrimary, hm, hq, hb, hs, hl,
            Nat.not_lt_of_le hb]
  | shadow =>
    have hs : saturatingSucc state.promotionStreak = state.promotionStreak + 1 :=
      saturatingSucc_streak (hw.confirmed (by simp [switch, isPrimary, hm]))
    by_cases hq : state.qualified config.toTradingConfig now = true
    · by_cases hl : state.promotionStreak + 1 < config.quantMigrationRequiredStreak
      · simp [evaluateMigration, switch, Switch.vote, isPrimary, hm, hq, hs, hl,
          Nat.not_le_of_lt hl]
      · simp [evaluateMigration, switch, Switch.vote, isPrimary, hm, hq, hs, hl,
          Nat.le_of_not_lt hl]
    · have hl : 0 < config.quantMigrationRequiredStreak := hr
      by_cases hb : config.quantMigrationMinSamples
          ≤ (state.paired config.toTradingConfig).length
      all_goals simp [evaluateMigration, switch, Switch.vote, Switch.off, isPrimary, hm, hq, hl, hb]

/-- An action leaves the switch and the active arm alone, or it tunes and then evaluates. -/
inductive Stepped (config : TradingConfig F) (state next : QuantMigrationState F) :
    Option (MigrationEvaluation F) → Prop
  | quiet (hs : next.switch = state.switch) (ha : next.activeParameterId = state.activeParameterId) :
      Stepped config state next none
  | evaluated (evaluation : MigrationEvaluation F)
      (hp : evaluation.previousParameterId = state.activeParameterId) (hc : evaluation.Chosen)
      (hs : evaluation.tuned.switch = state.switch)
      (hn : next = (evaluation.tuned.evaluateMigration config evaluation.now).2) :
      Stepped config state next (some evaluation)

/-- What resolving due evaluations does to a consistent state. -/
theorem resolveDue_spec (h : state.Consistent config) (snapshots : List (MarketSnapshot F))
    (now : F) :
    Stepped config.toTradingConfig state (state.resolveDue config.toTradingConfig snapshots now).2
        (state.normalize.migrationEvaluation config.toTradingConfig snapshots now) ∧
      (state.resolveDue config.toTradingConfig snapshots now).2.Armed := by
  have ha := h.armed.normalize_activeParameterId
  unfold resolveDue resolveNormalized migrationEvaluation
  dsimp only
  generalize hset : state.normalize.settleDue config.toTradingConfig snapshots now = settled
  have hswitch : settled.switch = state.switch := by rw [← hset]; rfl
  have hactive : settled.activeParameterId = state.activeParameterId := by rw [← hset]; exact ha
  have harmed : settled.Armed := by
    apply (normalize_armed state).of_eq
    · rw [← hset]; rfl
    · rw [hactive, ha]
  split
  · exact ⟨.quiet hswitch hactive, harmed⟩
  · have ht := maybeRetune_spec config.toTradingConfig settled
    obtain ⟨hsets, hkept⟩ := evaluateMigration_arms config.toTradingConfig
      (settled.maybeRetune config.toTradingConfig).2 now
    have hw : (settled.maybeRetune config.toTradingConfig).2.switch = state.switch :=
      ht.switch.trans hswitch
    refine ⟨.evaluated _ ha ⟨?_, ?_⟩ hw rfl, (harmed.tuned ht).of_eq hsets hkept⟩
    · rw [ha, ← hactive]
      exact ht.activeParameterId
    · intro chosen hc
      rw [ha, ← hactive]
      exact (ht.selected chosen hc).1

private theorem migrationEvaluation_eq_none {config : TradingConfig F}
    (h : (state.resolveDue config snapshots now).1.resolved = 0) :
    state.normalize.migrationEvaluation config snapshots now = none := by
  unfold resolveDue resolveNormalized at h
  unfold migrationEvaluation
  dsimp only at h
  split at h
  · rename_i he
    rw [if_pos he]
  · rename_i he
    exact absurd (List.isEmpty_iff_length_eq_zero.mpr h) he

theorem initializeState_eq (state : QuantMigrationState F) (now : F) :
    ∃ initializedAt, (state.initializeState now).2 = { state.normalize with initializedAt } := by
  unfold initializeState
  dsimp only
  split
  · exact ⟨some now, rfl⟩
  · exact ⟨state.normalize.initializedAt, rfl⟩

theorem recordEvaluation_eq (state : QuantMigrationState F) (config : TradingConfig F)
    (evaluationId : String) (signal : QuantSignal F) (context : QuantEvaluationContext F) :
    ∃ pending lastShadowRecordedAt,
      (state.recordEvaluation config evaluationId signal context).2
        = { state.normalize with pending, lastShadowRecordedAt } := by
  unfold recordEvaluation recordNormalized
  dsimp only
  repeat' split
  all_goals exact ⟨_, _, rfl⟩

omit [Scalar F] in
theorem recordNativeValidation_eq (state : QuantMigrationState F) (promotionQualified : Bool)
    (selectedParameterId : Option String) (now : F) :
    ∃ nativeValidationParameterId nativeValidationAt,
      state.recordNativeValidation promotionQualified selectedParameterId now
        = { state with nativeValidationParameterId, nativeValidationAt } := by
  unfold recordNativeValidation
  split
  · exact ⟨_, _, rfl⟩
  · exact ⟨_, _, rfl⟩

omit [Scalar F] in
theorem afterPersisting_eq (state : QuantMigrationState F) (persisted : Bool)
    (outcome : QuantUpdate F × QuantMigrationState F) :
    state.afterPersisting persisted outcome = outcome.2 ∨
      state.afterPersisting persisted outcome = state := by
  unfold afterPersisting
  split
  · exact Or.inl rfl
  · split
    · exact Or.inl rfl
    · exact Or.inr rfl

/-- Every action steps the controller in one of the two ways, and keeps its arms in order. -/
theorem step_spec (h : state.Consistent config) (action : QuantAction F) :
    Stepped config.toTradingConfig state (state.step config.toTradingConfig action)
        (state.evaluated config.toTradingConfig action) ∧
      (state.step config.toTradingConfig action).Armed := by
  have hn := normalize_armed state
  have ha := h.armed.normalize_activeParameterId
  cases action with
  | start now =>
    obtain ⟨initializedAt, he⟩ := initializeState_eq state now
    simp only [step, evaluated]
    split
    · rw [he]
      exact ⟨.quiet rfl ha, hn.of_eq rfl rfl⟩
    · exact ⟨.quiet rfl rfl, h.armed⟩
  | restore => exact ⟨.quiet rfl ha, hn⟩
  | resolveDue snapshots now persisted =>
    have hr := resolveDue_spec h snapshots now
    simp only [step, evaluated, resolveQuantEvaluations, afterPersisting]
    cases config.quantShadowEnabled with
    | false => exact ⟨.quiet rfl rfl, h.armed⟩
    | true =>
      simp only [Bool.not_true, Bool.false_eq_true, if_false, Bool.true_and]
      split
      · rename_i hz
        have hq := migrationEvaluation_eq_none hz.1
        rw [hq] at hr ⊢
        rw [ite_self]
        exact hr
      · cases persisted with
        | true => exact hr
        | false => exact ⟨.quiet rfl rfl, h.armed⟩
  | recordEvaluation evaluationId signal context =>
    obtain ⟨pending, last, he⟩ :=
      recordEvaluation_eq state config.toTradingConfig evaluationId signal context
    simp only [step, evaluated]
    split
    · exact ⟨.quiet rfl rfl, h.armed⟩
    · rw [he]
      exact ⟨.quiet rfl ha, hn.of_eq rfl rfl⟩
  | nativeValidation promotionQualified selectedParameterId now =>
    obtain ⟨validatedId, validatedAt, he⟩ :=
      recordNativeValidation_eq state promotionQualified selectedParameterId now
    simp only [step, evaluated]
    rw [he]
    exact ⟨.quiet rfl rfl, h.armed.of_eq rfl rfl⟩

theorem Stepped.switch {next : QuantMigrationState F} {outcome : Option (MigrationEvaluation F)}
    (hw : state.switch.Within config.quantMigrationRequiredStreak)
    (hs : Stepped config.toTradingConfig state next outcome) :
    next.switch = outcome.elim state.switch fun evaluation =>
      state.switch.vote config.quantMigrationRequiredStreak
        (evaluation.ballot config.toTradingConfig) := by
  cases hs with
  | quiet hs ha => exact hs
  | evaluated evaluation hp hc hs hn =>
    rw [hn, evaluateMigration_switch (hs ▸ hw) evaluation.now, hs]
    rfl

theorem Stepped.arm {config : TradingConfig F} {next : QuantMigrationState F}
    {outcome : Option (MigrationEvaluation F)} (hs : Stepped config state next outcome) :
    next.activeParameterId =
      outcome.elim state.activeParameterId MigrationEvaluation.parameterId := by
  cases hs with
  | quiet hs ha => exact ha
  | evaluated evaluation hp hc hs hn =>
    rw [hn]
    exact (evaluateMigration_arms config evaluation.tuned evaluation.now).2

theorem step_consistent (h : state.Consistent config) (action : QuantAction F) :
    (state.step config.toTradingConfig action).Consistent config := by
  obtain ⟨hs, ha⟩ := step_spec h action
  refine ⟨ha, ?_⟩
  rw [hs.switch h.within]
  cases state.evaluated config.toTradingConfig action with
  | none => exact h.within
  | some evaluation => exact h.within.vote config.requiredStreak_pos _

/-- The switch of the controller polls the evaluations of a run. -/
theorem run_switch (h : state.Consistent config) (actions : List (QuantAction F)) :
    (run (step config.toTradingConfig) state actions).switch =
      state.switch.poll config.quantMigrationRequiredStreak
        (MigrationEvaluation.ballot config.toTradingConfig)
        (trace (step config.toTradingConfig) (evaluated config.toTradingConfig) state actions) :=
  run_foldl_trace _ (I := Consistent config) (fun _ action hs => step_consistent hs action)
    (fun _ action hs => (step_spec hs action).1.switch hs.within) actions h

/-- The active arm is that of the last evaluation. -/
theorem run_arm (h : state.Consistent config) (actions : List (QuantAction F)) :
    (run (step config.toTradingConfig) state actions).activeParameterId =
      (trace (step config.toTradingConfig) (evaluated config.toTradingConfig) state actions).foldl
        (fun _ evaluation => evaluation.parameterId) state.activeParameterId :=
  run_foldl_trace _ (I := Consistent config) (fun _ action hs => step_consistent hs action)
    (fun _ action hs => (step_spec hs action).1.arm) actions h

/-- The switch after a run of the controller. -/
theorem reached_switch (config : NormalisedConfig F) (actions : List (QuantAction F)) :
    (reached config.toTradingConfig actions).switch =
      Switch.off.poll config.quantMigrationRequiredStreak
        (MigrationEvaluation.ballot config.toTradingConfig)
        (evaluations config.toTradingConfig actions) :=
  run_switch default_consistent actions

theorem reached_consistent (config : NormalisedConfig F) (actions : List (QuantAction F)) :
    (reached config.toTradingConfig actions).Consistent config :=
  run_keeps _ (I := Consistent config) (fun _ action hs => step_consistent hs action) actions
    default_consistent

theorem Stepped.of_some {config : TradingConfig F} {next : QuantMigrationState F}
    (hs : Stepped config state next (some evaluation)) :
    evaluation.Chosen ∧ evaluation.previousParameterId = state.activeParameterId ∧
      evaluation.tuned.switch = state.switch := by
  cases hs with
  | evaluated _ hp hc hs _ => exact ⟨hc, hp, hs⟩

theorem evaluated_spec (h : state.Consistent config)
    (he : state.evaluated config.toTradingConfig action = some evaluation) :
    evaluation.Chosen ∧ evaluation.previousParameterId = state.activeParameterId ∧
      evaluation.tuned.switch = state.switch :=
  Stepped.of_some (he ▸ (step_spec h action).1)

theorem run_linked (h : state.Consistent config) (actions : List (QuantAction F)) :
    Linked (trace (step config.toTradingConfig) (evaluated config.toTradingConfig) state actions) ∧
      ∀ evaluation ∈ (trace (step config.toTradingConfig) (evaluated config.toTradingConfig) state
        actions).head?, evaluation.previousParameterId = state.activeParameterId := by
  refine trace_isChain _ (I := Consistent config) activeParameterId
    (fun _ action hs => step_consistent hs action) ?_ ?_ actions h
  · intro state action hs hnone
    rw [(step_spec hs action).1.arm, hnone]
    rfl
  · intro state action evaluation hs hsome
    refine ⟨(evaluated_spec hs hsome).2.1, ?_⟩
    rw [(step_spec hs action).1.arm, hsome]
    rfl

theorem run_chosen (h : state.Consistent config) (actions : List (QuantAction F)) :
    ∀ evaluation ∈ trace (step config.toTradingConfig) (evaluated config.toTradingConfig) state
      actions, evaluation.Chosen :=
  trace_forall _ (I := Consistent config) (fun _ action hs => step_consistent hs action)
    (fun _ _ _ hs hsome => (evaluated_spec hs hsome).1) actions h

/-- The decision of an evaluation says which way the switch went, and names the arm. -/
theorem evaluateMigration_decision (config : TradingConfig F) (state : QuantMigrationState F)
    (now : F) :
    ((state.evaluateMigration config now).1 = none ∧
        (state.evaluateMigration config now).2.isPrimary = state.isPrimary) ∨
      ∃ decision, (state.evaluateMigration config now).1 = some decision ∧
        decision.parameterId = state.activeParameterId ∧
        (decision.transition = .promoted ↔ state.isPrimary = false) ∧
        (state.evaluateMigration config now).2.isPrimary = !state.isPrimary := by
  cases hm : state.mode with
  | primary =>
    have hp : state.isPrimary = true := by rw [isPrimary, hm]; rfl
    simp only [evaluateMigration, hm]
    split
    · exact Or.inl ⟨rfl, by rw [hp, isPrimary]; rfl⟩
    · split
      · exact Or.inl ⟨rfl, rfl⟩
      · split
        · exact Or.inl ⟨rfl, by rw [hp, isPrimary]; rfl⟩
        · refine Or.inr ⟨_, rfl, rfl, ?_, ?_⟩
          · rw [hp]
            exact iff_of_false (fun h => by cases h) (fun h => by cases h)
          · rw [hp, isPrimary]; rfl
  | shadow =>
    have hp : state.isPrimary = false := by rw [isPrimary, hm]; rfl
    simp only [evaluateMigration, hm]
    generalize (if state.qualified config now = true then saturatingSucc state.promotionStreak else 0)
      = streak
    split
    · exact Or.inl ⟨rfl, by rw [hp, isPrimary]; rfl⟩
    · refine Or.inr ⟨_, rfl, rfl, ?_, ?_⟩
      · exact iff_of_true rfl hp
      · rw [hp, isPrimary]; rfl

end QuantMigrationState

end Gail.Trading
