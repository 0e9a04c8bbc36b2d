import Gail.Trading.SettledRuns

/-! The resolution of due evaluations in its two steps, between which a backtest may publish its native
validation, and what a resolution that cannot be persisted takes back. -/
namespace Gail.Trading
open Gail.Library
variable {F : Type} [Scalar F]

/-- The controller of the shared state, and the copy that a resolution keeps while it persists. -/
structure ResolvingController (F : Type) where
  controller : QuantMigrationState F
  previousController : Option (QuantMigrationState F)

inductive ResolutionEvent (F : Type)
  /-- `resolve_quant_evaluations` up to its persist. -/
  | resolveDue (snapshots : List (MarketSnapshot F)) (now : F)
  /-- Its persist succeeds or fails. -/
  | persisted (written : Bool)
  /-- `run_configured_backtest` publishes its result. -/
  | nativeValidation (promotionQualified : Bool) (selectedParameterId : Option String) (now : F)
  /-- `record_quant_evaluation`, of the task that also resolves. -/
  | recordEvaluation (evaluationId : String) (signal : QuantSignal F)
      (context : QuantEvaluationContext F)

namespace ResolvingController
variable (config : TradingConfig F)

def begin (s : ResolvingController F) (snapshots : List (MarketSnapshot F)) (now : F) :
    ResolvingController F :=
  if s.previousController.isSome || !config.quantShadowEnabled then s
  else
    let (update, controller) := s.controller.resolveDue config snapshots now
    if update.resolved = 0 ∧ update.expired = 0 then { s with controller }
    else { controller, previousController := some s.controller }

/-- A failed persist puts the whole copy back. -/
def persisted (s : ResolvingController F) (written : Bool) : ResolvingController F :=
  match s.previousController with
  | none => s
  | some previous =>
    { controller := if written then s.controller else previous, previousController := none }

def recordEvaluation (s : ResolvingController F) (evaluationId : String) (signal : QuantSignal F)
    (context : QuantEvaluationContext F) : ResolvingController F :=
  if s.previousController.isSome then s
  else
    { s with
      controller := s.controller.step config (.recordEvaluation evaluationId signal context) }

def next (s : ResolvingController F) : ResolutionEvent F → ResolvingController F
  | .resolveDue snapshots now => s.begin config snapshots now
  | .persisted written => s.persisted written
  | .nativeValidation promotionQualified selectedParameterId now =>
    { s with
      controller := s.controller.recordNativeValidation promotionQualified selectedParameterId now }
  | .recordEvaluation evaluationId signal context =>
    s.recordEvaluation config evaluationId signal context

/-- The same engine where what is published reaches the copy as well, so that a failed persist takes
back the resolution and nothing else. -/
def intended (s : ResolvingController F) : ResolutionEvent F → ResolvingController F
  | .nativeValidation promotionQualified selectedParameterId now =>
    { controller := s.controller.recordNativeValidation promotionQualified selectedParameterId now
      previousController := s.previousController.map fun previous =>
        previous.recordNativeValidation promotionQualified selectedParameterId now }
  | event => s.next config event

end ResolvingController

namespace QuantMigrationState

/-- The native validation of a controller. -/
def nativeValidation (state : QuantMigrationState F) : Option String × Option F :=
  (state.nativeValidationParameterId, state.nativeValidationAt)

/-- The state with another native validation. -/
def withNativeValidation (state : QuantMigrationState F) (validation : Option String × Option F) :
    QuantMigrationState F :=
  { state with nativeValidationParameterId := validation.1, nativeValidationAt := validation.2 }

end QuantMigrationState

/-- If a resolution fails to persist, the controller still has the native validation of the copy. -/
def ResolvingController.KeepsValidation (s : ResolvingController F) (event : ResolutionEvent F) : Prop :=
  event = .persisted false →
    ∀ previous ∈ s.previousController, s.controller.nativeValidation = previous.nativeValidation

section Lemmas
variable {config : TradingConfig F} {state previous : QuantMigrationState F}
  {validation : Option String × Option F}

omit [Scalar F] in
theorem withNativeValidation_self : state.withNativeValidation state.nativeValidation = state := rfl

omit [Scalar F] in
theorem withNativeValidation_inj
    (h : state.withNativeValidation validation = state) : validation = state.nativeValidation := by
  rw [← h]
  rfl

omit [Scalar F] in
/-- A publication replaces the validation by one that does not depend on the controller. -/
theorem recordNativeValidation_eq_with (promotionQualified : Bool) (selectedParameterId : Option String)
    (now : F) : ∃ validation, ∀ state : QuantMigrationState F,
      state.recordNativeValidation promotionQualified selectedParameterId now =
        state.withNativeValidation validation := by
  cases promotionQualified with
  | true => exact ⟨(selectedParameterId, some now), fun _ => rfl⟩
  | false => exact ⟨(none, none), fun _ => rfl⟩

theorem maybeRetune_nativeValidation (config : TradingConfig F) (state : QuantMigrationState F) :
    (state.maybeRetune config).2.nativeValidation = state.nativeValidation := by
  unfold QuantMigrationState.maybeRetune
  dsimp only
  repeat' split
  all_goals rfl

theorem evaluateMigration_nativeValidation (config : TradingConfig F) (state : QuantMigrationState F)
    (now : F) : (state.evaluateMigration config now).2.nativeValidation = state.nativeValidation := by
  unfold QuantMigrationState.evaluateMigration
  dsimp only
  repeat' split
  all_goals rfl

/-- Resolving leaves the native validation alone. -/
theorem resolveDue_nativeValidation (config : TradingConfig F) (state : QuantMigrationState F)
    (snapshots : List (MarketSnapshot F)) (now : F) :
    (state.resolveDue config snapshots now).2.nativeValidation = state.nativeValidation := by
  unfold QuantMigrationState.resolveDue QuantMigrationState.resolveNormalized
  dsimp only
  split
  · rfl
  · exact (evaluateMigration_nativeValidation ..).trans (maybeRetune_nativeValidation ..)

/-- Without a publication between its steps a resolution is what the controller does in one. -/
theorem persisted_begin (written : Bool) (snapshots : List (MarketSnapshot F)) (now : F) :
    ((ResolvingController.mk state none).begin config snapshots now).persisted written =
      ⟨state.resolveQuantEvaluations config snapshots now written, none⟩ := by
  unfold ResolvingController.begin QuantMigrationState.resolveQuantEvaluations
    QuantMigrationState.afterPersisting
  cases config.quantShadowEnabled with
  | false => rfl
  | true =>
    simp only [Option.isSome_none, Bool.not_true, Bool.or_self, Bool.false_eq_true, if_false]
    by_cases hu : (state.resolveDue config snapshots now).1.resolved = 0 ∧
        (state.resolveDue config snapshots now).1.expired = 0
    · rw [if_pos hu, if_pos hu]
      rfl
    · rw [if_neg hu, if_neg hu]
      cases written <;> rfl

end Lemmas

/-- The two engines in step: the same controller, and the intended copy is the one that is kept with
the validation of the controller. -/
structure InStep (s t : ResolvingController F) : Prop where
  controller : t.controller = s.controller
  copy : t.previousController = s.previousController.map fun previous =>
    previous.withNativeValidation s.controller.nativeValidation

namespace InStep
variable {config : TradingConfig F} {s t : ResolvingController F}

omit [Scalar F] in
theorem start (controller : QuantMigrationState F) :
    InStep (ResolvingController.mk controller none) ⟨controller, none⟩ := ⟨rfl, rfl⟩

omit [Scalar F] in
theorem eq_of_none (h : InStep s t) (hs : s.previousController = none) : t = s := by
  obtain ⟨controller, copy⟩ := s
  obtain ⟨twin, twinCopy⟩ := t
  obtain ⟨hc, hp⟩ := h
  dsimp only at hs hc hp
  subst hs hc
  rw [hp]
  rfl

theorem begin (h : InStep s t) (snapshots : List (MarketSnapshot F)) (now : F) :
    InStep (s.begin config snapshots now) (t.begin config snapshots now) := by
  cases hs : s.previousController with
  | some previous =>
    have ht : t.previousController.isSome = true := by
      rw [h.copy, hs]
      rfl
    rw [ResolvingController.begin, ResolvingController.begin, hs, ht]
    exact h
  | none =>
    obtain rfl := h.eq_of_none hs
    rw [ResolvingController.begin]
    dsimp only
    split_ifs
    · exact h
    · exact ⟨rfl, by rw [hs]; rfl⟩
    · refine ⟨rfl, ?_⟩
      dsimp only
      rw [resolveDue_nativeValidation, Option.map_some, withNativeValidation_self]

theorem recordEvaluation (h : InStep s t) (evaluationId : String) (signal : QuantSignal F)
    (context : QuantEvaluationContext F) :
    InStep (s.recordEvaluation config evaluationId signal context)
      (t.recordEvaluation config evaluationId signal context) := by
  cases hs : s.previousController with
  | some previous =>
    have ht : t.previousController.isSome = true := by
      rw [h.copy, hs]
      rfl
    rw [ResolvingController.recordEvaluation, ResolvingController.recordEvaluation, hs, ht]
    exact h
  | none =>
    obtain rfl := h.eq_of_none hs
    rw [ResolvingController.recordEvaluation, hs]
    exact ⟨rfl, rfl⟩

omit [Scalar F] in
/-- The end of a persist keeps the engines in step exactly if the copy has what was published. -/
theorem persisted (h : InStep s t) (written : Bool) (hk : s.KeepsValidation (.persisted written)) :
    InStep (s.persisted written) (t.persisted written) := by
  cases hs : s.previousController with
  | none =>
    obtain rfl := h.eq_of_none hs
    rw [ResolvingController.persisted, hs]
    exact h
  | some previous =>
    have ht : t.previousController = some (previous.withNativeValidation s.controller.nativeValidation) := by
      rw [h.copy, hs]
      rfl
    rw [ResolvingController.persisted, ResolvingController.persisted, hs, ht]
    refine ⟨?_, rfl⟩
    cases written with
    | true => exact h.controller
    | false =>
      dsimp only
      rw [if_neg Bool.false_ne_true, if_neg Bool.false_ne_true, hk rfl previous hs,
        withNativeValidation_self]

theorem next (h : InStep s t) (event : ResolutionEvent F) (hk : s.KeepsValidation event) :
    InStep (s.next config event) (t.intended config event) := by
  cases event with
  | resolveDue snapshots now => exact h.begin snapshots now
  | persisted written => exact h.persisted written hk
  | nativeValidation promotionQualified selectedParameterId now =>
    obtain ⟨validation, hv⟩ :=
      recordNativeValidation_eq_with (F := F) promotionQualified selectedParameterId now
    constructor
    · simp only [ResolvingController.next, ResolvingController.intended, h.controller]
    · simp only [ResolvingController.next, ResolvingController.intended, h.copy, hv, Option.map_map]
      rfl
  | recordEvaluation evaluationId signal context => exact h.recordEvaluation evaluationId signal context

/-- A publication that the copy misses is lost by the failed persist. -/
theorem lost (h : InStep s t) (event : ResolutionEvent F) (hk : ¬ s.KeepsValidation event) :
    (s.next config event).controller ≠ (t.intended config event).controller := by
  unfold ResolvingController.KeepsValidation at hk
  push Not at hk
  obtain ⟨rfl, previous, hs, hne⟩ := hk
  have ht : t.previousController = some (previous.withNativeValidation s.controller.nativeValidation) := by
    rw [h.copy, Option.mem_def.mp hs]
    rfl
  simp only [ResolvingController.next, ResolvingController.intended, ResolvingController.persisted,
    Option.mem_def.mp hs, ht, Bool.false_eq_true, if_false]
  exact fun he => hne (withNativeValidation_inj he.symm)

end InStep

/-- Failed persists take back their resolutions and nothing else exactly in the runs in which no other
native validation is published between the copy and the failure. -/
theorem failed_persist_undoes_resolution_iff (config : TradingConfig F)
    (controller : QuantMigrationState F) (events : List (ResolutionEvent F)) :
    (∀ before, before <+: events →
      (run (ResolvingController.next config) ⟨controller, none⟩ before).controller =
        (run (ResolvingController.intended config) ⟨controller, none⟩ before).controller) ↔
    Along (ResolvingController.next config) ResolvingController.KeepsValidation ⟨controller, none⟩
      events := by
  refine (along_iff_agree (ResolvingController.next config)
    (ResolvingController.intended config) (R := InStep)
    (P := fun s t => s.controller = t.controller) ?_ ?_ ?_ (InStep.start controller)).symm
  · exact fun s t event h hk => h.next event hk
  · exact fun s t h => h.controller.symm
  · exact fun s t event h hk => h.lost event hk

/-- A sample whose markets have no quote when it expires. -/
def expiringEvaluation : QuantPendingEvaluation ℚ where
  evaluationId := "sample"
  createdAt := 0
  dueAt := 60
  expiresAt := 360
  exchange := "binance"
  symbol := "BTC/USDT"
  entryPrice := 64
  activeParameterId := "balanced-v1"
  llmExchange := "binance"
  llmSymbol := "BTC/USDT"
  llmEntryPrice := 64
  llmSignal := none
  llmActionable := false
  predictions := []

def validatedController : QuantMigrationState ℚ :=
  { QuantMigrationState.default with
    pending := [expiringEvaluation]
    nativeValidationParameterId := some "balanced-v1"
    nativeValidationAt := some 0 }

/-- The backtest withdraws its validation while the resolution is being persisted in vain. -/
def withdrawnEvents : List (ResolutionEvent ℚ) :=
  [.resolveDue [] 360, .nativeValidation false none 361, .persisted false]

/-- The withdrawn validation comes back. -/
theorem withdrawn_validation_returns :
    ¬ ∀ before, before <+: withdrawnEvents →
      (run (ResolvingController.next (sampleConfig 3 1 (by decide) (by decide)).toTradingConfig)
        ⟨validatedController, none⟩ before).controller =
      (run (ResolvingController.intended (sampleConfig 3 1 (by decide) (by decide)).toTradingConfig)
        ⟨validatedController, none⟩ before).controller := by
  intro h
  have hend := congrArg QuantMigrationState.nativeValidation (h withdrawnEvents List.prefix_rfl)
  exact absurd hend (by decide +kernel)

end Gail.Trading
