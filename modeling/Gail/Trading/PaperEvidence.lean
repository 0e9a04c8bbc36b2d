import Gail.Trading.BacktestTuning
import Gail.Trading.PaperQualification

/-! Runs of the bridge as the qualification sees them: decisions are made, wait, and are then either
counted as evidence or sent as live orders, while overrides, models, settings and builds change. -/
namespace Gail.Trading
open Gail.Library

/-- What a decision goes by, besides the market. -/
structure DecisionBasis (F ρ : Type) where
  config : PublicTradingConfig F ρ
  overrides : Option (TradingConfigOverride F)
  models : Option String

/-- A decision that waits for its execution. -/
structure PlannedIntent (F ρ : Type) where
  intentKey : String
  overrideApplied : Bool
  basis : DecisionBasis F ρ

/-- A review, with the fingerprint of the models that it has begun with. -/
structure PlannedReview (F ρ : Type) where
  modelFingerprint : Option String
  plan : Option (PlannedIntent F ρ)

/-- A live order, with the evidence that it was let through on. -/
structure LiveOrder (F ρ : Type) where
  basis : DecisionBasis F ρ
  evidence : List (DecisionBasis F ρ)

/-- The part of the state that a file holds. `evidence` says what the intents of the window were
decided by. -/
structure DurableState (F ρ δ : Type) where
  tuning : TuningWorld F
  evaluationCount : Nat
  qualification : PaperQualificationState F δ
  evidence : List (DecisionBasis F ρ)

structure PaperWorld (F ρ δ : Type) where
  build : String
  config : DeployedTradingConfig F ρ
  models : Option String
  state : DurableState F ρ δ
  file : Option (DurableState F ρ δ)
  main : Option (PlannedIntent F ρ)
  review : Option (PlannedReview F ρ)
  orders : List (LiveOrder F ρ)

inductive PaperEvent (F ρ : Type) where
  /-- One of the writers of the overrides. -/
  | configWrite (event : TuningEvent F)
  /-- A decision-affecting model is promoted, demoted or replaced. -/
  | modelsChanged (models : Option String)
  | evaluated
  /-- The main evaluation decides. -/
  | decide (intentKey : String) (overrideApplied : Bool)
  | startReview
  | decideReview (intentKey : String) (overrideApplied : Bool)
  /-- The decision has passed every gate before the qualification. -/
  | execute (now : F) (profitabilityQualified : Bool)
  | completeReview (now : F) (profitabilityQualified : Bool)
  | dropPlan
  | dropReview
  | persist
  | restart (build : String) (config : DeployedTradingConfig F ρ) (models : Option String)
      (readBack : Bool)

section Definitions
variable {F ρ δ : Type} [AmountScalar F]

/-- The effective settings and the models. -/
def DecisionBasis.policy (basis : DecisionBasis F ρ) : EffectiveConfig F × Option String :=
  (basis.config.decision.effective basis.overrides, basis.models)

def DurableState.fresh (overrides : Option (TradingConfigOverride F)) : DurableState F ρ δ :=
  { tuning := .start overrides, evaluationCount := 0, qualification := .empty, evidence := [] }

namespace PaperWorld

def start (build : String) (config : DeployedTradingConfig F ρ) (models : Option String)
    (overrides : Option (TradingConfigOverride F)) : PaperWorld F ρ δ :=
  { build, config, models, state := .fresh overrides, file := none, main := none, review := none
    orders := [] }

variable (digest : DecisionMaterial F ρ → δ) (w : PaperWorld F ρ δ)

/-- What a decision goes by now. -/
def basis : DecisionBasis F ρ :=
  { config := w.config.toPublicTradingConfig, overrides := w.state.tuning.state.configOverrides
    models := w.models }

def revision (modelFingerprint : Option String) : DecisionFingerprint δ :=
  paperDecisionFingerprint digest w.build modelFingerprint w.config

variable [DecidableEq δ]

/-- `effective_live_execution`. -/
def live (modelFingerprint : Option String) (now : F) (profitabilityQualified : Bool) : Bool :=
  let paperQualified :=
    w.state.qualification.isQualified (w.revision digest modelFingerprint) now w.config.paperPolicy
  let autoLiveReady :=
    w.config.liveExecutionAutoGateEnabled && paperQualified && profitabilityQualified
  (w.config.liveExecutionEnabled || autoLiveReady) && paperQualified && profitabilityQualified

/-- The intent counts as evidence, unless it repeats a recent one. -/
def observe (plan : PlannedIntent F ρ) (modelFingerprint : Option String) (now : F) :
    DurableState F ρ δ :=
  let revision := w.revision digest modelFingerprint
  let observed := w.state.qualification.observeIntent revision plan.intentKey
    (w.state.evaluationCount + 1) now w.config.paperPolicy
  let kept :=
    if w.state.qualification.continues revision now w.config.paperPolicy then w.state.evidence else []
  { w.state with
    qualification := observed.1
    evidence := kept ++ if observed.2 then [plan.basis] else [] }

/-- `execute_if_warranted`, from the qualification on. -/
def qualify (plan : PlannedIntent F ρ) (modelFingerprint : Option String) (now : F)
    (profitabilityQualified : Bool) : PaperWorld F ρ δ :=
  if w.live digest modelFingerprint now profitabilityQualified then
    { w with orders := w.orders ++ [{ basis := plan.basis, evidence := w.state.evidence }] }
  else if plan.overrideApplied then w
  else { w with state := w.observe digest plan modelFingerprint now }

def step (w : PaperWorld F ρ δ) : PaperEvent F ρ → PaperWorld F ρ δ
  | .configWrite event =>
    { w with state := { w.state with tuning := TuningWorld.step w.config.decision w.state.tuning event } }
  | .modelsChanged models => { w with models }
  | .evaluated => { w with state := { w.state with evaluationCount := w.state.evaluationCount + 1 } }
  | .decide intentKey overrideApplied =>
    { w with main := some { intentKey, overrideApplied, basis := w.basis } }
  | .startReview =>
    if w.review.isSome then w else { w with review := some { modelFingerprint := w.models, plan := none } }
  | .decideReview intentKey overrideApplied =>
    { w with review := w.review.map fun review =>
        { review with plan := some { intentKey, overrideApplied, basis := w.basis } } }
  | .execute now profitabilityQualified =>
    match w.main with
    | some plan => { w.qualify digest plan w.models now profitabilityQualified with main := none }
    | none => w
  | .completeReview now profitabilityQualified =>
    match w.review with
    | some review =>
      match review.plan with
      | some plan =>
        if review.modelFingerprint = w.models then
          { w.qualify digest plan review.modelFingerprint now profitabilityQualified with review := none }
        else { w with review := none }
      | none => { w with review := none }
    | none => w
  | .dropPlan => { w with main := none }
  | .dropReview => { w with review := none }
  | .persist => { w with file := some w.state }
  | .restart build config models readBack =>
    { w with
      build, config, models, main := none, review := none
      state := ((if readBack then w.file else none).getD (.fresh none)) }

/-- The intents of the window were all decided under one policy. -/
def OnePolicy : Prop := ∀ p ∈ w.state.evidence, ∀ q ∈ w.state.evidence, p.policy = q.policy

/-- Every live order was let through on evidence of its own policy. -/
def Authorised : Prop := ∀ order ∈ w.orders, ∀ p ∈ order.evidence, p.policy = order.basis.policy

/-- The intent joins the evidence, or begins a window. -/
def joins (plan : PlannedIntent F ρ) (modelFingerprint : Option String) (now : F) : Bool :=
  !plan.overrideApplied &&
    (w.state.qualification.observeIntent (w.revision digest modelFingerprint) plan.intentKey
      (w.state.evaluationCount + 1) now w.config.paperPolicy).2

/-- What is let through or counted goes by the models that its fingerprint names, and by overrides that
make the same effective settings as those of the evidence that it is set beside. -/
def Comparable (plan : PlannedIntent F ρ) (modelFingerprint : Option String) (now : F)
    (profitabilityQualified : Bool) : Prop :=
  w.live digest modelFingerprint now profitabilityQualified = true ∨
      w.joins digest plan modelFingerprint now = true →
    plan.basis.models = modelFingerprint ∧
      (w.live digest modelFingerprint now profitabilityQualified = true ∨
          w.state.qualification.continues (w.revision digest modelFingerprint) now
            w.config.paperPolicy = true →
        ∀ p ∈ w.state.evidence, w.config.decision.effective p.overrides =
          w.config.decision.effective plan.basis.overrides)

/-- Every execution of a run is comparable. -/
def Guard (w : PaperWorld F ρ δ) : PaperEvent F ρ → Prop
  | .execute now profitabilityQualified =>
    ∀ plan ∈ w.main, w.Comparable digest plan w.models now profitabilityQualified
  | .completeReview now profitabilityQualified =>
    ∀ review ∈ w.review, ∀ plan ∈ review.plan, review.modelFingerprint = w.models →
      w.Comparable digest plan review.modelFingerprint now profitabilityQualified
  | _ => True

section Decidable
variable [DecidableEq F]

instance (plan : PlannedIntent F ρ) (modelFingerprint : Option String) (now : F)
    (profitabilityQualified : Bool) :
    Decidable (w.Comparable digest plan modelFingerprint now profitabilityQualified) :=
  inferInstanceAs (Decidable (_ → _))

instance (w : PaperWorld F ρ δ) : (event : PaperEvent F ρ) → Decidable (w.Guard digest event)
  | .execute _ _ => inferInstanceAs (Decidable (∀ plan ∈ w.main, _))
  | .completeReview _ _ => inferInstanceAs (Decidable (∀ review ∈ w.review, ∀ plan ∈ review.plan, _))
  | .configWrite _ | .modelsChanged _ | .evaluated | .decide _ _ | .startReview | .decideReview _ _
  | .dropPlan | .dropReview | .persist | .restart _ _ _ _ => isTrue trivial

end Decidable

end PaperWorld
end Definitions

section Results
variable {F ρ δ : Type} [AmountScalar F] {digest : DecisionMaterial F ρ → δ}

/-- The evidence belongs to the fingerprint of its window, and is all of one policy. -/
structure DurableState.Sound (digest : DecisionMaterial F ρ → δ) (d : DurableState F ρ δ) : Prop where
  origin : ∀ p ∈ d.evidence, ∃ build, d.qualification.buildRevision = some
    { buildRevision := build
      digest := digest
        { fingerprintVersion := 2, buildRevision := build, decisionAffectingElmModels := p.models
          tradingDecisionConfig := p.config } }
  onePolicy : ∀ p ∈ d.evidence, ∀ q ∈ d.evidence, p.policy = q.policy

namespace DurableState

theorem Sound.fresh (overrides : Option (TradingConfigOverride F)) :
    (DurableState.fresh overrides : DurableState F ρ δ).Sound digest where
  origin := fun _ h => nomatch h
  onePolicy := fun _ h => nomatch h

end DurableState

namespace PaperWorld
variable {w : PaperWorld F ρ δ} {plan : PlannedIntent F ρ} {modelFingerprint : Option String} {now : F}
  {profitabilityQualified : Bool}

/-- Evidence of the fingerprint of the moment was decided under the settings of the moment, with the
models that the fingerprint names. -/
theorem evidence_eq (hd : Function.Injective digest) (h : w.state.Sound digest)
    (hr : w.state.qualification.buildRevision = some (w.revision digest modelFingerprint)) :
    ∀ p ∈ w.state.evidence, p.config = w.config.toPublicTradingConfig ∧ p.models = modelFingerprint := by
  intro p hp
  obtain ⟨build, horigin⟩ := h.origin p hp
  have hsame := (DecisionFingerprint.mk.inj (Option.some.inj (horigin.symm.trans hr))).2
  have hmaterial := DecisionMaterial.mk.inj (hd hsame)
  exact ⟨hmaterial.2.2.2, hmaterial.2.2.1⟩

/-- Comparable evidence is of the policy of the decision. -/
theorem evidence_policy (hd : Function.Injective digest) (h : w.state.Sound digest)
    (hr : w.state.qualification.buildRevision = some (w.revision digest modelFingerprint))
    (hconfig : plan.basis.config = w.config.toPublicTradingConfig)
    (hmodels : plan.basis.models = modelFingerprint)
    (heffective : ∀ p ∈ w.state.evidence, w.config.decision.effective p.overrides =
      w.config.decision.effective plan.basis.overrides) :
    ∀ p ∈ w.state.evidence, p.policy = plan.basis.policy := by
  intro p hp
  obtain ⟨hc, hm⟩ := evidence_eq hd h hr p hp
  unfold DecisionBasis.policy
  rw [hc, hm, hconfig, hmodels, heffective p hp]

/-- What holds all along: sound evidence, in memory and in the file, live orders that were let through
on evidence of their own policy, and plans of this process. -/
structure Orderly (digest : DecisionMaterial F ρ → δ) (w : PaperWorld F ρ δ) : Prop where
  state : w.state.Sound digest
  file : ∀ d ∈ w.file, d.Sound digest
  authorised : w.Authorised
  main : ∀ plan ∈ w.main, plan.basis.config = w.config.toPublicTradingConfig
  review : ∀ review ∈ w.review, ∀ plan ∈ review.plan,
    plan.basis.config = w.config.toPublicTradingConfig

theorem Orderly.start (build : String) (config : DeployedTradingConfig F ρ) (models : Option String)
    (overrides : Option (TradingConfigOverride F)) :
    (PaperWorld.start build config models overrides : PaperWorld F ρ δ).Orderly digest where
  state := .fresh overrides
  file := fun _ h => nomatch h
  authorised := fun _ h => nomatch h
  main := fun _ h => nomatch h
  review := fun _ h => nomatch h

variable [DecidableEq δ]

theorem live_isQualified (h : w.live digest modelFingerprint now profitabilityQualified = true) :
    w.state.qualification.isQualified (w.revision digest modelFingerprint) now w.config.paperPolicy =
      true := by
  unfold live at h
  rw [Bool.and_eq_true, Bool.and_eq_true] at h
  exact h.1.2

/-- A comparable intent leaves the evidence sound. -/
theorem Sound.observe (hd : Function.Injective digest) (h : w.state.Sound digest)
    (hconfig : plan.basis.config = w.config.toPublicTradingConfig) (hauto : plan.overrideApplied = false)
    (hg : w.joins digest plan modelFingerprint now = true → plan.basis.models = modelFingerprint ∧
      (w.state.qualification.continues (w.revision digest modelFingerprint) now w.config.paperPolicy =
          true →
        ∀ p ∈ w.state.evidence, w.config.decision.effective p.overrides =
          w.config.decision.effective plan.basis.overrides)) :
    (w.observe digest plan modelFingerprint now).Sound digest := by
  -- What the window holds after it: evidence of its fingerprint, and the intent if it is new.
  have hmem : ∀ p ∈ (w.observe digest plan modelFingerprint now).evidence,
      (w.state.qualification.continues (w.revision digest modelFingerprint) now w.config.paperPolicy =
          true ∧ p ∈ w.state.evidence ∧ p.config = w.config.toPublicTradingConfig ∧
          p.models = modelFingerprint) ∨
        w.joins digest plan modelFingerprint now = true ∧ p = plan.basis := by
    intro p hp
    rcases List.mem_append.mp hp with hp | hp
    · split at hp
      · next hc =>
        have hr := of_decide_eq_true (Bool.and_eq_true_iff.mp hc).1
        exact .inl ⟨hc, hp, evidence_eq hd h hr p hp⟩
      · cases hp
    · split at hp
      · next hnew =>
        refine .inr ⟨?_, List.mem_singleton.mp hp⟩
        unfold joins
        rw [hauto, hnew]
        rfl
      · cases hp
  -- Where the intent joins, all of it is of the policy of the intent.
  have hjoined : w.joins digest plan modelFingerprint now = true →
      ∀ p ∈ (w.observe digest plan modelFingerprint now).evidence, p.policy = plan.basis.policy := by
    intro hj p hp
    obtain ⟨hmodels, heffective⟩ := hg hj
    rcases hmem p hp with ⟨hc, hp, -⟩ | ⟨-, rfl⟩
    · have hr := of_decide_eq_true (Bool.and_eq_true_iff.mp hc).1
      exact evidence_policy hd h hr hconfig hmodels (heffective hc) p hp
    · rfl
  constructor
  · intro p hp
    refine ⟨w.build, ?_⟩
    have hbasis : p.config = w.config.toPublicTradingConfig ∧ p.models = modelFingerprint := by
      rcases hmem p hp with ⟨-, -, hsame⟩ | ⟨hj, rfl⟩
      · exact hsame
      · exact ⟨hconfig, (hg hj).1⟩
    rw [hbasis.1, hbasis.2]
    exact PaperQualificationState.observeIntent_buildRevision
  · intro p hp q hq
    rcases hmem p hp with ⟨-, hpold, -⟩ | ⟨hj, rfl⟩
    · rcases hmem q hq with ⟨-, hqold, -⟩ | ⟨hj, rfl⟩
      · exact h.onePolicy p hpold q hqold
      · exact hjoined hj p hp
    · exact (hjoined hj q hq).symm

theorem Orderly.qualify (hd : Function.Injective digest) (h : w.Orderly digest)
    (hconfig : plan.basis.config = w.config.toPublicTradingConfig)
    (hg : w.Comparable digest plan modelFingerprint now profitabilityQualified) :
    (w.qualify digest plan modelFingerprint now profitabilityQualified).Orderly digest := by
  unfold PaperWorld.qualify
  split
  · next hlive =>
    obtain ⟨hmodels, heffective⟩ := hg (.inl hlive)
    have hr := PaperQualificationState.isQualified_buildRevision (live_isQualified hlive)
    refine { h with authorised := ?_ }
    intro order ho
    rcases List.mem_append.mp ho with ho | ho
    · exact h.authorised order ho
    · rw [List.mem_singleton.mp ho]
      exact evidence_policy hd h.state hr hconfig hmodels (heffective (.inl hlive))
  · split
    · exact h
    · next hauto =>
      refine { h with state := Sound.observe hd h.state hconfig (by simpa using hauto) ?_ }
      intro hj
      obtain ⟨hmodels, heffective⟩ := hg (.inr hj)
      exact ⟨hmodels, fun hc => heffective (.inr hc)⟩

/-- One step keeps all of it, when what it executes is comparable. -/
theorem Orderly.step (hd : Function.Injective digest) (h : w.Orderly digest) (event : PaperEvent F ρ)
    (hg : w.Guard digest event) : (w.step digest event).Orderly digest := by
  cases event with
  | configWrite event => exact { h with state := ⟨h.state.origin, h.state.onePolicy⟩ }
  | modelsChanged models => exact { h with }
  | evaluated => exact { h with state := ⟨h.state.origin, h.state.onePolicy⟩ }
  | decide intentKey overrideApplied =>
    refine { h with main := ?_ }
    intro plan hp
    rw [← Option.some.inj hp]
    rfl
  | startReview =>
    unfold PaperWorld.step
    dsimp only
    split
    · exact h
    · refine { h with review := ?_ }
      intro review hr plan hp
      rw [← Option.some.inj hr] at hp
      cases hp
  | decideReview intentKey overrideApplied =>
    refine { h with review := ?_ }
    intro review hr plan hp
    obtain ⟨before, -, rfl⟩ := Option.map_eq_some_iff.mp hr
    rw [← Option.some.inj hp]
    rfl
  | execute now profitabilityQualified =>
    unfold PaperWorld.step
    dsimp only
    split
    · next plan hm =>
      exact { h.qualify hd (h.main plan hm) (hg plan hm) with main := fun _ hp => nomatch hp }
    · exact h
  | completeReview now profitabilityQualified =>
    unfold PaperWorld.step
    dsimp only
    split
    · next review hr =>
      split
      · next plan hp =>
        split
        · next hsame =>
          exact { h.qualify hd (h.review review hr plan hp) (hg review hr plan hp hsame) with
            review := fun _ hp => nomatch hp }
        · exact { h with review := fun _ hp => nomatch hp }
      · exact { h with review := fun _ hp => nomatch hp }
    · exact h
  | dropPlan => exact { h with main := fun _ hp => nomatch hp }
  | dropReview => exact { h with review := fun _ hp => nomatch hp }
  | persist =>
    refine { h with file := ?_ }
    intro d hd
    rw [← Option.some.inj hd]
    exact h.state
  | restart build config models readBack =>
    refine { h with state := ?_, main := (fun _ hp => nomatch hp), review := (fun _ hp => nomatch hp) }
    change (((if readBack then w.file else none).getD (.fresh none)) : DurableState F ρ δ).Sound digest
    cases hf : w.file with
    | none => cases readBack <;> exact .fresh none
    | some d =>
      cases readBack with
      | false => exact .fresh none
      | true => exact h.file d hf

end PaperWorld

open PaperWorld

variable [DecidableEq δ]

/-- In a run in which all that is executed is comparable, the evidence of the window is always of one
policy, and so is that of every live order, which is of this policy as well. -/
theorem paper_evidence_one_policy (hd : Function.Injective digest) (build : String)
    (config : DeployedTradingConfig F ρ) (models : Option String)
    (overrides : Option (TradingConfigOverride F)) (events : List (PaperEvent F ρ))
    (hg : Along (PaperWorld.step digest) (Guard digest) (start build config models overrides) events) :
    (run (PaperWorld.step digest) (start build config models overrides) events).OnePolicy ∧
      (run (PaperWorld.step digest) (start build config models overrides) events).Authorised := by
  have hstep : ∀ w event, Orderly digest w → Guard digest w event →
      Orderly digest (PaperWorld.step digest w event) :=
    fun w event h hg => h.step hd event hg
  have h := run_invariant (PaperWorld.step digest) hstep (Orderly.start build config models overrides) hg
  exact ⟨h.state.onePolicy, h.authorised⟩

end Results

section Sample
open PaperWorld

/-- Two intents qualify, and live orders are permitted. -/
def sampleDeployment : DeployedTradingConfig ℚ Unit :=
  { decision := defaultDecisionConfig
    paperQualificationMinEvaluations := 1
    paperQualificationMinValidatedIntents := 2
    paperQualificationValiditySeconds := 86400
    executionLeaseSeconds := 30
    liveExecutionEnabled := true
    liveExecutionAutoGateEnabled := false
    rest := ()
    octobotPassword := "p"
    refinerApiToken := "t" }

/-- Two intents on paper and a live order; `between` happens after the first intent. -/
def qualifyingRun (between : List (PaperEvent ℚ Unit)) : List (PaperEvent ℚ Unit) :=
  [.decide "BUY|BTC/USDT" false, .execute 0 true, .evaluated] ++ between ++
    [.decide "BUY|ETH/USDT" false, .execute 60 true, .decide "BUY|SOL/USDT" false, .execute 120 true]

def sampleStart : PaperWorld ℚ Unit (DecisionMaterial ℚ Unit) := start "build-1" sampleDeployment none none

theorem qualifyingRun_one_policy :
    Along (PaperWorld.step id) (Guard id) sampleStart (qualifyingRun []) ∧
      (run (PaperWorld.step id) sampleStart (qualifyingRun [])).orders.length = 1 ∧
      (run (PaperWorld.step id) sampleStart (qualifyingRun [])).OnePolicy := by
  have hg : Along (PaperWorld.step id) (Guard id) sampleStart (qualifyingRun []) := by decide +kernel
  exact ⟨hg, by decide +kernel,
    (paper_evidence_one_policy Function.injective_id "build-1" sampleDeployment none none _ hg).1⟩

/-- The operator lowers the confidence gate between the two intents. -/
def gateLowered : List (PaperEvent ℚ Unit) :=
  [.configWrite (.setConfig { TradingConfigOverride.none with fuzzyConfidenceThreshold := some 0.1 })]

/-- The fingerprint stays the same, both intents count in one window, and a live order is sent on
them. -/
theorem gateLowered_mixed_evidence :
    ((run (PaperWorld.step id) sampleStart (qualifyingRun gateLowered)).revision id none =
        sampleStart.revision id none) ∧
      ¬ (run (PaperWorld.step id) sampleStart (qualifyingRun gateLowered)).OnePolicy ∧
      ¬ (run (PaperWorld.step id) sampleStart (qualifyingRun gateLowered)).Authorised := by
  unfold OnePolicy Authorised
  decide +kernel

end Sample

end Gail.Trading
