import Gail.Library.Saturating
import Gail.Trading.ConfigOverrides

/-! Qualification for live trading by intents on paper: a window of evidence, which belongs to the
fingerprint of the build, the decision-affecting models and the settings of the deployment. -/
namespace Gail.Trading

/-- The settings without the two credentials, which no fingerprint shows. `rest` is what neither
decisions nor the qualification read. -/
structure PublicTradingConfig (F ρ : Type) where
  decision : DecisionConfig F
  paperQualificationMinEvaluations : Nat
  paperQualificationMinValidatedIntents : Nat
  paperQualificationValiditySeconds : Nat
  executionLeaseSeconds : F
  liveExecutionEnabled : Bool
  liveExecutionAutoGateEnabled : Bool
  rest : ρ
  deriving DecidableEq

structure DeployedTradingConfig (F ρ : Type) extends PublicTradingConfig F ρ where
  octobotPassword : String
  refinerApiToken : String

/-- What the fingerprint is a digest of. -/
structure DecisionMaterial (F ρ : Type) where
  fingerprintVersion : Nat
  buildRevision : String
  decisionAffectingElmModels : Option String
  tradingDecisionConfig : PublicTradingConfig F ρ
  deriving DecidableEq

/-- `{build}:decision:{digest}`; the digest has a fixed length. -/
structure DecisionFingerprint (δ : Type) where
  buildRevision : String
  digest : δ
  deriving DecidableEq

structure PaperQualificationPolicy (F : Type) where
  minEvaluations : Nat
  minValidatedIntents : Nat
  validitySeconds : F
  intentLeaseSeconds : F

/-- The revision is missing, where the source has an empty text, until the first observation. -/
structure PaperQualificationState (F δ : Type) where
  buildRevision : Option (DecisionFingerprint δ)
  startedAt : Option F
  lastObservationAt : Option F
  qualifiedAt : Option F
  evaluationCountAtStart : Nat
  observedEvaluations : Nat
  validatedIntents : Nat
  duplicateIntentsRejected : Nat
  recentIntents : String → Option F

section Definitions
variable {F ρ δ : Type} [Scalar F]

/-- SHA-256 of the material as JSON is a parameter. -/
def paperDecisionFingerprint (digest : DecisionMaterial F ρ → δ) (buildRevision : String)
    (elmModelFingerprint : Option String) (config : DeployedTradingConfig F ρ) : DecisionFingerprint δ :=
  { buildRevision
    digest := digest
      { fingerprintVersion := 2
        buildRevision
        decisionAffectingElmModels := elmModelFingerprint
        tradingDecisionConfig := config.toPublicTradingConfig } }

def PublicTradingConfig.paperPolicy (config : PublicTradingConfig F ρ) : PaperQualificationPolicy F :=
  { minEvaluations := config.paperQualificationMinEvaluations
    minValidatedIntents := config.paperQualificationMinValidatedIntents
    validitySeconds := Scalar.ofCount config.paperQualificationValiditySeconds
    intentLeaseSeconds := config.executionLeaseSeconds }

namespace PaperQualificationState

def empty : PaperQualificationState F δ :=
  { buildRevision := none, startedAt := none, lastObservationAt := none, qualifiedAt := none
    evaluationCountAtStart := 0, observedEvaluations := 0, validatedIntents := 0
    duplicateIntentsRejected := 0, recentIntents := fun _ => none }

variable (state : PaperQualificationState F δ)

def meetsCounts (policy : PaperQualificationPolicy F) : Bool :=
  decide (policy.minEvaluations ≤ state.observedEvaluations) &&
    decide (policy.minValidatedIntents ≤ state.validatedIntents)

def startWindow (revision : DecisionFingerprint δ) (evaluationCount : Nat) (now : F) :
    PaperQualificationState F δ :=
  { (empty : PaperQualificationState F δ) with
    buildRevision := some revision, startedAt := some now, evaluationCountAtStart := evaluationCount }

/-- The evidence of a qualification is too old. -/
def expired (now : F) (policy : PaperQualificationPolicy F) : Bool :=
  state.qualifiedAt.any fun qualifiedAt =>
    decide (Scalar.max policy.validitySeconds 1.0 < now - qualifiedAt)

variable [DecidableEq δ]

/-- An intent of this revision joins the evidence that there is. -/
def continues (revision : DecisionFingerprint δ) (now : F) (policy : PaperQualificationPolicy F) : Bool :=
  decide (state.buildRevision = some revision) && !state.expired now policy

def resetForRevision (revision : DecisionFingerprint δ) (evaluationCount : Nat) (now : F) :
    PaperQualificationState F δ :=
  if state.buildRevision = some revision then state else startWindow revision evaluationCount now

/-- The window that an observation is made in. -/
def window (revision : DecisionFingerprint δ) (evaluationCount : Nat) (now : F)
    (policy : PaperQualificationPolicy F) : PaperQualificationState F δ :=
  let reset := state.resetForRevision revision evaluationCount now
  if reset.expired now policy then startWindow revision evaluationCount now else reset

/-- The state after an intent, and whether it is a new one. -/
def observeIntent (revision : DecisionFingerprint δ) (intentKey : String) (evaluationCount : Nat) (now : F)
    (policy : PaperQualificationPolicy F) : PaperQualificationState F δ × Bool :=
  let state := state.window revision evaluationCount now policy
  let recent := fun key => (state.recentIntents key).filter fun expiresAt => decide (now < expiresAt)
  let isNew := (recent intentKey).isNone
  let observed := { state with
    observedEvaluations := max state.observedEvaluations (evaluationCount - state.evaluationCountAtStart)
    lastObservationAt := some now
    validatedIntents :=
      if isNew then saturatingSucc state.validatedIntents else state.validatedIntents
    duplicateIntentsRejected :=
      if isNew then state.duplicateIntentsRejected else saturatingSucc state.duplicateIntentsRejected
    recentIntents :=
      if isNew then
        Function.update recent intentKey (some (now + Scalar.max policy.intentLeaseSeconds 1.0))
      else recent }
  ({ observed with
      qualifiedAt := if observed.meetsCounts policy then observed.qualifiedAt.or (some now)
        else observed.qualifiedAt }, isNew)

def isQualified (revision : DecisionFingerprint δ) (now : F) (policy : PaperQualificationPolicy F) : Bool :=
  decide (state.buildRevision = some revision) && state.meetsCounts policy &&
    state.qualifiedAt.any fun qualifiedAt =>
      decide (now - qualifiedAt ≤ Scalar.max policy.validitySeconds 1.0)

variable {state} {revision : DecisionFingerprint δ} {intentKey : String} {evaluationCount : Nat} {now : F}
  {policy : PaperQualificationPolicy F}

/-- A window that does not continue begins without evidence. -/
theorem window_eq : state.window revision evaluationCount now policy =
    if state.continues revision now policy then state else startWindow revision evaluationCount now := by
  unfold window resetForRevision continues
  by_cases hr : state.buildRevision = some revision
  · rw [if_pos hr, decide_eq_true hr, Bool.true_and]
    cases he : state.expired now policy <;> simp [he]
  · have hfresh : (startWindow revision evaluationCount now : PaperQualificationState F δ).expired now
        policy = false := rfl
    rw [if_neg hr, decide_eq_false hr, Bool.false_and]
    simp [hfresh]

/-- After an observation the window is that of the fingerprint it was made with. -/
theorem observeIntent_buildRevision :
    (state.observeIntent revision intentKey evaluationCount now policy).1.buildRevision =
      some revision := by
  change (state.window revision evaluationCount now policy).buildRevision = some revision
  rw [window_eq]
  split
  · next h => exact of_decide_eq_true (Bool.and_eq_true_iff.mp h).1
  · rfl

theorem isQualified_buildRevision (h : state.isQualified revision now policy = true) :
    state.buildRevision = some revision := by
  unfold isQualified at h
  rw [Bool.and_eq_true, Bool.and_eq_true, decide_eq_true_eq] at h
  exact h.1.1

end PaperQualificationState

end Definitions

end Gail.Trading
