import Gail.Elm.Admission

/-! What an admitted request makes of the answer of its model: the advisory of a task, or the score of
a routing candidate. -/
namespace Gail.Elm
open Gail.Trading

/-- The `Display` text of an error. -/
def ElmError.display : ElmError → String
  | .invalidInput message => "invalid ELM input: " ++ message
  | .numerical message => "ELM numerical error: " ++ message
  | .artifact message => "ELM artifact error: " ++ message
  | .schemaMismatch => "feature schema mismatch"
  | .uncalibrated => "classification artifact is not calibrated"
  | .queueFull => "bounded ELM inference queue is full"
  | .revisionConflict => "model registry revision changed"

structure InferenceResult (F : Type) where
  values : List F
  elapsedMs : F

/-- The arguments `valid_result` and `count_failure` of `record_elm_inference_result`. -/
structure InferenceReport where
  valid : Bool
  counted : Bool
  deriving DecidableEq, Repr

structure ElmAdvisoryResult (F : Type) where
  taskId : String
  modelDigest : Option String
  proposal : Option F
  uncertainty : Option F
  applied : Bool
  influenceCap : F
  reason : Option String

inductive DecisionOutcome where
  | applied
  | shadowed
  | abstained
  | baselineSelected
  deriving DecidableEq, Repr

/-- A request for an advisory (`elm_advisory`) or for a routing score (`routing_elm_score`). -/
inductive ElmRequest (F : Type) where
  | advisory (context : DecisionContext F) (targetUnit : String)
  | routing (context : DecisionContext F) (tradingContext knownProvider : Bool) (baseScore : F)

/-- What the caller gets. -/
inductive ElmOutcome (F : Type) where
  | advisory (result : Option (ElmAdvisoryResult F))
  | score (score : F) (outcome : DecisionOutcome)

/-- The decision was changed by the model. -/
def ElmOutcome.applied {F : Type} : ElmOutcome F → Bool
  | .advisory result => result.any ElmAdvisoryResult.applied
  | .score _ outcome => outcome = .applied

def routingTask : String := "routing_candidate_utility"

def ElmRequest.context {F : Type} : ElmRequest F → DecisionContext F
  | .advisory context _ => context
  | .routing context _ _ _ => { context with taskId := routingTask }

section Outcomes
variable {F : Type} [Scalar F]

def isZero (x : F) : Bool := !(x < 0.0) && !(0.0 < x)

/-- The operator's trading envelope applies to the decision. -/
def ElmRequest.isTrading : ElmRequest F → Bool
  | .advisory context _ => context.taskId == "quant_net_edge" || context.taskId == "trading_advisory"
  | .routing _ tradingContext _ _ => tradingContext

def ElmRequest.influenceCap (request : ElmRequest F) (config : ElmConfig F) (liveExecution : Bool)
    (gated : GatedModel F) : F :=
  if request.isTrading then config.trading.effectiveInfluenceCap gated.influenceCap liveExecution
  else gated.influenceCap

/-- An advisory without a proposal. -/
def declined (context : DecisionContext F) (digest : Option String) (reason : String) : ElmOutcome F :=
  .advisory (some
    { taskId := context.taskId, modelDigest := digest, proposal := none, uncertainty := none
      applied := false, influenceCap := 0.0, reason := some reason })

/-- The answer where no model is admitted. -/
def ElmRequest.baseline (request : ElmRequest F) (gated : GatedModel F) : ElmOutcome F :=
  match request with
  | .advisory context _ =>
    if gated.mode = .off ∨ gated.mode = .collect then .advisory none
    else declined context none (gated.reason.getD .qualifiedModelUnavailable).debug
  | .routing _ _ _ baseScore => .score baseScore .baselineSelected

/-- The check between admission and claim, and the answer where it fails. -/
def ElmRequest.mismatch (request : ElmRequest F) (artifact : ElmArtifact) (details : ModelDetails F) :
    Option (ElmOutcome F) :=
  match request with
  | .advisory context targetUnit =>
    if details.taskKind ≠ .regression ∨ details.targetUnits.head? ≠ some targetUnit then
      some (declined context (some artifact.contentSha256) "target_semantics_mismatch")
    else none
  | .routing _ _ knownProvider baseScore =>
    if knownProvider then none else some (.score baseScore .abstained)

/-- The answer where the claim is not granted. -/
def ElmRequest.unclaimed (request : ElmRequest F) (artifact : ElmArtifact) : ElmOutcome F :=
  match request with
  | .advisory context _ => declined context (some artifact.contentSha256) "canary_budget_exhausted"
  | .routing _ _ _ baseScore => .score baseScore .baselineSelected

def failureReport (error : ElmError) : InferenceReport :=
  { valid := false, counted := error ≠ .queueFull }

/-- The advisory that a prediction leads to, and what is recorded of it. -/
def advise (context : DecisionContext F) (trading : Bool) (influenceCap : F) (gated : GatedModel F)
    (artifact : ElmArtifact) (details : ModelDetails F)
    (prediction : Except ElmError (InferenceResult F)) : ElmAdvisoryResult F × InferenceReport :=
  match prediction with
  | .error error =>
    ({ taskId := context.taskId, modelDigest := some artifact.contentSha256, proposal := none
       uncertainty := none, applied := false, influenceCap := 0.0
       reason := some ("inference_error:" ++ error.display) }, failureReport error)
  | .ok prediction =>
    let proposal := prediction.values.head?
    let uncertainty := details.calibration.bind Calibration.residualRadius
    let validProposal := proposal.any Scalar.isFinite
    let validUncertainty := uncertainty.any Scalar.isFinite
    let authorised := !gated.shadow && decide (0.0 < influenceCap) && gated.mode = .auto
    let reason :=
      if !validProposal then some "invalid_prediction"
      else if !validUncertainty then some "uncertainty_unavailable"
      else if trading && decide (0.0 < gated.influenceCap) && isZero influenceCap then
        some "trading_influence_disabled"
      else if !authorised then some "shadow_or_stage_ceiling"
      else none
    let applied := authorised && reason.isNone
    ({ taskId := context.taskId, modelDigest := some artifact.contentSha256, proposal, uncertainty
       applied, influenceCap := if applied then influenceCap else 0.0, reason },
      { valid := validProposal && validUncertainty, counted := true })

/-- Why a routing proposal is not used. The infinite radius of an uncalibrated model is not finite. -/
def routingReason (policy : Option (PromotionPolicy F)) (trading : Bool) (influenceCap : F)
    (gated : GatedModel F) (radius : Option F) (proposal elapsedMs : F) : Option GateReason :=
  match radius with
  | none => some .inferenceError
  | some radius =>
    if !Scalar.isFinite proposal || !Scalar.isFinite radius then some .inferenceError
    else if 1.0 < Scalar.abs proposal then some .outOfDomain
    else if Scalar.abs proposal ≤ radius then some .insufficientMargin
    else if (policy.bind PromotionPolicy.maximumP95OverheadMs).getD 0.0 < elapsedMs then
      some .deadline
    else if trading && decide (0.0 < gated.influenceCap) && isZero influenceCap then
      some .tradingInfluenceDisabled
    else none

/-- What the reason of a routing score makes the service record. -/
def routingReport : Option GateReason → Option InferenceReport
  | none => some { valid := true, counted := true }
  | some .inferenceError | some .deadline => some { valid := false, counted := true }
  | _ => none

def routeScore (config : ElmConfig F) (baseScore : F) (trading : Bool) (influenceCap : F)
    (gated : GatedModel F) (details : ModelDetails F)
    (prediction : Except ElmError (InferenceResult F)) :
    (F × DecisionOutcome) × Option InferenceReport :=
  match prediction with
  | .error error => ((baseScore, .abstained), some (failureReport error))
  | .ok prediction =>
    match prediction.values.head? with
    | none => ((baseScore, .baselineSelected), none)
    | some proposal =>
      let reason := routingReason (config.policy routingTask) trading influenceCap gated
        (details.calibration.bind Calibration.residualRadius) proposal prediction.elapsedMs
      let applied := reason.isNone && !gated.shadow && gated.mode = .auto && decide (0.0 < influenceCap)
      let outcome :=
        if applied then .applied else if reason.isSome then .abstained else .shadowed
      ((if applied then baseScore + proposal * influenceCap else baseScore, outcome),
        routingReport reason)

/-- The answer to a request whose decision is claimed, and what is recorded of its inference. -/
def ElmRequest.decide (request : ElmRequest F) (config : ElmConfig F) (liveExecution : Bool)
    (gated : GatedModel F) (artifact : ElmArtifact) (details : ModelDetails F)
    (prediction : Except ElmError (InferenceResult F)) : ElmOutcome F × Option InferenceReport :=
  let influenceCap := request.influenceCap config liveExecution gated
  match request with
  | .advisory context _ =>
    let (result, report) :=
      advise context request.isTrading influenceCap gated artifact details prediction
    (.advisory (some result), some report)
  | .routing _ _ _ baseScore =>
    let ((score, outcome), report) :=
      routeScore config baseScore request.isTrading influenceCap gated details prediction
    (.score score outcome, report)

variable {request : ElmRequest F} {config : ElmConfig F} {liveExecution : Bool} {gated : GatedModel F}
  {artifact : ElmArtifact} {details : ModelDetails F}

/-- A model changes a decision only with authority and influence. -/
theorem ElmRequest.decide_applied {prediction : Except ElmError (InferenceResult F)}
    (h : (request.decide config liveExecution gated artifact details prediction).1.applied = true) :
    gated.shadow = false ∧ gated.mode = .auto ∧
      0.0 < request.influenceCap config liveExecution gated := by
  cases request with
  | advisory context targetUnit =>
    cases prediction with
    | error error => cases h
    | ok prediction =>
      simp only [decide, advise, ElmOutcome.applied, Option.any_some, Bool.and_eq_true,
        Bool.not_eq_true', decide_eq_true_eq] at h
      exact ⟨h.1.1.1, h.1.2, h.1.1.2⟩
  | routing context trading known baseScore =>
    cases prediction with
    | error error => cases h
    | ok prediction =>
      simp only [decide, routeScore] at h
      cases hp : prediction.values.head? with
      | none => rw [hp] at h; cases h
      | some proposal =>
        rw [hp] at h
        simp only [ElmOutcome.applied, decide_eq_true_eq] at h
        split at h
        · next ha =>
          simp only [Bool.and_eq_true, Bool.not_eq_true', decide_eq_true_eq] at ha
          exact ⟨ha.1.1.2, ha.1.2, ha.2⟩
        · split at h <;> cases h

end Outcomes

end Gail.Elm
