import Gail.Elm.RegistryFile
import Gail.Trading.Scalar

/-! The gates that a decision passes before the model of its task is asked. -/
namespace Gail.Elm
open Gail.Trading

/-- How far a task may use its model, in the order of the source. -/
inductive ElmMode where
  | off
  | collect
  | shadow
  | auto
  deriving DecidableEq, Repr

def ElmMode.min (a b : ElmMode) : ElmMode := if b.ctorIdx < a.ctorIdx then b else a

inductive ModelStage where
  | candidate
  | trained
  | evaluated
  | qualified
  | shadow
  | canary
  | active
  deriving DecidableEq, Repr

/-- `>=` of the derived order. -/
def ModelStage.reaches (a b : ModelStage) : Bool := b.ctorIdx ≤ a.ctorIdx

inductive MetricDirection where
  | higher
  | lower
  deriving DecidableEq, Repr

structure ElmTaskConfig (F : Type) where
  mode : Option ElmMode
  maxStage : ModelStage
  promotionPolicy : String
  allowed : Bool
  rolloutFraction : F
  influenceCap : F

structure PromotionPolicy (F : Type) where
  taskObjective : Option String := none
  direction : Option MetricDirection := none
  baseline : Option String := none
  minimumEffectiveSamples : Option Nat := none
  minimumSubgroupSamples : Option Nat := none
  minimumObservationSeconds : Option Nat := none
  confidenceLevel : Option F := none
  minimumPracticalImprovement : Option F := none
  nonInferiorityTolerance : Option F := none
  maximumCalibrationError : Option F := none
  minimumIntervalCoverage : Option F := none
  maximumP95OverheadMs : Option F := none
  maximumP99OverheadMs : Option F := none
  maximumInputAgeSeconds : Option Nat := none
  maximumLabelAgeSeconds : Option Nat := none
  maximumDriftScore : Option F := none
  maximumOodScore : Option F := none
  canaryFraction : Option F := none
  canaryMaxDecisions : Option UInt64 := none
  expirySeconds : Option Nat := none
  rollbackRegression : Option F := none
  cooldownSeconds : Option Nat := none
  retrainBudgetPerDay : Option Nat := none
  authorisedInfluence : Option F := none

structure ElmTradingConfig (F : Type) where
  allowLiveInfluence : Bool
  maximumInfluence : F

structure ElmConfig (F : Type) where
  mode : ElmMode
  tasks : Std.TreeMap String (ElmTaskConfig F)
  promotionPolicies : Std.TreeMap String (PromotionPolicy F)
  /-- `lifecycle.automatic_rollback`. -/
  automaticRollback : Bool
  trading : ElmTradingConfig F
  /-- `data.maximum_feature_age_seconds`. -/
  maximumFeatureAgeSeconds : Nat

inductive TaskKind where
  | regression
  | classification
  deriving DecidableEq, Repr

structure Calibration (F : Type) where
  temperature : F
  residualRadius : Option F

structure Preprocessor (F : Type) where
  means : List F
  scales : List F

/-- The members of an artifact that its `remainder` stands for, as far as a decision reads them. -/
structure ModelDetails (F : Type) where
  taskKind : TaskKind
  targetUnits : List String
  expiryUnixSeconds : Option Nat
  /-- `training_cutoff as u64`. -/
  trainingCutoff : Nat
  preprocessor : Preprocessor F
  calibration : Option (Calibration F)

inductive GateReason where
  | disabled
  | collectOnly
  | taskDisallowed
  | modelUnqualified
  | modelExpired
  | schemaMismatch
  | tenantMismatch
  | staleInput
  | missingInput
  | outOfDomain
  | uncalibrated
  | insufficientMargin
  | resourcePressure
  | deadline
  | inferenceError
  | rolloutExcluded
  | canaryBudgetExhausted
  | hardPolicyRejection
  | qualifiedModelUnavailable
  | tradingInfluenceDisabled
  deriving DecidableEq, Repr

/-- The derived `Debug` name, which an advisory reports. -/
def GateReason.debug : GateReason → String
  | disabled => "Disabled"
  | collectOnly => "CollectOnly"
  | taskDisallowed => "TaskDisallowed"
  | modelUnqualified => "ModelUnqualified"
  | modelExpired => "ModelExpired"
  | schemaMismatch => "SchemaMismatch"
  | tenantMismatch => "TenantMismatch"
  | staleInput => "StaleInput"
  | missingInput => "MissingInput"
  | outOfDomain => "OutOfDomain"
  | uncalibrated => "Uncalibrated"
  | insufficientMargin => "InsufficientMargin"
  | resourcePressure => "ResourcePressure"
  | deadline => "Deadline"
  | inferenceError => "InferenceError"
  | rolloutExcluded => "RolloutExcluded"
  | canaryBudgetExhausted => "CanaryBudgetExhausted"
  | hardPolicyRejection => "HardPolicyRejection"
  | qualifiedModelUnavailable => "QualifiedModelUnavailable"
  | tradingInfluenceDisabled => "TradingInfluenceDisabled"

structure DecisionContext (F : Type) where
  taskId : String
  tenantScope : String
  featureSchema : FeatureSchema
  featureValues : List F
  featureTimestamp : Nat
  now : Nat
  remainingDeadlineMs : Nat
  hardPolicyEligible : Bool
  resourceAvailable : Bool
  rolloutBucket : Nat

structure GatedModel (F : Type) where
  artifact : Option ElmArtifact
  reason : Option GateReason
  influenceCap : F
  mode : ElmMode
  shadow : Bool

/-- `champion`, `record` and `canary_decisions` of a process read its copy of the index. -/
def RegistryState.champion (state : RegistryState) (task : String) : Option ElmArtifact :=
  state.champions[task]?

def RegistryState.record (state : RegistryState) (modelId : String) : Option RegistryRecord :=
  state.file.record modelId

def RegistryState.canaryDecisions (state : RegistryState) (modelId : String) : Nat :=
  state.file.canaryCount modelId

section Gates
variable {F : Type} [Scalar F]

def ElmConfig.effectiveMode (config : ElmConfig F) (task : String) : ElmMode :=
  config.mode.min ((config.tasks[task]?.bind ElmTaskConfig.mode).getD config.mode)

/-- The promotion policy that a task is configured with. -/
def ElmConfig.policy (config : ElmConfig F) (task : String) : Option (PromotionPolicy F) :=
  config.tasks[task]?.bind fun configured => config.promotionPolicies[configured.promotionPolicy]?

def PromotionPolicy.isComplete (policy : PromotionPolicy F) : Bool :=
  policy.taskObjective.any (!isBlank ·) && policy.direction.isSome && policy.baseline.any (!isBlank ·)
    && policy.minimumEffectiveSamples.any (0 < ·) && policy.minimumSubgroupSamples.any (0 < ·)
    && policy.minimumObservationSeconds.any (0 < ·) && policy.confidenceLevel.isSome
    && policy.minimumPracticalImprovement.isSome && policy.nonInferiorityTolerance.isSome
    && policy.maximumCalibrationError.isSome && policy.minimumIntervalCoverage.isSome
    && policy.maximumP95OverheadMs.isSome && policy.maximumP99OverheadMs.isSome
    && policy.maximumInputAgeSeconds.isSome && policy.maximumLabelAgeSeconds.isSome
    && policy.maximumDriftScore.isSome && policy.maximumOodScore.isSome
    && policy.canaryFraction.isSome && policy.canaryMaxDecisions.isSome
    && policy.expirySeconds.isSome && policy.rollbackRegression.isSome
    && policy.cooldownSeconds.isSome && policy.retrainBudgetPerDay.isSome
    && policy.authorisedInfluence.isSome

/-- `f64::min` of two numbers of which the first is one. -/
def least (x y : F) : F := if y < x then y else x

def ElmTradingConfig.effectiveInfluenceCap (trading : ElmTradingConfig F) (requested : F)
    (liveExecution : Bool) : F :=
  if !Scalar.isFinite requested || requested ≤ 0.0 || !Scalar.isFinite trading.maximumInfluence
      || trading.maximumInfluence ≤ 0.0 || (liveExecution && !trading.allowLiveInfluence) then 0.0
  else clamp (least requested trading.maximumInfluence) 0.0 1.0

/-- `Preprocessor::transform` of a single row. -/
def Preprocessor.transform (preprocessor : Preprocessor F) (row : List F) :
    Except ElmError (List F) :=
  if preprocessor.means.isEmpty || preprocessor.means.length != preprocessor.scales.length
      || preprocessor.scales.any (fun value => !Scalar.isFinite value || value ≤ 0.0) then
    .error (.artifact "invalid fitted preprocessor")
  else if row.isEmpty then .error (.invalidInput "features must not be empty")
  else if maxMatrixCells < row.length then
    .error (.invalidInput "features is ragged or exceeds the matrix cell limit")
  else if row.any (fun value => !Scalar.isFinite value) then
    .error (.invalidInput "features contains non-finite values")
  else if row.length != preprocessor.means.length then .error .schemaMismatch
  else
    .ok (List.zipWith (fun value fitted => (value - fitted.1) / fitted.2) row
      (preprocessor.means.zip preprocessor.scales))

def ModelDetails.calibrated (details : ModelDetails F) : Bool :=
  match details.calibration with
  | none => false
  | some calibration =>
    match details.taskKind with
    | .regression => calibration.residualRadius.isSome
    | .classification => Scalar.isFinite calibration.temperature && !(calibration.temperature ≤ 0.0)

/-- The gates before the registry is read: the configured task of a decision. -/
def admitTask (config : ElmConfig F) (context : DecisionContext F) :
    Except GateReason (ElmTaskConfig F) :=
  let mode := config.effectiveMode context.taskId
  if mode = .off then .error .disabled
  else if mode = .collect then .error .collectOnly
  else
    match config.tasks[context.taskId]? with
    | none => .error .taskDisallowed
    | some task =>
      if !task.allowed then .error .taskDisallowed
      else if !context.hardPolicyEligible then .error .hardPolicyRejection
      else if !context.resourceAvailable then .error .resourcePressure
      else if context.remainingDeadlineMs = 0 then .error .deadline
      else if context.now < context.featureTimestamp
          || config.maximumFeatureAgeSeconds < context.now - context.featureTimestamp then
        .error .staleInput
      else if context.featureValues.isEmpty
          || context.featureValues.any (fun value => !Scalar.isFinite value) then
        .error .missingInput
      else .ok task

/-- The gates on the champion and its record. -/
def admitModel (details : ElmArtifact → ModelDetails F) (champion : Option ElmArtifact)
    (record : Option RegistryRecord) (context : DecisionContext F) :
    Except GateReason (ElmArtifact × RegistryRecord) :=
  match champion with
  | none => .error .qualifiedModelUnavailable
  | some artifact =>
    match record with
    | none => .error .modelUnqualified
    | some record =>
      if !record.stage.isServing then .error .modelUnqualified
      else if artifact.metadata.fixtureOnly then .error .modelUnqualified
      else if (details artifact).expiryUnixSeconds.any (· < context.now) then .error .modelExpired
      else if artifact.featureSchema ≠ context.featureSchema
          || artifact.featureSchema.names.length ≠ context.featureValues.length then
        .error .schemaMismatch
      else if artifact.metadata.tenantScope ≠ context.tenantScope then .error .tenantMismatch
      else .ok (artifact, record)

/-- The gates that the promotion policy sets. -/
def admitPolicy (config : ElmConfig F) (details : ModelDetails F) (stage : LifecycleStage)
    (canaryDecisions : Nat) (task : ElmTaskConfig F) (context : DecisionContext F) :
    Except GateReason (PromotionPolicy F) :=
  match config.policy context.taskId with
  | none => .error .modelUnqualified
  | some policy =>
    if !policy.isComplete then .error .modelUnqualified
    else if stage = .canary ∧ (policy.canaryMaxDecisions.getD 0).toNat ≤ canaryDecisions then
      .error .canaryBudgetExhausted
    else
      match details.preprocessor.transform context.featureValues with
      | .error _ => .error .schemaMismatch
      | .ok row =>
        if policy.maximumOodScore.getD 0.0 < (row.map Scalar.abs).foldl Scalar.max 0.0 then
          .error .outOfDomain
        else if !details.calibrated then .error .uncalibrated
        else if context.now < details.trainingCutoff then .error .modelExpired
        else if task.rolloutFraction < 1.0
            ∧ task.rolloutFraction ≤ Scalar.ofCount context.rolloutBucket / Scalar.ofCount u64Max then
          .error .rolloutExcluded
        else .ok policy

def stageAuthorised (stage : LifecycleStage) (task : ElmTaskConfig F) : Bool :=
  match stage with
  | .canary => task.maxStage.reaches .canary
  | .active => task.maxStage.reaches .active
  | _ => false

/-- `admit`: the gated model of a decision, given what its three reads of the registry found. -/
def admitRequest (config : ElmConfig F) (details : ElmArtifact → ModelDetails F)
    (champion : Option ElmArtifact) (record : Option RegistryRecord) (canaryDecisions : Nat)
    (context : DecisionContext F) : GatedModel F :=
  let mode := config.effectiveMode context.taskId
  let influence :=
    (config.tasks[context.taskId]?.map fun task => clamp task.influenceCap 0.0 1.0).getD 0.0
  let gated : Except GateReason (GatedModel F) := do
    let task ← admitTask config context
    let (artifact, record) ← admitModel details champion record context
    let policy ← admitPolicy config (details artifact) record.stage canaryDecisions task context
    let autoAuthorised := mode = .auto ∧ stageAuthorised record.stage task ∧ 0.0 < influence
      ∧ policy.authorisedInfluence.any (0.0 < ·)
    return {
      artifact := some artifact
      reason := none
      influenceCap :=
        if autoAuthorised then least influence (policy.authorisedInfluence.getD 0.0) else 0.0
      mode
      shadow := ¬ autoAuthorised }
  match gated with
  | .ok gated => gated
  | .error reason =>
    { artifact := none, reason := some reason, influenceCap := 0.0, mode, shadow := mode = .shadow }

/-- The budget that a claim on a model of the task is made with. -/
def ElmConfig.canaryMaximum (config : ElmConfig F) (task : String) : UInt64 :=
  ((config.policy task).bind PromotionPolicy.canaryMaxDecisions).getD 0

end Gates

end Gail.Elm
