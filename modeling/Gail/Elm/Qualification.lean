import Gail.Elm.Admission

/-! The evidence gates of a trained model. A bound that the policy does not set, or a measurement
that the report does not hold, withholds qualification. -/
namespace Gail.Elm
open Gail.Trading

inductive AlgorithmFamily where
  | elm
  | ridge
  | logistic
  deriving DecidableEq, Repr

/-- The measurements of one model on one partition, as far as a gate reads them. -/
structure EvaluationSummary (F : Type) where
  partition : String
  effectiveSampleCount : F
  calibrationError : Option F
  residualCoverage : Option F
  inferenceP95Ms : Option F
  inferenceP99Ms : Option F

/-- A report. `remainder` stands for the members that no gate reads. -/
structure TrainingEvaluationReport (F : Type) where
  fixtureOnly : Bool
  baselineAlgorithm : AlgorithmFamily
  finalCandidate : EvaluationSummary F
  minimumFinalSubgroupGroupSupport : Nat
  observedWindowSeconds : Nat
  maximumInputAgeSeconds : Option Nat
  maximumLabelDelaySeconds : Option Nat
  driftScore : Option F
  maximumOodScore : Option F
  pairedImprovement : Option F
  lowerConfidenceBound : Option F
  confidenceLevel : F
  calibrated : Bool
  qualified : Bool
  qualificationReasons : List String
  reportSha256 : String
  remainder : String

structure TrainedEvaluation (F : Type) where
  artifact : ElmArtifact
  /-- `artifact.task_kind`, which the registry does not read. -/
  taskKind : TaskKind
  report : TrainingEvaluationReport F

structure QualificationResult (F : Type) where
  qualified : Bool
  reasonCodes : List String
  measuredImprovement : Option F
  lowerConfidenceBound : Option F

def TaskKind.baseline : TaskKind → String
  | .regression => "ridge"
  | .classification => "logistic"

def TaskKind.objective : TaskKind → String
  | .regression => "mse"
  | .classification => "log_loss"

def AlgorithmFamily.baseline : AlgorithmFamily → String
  | .ridge => "ridge"
  | .logistic => "logistic"
  | .elm => "elm"

/-- The codes of the gates that fail, in order. -/
def failedGates (gates : List (Bool × String)) : List String :=
  (gates.filter Prod.fst).map Prod.snd

section Gates
variable {F : Type} [Scalar F]

/-- The gates on the authority envelope of the task. -/
def envelopeGates (config : ElmConfig F) (taskId : String) : List (Bool × String) :=
  let task := config.tasks[taskId]?
  [(config.effectiveMode taskId ≠ .auto, "task_not_in_auto_mode"),
    (task.all (!·.allowed), "task_not_permitted"),
    (task.all (!·.maxStage.reaches .qualified), "stage_ceiling_blocks_qualification")]

def calibrationUnderLimit (report : EvaluationSummary F) (policy : PromotionPolicy F)
    (taskKind : TaskKind) : Bool :=
  match policy.maximumCalibrationError, report.calibrationError with
  | some maxError, some error =>
    if !Scalar.isFinite error || maxError < error then false
    else
      match taskKind with
      | .classification => true
      | .regression =>
        policy.minimumIntervalCoverage.any fun minimum =>
          report.residualCoverage.any fun coverage => Scalar.isFinite coverage && minimum ≤ coverage
  | _, _ => false

def overheadUnderLimits (p95 p99 : Option F) (policy : PromotionPolicy F) : Bool :=
  (p95.any fun value => Scalar.isFinite value && value ≤ policy.maximumP95OverheadMs.getD (-1.0))
    && p99.any fun value => Scalar.isFinite value && value ≤ policy.maximumP99OverheadMs.getD (-1.0)

/-- The improvement, or its bound, falls short of what the policy asks; without a policy value the
limit is infinite. -/
def missesImprovement (policy : PromotionPolicy F) (value : Option F) : Bool :=
  value.all fun value =>
    !Scalar.isFinite value || policy.minimumPracticalImprovement.all (value < ·)

/-- The gates that the promotion policy sets, in the order of the source. -/
def policyGates (config : ElmConfig F) (taskId : String) (policy : PromotionPolicy F)
    (result : TrainedEvaluation F) : List (Bool × String) :=
  let report := result.report
  let final := report.finalCandidate
  let kind := result.taskKind
  [(!policy.isComplete, "promotion_policy_incomplete"),
    (config.tasks[taskId]?.any fun task => policy.canaryFraction.getD 0.0 < task.rolloutFraction,
      "rollout_exceeds_policy_canary_fraction"),
    (result.artifact.metadata.fixtureOnly || report.fixtureOnly, "fixture_only_artifact"),
    (final.partition ≠ "final", "independent_final_evaluation_missing"),
    (final.effectiveSampleCount < Scalar.ofCount (policy.minimumEffectiveSamples.getD usizeMax),
      "insufficient_effective_samples"),
    (report.minimumFinalSubgroupGroupSupport < policy.minimumSubgroupSamples.getD usizeMax,
      "insufficient_subgroup_support"),
    (report.observedWindowSeconds < policy.minimumObservationSeconds.getD u64Max,
      "observation_window_incomplete"),
    (!report.calibrated, "calibration_missing"),
    (policy.taskObjective ≠ some kind.objective || policy.direction ≠ some .lower,
      "configured_objective_is_not_supported_by_the_report"),
    (policy.baseline ≠ some kind.baseline || report.baselineAlgorithm.baseline ≠ kind.baseline,
      "configured_simple_baseline_unavailable"),
    (report.confidenceLevel < policy.confidenceLevel.getD 1.0,
      "configured_confidence_exceeds_evaluated_bound"),
    (missesImprovement policy report.pairedImprovement, "minimum_practical_improvement_not_met"),
    (missesImprovement policy report.lowerConfidenceBound, "confidence_bound_not_met"),
    (report.lowerConfidenceBound.any fun value =>
      policy.nonInferiorityTolerance.any fun tolerance => value < -tolerance,
      "non_inferiority_gate_failed"),
    (report.maximumInputAgeSeconds.all (policy.maximumInputAgeSeconds.getD 0 < ·),
      "input_age_gate_failed"),
    (report.maximumLabelDelaySeconds.all (policy.maximumLabelAgeSeconds.getD 0 < ·),
      "label_age_gate_failed"),
    (report.driftScore.all (policy.maximumDriftScore.getD (-1.0) < ·), "drift_gate_failed"),
    (report.maximumOodScore.all (policy.maximumOodScore.getD (-1.0) < ·),
      "out_of_domain_gate_failed"),
    (!calibrationUnderLimit final policy kind, "calibration_gate_failed"),
    (!overheadUnderLimits final.inferenceP95Ms final.inferenceP99Ms policy,
      "inference_overhead_gate_failed")]

def qualificationResult (reasons : List String) (report : TrainingEvaluationReport F) :
    QualificationResult F where
  qualified := reasons.isEmpty
  reasonCodes := reasons
  measuredImprovement := report.pairedImprovement
  lowerConfidenceBound := report.lowerConfidenceBound

def ElmConfig.maxStage (config : ElmConfig F) (taskId : String) : ModelStage :=
  (config.tasks[taskId]?.map ElmTaskConfig.maxStage).getD .shadow

def evaluateQualification (config : ElmConfig F) (taskId : String) (result : TrainedEvaluation F) :
    QualificationResult F :=
  let reasons := failedGates (envelopeGates config taskId)
  match config.policy taskId with
  | none => qualificationResult (reasons ++ ["promotion_policy_missing"]) result.report
  | some policy =>
    qualificationResult (reasons ++ failedGates (policyGates config taskId policy result))
      result.report

end Gates

end Gail.Elm
