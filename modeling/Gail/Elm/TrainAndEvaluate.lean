import Gail.Elm.DatasetSplit
import Gail.Elm.Qualification

/-! One training: candidates fitted on the first part of a data set, the best of them on the second
and calibrated on the third. The cut-off that the artifact records is a rank among all records. -/
namespace Gail.Elm
open Gail.Library Gail.Trading

structure TrainingLimits where
  maxSamples : Nat
  maxFeatures : Nat
  maxHiddenUnits : Nat
  maxMemoryMb : Nat
  maxTrainingThreads : Nat
  maxTrainingSeconds : Nat
  minimumLabelAgeSeconds : Nat

structure FitOptions (F : Type) where
  taskId : String
  family : AlgorithmFamily
  hiddenUnits : Nat
  seed : Nat
  lambda : F
  targetNames : List String
  targetUnits : List String
  classMapping : List String
  trainingCutoff : F
  datasetDigest : String
  tenantScope : String
  domainScope : String
  horizonSeconds : Option Nat
  fixtureOnly : Bool

/-- The columns of some records. -/
structure Rows (F : Type) where
  features : List (List F)
  targets : List (List F)
  labels : List Nat

/-- An artifact as training makes it. `Weights` are its preprocessor, estimator and diagnostics. -/
structure FittedArtifact (F Weights : Type) where
  taskId : String
  algorithm : AlgorithmFamily
  seed : Nat
  hiddenUnits : Nat
  targetNames : List String
  targetUnits : List String
  classMapping : List String
  trainingCutoff : F
  datasetDigest : String
  tenantScope : String
  domainScope : String
  horizonSeconds : Option Nat
  fixtureOnly : Bool
  targetSchemaId : String
  featureSchema : FeatureSchema
  taskKind : TaskKind
  weights : Weights
  calibration : Option (Calibration F)

/-- `ElmArtifact::new`. -/
def FittedArtifact.new {F Weights : Type} (featureSchema : FeatureSchema) (weights : Weights)
    (taskKind : TaskKind) (options : FitOptions F) : FittedArtifact F Weights :=
  { taskId := options.taskId
    algorithm := options.family
    seed := options.seed
    hiddenUnits := if options.family = .elm then options.hiddenUnits else 0
    targetNames := options.targetNames
    targetUnits := options.targetUnits
    classMapping := options.classMapping
    trainingCutoff := options.trainingCutoff
    datasetDigest := options.datasetDigest
    tenantScope := options.tenantScope
    domainScope := options.domainScope
    horizonSeconds := options.horizonSeconds
    fixtureOnly := options.fixtureOnly
    targetSchemaId := s!"{options.taskId}:v1"
    featureSchema
    taskKind
    weights
    calibration := none }

/-- What a training computes with its numbers, and how far its clock is when a trial begins. -/
structure Numerics (F Weights Report : Type) where
  digest : DatasetManifest F → Except ElmError String
  buildPool : Nat → Except ElmError Unit
  elapsedSeconds : Nat → Nat
  /-- Of `fit_regression` and `fit_classifier`. -/
  solve : TaskKind → FeatureSchema → Rows F → FitOptions F → Except ElmError Weights
  /-- The primary metric. -/
  measure : FittedArtifact F Weights → Rows F → Except ElmError F
  /-- Of `fit_residual_radius` and `fit_temperature`. -/
  calibrate : FittedArtifact F Weights → Rows F → Except ElmError (Calibration F)
  /-- The measurements of the artifact and of the baseline on the final part. -/
  evaluate : FittedArtifact F Weights → FittedArtifact F Weights → DataQualityReport F → Rows F →
    List (DatasetRecord F) → Except ElmError Report

structure Candidate (F Weights : Type) where
  name : String
  artifact : FittedArtifact F Weights
  metric : F

structure TrainedModel (F Weights Report : Type) where
  artifact : FittedArtifact F Weights
  report : Report

def AlgorithmFamily.familyName : AlgorithmFamily → String
  | .elm => "elm"
  | .ridge => "ridge"
  | .logistic => "logistic"

def TaskKind.families : TaskKind → List AlgorithmFamily
  | .regression => [.ridge, .elm]
  | .classification => [.logistic, .elm]

def TrainingLimits.hiddenSearch (limits : TrainingLimits) : List Nat :=
  let requestedHidden := [32, 64, 128, 256].filter (· ≤ limits.maxHiddenUnits)
  if requestedHidden.isEmpty then [clampCount limits.maxHiddenUnits 1 32] else requestedHidden

/-- The families with their widths and names, in the order in which they win ties. -/
def trials (taskKind : TaskKind) (limits : TrainingLimits) : List (AlgorithmFamily × Nat × String) :=
  taskKind.families.flatMap fun family =>
    (if family = .elm then limits.hiddenSearch else [0]).map fun hidden =>
      (family, hidden, s!"{family.familyName}:h={hidden}:lambda=1e-3")

def TrainingLimits.memoryEstimate (limits : TrainingLimits) (samples featureDims : Nat) : Nat :=
  saturatingMul
    (saturatingAdd
      (saturatingMul (saturatingMul samples (saturatingAdd featureDims limits.maxHiddenUnits)) 8)
      (saturatingMul (saturatingMul limits.maxHiddenUnits limits.maxHiddenUnits) 8))
    (clampCount limits.maxTrainingThreads 1 64) / (1024 * 1024)

def TrainingLimits.checkMemory (limits : TrainingLimits) (samples featureDims : Nat) :
    Except ElmError Unit :=
  let memoryEstimate := limits.memoryEstimate samples featureDims
  if limits.maxMemoryMb < memoryEstimate then
    .error (.invalidInput
      s!"estimated ELM workspace {memoryEstimate} MiB exceeds training memory budget")
  else .ok ()

section Training
variable {F Weights Report : Type}

def Numerics.calibrated (numerics : Numerics F Weights Report)
    (artifact : FittedArtifact F Weights) (calibration : Rows F) :
    Except ElmError (FittedArtifact F Weights) := do
  let fitted ← numerics.calibrate artifact calibration
  return { artifact with calibration := some fitted }

theorem Numerics.calibrated_cutoff {numerics : Numerics F Weights Report}
    {artifact fitted : FittedArtifact F Weights} {calibration : Rows F}
    (h : numerics.calibrated artifact calibration = .ok fitted) :
    fitted.trainingCutoff = artifact.trainingCutoff := by
  obtain ⟨calibration, -, h⟩ := ok_of_bind h
  cases h
  rfl

variable [Double F]

namespace DatasetManifest
variable (manifest : DatasetManifest F)

def rows (indices : List manifest.Index) : Rows F :=
  let records := indices.map manifest.record
  { features := records.map DatasetRecord.features
    targets := records.map DatasetRecord.target
    labels := records.map fun record => Double.floorCount (Scalar.max (record.target.headD 0.0) 0.0) }

def fitOptions (cutoff : F) (digest : String) (family : AlgorithmFamily) (hidden : Nat) :
    FitOptions F :=
  { taskId := manifest.taskId
    family
    hiddenUnits := hidden
    seed := 20261001
    lambda := 0.001
    targetNames := manifest.targetNames
    targetUnits := manifest.targetUnits
    classMapping := manifest.classMapping
    trainingCutoff := cutoff
    datasetDigest := digest
    tenantScope := manifest.tenantScope
    domainScope := manifest.domainScope
    horizonSeconds := manifest.horizonSeconds
    fixtureOnly := manifest.fixtureOnly }

end DatasetManifest

namespace Numerics
variable (numerics : Numerics F Weights Report)

/-- One trial of the pool. -/
def fitTrial (manifest : DatasetManifest F) (limits : TrainingLimits) (quality : DataQualityReport F)
    (train tune : Rows F) (family : AlgorithmFamily) (hidden : Nat) (name : String) (position : Nat) :
    Except ElmError (Candidate F Weights) :=
  if limits.maxTrainingSeconds ≤ numerics.elapsedSeconds position then
    .error (.numerical "configured training time budget exhausted between trials")
  else do
    let options := manifest.fitOptions quality.trainingCutoff quality.datasetDigest family hidden
    let weights ← numerics.solve manifest.taskKind manifest.featureSchema train options
    let artifact := .new manifest.featureSchema weights manifest.taskKind options
    let metric ← numerics.measure artifact tune
    return { name, artifact, metric }

/-- The best candidate that is no ELM, or else the best. -/
def baseline (selected : Candidate F Weights) (candidates : List (Candidate F Weights)) :
    FittedArtifact F Weights :=
  let plain := candidates.filter fun candidate => candidate.artifact.algorithm ≠ .elm
  (plain.argmin fun candidate => Double.totalKey candidate.metric).getD selected |>.artifact

def trainAndEvaluate (manifest : DatasetManifest F) (now : F) (limits : TrainingLimits) :
    Except ElmError (TrainedModel F Weights Report) := do
  let (eligible, quality) ← manifest.validate numerics.digest now limits.maxSamples limits.maxFeatures
    limits.minimumLabelAgeSeconds
  let partitions ← manifest.splitGroups eligible
  limits.checkMemory (partitions 0).length manifest.featureSchema.names.length
  numerics.buildPool (clampCount limits.maxTrainingThreads 1 64)
  let train := manifest.rows (partitions 0)
  let tune := manifest.rows (partitions 1)
  -- A trial that fails is only noted among the attempts.
  let candidates := (trials manifest.taskKind limits).zipIdx.filterMap
    fun ((family, hidden, name), position) =>
      (numerics.fitTrial manifest limits quality train tune family hidden name position).toOption
  let candidates := sortByKey (fun candidate => Double.totalKey candidate.metric) candidates
  match candidates with
  | [] => throw (.numerical "no candidate estimator completed a fit")
  | selected :: _ =>
    let artifact ← numerics.calibrated selected.artifact (manifest.rows (partitions 2))
    let baseline ← numerics.calibrated (baseline selected candidates) (manifest.rows (partitions 2))
    let report ← numerics.evaluate artifact baseline quality train
      ((partitions 3).map manifest.record)
    return { artifact, report }

end Numerics

namespace DatasetManifest
variable (manifest : DatasetManifest F)

/-- The cut-off comes after all training decisions and before all final ones. -/
structure Separates (cutoff : F) (partitions : Role → List manifest.Index) : Prop where
  training : ∀ index ∈ partitions 0, (manifest.record index).decisionTime ≤ cutoff
  final : ∀ index ∈ partitions 3, cutoff ≤ (manifest.record index).decisionTime

/-- The position of the cut-off among the ordered decision times. -/
def cutoffRank (eligible : List manifest.Index) : Nat :=
  Double.floorCount (Scalar.ofCount (eligible.length - 1) * (0.59 : F))

/-- At most as many records as the rank says are decided before a training record, and more than
that until a final one. -/
structure RanksApart (eligible : List manifest.Index) (partitions : Role → List manifest.Index) :
    Prop where
  training : ∀ index ∈ partitions 0,
    (eligible.countP fun other =>
      (manifest.record other).decisionTime < (manifest.record index).decisionTime) ≤
        manifest.cutoffRank eligible
  final : ∀ index ∈ partitions 3,
    manifest.cutoffRank eligible < eligible.countP fun other =>
      (manifest.record other).decisionTime ≤ (manifest.record index).decisionTime

variable {manifest} {eligible : List manifest.Index} {partitions : Role → List manifest.Index}
  {index : manifest.Index}

theorem finite_of_eligible (he : manifest.Eligible eligible) (hi : index ∈ eligible) :
    Scalar.isFinite (manifest.record index).decisionTime = true :=
  (finite_of_timestampValid (he.valid index hi)).1

section Cutoff
variable [LawfulDouble F] (he : manifest.Eligible eligible)
include he

theorem cutoffRank_lt : manifest.cutoffRank eligible < eligible.length := by
  have hle := LawfulDouble.floorCount_le (F := F) (eligible.length - 1)
  have hsamples := he.samples
  rw [cutoffRank]
  omega

/-- The cut-off is one of the decision times, and is in a lower set of them exactly when more
records than its rank says are. -/
theorem cutoff_spec : ∃ last ∈ eligible,
    quantile (manifest.orderedTimes eligible) 0.59 = (manifest.record last).decisionTime ∧
      ∀ p : F → Bool,
        (∀ index ∈ eligible, ∀ other ∈ eligible,
          (manifest.record index).decisionTime ≤ (manifest.record other).decisionTime →
            p (manifest.record other).decisionTime → p (manifest.record index).decisionTime) →
        (p (manifest.record last).decisionTime ↔
          manifest.cutoffRank eligible < eligible.countP fun index =>
            p (manifest.record index).decisionTime) := by
  have hlength : (manifest.orderedTimes eligible).length = eligible.length := by
    rw [orderedTimes, (sortByKey_perm _).length_eq, List.length_map]
  have hlt : manifest.cutoffRank eligible < (manifest.orderedTimes eligible).length := by
    rw [hlength]
    exact cutoffRank_lt he
  have htime : quantile (manifest.orderedTimes eligible) 0.59 =
      (manifest.orderedTimes eligible)[manifest.cutoffRank eligible] := by
    rw [quantile, hlength]
    exact List.getD_eq_getElem _ _ hlt
  obtain ⟨last, hlast, heq⟩ :=
    List.mem_map.mp ((sortByKey_perm _).mem_iff.mp (List.getElem_mem hlt))
  refine ⟨last, hlast, htime.trans heq.symm, fun p hp => ?_⟩
  rw [heq, ← Function.comp_def, ← List.countP_map]
  refine sortByKey_holds_iff ?_ hlt
  · intro a ha b hb hle
    obtain ⟨index, hi, rfl⟩ := List.mem_map.mp ha
    obtain ⟨other, ho, rfl⟩ := List.mem_map.mp hb
    exact hp index hi other ho
      (LawfulDouble.le_of_totalKey _ _ (finite_of_eligible he hi) (finite_of_eligible he ho) hle)

theorem separates_iff (hin : ∀ role, ∀ index ∈ partitions role, index ∈ eligible) :
    manifest.Separates (quantile (manifest.orderedTimes eligible) 0.59) partitions ↔
      manifest.RanksApart eligible partitions := by
  obtain ⟨last, hlast, htime, hrank⟩ := cutoff_spec he
  rw [htime]
  have htraining : ∀ index ∈ eligible,
      ((manifest.record index).decisionTime ≤ (manifest.record last).decisionTime ↔
        (eligible.countP fun other =>
          (manifest.record other).decisionTime < (manifest.record index).decisionTime) ≤
            manifest.cutoffRank eligible) := by
    intro index hi
    have hlower := hrank (fun time => time < (manifest.record index).decisionTime) ?_
    · rw [← not_lt, ← hlower, decide_eq_true_eq]
      exact ⟨LawfulDouble.not_lt_of_le _ _, LawfulDouble.le_of_not_lt _ _
        (finite_of_eligible he hlast) (finite_of_eligible he hi)⟩
    · intro a ha b hb hle hlt
      simp only [decide_eq_true_eq] at hlt ⊢
      by_contra hnlt
      have hge := LawfulDouble.le_of_not_lt _ _ (finite_of_eligible he ha) (finite_of_eligible he hi) hnlt
      exact LawfulDouble.not_lt_of_le _ _ (LawfulDouble.le_trans _ _ _ hge hle) hlt
  have hfinal : ∀ index ∈ eligible,
      ((manifest.record last).decisionTime ≤ (manifest.record index).decisionTime ↔
        manifest.cutoffRank eligible < eligible.countP fun other =>
          (manifest.record other).decisionTime ≤ (manifest.record index).decisionTime) := by
    intro index hi
    have hlower := hrank (fun time => time ≤ (manifest.record index).decisionTime) ?_
    · rw [← hlower, decide_eq_true_eq]
    · intro a ha b hb hle hb'
      simp only [decide_eq_true_eq] at hb' ⊢
      exact LawfulDouble.le_trans _ _ _ hle hb'
  constructor
  · intro h
    exact ⟨fun index hi => (htraining index (hin 0 index hi)).mp (h.training index hi),
      fun index hi => (hfinal index (hin 3 index hi)).mp (h.final index hi)⟩
  · intro h
    exact ⟨fun index hi => (htraining index (hin 0 index hi)).mpr (h.training index hi),
      fun index hi => (hfinal index (hin 3 index hi)).mpr (h.final index hi)⟩

end Cutoff

end DatasetManifest

variable {manifest : DatasetManifest F} {numerics : Numerics F Weights Report} {now : F}
  {limits : TrainingLimits} {eligible : List manifest.Index} {quality : DataQualityReport F}
  {partitions : DatasetManifest.Role → List manifest.Index} {trained : TrainedModel F Weights Report}

theorem Numerics.fitTrial_cutoff {train tune : Rows F} {family : AlgorithmFamily} {hidden : Nat}
    {name : String} {position : Nat} {candidate : Candidate F Weights}
    (h : numerics.fitTrial manifest limits quality train tune family hidden name position =
      .ok candidate) :
    candidate.artifact.trainingCutoff = quality.trainingCutoff := by
  obtain ⟨-, h⟩ := ok_of_ite h
  obtain ⟨weights, -, h⟩ := ok_of_bind h
  obtain ⟨metric, -, h⟩ := ok_of_bind h
  cases h
  rfl

/-- Whatever candidate wins, its artifact has the cut-off of the quality report. -/
theorem Numerics.trainAndEvaluate_cutoff
    (hv : manifest.validate numerics.digest now limits.maxSamples limits.maxFeatures
      limits.minimumLabelAgeSeconds = .ok (eligible, quality))
    (h : numerics.trainAndEvaluate manifest now limits = .ok trained) :
    trained.artifact.trainingCutoff = quality.trainingCutoff := by
  obtain ⟨⟨eligible, quality⟩, hvalid, h⟩ := ok_of_bind h
  rw [hv] at hvalid
  cases hvalid
  obtain ⟨partitions, -, h⟩ := ok_of_bind h
  obtain ⟨-, -, h⟩ := ok_of_bind h
  obtain ⟨-, -, h⟩ := ok_of_bind h
  dsimp only at h
  split at h
  · cases h
  next selected others hsorted =>
  obtain ⟨artifact, hartifact, h⟩ := ok_of_bind h
  obtain ⟨baseline, -, h⟩ := ok_of_bind h
  obtain ⟨report, -, h⟩ := ok_of_bind h
  cases h
  have hselected := (sortByKey_perm _).mem_iff.mp (hsorted ▸ List.mem_cons_self (a := selected))
  obtain ⟨trial, -, hfit⟩ := List.mem_filterMap.mp hselected
  rw [calibrated_cutoff hartifact, fitTrial_cutoff (ok_of_toOption hfit)]

theorem trainingCutoff_le_of_admitPolicy {config : ElmConfig F} {details : ModelDetails F}
    {stage : LifecycleStage} {canaryDecisions : Nat} {task : ElmTaskConfig F}
    {context : DecisionContext F} {policy : PromotionPolicy F}
    (h : admitPolicy config details stage canaryDecisions task context = .ok policy) :
    details.trainingCutoff ≤ context.now := by
  unfold admitPolicy at h
  split at h
  · cases h
  · obtain ⟨-, h⟩ := ok_of_ite h
    obtain ⟨-, h⟩ := ok_of_ite h
    split at h
    · cases h
    · obtain ⟨-, h⟩ := ok_of_ite h
      obtain ⟨-, h⟩ := ok_of_ite h
      obtain ⟨hnow, -⟩ := ok_of_ite h
      exact not_lt.mp hnow

/-- The recorded cut-off separates training from the final test exactly when the records are spread
over the groups so that its rank does; and then no request from before a training decision is
admitted. -/
theorem cutoff_separates_iff [LawfulDouble F]
    (hv : manifest.validate numerics.digest now limits.maxSamples limits.maxFeatures
      limits.minimumLabelAgeSeconds = .ok (eligible, quality))
    (hs : manifest.splitGroups eligible = .ok partitions)
    (ht : numerics.trainAndEvaluate manifest now limits = .ok trained) :
    (manifest.Separates trained.artifact.trainingCutoff partitions ↔
      manifest.RanksApart eligible partitions) ∧
    (manifest.RanksApart eligible partitions → ∀ (config : ElmConfig F) (details : ModelDetails F)
      (stage : LifecycleStage) (canaryDecisions : Nat) (task : ElmTaskConfig F)
      (context : DecisionContext F) (policy : PromotionPolicy F),
      details.trainingCutoff = Double.floorCount trained.artifact.trainingCutoff →
      admitPolicy config details stage canaryDecisions task context = .ok policy →
      ∀ index ∈ partitions 0,
        Double.floorCount (manifest.record index).decisionTime ≤ context.now) := by
  obtain ⟨he, hcutoff⟩ := DatasetManifest.validate_ok hv
  have hin : ∀ role, ∀ index ∈ partitions role, index ∈ eligible :=
    fun role index => DatasetManifest.mem_of_splitGroups hs
  have hseparates := DatasetManifest.separates_iff he hin
  rw [Numerics.trainAndEvaluate_cutoff hv ht, hcutoff]
  refine ⟨hseparates, ?_⟩
  intro hranks config details stage canaryDecisions task context policy hdetails hadmit index hi
  calc Double.floorCount (manifest.record index).decisionTime
      ≤ Double.floorCount (DatasetManifest.quantile (manifest.orderedTimes eligible) 0.59) :=
        LawfulDouble.floorCount_mono _ _ ((hseparates.mpr hranks).training index hi)
    _ = details.trainingCutoff := hdetails.symm
    _ ≤ context.now := trainingCutoff_le_of_admitPolicy hadmit

end Training

/-- Constant targets are fitted by a constant, without error. -/
def Numerics.constant : Numerics ℚ ℚ Unit where
  digest _ := .ok ""
  buildPool _ := .ok ()
  elapsedSeconds _ := 0
  solve _ _ rows _ := .ok (rows.targets.flatten.headD 0)
  measure _ _ := .ok 0
  calibrate _ _ := .ok { temperature := 1, residualRadius := some 0 }
  evaluate _ _ _ _ _ := .ok ()

def TrainingLimits.sample : TrainingLimits :=
  { maxSamples := 100
    maxFeatures := 10
    maxHiddenUnits := 32
    maxMemoryMb := 100
    maxTrainingThreads := 1
    maxTrainingSeconds := 60
    minimumLabelAgeSeconds := 0 }

theorem cutoff_separates_of_ten :
    let manifest := DatasetManifest.sample [("a", 0), ("b", 1), ("c", 2), ("d", 3), ("e", 4), ("f", 5),
      ("g", 6), ("h", 7), ("i", 8), ("j", 9)]
    ∃ partitions trained, manifest.splitGroups (List.finRange _) = .ok partitions ∧
      Numerics.constant.trainAndEvaluate manifest 9 .sample = .ok trained ∧
      manifest.Separates trained.artifact.trainingCutoff partitions := by
  intro manifest
  have hvalid : ((manifest.validate Numerics.constant.digest 9 100 10 0).map Prod.fst).toOption =
      some (List.finRange _) := by
    decide +kernel
  have hok : (manifest.splitGroups (List.finRange _)).toBool = true := by
    decide +kernel
  have htrained : (Numerics.constant.trainAndEvaluate manifest 9 .sample).toBool = true := by
    decide +kernel
  obtain ⟨quality, hvalid⟩ := DatasetManifest.exists_quality hvalid
  obtain ⟨partitions, hpartitions⟩ := ok_of_toBool hok
  obtain ⟨trained, htrained⟩ := ok_of_toBool htrained
  have hlimits : manifest.validate Numerics.constant.digest 9 TrainingLimits.sample.maxSamples
      TrainingLimits.sample.maxFeatures TrainingLimits.sample.minimumLabelAgeSeconds =
        .ok (List.finRange _, quality) := hvalid
  obtain ⟨hiff, -⟩ := cutoff_separates_iff hlimits hpartitions htrained
  refine ⟨partitions, trained, hpartitions, htrained, hiff.mpr ?_⟩
  rw [DatasetManifest.splitGroups_ok hpartitions]
  constructor
  · decide +kernel
  · decide +kernel

/-- The first of ten groups has eleven records: the cut-off comes before the last training decision. -/
theorem cutoff_before_training :
    let manifest := DatasetManifest.sample [("a", 0), ("a", 1), ("a", 2), ("a", 3), ("a", 4), ("a", 5),
      ("a", 6), ("a", 7), ("a", 8), ("a", 9), ("a", 10), ("b", 11), ("c", 12), ("d", 13), ("e", 14),
      ("f", 15), ("g", 16), ("h", 17), ("i", 18), ("j", 19)]
    ∃ quality partitions trained,
      manifest.validate Numerics.constant.digest 19 100 10 0 = .ok (List.finRange _, quality) ∧
      manifest.splitGroups (List.finRange _) = .ok partitions ∧
      Numerics.constant.trainAndEvaluate manifest 19 .sample = .ok trained ∧
      ¬ manifest.Separates trained.artifact.trainingCutoff partitions := by
  intro manifest
  have hvalid : ((manifest.validate Numerics.constant.digest 19 100 10 0).map Prod.fst).toOption =
      some (List.finRange _) := by
    decide +kernel
  have hok : (manifest.splitGroups (List.finRange _)).toBool = true := by
    decide +kernel
  have htrained : (Numerics.constant.trainAndEvaluate manifest 19 .sample).toBool = true := by
    decide +kernel
  obtain ⟨quality, hvalid⟩ := DatasetManifest.exists_quality hvalid
  obtain ⟨partitions, hpartitions⟩ := ok_of_toBool hok
  obtain ⟨trained, htrained⟩ := ok_of_toBool htrained
  refine ⟨quality, partitions, trained, hvalid, hpartitions, htrained, fun h => ?_⟩
  obtain ⟨-, hcutoff⟩ := DatasetManifest.validate_ok hvalid
  have hlimits : manifest.validate Numerics.constant.digest 19 TrainingLimits.sample.maxSamples
      TrainingLimits.sample.maxFeatures TrainingLimits.sample.minimumLabelAgeSeconds =
        .ok (List.finRange _, quality) := hvalid
  have hlast := h.training ⟨15, by decide⟩
  rw [Numerics.trainAndEvaluate_cutoff hlimits htrained, hcutoff,
    DatasetManifest.splitGroups_ok hpartitions] at hlast
  revert hlast
  decide +kernel

end Gail.Elm
