import Gail.Library.Saturating
import Mathlib.Data.List.MinMax
import Mathlib.Data.Rat.Defs
import Std.Data.TreeMap
import Std.Data.TreeMap.Lemmas

/-! The members of an ELM artifact that the registry reads with its structural checks, the lifecycle stages of a
registered model and their permitted transitions, the registry index with its records, and the copy a process keeps
in memory. -/
namespace Gail.Elm

inductive ElmError where
  | invalidInput (message : String)
  | numerical (message : String)
  | artifact (message : String)
  | schemaMismatch
  | uncalibrated
  | queueFull
  | revisionConflict
  deriving DecidableEq, Repr

/-- A double as the structural checks see it. -/
inductive F64 where
  | finite (value : ℚ)
  | infinite (negative : Bool)
  | nan
  deriving DecidableEq

def F64.isFinite : F64 → Bool
  | .finite _ => true
  | _ => false

/-- `char::is_whitespace`: the Unicode White_Space code points. -/
def isWhitespace (c : Char) : Bool :=
  let n := c.toNat
  (9 ≤ n && n ≤ 13) || n == 0x20 || n == 0x85 || n == 0xA0 || n == 0x1680 ||
    (0x2000 ≤ n && n ≤ 0x200A) || n == 0x2028 || n == 0x2029 || n == 0x202F || n == 0x205F ||
    n == 0x3000

/-- `text.trim().is_empty()`. -/
def isBlank (text : String) : Bool := text.toList.all isWhitespace

structure FeatureSchema where
  id : String
  version : Nat
  names : List String
  units : List String
  deriving DecidableEq, Repr

def FeatureSchema.validate (schema : FeatureSchema) : Except ElmError Unit :=
  if isBlank schema.id || schema.version == 0 || schema.names.isEmpty
      || schema.names.length != schema.units.length || schema.names.any isBlank then
    .error (.invalidInput
      "feature schema needs an ID, version, unique named features and one unit per feature")
  -- Sorting and removing adjacent repeats shortens the list exactly when a name occurs twice.
  else if ¬ schema.names.Nodup then .error (.invalidInput "feature names must be unique")
  else .ok ()

def maxMatrixCells : Nat := 16000000

def usizeMax : Nat := 2^64 - 1

def validateMatrix (matrix : List (List F64)) (name : String) : Except ElmError (Nat × Nat) :=
  let cols := (matrix.headD []).length
  if matrix.isEmpty || cols == 0 then .error (.invalidInput s!"{name} must not be empty")
  else if usizeMax < matrix.length * cols then .error (.invalidInput s!"{name} dimensions overflow")
  else if maxMatrixCells < matrix.length * cols || matrix.any (fun row => row.length != cols) then
    .error (.invalidInput s!"{name} is ragged or exceeds the matrix cell limit")
  else if matrix.flatten.any (fun value => !value.isFinite) then
    .error (.invalidInput s!"{name} contains non-finite values")
  else .ok (matrix.length, cols)

inductive Estimator where
  | elm (inputWeights : List (List F64)) (biases : List F64) (outputWeights : List (List F64))
  | linear (weights : List (List F64)) (intercepts : List F64)
  | logistic (weights : List (List F64)) (intercepts : List F64)
  deriving DecidableEq

private def validateBaseline (weights : List (List F64)) (intercepts : List F64)
    (dimensions : Nat) : Except ElmError Unit := do
  let (_, outputs) ← validateMatrix weights "baseline weights"
  if weights.length != dimensions || intercepts.length != outputs then
    throw (.artifact "artifact baseline dimensions do not match")

def validateEstimator (estimator : Estimator) (dimensions : Nat) : Except ElmError Unit :=
  match estimator with
  | .elm inputWeights biases outputWeights => do
    let (inputDims, hidden) ← validateMatrix inputWeights "projection weights"
    let (_, outputs) ← validateMatrix outputWeights "output weights"
    if inputDims != dimensions || hidden != biases.length || outputWeights.length != hidden
        || outputs == 0 then
      throw (.artifact "artifact estimator dimensions do not match")
  | .linear weights intercepts => validateBaseline weights intercepts dimensions
  | .logistic weights intercepts => validateBaseline weights intercepts dimensions

structure ModelMetadata where
  modelId : String
  taskId : String
  prng : String
  datasetDigest : String
  tenantScope : String
  domainScope : String
  fixtureOnly : Bool
  deriving DecidableEq, Repr

def artifactFormatVersion : Nat := 1

def prngAlgorithm : String := "splitmix64-v1"

/-- An artifact. `remainder` stands for the serialised members that no registry function reads:
preprocessor, calibration, solver diagnostics, evaluation and the rest of the metadata. -/
structure ElmArtifact where
  formatVersion : Nat
  metadata : ModelMetadata
  featureSchema : FeatureSchema
  estimator : Estimator
  remainder : String
  contentSha256 : String
  deriving DecidableEq

/-- The members on which the registry bases its decisions. -/
structure ElmArtifact.Agrees (a b : ElmArtifact) : Prop where
  metadata : a.metadata = b.metadata
  featureSchema : a.featureSchema = b.featureSchema
  contentSha256 : a.contentSha256 = b.contentSha256

inductive LifecycleStage where
  | candidate
  | trained
  | evaluated
  | qualified
  | shadow
  | canary
  | active
  | rejected
  | quarantined
  | retired
  | rolledBack
  deriving DecidableEq, Repr, Inhabited

namespace LifecycleStage

/-- The derived `Debug` name, which error texts print. -/
def debug : LifecycleStage → String
  | candidate => "Candidate"
  | trained => "Trained"
  | evaluated => "Evaluated"
  | qualified => "Qualified"
  | shadow => "Shadow"
  | canary => "Canary"
  | active => "Active"
  | rejected => "Rejected"
  | quarantined => "Quarantined"
  | retired => "Retired"
  | rolledBack => "RolledBack"

/-- The stages in which a model may be a champion. -/
def isServing : LifecycleStage → Bool
  | qualified | shadow | canary | active => true
  | _ => false

/-- The outcomes that take a model out of service. -/
def isWithdrawn : LifecycleStage → Bool
  | rejected | quarantined | retired | rolledBack => true
  | _ => false

end LifecycleStage

open LifecycleStage

def allowedTransition : LifecycleStage → LifecycleStage → Bool
  | candidate, trained | candidate, rejected | candidate, quarantined => true
  | trained, evaluated | trained, rejected | trained, quarantined => true
  | evaluated, qualified | evaluated, rejected | evaluated, quarantined => true
  | qualified, shadow | qualified, rejected | qualified, quarantined | qualified, retired => true
  | shadow, canary | shadow, active | shadow, rejected | shadow, quarantined
  | shadow, retired | shadow, rolledBack => true
  | canary, active | canary, shadow | canary, rejected | canary, quarantined
  | canary, retired | canary, rolledBack => true
  | active, shadow | active, rejected | active, quarantined | active, retired
  | active, rolledBack => true
  | rolledBack, retired => true
  | rejected, retired | quarantined, retired => true
  | _, _ => false

/-- Nothing leaves the withdrawn stages: the table only leads on to retirement. -/
theorem withdrawn_closed {a b : LifecycleStage} (ha : a.isWithdrawn) (h : allowedTransition a b) :
    b.isWithdrawn := by
  cases a <;> cases b <;> simp_all [isWithdrawn, allowedTransition]

theorem withdrawn_not_serving {a : LifecycleStage} (ha : a.isWithdrawn) : a.isServing = false := by
  cases a <;> simp_all [isWithdrawn, isServing]

structure RegistryRecord where
  revision : Nat
  modelId : String
  taskId : String
  digest : String
  stage : LifecycleStage
  artifactFile : String
  reason : Option String
  updatedAt : Nat
  fixtureOnly : Bool
  deriving DecidableEq, Repr

structure RollbackEvent where
  idempotencyKey : String
  taskId : String
  rolledBackModelId : String
  fallbackModelId : Option String
  revision : Nat
  reason : String
  deriving DecidableEq, Repr

/-- The contents of `registry-v1.json`. -/
structure RegistryFile where
  revision : Nat := 0
  records : List RegistryRecord := []
  championByTask : Std.TreeMap String String := ∅
  rollbackHistory : List RollbackEvent := []
  canaryDecisions : Std.TreeMap String Nat := ∅

instance : Inhabited RegistryFile := ⟨{}⟩

/-- What one process holds: its copy of the index and the loaded champions. -/
structure RegistryState where
  file : RegistryFile := {}
  champions : Std.TreeMap String ElmArtifact := ∅

namespace RegistryFile

/-- The first record of a model and where it stands. -/
def position (file : RegistryFile) (modelId : String) : Option (Nat × RegistryRecord) :=
  (file.records.findIdx? (fun record => record.modelId == modelId)).bind fun index =>
    file.records[index]?.map fun record => (index, record)

/-- The first record of a model. -/
def record (file : RegistryFile) (modelId : String) : Option RegistryRecord :=
  file.records.find? (fun record => record.modelId == modelId)

/-- The durable number of canary decisions claimed for a model. -/
def canaryCount (file : RegistryFile) (modelId : String) : Nat :=
  file.canaryDecisions[modelId]?.getD 0

end RegistryFile

/-- Move a record to a stage, stamping the reason, the time and the revision. -/
def RegistryRecord.moveTo (record : RegistryRecord) (stage : LifecycleStage) (reason : String)
    (now revision : Nat) : RegistryRecord :=
  { record with stage, reason := some reason, updatedAt := now, revision }

/-- `Iterator::max_by_key`: of several greatest elements, the last one. -/
def maxByKey {α : Type} (key : α → Nat) (items : List α) : Option α :=
  items.reverse.argmax key

end Gail.Elm
