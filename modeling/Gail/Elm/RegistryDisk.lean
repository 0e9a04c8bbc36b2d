import Gail.Elm.RegistryFile

/-! The registry directory: serialisation, atomic replacement of a file and loading. A path is
relative to the registry root; `none` stands for a file that does not exist. -/
namespace Gail.Elm

abbrev Disk (Bytes : Type) := String → Option Bytes

/-- `serde_json` and `sha2` on the two kinds of file. Reading back what was written gives the same
index, and an artifact that agrees on the members the registry reads. -/
structure Serde (Bytes : Type) where
  len : Bytes → Nat
  sha256Hex : Bytes → String
  registryToVec : RegistryFile → Except String Bytes
  registryFromSlice : Bytes → Except String RegistryFile
  artifactToVec : ElmArtifact → Except String Bytes
  artifactFromSlice : Bytes → Except String ElmArtifact
  registry_round_trip : ∀ {file bytes}, registryToVec file = .ok bytes →
    registryFromSlice bytes = .ok file
  artifact_round_trip : ∀ {artifact bytes loaded}, artifactToVec artifact = .ok bytes →
    artifactFromSlice bytes = .ok loaded → loaded.Agrees artifact

/-- The I/O steps of `write_atomic`, in order. -/
inductive IoStep where
  | createDirectories
  | createTemporary
  | writeTemporary
  | syncTemporary
  | rename
  | openDirectory
  | syncDirectory
  deriving DecidableEq, Repr

/-- The target has already been replaced when the step runs. -/
def IoStep.afterRename : IoStep → Bool
  | openDirectory | syncDirectory => true
  | _ => false

/-- The step of one `write_atomic` call that fails, with the text of the operating system. -/
structure IoFault where
  step : IoStep
  error : String
  deriving DecidableEq, Repr

variable {Bytes : Type}

/-- The temporary file has a fresh name, so only the rename is visible to a reader. -/
def writeAtomic (disk : Disk Bytes) (path : String) (bytes : Bytes) (fault : Option IoFault) :
    Except ElmError Unit × Disk Bytes :=
  match fault with
  | none => (.ok (), Function.update disk path (some bytes))
  | some fault =>
    (.error (.artifact fault.error),
      if fault.step.afterRename then Function.update disk path (some bytes) else disk)

/-- A replacement, complete or not, concerns its own file only. -/
theorem writeAtomic_ne {disk : Disk Bytes} {path other : String} (h : other ≠ path) (bytes : Bytes)
    (fault : Option IoFault) : (writeAtomic disk path bytes fault).2 other = disk other := by
  cases fault with
  | none => exact Function.update_of_ne h _ _
  | some fault =>
    simp only [writeAtomic]
    split
    · exact Function.update_of_ne h _ _
    · rfl

def indexPath : String := "registry-v1.json"

def artifactPath (modelId : String) : String := "artifacts/" ++ modelId ++ ".json"

def notFound : String := "No such file or directory (os error 2)"

section Loading
variable (serde : Serde Bytes)

def ElmArtifact.verify (artifact : ElmArtifact) : Except ElmError Unit :=
  if artifact.formatVersion ≠ artifactFormatVersion then
    .error (.artifact "unsupported artifact format version")
  else if artifact.metadata.prng ≠ prngAlgorithm ∨ artifact.featureSchema.validate ≠ .ok () then
    .error (.artifact "artifact provenance or feature schema is invalid")
  else
    match serde.artifactToVec { artifact with contentSha256 := "" } with
    | .error error => .error (.artifact error)
    | .ok bytes =>
      let expected := artifact.contentSha256
      let actual := serde.sha256Hex bytes
      if actual ≠ expected then
        .error (.artifact
          s!"artifact content digest mismatch (expected {expected}, computed {actual})")
      else validateEstimator artifact.estimator artifact.featureSchema.names.length

def loadArtifact (disk : Disk Bytes) (path : String) (maxBytes : Nat) :
    Except ElmError ElmArtifact :=
  match disk path with
  | none => .error (.artifact notFound)
  | some bytes =>
    if maxBytes < serde.len bytes then .error (.artifact "artifact exceeds configured size limit")
    else
      match serde.artifactFromSlice bytes with
      | .error error => .error (.artifact error)
      | .ok artifact =>
        match artifact.verify serde with
        | .error error => .error error
        | .ok () => .ok artifact

def readRegistryFile (disk : Disk Bytes) (maxBytes : Nat) : Except ElmError RegistryFile :=
  match disk indexPath with
  | none => .ok {}
  | some bytes =>
    if maxBytes < serde.len bytes then
      .error (.artifact "registry index exceeds configured size limit")
    else
      match serde.registryFromSlice bytes with
      | .error error => .error (.artifact s!"invalid registry index: {error}")
      | .ok file => .ok file

def persistRegistry (disk : Disk Bytes) (file : RegistryFile) (maxBytes : Nat)
    (fault : Option IoFault) : Except ElmError Unit × Disk Bytes :=
  match serde.registryToVec file with
  | .error error => (.error (.artifact error), disk)
  | .ok bytes =>
    if maxBytes < serde.len bytes then
      (.error (.artifact "registry index exceeds configured size limit"), disk)
    else writeAtomic disk indexPath bytes fault

/-- The record may be served as the champion of the task. -/
def RegistryRecord.servesTask (record : RegistryRecord) (task : String) : Bool :=
  record.taskId == task && !record.fixtureOnly && record.stage.isServing

/-- The stored artifact is the one the record was made for. -/
def ElmArtifact.isOf (artifact : ElmArtifact) (record : RegistryRecord) (modelId task : String) :
    Bool :=
  artifact.metadata.modelId == modelId && artifact.metadata.taskId == task
    && artifact.contentSha256 == record.digest

def recordMismatch : ElmError :=
  .artifact "registry record and immutable model artifact do not match"

abbrev Champions := Std.TreeMap String ElmArtifact

/-- One champion entry of `load_champions`; the first failure ends the loop. -/
def loadChampion (disk : Disk Bytes) (file : RegistryFile) (maxBytes : Nat) (loaded : Champions)
    (entry : String × String) : Except ElmError Champions :=
  match file.record entry.2 with
  | none => .error (.artifact "registry champion record is missing")
  | some record =>
    if ¬ record.servesTask entry.1 then .ok loaded
    else
      match loadArtifact serde disk record.artifactFile maxBytes with
      | .error error => .error error
      | .ok artifact =>
        if artifact.isOf record entry.2 entry.1 then .ok (loaded.insert entry.1 artifact)
        else .error recordMismatch

def loadChampions (disk : Disk Bytes) (file : RegistryFile) (maxBytes : Nat) :
    Except ElmError Champions :=
  file.championByTask.toList.foldlM (loadChampion serde disk file maxBytes) ∅

/-- One champion entry of `restore_champions`, which skips an artifact that does not match. -/
def restoreChampion (disk : Disk Bytes) (file : RegistryFile) (maxBytes : Nat) (loaded : Champions)
    (entry : String × String) : Except ElmError Champions :=
  match file.record entry.2 with
  | none => .error (.artifact "registry champion record is missing")
  | some record =>
    if ¬ record.servesTask entry.1 then .ok loaded
    else
      match loadArtifact serde disk record.artifactFile maxBytes with
      | .error error => .error error
      | .ok artifact =>
        if artifact.isOf record entry.2 entry.1 then .ok (loaded.insert entry.1 artifact)
        else .ok loaded

def restoreChampions (disk : Disk Bytes) (file : RegistryFile) (maxBytes : Nat) :
    Except ElmError Champions :=
  file.championByTask.toList.foldlM (restoreChampion serde disk file maxBytes) ∅

end Loading

/-- A file kept as the value it was written from. -/
inductive StoredFile where
  | index (file : RegistryFile)
  | artifact (artifact : ElmArtifact)

/-- The codec that loses nothing; the digest of an artifact names its model and its remainder. -/
def plainSerde : Serde StoredFile where
  len _ := 1
  sha256Hex
    | .index _ => "index"
    | .artifact artifact => artifact.metadata.modelId ++ artifact.remainder
  registryToVec file := .ok (.index file)
  registryFromSlice
    | .index file => .ok file
    | .artifact _ => .error "missing field revision"
  artifactToVec artifact := .ok (.artifact artifact)
  artifactFromSlice
    | .artifact artifact => .ok artifact
    | .index _ => .error "missing field format_version"
  registry_round_trip h := by cases h; rfl
  artifact_round_trip hw hl := by cases hw; cases hl; exact ⟨rfl, rfl, rfl⟩

/-- A linear model of one feature, with the digest that the plain codec computes. -/
def plainArtifact (modelId taskId schemaId : String) (fixtureOnly : Bool) : ElmArtifact where
  formatVersion := artifactFormatVersion
  metadata :=
    { modelId, taskId, prng := prngAlgorithm, datasetDigest := "registry-test-digest"
      tenantScope := "local", domainScope := "test", fixtureOnly }
  featureSchema := { id := schemaId, version := 1, names := ["signal"], units := ["unitless"] }
  estimator := .linear [[.finite 1]] [.finite 0]
  remainder := schemaId
  contentSha256 := modelId ++ schemaId

end Gail.Elm
