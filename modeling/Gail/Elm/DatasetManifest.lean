import Gail.Elm.Admission
import Gail.Library.FloatOrder
import Gail.Library.StableSort
import Mathlib.Data.List.Dedup
import Mathlib.Data.List.FinRange
import Mathlib.Data.Rat.Floor

/-! Explicit numeric data sets: which records may be used, and the cut-offs that the quality report
gives for them. -/
namespace Gail.Elm
open Gail.Library Gail.Trading

/-- The further operations on doubles that data sets need. -/
class Double (F : Type) extends Scalar F where
  /-- What `total_cmp` compares. -/
  Key : Type
  keyOrder : LinearOrder Key
  totalKey : F → Key
  fract : F → F
  /-- `floor() as usize`. -/
  floorCount : F → Nat

instance : Double Float where
  Key := ℤ
  keyOrder := inferInstance
  totalKey := FloatOrder.totalKey
  fract x := x - if x < 0.0 then x.ceil else x.floor
  floorCount x := x.floor.toUInt64.toNat

instance : Double ℚ where
  Key := ℚ
  keyOrder := inferInstance
  totalKey x := x
  fract x := if x < 0 then x - x.ceil else x - x.floor
  floorCount x := x.floor.toNat

instance {F : Type} [Double F] : LinearOrder (Double.Key F) := Double.keyOrder

/-- What IEEE comparisons of finite numbers have in common with those of a linear order. -/
class LawfulDouble (F : Type) [Double F] : Prop where
  le_of_totalKey : ∀ a b : F, Scalar.isFinite a = true → Scalar.isFinite b = true →
    Double.totalKey a ≤ Double.totalKey b → a ≤ b
  le_of_not_lt : ∀ a b : F, Scalar.isFinite a = true → Scalar.isFinite b = true → ¬ a < b → b ≤ a
  not_lt_of_le : ∀ a b : F, a ≤ b → ¬ b < a
  le_trans : ∀ a b c : F, a ≤ b → b ≤ c → a ≤ c
  /-- A count times a number below one does not exceed the count. -/
  floorCount_le : ∀ n : Nat, Double.floorCount ((Scalar.ofCount n : F) * 0.59) ≤ n
  floorCount_mono : ∀ a b : F, a ≤ b → Double.floorCount a ≤ Double.floorCount b

instance : LawfulDouble ℚ where
  le_of_totalKey _ _ _ _ h := h
  le_of_not_lt _ _ _ _ h := not_lt.mp h
  not_lt_of_le _ _ h := not_lt.mpr h
  le_trans _ _ _ := le_trans
  floorCount_le n := by
    have hcount : (0 : ℚ) ≤ n := Nat.cast_nonneg n
    have hfloor : ⌊(n : ℚ) * 0.59⌋ ≤ (n : ℤ) := by
      rw [Int.floor_le_iff]
      push_cast
      linarith
    change (⌊(n : ℚ) * 0.59⌋).toNat ≤ n
    omega
  floorCount_mono _ _ h := Int.toNat_le_toNat (Int.floor_mono h)

structure DatasetRecord (F : Type) where
  recordId : String
  groupId : String
  subgroupId : String
  eventTime : F
  observationTime : F
  decisionTime : F
  labelAvailableTime : F
  features : List F
  target : List F

structure DatasetManifest (F : Type) where
  formatVersion : Nat
  datasetId : String
  permitted : Bool
  fixtureOnly : Bool
  tenantScope : String
  domainScope : String
  taskId : String
  taskKind : TaskKind
  featureSchema : FeatureSchema
  targetSchemaId : String
  targetNames : List String
  targetUnits : List String
  classMapping : List String
  horizonSeconds : Option Nat
  provenance : String
  records : List (DatasetRecord F)

structure DataQualityReport (F : Type) where
  datasetId : String
  datasetDigest : String
  eligibleSamples : Nat
  excludedSamples : Nat
  groupCount : Nat
  subgroupGroupCounts : Std.TreeMap String Nat
  classBalance : Std.TreeMap String Nat
  trainingCutoff : F
  tuningCutoff : F
  calibrationCutoff : F
  finalCutoff : F
  fixtureOnly : Bool

def datasetFormatVersion : Nat := 1

namespace DatasetManifest
variable {F : Type}

/-- The position of a record. -/
abbrev Index (manifest : DatasetManifest F) : Type := Fin manifest.records.length

def record (manifest : DatasetManifest F) (index : manifest.Index) : DatasetRecord F :=
  manifest.records.get index

def groupOf (manifest : DatasetManifest F) (index : manifest.Index) : String :=
  (manifest.record index).groupId

end DatasetManifest

section Validation
variable {F : Type} [Double F]

def DatasetRecord.timestampValid (record : DatasetRecord F) : Bool :=
  [record.eventTime, record.observationTime, record.decisionTime, record.labelAvailableTime].all
      Scalar.isFinite
    && record.eventTime ≤ record.observationTime && record.observationTime ≤ record.decisionTime
    && record.decisionTime ≤ record.labelAvailableTime

namespace DatasetManifest
variable (manifest : DatasetManifest F)

def shapeValid (record : DatasetRecord F) : Bool :=
  record.features.length == manifest.featureSchema.names.length
    && record.target.length == manifest.targetNames.length
    && (record.features ++ record.target).all Scalar.isFinite

/-- The class of a record, if the mapping has it. -/
def classOf (record : DatasetRecord F) : Option String :=
  let value := record.target.headD (-1.0)
  if value < 0.0 || !(Double.fract value ≤ 0.0 && 0.0 ≤ Double.fract value) then none
  else manifest.classMapping[Double.floorCount value]?

/-- What the loop over the records has collected. Sets are lists without repetitions. -/
structure Screening (n : Nat) where
  seen : List String
  eligible : List (Fin n)
  groups : List String
  subgroupGroups : Std.TreeMap String (List String)
  balance : Std.TreeMap String Nat

def Screening.start (n : Nat) : Screening n :=
  { seen := [], eligible := [], groups := [], subgroupGroups := ∅, balance := ∅ }

/-- A record that may be used. -/
def Screening.accept (screening : Screening manifest.records.length) (index : manifest.Index) :
    Screening manifest.records.length :=
  let record := manifest.record index
  { screening with
    groups := screening.groups.insert record.groupId
    subgroupGroups := screening.subgroupGroups.insert record.subgroupId
      ((screening.subgroupGroups[record.subgroupId]?.getD []).insert record.groupId)
    eligible := screening.eligible ++ [index] }

def screen (now : F) (minimumLabelAge : Nat) (screening : Screening manifest.records.length)
    (index : manifest.Index) : Except ElmError (Screening manifest.records.length) :=
  let record := manifest.record index
  if record.recordId ∈ screening.seen then
    .error (.invalidInput "duplicate record ID in dataset")
  else
    let screening := { screening with seen := record.recordId :: screening.seen }
    if isBlank record.recordId || isBlank record.groupId || isBlank record.subgroupId
        || !record.timestampValid || !manifest.shapeValid record then .ok screening
    -- The label is not old enough.
    else if ¬ record.labelAvailableTime + Scalar.ofCount minimumLabelAge ≤ now then .ok screening
    else if manifest.taskKind = .classification then
      match manifest.classOf record with
      | none => .ok screening
      | some name =>
        .ok (Screening.accept manifest
          { screening with balance := screening.balance.insert name (screening.balance.getD name 0 + 1) }
          index)
    else .ok (screening.accept manifest index)

/-- The decision times of the records in order, at a fraction of their number. -/
def quantile (ordered : List F) (fraction : F) : F :=
  ordered.getD (Double.floorCount (Scalar.ofCount (ordered.length - 1) * fraction)) 0.0

def orderedTimes (eligible : List manifest.Index) : List F :=
  sortByKey Double.totalKey (eligible.map fun index => (manifest.record index).decisionTime)

def checkHeader (maxSamples maxFeatures : Nat) : Except ElmError Unit := do
  if manifest.formatVersion != datasetFormatVersion || !manifest.permitted then
    throw (.invalidInput "dataset format unsupported or data-use permission is absent")
  if isBlank manifest.datasetId || isBlank manifest.taskId || isBlank manifest.provenance
      || isBlank manifest.tenantScope || isBlank manifest.domainScope then
    throw (.invalidInput "dataset identity, scope and provenance are required")
  manifest.featureSchema.validate
  if maxSamples < manifest.records.length || maxFeatures < manifest.featureSchema.names.length then
    throw (.invalidInput "dataset exceeds configured sample or feature bounds")
  if manifest.targetNames.isEmpty || manifest.targetNames.length != manifest.targetUnits.length
      || isBlank manifest.targetSchemaId then
    throw (.invalidInput "target schema is incomplete")
  if manifest.taskKind = .classification && manifest.classMapping.length < 2 then
    throw (.invalidInput "classification dataset needs an explicit class mapping")

def screenAll (now : F) (minimumLabelAge : Nat) :
    Except ElmError (Screening manifest.records.length) :=
  (List.finRange manifest.records.length).foldlM (manifest.screen now minimumLabelAge)
    (Screening.start manifest.records.length)

/-- The digest, SHA-256 of the manifest as JSON, is a parameter. -/
def validate (digest : DatasetManifest F → Except ElmError String) (now : F)
    (maxSamples maxFeatures minimumLabelAge : Nat) :
    Except ElmError (List manifest.Index × DataQualityReport F) := do
  manifest.checkHeader maxSamples maxFeatures
  let screening ← manifest.screenAll now minimumLabelAge
  let eligible := screening.eligible
  if eligible.length < 10 || screening.groups.length < 10 then
    throw (.invalidInput
      s!"insufficient mature independent support: {eligible.length} samples across {screening.groups.length} groups; need at least 10 of each")
  let datasetDigest ← digest manifest
  let ordered := manifest.orderedTimes eligible
  return (eligible,
    { datasetId := manifest.datasetId
      datasetDigest
      eligibleSamples := eligible.length
      excludedSamples := manifest.records.length - eligible.length
      groupCount := screening.groups.length
      subgroupGroupCounts := screening.subgroupGroups.map fun _ groups => groups.length
      classBalance := screening.balance
      trainingCutoff := quantile ordered 0.59
      tuningCutoff := quantile ordered 0.74
      calibrationCutoff := quantile ordered 0.89
      finalCutoff := quantile ordered 0.99
      fixtureOnly := manifest.fixtureOnly })

/-- What is known of the records that the loop has collected. -/
structure Screened (screening : Screening manifest.records.length) : Prop where
  ordered : screening.eligible.Pairwise (· < ·)
  valid : ∀ index ∈ screening.eligible, (manifest.record index).timestampValid = true
  distinct : screening.groups.Nodup
  groups : ∀ group, group ∈ screening.groups ↔
    ∃ index ∈ screening.eligible, manifest.groupOf index = group

variable {manifest} {screening next : Screening manifest.records.length} {index : manifest.Index}
  {now : F} {minimumLabelAge : Nat}

theorem Screened.start : manifest.Screened (Screening.start manifest.records.length) where
  ordered := List.Pairwise.nil
  valid _ h := by cases h
  distinct := List.nodup_nil
  groups group := by simp [Screening.start]

theorem Screened.congr {other : Screening manifest.records.length} (h : manifest.Screened screening)
    (he : other.eligible = screening.eligible) (hg : other.groups = screening.groups) :
    manifest.Screened other where
  ordered := he ▸ h.ordered
  valid := he ▸ h.valid
  distinct := hg ▸ h.distinct
  groups := by rw [he, hg]; exact h.groups

theorem Screened.accept (h : manifest.Screened screening)
    (hv : (manifest.record index).timestampValid = true) (hlt : ∀ other ∈ screening.eligible, other < index) :
    manifest.Screened (screening.accept manifest index) where
  ordered := by
    refine List.pairwise_append.mpr ⟨h.ordered, List.pairwise_singleton _ _, ?_⟩
    intro other ho last hl
    rw [List.mem_singleton.mp hl]
    exact hlt other ho
  valid := by
    intro other ho
    rcases List.mem_append.mp ho with ho | ho
    · exact h.valid other ho
    · rw [List.mem_singleton.mp ho]
      exact hv
  distinct := h.distinct.insert
  groups group := by
    change group ∈ screening.groups.insert (manifest.groupOf index) ↔
      ∃ other ∈ screening.eligible ++ [index], manifest.groupOf other = group
    rw [List.mem_insert_iff, h.groups]
    simp only [List.mem_append, List.mem_singleton, or_and_right, exists_or, exists_eq_left]
    rw [or_comm, eq_comm]

private theorem valid_of_form {a b c d : Bool} {record : DatasetRecord F}
    (h : ¬ (a || b || c || !record.timestampValid || !d) = true) : record.timestampValid = true := by
  simp only [Bool.or_eq_true, not_or, Bool.not_eq_true, Bool.not_eq_false'] at h
  exact h.1.2

/-- One record either leaves the collection as it is or joins it, and only with valid times. -/
theorem screen_cases (h : manifest.screen now minimumLabelAge screening index = .ok next) :
    (next.eligible = screening.eligible ∧ next.groups = screening.groups) ∨
      (manifest.record index).timestampValid = true ∧
        next.eligible = (screening.accept manifest index).eligible ∧
        next.groups = (screening.accept manifest index).groups := by
  unfold screen at h
  simp only at h
  split_ifs at h with hseen hform hage hclass
  · cases h
    exact .inl ⟨rfl, rfl⟩
  · split at h
    · cases h
      exact .inl ⟨rfl, rfl⟩
    · cases h
      exact .inr ⟨valid_of_form hform, rfl, rfl⟩
  · cases h
    exact .inr ⟨valid_of_form hform, rfl, rfl⟩
  · cases h
    exact .inl ⟨rfl, rfl⟩

theorem Screened.screen (h : manifest.Screened screening)
    (hlt : ∀ other ∈ screening.eligible, other < index)
    (hs : manifest.screen now minimumLabelAge screening index = .ok next) :
    manifest.Screened next ∧ ∀ other ∈ next.eligible, other ≤ index := by
  rcases screen_cases hs with ⟨he, hg⟩ | ⟨hv, he, hg⟩
  · refine ⟨h.congr he hg, ?_⟩
    rw [he]
    exact fun other ho => (hlt other ho).le
  · refine ⟨(h.accept hv hlt).congr he hg, ?_⟩
    rw [he]
    intro other ho
    rcases List.mem_append.mp ho with ho | ho
    · exact (hlt other ho).le
    · exact (List.mem_singleton.mp ho).le

theorem Screened.foldlM {indices : List manifest.Index} (hp : indices.Pairwise (· < ·))
    (h : manifest.Screened screening)
    (hlt : ∀ other ∈ screening.eligible, ∀ index ∈ indices, other < index)
    (hs : indices.foldlM (manifest.screen now minimumLabelAge) screening = .ok next) :
    manifest.Screened next := by
  induction indices generalizing screening with
  | nil =>
    cases hs
    exact h
  | cons index indices ih =>
    rw [List.foldlM_cons] at hs
    obtain ⟨hfirst, hrest⟩ := List.pairwise_cons.mp hp
    cases hscreen : manifest.screen now minimumLabelAge screening index with
    | error error =>
      rw [hscreen] at hs
      cases hs
    | ok middle =>
      rw [hscreen] at hs
      obtain ⟨hmiddle, hle⟩ :=
        h.screen (fun other ho => hlt other ho index List.mem_cons_self) hscreen
      refine ih hrest hmiddle ?_ hs
      intro other ho later hl
      exact (hle other ho).trans_lt (hfirst later hl)

variable {digest : DatasetManifest F → Except ElmError String} {maxSamples maxFeatures : Nat}
  {eligible : List manifest.Index} {quality : DataQualityReport F}

/-- What a validated manifest says of its eligible records. -/
structure Eligible (manifest : DatasetManifest F) (eligible : List manifest.Index) : Prop where
  ordered : eligible.Pairwise (· < ·)
  valid : ∀ index ∈ eligible, (manifest.record index).timestampValid = true
  samples : 10 ≤ eligible.length
  groups : 10 ≤ (eligible.map manifest.groupOf).dedup.length

theorem groupCount_eq {screening : Screening manifest.records.length} (h : manifest.Screened screening) :
    (screening.eligible.map manifest.groupOf).dedup.length = screening.groups.length := by
  apply List.Perm.length_eq
  apply (List.perm_ext_iff_of_nodup (List.nodup_dedup _) h.distinct).mpr
  intro group
  rw [List.mem_dedup, List.mem_map, h.groups]

theorem validate_ok (h : manifest.validate digest now maxSamples maxFeatures minimumLabelAge =
    .ok (eligible, quality)) :
    manifest.Eligible eligible ∧
      quality.trainingCutoff = quantile (manifest.orderedTimes eligible) 0.59 := by
  unfold validate at h
  simp only [bind, Except.bind, pure, Except.pure] at h
  split at h
  · cases h
  split at h
  · cases h
  next screening hscreen =>
  split at h
  · cases h
  next hsupport =>
  split at h
  · cases h
  cases h
  have hs : manifest.Screened screening := by
    apply Screened.start.foldlM (List.pairwise_lt_finRange _) _ hscreen
    intro other ho
    cases ho
  rw [Bool.or_eq_true, decide_eq_true_eq, decide_eq_true_eq, not_or, not_lt, not_lt] at hsupport
  refine ⟨⟨hs.ordered, hs.valid, hsupport.1, ?_⟩, rfl⟩
  rw [groupCount_eq hs]
  exact hsupport.2

end DatasetManifest

end Validation

end Gail.Elm
