import Gail.Elm.DatasetManifest
import Gail.Library.Gathered
import Gail.Library.Outcome
import Mathlib.Data.List.GetD
import Mathlib.Data.String.Basic

/-! The chronological partition of a data set into four roles: groups stay whole, and what is known
too late for its part is left out. -/
namespace Gail.Elm
open Gail.Library Gail.Trading

namespace DatasetManifest
variable {F : Type} (manifest : DatasetManifest F)

/-- The groups in the order of their identities. -/
def groupsById (eligible : List manifest.Index) : List (List manifest.Index) :=
  (gather manifest.groupOf (fun group index => group.getD [] ++ [index]) eligible).map Prod.snd

/-- A group is all the eligible records of one identity. -/
theorem mem_groupsById {manifest : DatasetManifest F} {eligible group : List manifest.Index} :
    group ∈ manifest.groupsById eligible ↔
      ∃ id, group = (eligible.filter fun index => manifest.groupOf index = id) ∧ group ≠ [] := by
  unfold groupsById
  simp only [List.mem_map, Prod.exists, exists_eq_right, mem_gather, gathered_collect]
  refine exists_congr fun id => ?_
  split_ifs with h
  · simp [h]
  · simp only [Option.some.injEq]
    exact ⟨fun he => ⟨he.symm, he ▸ h⟩, fun he => he.1.symm⟩

variable [Double F]

/-- `min_by(total_cmp)` of the decision times. -/
def firstTime (group : List manifest.Index) : Option F :=
  (group.map fun index => (manifest.record index).decisionTime).argmin Double.totalKey

/-- The groups in the order of their first decisions. -/
def orderedGroups (eligible : List manifest.Index) : List (List manifest.Index) :=
  sortByKey (fun group => Double.totalKey ((manifest.firstTime group).getD 0.0))
    (manifest.groupsById eligible)

/-- Where the second, the third and the fourth part begin. -/
structure SplitEnds where
  trainEnd : Nat
  tuneEnd : Nat
  calibrationEnd : Nat

def splitEnds (count : Nat) : SplitEnds :=
  let trainEnd := max (count * 60 / 100) 1
  let tuneEnd := max (count * 75 / 100) (trainEnd + 1)
  { trainEnd, tuneEnd, calibrationEnd := min (max (count * 90 / 100) (tuneEnd + 1)) (count - 1) }

/-- Training, tuning, calibration and final test. -/
abbrev Role : Type := Fin 4

instance rolesNeZero : NeZero 4 := ⟨by decide⟩

def SplitEnds.role (ends : SplitEnds) (groupIndex : Nat) : Role :=
  if groupIndex < ends.trainEnd then 0
  else if groupIndex < ends.tuneEnd then 1
  else if groupIndex < ends.calibrationEnd then 2
  else 3

/-- The first group after the part of a role. -/
def SplitEnds.following (ends : SplitEnds) (role : Role) : Option Nat :=
  match role with
  | 0 => some ends.trainEnd
  | 1 => some ends.tuneEnd
  | 2 => some ends.calibrationEnd
  | 3 => none

/-- The first decision after the part of a role. No boundary, where the source has infinity. -/
def boundary (groups : List (List manifest.Index)) (ends : SplitEnds) (role : Role) : Option F :=
  (ends.following role).bind fun point => manifest.firstTime (groups.getD point [])

def purged (groups : List (List manifest.Index)) (ends : SplitEnds) (role : Role)
    (group : List manifest.Index) (index : manifest.Index) : Bool :=
  let record := manifest.record index
  ((manifest.boundary groups ends role).any (· < record.labelAvailableTime))
    || (decide (0 < role) && record.decisionTime < (manifest.firstTime group).getD 0.0)

/-- The part of a role. -/
def part (groups : List (List manifest.Index)) (ends : SplitEnds) (role : Role) : List manifest.Index :=
  groups.zipIdx.flatMap fun (group, groupIndex) =>
    if ends.role groupIndex = role then group.filter fun index => !manifest.purged groups ends role group index
    else []

def notEnoughGroups : ElmError :=
  .invalidInput "not enough independent groups for train/tune/calibration/final partitions"

def splitGroups (eligible : List manifest.Index) : Except ElmError (Role → List manifest.Index) :=
  let groups := manifest.orderedGroups eligible
  let ends := splitEnds groups.length
  if ends.tuneEnd ≤ ends.trainEnd ∨ ends.calibrationEnd ≤ ends.tuneEnd
      ∨ groups.length ≤ ends.calibrationEnd then
    .error notEnoughGroups
  else if (List.finRange 4).any fun role => (manifest.part groups ends role).isEmpty then
    .error (.invalidInput "time/group purging left an empty evaluation partition")
  else .ok (manifest.part groups ends)

variable {manifest} {eligible group : List manifest.Index} {groups : List (List manifest.Index)}
  {ends : SplitEnds} {role later : Role} {index other : manifest.Index} {k l : Nat}

theorem mem_of_mem_group (h : group ∈ manifest.orderedGroups eligible) (hi : index ∈ group) :
    index ∈ eligible := by
  obtain ⟨id, rfl, -⟩ := mem_groupsById.mp ((sortByKey_perm _).mem_iff.mp h)
  exact List.mem_of_mem_filter hi

/-- Two groups have no identity in common. -/
def Apart (manifest : DatasetManifest F) (a b : List manifest.Index) : Prop :=
  ∀ i ∈ a, ∀ j ∈ b, manifest.groupOf i ≠ manifest.groupOf j

theorem orderedGroups_apart (eligible : List manifest.Index) :
    (manifest.orderedGroups eligible).Pairwise (Apart manifest) := by
  have hsymm : ∀ {a b : List manifest.Index}, Apart manifest a b → Apart manifest b a :=
    fun h j hj i hi he => h i hi j hj he.symm
  apply ((sortByKey_perm _).pairwise_iff hsymm).mpr
  apply List.pairwise_map.mpr
  have hranked : Ranked Prod.fst (gather manifest.groupOf (fun group index => group.getD [] ++ [index])
    eligible) := gather_ranked
  refine List.Pairwise.imp_of_mem ?_ hranked
  intro a b ha hb hlt i hi j hj he
  have hid : ∀ entry ∈ gather manifest.groupOf
      (fun group index => group.getD [] ++ [index]) eligible, ∀ i ∈ entry.2,
      manifest.groupOf i = entry.1 := by
    rintro ⟨id, group⟩ hm i hi
    rw [mem_gather, gathered_collect] at hm
    split_ifs at hm
    cases hm
    exact of_decide_eq_true (List.mem_filter.mp hi).2
  rw [hid a ha i hi, hid b hb j hj] at he
  exact hlt.ne he

theorem length_orderedGroups (eligible : List manifest.Index) :
    (manifest.orderedGroups eligible).length = (eligible.map manifest.groupOf).dedup.length := by
  rw [orderedGroups, (sortByKey_perm _).length_eq, groupsById, List.length_map,
    ← List.length_map (f := Prod.fst)]
  apply List.Perm.length_eq
  apply (List.perm_ext_iff_of_nodup (Ranked.nodup gather_ranked) (List.nodup_dedup _)).mpr
  intro id
  rw [List.mem_dedup]
  constructor
  · intro h
    obtain ⟨⟨key, group⟩, hm, rfl⟩ := List.mem_map.mp h
    rw [mem_gather, gathered_collect] at hm
    split_ifs at hm with hnil
    obtain ⟨index, hi⟩ := List.exists_mem_of_ne_nil _ hnil
    obtain ⟨hi, hid⟩ := List.mem_filter.mp hi
    exact List.mem_map.mpr ⟨index, hi, of_decide_eq_true hid⟩
  · intro h
    obtain ⟨index, hi, hid⟩ := List.mem_map.mp h
    have hnil : (eligible.filter fun index => manifest.groupOf index = id) ≠ [] :=
      List.ne_nil_of_mem (List.mem_filter.mpr ⟨hi, decide_eq_true hid⟩)
    refine List.mem_map.mpr ⟨(id, eligible.filter fun index => manifest.groupOf index = id), ?_, rfl⟩
    rw [mem_gather, gathered_collect, if_neg hnil]

theorem mem_part : index ∈ manifest.part groups ends role ↔
    ∃ k group, groups[k]? = some group ∧ ends.role k = role ∧ index ∈ group ∧
      manifest.purged groups ends role group index = false := by
  simp only [part, List.mem_flatMap, Prod.exists, List.mem_zipIdx_iff_getElem?]
  constructor
  · rintro ⟨group, k, hk, hi⟩
    split_ifs at hi with hrole
    · obtain ⟨hi, hp⟩ := List.mem_filter.mp hi
      exact ⟨k, group, hk, hrole, hi, by simpa using hp⟩
    · cases hi
  · rintro ⟨k, group, hk, hrole, hi, hp⟩
    refine ⟨group, k, hk, ?_⟩
    rw [if_pos hrole]
    exact List.mem_filter.mpr ⟨hi, by simpa using hp⟩

/-- The groups of a later part come no earlier than the first group after this one. -/
theorem following_le {point : Nat} (hf : ends.following role = some point)
    (hlt : role < ends.role l) : point ≤ l := by
  unfold SplitEnds.role at hlt
  match role, hf with
  | 0, hf =>
    cases hf
    by_contra hl
    rw [if_pos (not_le.mp hl)] at hlt
    exact absurd hlt (by decide)
  | 1, hf =>
    cases hf
    by_contra hl
    split_ifs at hlt <;> first | exact absurd hlt (by decide) | omega
  | 2, hf =>
    cases hf
    by_contra hl
    split_ifs at hlt <;> first | exact absurd hlt (by decide) | omega
  | 3, hf => cases hf

theorem following_some (hlt : role < later) : ∃ point, ends.following role = some point := by
  match role with
  | 0 | 1 | 2 => exact ⟨_, rfl⟩
  | 3 => exact absurd hlt (not_lt.mpr (Fin.le_last later))

theorem firstTime_le (hi : index ∈ group) : ∃ first ∈ group,
    manifest.firstTime group = some (manifest.record first).decisionTime ∧
      Double.totalKey (manifest.record first).decisionTime ≤
        Double.totalKey (manifest.record index).decisionTime := by
  unfold firstTime
  set times := group.map fun index => (manifest.record index).decisionTime with htimes
  have hmem : (manifest.record index).decisionTime ∈ times := List.mem_map_of_mem hi
  cases hmin : times.argmin Double.totalKey with
  | none =>
    rw [List.argmin_eq_none] at hmin
    rw [hmin] at hmem
    cases hmem
  | some time =>
    obtain ⟨first, hfirst, rfl⟩ := List.mem_map.mp (List.argmin_mem hmin)
    exact ⟨first, hfirst, rfl, List.le_of_mem_argmin hmem hmin⟩

theorem finite_of_timestampValid {record : DatasetRecord F} (h : record.timestampValid = true) :
    Scalar.isFinite record.decisionTime = true ∧ Scalar.isFinite record.labelAvailableTime = true := by
  simp only [DatasetRecord.timestampValid, Bool.and_eq_true, List.all_eq_true] at h
  have hall := h.1.1.1
  exact ⟨hall _ (by simp), hall _ (by simp)⟩

/-- The groups after a boundary decide no earlier than it says. -/
theorem boundary_le [LawfulDouble F] (hv : ∀ i ∈ eligible, (manifest.record i).timestampValid = true)
    {point : Nat} (hk : (manifest.orderedGroups eligible)[k]? = some group) (hp : point ≤ k)
    (hj : other ∈ group) :
    ∃ first ∈ eligible,
      manifest.firstTime ((manifest.orderedGroups eligible).getD point []) =
        some (manifest.record first).decisionTime ∧
      (manifest.record first).decisionTime ≤ (manifest.record other).decisionTime := by
  obtain ⟨hklt, rfl⟩ := List.getElem?_eq_some_iff.mp hk
  have hplt : point < (manifest.orderedGroups eligible).length := by omega
  set pointed := (manifest.orderedGroups eligible)[point] with hpointed
  have hnil : pointed ≠ [] := by
    obtain ⟨id, -, hne⟩ :=
      mem_groupsById.mp ((sortByKey_perm _).mem_iff.mp (List.getElem_mem hplt))
    exact hne
  obtain ⟨index, hindex⟩ := List.exists_mem_of_ne_nil _ hnil
  obtain ⟨first, hfirst, hpfirst, -⟩ := firstTime_le hindex
  obtain ⟨own, hown, hkfirst, hle⟩ := firstTime_le hj
  have hfirst := mem_of_mem_group (List.getElem_mem hplt) hfirst
  have hj := mem_of_mem_group (List.getElem_mem hklt) hj
  -- The groups are ordered by their first decisions, so the key at the boundary is the least.
  have hkeys : Double.totalKey (manifest.record first).decisionTime ≤
      Double.totalKey (manifest.record own).decisionTime := by
    rcases hp.lt_or_eq with h | rfl
    · have hsorted := List.pairwise_iff_getElem.mp
        (pairwise_sortByKey (fun group => Double.totalKey ((manifest.firstTime group).getD 0.0))
          (manifest.groupsById eligible)) point k hplt hklt h
      have hpoint : manifest.firstTime ((sortByKey (fun group =>
          Double.totalKey ((manifest.firstTime group).getD 0.0)) (manifest.groupsById eligible))[point]) =
          some (manifest.record first).decisionTime := hpfirst
      have hgroup : manifest.firstTime ((sortByKey (fun group =>
          Double.totalKey ((manifest.firstTime group).getD 0.0)) (manifest.groupsById eligible))[k]) =
          some (manifest.record own).decisionTime := hkfirst
      rw [hpoint, hgroup] at hsorted
      exact hsorted
    · rw [hpfirst] at hkfirst
      rw [Option.some.inj hkfirst]
  refine ⟨first, hfirst, ?_, ?_⟩
  · rw [List.getD_eq_getElem _ _ hplt]
    exact hpfirst
  · exact LawfulDouble.le_of_totalKey _ _ (finite_of_timestampValid (hv first hfirst)).1
      (finite_of_timestampValid (hv other hj)).1 (hkeys.trans hle)

/-- What stays in an earlier part is known when a later part first decides. -/
theorem label_le [LawfulDouble F] (hv : ∀ i ∈ eligible, (manifest.record i).timestampValid = true)
    (hlt : role < later) (hi : index ∈ manifest.part (manifest.orderedGroups eligible) ends role)
    (hj : other ∈ manifest.part (manifest.orderedGroups eligible) ends later) :
    (manifest.record index).labelAvailableTime ≤ (manifest.record other).decisionTime := by
  obtain ⟨k, group, hk, hrole, hin, hp⟩ := mem_part.mp hi
  obtain ⟨l, laterGroup, hl, hlater, hjn, -⟩ := mem_part.mp hj
  obtain ⟨point, hpoint⟩ := following_some hlt
  have hle : point ≤ l := following_le hpoint (hlater ▸ hlt)
  obtain ⟨first, hfirst, htime, hbound⟩ := boundary_le hv hl hle hjn
  have hkept : ¬ (manifest.record first).decisionTime < (manifest.record index).labelAvailableTime := by
    intro hlate
    rw [purged, Bool.or_eq_false_iff, boundary, hpoint, Option.bind_some, htime] at hp
    exact of_decide_eq_false hp.1 hlate
  have hin' := mem_of_mem_group (List.mem_of_getElem? hk) hin
  exact LawfulDouble.le_trans _ _ _
    (LawfulDouble.le_of_not_lt _ _ (finite_of_timestampValid (hv first hfirst)).1
      (finite_of_timestampValid (hv index hin')).2 hkept) hbound

theorem role_of_same_group (hi : index ∈ manifest.part (manifest.orderedGroups eligible) ends role)
    (hj : other ∈ manifest.part (manifest.orderedGroups eligible) ends later)
    (hg : manifest.groupOf index = manifest.groupOf other) : role = later := by
  obtain ⟨k, group, hk, rfl, hin, -⟩ := mem_part.mp hi
  obtain ⟨l, laterGroup, hl, rfl, hjn, -⟩ := mem_part.mp hj
  have hapart := List.pairwise_iff_getElem.mp (orderedGroups_apart eligible)
  obtain ⟨hklt, rfl⟩ := List.getElem?_eq_some_iff.mp hk
  obtain ⟨hllt, rfl⟩ := List.getElem?_eq_some_iff.mp hl
  rcases lt_trichotomy k l with h | rfl | h
  · exact absurd hg (hapart k l hklt hllt h index hin other hjn)
  · rfl
  · exact absurd hg.symm (hapart l k hllt hklt h other hjn index hin)

theorem splitEnds_lt {count : Nat} (h : 10 ≤ count) :
    (splitEnds count).trainEnd < (splitEnds count).tuneEnd ∧
      (splitEnds count).tuneEnd < (splitEnds count).calibrationEnd ∧
        (splitEnds count).calibrationEnd < count := by
  simp only [splitEnds]
  omega

theorem splitGroups_ok {parts : Role → List manifest.Index}
    (h : manifest.splitGroups eligible = .ok parts) :
    parts = manifest.part (manifest.orderedGroups eligible)
      (splitEnds (manifest.orderedGroups eligible).length) := by
  unfold splitGroups at h
  simp only at h
  split_ifs at h
  cases h
  rfl

theorem nodup_part (hd : eligible.Nodup) :
    (manifest.part (manifest.orderedGroups eligible) ends role).Nodup := by
  apply List.nodup_flatMap.mpr
  constructor
  · rintro ⟨group, k⟩ hk
    dsimp only
    split_ifs
    · obtain ⟨id, rfl, -⟩ :=
        mem_groupsById.mp ((sortByKey_perm _).mem_iff.mp (List.fst_mem_of_mem_zipIdx hk))
      exact (hd.filter _).filter _
    · exact List.nodup_nil
  · have hapart : (manifest.orderedGroups eligible).Pairwise (Apart manifest) := orderedGroups_apart eligible
    rw [← List.zipIdx_map_fst 0 (manifest.orderedGroups eligible), List.pairwise_map] at hapart
    refine hapart.imp ?_
    rintro ⟨group, k⟩ ⟨other, l⟩ h index hi hj
    have hfrom : ∀ {role k} {group : List manifest.Index}, index ∈ (if ends.role k = role then
        group.filter fun index => !manifest.purged (manifest.orderedGroups eligible) ends role group index
        else []) → index ∈ group := by
      intro role k group hin
      split_ifs at hin
      · exact List.mem_of_mem_filter hin
      · cases hin
    exact h index (hfrom hi) index (hfrom hj) rfl

theorem splitGroups_ne_notEnough (h : 10 ≤ (eligible.map manifest.groupOf).dedup.length) :
    manifest.splitGroups eligible ≠ .error notEnoughGroups := by
  rw [← length_orderedGroups] at h
  have hends := splitEnds_lt h
  unfold splitGroups
  simp only
  rw [if_neg (by omega)]
  split_ifs
  · intro he
    exact absurd (Except.error.inj he) (by decide)
  · intro he
    cases he

theorem mem_of_splitGroups {parts : Role → List manifest.Index}
    (h : manifest.splitGroups eligible = .ok parts) (hi : index ∈ parts role) : index ∈ eligible := by
  rw [splitGroups_ok h] at hi
  obtain ⟨k, group, hk, -, hin, -⟩ := mem_part.mp hi
  exact mem_of_mem_group (List.mem_of_getElem? hk) hin

/-- A valid split keeps groups together, its parts apart, and nothing in a part that becomes known
after a decision of a later one; and it never fails for want of groups. -/
theorem split_keeps_time_order [LawfulDouble F] {digest : DatasetManifest F → Except ElmError String}
    {now : F} {maxSamples maxFeatures minimumLabelAge : Nat} {quality : DataQualityReport F}
    (h : manifest.validate digest now maxSamples maxFeatures minimumLabelAge = .ok (eligible, quality)) :
    (∀ parts, manifest.splitGroups eligible = .ok parts →
      (∀ role, (parts role).Nodup ∧ ∀ index ∈ parts role, index ∈ eligible) ∧
      (∀ role later, role ≠ later → (parts role).Disjoint (parts later)) ∧
      (∀ role later, ∀ index ∈ parts role, ∀ other ∈ parts later,
        manifest.groupOf index = manifest.groupOf other → role = later) ∧
      ∀ role later, role < later → ∀ index ∈ parts role, ∀ other ∈ parts later,
        (manifest.record index).labelAvailableTime ≤ (manifest.record other).decisionTime) ∧
    (10 ≤ (eligible.map manifest.groupOf).dedup.length →
      manifest.splitGroups eligible ≠ .error notEnoughGroups) := by
  obtain ⟨heligible, -⟩ := validate_ok h
  refine ⟨fun parts hparts => ?_, splitGroups_ne_notEnough⟩
  obtain rfl := splitGroups_ok hparts
  refine ⟨fun role => ⟨?_, fun index => mem_of_splitGroups hparts⟩, ?_, ?_, ?_⟩
  · exact nodup_part (heligible.ordered.imp fun h => h.ne)
  · intro role later hne index hi hj
    exact hne (role_of_same_group hi hj rfl)
  · intro role later index hi other hj hg
    exact role_of_same_group hi hj hg
  · intro role later hlt index hi other hj
    exact label_le heligible.valid hlt hi hj

end DatasetManifest

/-- A record that is decided, and known, at one time. -/
def DatasetRecord.sample (position : Nat) (group : String) (time : ℚ) : DatasetRecord ℚ :=
  { recordId := String.ofList (List.replicate (position + 1) 'r')
    groupId := group
    subgroupId := "all"
    eventTime := time
    observationTime := time
    decisionTime := time
    labelAvailableTime := time
    features := [0]
    target := [0] }

namespace DatasetManifest

/-- The data set of the groups and times of its records. -/
def sample (rows : List (String × ℚ)) : DatasetManifest ℚ :=
  { formatVersion := datasetFormatVersion
    datasetId := "orders"
    permitted := true
    fixtureOnly := false
    tenantScope := "tenant"
    domainScope := "trading"
    taskId := "edge"
    taskKind := .regression
    featureSchema := { id := "orders", version := 1, names := ["depth"], units := ["one"] }
    targetSchemaId := "edge"
    targetNames := ["edge"]
    targetUnits := ["one"]
    classMapping := []
    horizonSeconds := none
    provenance := "ledger"
    records := rows.zipIdx.map fun ((group, time), position) => .sample position group time }

theorem exists_quality {manifest : DatasetManifest ℚ} {digest : DatasetManifest ℚ → Except ElmError String}
    {now : ℚ} {maxSamples maxFeatures minimumLabelAge : Nat} {eligible : List manifest.Index}
    (h : ((manifest.validate digest now maxSamples maxFeatures minimumLabelAge).map Prod.fst).toOption =
      some eligible) :
    ∃ quality, manifest.validate digest now maxSamples maxFeatures minimumLabelAge =
      .ok (eligible, quality) := by
  cases hv : manifest.validate digest now maxSamples maxFeatures minimumLabelAge with
  | error error =>
    rw [hv] at h
    cases h
  | ok result =>
    rw [hv] at h
    cases h
    exact ⟨result.2, rfl⟩

theorem split_keeps_time_order_of_ten :
    let manifest := sample [("a", 0), ("b", 1), ("c", 2), ("d", 3), ("e", 4), ("f", 5), ("g", 6),
      ("h", 7), ("i", 8), ("j", 9)]
    ∃ parts, manifest.splitGroups (List.finRange _) = .ok parts ∧
      ∀ role later, role < later → ∀ index ∈ parts role, ∀ other ∈ parts later,
        (manifest.record index).labelAvailableTime ≤ (manifest.record other).decisionTime := by
  intro manifest
  have hvalid : ((manifest.validate (fun _ => .ok "") 9 100 100 0).map Prod.fst).toOption =
      some (List.finRange _) := by
    decide +kernel
  obtain ⟨quality, hvalid⟩ := exists_quality hvalid
  obtain ⟨hsplit, -⟩ := split_keeps_time_order hvalid
  have hok : (manifest.splitGroups (List.finRange _)).toBool = true := by
    decide +kernel
  obtain ⟨parts, hparts⟩ := ok_of_toBool hok
  exact ⟨parts, hparts, (hsplit parts hparts).2.2.2⟩

end DatasetManifest

end Gail.Elm
