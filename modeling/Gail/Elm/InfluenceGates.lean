import Gail.Elm.CanaryRequests
import Gail.Library.FloatSum
import Gail.Library.Outcome
import Gail.Trading.ScalarOrder

/-! What the gates let a learned model do: influence is for the champion of an allowed task alone, within its stage,
its domain and both of its caps. -/
namespace Gail.Elm
open Gail.Library Gail.Trading

/-- What the gates rest on, of doubles and of exact numbers. -/
class LawfulGates (F : Type) [Scalar F] : Prop extends Scalar.Comparable F where
  number_of_isFinite {a : F} : Scalar.isFinite a = true → a ≤ a
  number_sub_div {value mean scale : F} : Scalar.isFinite value = true → Scalar.isFinite mean = true →
    Scalar.isFinite scale = true → 0.0 < scale → (value - mean) / scale ≤ (value - mean) / scale
  number_abs {a : F} : a ≤ a → Scalar.abs a ≤ Scalar.abs a
  isFinite_of_abs_le {a b : F} : Scalar.isFinite b = true → Scalar.abs a ≤ b → Scalar.isFinite a = true
  le_max {a b : F} : a ≤ a → b ≤ b → a ≤ Scalar.max a b ∧ b ≤ Scalar.max a b

instance : LawfulGates ℚ where
  number_of_isFinite _ := le_rfl
  number_sub_div _ _ _ _ := le_rfl
  number_abs _ := le_rfl
  isFinite_of_abs_le _ _ := rfl
  le_max {a b} _ _ := by
    change a ≤ (if a < b then b else a) ∧ b ≤ if a < b then b else a
    split_ifs with h
    · exact ⟨h.le, le_rfl⟩
    · exact ⟨le_rfl, not_lt.mp h⟩

instance : LawfulGates Float where
  number_of_isFinite := FloatOrder.number_of_isFinite
  number_sub_div := FloatOrder.number_sub_div
  number_abs := FloatOrder.number_abs
  isFinite_of_abs_le := FloatOrder.isFinite_of_abs_le
  le_max {a b} ha hb := by
    have hnumber {x : Float} (hx : x ≤ x) : ¬ x.isNaN = true := fun hnan => FloatOrder.isNaN_iff.mp hnan hx
    change a ≤ (if a.isNaN then b else if b.isNaN then a else if a < b then b else a) ∧
      b ≤ if a.isNaN then b else if b.isNaN then a else if a < b then b else a
    rw [if_neg (hnumber ha), if_neg (hnumber hb)]
    split_ifs with h
    · exact ⟨(Scalar.Comparable.lt_iff.mp h).1, hb⟩
    · exact ⟨ha, Scalar.le_of_not_lt ha hb h⟩

section Validation
variable {F : Type} [Scalar F]

/-- The checks of a policy when its configuration is loaded. -/
def PromotionPolicy.validate (policy : PromotionPolicy F) (name : String) : Except String Unit :=
  let fail (reason : String) : Except String Unit := .error ("elm.promotion_policies." ++ name ++ reason)
  let fractions := [policy.confidenceLevel, policy.canaryFraction, policy.minimumIntervalCoverage,
    policy.authorisedInfluence]
  let thresholds := [policy.minimumPracticalImprovement, policy.nonInferiorityTolerance,
    policy.maximumCalibrationError, policy.maximumP95OverheadMs, policy.maximumP99OverheadMs,
    policy.maximumDriftScore, policy.maximumOodScore, policy.rollbackRegression]
  if fractions.any (·.any fun value => !Scalar.isFinite value || !(0.0 ≤ value && value ≤ 1.0)) then
    fail " contains a value outside [0, 1]"
  else if policy.confidenceLevel.any (fun value => value ≤ 0.5 || 1.0 ≤ value)
      || policy.maximumCalibrationError.any (1.0 < ·) || policy.minimumEffectiveSamples = some 0
      || policy.minimumSubgroupSamples = some 0 || policy.minimumObservationSeconds = some 0
      || policy.canaryMaxDecisions = some 0 || policy.expirySeconds = some 0 || policy.retrainBudgetPerDay = some 0 then
    fail " has invalid confidence or a zero support/budget value"
  else if thresholds.any (·.any fun value => !Scalar.isFinite value || value < 0.0) then
    fail " contains a negative or non-finite threshold"
  else if policy.isComplete
      && policy.maximumP95OverheadMs.any fun p95 => policy.maximumP99OverheadMs.any fun p99 => p99 < p95 then
    fail " p95 overhead budget must not exceed p99"
  else .ok ()

/-- `normalize` has accepted the policies. -/
def ElmConfig.PoliciesValid (config : ElmConfig F) : Prop :=
  ∀ (name : String) (policy : PromotionPolicy F), config.promotionPolicies[name]? = some policy →
    policy.validate name = .ok ()

/-- The preprocessors have been read from JSON, which has finite numbers only. -/
def RegistryState.MeansFinite (state : RegistryState) (details : ElmArtifact → ModelDetails F) : Prop :=
  ∀ task artifact, state.champion task = some artifact →
    ∀ mean ∈ (details artifact).preprocessor.means, Scalar.isFinite mean = true

end Validation

section Authority
variable {F : Type} [Scalar F]

/-- `admit`, on one state of the registry. -/
def admitDecision (config : ElmConfig F) (details : ElmArtifact → ModelDetails F) (state : RegistryState)
    (context : DecisionContext F) : GatedModel F :=
  let champion := state.champion context.taskId
  admitRequest config details champion (champion.bind fun artifact => state.record artifact.metadata.modelId)
    ((champion.map fun artifact => state.canaryDecisions artifact.metadata.modelId).getD 0) context

/-- What a model has that may act on a decision with some influence. -/
structure MayAct (config : ElmConfig F) (details : ElmArtifact → ModelDetails F) (state : RegistryState)
    (context : DecisionContext F) (task : ElmTaskConfig F) (policy : PromotionPolicy F) (artifact : ElmArtifact)
    (record : RegistryRecord) (influence : F) : Prop where
  mode : config.effectiveMode context.taskId = .auto
  configured : config.tasks[context.taskId]? = some task
  allowed : task.allowed = true
  champion : state.champion context.taskId = some artifact
  recorded : state.record artifact.metadata.modelId = some record
  policy_eq : config.policy context.taskId = some policy
  stage : (record.stage = .canary ∧ task.maxStage.reaches .canary = true ∧ ∃ budget,
      policy.canaryMaxDecisions = some budget ∧ state.canaryDecisions artifact.metadata.modelId < budget.toNat) ∨
    (record.stage = .active ∧ task.maxStage.reaches .active = true)
  notFixture : artifact.metadata.fixtureOnly = false
  notExpired : ∀ expiry, (details artifact).expiryUnixSeconds = some expiry → context.now ≤ expiry
  schema : artifact.featureSchema = context.featureSchema ∧
    artifact.featureSchema.names.length = context.featureValues.length
  tenant : artifact.metadata.tenantScope = context.tenantScope
  calibrated : (details artifact).calibrated = true
  inDomain : ∃ row bound, (details artifact).preprocessor.transform context.featureValues = .ok row ∧
    policy.maximumOodScore = some bound ∧
      ∀ feature ∈ row, Scalar.isFinite feature = true ∧ Scalar.abs feature ≤ bound
  positive : 0.0 < influence
  belowTask : influence ≤ task.influenceCap
  belowPolicy : ∃ cap, policy.authorisedInfluence = some cap ∧ influence ≤ cap

end Authority

section Models
variable {F : Type} {context : DecisionContext F}

theorem of_admitModel {details : ElmArtifact → ModelDetails F} {champion : Option ElmArtifact}
    {record? : Option RegistryRecord} {artifact : ElmArtifact} {record : RegistryRecord}
    (h : admitModel details champion record? context = .ok (artifact, record)) :
    champion = some artifact ∧ record? = some record ∧ artifact.metadata.fixtureOnly = false ∧
      (∀ expiry, (details artifact).expiryUnixSeconds = some expiry → context.now ≤ expiry) ∧
      (artifact.featureSchema = context.featureSchema ∧
        artifact.featureSchema.names.length = context.featureValues.length) ∧
      artifact.metadata.tenantScope = context.tenantScope := by
  unfold admitModel at h
  cases champion with
  | none => cases h
  | some found =>
    cases record? with
    | none => cases h
    | some kept =>
      obtain ⟨-, h⟩ := ok_of_ite h
      obtain ⟨hfixture, h⟩ := ok_of_ite h
      obtain ⟨hexpiry, h⟩ := ok_of_ite h
      obtain ⟨hschema, h⟩ := ok_of_ite h
      obtain ⟨htenant, h⟩ := ok_of_ite h
      obtain ⟨rfl, rfl⟩ := Prod.mk.inj (Except.ok.inj h)
      refine ⟨rfl, rfl, by simpa using hfixture, fun expiry hexpires => ?_, by simpa using hschema,
        by simpa using htenant⟩
      rw [hexpires] at hexpiry
      simpa using hexpiry

theorem of_isComplete {policy : PromotionPolicy F} (h : policy.isComplete = true) :
    policy.maximumOodScore.isSome = true ∧ policy.canaryMaxDecisions.isSome = true := by
  simp only [PromotionPolicy.isComplete, Bool.and_eq_true] at h
  tauto

theorem of_stageAuthorised {stage : LifecycleStage} {task : ElmTaskConfig F}
    (h : stageAuthorised stage task = true) :
    (stage = .canary ∧ task.maxStage.reaches .canary = true) ∨
      (stage = .active ∧ task.maxStage.reaches .active = true) := by
  cases stage with
  | canary => exact .inl ⟨rfl, h⟩
  | active => exact .inr ⟨rfl, h⟩
  | _ => cases h

end Models

section Passed
variable {F : Type} [Scalar F] {config : ElmConfig F} {context : DecisionContext F}

/-- What the gates before the registry leave of a decision. -/
theorem of_admitTask {task : ElmTaskConfig F} (h : admitTask config context = .ok task) :
    config.tasks[context.taskId]? = some task ∧ task.allowed = true ∧
      ∀ value ∈ context.featureValues, Scalar.isFinite value = true := by
  unfold admitTask at h
  obtain ⟨-, h⟩ := ok_of_ite h
  obtain ⟨-, h⟩ := ok_of_ite h
  cases htask : config.tasks[context.taskId]? with
  | none =>
    rw [htask] at h
    cases h
  | some configured =>
    rw [htask] at h
    obtain ⟨hallowed, h⟩ := ok_of_ite h
    obtain ⟨-, h⟩ := ok_of_ite h
    obtain ⟨-, h⟩ := ok_of_ite h
    obtain ⟨-, h⟩ := ok_of_ite h
    obtain ⟨-, h⟩ := ok_of_ite h
    obtain ⟨hvalues, h⟩ := ok_of_ite h
    obtain rfl := Except.ok.inj h
    rw [Bool.or_eq_true, not_or, List.any_eq_true, not_exists] at hvalues
    refine ⟨rfl, by simpa using hallowed, fun value hvalue => ?_⟩
    simpa [hvalue] using hvalues.2 value

theorem of_admitPolicy {details : ModelDetails F} {stage : LifecycleStage} {canaryDecisions : Nat}
    {task : ElmTaskConfig F} {policy : PromotionPolicy F}
    (h : admitPolicy config details stage canaryDecisions task context = .ok policy) :
    config.policy context.taskId = some policy ∧ policy.isComplete = true ∧
      ¬(stage = .canary ∧ (policy.canaryMaxDecisions.getD 0).toNat ≤ canaryDecisions) ∧
      details.calibrated = true ∧
      ∃ row, details.preprocessor.transform context.featureValues = .ok row ∧
        ¬ policy.maximumOodScore.getD 0.0 < (row.map Scalar.abs).foldl Scalar.max 0.0 := by
  unfold admitPolicy at h
  cases hpolicy : config.policy context.taskId with
  | none =>
    rw [hpolicy] at h
    cases h
  | some configured =>
    rw [hpolicy] at h
    obtain ⟨hcomplete, h⟩ := ok_of_ite h
    obtain ⟨hbudget, h⟩ := ok_of_ite h
    cases htransform : details.preprocessor.transform context.featureValues with
    | error error =>
      rw [htransform] at h
      cases h
    | ok row =>
      rw [htransform] at h
      obtain ⟨hdomain, h⟩ := ok_of_ite h
      obtain ⟨hcalibrated, h⟩ := ok_of_ite h
      obtain ⟨-, h⟩ := ok_of_ite h
      obtain ⟨-, h⟩ := ok_of_ite h
      obtain rfl := Except.ok.inj h
      exact ⟨rfl, by simpa using hcomplete, hbudget, by simpa using hcalibrated, row, rfl, hdomain⟩

/-- A policy that is valid bounds the domain by a finite number. -/
theorem isFinite_of_validate {policy : PromotionPolicy F} {name : String} (h : policy.validate name = .ok ())
    {bound : F} (hbound : policy.maximumOodScore = some bound) : Scalar.isFinite bound = true := by
  unfold PromotionPolicy.validate at h
  obtain ⟨-, h⟩ := ok_of_ite h
  obtain ⟨-, h⟩ := ok_of_ite h
  obtain ⟨hthresholds, -⟩ := ok_of_ite h
  rw [Bool.not_eq_true, List.any_eq_false] at hthresholds
  have hscore := hthresholds policy.maximumOodScore (by simp)
  rw [hbound, Option.any_some, Bool.or_eq_true, not_or] at hscore
  simpa using hscore.1

/-- Automatic influence is authorised, of a model that has passed all gates. -/
def AutoAuthorised (config : ElmConfig F) (context : DecisionContext F) (task : ElmTaskConfig F)
    (record : RegistryRecord) (policy : PromotionPolicy F) (influence : F) : Prop :=
  config.effectiveMode context.taskId = .auto ∧ stageAuthorised record.stage task = true ∧ 0.0 < influence ∧
    policy.authorisedInfluence.any (0.0 < ·) = true

/-- A decision is gated out, or all gates are passed and the influence depends on the authorisation. -/
theorem admitRequest_cases (config : ElmConfig F) (details : ElmArtifact → ModelDetails F)
    (champion : Option ElmArtifact) (record? : Option RegistryRecord) (canaryDecisions : Nat)
    (context : DecisionContext F) :
    ((admitRequest config details champion record? canaryDecisions context).artifact = none ∧
        (admitRequest config details champion record? canaryDecisions context).influenceCap = 0.0) ∨
      ∃ task artifact record policy, admitTask config context = .ok task ∧
        admitModel details champion record? context = .ok (artifact, record) ∧
        admitPolicy config (details artifact) record.stage canaryDecisions task context = .ok policy ∧
        (admitRequest config details champion record? canaryDecisions context).artifact = some artifact ∧
        (AutoAuthorised config context task record policy (clamp task.influenceCap 0.0 1.0) ∧
            (admitRequest config details champion record? canaryDecisions context).shadow = false ∧
            (admitRequest config details champion record? canaryDecisions context).influenceCap =
              least (clamp task.influenceCap 0.0 1.0) (policy.authorisedInfluence.getD 0.0) ∨
          (admitRequest config details champion record? canaryDecisions context).shadow = true ∧
            (admitRequest config details champion record? canaryDecisions context).influenceCap = 0.0) := by
  unfold admitRequest
  cases htask : admitTask config context with
  | error reason => exact .inl ⟨rfl, rfl⟩
  | ok task =>
    cases hmodel : admitModel details champion record? context with
    | error reason => exact .inl ⟨rfl, rfl⟩
    | ok served =>
      obtain ⟨artifact, record⟩ := served
      dsimp only [Bind.bind, Except.bind]
      cases hgates : admitPolicy config (details artifact) record.stage canaryDecisions task context with
      | error reason => exact .inl ⟨rfl, rfl⟩
      | ok policy =>
        have hinfluence : (config.tasks[context.taskId]?.map fun task => clamp task.influenceCap 0.0 1.0).getD 0.0 =
            clamp task.influenceCap 0.0 1.0 := by rw [(of_admitTask htask).1]; rfl
        refine .inr ⟨task, artifact, record, policy, rfl, rfl, hgates, rfl, ?_⟩
        rw [hinfluence]
        by_cases hauto : AutoAuthorised config context task record policy (clamp task.influenceCap 0.0 1.0)
        · exact .inl ⟨hauto, decide_eq_false (not_not.mpr hauto), if_pos hauto⟩
        · exact .inr ⟨decide_eq_true hauto, if_neg hauto⟩

end Passed

section Domain
variable {F : Type} [Scalar F] [LawfulGates F]

theorem number_zero : (0.0 : F) ≤ 0.0 := (Scalar.Comparable.numbers Scalar.Comparable.zero_le_one).1

/-- The fold of the largest is above every number that it goes over. -/
theorem le_foldl_max {row : List F} {start : F} (hstart : start ≤ start) (hrow : ∀ x ∈ row, x ≤ x) :
    (start ≤ row.foldl Scalar.max start ∧ ∀ x ∈ row, x ≤ row.foldl Scalar.max start) := by
  induction row generalizing start with
  | nil => exact ⟨hstart, fun x hx => absurd hx List.not_mem_nil⟩
  | cons y row ih =>
    obtain ⟨hy, hrow⟩ := List.forall_mem_cons.mp hrow
    obtain ⟨hleft, hright⟩ := LawfulGates.le_max hstart hy
    obtain ⟨hfirst, hrest⟩ := ih (Scalar.Comparable.numbers hleft).2 hrow
    rw [List.foldl_cons]
    exact ⟨Scalar.Comparable.le_trans hleft hfirst,
      List.forall_mem_cons.mpr ⟨Scalar.Comparable.le_trans hright hfirst, hrest⟩⟩

/-- Where means and features are finite, a transformed feature is a number, although it may be infinite. -/
theorem number_of_transform {preprocessor : Preprocessor F} {values row : List F}
    (hmeans : ∀ mean ∈ preprocessor.means, Scalar.isFinite mean = true)
    (hvalues : ∀ value ∈ values, Scalar.isFinite value = true) (h : preprocessor.transform values = .ok row) :
    ∀ x ∈ row, x ≤ x := by
  unfold Preprocessor.transform at h
  obtain ⟨hfitted, h⟩ := ok_of_ite h
  obtain ⟨-, h⟩ := ok_of_ite h
  obtain ⟨-, h⟩ := ok_of_ite h
  obtain ⟨-, h⟩ := ok_of_ite h
  obtain ⟨-, h⟩ := ok_of_ite h
  obtain rfl := Except.ok.inj h
  rw [Bool.or_eq_true, not_or, List.any_eq_true, not_exists] at hfitted
  intro x hx
  rw [← List.map_uncurry_zip_eq_zipWith] at hx
  obtain ⟨⟨value, mean, scale⟩, hpair, rfl⟩ := List.mem_map.mp hx
  obtain ⟨hvalue, hfit⟩ := List.of_mem_zip hpair
  obtain ⟨hmean, hscale⟩ := List.of_mem_zip hfit
  obtain ⟨hfinite, hpositive⟩ : Scalar.isFinite scale = true ∧ ¬ scale ≤ 0.0 := by simpa [hscale] using hfitted.2 scale
  have hnumber := LawfulGates.number_of_isFinite hfinite
  have hzero : 0.0 < scale := Scalar.Comparable.lt_iff.mpr
    ⟨(Scalar.Comparable.total number_zero hnumber).resolve_right hpositive, hpositive⟩
  exact LawfulGates.number_sub_div (hvalues value hvalue) (hmeans mean hmean) hfinite hzero

/-- In the domain are finite features alone. -/
theorem inDomain {row : List F} {bound : F} (hrow : ∀ x ∈ row, x ≤ x) (hbound : Scalar.isFinite bound = true)
    (h : ¬ bound < (row.map Scalar.abs).foldl Scalar.max 0.0) :
    ∀ x ∈ row, Scalar.isFinite x = true ∧ Scalar.abs x ≤ bound := by
  have habs : ∀ y ∈ row.map Scalar.abs, y ≤ y := by
    intro y hy
    obtain ⟨x, hx, rfl⟩ := List.mem_map.mp hy
    exact LawfulGates.number_abs (hrow x hx)
  obtain ⟨hzero, hall⟩ := le_foldl_max number_zero habs
  have hle := Scalar.le_of_not_lt (LawfulGates.number_of_isFinite hbound) (Scalar.Comparable.numbers hzero).2 h
  intro x hx
  have hx := Scalar.Comparable.le_trans (hall _ (List.mem_map_of_mem hx)) hle
  exact ⟨LawfulGates.isFinite_of_abs_le hbound hx, hx⟩

end Domain

section Results
variable {F : Type} [Scalar F] [LawfulGates F] {config : ElmConfig F} {details : ElmArtifact → ModelDetails F}
  {state : RegistryState}

theorem clamp_le_of_pos {cap : F} (h : 0.0 < clamp cap 0.0 1.0) : clamp cap 0.0 1.0 ≤ cap := by
  unfold clamp at h ⊢
  split_ifs at h ⊢ with hlow hhigh
  · exact absurd h (Scalar.lt_irrefl _)
  · exact (Scalar.Comparable.lt_iff.mp hhigh).1
  · exact (Scalar.Comparable.numbers (Scalar.Comparable.lt_iff.mp h).1).2

theorem least_pos {x y : F} (hx : 0.0 < x) (hy : 0.0 < y) : 0.0 < least x y ∧ least x y ≤ x ∧ least x y ≤ y := by
  have hnumber {z : F} (hz : 0.0 < z) : z ≤ z := (Scalar.Comparable.numbers (Scalar.Comparable.lt_iff.mp hz).1).2
  unfold least
  split_ifs with h
  · exact ⟨hy, (Scalar.Comparable.lt_iff.mp h).1, hnumber hy⟩
  · exact ⟨hx, hnumber hx, Scalar.le_of_not_lt (hnumber hy) (hnumber hx) h⟩

theorem mayAct_of_gates (hconfig : config.PoliciesValid) (hmeans : state.MeansFinite details)
    {context : DecisionContext F} {task : ElmTaskConfig F} {artifact : ElmArtifact} {record : RegistryRecord}
    {policy : PromotionPolicy F} (htask : admitTask config context = .ok task)
    (hchampion : state.champion context.taskId = some artifact)
    (hmodel : admitModel details (some artifact) (state.record artifact.metadata.modelId) context =
      .ok (artifact, record))
    (hgates : admitPolicy config (details artifact) record.stage (state.canaryDecisions artifact.metadata.modelId)
      task context = .ok policy)
    (hauto : AutoAuthorised config context task record policy (clamp task.influenceCap 0.0 1.0)) :
    MayAct config details state context task policy artifact record
      (least (clamp task.influenceCap 0.0 1.0) (policy.authorisedInfluence.getD 0.0)) := by
  obtain ⟨hconfigured, hallowed, hvalues⟩ := of_admitTask htask
  obtain ⟨-, hrecord, hfixture, hexpiry, hschema, htenant⟩ := of_admitModel hmodel
  obtain ⟨hpolicy, hcomplete, hbudget, hcalibrated, row, hrow, hdomain⟩ := of_admitPolicy hgates
  obtain ⟨hmode, hstage, hinfluence, hcap⟩ := hauto
  obtain ⟨hscore, hmaximum⟩ := of_isComplete hcomplete
  obtain ⟨bound, hbound⟩ := Option.isSome_iff_exists.mp hscore
  obtain ⟨budget, hdecisions⟩ := Option.isSome_iff_exists.mp hmaximum
  rw [hbound, Option.getD_some] at hdomain
  rw [hdecisions, Option.getD_some, not_and, not_le] at hbudget
  obtain ⟨name, hname⟩ : ∃ name, config.promotionPolicies[(name : String)]? = some policy := by
    obtain ⟨configured, -, hnamed⟩ := Option.bind_eq_some_iff.mp hpolicy
    exact ⟨_, hnamed⟩
  have hfinite := isFinite_of_validate (hconfig name policy hname) hbound
  have hnumbers := number_of_transform (hmeans _ artifact hchampion) hvalues hrow
  cases hauthorised : policy.authorisedInfluence with
  | none =>
    rw [hauthorised] at hcap
    cases hcap
  | some cap =>
    rw [hauthorised, Option.any_some, decide_eq_true_eq] at hcap
    obtain ⟨hpositive, hfirst, hsecond⟩ := least_pos hinfluence hcap
    exact {
      mode := hmode
      configured := hconfigured
      allowed := hallowed
      champion := hchampion
      recorded := hrecord
      policy_eq := hpolicy
      stage := (of_stageAuthorised hstage).imp
        (fun ⟨hcanary, hreaches⟩ => ⟨hcanary, hreaches, budget, hdecisions, hbudget hcanary⟩) id
      notFixture := hfixture
      notExpired := hexpiry
      schema := hschema
      tenant := htenant
      calibrated := hcalibrated
      inDomain := ⟨row, bound, hrow, hbound, inDomain hnumbers hfinite hdomain⟩
      positive := hpositive
      belowTask := Scalar.Comparable.le_trans hfirst (clamp_le_of_pos hinfluence)
      belowPolicy := ⟨cap, hauthorised, hsecond⟩ }

/-- Influence is that of a model that may act, or it is zero and what is returned is a shadow. -/
theorem admitDecision_cases (hconfig : config.PoliciesValid) (hmeans : state.MeansFinite details)
    (context : DecisionContext F) :
    (∃ task policy artifact record, (admitDecision config details state context).artifact = some artifact ∧
        MayAct config details state context task policy artifact record
          (admitDecision config details state context).influenceCap) ∨
      (admitDecision config details state context).influenceCap = 0.0 ∧
        ∀ artifact, (admitDecision config details state context).artifact = some artifact →
          (admitDecision config details state context).shadow = true := by
  unfold admitDecision
  rcases admitRequest_cases config details (state.champion context.taskId)
      ((state.champion context.taskId).bind fun artifact => state.record artifact.metadata.modelId)
      (((state.champion context.taskId).map fun artifact => state.canaryDecisions artifact.metadata.modelId).getD 0)
      context with ⟨hnone, hzero⟩ | ⟨task, artifact, record, policy, htask, hmodel, hgates, hartifact, hresult⟩
  · refine .inr ⟨hzero, fun artifact hsome => ?_⟩
    rw [hnone] at hsome
    cases hsome
  · obtain ⟨hchampion, -⟩ := of_admitModel hmodel
    rcases hresult with ⟨hauto, -, hinfluence⟩ | ⟨hshadow, hzero⟩
    · refine .inl ⟨task, policy, artifact, record, hartifact, ?_⟩
      dsimp only
      rw [hinfluence]
      rw [hchampion] at hmodel hgates
      exact mayAct_of_gates hconfig hmeans htask hchampion hmodel hgates hauto
    · exact .inr ⟨hzero, fun _ _ => hshadow⟩

/-- A model with influence may act, and no other one has influence. -/
theorem admitDecision_mayAct (hconfig : config.PoliciesValid) (hmeans : state.MeansFinite details)
    (context : DecisionContext F) :
    (∀ artifact, (admitDecision config details state context).artifact = some artifact →
      ((admitDecision config details state context).shadow = false ∨
        (admitDecision config details state context).influenceCap ≠ 0.0) →
      ∃ task policy record, MayAct config details state context task policy artifact record
        (admitDecision config details state context).influenceCap) ∧
    ((¬ ∃ task policy artifact record, MayAct config details state context task policy artifact record
        (admitDecision config details state context).influenceCap) →
      (admitDecision config details state context).influenceCap = 0.0) ∧
    ∀ artifact row feature, state.champion context.taskId = some artifact →
      (details artifact).preprocessor.transform context.featureValues = .ok row → feature ∈ row →
      Scalar.isFinite feature = false → (admitDecision config details state context).influenceCap = 0.0 := by
  rcases admitDecision_cases hconfig hmeans context with
    ⟨task, policy, artifact, record, hartifact, hact⟩ | ⟨hzero, hshadow⟩
  · refine ⟨fun other hother _ => ?_, fun hnot => absurd ⟨task, policy, artifact, record, hact⟩ hnot, ?_⟩
    · rw [hartifact] at hother
      obtain rfl := Option.some.inj hother
      exact ⟨task, policy, record, hact⟩
    · intro other row feature hother hrow hfeature hinfinite
      obtain ⟨found, bound, hfound, -, hall⟩ := hact.inDomain
      obtain rfl := Option.some.inj (hact.champion.symm.trans hother)
      obtain rfl := Except.ok.inj (hfound.symm.trans hrow)
      rw [(hall feature hfeature).1] at hinfinite
      cases hinfinite
  · refine ⟨fun artifact hartifact hinfluence => ?_, fun _ => hzero, fun _ _ _ _ _ _ _ => hzero⟩
    rcases hinfluence with hplain | hnonzero
    · rw [hshadow artifact hartifact] at hplain
      cases hplain
    · exact absurd hzero hnonzero

end Results

section Sample
open Service

/-- The champion of a task stands at canary, where it has served nothing yet. -/
def canaryState : RegistryState where
  file := {
    records := [{
      revision := 1, modelId := "a", taskId := "t", digest := "registry-test-digest", stage := .canary
      artifactFile := "a.json", reason := none, updatedAt := 0, fixtureOnly := false }] }
  champions := (∅ : Std.TreeMap String ElmArtifact).insert "t" (plainArtifact "a" "t" "s" false)

theorem canaryConfig_policiesValid : canaryConfig.PoliciesValid := by
  intro name policy hpolicy
  change ((∅ : Std.TreeMap String (PromotionPolicy ℚ)).insert "p" canaryPolicy)[name]? = some policy at hpolicy
  rw [Std.TreeMap.getElem?_insert] at hpolicy
  split_ifs at hpolicy with hname
  · rw [← Option.some.inj hpolicy, ← compare_eq_iff_eq.mp hname]
    decide +kernel
  · rw [Std.TreeMap.getElem?_emptyc] at hpolicy
    cases hpolicy

/-- A champion at canary acts with half a share. -/
theorem admitDecision_mayAct_canary :
    (admitDecision canaryConfig plainDetails canaryState plainRequest.context).influenceCap = 0.5 ∧
      ∃ task policy record, MayAct canaryConfig plainDetails canaryState plainRequest.context task policy
        (plainArtifact "a" "t" "s" false) record
        (admitDecision canaryConfig plainDetails canaryState plainRequest.context).influenceCap := by
  have hinfluence : (admitDecision canaryConfig plainDetails canaryState plainRequest.context).influenceCap = 0.5 := by
    decide +kernel
  have hmeans : canaryState.MeansFinite plainDetails := fun _ _ _ _ _ => rfl
  have hact := (admitDecision_mayAct canaryConfig_policiesValid hmeans plainRequest.context).1
    (plainArtifact "a" "t" "s" false) (by decide +kernel) (.inl (by decide +kernel))
  exact ⟨hinfluence, hact⟩

end Sample

end Gail.Elm
