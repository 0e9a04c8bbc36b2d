import Gail.Elm.OutOfService
import Gail.Elm.Qualification

/-! The end of a training job: the report is sealed, the model is published and evaluated, and a
qualified model is promoted. The validation of the job comes last. -/
namespace Gail.Elm
open Gail.Trading
variable {Bytes F : Type}

inductive JobState where
  | queued
  | running
  | trained
  | evaluating
  | completed
  | failed
  | cancelled
  deriving DecidableEq, Repr

/-- The members of a job file that the worker decides on or sets. -/
structure ElmTrainingJob where
  taskId : String
  datasetRevision : String
  retryLimit : Nat
  state : JobState
  retries : Nat
  modelId : Option String
  error : Option String
  deriving DecidableEq, Repr

/-- `serde_json` on a report, in its two layouts. -/
structure ReportSerde (Bytes F : Type) where
  toVec : TrainingEvaluationReport F → Except String Bytes
  toVecPretty : TrainingEvaluationReport F → Except String Bytes

/-- What the end of a job reads of the configuration. -/
structure FinishConfig (F : Type) where
  elm : ElmConfig F
  /-- `lifecycle.automatic_promotion`. -/
  automaticPromotion : Bool

/-- The `?` operator: an error leaves everything as it is at that point. -/
def Reply.andThen {α β : Type} (reply : Reply Bytes α) (next : α → Registry Bytes → Reply Bytes β) :
    Reply Bytes β :=
  match reply.result with
  | .error error => ⟨.error error, reply.state, reply.disk⟩
  | .ok result => next result reply.registry

/-- What surrounds one write of the job: what other writers do before its revision is read and
before the lock is held, whether the lock is obtained, and the clock. -/
structure Interlude (Bytes : Type) where
  beforeRevision : Registry Bytes → Registry Bytes
  beforeLock : Registry Bytes → Registry Bytes
  lock : Option ElmError
  now : Nat

def Interlude.around {α : Type} (interlude : Interlude Bytes) (registry : Registry Bytes)
    (write : Disk Bytes → RegistryState → Nat → Reply Bytes α) : Reply Bytes α :=
  let registry := interlude.beforeRevision registry
  let revision := registry.1.file.revision
  let (state, disk) := interlude.beforeLock registry
  match interlude.lock with
  | some error => ⟨.error error, state, disk⟩
  | none => write disk state revision

/-- The surroundings of one call of `finish_success`, with the I/O failures it meets. -/
structure FinishEnv (Bytes : Type) where
  publish : Interlude Bytes
  publishFaults : PublishFaults
  beforeStore : Registry Bytes → Registry Bytes
  storeFault : Option IoFault
  mark : Interlude Bytes
  markFault : Option IoFault
  qualify : Interlude Bytes
  qualifyFault : Option IoFault
  shadow : Interlude Bytes
  shadowFault : Option IoFault

def evaluationPath (modelId : String) : String := "evaluations/" ++ modelId ++ ".json"

/-- The model is looked up in the copy in memory; no lock is taken. -/
def storeEvaluation (serde : Serde Bytes) (maxArtifactBytes : Nat) (disk : Disk Bytes)
    (state : RegistryState) (modelId : String) (bytes : Bytes) (fault : Option IoFault) :
    Reply Bytes Unit :=
  if maxArtifactBytes < serde.len bytes then
    ⟨.error (.artifact "evaluation report exceeds configured size limit"), state, disk⟩
  else
    match state.file.record modelId with
    | none => ⟨.error (.artifact "model not found"), state, disk⟩
    | some record =>
      let (result, disk) := writeAtomic disk (evaluationPath record.modelId) bytes fault
      ⟨result, state, disk⟩

section Finish
variable [Scalar F] (serde : Serde Bytes) (reports : ReportSerde Bytes F) (maxArtifactBytes : Nat)
  (env : FinishEnv Bytes)

/-- The report with its qualification and its digest, as it will be stored. -/
def sealReport (qualification : QualificationResult F) (report : TrainingEvaluationReport F) :
    Except ElmError Bytes :=
  let report :=
    { report with
      qualified := qualification.qualified
      qualificationReasons := qualification.reasonCodes
      reportSha256 := "" }
  match reports.toVec report with
  | .error error => .error (.artifact error)
  | .ok canonical =>
    match reports.toVecPretty { report with reportSha256 := serde.sha256Hex canonical } with
    | .error error => .error (.artifact error)
    | .ok bytes => .ok bytes

/-- The first three registry operations: publish, store the report, mark as evaluated. -/
def publishEvaluated (artifact : ElmArtifact) (qualified : Bool) (report : Bytes)
    (registry : Registry Bytes) : Reply Bytes RegistryRecord :=
  let modelId := artifact.metadata.modelId
  (env.publish.around registry fun disk state revision =>
    publishCandidate serde maxArtifactBytes disk state artifact revision env.publish.now
      env.publishFaults).andThen fun record registry =>
  let (state, disk) := env.beforeStore registry
  (storeEvaluation serde maxArtifactBytes disk state modelId report env.storeFault).andThen
    fun _ registry =>
  (env.mark.around registry fun disk state revision =>
    markEvaluated serde maxArtifactBytes disk state modelId revision
      (if qualified then "independent final evaluation passed every configured evidence gate"
        else "evaluation completed; qualification withheld by evidence gates")
      env.mark.now env.markFault).andThen fun _ registry =>
  ⟨.ok record, registry.1, registry.2⟩

def qualifiedReason : String := "automatically qualified by the configured evidence policy"

def promoteQualified (modelId : String) (registry : Registry Bytes) : Reply Bytes RegistryRecord :=
  env.qualify.around registry fun disk state revision =>
    promote serde maxArtifactBytes disk state modelId .qualified revision qualifiedReason
      env.qualify.now env.qualifyFault

def promoteShadow (modelId : String) (registry : Registry Bytes) : Reply Bytes RegistryRecord :=
  env.shadow.around registry fun disk state revision =>
    promote serde maxArtifactBytes disk state modelId .shadow revision
      "automatically entered the authorised shadow stage" env.shadow.now env.shadowFault

/-- The promotions of a model that passed its gates. -/
def promoteAutomatically (config : ElmConfig F) (taskId modelId : String)
    (registry : Registry Bytes) : Reply Bytes Unit :=
  (promoteQualified serde maxArtifactBytes env modelId registry).andThen fun _ registry =>
  if (config.maxStage taskId).reaches .shadow then
    (promoteShadow serde maxArtifactBytes env modelId registry).andThen fun _ registry =>
      ⟨.ok (), registry.1, registry.2⟩
  else ⟨.ok (), registry.1, registry.2⟩

/-- The job as it is left by a success. -/
def ElmTrainingJob.finished (job : ElmTrainingJob) (modelId : String)
    (qualification : QualificationResult F) : ElmTrainingJob :=
  { job with
    modelId := some modelId
    error :=
      if qualification.qualified then none
      else some ("evaluation completed without qualification: " ++
        ",".intercalate qualification.reasonCodes) }

/-- The validation that ends the job. -/
def validateScope (job : ElmTrainingJob) (qualification : QualificationResult F) (modelId : String)
    (record : RegistryRecord) (reportBytes : Bytes) (maxBytes : Nat) (registry : Registry Bytes) :
    Reply Bytes ElmTrainingJob :=
  if job.taskId ≠ record.taskId ∨ maxBytes < serde.len reportBytes then
    ⟨.error (.artifact "job artifact/report scope validation failed"), registry.1, registry.2⟩
  else ⟨.ok (job.finished modelId qualification), registry.1, registry.2⟩

/-- The scope of the job is validated when every registry operation has been made. -/
def finishSuccess (config : FinishConfig F) (job : ElmTrainingJob) (result : TrainedEvaluation F)
    (maxBytes : Nat) (registry : Registry Bytes) : Reply Bytes ElmTrainingJob :=
  let modelId := result.artifact.metadata.modelId
  let qualification := evaluateQualification config.elm job.taskId result
  match sealReport serde reports qualification result.report with
  | .error error => ⟨.error error, registry.1, registry.2⟩
  | .ok reportBytes =>
    (publishEvaluated serde maxArtifactBytes env result.artifact qualification.qualified reportBytes
      registry).andThen fun record registry =>
    (if qualification.qualified && config.automaticPromotion then
      promoteAutomatically serde maxArtifactBytes env config.elm job.taskId modelId registry
    else ⟨.ok (), registry.1, registry.2⟩).andThen fun _ registry =>
    validateScope serde job qualification modelId record reportBytes maxBytes registry

end Finish

section Steps
variable {serde : Serde Bytes} {maxArtifactBytes : Nat} {modelId : String}
  {registry : Registry Bytes} {α β : Type}

/-- Whatever others do here, they neither bring the model into service nor take it out. -/
structure LeavesAlone (serde : Serde Bytes) (modelId : String)
    (change : Registry Bytes → Registry Bytes) : Prop where
  out : ∀ registry, OutOfService serde modelId registry → OutOfService serde modelId (change registry)
  served : ∀ registry, DurablyServed serde modelId registry.2 →
    DurablyServed serde modelId (change registry).2

structure Interlude.LeavesAlone (serde : Serde Bytes) (modelId : String)
    (interlude : Interlude Bytes) : Prop where
  beforeRevision : Elm.LeavesAlone serde modelId interlude.beforeRevision
  beforeLock : Elm.LeavesAlone serde modelId interlude.beforeLock

structure FinishEnv.LeavesAlone (serde : Serde Bytes) (modelId : String) (env : FinishEnv Bytes) :
    Prop where
  publish : env.publish.LeavesAlone serde modelId
  beforeStore : Elm.LeavesAlone serde modelId env.beforeStore
  mark : env.mark.LeavesAlone serde modelId
  qualify : env.qualify.LeavesAlone serde modelId
  shadow : env.shadow.LeavesAlone serde modelId

theorem Interlude.LeavesAlone.around_out {interlude : Interlude Bytes}
    (hi : interlude.LeavesAlone serde modelId) (h : OutOfService serde modelId registry)
    {write : Disk Bytes → RegistryState → Nat → Reply Bytes α}
    (hw : ∀ disk state revision, OutOfService serde modelId (state, disk) →
      OutOfService serde modelId (write disk state revision).registry) :
    OutOfService serde modelId (interlude.around registry write).registry := by
  have hstart := hi.beforeLock.out _ (hi.beforeRevision.out _ h)
  unfold Interlude.around
  cases interlude.lock with
  | some error => exact hstart
  | none => exact hw _ _ _ hstart

theorem Interlude.LeavesAlone.around_served {interlude : Interlude Bytes}
    (hi : interlude.LeavesAlone serde modelId) (h : DurablyServed serde modelId registry.2)
    {write : Disk Bytes → RegistryState → Nat → Reply Bytes α}
    (hw : ∀ disk state revision, DurablyServed serde modelId disk →
      DurablyServed serde modelId (write disk state revision).disk) :
    DurablyServed serde modelId (interlude.around registry write).disk := by
  have hstart := hi.beforeLock.served _ (hi.beforeRevision.served _ h)
  unfold Interlude.around
  cases interlude.lock with
  | some error => exact hstart
  | none => exact hw _ _ _ hstart

/-- A property of the registry holds after two steps when each keeps it. -/
theorem Reply.andThen_registry {P : Registry Bytes → Prop} {reply : Reply Bytes α}
    {next : α → Registry Bytes → Reply Bytes β} (h : P reply.registry)
    (hn : ∀ result registry, P registry → P (next result registry).registry) :
    P (reply.andThen next).registry := by
  unfold andThen
  cases reply.result with
  | error error => exact h
  | ok result => exact hn result _ h

theorem Reply.andThen_ok {reply : Reply Bytes α} {next : α → Registry Bytes → Reply Bytes β}
    {answer : β} : (reply.andThen next).result = .ok answer ↔
      ∃ result, reply.result = .ok result ∧ (next result reply.registry).result = .ok answer := by
  unfold andThen
  cases hr : reply.result with
  | error error => simp
  | ok result => simp

theorem Reply.andThen_of_ok {reply : Reply Bytes α} (next : α → Registry Bytes → Reply Bytes β)
    {result : α} (h : reply.result = .ok result) :
    reply.andThen next = next result reply.registry := by
  unfold andThen
  rw [h]

theorem Reply.andThen_error {reply : Reply Bytes α} (next : α → Registry Bytes → Reply Bytes β)
    {error : ElmError} (h : reply.result = .error error) :
    reply.andThen next = ⟨.error error, reply.state, reply.disk⟩ := by
  unfold andThen
  rw [h]

theorem indexPath_ne_evaluationPath (modelId : String) : indexPath ≠ evaluationPath modelId := by
  intro h
  have hl := congrArg (fun s => s.toList.head?) h
  simp [evaluationPath, indexPath, String.toList_append] at hl

theorem OutOfService.stored {disk : Disk Bytes} {state : RegistryState}
    (h : OutOfService serde modelId (state, disk)) (stored : String) (bytes : Bytes)
    (fault : Option IoFault) :
    OutOfService serde modelId
      (storeEvaluation serde maxArtifactBytes disk state stored bytes fault).registry := by
  unfold storeEvaluation
  split
  · exact h
  cases state.file.record stored with
  | none => exact h
  | some record => exact h.congr (writeAtomic_ne (indexPath_ne_evaluationPath record.modelId) bytes fault)

end Steps

section Promotion
variable {serde : Serde Bytes} {maxArtifactBytes : Nat} {env : FinishEnv Bytes}
  {registry : Registry Bytes} {artifact : ElmArtifact} {config : ElmConfig F}
  {taskId modelId : String}

theorem publishCandidate_taskId {disk : Disk Bytes} {state : RegistryState} {expected now : Nat}
    {faults : PublishFaults} {record : RegistryRecord}
    (h : (publishCandidate serde maxArtifactBytes disk state artifact expected now faults).result =
      .ok record) : record.taskId = artifact.metadata.taskId := by
  have hcall : ((Call.publishCandidate artifact expected faults).perform serde maxArtifactBytes now
      disk state).result = .ok (.record record) := congrArg (Except.map Answer.record) h
  have hwrite : ∀ fresh outcome, (Call.publishCandidate artifact expected faults).decision serde
      maxArtifactBytes now disk fresh = .ok outcome →
      outcome = (publishOutcome artifact now fresh).map .record := by
    intro fresh outcome hd
    simp only [Call.decision] at hd
    split at hd
    · cases hd
    · cases hd; rfl
  rcases ((Call.publishCandidate artifact expected faults).effect serde maxArtifactBytes now disk
    state).of_ok hcall with ⟨hp, -⟩ | ⟨adopted, fresh, -, -, ⟨hkeep, -⟩ | hreplaces⟩
  · obtain ⟨_, _, hc, -⟩ := Call.precheck_ok hp
    cases hc
  · cases hwrite fresh _ hkeep
  · obtain ⟨-, hr⟩ := Outcome.write.inj (hwrite fresh _ hreplaces.decided)
    rw [Answer.record.inj hr]
    rfl

theorem publishEvaluated_taskId {qualified : Bool} {report : Bytes} {record : RegistryRecord}
    (h : (publishEvaluated serde maxArtifactBytes env artifact qualified report registry).result =
      .ok record) : record.taskId = artifact.metadata.taskId := by
  obtain ⟨found, hfound, h⟩ := Reply.andThen_ok.mp h
  obtain ⟨_, -, h⟩ := Reply.andThen_ok.mp h
  obtain ⟨_, -, h⟩ := Reply.andThen_ok.mp h
  cases h
  unfold Interlude.around at hfound
  cases hl : env.publish.lock with
  | some error => rw [hl] at hfound; cases hfound
  | none =>
    rw [hl] at hfound
    exact publishCandidate_taskId hfound

/-- Up to the promotion the model stays out of service, whatever fails. -/
theorem publishEvaluated_out (henv : env.LeavesAlone serde artifact.metadata.modelId)
    (h : OutOfService serde artifact.metadata.modelId registry) (qualified : Bool) (report : Bytes) :
    OutOfService serde artifact.metadata.modelId
      (publishEvaluated serde maxArtifactBytes env artifact qualified report registry).registry := by
  refine Reply.andThen_registry (henv.publish.around_out h fun _ _ revision hstart =>
    hstart.published artifact revision _) ?_
  intro record published hpublished
  refine Reply.andThen_registry ((henv.beforeStore.out _ hpublished).stored _ report _) ?_
  intro _ stored hstored
  refine Reply.andThen_registry (henv.mark.around_out hstored fun _ _ revision hstart =>
    hstart.promoted rfl revision _ _) ?_
  intro _ marked hmarked
  exact hmarked

/-- The promotion to Qualified takes effect: its lock is obtained and its write replaces the index. -/
def Qualifies (serde : Serde Bytes) (maxArtifactBytes : Nat) (env : FinishEnv Bytes)
    (modelId : String) (registry : Registry Bytes) : Prop :=
  let before := env.qualify.beforeRevision registry
  env.qualify.lock = none ∧ PromotionLands serde maxArtifactBytes (env.qualify.beforeLock before)
    modelId .qualified before.1.file.revision qualifiedReason env.qualify.now env.qualifyFault

theorem promoteQualified_out (henv : env.qualify.LeavesAlone serde modelId)
    (h : OutOfService serde modelId registry)
    (hq : ¬ Qualifies serde maxArtifactBytes env modelId registry) :
    let reply := promoteQualified serde maxArtifactBytes env modelId registry
    OutOfService serde modelId reply.registry ∧ ∃ error, reply.result = .error error := by
  have hstart := henv.beforeLock.out _ (henv.beforeRevision.out _ h)
  unfold promoteQualified Interlude.around
  cases hl : env.qualify.lock with
  | some error => exact ⟨hstart, error, rfl⟩
  | none => exact hstart.not_landed fun hlands => hq ⟨hl, hlands⟩

theorem Qualifies.served (h : Qualifies serde maxArtifactBytes env modelId registry) :
    let reply := promoteQualified serde maxArtifactBytes env modelId registry
    DurablyServed serde modelId reply.disk ∧
      ((∃ record, reply.result = .ok record) ↔ env.qualifyFault = none) := by
  obtain ⟨hl, hlands⟩ := h
  unfold promoteQualified Interlude.around
  rw [hl]
  exact hlands.served rfl

theorem promoteShadow_served (henv : env.shadow.LeavesAlone serde modelId)
    (h : DurablyServed serde modelId registry.2) :
    DurablyServed serde modelId
      (promoteShadow serde maxArtifactBytes env modelId registry).registry.2 :=
  henv.around_served h fun _ _ revision hstart => hstart.promoted rfl revision _ env.shadowFault

theorem promoteAutomatically_served (henv : env.LeavesAlone serde modelId)
    (h : Qualifies serde maxArtifactBytes env modelId registry) :
    DurablyServed serde modelId (promoteAutomatically serde maxArtifactBytes env config taskId
      modelId registry).registry.2 := by
  refine Reply.andThen_registry (P := fun r => DurablyServed serde modelId r.2) h.served.1 ?_
  intro _ qualified hqualified
  split
  · exact Reply.andThen_registry (P := fun r => DurablyServed serde modelId r.2)
      (promoteShadow_served henv.shadow hqualified) fun _ _ hshadow => hshadow
  · exact hqualified

theorem promoteAutomatically_out (henv : env.LeavesAlone serde modelId)
    (h : OutOfService serde modelId registry)
    (hq : ¬ Qualifies serde maxArtifactBytes env modelId registry) :
    OutOfService serde modelId (promoteAutomatically serde maxArtifactBytes env config taskId modelId
      registry).registry := by
  obtain ⟨hout, error, he⟩ := promoteQualified_out henv.qualify h hq
  unfold promoteAutomatically
  rw [Reply.andThen_error _ he]
  exact hout

/-- Once the model is qualified, the promotions succeed when nothing fails after that. -/
theorem promoteAutomatically_ok (h : Qualifies serde maxArtifactBytes env modelId registry) :
    (promoteAutomatically serde maxArtifactBytes env config taskId modelId registry).result = .ok () ↔
      env.qualifyFault = none ∧ ((config.maxStage taskId).reaches .shadow → ∃ record,
        (promoteShadow serde maxArtifactBytes env modelId
          (promoteQualified serde maxArtifactBytes env modelId registry).registry).result =
            .ok record) := by
  rw [← h.served.2]
  unfold promoteAutomatically
  rw [Reply.andThen_ok]
  by_cases hs : (config.maxStage taskId).reaches .shadow
  · simp only [hs, if_true, Reply.andThen_ok, forall_const, exists_and_right]
    simp
  · simp only [hs, if_false, Bool.false_eq_true, false_implies, and_true]

end Promotion

section Job
variable [Scalar F] (serde : Serde Bytes) (reports : ReportSerde Bytes F) (maxArtifactBytes : Nat)
  (env : FinishEnv Bytes) (config : FinishConfig F) (job : ElmTrainingJob)
  (result : TrainedEvaluation F) (maxBytes : Nat) (registry : Registry Bytes)

/-- Nothing fails once the model is in service: if its promotion to Qualified takes effect, that write
is reported as a success, the model enters shadow where this is authorised, the job is for the task of
the artifact, and its report fits. -/
def FinishesOnceServed : Prop :=
  let modelId := result.artifact.metadata.modelId
  let qualification := evaluateQualification config.elm job.taskId result
  ∀ reportBytes record, sealReport serde reports qualification result.report = .ok reportBytes →
    let published := publishEvaluated serde maxArtifactBytes env result.artifact
      qualification.qualified reportBytes registry
    published.result = .ok record → qualification.qualified → config.automaticPromotion →
    Qualifies serde maxArtifactBytes env modelId published.registry →
      (env.qualifyFault = none ∧ ((config.elm.maxStage job.taskId).reaches .shadow → ∃ record,
        (promoteShadow serde maxArtifactBytes env modelId
          (promoteQualified serde maxArtifactBytes env modelId published.registry).registry).result =
            .ok record)) ∧
      job.taskId = result.artifact.metadata.taskId ∧ serde.len reportBytes ≤ maxBytes

omit [Scalar F] in
@[simp] theorem validateScope_registry {qualification : QualificationResult F} {modelId : String}
    {record : RegistryRecord} {reportBytes : Bytes} :
    (validateScope serde job qualification modelId record reportBytes maxBytes registry).registry =
      registry := by
  unfold validateScope
  split
  · rfl
  · rfl

omit [Scalar F] in
theorem validateScope_ok {qualification : QualificationResult F} {modelId : String}
    {record : RegistryRecord} {reportBytes : Bytes} :
    (∃ finished, (validateScope serde job qualification modelId record reportBytes maxBytes
      registry).result = .ok finished) ↔
        job.taskId = record.taskId ∧ serde.len reportBytes ≤ maxBytes := by
  unfold validateScope
  split
  · next h =>
    refine ⟨fun ⟨_, hc⟩ => (nomatch hc), ?_⟩
    rintro ⟨htask, hlen⟩
    rcases h with h | h
    · exact absurd htask h
    · exact absurd hlen (not_le.mpr h)
  · next h =>
    obtain ⟨htask, hlen⟩ := not_or.mp h
    exact ⟨fun _ => ⟨not_not.mp htask, not_lt.mp hlen⟩, fun _ => ⟨_, rfl⟩⟩

variable {env registry} in
omit [Scalar F] in
/-- From the promotion on: a model that enters service stays there, so nothing may fail after that. -/
private theorem finish_promoted_iff {modelId : String} (henv : env.LeavesAlone serde modelId)
    (hout : OutOfService serde modelId registry) (qualification : QualificationResult F)
    (record : RegistryRecord) (reportBytes : Bytes) :
    let reply := (if qualification.qualified && config.automaticPromotion then
        promoteAutomatically serde maxArtifactBytes env config.elm job.taskId modelId registry
      else ⟨.ok (), registry.1, registry.2⟩).andThen fun _ registry =>
        validateScope serde job qualification modelId record reportBytes maxBytes registry
    (∀ error, reply.result = .error error → OutOfService serde modelId reply.registry) ↔
      (qualification.qualified → config.automaticPromotion →
        Qualifies serde maxArtifactBytes env modelId registry →
        (env.qualifyFault = none ∧ ((config.elm.maxStage job.taskId).reaches .shadow → ∃ record,
          (promoteShadow serde maxArtifactBytes env modelId
            (promoteQualified serde maxArtifactBytes env modelId registry).registry).result =
              .ok record)) ∧
        job.taskId = record.taskId ∧ serde.len reportBytes ≤ maxBytes) := by
  intro reply
  by_cases hserved : (qualification.qualified && config.automaticPromotion) = true ∧
      Qualifies serde maxArtifactBytes env modelId registry
  · obtain ⟨hauto, hq⟩ := hserved
    obtain ⟨hqualified, hautomatic⟩ := Bool.and_eq_true_iff.mp hauto
    have hreply : reply = (promoteAutomatically serde maxArtifactBytes env config.elm job.taskId
        modelId registry).andThen fun _ registry =>
          validateScope serde job qualification modelId record reportBytes maxBytes registry := by
      simp only [reply, hauto, if_true]
    have hdurable : DurablyServed serde modelId reply.registry.2 := by
      rw [hreply]
      refine Reply.andThen_registry (P := fun r => DurablyServed serde modelId r.2)
        (promoteAutomatically_served henv hq) ?_
      intro _ promoted hpromoted
      rw [validateScope_registry]
      exact hpromoted
    have hok : (∃ finished, reply.result = .ok finished) ↔
        (promoteAutomatically serde maxArtifactBytes env config.elm job.taskId modelId
          registry).result = .ok () ∧ job.taskId = record.taskId ∧
            serde.len reportBytes ≤ maxBytes := by
      rw [hreply]
      constructor
      · rintro ⟨finished, hf⟩
        obtain ⟨⟨⟩, hpromoted, hv⟩ := Reply.andThen_ok.mp hf
        exact ⟨hpromoted, (validateScope_ok serde job maxBytes _).mp ⟨finished, hv⟩⟩
      · rintro ⟨hpromoted, hscope⟩
        obtain ⟨finished, hv⟩ := (validateScope_ok serde job maxBytes _).mpr hscope
        exact ⟨finished, Reply.andThen_ok.mpr ⟨(), hpromoted, hv⟩⟩
    rw [promoteAutomatically_ok hq] at hok
    constructor
    · intro h _ _ _
      refine hok.mp ?_
      cases hr : reply.result with
      | ok finished => exact ⟨finished, rfl⟩
      | error error => exact absurd hdurable (h error hr).durable
    · intro h error he
      obtain ⟨finished, hf⟩ := hok.mpr (h hqualified hautomatic hq)
      rw [hf] at he
      cases he
  · refine ⟨fun _ hqualified hautomatic hq =>
      absurd ⟨Bool.and_eq_true_iff.mpr ⟨hqualified, hautomatic⟩, hq⟩ hserved, ?_⟩
    intro _ error _
    refine Reply.andThen_registry ?_ ?_
    · split
      · next hauto => exact promoteAutomatically_out henv hout fun hq => hserved ⟨hauto, hq⟩
      · exact hout
    · intro _ promoted hpromoted
      rw [validateScope_registry]
      exact hpromoted

/-- Whatever fails while a job is finished, the model of a job that is reported as failed is neither in
a serving stage nor the champion of a task, exactly when nothing fails after its promotion to Qualified
took effect. -/
theorem failed_finish_out_of_service_iff
    (henv : env.LeavesAlone serde result.artifact.metadata.modelId)
    (hnew : OutOfService serde result.artifact.metadata.modelId registry) :
    let reply := finishSuccess serde reports maxArtifactBytes env config job result maxBytes registry
    (∀ error, reply.result = .error error →
      OutOfService serde result.artifact.metadata.modelId reply.registry) ↔
    FinishesOnceServed serde reports maxArtifactBytes env config job result maxBytes registry := by
  intro reply
  dsimp only [reply, finishSuccess, FinishesOnceServed]
  generalize evaluateQualification config.elm job.taskId result = qualification
  cases sealReport serde reports qualification result.report with
  | error error => exact ⟨fun _ _ _ hb => (nomatch hb), fun _ _ _ => hnew⟩
  | ok bytes =>
    have hout : OutOfService serde result.artifact.metadata.modelId (publishEvaluated serde
        maxArtifactBytes env result.artifact qualification.qualified bytes registry).registry :=
      publishEvaluated_out henv hnew qualification.qualified bytes
    cases hp : (publishEvaluated serde maxArtifactBytes env result.artifact qualification.qualified
      bytes registry).result with
    | error error =>
      dsimp only
      rw [Reply.andThen_error _ hp]
      refine ⟨?_, fun _ _ _ => hout⟩
      rintro - reportBytes record ⟨⟩ hc
      rw [hp] at hc
      cases hc
    | ok record =>
      have htask := publishEvaluated_taskId hp
      dsimp only
      rw [Reply.andThen_of_ok _ hp]
      refine (finish_promoted_iff serde maxArtifactBytes config job maxBytes henv hout qualification
        record bytes).trans ?_
      rw [htask]
      constructor
      · rintro h reportBytes found ⟨⟩ -
        exact h
      · intro h
        exact h bytes record rfl hp

variable {serde reports maxArtifactBytes env config job result maxBytes registry} in
/-- A success sets the model and the note of the job and nothing else. -/
theorem finishSuccess_ok {finished : ElmTrainingJob}
    (h : (finishSuccess serde reports maxArtifactBytes env config job result maxBytes
      registry).result = .ok finished) :
    finished = job.finished result.artifact.metadata.modelId
      (evaluateQualification config.elm job.taskId result) := by
  dsimp only [finishSuccess] at h
  cases hs : sealReport serde reports (evaluateQualification config.elm job.taskId result)
    result.report with
  | error error => rw [hs] at h; cases h
  | ok bytes =>
    rw [hs] at h
    obtain ⟨record, -, h⟩ := Reply.andThen_ok.mp h
    obtain ⟨_, -, h⟩ := Reply.andThen_ok.mp h
    unfold validateScope at h
    split at h
    · cases h
    · exact (Except.ok.inj h).symm

end Job

/-- The plain codec, in a directory that also holds reports. -/
def jobSerde : Serde (StoredFile ⊕ TrainingEvaluationReport ℚ) where
  len _ := 1
  sha256Hex
    | .inl file => plainSerde.sha256Hex file
    | .inr report => report.remainder
  registryToVec file := .ok (.inl (.index file))
  registryFromSlice
    | .inl file => plainSerde.registryFromSlice file
    | .inr _ => .error "missing field revision"
  artifactToVec artifact := .ok (.inl (.artifact artifact))
  artifactFromSlice
    | .inl file => plainSerde.artifactFromSlice file
    | .inr _ => .error "missing field format_version"
  registry_round_trip h := by cases h; rfl
  artifact_round_trip hw hl := by cases hw; cases hl; exact ⟨rfl, rfl, rfl⟩

def jobReports : ReportSerde (StoredFile ⊕ TrainingEvaluationReport ℚ) ℚ where
  toVec report := .ok (.inr report)
  toVecPretty report := .ok (.inr report)

def quietInterlude {Bytes : Type} : Interlude Bytes where
  beforeRevision := id
  beforeLock := id
  lock := none
  now := 0

/-- Nobody else writes, and nothing fails. -/
def quietFinish {Bytes : Type} : FinishEnv Bytes where
  publish := quietInterlude
  publishFaults := {}
  beforeStore := id
  storeFault := none
  mark := quietInterlude
  markFault := none
  qualify := quietInterlude
  qualifyFault := none
  shadow := quietInterlude
  shadowFault := none

theorem quietFinish_leavesAlone {Bytes : Type} (serde : Serde Bytes) (modelId : String) :
    quietFinish.LeavesAlone serde modelId := by
  have hid : LeavesAlone serde modelId (id : Registry Bytes → Registry Bytes) :=
    ⟨fun _ h => h, fun _ h => h⟩
  exact ⟨⟨hid, hid⟩, hid, ⟨hid, hid⟩, ⟨hid, hid⟩, ⟨hid, hid⟩⟩

theorem outOfService_empty {Bytes : Type} (serde : Serde Bytes) (modelId : String) :
    OutOfService serde modelId ({}, fun _ => none) := by
  have hfile : ¬ ({} : RegistryFile).InService modelId := by simp [RegistryFile.InService]
  refine ⟨?_, hfile, by simp [RegistryState.Loads]⟩
  rintro ⟨file, hd, hs⟩
  cases hd
  exact hfile hs

/-- A policy under which the report below qualifies. -/
def edgePolicy : PromotionPolicy ℚ where
  taskObjective := some "mse"
  direction := some .lower
  baseline := some "ridge"
  minimumEffectiveSamples := some 100
  minimumSubgroupSamples := some 10
  minimumObservationSeconds := some 3600
  confidenceLevel := some (9 / 10)
  minimumPracticalImprovement := some (1 / 100)
  nonInferiorityTolerance := some 0
  maximumCalibrationError := some (1 / 10)
  minimumIntervalCoverage := some (8 / 10)
  maximumP95OverheadMs := some 5
  maximumP99OverheadMs := some 10
  maximumInputAgeSeconds := some 60
  maximumLabelAgeSeconds := some 600
  maximumDriftScore := some (1 / 5)
  maximumOodScore := some 3
  canaryFraction := some (1 / 10)
  canaryMaxDecisions := some 50
  expirySeconds := some 86400
  rollbackRegression := some (1 / 10)
  cooldownSeconds := some 3600
  retrainBudgetPerDay := some 4
  authorisedInfluence := some (1 / 10)

def edgeConfig (automaticPromotion : Bool) : FinishConfig ℚ where
  elm :=
    { mode := .auto
      tasks := (∅ : Std.TreeMap String (ElmTaskConfig ℚ)).insert "quant_net_edge"
        { mode := none, maxStage := .shadow, promotionPolicy := "edge", allowed := true
          rolloutFraction := 0, influenceCap := 0 }
      promotionPolicies := (∅ : Std.TreeMap String (PromotionPolicy ℚ)).insert "edge" edgePolicy
      automaticRollback := true
      trading := { allowLiveInfluence := false, maximumInfluence := 0 }
      maximumFeatureAgeSeconds := 60 }
  automaticPromotion

/-- A model of the task, with evidence that passes every gate of the policy. -/
def edgeResult (taskId : String) : TrainedEvaluation ℚ where
  artifact := plainArtifact "m" taskId "s" false
  taskKind := .regression
  report :=
    { fixtureOnly := false
      baselineAlgorithm := .ridge
      finalCandidate :=
        { partition := "final", effectiveSampleCount := 500, calibrationError := some (1 / 20)
          residualCoverage := some (9 / 10), inferenceP95Ms := some 1, inferenceP99Ms := some 2 }
      minimumFinalSubgroupGroupSupport := 20
      observedWindowSeconds := 7200
      maximumInputAgeSeconds := some 30
      maximumLabelDelaySeconds := some 300
      driftScore := some (1 / 10)
      maximumOodScore := some 2
      pairedImprovement := some (1 / 20)
      lowerConfidenceBound := some (1 / 50)
      confidenceLevel := 19 / 20
      calibrated := true
      qualified := false
      qualificationReasons := []
      reportSha256 := ""
      remainder := "r" }

def edgeJob : ElmTrainingJob where
  taskId := "quant_net_edge"
  datasetRevision := "registry-test-digest"
  retryLimit := 2
  state := .evaluating
  retries := 0
  modelId := none
  error := none

theorem failed_finish_out_of_service_withheld :
    let reply := finishSuccess jobSerde jobReports 1 quietFinish (edgeConfig false) edgeJob
      (edgeResult "job_duration") 1 ({}, fun _ => none)
    ∀ error, reply.result = .error error → OutOfService jobSerde "m" reply.registry :=
  (failed_finish_out_of_service_iff jobSerde jobReports 1 quietFinish (edgeConfig false) edgeJob
    (edgeResult "job_duration") 1 ({}, fun _ => none) (quietFinish_leavesAlone jobSerde "m")
    (outOfService_empty jobSerde "m")).mpr fun _ _ _ _ _ ha => (nomatch ha)

/-- The job names one task and its data another: nothing fails before the validation, so the model is
champion of its task when the job is reported as failed. -/
theorem mismatched_job_serves :
    let reply := finishSuccess jobSerde jobReports 1 quietFinish (edgeConfig true) edgeJob
      (edgeResult "job_duration") 1 ({}, fun _ => none)
    reply.result = .error (.artifact "job artifact/report scope validation failed") ∧
      ¬ OutOfService jobSerde "m" reply.registry := by
  intro reply
  have hchampion : (durable jobSerde reply.disk).map
      (fun file => file.championByTask["job_duration"]?) = some (some "m") := by decide +kernel
  obtain ⟨file, hd, hc⟩ := Option.map_eq_some_iff.mp hchampion
  exact ⟨by decide +kernel, fun h => h.durable ⟨file, hd, .inr ⟨_, hc⟩⟩⟩

end Gail.Elm
