import Gail.Elm.FinishJob

/-! The scan that takes shadow champions to canary, while the registry changes under it. It reads the
copy of its process a few times for each model, and compares only the revision that it reads last. -/
namespace Gail.Elm
open Gail.Library Gail.Trading
variable {Bytes F : Type}

/-- A report with the two members that the scan compares. -/
structure StoredReport (F : Type) where
  report : TrainingEvaluationReport F
  taskId : String
  datasetDigest : String

/-- `serde_json` on stored reports. -/
structure StoredReports (Bytes F : Type) where
  fromSlice : Bytes → Option (StoredReport F)
  toVec : StoredReport F → Option Bytes

/-- What the scan reads of the configuration. -/
structure CanaryScanConfig (F : Type) where
  elm : ElmConfig F
  /-- `lifecycle.automatic_promotion`. -/
  automaticPromotion : Bool
  /-- `lifecycle.minimum_dwell_seconds`. -/
  minimumDwellSeconds : Nat
  /-- `trading.live_execution_enabled`. -/
  liveExecution : Bool

/-- What stays the same over one scan, and what is left of it. -/
structure Scan where
  now : Nat
  /-- What the scan has not come to of the records it took at its start. -/
  todo : List RegistryRecord
  promoted : Nat

/-- How far the scan is with one model. -/
inductive ScanStep (F : Type) where
  | between
  | counted (record : RegistryRecord)
  | championRead (record : RegistryRecord) (champion : ElmArtifact)
  | reportRead (record : RegistryRecord) (champion : ElmArtifact) (report : StoredReport F)
  /-- The promotion is called with the revision of this copy. -/
  | promoting (record : RegistryRecord) (champion : ElmArtifact) (report : StoredReport F)
    (seen : RegistryState)

inductive ScanPhase (F : Type) where
  | idle (result : Except ElmError Nat)
  | scanning (scan : Scan) (step : ScanStep F)

/-- The registries of all processes, and the scan of one of them. -/
structure ScanWorld (Bytes F : Type) where
  world : World Bytes
  phase : ScanPhase F

inductive ScanAction (Bytes : Type) where
  /-- Any step of a registry that the scan does not take; its own refresh is one. -/
  | registry (process : Nat) (action : Action)
  | storeEvaluation (process : Nat) (modelId : String) (bytes : Bytes) (fault : Option IoFault)
  | takeRecords (now : Nat)
  /-- The next read of the scan. -/
  | read
  | promote (now : Nat) (fault : Option IoFault)

/-- A value of the registry copy that the scan has read. -/
inductive Reading where
  | record (modelId : String)
  | decisions (modelId : String)
  | champion (task : String)

def Action.closes : Action → Bool
  | .close => true
  | _ => false

def canaryReason : String :=
  "automatically entered bounded canary after verified qualification and shadow dwell"

section Checks
variable [Scalar F] (serde : Serde Bytes) (reports : StoredReports Bytes F)
  (config : CanaryScanConfig F) (details : ElmArtifact → ModelDetails F)

/-- `canary_max_decisions` of the policy, zero if there is none. -/
def CanaryScanConfig.canaryLimit (record : RegistryRecord) : Nat :=
  ((config.elm.policy record.taskId).bind PromotionPolicy.canaryMaxDecisions).elim 0 UInt64.toNat

/-- The checks on a record alone. -/
def CanaryScanConfig.selects (now : Nat) (record : RegistryRecord) : Bool :=
  record.stage == .shadow && !record.fixtureOnly &&
    config.elm.tasks[record.taskId]?.any (fun task =>
      task.allowed && config.elm.effectiveMode record.taskId == .auto && task.maxStage.reaches .canary &&
        !decide (task.influenceCap ≤ 0.0) &&
        decide (config.minimumDwellSeconds ≤ now - record.updatedAt) &&
        config.elm.promotionPolicies[task.promotionPolicy]?.any fun policy =>
          policy.isComplete && !decide (policy.canaryFraction.getD 0.0 < task.rolloutFraction) &&
            !decide (policy.authorisedInfluence.getD 0.0 ≤ 0.0)) &&
    !(["quant_net_edge", "trading_advisory"].contains record.taskId && config.liveExecution &&
      !config.elm.trading.allowLiveInfluence)

/-- A limit of zero leaves no budget. -/
def CanaryScanConfig.withinBudget (record : RegistryRecord) (decisions : Nat) : Bool :=
  decide (decisions < config.canaryLimit record)

def ElmArtifact.isChampionOf (champion : ElmArtifact) (record : RegistryRecord) : Bool :=
  champion.metadata.modelId == record.modelId && champion.contentSha256 == record.digest

def evaluationJson (maxBytes : Nat) (disk : Disk Bytes) (state : RegistryState) (modelId : String) :
    Option (StoredReport F) := do
  let record ← state.record modelId
  let bytes ← disk (evaluationPath record.modelId)
  if maxBytes < serde.len bytes then none else reports.fromSlice bytes

/-- The report in the file of a model, whatever its size. -/
def storedReport (disk : Disk Bytes) (modelId : String) : Option (StoredReport F) :=
  (disk (evaluationPath modelId)).bind reports.fromSlice

/-- The digest of the report without its digest. -/
def reportDigest (stored : StoredReport F) : Option String :=
  (reports.toVec { stored with report := { stored.report with reportSha256 := "" } }).map serde.sha256Hex

/-- The checks on a report, for the record and the champion that the scan has read. -/
def CanaryScanConfig.qualifies (record : RegistryRecord) (champion : ElmArtifact)
    (stored : StoredReport F) : Bool :=
  reportDigest serde reports stored == some stored.report.reportSha256 && stored.report.qualified &&
    !stored.report.fixtureOnly && stored.taskId == record.taskId &&
    stored.datasetDigest == champion.metadata.datasetDigest &&
    (evaluateQualification config.elm record.taskId
      { artifact := champion, taskKind := (details champion).taskKind, report := stored.report }).qualified

/-- All checks on a model at one copy of the registry and one content of the directory. -/
def CanaryScanConfig.eligible (disk : Disk Bytes) (now : Nat) (state : RegistryState)
    (modelId : String) : Bool :=
  (state.record modelId).any fun record =>
    config.selects now record && config.withinBudget record (state.canaryDecisions modelId) &&
      (state.champion record.taskId).any fun champion =>
        champion.isChampionOf record &&
          (storedReport reports disk modelId).any (config.qualifies serde reports details record champion)

end Checks

/-- The readings of a step that the promotion will rest on, and that no revision guards yet. -/
def ScanStep.readings : ScanStep F → List Reading
  | .between | .promoting .. => []
  | .counted record => [.record record.modelId, .decisions record.modelId]
  | .championRead record _ | .reportRead record _ _ =>
    [.record record.modelId, .decisions record.modelId, .champion record.taskId]

/-- The model whose report the promotion will rest on. No revision ever guards it. -/
def ScanStep.trustedReport : ScanStep F → Option String
  | .reportRead record _ _ | .promoting record _ _ _ => some record.modelId
  | _ => none

def Reading.Same (state next : RegistryState) : Reading → Prop
  | .record modelId => next.record modelId = state.record modelId
  | .decisions modelId => next.canaryDecisions modelId = state.canaryDecisions modelId
  | .champion task => next.champion task = state.champion task

instance (state next : RegistryState) : (reading : Reading) → Decidable (reading.Same state next)
  | .record modelId => inferInstanceAs (Decidable (next.record modelId = state.record modelId))
  | .decisions modelId =>
    inferInstanceAs (Decidable (next.canaryDecisions modelId = state.canaryDecisions modelId))
  | .champion task => inferInstanceAs (Decidable (next.champion task = state.champion task))

def ScanAction.storedReport : ScanAction Bytes → Option String
  | .storeEvaluation _ modelId _ _ => some modelId
  | _ => none

section Steps
variable [Scalar F] (serde : Serde Bytes) (reports : StoredReports Bytes F)
  (config : CanaryScanConfig F) (details : ElmArtifact → ModelDetails F)

/-- The next read of a scan. A check that fails ends the model, not the scan. -/
def Scan.read (maxBytes : Nat) (disk : Disk Bytes) (state : RegistryState) (scan : Scan) :
    ScanStep F → ScanPhase F
  | .between =>
    match scan.todo with
    | [] => .idle (.ok scan.promoted)
    | record :: todo =>
      if config.selects scan.now record &&
          config.withinBudget record (state.canaryDecisions record.modelId) then
        .scanning { scan with todo } (.counted record)
      else .scanning { scan with todo } .between
  | .counted record =>
    match state.champion record.taskId with
    | none => .scanning scan .between
    | some champion =>
      if champion.isChampionOf record then .scanning scan (.championRead record champion)
      else .scanning scan .between
  | .championRead record champion =>
    match evaluationJson serde reports maxBytes disk state record.modelId with
    | none => .scanning scan .between
    | some report =>
      if config.qualifies serde reports details record champion report then
        .scanning scan (.reportRead record champion report)
      else .scanning scan .between
  | .reportRead record champion report => .scanning scan (.promoting record champion report state)
  | .promoting record champion report seen => .scanning scan (.promoting record champion report seen)

def ScanPhase.readings (phase : ScanPhase F) : List Reading :=
  match phase with
  | .idle _ => []
  | .scanning scan step =>
    (scan.todo.filter (config.selects scan.now)).map (fun record => .record record.modelId) ++ step.readings

def ScanPhase.trustedReport : ScanPhase F → Option String
  | .idle _ => none
  | .scanning _ step => step.trustedReport

/-- The registry step of a promotion by the scan of a process. -/
def promotionInput (worker : Nat) (record : RegistryRecord) (seen : RegistryState) (now : Nat)
    (fault : Option IoFault) : Nat × Action :=
  (worker, .call (.promote record.modelId .canary seen.file.revision canaryReason fault) now)

/-- A promotion that lost a race ends the model, any other failure the scan. -/
def Scan.afterPromotion (scan : Scan) : Except ElmError Answer → ScanPhase F
  | .ok _ => .scanning { scan with promoted := scan.promoted + 1 } .between
  | .error .revisionConflict => .scanning scan .between
  | .error error => .idle (.error error)

namespace ScanWorld

/-- A scan ends with its process; a step that does not fit its phase does nothing. -/
def next (worker : Nat) (s : ScanWorld Bytes F) : ScanAction Bytes → ScanWorld Bytes F
  | .registry process action =>
    { world := s.world.next serde (process, action)
      phase := if process = worker ∧ action.closes then .idle (.ok 0) else s.phase }
  | .storeEvaluation process modelId bytes fault =>
    match s.world.process process with
    | .idle maxBytes state =>
      { s with world :=
        { s.world with
          disk := (storeEvaluation serde maxBytes s.world.disk state modelId bytes fault).disk } }
    | _ => s
  | .takeRecords now =>
    match s.phase, s.world.process worker with
    | .idle _, .idle _ state =>
      if config.automaticPromotion then
        { s with phase := .scanning { now, todo := state.file.records, promoted := 0 } .between }
      else { s with phase := .idle (.ok 0) }
    | _, _ => s
  | .read =>
    match s.phase, s.world.process worker with
    | .scanning scan step, .idle maxBytes state =>
      { s with phase := scan.read serde reports config details maxBytes s.world.disk state step }
    | _, _ => s
  | .promote now fault =>
    match s.phase with
    | .scanning scan (.promoting record _ _ seen) =>
      match s.world.answer serde (promotionInput worker record seen now fault) with
      | none => s
      | some answer =>
        { world := s.world.next serde (promotionInput worker record seen now fault)
          phase := scan.afterPromotion answer }
    | _ => s

def start : ScanWorld Bytes F := { world := World.empty, phase := .idle (.ok 0) }

/-- What the scan promotes in a step: the time of the scan, the model, and the copy on which the
promotion is decided. -/
def promotes (worker : Nat) (s : ScanWorld Bytes F) : ScanAction Bytes → Option (Nat × String × RegistryState)
  | .promote now _ =>
    match s.phase, s.world.process worker with
    | .scanning scan (.promoting record _ _ seen), .idle maxBytes state =>
      match refreshLocked serde maxBytes s.world.disk state with
      | .error _ => none
      | .ok (_, fresh) =>
        match promoteDecision serde maxBytes s.world.disk record.modelId .canary seen.file.revision
            canaryReason now fresh with
        | .ok (.write _ _) => some (scan.now, record.modelId, fresh)
        | _ => none
    | _, _ => none
  | _ => none

/-- The step changes nothing in the copy that the scan has read there, and replaces no report that it
has read. -/
def Undisturbed (worker : Nat) (s : ScanWorld Bytes F) (action : ScanAction Bytes) : Prop :=
  (∀ state ∈ (s.world.process worker).memory,
    ∀ next ∈ ((s.next serde reports config details worker action).world.process worker).memory,
      ∀ reading ∈ s.phase.readings config, reading.Same state next) ∧
    ∀ modelId ∈ s.phase.trustedReport, action.storedReport ≠ some modelId

instance (worker : Nat) (s : ScanWorld Bytes F) (action : ScanAction Bytes) :
    Decidable (s.Undisturbed serde reports config details worker action) :=
  inferInstanceAs (Decidable (_ ∧ _))

end ScanWorld

end Steps

end Gail.Elm
