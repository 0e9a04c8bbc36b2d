import Gail.Elm.FinishJob
import Gail.Elm.Advisory

/-! The training worker over one job file: scans that may fail or crash at any of their steps. A job
that is found running is queued again; one that is found trained or evaluating is not looked at. -/
namespace Gail.Elm
open Gail.Library Gail.Trading
variable {Bytes F : Type}

/-- How a step of a scan ends: with a value, with the error that the scan reports, or together with
the worker. -/
inductive StepEnd (α : Type) where
  | done (value : α)
  | failed (error : ElmError)
  | crashed

def StepEnd.isDone {α : Type} : StepEnd α → Bool
  | .done _ => true
  | _ => false

/-- The job file, and how often a training of the job has been started. -/
structure JobWorld where
  file : ElmTrainingJob
  trainings : Nat

/-- What a scan leaves behind and answers; a worker that crashed answers nothing. -/
abbrev ScanEnd := JobWorld × Option (Except ElmError Bool)

def StepEnd.andThen {α : Type} (step : StepEnd α) (world : JobWorld) (next : α → ScanEnd) : ScanEnd :=
  match step with
  | .done value => next value
  | .failed error => (world, some (.error error))
  | .crashed => (world, none)

/-- The file is replaced by a rename, so a write that fails or is interrupted leaves it as it was. -/
def writeJob (write : StepEnd Unit) (world : JobWorld) (job : ElmTrainingJob)
    (next : JobWorld → ScanEnd) : ScanEnd :=
  write.andThen world fun _ => next { world with file := job }

/-- What one scan meets, in the order of its steps. -/
structure TrainingScan (Bytes F : Type) where
  read : StepEnd Unit
  oversized : Bool
  requeueWrite : StepEnd Unit
  config : FinishConfig F
  /-- The registry when the data set is looked up. -/
  lookup : Registry Bytes
  /-- The write that decides what becomes of the queued job. -/
  decisionWrite : StepEnd Unit
  /-- The worker lives until the training has been started. -/
  starts : Bool
  /-- The end of the blocking task; a panic is a failure of the step. -/
  training : StepEnd (Except ElmError (TrainedEvaluation F))
  trainedWrite : StepEnd Unit
  evaluatingWrite : StepEnd Unit
  refreshed : StepEnd (Registry Bytes)
  /-- What surrounds `finish_success`, unless the worker crashes in it. -/
  finish : Option (FinishEnv Bytes)
  completedWrite : StepEnd Unit
  failureWrite : StepEnd Unit

def JobState.isTerminal : JobState → Bool
  | completed | failed | cancelled => true
  | _ => false

/-- The stages in which a model answers for the data set it was trained on. -/
def LifecycleStage.isEvaluated : LifecycleStage → Bool
  | evaluated | qualified | shadow | canary | active => true
  | _ => false

/-- The newest record of the task whose artifact can be loaded and was trained on the data set. -/
def findDataset (serde : Serde Bytes) (maxBytes : Nat) (registry : Registry Bytes)
    (taskId datasetDigest : String) : Option RegistryRecord :=
  registry.1.file.records.reverse.find? fun record =>
    record.taskId == taskId &&
      match loadArtifact serde registry.2 record.artifactFile maxBytes with
      | .ok artifact => artifact.metadata.datasetDigest == datasetDigest
      | .error _ => false

section Scan
variable [Scalar F] (serde : Serde Bytes) (reports : ReportSerde Bytes F) (maxBytes : Nat)

def ElmConfig.authorises (config : ElmConfig F) (taskId : String) : Bool :=
  config.effectiveMode taskId ≠ .off && config.tasks[taskId]?.any (·.allowed)

/-- A training that failed is a retry, until there are more of them than the limit. -/
def recordFailure (scan : TrainingScan Bytes F) (world : JobWorld) (error : ElmError) : ScanEnd :=
  let retries := saturatingSucc world.file.retries
  writeJob scan.failureWrite world
    { world.file with
      retries
      state := if world.file.retryLimit < retries then .failed else .queued
      error := some error.display }
    fun world => (world, some (.ok true))

def completeTraining (scan : TrainingScan Bytes F) (world : JobWorld)
    (result : TrainedEvaluation F) : ScanEnd :=
  writeJob scan.trainedWrite world { world.file with state := .trained } fun world =>
  writeJob scan.evaluatingWrite world { world.file with state := .evaluating } fun world =>
  scan.refreshed.andThen world fun registry =>
  match scan.finish with
  | none => (world, none)
  | some env =>
    match (finishSuccess serde reports maxBytes env scan.config world.file result maxBytes
      registry).result with
    | .error error => (world, some (.error error))
    | .ok job =>
      writeJob scan.completedWrite world { job with state := .completed } fun world =>
        (world, some (.ok true))

def trainJob (scan : TrainingScan Bytes F) (world : JobWorld) : ScanEnd :=
  writeJob scan.decisionWrite world { world.file with state := .running, error := none } fun world =>
  if !scan.starts then (world, none)
  else
    let world := { world with trainings := world.trainings + 1 }
    scan.training.andThen world fun fit =>
    match fit with
    | .ok result => completeTraining serde reports maxBytes scan world result
    | .error error => recordFailure scan world error

/-- What becomes of a queued job. -/
def decideJob (scan : TrainingScan Bytes F) (world : JobWorld) : ScanEnd :=
  let job := world.file
  if !scan.config.elm.authorises job.taskId then
    writeJob scan.decisionWrite world
      { job with
        state := .cancelled
        error := some
          "task is disabled or not permitted by the configured authority envelope" }
      fun world => (world, some (.ok true))
  else
    match (findDataset serde maxBytes scan.lookup job.taskId job.datasetRevision).filter
      (·.stage.isEvaluated) with
    | some existing =>
      writeJob scan.decisionWrite world
        { job with state := .completed, modelId := some existing.modelId, error := none }
        fun world => (world, some (.ok true))
    | none => trainJob serde reports maxBytes scan world

/-- `process_next_job` over a directory that holds this job. -/
def processNextJob (scan : TrainingScan Bytes F) (world : JobWorld) : ScanEnd :=
  let resume := fun world : JobWorld =>
    if world.file.state ≠ .queued then (world, some (.ok false))
    else decideJob serde reports maxBytes scan world
  scan.read.andThen world fun _ =>
  if scan.oversized then (world, some (.ok false))
  else if world.file.state = .running then
    writeJob scan.requeueWrite world
      { world.file with
        state := .queued
        error := some "worker restarted; incomplete job safely re-queued" }
      resume
  else resume world

/-- One scan, for whatever the worker meets in it. -/
def JobWorld.next (world : JobWorld) (scan : TrainingScan Bytes F) : JobWorld :=
  (processNextJob serde reports maxBytes scan world).1

/-- The scan finds the job waiting and has it queued. -/
def TrainingScan.opens (scan : TrainingScan Bytes F) (job : ElmTrainingJob) : Bool :=
  scan.read.isDone && !scan.oversized &&
    (job.state == .queued || (job.state == .running && scan.requeueWrite.isDone))

/-- The job is neither cancelled nor answered by a model that exists. -/
def TrainingScan.wants (scan : TrainingScan Bytes F) (job : ElmTrainingJob) : Bool :=
  scan.config.elm.authorises job.taskId &&
    ((findDataset serde maxBytes scan.lookup job.taskId job.datasetRevision).filter
      (·.stage.isEvaluated)).isNone

/-- The scan decides on the job, and starts its training if it wants one. -/
def TrainingScan.effective (scan : TrainingScan Bytes F) (job : ElmTrainingJob) : Bool :=
  scan.opens job && scan.decisionWrite.isDone && (!scan.wants serde maxBytes job || scan.starts)

/-- A training that was started ends, and its end is written: completed with all that comes before it,
or failed and counted. -/
def TrainingScan.concludes (scan : TrainingScan Bytes F) (job : ElmTrainingJob) : Bool :=
  match scan.training with
  | .done (.ok result) =>
    scan.trainedWrite.isDone && scan.evaluatingWrite.isDone &&
      match scan.refreshed, scan.finish with
      | .done registry, some env =>
        (finishSuccess serde reports maxBytes env scan.config
          { job with state := .evaluating, error := none } result maxBytes registry).result.isOk &&
            scan.completedWrite.isDone
      | _, _ => false
  | .done (.error _) => scan.failureWrite.isDone
  | _ => false

/-- Whatever training the scan starts, it concludes. -/
def JobWorld.Concluded (world : JobWorld) (scan : TrainingScan Bytes F) : Prop :=
  scan.effective serde maxBytes world.file → scan.wants serde maxBytes world.file →
    scan.concludes serde reports maxBytes world.file

end Scan

def JobState.isWaiting : JobState → Bool
  | queued | running => true
  | _ => false

/-- What decides how often the job is still trained. -/
structure SameBudget (a b : ElmTrainingJob) : Prop where
  retryLimit : a.retryLimit = b.retryLimit
  retries : a.retries = b.retries

/-- What a scan of a job can lead to when it concludes what it starts. -/
inductive Settles (effective : Bool) (world next : JobWorld) : Prop where
  | undecided (he : effective = false) (ht : next.trainings = world.trainings)
      (hb : SameBudget next.file world.file) (hs : next.file.state = world.file.state ∨
        world.file.state.isWaiting ∧ next.file.state.isWaiting)
  | decided (hw : world.file.state.isWaiting) (ht : next.trainings ≤ world.trainings + 1)
      (hb : SameBudget next.file world.file) (hs : next.file.state.isTerminal)
  | retried (hw : world.file.state.isWaiting) (ht : next.trainings = world.trainings + 1)
      (hl : next.file.retryLimit = world.file.retryLimit)
      (hr : next.file.retries = saturatingSucc world.file.retries)
      (hs : next.file.state =
        if world.file.retryLimit < saturatingSucc world.file.retries then .failed else .queued)

/-- The job may have been queued again first. -/
theorem Settles.of_requeued {effective : Bool} {world requeued next : JobWorld}
    (h : Settles effective requeued next) (hw : world.file.state.isWaiting)
    (hq : requeued.file.state.isWaiting) (ht : requeued.trainings = world.trainings)
    (hb : SameBudget requeued.file world.file) : Settles effective world next := by
  cases h with
  | undecided he htrainings hbudget hs =>
    refine .undecided he (htrainings.trans ht)
      ⟨hbudget.retryLimit.trans hb.retryLimit, hbudget.retries.trans hb.retries⟩ (.inr ⟨hw, ?_⟩)
    rcases hs with hs | ⟨-, hs⟩
    · rwa [hs]
    · exact hs
  | decided _ htrainings hbudget hs =>
    exact .decided hw (ht ▸ htrainings)
      ⟨hbudget.retryLimit.trans hb.retryLimit, hbudget.retries.trans hb.retries⟩ hs
  | retried _ htrainings hl hr hs =>
    rw [hb.retryLimit, hb.retries] at hs
    exact .retried hw (ht ▸ htrainings) (hl.trans hb.retryLimit) (hb.retries ▸ hr) hs

section Writes
variable {write : StepEnd Unit}

theorem writeJob_done {write : StepEnd Unit} (h : write.isDone) (world : JobWorld)
    (job : ElmTrainingJob) (next : JobWorld → ScanEnd) :
    writeJob write world job next = next { world with file := job } := by
  cases write with
  | done value => rfl
  | failed error => cases h
  | crashed => cases h

theorem writeJob_not_done {write : StepEnd Unit} (h : write.isDone = false) (world : JobWorld)
    (job : ElmTrainingJob) (next : JobWorld → ScanEnd) :
    (writeJob write world job next).1 = world := by
  cases write with
  | done value => cases h
  | failed error => rfl
  | crashed => rfl

end Writes

section Steps
variable [Scalar F] {serde : Serde Bytes} {reports : ReportSerde Bytes F} {maxBytes : Nat}
  {scan : TrainingScan Bytes F} {world : JobWorld}

theorem trainJob_settles (hw : world.file.state.isWaiting) (hd : scan.decisionWrite.isDone)
    (hs : scan.starts) (hc : scan.concludes serde reports maxBytes world.file) :
    Settles true world (trainJob serde reports maxBytes scan world).1 := by
  unfold trainJob
  rw [writeJob_done hd, hs]
  unfold TrainingScan.concludes at hc
  cases hfit : scan.training with
  | failed error => rw [hfit] at hc; cases hc
  | crashed => rw [hfit] at hc; cases hc
  | done fit =>
    cases fit with
    | error error =>
      rw [hfit] at hc
      simp only [StepEnd.andThen, recordFailure, Bool.not_true, Bool.false_eq_true, if_false]
      rw [writeJob_done hc]
      exact .retried hw rfl rfl rfl rfl
    | ok result =>
      rw [hfit] at hc
      obtain ⟨hwrites, hfinish⟩ := Bool.and_eq_true_iff.mp hc
      obtain ⟨htrained, hevaluating⟩ := Bool.and_eq_true_iff.mp hwrites
      simp only [StepEnd.andThen, completeTraining, Bool.not_true, Bool.false_eq_true, if_false]
      rw [writeJob_done htrained, writeJob_done hevaluating]
      cases hr : scan.refreshed with
      | failed error => rw [hr] at hfinish; cases hfinish
      | crashed => rw [hr] at hfinish; cases hfinish
      | done registry =>
        cases henv : scan.finish with
        | none => rw [hr, henv] at hfinish; cases hfinish
        | some env =>
          rw [hr, henv] at hfinish
          obtain ⟨hok, hcompleted⟩ := Bool.and_eq_true_iff.mp hfinish
          dsimp only at hok ⊢
          cases hf : (finishSuccess serde reports maxBytes env scan.config
            { world.file with state := .evaluating, error := none } result maxBytes
              registry).result with
          | error error => rw [hf] at hok; cases hok
          | ok finished =>
            dsimp only
            rw [writeJob_done hcompleted]
            rw [finishSuccess_ok hf]
            exact .decided hw le_rfl ⟨rfl, rfl⟩ rfl

/-- The decision on a queued job: nothing happens, or the job is answered without a training, or it is
trained. -/
theorem decideJob_settles (hq : world.file.state = .queued)
    (hc : scan.decisionWrite.isDone → scan.wants serde maxBytes world.file → scan.starts →
      scan.concludes serde reports maxBytes world.file) :
    Settles (scan.decisionWrite.isDone && (!scan.wants serde maxBytes world.file || scan.starts))
      world (decideJob serde reports maxBytes scan world).1 := by
  have hw : world.file.state.isWaiting := by rw [hq]; rfl
  cases hd : scan.decisionWrite.isDone with
  | false =>
    have hnone : ∀ job next, Settles false world (writeJob scan.decisionWrite world job next).1 := by
      intro job next
      rw [writeJob_not_done hd]
      exact .undecided rfl rfl ⟨rfl, rfl⟩ (.inl rfl)
    dsimp only [decideJob]
    split
    · exact hnone _ _
    split
    · exact hnone _ _
    · exact hnone _ _
  | true =>
    simp only [decideJob, TrainingScan.wants]
    by_cases ha : scan.config.elm.authorises world.file.taskId = true
    · rw [ha]
      simp only [Bool.not_true, Bool.false_eq_true, if_false, Bool.true_and]
      cases hf : (findDataset serde maxBytes scan.lookup world.file.taskId
        world.file.datasetRevision).filter (·.stage.isEvaluated) with
      | some existing =>
        dsimp only
        rw [writeJob_done hd]
        exact .decided hw (Nat.le_succ _) ⟨rfl, rfl⟩ rfl
      | none =>
        have hwants : scan.wants serde maxBytes world.file = true := by
          rw [TrainingScan.wants, ha, hf]; rfl
        cases hs : scan.starts with
        | true => exact trainJob_settles hw hd hs (hc hd hwants hs)
        | false =>
          dsimp only [trainJob]
          rw [writeJob_done hd, hs]
          exact .undecided rfl rfl ⟨rfl, rfl⟩ (.inr ⟨hw, rfl⟩)
    · rw [Bool.eq_false_iff.mpr ha]
      simp only [Bool.not_false, if_true]
      rw [writeJob_done hd]
      exact .decided hw (Nat.le_succ _) ⟨rfl, rfl⟩ rfl

/-- A scan of a job that does not wait leaves it alone, for ever so many scans. -/
theorem next_of_not_waiting (hw : world.file.state.isWaiting = false) :
    world.next serde reports maxBytes scan = world := by
  have hq : world.file.state ≠ .queued := by rintro he; rw [he] at hw; cases hw
  have hr : world.file.state ≠ .running := by rintro he; rw [he] at hw; cases hw
  unfold JobWorld.next processNextJob
  cases scan.read with
  | failed error => rfl
  | crashed => rfl
  | done value =>
    simp only [StepEnd.andThen, if_neg hr, if_pos hq]
    split
    · rfl
    · rfl

theorem run_of_not_waiting (scans : List (TrainingScan Bytes F))
    (hw : world.file.state.isWaiting = false) :
    run (JobWorld.next serde reports maxBytes) world scans = world := by
  induction scans with
  | nil => rfl
  | cons scan scans ih => rw [run_cons, next_of_not_waiting hw, ih]

omit [Scalar F] in
private theorem opens_of_read {value : Unit} (hread : scan.read = .done value)
    (ho : scan.oversized = false) (job : ElmTrainingJob) :
    scan.opens job = (job.state == .queued || (job.state == .running && scan.requeueWrite.isDone)) := by
  rw [TrainingScan.opens, hread, ho]
  rfl

private theorem next_of_read {value : Unit} (hread : scan.read = .done value)
    (ho : scan.oversized = false) (world : JobWorld) :
    world.next serde reports maxBytes scan =
      (if world.file.state = .running then
        writeJob scan.requeueWrite world
          { world.file with
            state := .queued
            error := some "worker restarted; incomplete job safely re-queued" }
          fun world => decideJob serde reports maxBytes scan world
      else if world.file.state = .queued then decideJob serde reports maxBytes scan world
      else (world, some (.ok false))).1 := by
  unfold JobWorld.next processNextJob
  rw [hread, ho]
  simp only [StepEnd.andThen, Bool.false_eq_true, if_false, ite_not]
  split
  · cases scan.requeueWrite <;> rfl
  · rfl

/-- A scan that concludes what it starts settles the job or leaves it as it was. -/
theorem next_settles (h : world.Concluded serde reports maxBytes scan) :
    Settles (scan.effective serde maxBytes world.file) world
      (world.next serde reports maxBytes scan) := by
  have hclosed : scan.opens world.file = false → ∀ next, next = world →
      Settles (scan.effective serde maxBytes world.file) world next := by
    rintro ho next rfl
    exact .undecided (by rw [TrainingScan.effective, ho]; rfl) rfl ⟨rfl, rfl⟩ (.inl rfl)
  cases hread : scan.read with
  | failed error =>
    refine hclosed (by rw [TrainingScan.opens, hread]; rfl) _ ?_
    rw [JobWorld.next, processNextJob, hread]
    rfl
  | crashed =>
    refine hclosed (by rw [TrainingScan.opens, hread]; rfl) _ ?_
    rw [JobWorld.next, processNextJob, hread]
    rfl
  | done value =>
    cases ho : scan.oversized with
    | true =>
      refine hclosed (by rw [TrainingScan.opens, hread, ho]; rfl) _ ?_
      rw [JobWorld.next, processNextJob, hread, ho]
      rfl
    | false =>
      have hopens := opens_of_read hread ho world.file
      cases hs : world.file.state with
      | queued =>
        have hopen : scan.opens world.file = true := by rw [hopens, hs]; rfl
        rw [next_of_read hread ho, hs]
        rw [JobWorld.Concluded, TrainingScan.effective, hopen] at h
        rw [TrainingScan.effective, hopen]
        exact decideJob_settles hs fun hd hwants hstarts =>
          h (by rw [hd, hwants, hstarts]; rfl) hwants
      | running =>
        have hopen : scan.opens world.file = scan.requeueWrite.isDone := by rw [hopens, hs]; rfl
        cases hr : scan.requeueWrite.isDone with
        | false =>
          refine hclosed (hopen.trans hr) _ ?_
          rw [next_of_read hread ho, if_pos hs, writeJob_not_done hr]
        | true =>
          rw [next_of_read hread ho, if_pos hs, writeJob_done hr]
          rw [JobWorld.Concluded, TrainingScan.effective, hopen, hr] at h
          rw [TrainingScan.effective, hopen, hr]
          have hw : world.file.state.isWaiting := by rw [hs]; rfl
          let requeued : JobWorld :=
            { world with file :=
              { world.file with
                state := .queued
                error := some "worker restarted; incomplete job safely re-queued" } }
          have hq : requeued.file.state = .queued := rfl
          have hdecide := decideJob_settles hq fun hd hwants hstarts =>
            h (by rw [hd]; exact Bool.or_eq_true_iff.mpr (.inr hstarts)) hwants
          exact hdecide.of_requeued hw rfl rfl ⟨rfl, rfl⟩
      | _ =>
        refine hclosed (by rw [hopens, hs]; rfl) _ (next_of_not_waiting ?_)
        rw [hs]
        rfl

end Steps

/-- The job after so many effective scans: while it waits each of them was a training that failed and
was counted. -/
structure JobWorld.WithinLimit (limit scans : Nat) (world : JobWorld) : Prop where
  sameLimit : world.file.retryLimit = limit
  bound : world.trainings ≤ limit + 1
  waiting : world.file.state.isWaiting → world.trainings = world.file.retries ∧
    world.file.retries ≤ limit ∧ scans ≤ world.file.retries
  recovered : world.file.state.isWaiting ∨ world.file.state.isTerminal

theorem JobState.not_waiting_of_terminal {state : JobState} (h : state.isTerminal) :
    state.isWaiting = false := by
  cases state <;> simp_all [isTerminal, isWaiting]

section Runs
variable [Scalar F] {serde : Serde Bytes} {reports : ReportSerde Bytes F} {maxBytes : Nat}
  {scan : TrainingScan Bytes F} {world : JobWorld} {limit scans : Nat}

theorem JobWorld.WithinLimit.next (h : world.WithinLimit limit scans) (hl : limit < u64Max)
    (hc : world.Concluded serde reports maxBytes scan) :
    (world.next serde reports maxBytes scan).WithinLimit limit
      (scans + if scan.effective serde maxBytes world.file then 1 else 0) := by
  cases next_settles hc with
  | undecided he ht hb hs =>
    rw [he, if_neg Bool.false_ne_true, Nat.add_zero]
    refine ⟨hb.retryLimit.trans h.sameLimit, ht ▸ h.bound, fun hw => ?_, ?_⟩
    · have hold : world.file.state.isWaiting := by
        rcases hs with hs | ⟨hold, -⟩
        · rwa [← hs]
        · exact hold
      rw [ht, hb.retries]
      exact h.waiting hold
    · rcases hs with hs | ⟨-, hs⟩
      · rw [hs]; exact h.recovered
      · exact .inl hs
  | decided hw ht hb hs =>
    obtain ⟨hcount, hretries, -⟩ := h.waiting hw
    refine ⟨hb.retryLimit.trans h.sameLimit, by omega, fun hwaits => ?_, .inr hs⟩
    rw [JobState.not_waiting_of_terminal hs] at hwaits
    cases hwaits
  | retried hw ht hlimit hr hs =>
    obtain ⟨hcount, hretries, hscans⟩ := h.waiting hw
    rw [saturatingSucc_of_lt (by omega)] at hr hs
    rw [h.sameLimit] at hs
    refine ⟨hlimit.trans h.sameLimit, by omega, fun hwaits => ?_, ?_⟩
    · split at hs
      · rw [hs] at hwaits
        cases hwaits
      · refine ⟨by omega, by omega, ?_⟩
        split
        · omega
        · omega
    · rw [hs]
      split
      · exact .inr rfl
      · exact .inl rfl

/-- A new job whose scans conclude every training they start: it is trained at most once more than its
retry limit, it always waits or has ended, and after as many effective scans it has ended. -/
theorem job_trained_within_limit (serde : Serde Bytes) (reports : ReportSerde Bytes F)
    (maxBytes : Nat) (job : ElmTrainingJob) (hq : job.state = .queued) (hr : job.retries = 0)
    (hl : job.retryLimit < u64Max) (scans : List (TrainingScan Bytes F))
    (hc : Along (JobWorld.next serde reports maxBytes) (JobWorld.Concluded serde reports maxBytes)
      ⟨job, 0⟩ scans) :
    let world := run (JobWorld.next serde reports maxBytes) ⟨job, 0⟩ scans
    world.trainings ≤ job.retryLimit + 1 ∧
    (world.file.state = .queued ∨ world.file.state = .running ∨ world.file.state.isTerminal) ∧
    (job.retryLimit + 1 ≤ countAlong (JobWorld.next serde reports maxBytes)
        (fun world scan => scan.effective serde maxBytes world.file) ⟨job, 0⟩ scans →
      world.file.state.isTerminal) := by
  intro world
  have hstart : JobWorld.WithinLimit job.retryLimit 0 ⟨job, 0⟩ := by
    refine ⟨rfl, Nat.zero_le _, fun _ => ⟨hr.symm, ?_, Nat.zero_le _⟩, .inl ?_⟩
    · simp only [hr, Nat.zero_le]
    · simp only [hq]; rfl
  have hkeep : ∀ n (world : JobWorld) (scan : TrainingScan Bytes F),
      world.WithinLimit job.retryLimit n → world.Concluded serde reports maxBytes scan →
      (world.next serde reports maxBytes scan).WithinLimit job.retryLimit
        (n + if scan.effective serde maxBytes world.file then 1 else 0) :=
    fun _ _ _ hi hg => hi.next hl hg
  have hend := countAlong_invariant (JobWorld.next serde reports maxBytes) hkeep hstart hc
  rw [Nat.zero_add] at hend
  refine ⟨hend.bound, ?_, fun hcount => ?_⟩
  · rcases hend.recovered with hw | ht
    · cases hs : world.file.state with
      | queued => exact .inl rfl
      | running => exact .inr (.inl rfl)
      | _ => rw [hs] at hw; cases hw
    · exact .inr (.inr ht)
  · rcases hend.recovered with hw | ht
    · obtain ⟨-, hretries, hscans⟩ := hend.waiting hw
      omega
    · exact ht

end Runs

/-- A scan in which nothing fails but what the training itself reports. -/
def quietScan (training : StepEnd (Except ElmError (TrainedEvaluation ℚ))) :
    TrainingScan (StoredFile ⊕ TrainingEvaluationReport ℚ) ℚ where
  read := .done ()
  oversized := false
  requeueWrite := .done ()
  config := edgeConfig true
  lookup := ({}, fun _ => none)
  decisionWrite := .done ()
  starts := true
  training
  trainedWrite := .done ()
  evaluatingWrite := .done ()
  refreshed := .done ({}, fun _ => none)
  finish := some quietFinish
  completedWrite := .done ()
  failureWrite := .done ()

/-- A job that may be trained once. -/
def queuedJob : ElmTrainingJob := { edgeJob with state := .queued, retryLimit := 0 }

def panickingScan : TrainingScan (StoredFile ⊕ TrainingEvaluationReport ℚ) ℚ :=
  quietScan (.failed (.numerical "training task failed: task panicked"))

theorem job_trained_within_limit_failing :
    let world := run (JobWorld.next jobSerde jobReports 1) ⟨queuedJob, 0⟩
      [quietScan (.done (.error (.numerical "singular system")))]
    world.trainings ≤ 1 ∧
    (world.file.state = .queued ∨ world.file.state = .running ∨ world.file.state.isTerminal) ∧
    (1 ≤ countAlong (JobWorld.next jobSerde jobReports 1)
        (fun world scan => scan.effective jobSerde 1 world.file) ⟨queuedJob, 0⟩
        [quietScan (.done (.error (.numerical "singular system")))] →
      world.file.state.isTerminal) :=
  job_trained_within_limit jobSerde jobReports 1 queuedJob rfl rfl (by decide) _
    ⟨fun _ _ => rfl, trivial⟩

/-- A job whose end is refused is never looked at again, and a training that panics is not counted: two
of them exceed a limit of no retries. -/
theorem unfinished_job_stuck :
    (∀ later, (run (JobWorld.next jobSerde jobReports 1) ⟨queuedJob, 0⟩
      (quietScan (.done (.ok (edgeResult "job_duration"))) :: later)).file.state = .evaluating) ∧
    (run (JobWorld.next jobSerde jobReports 1) ⟨queuedJob, 0⟩
      [panickingScan, panickingScan]).trainings = queuedJob.retryLimit + 2 := by
  refine ⟨fun later => ?_, by decide +kernel⟩
  have hstate : (JobWorld.next jobSerde jobReports 1 ⟨queuedJob, 0⟩
      (quietScan (.done (.ok (edgeResult "job_duration"))))).file.state = .evaluating := by
    decide +kernel
  rw [run_cons, run_of_not_waiting later (by rw [hstate]; rfl), hstate]

end Gail.Elm
