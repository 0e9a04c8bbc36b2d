import Gail.Elm.Advisory
import Gail.Elm.RegistryDecisions
import Gail.Elm.RegistryProcesses
import Gail.Library.SharedCounter

/-! Failed inferences and the rollback they trigger. The service counts failures per task, while a
result belongs to the model that was asked; the rollback runs on its own beside the registry. -/
namespace Gail.Elm
open Gail.Library
variable {Bytes : Type}

/-- How far the blocking task of a rollback has come. -/
inductive RollbackPhase where
  | spawned (task digest : String)
  | championRead (task digest modelId : String)
  | authorised (task digest : String)
  | calling (task digest : String) (revision : Nat)
  | ended
  deriving DecidableEq

/-- The task and the digest that a rollback was spawned for. -/
def RollbackPhase.subject : RollbackPhase → Option (String × String)
  | .spawned task digest | .championRead task digest _ | .authorised task digest
  | .calling task digest _ => some (task, digest)
  | .ended => none

/-- The next read of the registry by the blocking task. -/
def RollbackPhase.advance (phase : RollbackPhase) (state : RegistryState) : RollbackPhase :=
  match phase with
  | .spawned task digest =>
    match state.champion task with
    | none => .ended
    | some champion =>
      if champion.contentSha256 ≠ digest then .ended
      else .championRead task digest champion.metadata.modelId
  | .championRead task digest modelId =>
    match state.record modelId with
    | none => .ended
    | some record =>
      if record.stage = .active ∨ record.stage = .canary then .authorised task digest else .ended
  | .authorised task digest => .calling task digest state.file.revision
  | phase => phase

/-- The registries of all processes, and what the service over one of them keeps of its results. -/
structure FailureWatch (Bytes : Type) where
  world : World Bytes
  inferenceFailures : Std.TreeMap String Nat
  /-- The blocking tasks in the order in which they were spawned. -/
  rollbacks : List RollbackPhase

inductive WatchAction where
  /-- Any step of a registry that no blocking task takes. -/
  | registry (process : Nat) (action : Action)
  /-- `record_elm_inference_result`. -/
  | record (task digest : String) (report : InferenceReport)
  | advance (index : Nat)
  | rollback (index now : Nat) (fault : Option IoFault)

def rollbackReason : String := "three consecutive bounded inference failures"

def rollbackKey (task digest : String) : String := "inference-failure:" ++ task ++ ":" ++ digest

namespace FailureWatch

/-- The failures counted for a task; `entry(task).or_default()` reads a missing count as zero. -/
def failures (s : FailureWatch Bytes) (task : String) : Nat := s.inferenceFailures[task]?.getD 0

def recordInferenceResult (s : FailureWatch Bytes) (automaticRollback : Bool) (task digest : String)
    (report : InferenceReport) : FailureWatch Bytes :=
  if report.valid then { s with inferenceFailures := s.inferenceFailures.erase task }
  else if !report.counted || !automaticRollback then s
  else
    let count := s.failures task + 1
    if 3 ≤ count then
      { s with
        inferenceFailures := s.inferenceFailures.insert task 0
        rollbacks := s.rollbacks ++ [.spawned task digest] }
    else { s with inferenceFailures := s.inferenceFailures.insert task count }

section Steps
variable (serde : Serde Bytes) (home : Nat) (automaticRollback : Bool)

/-- The registry step of a rollback. -/
def rollbackInput (task digest : String) (revision now : Nat) (fault : Option IoFault) :
    Nat × Action :=
  (home, .call (.rollbackChampion task (rollbackKey task digest) revision rollbackReason fault) now)

/-- A step that does not fit the phase of its blocking task does nothing. -/
def next (s : FailureWatch Bytes) : WatchAction → FailureWatch Bytes
  | .registry process action => { s with world := s.world.next serde (process, action) }
  | .record task digest report => s.recordInferenceResult automaticRollback task digest report
  | .advance index =>
    match (s.world.process home).memory with
    | some state =>
      { s with rollbacks := s.rollbacks.modify index fun phase => phase.advance state }
    | none => s
  | .rollback index now fault =>
    match s.rollbacks[index]? with
    | some (.calling task digest revision) =>
      let input := rollbackInput home task digest revision now fault
      match s.world.answer serde input with
      | none => s
      | some _ =>
        { s with world := s.world.next serde input, rollbacks := s.rollbacks.set index .ended }
    | _ => s

/-- A service that has not recorded anything yet. -/
def start (disk : Disk Bytes) : FailureWatch Bytes :=
  { world := World.start disk, inferenceFailures := ∅, rollbacks := [] }

/-- The task and the outgoing champion of the rollback that a step decides on. -/
def rolledBack (s : FailureWatch Bytes) : WatchAction → Option (String × ElmArtifact)
  | .rollback index now _ =>
    match s.rollbacks[index]?, s.world.process home with
    | some (.calling task digest revision), .idle maxBytes state =>
      match refreshLocked serde maxBytes s.world.disk state with
      | .error _ => none
      | .ok (_, fresh) =>
        match rollbackDecision serde maxBytes s.world.disk task (rollbackKey task digest) revision
            rollbackReason now fresh with
        | .ok (.write _ _) => (fresh.champion task).map fun artifact => (task, artifact)
        | _ => none
    | _, _ => none
  | _ => none

end Steps

/-- What a step adds to the results of a task: a valid one, or a failure that counts. -/
def sample (task : String) : WatchAction → Option (Sample String)
  | .record recorded digest report =>
    if recorded = task ∧ (report.valid ∨ report.counted) then some ⟨digest, report.valid⟩ else none
  | _ => none

/-- The results recorded for a task, each under the digest of its model. -/
def results (task : String) (actions : List WatchAction) : List (Sample String) :=
  actions.filterMap (sample task)

/-- The model serves the task in a stage from which a failing model is taken back. -/
def Serves (state : RegistryState) (task digest : String) : Prop :=
  ∃ champion record, state.champion task = some champion ∧ champion.contentSha256 = digest ∧
    state.record champion.metadata.modelId = some record ∧
    (record.stage = .active ∨ record.stage = .canary)

/-- The failures that are being counted for a task are of the model that the result is of. -/
def OneModel (before : List WatchAction) (action : WatchAction) : Prop :=
  ∀ task result, sample task action = some result → OneSource 3 (results task before) result

/-- When a rollback finds the revision that it expects, the champion is still the one whose digest it
compared. -/
def stillChampion (serde : Serde Bytes) (home : Nat) (s : FailureWatch Bytes) : WatchAction → Bool
  | .rollback index _ _ =>
    match s.rollbacks[index]?, s.world.process home with
    | some (.calling task digest revision), .idle maxBytes state =>
      match refreshLocked serde maxBytes s.world.disk state with
      | .error _ => true
      | .ok (_, fresh) =>
        fresh.file.revision != revision ||
          (fresh.champion task).all fun champion => champion.contentSha256 == digest
    | _, _ => true
  | _ => true

instance (before : List WatchAction) : (action : WatchAction) → Decidable (OneModel before action)
  | .record task digest report =>
    decidable_of_iff (∀ result ∈ sample task (.record task digest report),
      OneSource 3 (results task before) result) <| by
      constructor
      · intro h other result hr
        obtain ⟨⟨rfl, -⟩, -⟩ := Option.ite_none_right_eq_some.mp hr
        exact h result hr
      · exact fun h result hr => h task result hr
  | .registry .. | .advance _ | .rollback .. => isTrue fun _ _ h => nomatch h

/-- What is counted and what was spawned agree with the results so far. -/
structure Tracked (automaticRollback : Bool) (before : List WatchAction) (s : FailureWatch Bytes) :
    Prop where
  counts : automaticRollback = true → ∀ task, s.failures task = (pending 3 (results task before)).length
  single : ∀ task earlier result later, results task before = earlier ++ result :: later →
    OneSource 3 earlier result
  caused : ∀ phase ∈ s.rollbacks, ∀ task digest, phase.subject = some (task, digest) →
    FailedInARow 3 digest (results task before)

section Results
variable {serde : Serde Bytes} {home : Nat} {automaticRollback : Bool} {s : FailureWatch Bytes}
  {action : WatchAction} {before : List WatchAction} {task digest : String}

theorem results_snoc :
    results task (before ++ [action]) = results task before ++ (sample task action).toList := by
  simp only [results, List.filterMap_append]
  cases h : sample task action <;> simp [h]

/-- A blocking task keeps its subject until it ends. -/
theorem subject_advance {phase : RollbackPhase} {state : RegistryState}
    (h : (phase.advance state).subject = some (task, digest)) : phase.subject = some (task, digest) := by
  cases phase with
  | spawned =>
    simp only [RollbackPhase.advance] at h
    split at h
    · cases h
    · split at h
      · cases h
      · exact h
  | championRead =>
    simp only [RollbackPhase.advance] at h
    split at h
    · cases h
    · split at h
      · exact h
      · cases h
  | authorised => exact h
  | calling => exact h
  | ended => exact h

/-- While its model serves, a blocking task comes to its call. -/
theorem advance_serving {state : RegistryState} (h : Serves state task digest) :
    (((RollbackPhase.spawned task digest).advance state).advance state).advance state =
      .calling task digest state.file.revision := by
  obtain ⟨champion, record, hc, hd, hr, hstage⟩ := h
  simp only [RollbackPhase.advance, hc, hd, hr, ne_eq, not_true_eq_false, if_false, if_pos hstage]

/-- Only a result makes the service spawn or count. -/
theorem next_rollbacks (h : ∀ task digest report, action ≠ .record task digest report) :
    (s.next serde home automaticRollback action).inferenceFailures = s.inferenceFailures ∧
      ∀ phase ∈ (s.next serde home automaticRollback action).rollbacks, ∀ subject,
        phase.subject = some subject → ∃ old ∈ s.rollbacks, old.subject = some subject := by
  cases action with
  | registry process action => exact ⟨rfl, fun phase hp subject hs => ⟨phase, hp, hs⟩⟩
  | record task digest report => exact absurd rfl (h task digest report)
  | advance index =>
    simp only [next]
    split
    · next state hm =>
      refine ⟨rfl, ?_⟩
      intro phase hp subject hs
      obtain ⟨i, hi⟩ := List.mem_iff_getElem?.mp hp
      rw [List.getElem?_modify] at hi
      obtain ⟨old, hold, he⟩ := Option.map_eq_some_iff.mp hi
      refine ⟨old, List.mem_of_getElem? hold, ?_⟩
      split at he
      · rw [← he] at hs
        exact subject_advance hs
      · exact he ▸ hs
    · exact ⟨rfl, fun phase hp subject hs => ⟨phase, hp, hs⟩⟩
  | rollback index now fault =>
    simp only [next]
    split
    · split
      · exact ⟨rfl, fun phase hp subject hs => ⟨phase, hp, hs⟩⟩
      · refine ⟨rfl, ?_⟩
        intro phase hp subject hs
        rcases List.mem_or_eq_of_mem_set hp with hm | rfl
        · exact ⟨phase, hm, hs⟩
        · cases hs
    · exact ⟨rfl, fun phase hp subject hs => ⟨phase, hp, hs⟩⟩

theorem sample_of_ne (h : ∀ task digest report, action ≠ .record task digest report) :
    sample task action = none := by
  cases action with
  | record recorded digest report => exact absurd rfl (h recorded digest report)
  | _ => rfl

theorem Tracked.start {disk : Disk Bytes} : Tracked automaticRollback [] (start disk) where
  counts _ _ := rfl
  single _ earlier _ _ h := by
    have hl := congrArg List.length h
    simp [results] at hl
  caused _ hp := nomatch hp

theorem Tracked.single_snoc (h : Tracked automaticRollback before s) (hone : OneModel before action) :
    ∀ task earlier result later, results task (before ++ [action]) = earlier ++ result :: later →
      OneSource 3 earlier result := by
  intro task earlier result later he
  rw [results_snoc] at he
  cases hs : sample task action with
  | none =>
    rw [hs] at he
    exact h.single task earlier result later ((List.append_nil _).symm.trans he)
  | some last =>
    rw [hs] at he
    rcases List.eq_nil_or_concat later with rfl | ⟨later, final, rfl⟩
    · obtain ⟨rfl, hlast⟩ := List.append_inj' he rfl
      cases hlast
      exact hone task _ hs
    · have hsplit : results task before ++ [last] = (earlier ++ result :: later) ++ [final] := by
        simpa only [List.concat_eq_append, Option.toList_some, List.append_assoc, List.cons_append]
          using he
      exact h.single task earlier result later (List.append_inj' hsplit rfl).1

theorem failures_insert (s : FailureWatch Bytes) (task other : String) (count : Nat) :
    ({ s with inferenceFailures := s.inferenceFailures.insert task count } : FailureWatch Bytes).failures
      other = if task = other then count else s.failures other := by
  simp only [failures, Std.TreeMap.getElem?_insert, Std.LawfulEqCmp.compare_eq_iff_eq]
  split <;> rfl

theorem failures_erase (s : FailureWatch Bytes) (task other : String) :
    ({ s with inferenceFailures := s.inferenceFailures.erase task } : FailureWatch Bytes).failures other =
      if task = other then 0 else s.failures other := by
  simp only [failures, Std.TreeMap.getElem?_erase, Std.LawfulEqCmp.compare_eq_iff_eq]
  split <;> rfl

theorem sample_record {report : InferenceReport} (recorded : String) :
    sample task (.record recorded digest report) =
      if recorded = task ∧ (report.valid ∨ report.counted) then some ⟨digest, report.valid⟩ else none :=
  rfl

/-- The counter follows the results of every task. -/
theorem Tracked.counts_record (h : Tracked true before s) {recorded : String} {report : InferenceReport} :
    (s.recordInferenceResult true recorded digest report).failures task =
      (pending 3 (results task (before ++ [.record recorded digest report]))).length := by
  rw [results_snoc, sample_record]
  have hcount := h.counts rfl
  unfold recordInferenceResult
  cases hv : report.valid with
  | true =>
    rw [if_pos rfl, failures_erase]
    by_cases ht : recorded = task
    · rw [if_pos ht, if_pos ⟨ht, .inl rfl⟩, Option.toList_some, pending_snoc]
      rfl
    · rw [if_neg ht, if_neg fun hc => ht hc.1, Option.toList_none, List.append_nil, hcount]
  | false =>
    cases hf : report.counted with
    | false =>
      rw [if_neg (by simp), if_pos (by simp), if_neg (by simp), Option.toList_none, List.append_nil, hcount]
    | true =>
      rw [if_neg (by simp), if_neg (by simp)]
      by_cases ht : recorded = task
      · subst ht
        have hsample : (if recorded = recorded ∧ (false = true ∨ true = true) then
            some (⟨digest, false⟩ : Sample String) else none) = some ⟨digest, false⟩ :=
          if_pos ⟨rfl, .inr rfl⟩
        rw [hsample, Option.toList_some, pending_snoc, pendingAfter_failure, ← hcount]
        dsimp only
        split
        · exact (failures_insert s recorded recorded 0).trans (if_pos rfl)
        · rw [failures_insert, if_pos rfl, List.length_append, List.length_singleton, ← hcount]
      · have hsample : (if recorded = task ∧ (false = true ∨ true = true) then
            some (⟨digest, false⟩ : Sample String) else none) = none :=
          if_neg fun hc => ht hc.1
        rw [hsample, Option.toList_none, List.append_nil, ← hcount]
        dsimp only
        split
        · exact (failures_insert s recorded task 0).trans (if_neg ht)
        · exact (failures_insert s recorded task _).trans (if_neg ht)

/-- A counted failure spawns a rollback exactly when it completes three in a row of its model. -/
theorem Tracked.spawns (h : Tracked true before s) {report : InferenceReport}
    (hv : report.valid = false) (hf : report.counted = true)
    (hone : OneModel before (.record task digest report)) :
    (s.recordInferenceResult true task digest report).rollbacks =
      if 3 ≤ streak 3 digest (results task before) + 1 then s.rollbacks ++ [.spawned task digest]
      else s.rollbacks := by
  have hsample : sample task (.record task digest report) = some ⟨digest, false⟩ := by
    rw [sample_record, if_pos ⟨rfl, .inr hf⟩, hv]
  have hiff := limit_iff (h.single task) (hone task _ hsample)
  unfold recordInferenceResult
  rw [if_neg (by simp [hv]), if_neg (by simp [hf])]
  dsimp only
  rw [h.counts rfl task]
  split
  · next hc => rw [if_pos (hiff.mp hc)]
  · next hc => rw [if_neg fun hs => hc (hiff.mpr hs)]

theorem Tracked.caused_mono (h : Tracked automaticRollback before s) {phase : RollbackPhase}
    (hp : phase ∈ s.rollbacks) (hs : phase.subject = some (task, digest)) :
    FailedInARow 3 digest (results task (before ++ [action])) := by
  rw [results_snoc]
  exact (h.caused phase hp task digest hs).append _

/-- A rollback is spawned for a model that has failed three times in a row. -/
theorem Tracked.caused_record (h : Tracked automaticRollback before s) {recorded : String}
    {report : InferenceReport} (hone : OneModel before (.record recorded digest report)) :
    ∀ phase ∈ (s.recordInferenceResult automaticRollback recorded digest report).rollbacks,
      ∀ task subject, phase.subject = some (task, subject) →
        FailedInARow 3 subject (results task (before ++ [.record recorded digest report])) := by
  intro phase hp task subject hs
  cases hauto : automaticRollback with
  | false =>
    have hkept : (s.recordInferenceResult automaticRollback recorded digest report).rollbacks =
        s.rollbacks := by
      unfold recordInferenceResult
      rw [hauto]
      split
      · rfl
      · rw [if_pos (by simp)]
    exact h.caused_mono (hkept ▸ hp) hs
  | true =>
    subst hauto
    cases hv : report.valid with
    | true =>
      have hkept : (s.recordInferenceResult true recorded digest report).rollbacks = s.rollbacks := by
        unfold recordInferenceResult
        rw [if_pos hv]
      exact h.caused_mono (hkept ▸ hp) hs
    | false =>
      cases hf : report.counted with
      | false =>
        have hkept : (s.recordInferenceResult true recorded digest report).rollbacks = s.rollbacks := by
          unfold recordInferenceResult
          rw [if_neg (by simp [hv]), if_pos (by simp [hf])]
        exact h.caused_mono (hkept ▸ hp) hs
      | true =>
        rw [h.spawns hv hf hone] at hp
        split at hp
        swap
        · exact h.caused_mono hp hs
        rename_i hthird
        rcases List.mem_append.mp hp with hold | hnew
        · exact h.caused_mono hold hs
        · cases List.mem_singleton.mp hnew
          cases hs
          have hlast : results recorded (before ++ [.record recorded digest report]) =
              results recorded before ++ [⟨digest, false⟩] := by
            rw [results_snoc, sample_record, if_pos ⟨rfl, .inr hf⟩, hv]
            rfl
          rw [hlast]
          exact failedInARow_of_streak hthird rfl rfl

theorem Tracked.next (h : Tracked automaticRollback before s) (hone : OneModel before action) :
    Tracked automaticRollback (before ++ [action]) (s.next serde home automaticRollback action) := by
  by_cases hrecord : ∃ task digest report, action = .record task digest report
  · obtain ⟨recorded, digest, report, rfl⟩ := hrecord
    refine ⟨?_, h.single_snoc hone, h.caused_record hone⟩
    rintro rfl task
    exact h.counts_record
  · have hno : ∀ task digest report, action ≠ .record task digest report :=
      fun task digest report he => hrecord ⟨task, digest, report, he⟩
    obtain ⟨hfailures, hrollbacks⟩ :
        (s.next serde home automaticRollback action).inferenceFailures = s.inferenceFailures ∧
          ∀ phase ∈ (s.next serde home automaticRollback action).rollbacks, ∀ subject,
            phase.subject = some subject → ∃ old ∈ s.rollbacks, old.subject = some subject :=
      next_rollbacks hno
    have hresults : ∀ task, results task (before ++ [action]) = results task before := by
      intro task
      rw [results_snoc, sample_of_ne hno, Option.toList_none, List.append_nil]
    refine ⟨?_, h.single_snoc hone, ?_⟩
    · intro hauto task
      rw [hresults, ← h.counts hauto task, failures, failures, hfailures]
    · intro phase hp task digest hs
      obtain ⟨old, hold, hsubject⟩ := hrollbacks phase hp _ hs
      exact h.caused_mono hold hsubject

/-- A rollback takes back the champion that its blocking task was spawned for. -/
theorem rolledBack_subject {artifact : ElmArtifact} (hc : stillChampion serde home s action = true)
    (h : s.rolledBack serde home action = some (task, artifact)) :
    ∃ phase ∈ s.rollbacks, phase.subject = some (task, artifact.contentSha256) := by
  cases action with
  | rollback index now fault =>
    simp only [rolledBack] at h
    split at h
    swap
    · cases h
    rename_i found digest revision maxBytes state hphase hidle
    split at h
    · cases h
    rename_i adopted fresh hrefresh
    split at h
    swap
    · cases h
    rename_i next event hdecision
    obtain ⟨champion, hchampion, he⟩ := Option.map_eq_some_iff.mp h
    cases he
    obtain ⟨-, -, -, -, hrevision, -⟩ := rollbackDecision_write hdecision
    simp only [stillChampion, hphase, hidle, hrefresh, hrevision, hchampion, bne_self_eq_false,
      Bool.false_or, Option.all_some, beq_iff_eq] at hc
    exact ⟨_, List.mem_of_getElem? hphase, by rw [hc]; rfl⟩
  | _ => cases h

/-- Every step of a run meets the condition, which may look back at the results before it. -/
def Orderly (serde : Serde Bytes) (home : Nat) (automaticRollback : Bool) (disk : Disk Bytes)
    (actions : List WatchAction) : Prop :=
  ∀ before action after, actions = before ++ action :: after →
    OneModel before action ∧
      stillChampion serde home
        (run (FailureWatch.next serde home automaticRollback) (start disk) before) action = true

instance (disk : Disk Bytes) (actions : List WatchAction) :
    Decidable (Orderly serde home automaticRollback disk actions) :=
  decidable_of_iff (∀ i (h : i < actions.length), OneModel (actions.take i) actions[i] ∧
    stillChampion serde home
      (run (FailureWatch.next serde home automaticRollback) (start disk) (actions.take i))
      actions[i] = true)
    (forall_split_iff (P := fun before action => OneModel before action ∧ stillChampion serde home
      (run (FailureWatch.next serde home automaticRollback) (start disk) before) action = true)).symm

theorem Orderly.tracked {disk : Disk Bytes} {actions : List WatchAction}
    (h : Orderly serde home automaticRollback disk actions) :
    Tracked automaticRollback actions
      (run (FailureWatch.next serde home automaticRollback) (start disk) actions) := by
  have hone : ∀ before action after, actions = before ++ action :: after →
      (fun before (_ : FailureWatch Bytes) action => OneModel before action) before
        (run (FailureWatch.next serde home automaticRollback) (start disk) before) action :=
    fun before action after he => (h before action after he).1
  exact run_history _ (fun _ _ _ ht hg => ht.next hg) Tracked.start hone

theorem Orderly.left {disk : Disk Bytes} {actions later : List WatchAction}
    (h : Orderly serde home automaticRollback disk (actions ++ later)) :
    Orderly serde home automaticRollback disk actions := by
  rintro before action after rfl
  exact h before action (after ++ later) (by rw [List.append_assoc]; rfl)

/-- The model that a rollback takes back has failed three times in a row. -/
def Warranted (serde : Serde Bytes) (home : Nat) (automaticRollback : Bool) (disk : Disk Bytes)
    (actions : List WatchAction) : Prop :=
  ∀ before action after, actions = before ++ action :: after → ∀ task artifact,
    (run (FailureWatch.next serde home automaticRollback) (start disk) before).rolledBack serde home action =
      some (task, artifact) → FailedInARow 3 artifact.contentSha256 (results task before)

/-- The third failure in a row of a model spawns a rollback, which comes to its call while the model
serves. -/
def Attempted (serde : Serde Bytes) (home : Nat) (automaticRollback : Bool) (disk : Disk Bytes)
    (actions : List WatchAction) : Prop :=
  ∀ before task digest report after, actions = before ++ .record task digest report :: after →
    report.valid = false → report.counted = true → 3 ≤ streak 3 digest (results task before) + 1 →
    let s := run (FailureWatch.next serde home automaticRollback) (start disk) before
    (s.next serde home automaticRollback (.record task digest report)).rollbacks =
        s.rollbacks ++ [.spawned task digest] ∧
      ∀ state, Serves state task digest →
        (((RollbackPhase.spawned task digest).advance state).advance state).advance state =
          .calling task digest state.file.revision

/-- With results of one model at a time and a champion that stays until its rollback commits, only a
model that failed three times in a row is taken back, and every such model is. -/
theorem rollback_warranted {disk : Disk Bytes} {actions : List WatchAction}
    (h : Orderly serde home true disk actions) :
    Warranted serde home true disk actions ∧ Attempted serde home true disk actions := by
  constructor
  · rintro before action after rfl task artifact hrolled
    obtain ⟨-, hstill⟩ := h before action after rfl
    obtain ⟨phase, hp, hsubject⟩ := rolledBack_subject hstill hrolled
    exact h.left.tracked.caused phase hp task _ hsubject
  · rintro before task digest report after rfl hv hf hthird s
    obtain ⟨hone, -⟩ := h before _ after rfl
    refine ⟨?_, fun state hs => advance_serving hs⟩
    exact (h.left.tracked.spawns hv hf hone).trans (if_pos hthird)

end Results

section Sample

/-- The steps that make a new model the active champion of its task, from a revision on. -/
def activate (modelId schema : String) (revision : Nat) : List WatchAction :=
  let inputs : List (Nat × Action) :=
    enterShadow 0 (plainArtifact modelId "t" schema false) revision ++
      [(0, .call (.promote modelId .active (revision + 4) "shadow evidence" none) 0)]
  inputs.map fun input => .registry input.1 input.2

def failed (modelId schema : String) : WatchAction :=
  .record "t" (plainArtifact modelId "t" schema false).contentSha256 { valid := false, counted := true }

def openHome : List WatchAction := [.registry 0 (.startOpen 1), .registry 0 .finishOpen]

/-- A blocking task runs to its end. -/
def rollBack (index : Nat) : List WatchAction :=
  [.advance index, .advance index, .advance index, .rollback index 0 none]

/-- The first model fails three times and is taken back. -/
def failingModel : List WatchAction :=
  openHome ++ activate "a" "s" 0 ++ List.replicate 3 (failed "a" "s") ++ rollBack 0

/-- The second model becomes champion after two failures of the first and fails once. -/
def replacedModel : List WatchAction :=
  openHome ++ activate "a" "s" 0 ++ List.replicate 2 (failed "a" "s") ++ activate "b" "s" 5 ++
    [failed "b" "s"] ++ rollBack 0

def plainWatch (actions : List WatchAction) : FailureWatch StoredFile :=
  run (FailureWatch.next plainSerde 0 true) (start fun _ => none) actions

theorem rollback_warranted_failingModel :
    Warranted plainSerde 0 true (fun _ => none) failingModel ∧
      Attempted plainSerde 0 true (fun _ => none) failingModel :=
  rollback_warranted (by decide +kernel)

/-- Two failures of the outgoing model are held against the new one. -/
theorem rollback_unwarranted : ¬ Warranted plainSerde 0 true (fun _ => none) replacedModel := by
  intro h
  have hrolled : (plainWatch replacedModel.dropLast).rolledBack plainSerde 0 (.rollback 0 0 none) =
      some ("t", plainArtifact "b" "t" "s" false) := by
    decide +kernel
  have hfailed := h replacedModel.dropLast (.rollback 0 0 none) [] rfl _ _ hrolled
  revert hfailed
  decide +kernel

end Sample

end FailureWatch

end Gail.Elm
