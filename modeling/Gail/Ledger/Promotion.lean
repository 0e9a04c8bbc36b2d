import Gail.Ledger.TrainerWorker
import Gail.Library.AtomicSteps
import Mathlib.Data.String.Basic

/-! The promotion of a trained snapshot. The directory of the training output, the pointer to the active snapshot in it
and the models of Ollama change one after the other, and the pipeline may fail or stop between any two of them. -/
namespace Gail.Ledger
open Gail.Library
variable {Target : Type}

/-- The text of `active_snapshot.json`. -/
inductive SnapshotPointer (Target : Type)
  | absent
  /-- Left by a write that did not come to its end, with what the reader says of it. -/
  | unreadable (error : String)
  | active (snapshotId : String) (servingTarget : Option Target)

def SnapshotPointer.snapshot : SnapshotPointer Target → Option String
  | .active snapshotId _ => some snapshotId
  | _ => none

/-- A directory of `snapshots`. -/
structure SnapshotDir where
  id : String
  adapter : Bool
  /-- The file `training_report.json`. -/
  trainingReport : Bool
  /-- The file `pipeline.json`. -/
  pipelineReport : Bool
  deriving DecidableEq

def SnapshotDir.hasTerminalReport (dir : SnapshotDir) : Bool := dir.trainingReport || dir.pipelineReport

/-- The training output and Ollama. -/
structure TrainingRoot (Target : Type) where
  pointer : SnapshotPointer Target
  snapshots : List SnapshotDir
  /-- The snapshots that have a model `prefix:snapshot`. -/
  models : List String
  /-- The snapshot that the alias serves. -/
  modelAlias : Option String
  /-- The snapshot whose adapter the llama.cpp service has. -/
  serving : Option String

namespace TrainingRoot

def empty : TrainingRoot Target := ⟨.absent, [], [], none, none⟩

def hasAdapter (root : TrainingRoot Target) (snapshotId : String) : Bool :=
  root.snapshots.any fun dir => dir.id = snapshotId && dir.adapter

/-- `create_dir_all` of the directory of a snapshot. -/
def createDir (snapshotId : String) (root : TrainingRoot Target) : TrainingRoot Target :=
  if root.snapshots.any (·.id = snapshotId) then root
  else { root with snapshots := root.snapshots ++ [⟨snapshotId, false, false, false⟩] }

def editDir (snapshotId : String) (change : SnapshotDir → SnapshotDir) (root : TrainingRoot Target) :
    TrainingRoot Target :=
  { root with snapshots := updateWhere (fun dir => dir.id = snapshotId) change root.snapshots }

def removeDir (snapshotId : String) (root : TrainingRoot Target) : TrainingRoot Target :=
  { root with snapshots := root.snapshots.filter fun dir => dir.id ≠ snapshotId }

end TrainingRoot

/-- The test on an id that is read from a pointer or a directory. -/
def safeSnapshotId (snapshotId : String) : Bool :=
  !snapshotId.isEmpty &&
    snapshotId.toList.all fun character => character.isAlphanum || character == '-' || character == '_'

/-- `active_snapshot_id`. -/
def activeSnapshotId (root : TrainingRoot Target) : Except String (Option String) :=
  match root.pointer with
  | .absent => .ok none
  | .unreadable error => .error ("invalid active training snapshot pointer: " ++ error)
  | .active snapshotId _ =>
    if safeSnapshotId snapshotId then .ok (some snapshotId)
    else .error "active training snapshot pointer has an unsafe snapshot_id"

/-- The error of a file or a directory that is missing. -/
def notFound : String := "No such file or directory (os error 2)"

/-- `active_adapter_path`, with the snapshot for the path. -/
def activeAdapterPath (root : TrainingRoot Target) : Except String (Option String) := do
  let some snapshotId ← activeSnapshotId root | return none
  if root.hasAdapter snapshotId then return some snapshotId
  else throw ("active training adapter is unavailable: " ++ notFound)

structure PromotionConfig where
  modelPrefix : String
  modelAlias : String
  registerWithOllama : Bool
  rotateKeep : Nat
  /-- The bound that `normalize` puts on it. -/
  rotateKeep_pos : 0 < rotateKeep
  snapshotRetention : Nat

/-- What a request to Ollama comes to. One that fails may have been carried out. -/
inductive Reply
  | ok
  | failed (error : String) (applied : Bool)

/-- What the training leaves in the directory of the snapshot. -/
inductive TrainingArtifact
  | adapter
  | trainingReport

def TrainingArtifact.add : TrainingArtifact → SnapshotDir → SnapshotDir
  | .adapter, dir => { dir with adapter := true }
  | .trainingReport, dir => { dir with trainingReport := true }

/-- How a write in place ends. -/
inductive RestoreEnd
  | done
  /-- The file could not be opened. -/
  | unchanged
  /-- The file was emptied and is not complete, with what a reader says of it. -/
  | torn (error : String)

/-- What a removal that fails leaves of a directory. -/
structure LeftOver where
  error : String
  adapter : Bool
  trainingReport : Bool
  pipelineReport : Bool

def LeftOver.strip (left : LeftOver) (dir : SnapshotDir) : SnapshotDir :=
  { dir with
    adapter := dir.adapter && left.adapter
    trainingReport := dir.trainingReport && left.trainingReport
    pipelineReport := dir.pipelineReport && left.pipelineReport }

/-- What the pipeline meets. An optional text is the error of a step that fails. -/
structure PipelineConditions (Target : Type) where
  createDir : Option String
  writePlan : Option String
  /-- What is added to the directory, in its order, also by a training that fails. -/
  artifacts : List TrainingArtifact
  /-- The exit code, where there is a command to execute. -/
  training : Except String (Option Int)
  /-- The checks of `qualify_training_snapshot` after that of the report. -/
  qualification : Except String Unit
  /-- The choice of a target, where targets are configured. -/
  selection : Option (Except String Target)
  /-- The checks and uploads before `create`. -/
  prepare : Except String Unit
  create : Reply
  copy : Reply
  /-- The publication for llama.cpp, where the snapshot is an adapter. -/
  publishAdapter : Option Reply
  publishPointer : Option String
  healthCheck : Option String
  rollback : Reply
  /-- What Ollama says when it does not have the model of a copy. -/
  missingModel : String
  restore : RestoreEnd
  tags : Option String
  delete : String → Reply
  readSnapshots : Option String
  remove : String → Option LeftOver
  writeReport : Option String

section Steps

abbrev TrainerTask (Target α : Type) : Type := Task (TrainingRoot Target) String α

/-- A step that may fail and has then no effect. -/
def step (error : Option String) (change : TrainingRoot Target → TrainingRoot Target) : TrainerTask Target Unit :=
  match error with
  | some error => Task.fail error
  | none => Task.write change

def request (reply : Reply) (change : TrainingRoot Target → TrainingRoot Target) : TrainerTask Target Unit :=
  match reply with
  | .ok => Task.write change
  | .failed error false => Task.fail error
  | .failed error true => do
    Task.write change
    Task.fail error

/-- The request `copy` of the model of a snapshot to the alias. -/
def copyModel (reply : Reply) (missing : String) (snapshotId : String) : TrainerTask Target Unit := do
  let root ← Task.look
  if snapshotId ∈ root.models then request reply fun root => { root with modelAlias := some snapshotId }
  else Task.fail missing

/-- `rollback_ollama_alias`. -/
def rollbackOllamaAlias (conditions : PipelineConditions Target) (previousSnapshot : Option String) :
    TrainerTask Target Unit :=
  match previousSnapshot with
  | none => pure ()
  | some previousSnapshot => copyModel conditions.rollback conditions.missingModel previousSnapshot

def setPointer (pointer : SnapshotPointer Target) : TrainerTask Target Unit :=
  Task.write fun root => { root with pointer }

/-- `restore_active_snapshot_pointer`. A text is written in place, which is not one step. -/
def restoreActiveSnapshotPointer (restore : RestoreEnd) (previous : SnapshotPointer Target) : TrainerTask Target Unit :=
  match previous, restore with
  | .absent, .done => setPointer .absent
  | .absent, _ => pure ()
  | _, .unchanged => pure ()
  | _, .torn error => setPointer (.unreadable error)
  | previous, .done => do
    setPointer (.unreadable "EOF while parsing a value at line 1 column 0")
    setPointer previous

/-- `register_snapshot_with_ollama`. -/
def registerSnapshotWithOllama (conditions : PipelineConditions Target) (snapshotId : String) :
    TrainerTask Target Unit := do
  Task.ofExcept conditions.prepare
  request conditions.create fun root =>
    if snapshotId ∈ root.models then root else { root with models := root.models ++ [snapshotId] }
  copyModel conditions.copy conditions.missingModel snapshotId
  match conditions.publishAdapter with
  | none => pure ()
  | some reply => request reply fun root => { root with serving := some snapshotId }

/-- `publish_active_snapshot`. -/
def publishActiveSnapshot (conditions : PipelineConditions Target) (snapshotId : String)
    (servingTarget : Option Target) : TrainerTask Target Unit := do
  let root ← Task.look
  if root.hasAdapter snapshotId then
    step conditions.publishPointer fun root => { root with pointer := .active snapshotId servingTarget }
  else Task.fail ("trained snapshot adapter is unavailable: " ++ notFound)

/-- The newest first. -/
def newestFirst (snapshotIds : List String) : List String := sortByKey (fun id => OrderDual.toDual id) snapshotIds

/-- `rotate_ollama_models`. -/
def rotateOllamaModels (config : PromotionConfig) (conditions : PipelineConditions Target) :
    TrainerTask Target Unit := do
  step conditions.tags id
  let root ← Task.look
  forM ((newestFirst root.models).drop config.rotateKeep) fun snapshotId => do
    let _ ← (request (conditions.delete snapshotId) fun root =>
      { root with models := root.models.filter (· ≠ snapshotId) }).attempt

/-- The directories that `prune_training_snapshots` counts. -/
def completedSnapshots (root : TrainingRoot Target) : List String :=
  newestFirst ((root.snapshots.filter fun dir => safeSnapshotId dir.id && dir.hasTerminalReport).map SnapshotDir.id)

/-- The directories that it keeps among them. -/
def keptSnapshots (config : PromotionConfig) (root : TrainingRoot Target) (activeSnapshot : Option String)
    (currentSnapshot : String) : List String :=
  (completedSnapshots root).take (max config.snapshotRetention 2) ++ [currentSnapshot] ++ activeSnapshot.toList

def removeSnapshot (conditions : PipelineConditions Target) (snapshotId : String) : TrainerTask Target Unit :=
  match conditions.remove snapshotId with
  | none => Task.write (TrainingRoot.removeDir snapshotId)
  | some left => do
    Task.write (TrainingRoot.editDir snapshotId left.strip)
    Task.fail left.error

/-- `prune_training_snapshots`. -/
def pruneTrainingSnapshots (config : PromotionConfig) (conditions : PipelineConditions Target)
    (currentSnapshot : String) : TrainerTask Target Unit := do
  step conditions.readSnapshots id
  let root ← Task.look
  let activeSnapshot ← Task.ofExcept (activeSnapshotId root)
  let keep := keptSnapshots config root activeSnapshot currentSnapshot
  forM ((completedSnapshots root).filter (· ∉ keep)) (removeSnapshot conditions)

end Steps

/-- How the registration of a snapshot ended. -/
structure Registration where
  succeeded : Bool
  error : Option String

/-- Only a pointer that was published is restored. -/
def restorePublished (restore : RestoreEnd) : Option (SnapshotPointer Target) → TrainerTask Target Unit
  | none => pure ()
  | some previous => restoreActiveSnapshotPointer restore previous

/-- The alias goes back to the previous snapshot, and so does the pointer where it was published. -/
def withdraw (conditions : PipelineConditions Target) (previousSnapshot : Option String)
    (previousPointer : Option (SnapshotPointer Target)) (error : String) : TrainerTask Target Registration := do
  let _ ← (rollbackOllamaAlias conditions previousSnapshot).attempt
  restorePublished conditions.restore previousPointer
  return ⟨false, some error⟩

/-- What follows when the alias serves the snapshot. -/
def publishAndCheck (conditions : PipelineConditions Target) (snapshotId : String) (servingTarget : Option Target)
    (previousSnapshot : Option String) (previousPointer : SnapshotPointer Target) :
    TrainerTask Target Registration := do
  match ← (publishActiveSnapshot conditions snapshotId servingTarget).attempt with
  | .error error => withdraw conditions previousSnapshot none ("active snapshot publication failed: " ++ error)
  | .ok () =>
    match conditions.healthCheck with
    | some error =>
      let checked := if servingTarget.isNone then "promoted model" else "serving target"
      withdraw conditions previousSnapshot (some previousPointer) (checked ++ " health check failed: " ++ error)
    | none => return ⟨true, none⟩

def registerAndPublish (conditions : PipelineConditions Target) (snapshotId : String) (servingTarget : Option Target)
    (previousSnapshot : Option String) (previousPointer : SnapshotPointer Target) :
    TrainerTask Target Registration := do
  match ← (registerSnapshotWithOllama conditions snapshotId).attempt with
  | .error error => withdraw conditions previousSnapshot none error
  | .ok () => publishAndCheck conditions snapshotId servingTarget previousSnapshot previousPointer

/-- Old models and directories go when the snapshot is promoted. -/
def tidy (config : PromotionConfig) (conditions : PipelineConditions Target) (snapshotId : String) :
    Bool → TrainerTask Target Unit
  | false => pure ()
  | true => do
    let _ ← (rotateOllamaModels config conditions).attempt
    let _ ← (pruneTrainingSnapshots config conditions snapshotId).attempt

/-- The pipeline from the registration on, for a snapshot that was trained and qualified. -/
def promote (config : PromotionConfig) (conditions : PipelineConditions Target) (snapshotId : String)
    (servingTarget : Option Target) : TrainerTask Target Registration := do
  let root ← Task.look
  let previousSnapshot ← Task.ofExcept (activeSnapshotId root)
  let registration ← registerAndPublish conditions snapshotId servingTarget previousSnapshot root.pointer
  tidy config conditions snapshotId registration.succeeded
  return registration

/-- `qualify_training_snapshot`. -/
def qualifyTrainingSnapshot (conditions : PipelineConditions Target) (snapshotId : String)
    (root : TrainingRoot Target) : Except String Unit :=
  if root.snapshots.any fun dir => dir.id = snapshotId && dir.trainingReport then conditions.qualification
  else .error ("training result artifact is missing training_report.json: " ++ notFound)

/-- `pipeline.json`. -/
def writePipelineReport (conditions : PipelineConditions Target) (snapshotId : String) : TrainerTask Target Unit :=
  step conditions.writeReport (TrainingRoot.editDir snapshotId fun dir => { dir with pipelineReport := true })

def qualify (conditions : PipelineConditions Target) (snapshotId : String) : TrainerTask Target Unit := do
  let root ← Task.look
  match qualifyTrainingSnapshot conditions snapshotId root with
  | .ok () => pure ()
  | .error error =>
    writePipelineReport conditions snapshotId
    Task.fail ("training snapshot failed qualification; model was not registered or promoted: " ++ error)

/-- The training, with the exit code where a command was executed. -/
def train (conditions : PipelineConditions Target) (snapshotId : String) : TrainerTask Target (Option Int) := do
  step conditions.createDir (TrainingRoot.createDir snapshotId)
  let root ← Task.look
  let _ ← Task.ofExcept (activeAdapterPath root)
  step conditions.writePlan id
  forM conditions.artifacts fun artifact => Task.write (TrainingRoot.editDir snapshotId artifact.add)
  Task.ofExcept conditions.training

/-- The pipeline after the training. -/
def concludeTraining (config : PromotionConfig) (conditions : PipelineConditions Target) (snapshotId : String) :
    Option Int → TrainerTask Target Registration
  | none => return ⟨false, none⟩
  | some _ => do
    qualify conditions snapshotId
    let servingTarget ← Task.ofExcept (conditions.selection.elim (.ok none) (Except.map some))
    if config.registerWithOllama then promote config conditions snapshotId servingTarget
    else return ⟨false, none⟩

/-- What the pipeline returns. -/
def trainingOutcome (config : PromotionConfig) (snapshotId : String) (exitCode : Option Int)
    (registration : Registration) : Except String TrainingOutcome :=
  match registration.error with
  | some error => .error ("trained snapshot was retained but not promoted: " ++ error)
  | none =>
    let snapshotTag :=
      if registration.succeeded then config.modelAlias else config.modelPrefix ++ ":" ++ snapshotId
    if exitCode = some 0 && config.registerWithOllama && registration.succeeded then .ok ⟨snapshotTag, .trained, rfl⟩
    else .ok ⟨snapshotTag, .snapshotted, rfl⟩

/-- `run_training_pipeline`. -/
def runTrainingPipeline (config : PromotionConfig) (conditions : PipelineConditions Target) (snapshotId : String) :
    TrainerTask Target TrainingOutcome := do
  let exitCode ← train conditions snapshotId
  let registration ← concludeTraining config conditions snapshotId exitCode
  writePipelineReport conditions snapshotId
  Task.ofExcept (trainingOutcome config snapshotId exitCode registration)

/-- What happens to the training output. A pipeline may stop after some of its steps. -/
inductive PromotionEvent (Target : Type)
  | pipeline (snapshotId : String) (conditions : PipelineConditions Target) (stopped : Option Nat)
  /-- `ensure_active_serving_target` chose another target. -/
  | retarget (servingTarget : Target)

def TrainingRoot.step (config : PromotionConfig) (root : TrainingRoot Target) :
    PromotionEvent Target → TrainingRoot Target
  | .pipeline snapshotId conditions none => (runTrainingPipeline config conditions snapshotId root).last
  | .pipeline snapshotId conditions (some steps) =>
    (runTrainingPipeline config conditions snapshotId).stopped steps root
  | .retarget servingTarget =>
    match root.pointer with
    | .active snapshotId _ => { root with pointer := .active snapshotId (some servingTarget) }
    | _ => root

section Pointer
variable {root : TrainingRoot Target} {id other : String} {held : Option String}

theorem hasAdapter_iff : root.hasAdapter id = true ↔ ∃ dir ∈ root.snapshots, dir.id = id ∧ dir.adapter = true := by
  simp [TrainingRoot.hasAdapter]

theorem hasAdapter_createDir (h : root.hasAdapter id = true) : (root.createDir other).hasAdapter id = true := by
  unfold TrainingRoot.createDir
  split
  · exact h
  · obtain ⟨dir, hdir, hid⟩ := hasAdapter_iff.mp h
    exact hasAdapter_iff.mpr ⟨dir, List.mem_append_left _ hdir, hid⟩

/-- A change of a directory that takes no adapter from the snapshot. -/
theorem hasAdapter_editDir {change : SnapshotDir → SnapshotDir} (hid : ∀ dir, (change dir).id = dir.id)
    (hadapter : ∀ dir, dir.id = id → dir.id = other → (change dir).adapter = dir.adapter ∨ (change dir).adapter = true)
    (h : root.hasAdapter id = true) : (root.editDir other change).hasAdapter id = true := by
  obtain ⟨dir, hdir, hname, hone⟩ := hasAdapter_iff.mp h
  refine hasAdapter_iff.mpr ⟨if dir.id = other then change dir else dir, ?_, ?_, ?_⟩
  · refine List.mem_map.mpr ⟨dir, hdir, ?_⟩
    by_cases hsame : dir.id = other <;> simp [hsame]
  · split
    · rw [hid, hname]
    · exact hname
  · split
    · rename_i hsame
      rcases hadapter dir hname hsame with heq | heq
      · rw [heq, hone]
      · exact heq
    · exact hone

theorem hasAdapter_removeDir (hne : other ≠ id) (h : root.hasAdapter id = true) :
    (root.removeDir other).hasAdapter id = true := by
  obtain ⟨dir, hdir, hname, hone⟩ := hasAdapter_iff.mp h
  exact hasAdapter_iff.mpr ⟨dir, List.mem_filter.mpr ⟨hdir, by simpa [hname] using Ne.symm hne⟩, hname, hone⟩

theorem distinct_createDir (h : (root.snapshots.map SnapshotDir.id).Nodup) :
    ((root.createDir other).snapshots.map SnapshotDir.id).Nodup := by
  unfold TrainingRoot.createDir
  split
  · exact h
  · rename_i hnew
    exact nodup_keys_append h fun dir hdir heq => hnew (List.any_eq_true.mpr ⟨dir, hdir, decide_eq_true heq⟩)

theorem distinct_editDir {change : SnapshotDir → SnapshotDir} (hid : ∀ dir, (change dir).id = dir.id)
    (h : (root.snapshots.map SnapshotDir.id).Nodup) :
    ((root.editDir other change).snapshots.map SnapshotDir.id).Nodup := by
  rw [TrainingRoot.editDir, map_updateWhere fun dir _ => hid dir]
  exact h

theorem distinct_removeDir (h : (root.snapshots.map SnapshotDir.id).Nodup) :
    ((root.removeDir other).snapshots.map SnapshotDir.id).Nodup :=
  (List.filter_sublist.map _).nodup h

/-- The snapshot of the pointer has its adapter, and so has one that is held. -/
structure TrainingRoot.Sound (held : Option String) (root : TrainingRoot Target) : Prop where
  distinct : (root.snapshots.map SnapshotDir.id).Nodup
  pointer : ∀ id ∈ root.pointer.snapshot, root.hasAdapter id = true
  held : ∀ id ∈ held, root.hasAdapter id = true

theorem sound_empty : TrainingRoot.Sound none (.empty : TrainingRoot Target) :=
  ⟨List.nodup_nil, fun _ hid => (nomatch hid), fun _ hid => (nomatch hid)⟩

theorem TrainingRoot.Sound.keep (h : root.Sound held) {after : TrainingRoot Target}
    (hdistinct : (after.snapshots.map SnapshotDir.id).Nodup) (hpointer : after.pointer = root.pointer)
    (hsnapshots : ∀ id, root.hasAdapter id = true → after.hasAdapter id = true) : after.Sound held where
  distinct := hdistinct
  pointer id hid := hsnapshots id (h.pointer id (hpointer ▸ hid))
  held id hid := hsnapshots id (h.held id hid)

theorem keeps_step {error : Option String} {change : TrainingRoot Target → TrainingRoot Target}
    {safe : TrainingRoot Target → Prop} (h : ∀ root, safe root → safe (change root)) :
    Task.Keeps safe (step error change) := by
  unfold step
  split
  · exact Task.keeps_fail _
  · exact Task.keeps_write h

theorem keeps_request (reply : Reply) {change : TrainingRoot Target → TrainingRoot Target}
    {safe : TrainingRoot Target → Prop} (h : ∀ root, safe root → safe (change root)) :
    Task.Keeps safe (request reply change) := by
  unfold request
  split
  · exact Task.keeps_write h
  · exact Task.keeps_fail _
  · exact (Task.keeps_write h).bind fun _ => Task.keeps_fail _

theorem keeps_copyModel (reply : Reply) (missing snapshotId : String) {safe : TrainingRoot Target → Prop}
    (h : ∀ root, safe root → safe { root with modelAlias := some snapshotId }) :
    Task.Keeps safe (copyModel reply missing snapshotId) := by
  refine Task.keeps_look.bind fun root => ?_
  split
  · exact keeps_request reply h
  · exact Task.keeps_fail _

/-- The alias and the models have no part in what the pointer needs. -/
theorem sound_aliased (root : TrainingRoot Target) (h : root.Sound held) (snapshotId : String) :
    TrainingRoot.Sound held { root with modelAlias := some snapshotId } :=
  h.keep h.distinct rfl fun _ hid => hid

theorem keeps_rollback (conditions : PipelineConditions Target) (previousSnapshot : Option String) :
    Task.Keeps (TrainingRoot.Sound held) (rollbackOllamaAlias conditions previousSnapshot) := by
  cases previousSnapshot with
  | none => exact Task.keeps_pure _
  | some previousSnapshot => exact keeps_copyModel _ _ _ fun root h => sound_aliased root h _

theorem keeps_register (conditions : PipelineConditions Target) (snapshotId : String) :
    Task.Keeps (TrainingRoot.Sound held) (registerSnapshotWithOllama conditions snapshotId) := by
  refine (Task.keeps_ofExcept _).bind fun _ => (keeps_request _ fun root h => ?_).bind fun _ =>
    (keeps_copyModel _ _ _ fun root h => sound_aliased root h _).bind fun _ => ?_
  · split
    · exact h
    · exact h.keep h.distinct rfl fun _ hid => hid
  · split
    · exact Task.keeps_pure _
    · exact keeps_request _ fun root h => h.keep h.distinct rfl fun _ hid => hid

theorem keeps_publish (conditions : PipelineConditions Target) (snapshotId : String) (servingTarget : Option Target) :
    Task.Keeps (TrainingRoot.Sound held) (publishActiveSnapshot conditions snapshotId servingTarget) := by
  refine Task.spec_look_bind fun seen => ?_
  split
  · rename_i hadapter
    have hnext :
        TrainingRoot.Sound held { seen with pointer := .active snapshotId servingTarget } ∨ ¬ seen.Sound held := by
      by_cases hseen : seen.Sound held
      · refine .inl ⟨hseen.distinct, fun id hid => ?_, hseen.held⟩
        rw [Option.mem_some.mp hid] at hadapter
        exact hadapter
      · exact .inr hseen
    unfold step
    split
    · exact Task.spec_fail fun _ h => h.2
    · refine Task.spec_write ?_ ?_ <;>
        exact fun store h => h.1 ▸ hnext.resolve_right fun hnot => hnot (h.1 ▸ h.2)
  · exact Task.spec_fail fun _ h => h.2

theorem keeps_setPointer {pointer : SnapshotPointer Target} (h : ∀ id ∈ pointer.snapshot, id ∈ held) :
    Task.Keeps (TrainingRoot.Sound held) (setPointer pointer) :=
  Task.keeps_write fun _ hroot => ⟨hroot.distinct, fun id hid => hroot.held id (h id hid), hroot.held⟩

/-- A pointer goes back to a snapshot that is held. -/
theorem keeps_restore (restore : RestoreEnd) {previous : SnapshotPointer Target}
    (h : ∀ id ∈ previous.snapshot, id ∈ held) :
    Task.Keeps (TrainingRoot.Sound held) (restoreActiveSnapshotPointer restore previous) := by
  have hnone (error : String) :
      Task.Keeps (TrainingRoot.Sound held) (setPointer (.unreadable error : SnapshotPointer Target)) :=
    keeps_setPointer fun _ hid => nomatch hid
  unfold restoreActiveSnapshotPointer
  split
  · exact keeps_setPointer fun _ hid => nomatch hid
  · exact Task.keeps_pure _
  · exact Task.keeps_pure _
  · exact hnone _
  · exact (hnone _).bind fun _ => keeps_setPointer h

theorem keeps_withdraw (conditions : PipelineConditions Target) (previousSnapshot : Option String)
    {previousPointer : Option (SnapshotPointer Target)}
    (h : ∀ pointer ∈ previousPointer, ∀ id ∈ pointer.snapshot, id ∈ held) (error : String) :
    Task.Keeps (TrainingRoot.Sound held) (withdraw conditions previousSnapshot previousPointer error) := by
  refine (keeps_rollback _ _).attempt.bind fun _ => Task.Keeps.bind ?_ fun _ => Task.keeps_pure _
  cases previousPointer with
  | none => exact Task.keeps_pure _
  | some previousPointer => exact keeps_restore _ (h previousPointer rfl)

theorem keeps_registerAndPublish (conditions : PipelineConditions Target) (snapshotId : String)
    (servingTarget : Option Target) (previousSnapshot : Option String) {previousPointer : SnapshotPointer Target}
    (h : ∀ id ∈ previousPointer.snapshot, id ∈ held) :
    Task.Keeps (TrainingRoot.Sound held)
      (registerAndPublish conditions snapshotId servingTarget previousSnapshot previousPointer) := by
  have hnone (error : String) :
      Task.Keeps (TrainingRoot.Sound held) (withdraw conditions previousSnapshot none error) :=
    keeps_withdraw _ _ (fun _ hpointer => absurd hpointer (Option.not_mem_none _)) error
  refine (keeps_register _ _).attempt.bind fun registered => ?_
  cases registered with
  | error error => exact hnone error
  | ok _ =>
    refine (keeps_publish _ _ _).attempt.bind fun published => ?_
    cases published with
    | error error => exact hnone _
    | ok _ =>
      dsimp only
      split
      · exact keeps_withdraw _ _ (fun _ hpointer => Option.mem_some.mp hpointer ▸ h) _
      · exact Task.keeps_pure _

theorem activeSnapshotId_ok {active : Option String} (h : activeSnapshotId root = .ok active) :
    root.pointer.snapshot = active := by
  unfold activeSnapshotId at h
  split at h
  · rename_i hpointer
    rw [hpointer]
    exact Except.ok.inj h
  · cases h
  · rename_i hpointer
    split at h
    · rw [hpointer]
      exact Except.ok.inj h
    · cases h

/-- Only models go that are not among the newest. -/
theorem keeps_rotate (config : PromotionConfig) (conditions : PipelineConditions Target)
    {safe : TrainingRoot Target → Prop}
    (h : ∀ seen, safe seen → ∀ id ∈ (newestFirst seen.models).drop config.rotateKeep, ∀ root, safe root →
      safe { root with models := root.models.filter (· ≠ id) }) :
    Task.Keeps safe (rotateOllamaModels config conditions) := by
  refine (keeps_step fun _ hroot => hroot).bind fun _ => Task.spec_look_bind fun seen => ?_
  by_cases hseen : safe seen
  · refine (Task.keeps_forM fun id hid => ?_).start fun _ h => h.2
    exact (keeps_request _ (h seen hseen id hid)).attempt.bind fun _ => Task.keeps_pure _
  · exact fun store hstore => absurd (hstore.1 ▸ hstore.2) hseen

/-- A directory goes that is not that of the pointer. -/
theorem keeps_removeSnapshot (conditions : PipelineConditions Target) {pointer : SnapshotPointer Target}
    (hne : id ∉ pointer.snapshot) :
    Task.Keeps (fun root => root.pointer = pointer ∧ root.Sound none) (removeSnapshot conditions id) := by
  have hother {root : TrainingRoot Target} (hroot : root.pointer = pointer) {active : String}
      (hactive : active ∈ root.pointer.snapshot) : id ≠ active :=
    fun heq => hne (heq ▸ hroot ▸ hactive)
  unfold removeSnapshot
  split
  · refine Task.keeps_write fun root h => ⟨h.1, distinct_removeDir h.2.distinct, fun active hactive => ?_,
      fun _ hid => nomatch hid⟩
    exact hasAdapter_removeDir (hother h.1 hactive) (h.2.pointer active hactive)
  · refine (Task.keeps_write fun root h => ⟨h.1, distinct_editDir (fun _ => rfl) h.2.distinct,
      fun active hactive => ?_, fun _ hid => nomatch hid⟩).bind fun _ => Task.keeps_fail _
    exact hasAdapter_editDir (fun _ => rfl)
      (fun dir hname hsame => absurd (hsame.symm.trans hname) (hother h.1 hactive)) (h.2.pointer active hactive)

theorem keeps_prune (config : PromotionConfig) (conditions : PipelineConditions Target) (currentSnapshot : String) :
    Task.Keeps (TrainingRoot.Sound none) (pruneTrainingSnapshots config conditions currentSnapshot) := by
  refine (keeps_step fun _ hroot => hroot).bind fun _ => Task.spec_look_bind fun seen => ?_
  refine Task.Spec.bind (M := fun active store => activeSnapshotId seen = .ok active ∧ store = seen ∧ store.Sound none)
    (Task.spec_ofExcept fun store h => ?_) fun active => ?_
  · cases hactive : activeSnapshotId seen with
    | error error => exact h.2
    | ok active => exact ⟨rfl, h⟩
  · by_cases hactive : activeSnapshotId seen = .ok active
    · refine (Task.keeps_forM fun id hid => keeps_removeSnapshot conditions fun hpointer => ?_).weaken
        (fun _ h => h.2) (fun store h => ⟨congrArg TrainingRoot.pointer h.2.1, h.2.2⟩) fun _ _ h => h.2
      rw [activeSnapshotId_ok hactive] at hpointer
      have hkeep := of_decide_eq_true (List.mem_filter.mp hid).2
      exact hkeep (List.mem_append_right _ (Option.mem_toList.mpr hpointer))
    · exact fun store h => absurd h.1 hactive

theorem keeps_tidy (config : PromotionConfig) (conditions : PipelineConditions Target) (snapshotId : String)
    (succeeded : Bool) : Task.Keeps (TrainingRoot.Sound none) (tidy config conditions snapshotId succeeded) := by
  cases succeeded with
  | false => exact Task.keeps_pure _
  | true =>
    exact (keeps_rotate _ _ fun _ _ _ _ _ h => h.keep h.distinct rfl fun _ hid => hid).attempt.bind fun _ =>
      (keeps_prune _ _ _).attempt.bind fun _ => Task.keeps_pure _

theorem keeps_promote (config : PromotionConfig) (conditions : PipelineConditions Target) (snapshotId : String)
    (servingTarget : Option Target) :
    Task.Keeps (TrainingRoot.Sound none) (promote config conditions snapshotId servingTarget) := by
  refine Task.spec_look_bind fun seen => Task.Spec.bind (M := fun _ store => store = seen ∧ store.Sound none)
    (Task.spec_ofExcept fun store h => ?_) fun previousSnapshot => ?_
  · cases activeSnapshotId seen with
    | error error => exact h.2
    | ok active => exact h
  -- The snapshot of the previous pointer is held until the new one is promoted.
  have hheld : Task.Keeps (TrainingRoot.Sound seen.pointer.snapshot) (registerAndPublish conditions snapshotId
      servingTarget previousSnapshot seen.pointer) := keeps_registerAndPublish _ _ _ _ fun _ hid => hid
  refine Task.Spec.bind (M := fun _ => TrainingRoot.Sound none) (hheld.weaken ?_ ?_ ?_) fun registration =>
    (keeps_tidy _ _ _ _).bind fun _ => Task.keeps_pure _
  · exact fun store h => ⟨h.distinct, h.pointer, fun _ hid => nomatch hid⟩
  · exact fun store h => ⟨h.2.distinct, h.2.pointer, fun id hid => h.2.pointer id (h.1 ▸ hid)⟩
  · intro result store h
    cases result <;> exact ⟨h.distinct, h.pointer, fun _ hid => nomatch hid⟩

/-- A condition that a directory for the snapshot, and more files in it, do not affect. -/
structure GrowsWith (snapshotId : String) (safe : TrainingRoot Target → Prop) : Prop where
  create : ∀ root, safe root → safe (root.createDir snapshotId)
  edit : ∀ root change,
    (∀ dir, (change dir).id = dir.id ∧ ((change dir).adapter = dir.adapter ∨ (change dir).adapter = true)) →
      safe root → safe (root.editDir snapshotId change)

theorem growsWith_sound (snapshotId : String) :
    GrowsWith snapshotId (TrainingRoot.Sound held : TrainingRoot Target → Prop) where
  create root h :=
    h.keep (distinct_createDir h.distinct) (by unfold TrainingRoot.createDir; split <;> rfl) fun _ hid =>
      hasAdapter_createDir hid
  edit root change hchange h :=
    h.keep (distinct_editDir (fun dir => (hchange dir).1) h.distinct) rfl fun _ hid =>
      hasAdapter_editDir (fun dir => (hchange dir).1) (fun dir _ _ => (hchange dir).2) hid

section Grows
variable {snapshotId : String} {safe : TrainingRoot Target → Prop} (hgrows : GrowsWith snapshotId safe)
include hgrows

theorem keeps_report (conditions : PipelineConditions Target) :
    Task.Keeps safe (writePipelineReport conditions snapshotId) :=
  keeps_step fun root h => hgrows.edit root _ (fun _ => ⟨rfl, .inl rfl⟩) h

theorem keeps_train (conditions : PipelineConditions Target) : Task.Keeps safe (train conditions snapshotId) := by
  refine (keeps_step hgrows.create).bind fun _ => Task.keeps_look.bind fun root => (Task.keeps_ofExcept _).bind fun _ =>
    (keeps_step fun _ h => h).bind fun _ => (Task.keeps_forM fun artifact _ => ?_).bind fun _ => Task.keeps_ofExcept _
  refine Task.keeps_write fun root h => hgrows.edit root _ (fun dir => ?_) h
  cases artifact with
  | adapter => exact ⟨rfl, .inr rfl⟩
  | trainingReport => exact ⟨rfl, .inl rfl⟩

theorem keeps_qualify (conditions : PipelineConditions Target) : Task.Keeps safe (qualify conditions snapshotId) := by
  refine Task.keeps_look.bind fun root => ?_
  split
  · exact Task.keeps_pure _
  · exact (keeps_report hgrows conditions).bind fun _ => Task.keeps_fail _

end Grows

theorem keeps_pipeline (config : PromotionConfig) (conditions : PipelineConditions Target) (snapshotId : String) :
    Task.Keeps (TrainingRoot.Sound none) (runTrainingPipeline config conditions snapshotId) := by
  have hgrows : GrowsWith snapshotId (TrainingRoot.Sound none : TrainingRoot Target → Prop) :=
    growsWith_sound snapshotId
  refine (keeps_train hgrows conditions).bind fun exitCode => Task.Keeps.bind ?_ fun _ =>
    (keeps_report hgrows conditions).bind fun _ => Task.keeps_ofExcept _
  cases exitCode with
  | none => exact Task.keeps_pure _
  | some exitCode =>
    refine (keeps_qualify hgrows conditions).bind fun _ => (Task.keeps_ofExcept _).bind fun servingTarget => ?_
    split
    · exact keeps_promote _ _ _ _
    · exact Task.keeps_pure _

theorem TrainingRoot.Sound.step (h : root.Sound none) (config : PromotionConfig) (event : PromotionEvent Target) :
    (root.step config event).Sound none := by
  cases event with
  | pipeline snapshotId conditions stopped =>
    cases stopped with
    | none => exact (keeps_pipeline config conditions snapshotId root h).2
    | some steps => exact (keeps_pipeline config conditions snapshotId).stopped h steps
  | retarget servingTarget =>
    rw [TrainingRoot.step]
    split
    · rename_i snapshotId target hpointer
      exact ⟨h.distinct, fun id hid => h.pointer id (hpointer ▸ hid), h.held⟩
    · exact h

theorem sound_run (config : PromotionConfig) (events : List (PromotionEvent Target)) :
    (run (TrainingRoot.step config) .empty events).Sound none :=
  run_keeps (TrainingRoot.step config) (I := TrainingRoot.Sound none) (fun _ event h => h.step config event) events
    sound_empty

/-- Whatever fails, and wherever a pipeline stops, the adapter is there that the pointer names, so the next training
can resume from it wherever the pointer can be read. -/
theorem run_resumable (config : PromotionConfig) (events : List (PromotionEvent Target)) :
    activeAdapterPath (run (TrainingRoot.step config) .empty events) =
      activeSnapshotId (run (TrainingRoot.step config) .empty events) := by
  have hsound := sound_run config events
  cases hactive : activeSnapshotId (run (TrainingRoot.step config) .empty events) with
  | error error => simp [activeAdapterPath, hactive, bind, Except.bind]
  | ok active =>
    cases active with
    | none => simp [activeAdapterPath, hactive, bind, Except.bind, pure, Except.pure]
    | some snapshotId =>
      have hadapter := hsound.pointer snapshotId (activeSnapshotId_ok hactive)
      simp [activeAdapterPath, hactive, bind, Except.bind, hadapter, pure, Except.pure]

end Pointer

end Gail.Ledger
