import Gail.Ledger.Promotion

/-! Promotions that are withdrawn, and directories that are removed. Where nothing fails twice the alias serves the
snapshot of the pointer, and what is removed is never needed again. -/
namespace Gail.Ledger
open Gail.Library
variable {Target : Type}

/-- The alias serves the snapshot of the pointer, and the model is there to which it can be rolled back. -/
structure TrainingRoot.Settled (root : TrainingRoot Target) : Prop where
  served : ∀ id ∈ root.pointer.snapshot, root.modelAlias = some id
  model : ∀ id ∈ root.pointer.snapshot, id ∈ root.models
  nodup : root.models.Nodup

/-- The snapshot is promoted, and no model is newer. -/
structure TrainingRoot.Promoted (snapshotId : String) (root : TrainingRoot Target) : Prop where
  pointer : root.pointer.snapshot = some snapshotId
  served : root.modelAlias = some snapshotId
  model : snapshotId ∈ root.models
  nodup : root.models.Nodup
  newest : ∀ id ∈ root.models, id ≤ snapshotId

theorem TrainingRoot.Promoted.settled {root : TrainingRoot Target} {snapshotId : String}
    (h : root.Promoted snapshotId) : root.Settled where
  served _ hid := h.served.trans (h.pointer.symm.trans hid)
  model _ hid := Option.some.inj (h.pointer.symm.trans hid) ▸ h.model
  nodup := h.nodup

/-- Nothing fails twice: a promotion that is withdrawn is withdrawn to its end, and no pipeline stops. The ids are
times, so none is below that of a model. -/
def TrainingRoot.Calm (root : TrainingRoot Target) : PromotionEvent Target → Prop
  | .pipeline snapshotId conditions stopped =>
    conditions.rollback = .ok ∧ conditions.restore = .done ∧ stopped = none ∧ ∀ id ∈ root.models, id ≤ snapshotId
  | .retarget _ => True

section Settling
variable {seen : TrainingRoot Target} {snapshotId : String} {conditions : PipelineConditions Target}

/-- What a registration leaves of the models. -/
structure Registered (seen : TrainingRoot Target) (snapshotId : String) (root : TrainingRoot Target) : Prop where
  models : ∀ id ∈ seen.models, id ∈ root.models
  nodup : root.models.Nodup
  newest : ∀ id ∈ root.models, id ≤ snapshotId

/-- A registration was withdrawn. -/
structure Withdrawn (seen : TrainingRoot Target) (snapshotId : String) (root : TrainingRoot Target) : Prop
    extends Registered seen snapshotId root where
  pointer : root.pointer = seen.pointer
  served : ∀ id ∈ seen.pointer.snapshot, root.modelAlias = some id

theorem Withdrawn.settled {root : TrainingRoot Target} (hseen : seen.Settled) (h : Withdrawn seen snapshotId root) :
    root.Settled where
  served id hid := h.served id (h.pointer ▸ hid)
  model id hid := h.models id (hseen.model id (h.pointer ▸ hid))
  nodup := h.nodup

theorem spec_copyModel {missing id : String} {pre : TrainingRoot Target → Prop}
    (h : ∀ root, pre root → id ∈ root.models) :
    Task.Spec (fun _ => True) pre (copyModel .ok missing id) fun _ after =>
      ∃ root, pre root ∧ after = { root with modelAlias := some id } := by
  refine Task.spec_look_bind fun root => ?_
  split
  · exact Task.spec_write (fun _ _ => trivial) fun store hstore => ⟨store, hstore.2, rfl⟩
  · rename_i hmissing
    exact fun store hstore => absurd (h store hstore.2) (hstore.1 ▸ hmissing)

theorem spec_rollback (snapshotId : String) (hrollback : conditions.rollback = .ok) (hseen : seen.Settled)
    (P : SnapshotPointer Target → Prop) :
    Task.Spec (fun _ => True) (fun root => Registered seen snapshotId root ∧ P root.pointer)
      (rollbackOllamaAlias conditions seen.pointer.snapshot) fun _ after =>
        Registered seen snapshotId after ∧ P after.pointer ∧
          ∀ id ∈ seen.pointer.snapshot, after.modelAlias = some id := by
  cases hprevious : seen.pointer.snapshot with
  | none => exact Task.spec_pure fun root h => ⟨h.1, h.2, fun _ hid => nomatch hid⟩
  | some previous =>
    rw [rollbackOllamaAlias, hrollback]
    refine (spec_copyModel fun root h => h.1.models _ (hseen.model _ hprevious)).imp ?_
    rintro _ _ ⟨root, ⟨hregistered, hpointer⟩, rfl⟩
    exact ⟨⟨hregistered.models, hregistered.nodup, hregistered.newest⟩, hpointer, fun id hid => hid⟩

theorem spec_restore (previous : SnapshotPointer Target) {pre : TrainingRoot Target → Prop}
    (h : ∀ root pointer, pre root → pre { root with pointer }) :
    Task.Spec (fun _ => True) pre (restoreActiveSnapshotPointer .done previous) fun result after =>
      result = .ok () ∧ pre after ∧ after.pointer = previous := by
  have hset (pointer : SnapshotPointer Target) : Task.Spec (fun _ => True) pre (setPointer pointer) fun result after =>
      result = .ok () ∧ pre after ∧ after.pointer = pointer :=
    Task.spec_write (fun _ _ => trivial) fun root hroot => ⟨rfl, h root pointer hroot, rfl⟩
  unfold restoreActiveSnapshotPointer
  split
  · exact hset _
  · rename_i hne
    exact absurd rfl hne
  · contradiction
  · contradiction
  · refine Task.Spec.bind (M := fun _ => pre) ((hset _).imp ?_) fun _ => hset _
    rintro result after ⟨rfl, hafter, _⟩
    exact hafter

/-- The alias serves the snapshot, and the pointer is as it was. -/
structure Aliased (seen : TrainingRoot Target) (snapshotId : String) (root : TrainingRoot Target) : Prop
    extends Registered seen snapshotId root where
  pointer : root.pointer = seen.pointer
  served : root.modelAlias = some snapshotId
  model : snapshotId ∈ root.models

theorem spec_request (reply : Reply) {change : TrainingRoot Target → TrainingRoot Target}
    {pre R done : TrainingRoot Target → Prop} (h : ∀ root, pre root → done (change root))
    (hpre : ∀ root, pre root → R root) (hdone : ∀ root, done root → R root) :
    Task.Spec (fun _ => True) pre (request reply change) fun result after =>
      R after ∧ (result = .ok () → done after) := by
  unfold request
  split
  · exact Task.spec_write (fun _ _ => trivial) fun root hroot => ⟨hdone _ (h root hroot), fun _ => h root hroot⟩
  · exact Task.spec_fail fun root hroot => ⟨hpre root hroot, fun hok => nomatch hok⟩
  · exact Task.Spec.bind (M := fun _ => done) (Task.spec_write (fun _ _ => trivial) fun root hroot => h root hroot)
      fun _ => Task.spec_fail fun root hroot => ⟨hdone root hroot, fun hok => nomatch hok⟩

/-- The model of the snapshot is there, and the pointer is as it was. -/
structure Created (seen : TrainingRoot Target) (snapshotId : String) (root : TrainingRoot Target) : Prop
    extends Registered seen snapshotId root where
  pointer : root.pointer = seen.pointer
  model : snapshotId ∈ root.models

theorem Registered.created {root : TrainingRoot Target} (h : Registered seen snapshotId root)
    (hpointer : root.pointer = seen.pointer) : Created seen snapshotId
      (if snapshotId ∈ root.models then root else { root with models := root.models ++ [snapshotId] }) := by
  split
  · rename_i hmodel
    exact ⟨h, hpointer, hmodel⟩
  · rename_i hnew
    refine ⟨⟨fun id hid => List.mem_append_left _ (h.models id hid), ?_, fun id hid => ?_⟩, hpointer, by simp⟩
    · exact List.nodup_append'.mpr ⟨h.nodup, List.nodup_singleton _, List.disjoint_singleton.mpr hnew⟩
    · rcases List.mem_append.mp hid with hid | hid
      · exact h.newest id hid
      · exact (List.mem_singleton.mp hid).le

theorem spec_register :
    Task.Spec (fun _ => True) (fun root => Registered seen snapshotId root ∧ root.pointer = seen.pointer)
      (registerSnapshotWithOllama conditions snapshotId) fun result after =>
        (Registered seen snapshotId after ∧ after.pointer = seen.pointer) ∧
          ∀ value, result = .ok value → Aliased seen snapshotId after := by
  have hcreated {root : TrainingRoot Target} (h : Created seen snapshotId root) :
      Registered seen snapshotId root ∧ root.pointer = seen.pointer := ⟨h.toRegistered, h.pointer⟩
  have haliased {root : TrainingRoot Target} (h : Aliased seen snapshotId root) :
      Registered seen snapshotId root ∧ root.pointer = seen.pointer := ⟨h.toRegistered, h.pointer⟩
  refine Task.Spec.andThen (Task.spec_ofExcept fun _ h => ⟨h, fun _ => h⟩) ?_
  refine Task.Spec.andThen (spec_request _ (fun root h => h.1.created h.2) (fun _ h => h) fun _ => hcreated) ?_
  refine Task.Spec.andThen (M := Aliased seen snapshotId) ?_ ?_
  · refine Task.spec_look_bind fun root => ?_
    split
    · refine spec_request _ (fun root h => ?_) (fun _ h => hcreated h.2) fun _ => haliased
      exact ⟨⟨h.2.models, h.2.nodup, h.2.newest⟩, h.2.pointer, rfl, h.2.model⟩
    · exact Task.spec_fail fun _ h => ⟨hcreated h.2, fun hok => nomatch hok⟩
  · split
    · exact Task.spec_pure fun _ h => ⟨haliased h, fun _ _ => h⟩
    · refine (spec_request _ (fun root h => ?_) (fun _ => haliased) fun _ => haliased).imp fun _ _ h =>
        ⟨h.1, fun _ hok => h.2 hok⟩
      exact ⟨⟨h.models, h.nodup, h.newest⟩, h.pointer, h.served, h.model⟩

theorem spec_publish (servingTarget : Option Target) :
    Task.Spec (fun _ => True) (Aliased seen snapshotId) (publishActiveSnapshot conditions snapshotId servingTarget)
      fun result after => match result with
        | .ok () => after.Promoted snapshotId ∧ Registered seen snapshotId after
        | .error _ => Aliased seen snapshotId after := by
  refine Task.spec_look_bind fun root => ?_
  split
  · unfold step
    split
    · exact Task.spec_fail fun _ h => h.2
    · refine Task.spec_write (fun _ _ => trivial) fun root h => ?_
      exact ⟨⟨rfl, h.2.served, h.2.model, h.2.nodup, h.2.newest⟩, h.2.models, h.2.nodup, h.2.newest⟩
  · exact Task.spec_fail fun _ h => h.2

/-- A registration ends with the snapshot promoted or with everything as it was. -/
def Registration.Settles (seen : TrainingRoot Target) (snapshotId : String) (registration : Registration)
    (after : TrainingRoot Target) : Prop :=
  (registration.succeeded = true ∧ registration.error = none ∧ after.Promoted snapshotId) ∨
    (registration.succeeded = false ∧ Withdrawn seen snapshotId after)

/-- The newest of all is not among those that go. -/
theorem not_mem_drop_newest {models : List String} {count : Nat} (hnodup : models.Nodup)
    (hnewest : ∀ id ∈ models, id ≤ snapshotId) (hcount : 0 < count) : snapshotId ∉ (newestFirst models).drop count := by
  have hsorted := pairwise_sortByKey (fun id : String => OrderDual.toDual id) models
  have hperm : (newestFirst models).Perm models := sortByKey_perm models
  have hdistinct : (newestFirst models).Nodup := hperm.nodup_iff.mpr hnodup
  obtain ⟨count, rfl⟩ := Nat.exists_eq_succ_of_ne_zero hcount.ne'
  cases hfirst : newestFirst models with
  | nil => simp
  | cons first rest =>
    rw [List.drop_succ_cons]
    intro hmem
    have hin := List.mem_of_mem_drop hmem
    have hle : snapshotId ≤ first := by
      rw [newestFirst] at hfirst
      rw [hfirst] at hsorted
      exact OrderDual.toDual_le_toDual.mp ((List.pairwise_cons.mp hsorted).1 snapshotId hin)
    have heq : first = snapshotId := by
      refine le_antisymm (hnewest first (hperm.mem_iff.mp ?_)) hle
      rw [hfirst]
      exact List.mem_cons_self
    rw [hfirst, heq] at hdistinct
    exact (List.nodup_cons.mp hdistinct).1 hin

/-- Directories are all that pruning touches. -/
theorem keeps_pruning {safe : TrainingRoot Target → Prop} {config : PromotionConfig} {currentSnapshot : String}
    (h : ∀ root snapshots, safe root → safe { root with snapshots }) :
    Task.Keeps safe (pruneTrainingSnapshots config conditions currentSnapshot) := by
  refine (keeps_step fun _ hroot => hroot).bind fun _ => Task.keeps_look.bind fun seen =>
    (Task.keeps_ofExcept _).bind fun active => Task.keeps_forM fun id _ => ?_
  unfold removeSnapshot
  split
  · exact Task.keeps_write fun root hroot => h root _ hroot
  · exact (Task.keeps_write fun root hroot => h root _ hroot).bind fun _ => Task.keeps_fail _

/-- The models that go when a snapshot is promoted are not its own. -/
theorem keeps_rotate_promoted (config : PromotionConfig) :
    Task.Keeps (TrainingRoot.Promoted snapshotId) (rotateOllamaModels config conditions) := by
  refine keeps_rotate _ _ fun seen hseen id hid root h => ?_
  have hne : snapshotId ≠ id := fun heq =>
    not_mem_drop_newest hseen.nodup hseen.newest config.rotateKeep_pos (heq ▸ hid)
  exact ⟨h.pointer, h.served, List.mem_filter.mpr ⟨h.model, by simpa using hne⟩, h.nodup.filter _,
    fun other hother => h.newest other (List.mem_of_mem_filter hother)⟩

theorem spec_tidy (conditions : PipelineConditions Target) (config : PromotionConfig) :
    Task.Spec (fun _ => True) (TrainingRoot.Promoted snapshotId) (tidy config conditions snapshotId true)
      fun result after => result = .ok () ∧ after.Promoted snapshotId := by
  have hprune : Task.Keeps (TrainingRoot.Promoted snapshotId) (pruneTrainingSnapshots config conditions snapshotId) :=
    keeps_pruning fun root snapshots h => ⟨h.pointer, h.served, h.model, h.nodup, h.newest⟩
  have hrotate : Task.Keeps (TrainingRoot.Promoted snapshotId) (rotateOllamaModels config conditions) :=
    keeps_rotate_promoted config
  refine Task.Spec.bind (M := fun _ => TrainingRoot.Promoted snapshotId)
    (Task.Spec.attempt (hrotate.spec)) fun _ =>
      Task.Spec.bind (M := fun _ => TrainingRoot.Promoted snapshotId)
        (Task.Spec.attempt (hprune.spec)) fun _ =>
          Task.spec_pure fun _ h => ⟨rfl, h⟩

/-- What is served is as it was. -/
structure Resting (seen root : TrainingRoot Target) : Prop where
  pointer : root.pointer = seen.pointer
  models : root.models = seen.models
  modelAlias : root.modelAlias = seen.modelAlias

theorem Resting.registered {root : TrainingRoot Target} (h : Resting seen root) (hseen : seen.Settled)
    (hnewest : ∀ id ∈ seen.models, id ≤ snapshotId) : Registered seen snapshotId root :=
  ⟨fun _ hid => h.models.symm ▸ hid, h.models.symm ▸ hseen.nodup, fun id hid => hnewest id (h.models ▸ hid)⟩

theorem Resting.withdrawn {root : TrainingRoot Target} (h : Resting seen root) (hseen : seen.Settled)
    (hnewest : ∀ id ∈ seen.models, id ≤ snapshotId) : Withdrawn seen snapshotId root :=
  ⟨h.registered hseen hnewest, h.pointer, fun id hid => h.modelAlias.trans (hseen.served id hid)⟩

/-- Conditions on what is served are not affected by directories. -/
theorem growsWith_of_resting {safe : TrainingRoot Target → Prop}
    (h : ∀ root after, Resting root after → safe root → safe after) : GrowsWith snapshotId safe where
  create root hroot := by
    refine h root _ ?_ hroot
    unfold TrainingRoot.createDir
    split <;> exact ⟨rfl, rfl, rfl⟩
  edit root _ _ hroot := h root _ ⟨rfl, rfl, rfl⟩ hroot

theorem growsWith_resting : GrowsWith snapshotId (Resting seen) :=
  growsWith_of_resting fun _ _ hrest h =>
    ⟨hrest.pointer.trans h.pointer, hrest.models.trans h.models, hrest.modelAlias.trans h.modelAlias⟩

theorem TrainingRoot.Promoted.resting {root after : TrainingRoot Target} (hrest : Resting root after)
    (h : root.Promoted snapshotId) : after.Promoted snapshotId where
  pointer := hrest.pointer ▸ h.pointer
  served := hrest.modelAlias.trans h.served
  model := hrest.models ▸ h.model
  nodup := hrest.models ▸ h.nodup
  newest := hrest.models ▸ h.newest

theorem Withdrawn.resting {root after : TrainingRoot Target} (hrest : Resting root after)
    (h : Withdrawn seen snapshotId root) : Withdrawn seen snapshotId after where
  models := hrest.models ▸ h.models
  nodup := hrest.models ▸ h.nodup
  newest := hrest.models ▸ h.newest
  pointer := hrest.pointer.trans h.pointer
  served := hrest.modelAlias ▸ h.served

theorem growsWith_settles (registration : Registration) :
    GrowsWith snapshotId (registration.Settles seen snapshotId) :=
  growsWith_of_resting fun _ _ hrest h =>
    h.imp (fun h => ⟨h.1, h.2.1, h.2.2.resting hrest⟩) fun h => ⟨h.1, h.2.resting hrest⟩

/-- What a promotion leaves, where it ends in an error too. -/
def SettlesOr (seen : TrainingRoot Target) (snapshotId : String) (result : Except String Registration)
    (after : TrainingRoot Target) : Prop :=
  match result with
  | .ok registration => registration.Settles seen snapshotId after
  | .error _ => Withdrawn seen snapshotId after

/-- What a calm pipeline leaves. -/
def PipelineEnd (writeReport : Option String) (seen : TrainingRoot Target) (snapshotId : String)
    (result : Except String TrainingOutcome) (after : TrainingRoot Target) : Prop :=
  after.Settled ∧ match result with
    | .ok outcome => outcome.status = .trained → after.Promoted snapshotId
    | .error _ => writeReport = none → after.pointer = seen.pointer

theorem Registration.Settles.settled {registration : Registration} {after : TrainingRoot Target} (hseen : seen.Settled)
    (h : registration.Settles seen snapshotId after) : after.Settled :=
  h.elim (fun h => h.2.2.settled) fun h => h.2.settled hseen

theorem error_of_trainingOutcome {config : PromotionConfig} {exitCode : Option Int} {registration : Registration}
    {error : String} (h : trainingOutcome config snapshotId exitCode registration = .error error) :
    registration.error ≠ none := by
  unfold trainingOutcome at h
  split at h
  · rename_i herror
    exact fun hnone => nomatch herror.symm.trans hnone
  · dsimp only at h
    split at h <;> cases h

theorem succeeded_of_trainingOutcome {config : PromotionConfig} {exitCode : Option Int} {registration : Registration}
    {outcome : TrainingOutcome} (h : trainingOutcome config snapshotId exitCode registration = .ok outcome)
    (hstatus : outcome.status = .trained) : registration.succeeded = true := by
  unfold trainingOutcome at h
  split at h
  · cases h
  · dsimp only at h
    split at h
    · rename_i hall
      exact ((Bool.and_eq_true _ _).mp hall).2
    · rw [← Except.ok.inj h] at hstatus
      cases hstatus

theorem Registration.Settles.ends {registration : Registration} {after : TrainingRoot Target} (hseen : seen.Settled)
    (h : registration.Settles seen snapshotId after) (config : PromotionConfig) (exitCode : Option Int)
    (writeReport : Option String) :
    PipelineEnd writeReport seen snapshotId (trainingOutcome config snapshotId exitCode registration) after := by
  refine ⟨h.settled hseen, ?_⟩
  cases hresult : trainingOutcome config snapshotId exitCode registration with
  | error error =>
    intro _
    rcases h with ⟨_, herror, _⟩ | ⟨_, hwithdrawn⟩
    · exact absurd herror (error_of_trainingOutcome hresult)
    · exact hwithdrawn.pointer
  | ok outcome =>
    intro hstatus
    rcases h with ⟨_, _, hpromoted⟩ | ⟨hsucceeded, _⟩
    · exact hpromoted
    · exact absurd (hsucceeded.symm.trans (succeeded_of_trainingOutcome hresult hstatus)) Bool.false_ne_true

section Calm
variable (hrollback : conditions.rollback = .ok) (hrestore : conditions.restore = .done) (hseen : seen.Settled)
include hrollback hrestore hseen

theorem spec_withdraw {previousPointer : Option (SnapshotPointer Target)} (error : String)
    (hprevious : ∀ pointer ∈ previousPointer, pointer = seen.pointer) :
    Task.Spec (fun _ => True)
      (fun root => Registered seen snapshotId root ∧ (previousPointer = none → root.pointer = seen.pointer))
      (withdraw conditions seen.pointer.snapshot previousPointer error) fun result after =>
        result = .ok ⟨false, some error⟩ ∧ Withdrawn seen snapshotId after := by
  have hrolled := spec_rollback snapshotId hrollback hseen
  cases previousPointer with
  | none =>
    refine Task.Spec.bind (M := fun _ after => Withdrawn seen snapshotId after) (Task.Spec.attempt ?_) fun _ =>
      Task.Spec.bind (M := fun _ after => Withdrawn seen snapshotId after) (Task.spec_pure fun _ h => h) fun _ =>
        Task.spec_pure fun _ h => ⟨rfl, h⟩
    refine (hrolled (· = seen.pointer)).weaken (fun _ h => h) (fun _ h => ⟨h.1, h.2 rfl⟩) ?_
    exact fun _ after h => ⟨h.1, h.2.1, h.2.2⟩
  | some pointer =>
    obtain rfl := hprevious pointer rfl
    refine Task.Spec.bind (M := fun _ after => Registered seen snapshotId after ∧
      ∀ id ∈ seen.pointer.snapshot, after.modelAlias = some id) (Task.Spec.attempt ?_) fun _ =>
        Task.Spec.bind (M := fun _ after => Withdrawn seen snapshotId after) ?_ fun _ =>
          Task.spec_pure fun _ h => ⟨rfl, h⟩
    · exact (hrolled fun _ => True).weaken (fun _ h => h) (fun _ h => ⟨h.1, trivial⟩) fun _ after h => ⟨h.1, h.2.2⟩
    · rw [restorePublished, hrestore]
      refine (spec_restore seen.pointer fun root pointer h => ?_).imp ?_
      · exact ⟨⟨h.1.models, h.1.nodup, h.1.newest⟩, h.2⟩
      · rintro _ after ⟨rfl, h, hpointer⟩
        exact ⟨h.1, hpointer, h.2⟩

theorem spec_registerAndPublish (servingTarget : Option Target) :
    Task.Spec (fun _ => True) (fun root => Registered seen snapshotId root ∧ root.pointer = seen.pointer)
      (registerAndPublish conditions snapshotId servingTarget seen.pointer.snapshot seen.pointer) fun result after =>
        ∃ registration, result = .ok registration ∧ registration.Settles seen snapshotId after := by
  have hwithdraw (previousPointer : Option (SnapshotPointer Target))
      (h : ∀ pointer ∈ previousPointer, pointer = seen.pointer) (error : String) :
      Task.Spec (fun _ => True)
        (fun root => Registered seen snapshotId root ∧ (previousPointer = none → root.pointer = seen.pointer))
        (withdraw conditions seen.pointer.snapshot previousPointer error) fun result after =>
          ∃ registration, result = .ok registration ∧ registration.Settles seen snapshotId after :=
    (spec_withdraw hrollback hrestore hseen error h).imp fun _ _ h =>
      ⟨_, h.1, .inr ⟨rfl, h.2⟩⟩
  have hnone (pointer : SnapshotPointer Target) (h : pointer ∈ none) : pointer = seen.pointer := nomatch h
  refine Task.Spec.bind (M := fun result after => (Registered seen snapshotId after ∧ after.pointer = seen.pointer) ∧
    ∀ value, result = .ok value → Aliased seen snapshotId after) (Task.Spec.attempt spec_register) fun registered => ?_
  cases registered with
  | error error =>
    exact (hwithdraw none hnone error).start fun _ h => ⟨h.1.1, fun _ => h.1.2⟩
  | ok _ =>
    refine Task.Spec.bind (M := fun result after => match result with
      | .ok () => after.Promoted snapshotId ∧ Registered seen snapshotId after
      | .error _ => Aliased seen snapshotId after) (Task.Spec.attempt ?_) fun published => ?_
    · exact (spec_publish servingTarget).start fun _ h => h.2 () rfl
    · cases published with
      | error error =>
        exact (hwithdraw none hnone _).start fun _ h => ⟨h.toRegistered, fun _ => h.pointer⟩
      | ok _ =>
        dsimp only
        split
        · exact (hwithdraw (some seen.pointer) (fun _ hpointer => (Option.mem_some.mp hpointer).symm) _).start fun _ h =>
            ⟨h.2, fun hnone => nomatch hnone⟩
        · exact Task.spec_pure fun _ h => ⟨_, rfl, .inl ⟨rfl, rfl, h.1⟩⟩

variable (hnewest : ∀ id ∈ seen.models, id ≤ snapshotId)
include hnewest

theorem spec_promote (config : PromotionConfig) (servingTarget : Option Target) :
    Task.Spec (fun _ => True) (Resting seen) (promote config conditions snapshotId servingTarget)
      (SettlesOr seen snapshotId) := by
  refine Task.spec_look_bind fun root => Task.Spec.bind
    (M := fun active store => activeSnapshotId root = .ok active ∧ store = root ∧ Resting seen store)
    (Task.spec_ofExcept fun store h => ?_) fun active => ?_
  · cases hactive : activeSnapshotId root with
    | error error => exact h.2.withdrawn hseen hnewest
    | ok active => exact ⟨rfl, h⟩
  · by_cases hroot : activeSnapshotId root = .ok active ∧ Resting seen root
    · obtain ⟨hactive, hresting⟩ := hroot
      obtain rfl := activeSnapshotId_ok hactive
      rw [hresting.pointer]
      refine Task.Spec.bind (M := fun registration after => registration.Settles seen snapshotId after)
        ((spec_registerAndPublish hrollback hrestore hseen servingTarget).weaken (fun _ h => h) (fun store h => ?_) ?_)
        fun registration => ?_
      · exact ⟨h.2.2.registered hseen hnewest, h.2.2.pointer⟩
      · rintro _ after ⟨registration, rfl, h⟩
        exact h
      · refine Task.Spec.bind (M := fun _ after => registration.Settles seen snapshotId after) ?_ fun _ =>
          Task.spec_pure fun _ h => h
        intro store h
        rcases h with ⟨hsucceeded, herror, hpromoted⟩ | ⟨hsucceeded, hwithdrawn⟩
        · rw [hsucceeded]
          obtain ⟨hpassed, hresult, hafter⟩ := spec_tidy conditions config store hpromoted
          rw [hresult]
          exact ⟨hpassed, .inl ⟨hsucceeded, herror, hafter⟩⟩
        · rw [hsucceeded]
          exact ⟨fun _ hpassed => absurd hpassed List.not_mem_nil, .inr ⟨hsucceeded, hwithdrawn⟩⟩
    · exact fun store h => absurd ⟨h.1, h.2.1 ▸ h.2.2⟩ hroot

theorem spec_conclude (config : PromotionConfig) (exitCode : Option Int) :
    Task.Spec (fun _ => True) (Resting seen) (concludeTraining config conditions snapshotId exitCode)
      (SettlesOr seen snapshotId) := by
  have hnone : Task.Spec (fun _ => True) (Resting seen) (pure ⟨false, none⟩ : TrainerTask Target Registration)
      (SettlesOr seen snapshotId) :=
    Task.spec_pure fun root h => .inr ⟨rfl, h.withdrawn hseen hnewest⟩
  cases exitCode with
  | none => exact hnone
  | some exitCode =>
    have hresting : GrowsWith snapshotId (Resting seen) := growsWith_resting
    have hqualify := keeps_qualify hresting conditions
    refine Task.Spec.bind (M := fun _ => Resting seen) (hqualify.spec.imp ?_) fun _ =>
      Task.Spec.bind (M := fun _ => Resting seen) (Task.spec_ofExcept ?_) fun servingTarget => ?_
    · intro result after h
      cases result with
      | ok _ => exact h
      | error _ => exact h.withdrawn hseen hnewest
    · intro root h
      cases conditions.selection.elim (.ok none) (Except.map some) with
      | ok _ => exact h
      | error _ => exact h.withdrawn hseen hnewest
    · split
      · exact spec_promote hrollback hrestore hseen hnewest config servingTarget
      · exact hnone

theorem spec_pipeline (config : PromotionConfig) :
    Task.Spec (fun _ => True) (Resting seen) (runTrainingPipeline config conditions snapshotId)
      (PipelineEnd conditions.writeReport seen snapshotId) := by
  have hresting : GrowsWith snapshotId (Resting seen) := growsWith_resting
  have hfail {error : String} {after : TrainingRoot Target} (h : Withdrawn seen snapshotId after) :
      PipelineEnd conditions.writeReport seen snapshotId (.error error) after := ⟨h.settled hseen, fun _ => h.pointer⟩
  refine Task.Spec.bind (M := fun _ => Resting seen)
    ((keeps_train hresting conditions).spec.imp ?_) fun exitCode => ?_
  · intro result after h
    cases result with
    | ok _ => exact h
    | error _ => exact hfail (h.withdrawn hseen hnewest)
  · refine Task.Spec.bind (M := fun registration after => registration.Settles seen snapshotId after)
      ((spec_conclude hrollback hrestore hseen hnewest config exitCode).imp ?_)
      fun registration => ?_
    · intro result after h
      cases result with
      | ok _ => exact h
      | error _ => exact hfail h
    · have hgrows : GrowsWith snapshotId (registration.Settles seen snapshotId) := growsWith_settles registration
      have hend {after : TrainingRoot Target} (h : registration.Settles seen snapshotId after) :
          PipelineEnd conditions.writeReport seen snapshotId
            (trainingOutcome config snapshotId exitCode registration) after := h.ends hseen config exitCode _
      refine Task.Spec.bind (M := fun _ after => registration.Settles seen snapshotId after) ?_ fun _ =>
        Task.spec_ofExcept fun _ h => hend h
      unfold writePipelineReport step
      split
      · rename_i error hreport
        exact Task.spec_fail fun _ h => ⟨h.settled hseen, fun hnone => nomatch hreport.symm.trans hnone⟩
      · exact Task.spec_write (fun _ _ => trivial) fun root h => hgrows.edit root _ (fun _ => ⟨rfl, .inl rfl⟩) h

end Calm

theorem TrainingRoot.Settled.step {root : TrainingRoot Target} (h : root.Settled) (config : PromotionConfig)
    {event : PromotionEvent Target} (hcalm : root.Calm event) : (root.step config event).Settled := by
  cases event with
  | pipeline snapshotId conditions stopped =>
    obtain ⟨hrollback, hrestore, rfl, hnewest⟩ := hcalm
    exact (spec_pipeline hrollback hrestore h hnewest config root ⟨rfl, rfl, rfl⟩).2.1
  | retarget servingTarget =>
    rw [TrainingRoot.step]
    split
    · rename_i snapshotId target hpointer
      exact ⟨fun id hid => h.served id (hpointer ▸ hid), fun id hid => h.model id (hpointer ▸ hid), h.nodup⟩
    · exact h

end Settling

/-- Conditions under which nothing fails. -/
def PipelineConditions.plain : PipelineConditions Target where
  createDir := none
  writePlan := none
  artifacts := [.adapter, .trainingReport]
  training := .ok (some 0)
  qualification := .ok ()
  selection := none
  prepare := .ok ()
  create := .ok
  copy := .ok
  publishAdapter := some .ok
  publishPointer := none
  healthCheck := none
  rollback := .ok
  missingModel := "model not found"
  restore := .done
  tags := none
  delete _ := .ok
  readSnapshots := none
  remove _ := none
  writeReport := none

/-- The adapter of the llama.cpp service is not rolled back. -/
example :
    let config : PromotionConfig := ⟨"gail-inhouse", "gail-inhouse:latest", true, 6, by decide, 6⟩
    let root : TrainingRoot Unit := run (TrainingRoot.step config) .empty [.pipeline "1" .plain none,
      .pipeline "2" { PipelineConditions.plain with healthCheck := some "no answer" } none]
    root.pointer.snapshot = some "1" ∧ root.modelAlias = some "1" ∧ root.serving = some "2" := by
  decide +kernel

section Pruning
variable {root : TrainingRoot Target} {config : PromotionConfig} {conditions : PipelineConditions Target}
  {currentSnapshot : String}

theorem mem_completedSnapshots {id : String} : id ∈ completedSnapshots root ↔
    ∃ dir ∈ root.snapshots, (safeSnapshotId dir.id = true ∧ dir.hasTerminalReport = true) ∧ dir.id = id := by
  simp [completedSnapshots, newestFirst, (sortByKey_perm _).mem_iff, and_assoc]

/-- The snapshots that are to go: they are complete, and not among those that are kept. -/
def staleSnapshots (config : PromotionConfig) (root : TrainingRoot Target) (currentSnapshot : String) : List String :=
  (completedSnapshots root).filter (· ∉ keptSnapshots config root root.pointer.snapshot currentSnapshot)

/-- The directories that are not to go are there, as they were. -/
def Spared (config : PromotionConfig) (root : TrainingRoot Target) (currentSnapshot : String)
    (after : TrainingRoot Target) : Prop :=
  ∀ dir ∈ root.snapshots, dir.id ∉ staleSnapshots config root currentSnapshot → dir ∈ after.snapshots

/-- What pruning has left when the given directories are still to go. -/
structure Pruned (config : PromotionConfig) (root : TrainingRoot Target) (currentSnapshot : String)
    (remaining : List String) (after : TrainingRoot Target) : Prop where
  spared : Spared config root currentSnapshot after
  known : List.Sublist after.snapshots root.snapshots
  gone : ∀ dir ∈ after.snapshots, dir.id ∈ staleSnapshots config root currentSnapshot → dir.id ∈ remaining

theorem spec_removeSnapshot {id : String} {rest : List String} (hid : id ∈ staleSnapshots config root currentSnapshot) :
    Task.Spec (Spared config root currentSnapshot) (Pruned config root currentSnapshot (id :: rest))
      (removeSnapshot conditions id) fun result after => match result with
        | .ok _ => Pruned config root currentSnapshot rest after
        | .error _ => Spared config root currentSnapshot after := by
  unfold removeSnapshot
  split
  · have hremoved {after : TrainingRoot Target} (h : Pruned config root currentSnapshot (id :: rest) after) :
        Pruned config root currentSnapshot rest (after.removeDir id) := by
      refine ⟨fun dir hdir hspared => List.mem_filter.mpr ⟨h.spared dir hdir hspared, ?_⟩,
        List.filter_sublist.trans h.known, fun dir hdir hstale => ?_⟩
      · exact decide_eq_true fun heq => hspared (heq ▸ hid)
      · obtain ⟨hdir, hne⟩ := List.mem_filter.mp hdir
        exact List.mem_of_ne_of_mem (of_decide_eq_true hne) (h.gone dir hdir hstale)
    exact Task.spec_write (fun _ h => (hremoved h).spared) fun _ h => hremoved h
  · rename_i left _
    have hstripped {after : TrainingRoot Target} (h : Pruned config root currentSnapshot (id :: rest) after) :
        Spared config root currentSnapshot (after.editDir id left.strip) := fun dir hdir hspared =>
      mem_updateWhere_of_not (h.spared dir hdir hspared) (decide_eq_false fun heq => hspared (heq ▸ hid))
    exact Task.Spec.bind (M := fun _ => Spared config root currentSnapshot)
      (Task.spec_write (fun _ h => hstripped h) fun _ h => hstripped h) fun _ => Task.spec_fail fun _ h => h

theorem spec_prune (conditions : PipelineConditions Target) :
    Task.Spec (Spared config root currentSnapshot) (fun store => store = root)
      (pruneTrainingSnapshots config conditions currentSnapshot) fun result after =>
        Spared config root currentSnapshot after ∧
          ∀ value, result = .ok value → Pruned config root currentSnapshot [] after := by
  have hstart : Pruned config root currentSnapshot (staleSnapshots config root currentSnapshot) root :=
    ⟨fun _ hdir _ => hdir, .refl _, fun _ _ hstale => hstale⟩
  refine Task.Spec.andThen (M := fun store => store = root) ?_ (Task.spec_look_bind fun seen => ?_)
  · unfold step
    split
    · exact Task.spec_fail fun store h => ⟨h ▸ hstart.spared, fun hok => nomatch hok⟩
    · exact Task.spec_write (fun store h => h ▸ hstart.spared) fun store h => ⟨h ▸ hstart.spared, fun _ => h⟩
  · refine Task.Spec.bind (M := fun active store => activeSnapshotId seen = .ok active ∧ seen = root ∧ store = root)
      (Task.spec_ofExcept fun store h => ?_) fun active => ?_
    · cases hactive : activeSnapshotId seen with
      | error error => exact ⟨h.2 ▸ hstart.spared, fun _ hok => nomatch hok⟩
      | ok active => exact ⟨rfl, h.1.symm.trans h.2, h.2⟩
    · by_cases hseen : activeSnapshotId seen = .ok active ∧ seen = root
      · obtain ⟨hactive, rfl⟩ := hseen
        have hpointer := activeSnapshotId_ok hactive
        subst hpointer
        have hloop : Task.Spec (Spared config seen currentSnapshot)
            (Pruned config seen currentSnapshot (staleSnapshots config seen currentSnapshot))
            (forM (staleSnapshots config seen currentSnapshot) (removeSnapshot conditions)) fun result after =>
              Spared config seen currentSnapshot after ∧
                ∀ value, result = .ok value → Pruned config seen currentSnapshot [] after := by
          refine Task.spec_forM (fun store h => ⟨h.spared, fun _ _ => h⟩) fun id rest hid => ?_
          refine (spec_removeSnapshot hid).imp fun result after h => ?_
          cases result with
          | ok _ => exact h
          | error _ => exact ⟨h, fun _ hok => nomatch hok⟩
        exact hloop.start fun _ h => h.2.2 ▸ hstart
      · exact fun store h => absurd ⟨h.1, h.2.1⟩ hseen

theorem not_stale (h : root.Sound none) {dir : SnapshotDir} (hdir : dir ∈ root.snapshots)
    (hkept : dir.hasTerminalReport = false ∨ dir.id ∈ keptSnapshots config root root.pointer.snapshot currentSnapshot) :
    dir.id ∉ staleSnapshots config root currentSnapshot := by
  intro hstale
  obtain ⟨hcompleted, hout⟩ := List.mem_filter.mp hstale
  rcases hkept with hincomplete | hkeep
  · obtain ⟨other, hother, ⟨_, hterminal⟩, hsame⟩ := mem_completedSnapshots.mp hcompleted
    rw [List.inj_on_of_nodup_map h.distinct hother hdir hsame, hincomplete] at hterminal
    cases hterminal
  · exact of_decide_eq_true hout hkeep

theorem Pruned.length_le {after : TrainingRoot Target} (h : root.Sound none)
    (hpruned : Pruned config root currentSnapshot [] after) :
    (completedSnapshots after).length ≤ max config.snapshotRetention 2 + 2 := by
  have hnodup : (completedSnapshots after).Nodup := by
    refine (sortByKey_perm _).nodup_iff.mpr (List.Sublist.nodup ?_ h.distinct)
    exact (List.filter_sublist.trans hpruned.known).map _
  have hsubset : completedSnapshots after ⊆ keptSnapshots config root root.pointer.snapshot currentSnapshot := by
    intro id hid
    obtain ⟨dir, hdir, hcomplete, rfl⟩ := mem_completedSnapshots.mp hid
    have hroot : dir.id ∈ completedSnapshots root :=
      mem_completedSnapshots.mpr ⟨dir, hpruned.known.subset hdir, hcomplete, rfl⟩
    by_contra hout
    exact absurd (hpruned.gone dir hdir (List.mem_filter.mpr ⟨hroot, decide_eq_true hout⟩)) List.not_mem_nil
  refine (List.subperm_of_subset hnodup hsubset).length_le.trans ?_
  have hactive : root.pointer.snapshot.toList.length ≤ 1 := by cases root.pointer.snapshot <;> simp
  simp only [keptSnapshots, List.length_append, List.length_take, List.length_singleton]
  omega

/-- Pruning, from whatever a run has left and wherever it fails or stops, leaves as they are the directories that are
not complete, that of the snapshot at hand, that of the pointer and the newest ones. When it comes to its end there are
few complete ones. -/
theorem run_prune (config : PromotionConfig) (events : List (PromotionEvent Target))
    (conditions : PipelineConditions Target) (currentSnapshot : String) :
    let root := run (TrainingRoot.step config) .empty events
    let prune := pruneTrainingSnapshots config conditions currentSnapshot
    (∀ steps, ∀ dir ∈ root.snapshots, dir ∈ (prune.stopped steps root).snapshots ∨
        (dir.hasTerminalReport = true ∧ dir.id ≠ currentSnapshot ∧ root.pointer.snapshot ≠ some dir.id ∧
          dir.id ∉ (completedSnapshots root).take (max config.snapshotRetention 2))) ∧
      ((completedSnapshots (prune root).last).length ≤ max config.snapshotRetention 2 + 2 ∨
        ∃ error, (prune root).result = .error error) := by
  intro root prune
  have hsound : root.Sound none := sound_run config events
  have hprune : Task.Spec (Spared config root currentSnapshot) (fun store => store = root) prune _ :=
    spec_prune conditions
  constructor
  · intro steps dir hdir
    have hspared := hprune.stopped rfl (fun _ hdir _ => hdir) (hprune root rfl).2.1 steps
    by_cases hkept : dir.hasTerminalReport = false ∨
        dir.id ∈ keptSnapshots config root root.pointer.snapshot currentSnapshot
    · exact .inl (hspared dir hdir (not_stale hsound hdir hkept))
    · rw [not_or, Bool.not_eq_false, keptSnapshots] at hkept
      simp only [List.mem_append, List.mem_singleton, Option.mem_toList, not_or] at hkept
      exact .inr ⟨hkept.1, hkept.2.1.2, hkept.2.2, hkept.2.1.1⟩
  · cases hresult : (prune root).result with
    | error error => exact .inr ⟨error, rfl⟩
    | ok value => exact .inl (((hprune root rfl).2.2 value hresult).length_le hsound)

end Pruning

end Gail.Ledger
