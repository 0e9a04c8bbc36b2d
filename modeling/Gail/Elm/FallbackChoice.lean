import Gail.Elm.RegistryRuns

/-! The champion that takes over when one is withdrawn: what the two fallback paths should choose,
and exactly when they choose it. -/
namespace Gail.Elm
open Gail.Library RegistryFile
variable {Bytes : Type} {serde : Serde Bytes} {maxBytes now : Nat} {disk : Disk Bytes}
  {outgoing : ElmArtifact} {candidates : List RegistryRecord}

section Choice
variable (serde maxBytes disk outgoing candidates)

/-- What the choice is for: a compatible candidate of greatest revision, and no champion only when
no candidate is compatible. -/
def NewestCompatible : Option String → Prop
  | some modelId => ∃ record ∈ candidates, record.modelId = modelId ∧
      (compatibleArtifact serde maxBytes disk outgoing record).isSome ∧
      ∀ other ∈ candidates, (compatibleArtifact serde maxBytes disk outgoing other).isSome →
        other.revision ≤ record.revision
  | none => ∀ record ∈ candidates,
      (compatibleArtifact serde maxBytes disk outgoing record).isSome = false

instance (chosen : Option String) :
    Decidable (NewestCompatible serde maxBytes disk outgoing candidates chosen) :=
  match chosen with
  | some modelId => inferInstanceAs (Decidable (∃ record ∈ candidates, record.modelId = modelId ∧ _))
  | none => inferInstanceAs (Decidable (∀ record ∈ candidates, _))

/-- If any candidate is compatible, the newest one is; of several newest, the last in the list. -/
def NewestIsCompatible : Prop :=
  (∃ record ∈ candidates, (compatibleArtifact serde maxBytes disk outgoing record).isSome) →
    ∃ newest ∈ maxByKey RegistryRecord.revision candidates,
      (compatibleArtifact serde maxBytes disk outgoing newest).isSome

end Choice

/-- The search meets its purpose exactly when the newest candidate is compatible or none is. -/
theorem newestCompatible_fallback_iff :
    NewestCompatible serde maxBytes disk outgoing candidates
        ((fallback serde maxBytes disk outgoing candidates).map Prod.fst) ↔
      NewestIsCompatible serde maxBytes disk outgoing candidates := by
  cases hf : fallback serde maxBytes disk outgoing candidates with
  | some found =>
    obtain ⟨modelId, artifact⟩ := found
    obtain ⟨newest, hn, hid, hc⟩ := fallback_eq_some hf
    obtain ⟨hmem, hmax⟩ := maxByKey_spec hn
    constructor
    · rintro - -
      exact ⟨newest, hn, by rw [hc]; rfl⟩
    · rintro -
      exact ⟨newest, hmem, hid, by rw [hc]; rfl, fun other hother _ => hmax other hother⟩
  | none =>
    constructor
    · rintro h ⟨record, hmem, hc⟩
      rw [h record hmem] at hc
      cases hc
    · intro h record hmem
      by_contra hc
      obtain ⟨newest, hn, hs⟩ := h ⟨record, hmem, eq_true_of_ne_false hc⟩
      obtain ⟨artifact, ha⟩ := Option.isSome_iff_exists.mp hs
      have hsome : fallback serde maxBytes disk outgoing candidates =
          some (newest.modelId, artifact) := by
        rw [fallback, Option.mem_def.mp hn, Option.bind_some, ha, Option.map_some]
      rw [hsome] at hf
      cases hf

/-- A filter that drops the changed entry before and after sees no change. -/
private theorem filter_modify {α : Type} {keep keep' : α → Bool} {f : α → α} {l : List α} {i : Nat}
    (hi : ∀ a, l[i]? = some a → keep (f a) = false ∧ keep' a = false)
    (hne : ∀ (j : Nat) a, j ≠ i → l[j]? = some a → keep a = keep' a) :
    (l.modify i f).filter keep = l.filter keep' := by
  induction l generalizing i with
  | nil => cases i <;> rfl
  | cons a l ih =>
    cases i with
    | zero =>
      obtain ⟨hnew, hold⟩ := hi a rfl
      rw [List.modify_zero_cons, List.filter_cons, List.filter_cons, hnew, hold]
      exact List.filter_congr fun b hb => by
        obtain ⟨j, hj⟩ := List.mem_iff_getElem?.mp hb
        exact hne (j + 1) b (by omega) hj
    | succ i =>
      rw [List.modify_succ_cons, List.filter_cons, List.filter_cons, hne 0 a (by omega) rfl]
      have hrest := ih hi fun j b hj hb => hne (j + 1) b (by omega) hb
      rw [hrest]

/-- A withdrawal leaves the candidates as they were. -/
theorem rollbackCandidates_rolledBackFile {file : RegistryFile} {task currentId : String}
    {index : Nat} {record : RegistryRecord} (hp : file.position currentId = some (index, record))
    (reason : String) (now : Nat) :
    rollbackCandidates (rolledBackFile file index reason now) task currentId =
      rollbackCandidates file task currentId := by
  refine filter_modify ?_ fun j a _ _ => rfl
  intro a ha
  rw [eq_of_position hp a ha]
  simp [(position_eq_some.mp hp).2.1]

/-- The wider filter of `promote` finds the same candidates, as only the first record of a model
can serve. -/
theorem candidates_promotedFile {file : RegistryFile} {modelId : String} {index : Nat}
    {record : RegistryRecord} {target : LifecycleStage} (hw : file.WellFormed)
    (hp : file.position modelId = some (index, record)) (ht : target.isServing = false)
    (task outgoingTask reason : String) (now : Nat) :
    (promotedFile file index modelId target false outgoingTask reason now).records.filter
        (fun candidate => candidate.servesTask task) = rollbackCandidates file task modelId := by
  apply filter_modify
  · intro a ha
    rw [eq_of_position hp a ha]
    refine ⟨by simp [RegistryRecord.servesTask, ht], ?_⟩
    simp [(position_eq_some.mp hp).2.1]
  · intro j a hj ha
    cases hs : a.servesTask task with
    | false => rfl
    | true =>
      have hserving := (RegistryRecord.servesTask_iff.mp hs).2.2
      have hfirst := hw.first j a ha (by rintro he; rw [he] at hserving; cases hserving)
      have hne : a.modelId ≠ modelId := by
        intro he
        rw [he, hp] at hfirst
        exact hj (congrArg Prod.fst (Option.some.inj hfirst)).symm
      simp [hne]

section Replacement
variable {w : World Bytes} {p : Nat} {state fresh : RegistryState} {adopted : Bool}

private theorem rollback_choice (hr : refreshLocked serde maxBytes w.disk state = .ok (adopted, fresh))
    {task key reason : String} {expected : Nat} {fault : Option IoFault} {event : RollbackEvent}
    (hkey : ∀ event ∈ fresh.file.rollbackHistory, event.idempotencyKey ≠ key)
    {reply : Reply Bytes Answer}
    (he : (Call.rollbackChampion task key expected reason fault).Effect serde maxBytes now w.disk
      state reply) (hok : reply.result = .ok (.rolledBack event)) :
    ∃ outgoingId outgoing, fresh.file.championByTask[task]? = some outgoingId ∧
      fresh.champions[task]? = some outgoing ∧
      durable serde reply.disk = some reply.state.file ∧
      reply.state.file.championByTask[task]? = (fallback serde maxBytes w.disk outgoing
        (rollbackCandidates fresh.file task outgoingId)).map Prod.fst := by
  rcases he.of_ok hok with ⟨hp, -⟩ | ⟨adopted', fresh', -, hr', hd⟩
  · obtain ⟨_, _, hcall, -⟩ := Call.precheck_ok hp
    cases hcall
  cases Except.ok.inj (hr'.symm.trans hr)
  have hfind : fresh.file.rollbackHistory.find?
      (fun event => event.idempotencyKey == key) = none := by
    refine List.find?_eq_none.mpr ?_
    intro event hevent
    simpa using hkey event hevent
  have hnone : ∀ found : RollbackEvent, (rollbackDecision serde maxBytes w.disk task key expected
      reason now fresh) ≠ .ok (.keep found) := by
    intro found hkeep
    unfold rollbackDecision at hkeep
    rw [hfind] at hkeep
    dsimp only at hkeep
    repeat' split at hkeep
    all_goals cases hkeep
  rcases hd with ⟨hd, -⟩ | hd
  · exfalso
    simp only [Call.decision] at hd
    cases ho : rollbackDecision serde maxBytes w.disk task key expected reason now fresh with
    | error error => rw [ho] at hd; cases hd
    | ok outcome =>
      cases outcome with
      | keep found => exact hnone found ho
      | write next found => rw [ho] at hd; cases hd
  · obtain ⟨result, hw, -⟩ := map_eq_write hd.decided
    obtain ⟨outgoingId, outgoing, index, record, -, hc, ha, hq, -, hnext⟩ :=
      rollbackDecision_write hw
    refine ⟨outgoingId, outgoing, hc, ha, hd.durable, ?_⟩
    rw [rollbackCandidates_rolledBackFile hq] at hnext
    rw [(Prod.mk.inj hnext).1]
    exact (installFallback_champion ..).trans (if_pos rfl)

private theorem promote_choice (hw : fresh.file.WellFormed)
    (hr : refreshLocked serde maxBytes w.disk state = .ok (adopted, fresh))
    {modelId reason : String} {target : LifecycleStage} {expected : Nat} {fault : Option IoFault}
    {moved : RegistryRecord} (ht : target.isServing = false) {reply : Reply Bytes Answer}
    (he : (Call.promote modelId target expected reason fault).Effect serde maxBytes now w.disk
      state reply) (hok : reply.result = .ok (.record moved))
    (hc : fresh.file.championByTask[moved.taskId]? = some modelId) :
    ∃ record outgoing, fresh.file.record modelId = some record ∧
      loadArtifact serde w.disk record.artifactFile maxBytes = .ok outgoing ∧
      durable serde reply.disk = some reply.state.file ∧
      reply.state.file.championByTask[moved.taskId]? = (fallback serde maxBytes w.disk outgoing
        (rollbackCandidates fresh.file moved.taskId modelId)).map Prod.fst := by
  rcases he.of_ok hok with ⟨hp, -⟩ | ⟨adopted', fresh', -, hr', hd⟩
  · cases hp
  cases Except.ok.inj (hr'.symm.trans hr)
  have hdecided : ∀ outcome, promoteDecision serde maxBytes w.disk modelId target expected reason
      now fresh = .ok outcome → ∃ index record artifact,
        fresh.file.position modelId = some (index, record) ∧
        loadArtifact serde w.disk record.artifactFile maxBytes = .ok artifact ∧
        artifact.metadata.taskId = record.taskId ∧
        outcome = .write (promotedState serde maxBytes w.disk fresh (promotedFile fresh.file index
          modelId target false record.taskId reason now) modelId artifact false)
          (record.moveTo target reason now (saturatingSucc fresh.file.revision)) := by
    intro outcome ho
    obtain ⟨index, record, artifact, -, hq, -, -, hl, hi, rfl⟩ := promoteDecision_ok ho
    have htask := (ElmArtifact.isOf_iff.mp hi).2.1
    refine ⟨index, record, artifact, hq, hl, htask, ?_⟩
    have hget := (position_eq_some.mp hq).1
    simp [ht, promotedFile, hget]
  rcases hd with ⟨hd, -⟩ | hd
  · exfalso
    simp only [Call.decision] at hd
    cases ho : promoteDecision serde maxBytes w.disk modelId target expected reason now fresh with
    | error error => rw [ho] at hd; cases hd
    | ok outcome =>
      obtain ⟨_, _, _, -, -, -, rfl⟩ := hdecided outcome ho
      rw [ho] at hd
      cases hd
  · obtain ⟨result, ho, hm⟩ := map_eq_write hd.decided
    obtain ⟨index, record, artifact, hq, hl, htask, hnext⟩ := hdecided _ ho
    cases hm
    obtain ⟨hstate, rfl⟩ := Outcome.write.inj hnext
    refine ⟨record, artifact, record_of_position hq, hl, hd.durable, ?_⟩
    have hcandidates := candidates_promotedFile hw hq ht record.taskId record.taskId
      reason now
    rw [RegistryRecord.moveTo_taskId] at hc ⊢
    rw [hstate]
    simp only [promotedState, Bool.false_eq_true, if_false, htask, if_pos hc,
      installFallback_champion, if_true]
    rw [hcandidates]

/-- Whenever a rollback, or a promotion of the champion out of the serving stages, succeeds in a
reachable registry, the champion it leaves is the newest compatible one exactly when the newest
candidate is compatible or none is. -/
theorem replacement_newest_iff (hw : w.Reachable serde) (hp : w.process p = .idle maxBytes state)
    (hr : refreshLocked serde maxBytes w.disk state = .ok (adopted, fresh)) :
    (∀ now task key expected reason fault event,
      (∀ event ∈ fresh.file.rollbackHistory, event.idempotencyKey ≠ key) →
      let reply := (Call.rollbackChampion task key expected reason fault).perform serde maxBytes now
        w.disk state
      reply.result = .ok (.rolledBack event) →
      ∃ outgoingId outgoing, fresh.file.championByTask[task]? = some outgoingId ∧
        fresh.champions[task]? = some outgoing ∧
        durable serde reply.disk = some reply.state.file ∧
        (NewestCompatible serde maxBytes w.disk outgoing
            (rollbackCandidates fresh.file task outgoingId) reply.state.file.championByTask[task]? ↔
          NewestIsCompatible serde maxBytes w.disk outgoing
            (rollbackCandidates fresh.file task outgoingId))) ∧
    (∀ now modelId target expected reason fault moved, target.isServing = false →
      let reply := (Call.promote modelId target expected reason fault).perform serde maxBytes now
        w.disk state
      reply.result = .ok (.record moved) →
      fresh.file.championByTask[moved.taskId]? = some modelId →
      ∃ record outgoing, fresh.file.record modelId = some record ∧
        loadArtifact serde w.disk record.artifactFile maxBytes = .ok outgoing ∧
        durable serde reply.disk = some reply.state.file ∧
        (NewestCompatible serde maxBytes w.disk outgoing
            (rollbackCandidates fresh.file moved.taskId modelId)
            reply.state.file.championByTask[moved.taskId]? ↔
          NewestIsCompatible serde maxBytes w.disk outgoing
            (rollbackCandidates fresh.file moved.taskId modelId))) := by
  constructor
  · intro now task key expected reason fault event hkey reply hok
    obtain ⟨outgoingId, outgoing, hc, ha, hd, hchosen⟩ :=
      rollback_choice hr hkey (Call.effect serde maxBytes now _ w.disk state) hok
    refine ⟨outgoingId, outgoing, hc, ha, hd, ?_⟩
    rw [hchosen]
    exact newestCompatible_fallback_iff
  · intro now modelId target expected reason fault moved ht reply hok hc
    have hseen : w.Sees serde fresh.file := by
      rcases refreshLocked_file hr with he | hd
      · exact .inr ⟨p, by rw [hp, he]; exact .idle ..⟩
      · exact .inl hd
    obtain ⟨record, outgoing, hrecord, hl, hd, hchosen⟩ := promote_choice
      (hw.wellFormed _ hseen) hr ht (Call.effect serde maxBytes now _ w.disk state) hok hc
    refine ⟨record, outgoing, hrecord, hl, hd, ?_⟩
    rw [hchosen]
    exact newestCompatible_fallback_iff

end Replacement

/-- Two models of one schema; the newer one is the champion. -/
def sameSchemas : List (Nat × Action) :=
  openRegistry 0 ++ enterShadow 0 (plainArtifact "a" "t" "s" false) 0 ++
    enterShadow 0 (plainArtifact "b" "t" "s" false) 4

theorem replacement_newest_iff_sameSchemas :
    let w := plainWorld sameSchemas
    let reply := (Call.rollbackChampion "t" "rollback-1" 8 "fault" none).perform plainSerde 1 0
      w.disk (plainMemory sameSchemas)
    ∃ outgoingId outgoing, (plainMemory sameSchemas).file.championByTask["t"]? = some outgoingId ∧
      (NewestCompatible plainSerde 1 w.disk outgoing
          (rollbackCandidates (plainMemory sameSchemas).file "t" outgoingId)
          reply.state.file.championByTask["t"]? ↔
        NewestIsCompatible plainSerde 1 w.disk outgoing
          (rollbackCandidates (plainMemory sameSchemas).file "t" outgoingId)) := by
  have hp : (plainWorld sameSchemas).process 0 = .idle 1 (plainMemory sameSchemas) :=
    Process.eq_idle (by decide +kernel)
  have hr : refreshLocked plainSerde 1 (plainWorld sameSchemas).disk (plainMemory sameSchemas) =
      .ok (false, plainMemory sameSchemas) := refreshLocked_of_not_adopted (by decide +kernel)
  obtain ⟨outgoingId, outgoing, hc, -, -, hiff⟩ :=
    (replacement_newest_iff (plainWorld_reachable sameSchemas) hp hr).1 0 "t" "rollback-1" 8
      "fault" none
      { idempotencyKey := "rollback-1", taskId := "t", rolledBackModelId := "b",
        fallbackModelId := some "a", revision := 9, reason := "fault" }
      (by decide +kernel) (by decide +kernel)
  exact ⟨outgoingId, outgoing, hc, hiff⟩

/-- Three models; the middle one has a schema of its own. -/
def mixedSchemas : List (Nat × Action) :=
  openRegistry 0 ++ enterShadow 0 (plainArtifact "a" "t" "s" false) 0 ++
    enterShadow 0 (plainArtifact "b" "t" "other" false) 4 ++
    enterShadow 0 (plainArtifact "c" "t" "s" false) 8

/-- The newest candidate is incompatible, so the task is left without a champion although an older
compatible one serves. -/
theorem rollback_overlooks_compatible :
    let w := plainWorld mixedSchemas
    let reply := (Call.rollbackChampion "t" "rollback-1" 12 "fault" none).perform plainSerde 1 0
      w.disk (plainMemory mixedSchemas)
    w.Reachable plainSerde ∧ reply.result = .ok (.rolledBack
      { idempotencyKey := "rollback-1", taskId := "t", rolledBackModelId := "c",
        fallbackModelId := none, revision := 13, reason := "fault" }) ∧
      ¬ NewestCompatible plainSerde 1 w.disk (plainArtifact "c" "t" "s" false)
        (rollbackCandidates (plainMemory mixedSchemas).file "t" "c")
        reply.state.file.championByTask["t"]? :=
  ⟨plainWorld_reachable mixedSchemas, by decide +kernel, by decide +kernel⟩

end Gail.Elm
