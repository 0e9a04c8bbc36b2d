import Gail.Elm.RegistryRuns

/-! Optimistic concurrency: a publication or promotion goes through only from the revision it names,
and a stale one changes nothing but the copy of its own process. -/
namespace Gail.Elm
open Gail.Library
variable {Bytes : Type} {serde : Serde Bytes} {maxBytes now : Nat} {disk : Disk Bytes}

/-- The revision a publication or promotion expects. -/
def Call.expectedRevision : Call → Option Nat
  | .publishCandidate _ expected _ | .promote _ _ expected _ _ | .markEvaluated _ expected _ _ =>
    some expected
  | _ => none

/-- The record is of the model that a promotion names, or of a champion that it may replace. -/
def Call.concerns (file : RegistryFile) (record : RegistryRecord) : Call → Prop
  | .promote modelId _ _ _ _ | .markEvaluated modelId _ _ _ =>
    record.modelId = modelId ∨ ∃ task : String, file.championByTask[task]? = some record.modelId
  | _ => False

/-- What a publication or promotion leaves of the index it starts from. -/
structure Call.Keeps (call : Call) (file next : RegistryFile) : Prop where
  history : next.rollbackHistory = file.rollbackHistory
  counts : next.canaryDecisions = file.canaryDecisions
  records : ∀ (i : Nat) record, file.records[i]? = some record →
    next.records[i]? = some record ∨ call.concerns file record ∧
      ∃ moved, next.records[i]? = some moved ∧ record.Moves StageStep moved

private theorem promotedFile_entry {file : RegistryFile} {index : Nat} {record : RegistryRecord}
    {modelId : String} (hp : file.position modelId = some (index, record)) (target : LifecycleStage)
    (serving : Bool) (task reason : String) (now i : Nat) (entry : RegistryRecord)
    (he : file.records[i]? = some entry) :
    (promotedFile file index modelId target serving task reason now).records[i]? = some entry ∨
      (entry.modelId = modelId ∨
        ∃ task : String, file.championByTask[task]? = some entry.modelId) := by
  obtain ⟨hget, hid, -⟩ := RegistryFile.position_eq_some.mp hp
  by_cases hi : index = i
  · subst hi
    cases Option.some.inj (hget.symm.trans he)
    exact .inr (.inl hid)
  simp only [promotedFile, List.getElem?_modify, if_neg hi]
  cases serving with
  | false => left; simp [he]
  | true =>
    rcases demotePrevious_cases file file.championByTask[task]? modelId now
      (saturatingSucc file.revision) with hd | ⟨previousId, other, found, hc, -, hq, -, -, hd⟩
    · left; simp [hd, he]
    · by_cases ho : other = i
      · subst ho
        obtain ⟨hfound, hfid, -⟩ := RegistryFile.position_eq_some.mp hq
        cases Option.some.inj (hfound.symm.trans he)
        exact .inr (.inr ⟨task, hfid ▸ hc⟩)
      · left; simp [hd, ho, he]

section Success
variable {state next : RegistryState} {answer : Answer}

private theorem promotion_keeps {modelId reason : String} {target : LifecycleStage} {expected : Nat}
    {call : Call} (hcall : ∀ file record, call.concerns file record =
      (record.modelId = modelId ∨
        ∃ task : String, file.championByTask[task]? = some record.modelId))
    (h : (promoteDecision serde maxBytes disk modelId target expected reason now state).map
      (Outcome.map .record) = .ok (.write next answer))
    (hwrite : Writes serde maxBytes disk state next) :
    state.file.revision = expected ∧ call.Keeps state.file next.file := by
  obtain ⟨_, hd, -⟩ := map_eq_write h
  obtain ⟨index, record, artifact, hr, hp, -, -, -, -, he⟩ := promoteDecision_ok hd
  obtain ⟨rfl, -⟩ := Outcome.write.inj he
  obtain ⟨champions, hfile⟩ := promotedState_file disk state (promotedFile state.file index modelId
    target (target.isServing && !artifact.metadata.fixtureOnly) artifact.metadata.taskId reason now)
    modelId artifact (target.isServing && !artifact.metadata.fixtureOnly)
  have hgrows := hwrite.extends.records
  rw [hfile] at hgrows ⊢
  refine ⟨hr, rfl, rfl, ?_⟩
  intro i entry hentry
  rcases promotedFile_entry hp target (target.isServing && !artifact.metadata.fixtureOnly)
    artifact.metadata.taskId reason now i entry hentry with hsame | hconcerns
  · exact .inl hsame
  · exact .inr ⟨(hcall _ _).mpr hconcerns, hgrows i entry hentry⟩

/-- A call that expects a revision writes from that revision and keeps the rest of the index. -/
theorem Call.write_keeps {call : Call} {expected : Nat} (he : call.expectedRevision = some expected)
    (h : call.decision serde maxBytes now disk state = .ok (.write next answer)) :
    state.file.revision = expected ∧ call.Keeps state.file next.file := by
  have hwrite := Call.writes h
  cases call with
  | publishCandidate artifact revision faults =>
    cases he
    simp only [decision] at h
    by_cases hr : state.file.revision ≠ expected
    · rw [if_pos hr] at h; cases h
    rw [if_neg hr] at h
    cases h
    refine ⟨not_not.mp hr, rfl, rfl, ?_⟩
    intro i record hrecord
    have hlt := (List.getElem?_eq_some_iff.mp hrecord).1
    exact .inl ((List.getElem?_append_left hlt).trans hrecord)
  | promote modelId target revision reason fault =>
    cases he
    exact promotion_keeps (fun _ _ => rfl) h hwrite
  | markEvaluated modelId revision reason fault =>
    cases he
    exact promotion_keeps (fun _ _ => rfl) h hwrite
  | claimCanaryDecision => cases he
  | rollbackChampion => cases he

/-- A call that expects a revision never succeeds without writing. -/
private theorem decision_ne_keep {call : Call} {expected : Nat}
    (he : call.expectedRevision = some expected) :
    call.decision serde maxBytes now disk state ≠ .ok (.keep answer) := by
  have hpromote : ∀ modelId target reason,
      (promoteDecision serde maxBytes disk modelId target expected reason now state).map
        (Outcome.map .record) ≠ .ok (.keep answer) := by
    intro modelId target reason h
    cases hd : promoteDecision serde maxBytes disk modelId target expected reason now state with
    | error error => rw [hd] at h; cases h
    | ok outcome =>
      obtain ⟨_, _, _, -, -, -, -, -, -, rfl⟩ := promoteDecision_ok hd
      rw [hd] at h
      cases h
  cases call with
  | publishCandidate artifact revision faults =>
    intro h
    simp only [Call.decision] at h
    split at h <;> cases h
  | promote modelId target revision reason fault => cases he; exact hpromote modelId target reason
  | markEvaluated modelId revision reason fault => cases he; exact hpromote modelId .evaluated reason
  | claimCanaryDecision => cases he
  | rollbackChampion => cases he

/-- The revision is compared before anything else that depends on the index. -/
private theorem decision_stale {call : Call} {expected : Nat}
    (he : call.expectedRevision = some expected) (hr : state.file.revision ≠ expected) :
    call.decision serde maxBytes now disk state = .error .revisionConflict := by
  cases call with
  | publishCandidate artifact revision faults => cases he; exact if_pos hr
  | promote modelId target revision reason fault =>
    cases he
    simp only [Call.decision, promoteDecision, if_pos hr]
    rfl
  | markEvaluated modelId revision reason fault =>
    cases he
    simp only [Call.decision, promoteDecision, if_pos hr]
    rfl
  | claimCanaryDecision => cases he
  | rollbackChampion => cases he

private theorem precheck_not_ok {call : Call} {expected : Nat}
    (he : call.expectedRevision = some expected) :
    call.precheck serde maxBytes ≠ some (.ok answer) := by
  cases call with
  | publishCandidate artifact revision faults =>
    simp only [Call.precheck]
    split <;> simp
  | promote => simp [Call.precheck]
  | markEvaluated => simp [Call.precheck]
  | claimCanaryDecision => cases he
  | rollbackChampion => cases he

end Success

section Runs
variable {w : World Bytes} {p : Nat} {state : RegistryState} {call : Call} {expected : Nat}
  {file : RegistryFile}

/-- A publication or promotion that succeeds found the revision it names. -/
theorem World.Coherent.success (h : w.Coherent serde) (hb : w.BelowMax serde)
    (hp : w.process p = .idle maxBytes state) (he : call.expectedRevision = some expected)
    (hd : durable serde w.disk = some file) {answer : Answer}
    (hok : (call.perform serde maxBytes now w.disk state).result = .ok answer) :
    file.revision = expected ∧ ∃ next,
      durable serde (call.perform serde maxBytes now w.disk state).disk = some next ∧
      next.revision = expected + 1 ∧ call.Keeps file next := by
  rcases (call.effect serde maxBytes now w.disk state).of_ok hok with
    ⟨hc, -⟩ | ⟨adopted, fresh, -, hr, ⟨hk, -⟩ | hw⟩
  · exact absurd hc (precheck_not_ok he)
  · exact absurd hk (decision_ne_keep he)
  · cases Option.some.inj ((h.fresh hp hr).symm.trans hd)
    obtain ⟨hrevision, hkeeps⟩ := Call.write_keeps he hw.decided
    refine ⟨hrevision, _, hw.durable, ?_, hkeeps⟩
    rw [(Call.writes hw.decided).revision, saturatingSucc_of_lt (hb _ hd), hrevision]

/-- A stale one fails and leaves the directory as it is; its process is brought up to date. -/
theorem World.Coherent.stale (h : w.Coherent serde) (hp : w.process p = .idle maxBytes state)
    (he : call.expectedRevision = some expected) (hd : durable serde w.disk = some file)
    (hne : file.revision ≠ expected) :
    let reply := call.perform serde maxBytes now w.disk state
    reply.disk = w.disk ∧ (∃ error, reply.result = .error error) ∧
      (reply.state = state ∨ reply.state.file = file) ∧
      ∀ adopted fresh, call.precheck serde maxBytes = none →
        refreshLocked serde maxBytes w.disk state = .ok (adopted, fresh) →
        reply.result = .error .revisionConflict ∧ reply.state.file = file := by
  intro reply
  have hreply : reply = _ := call.perform_eq serde maxBytes now w.disk state
  cases hc : call.precheck serde maxBytes with
  | some result =>
    rw [hc] at hreply
    cases result with
    | ok answer => exact absurd hc (precheck_not_ok he)
    | error error =>
      rw [hreply]
      exact ⟨rfl, ⟨error, rfl⟩, .inl rfl, by rintro _ _ hnone; cases hnone⟩
  | none =>
    rw [hc] at hreply
    cases hr : refreshLocked serde maxBytes w.disk state with
    | error error =>
      rw [hr] at hreply
      rw [hreply]
      exact ⟨rfl, ⟨error, rfl⟩, .inl rfl, by rintro _ _ - hok; cases hok⟩
    | ok refreshed =>
      obtain ⟨adopted, fresh⟩ := refreshed
      have hfresh := Option.some.inj ((h.fresh hp hr).symm.trans hd)
      rw [hr] at hreply
      dsimp only at hreply
      rw [decision_stale he (hfresh ▸ hne)] at hreply
      rw [hreply]
      exact ⟨rfl, ⟨_, rfl⟩, .inr hfresh, fun _ _ _ _ => ⟨rfl, hfresh⟩⟩

end Runs

/-- Two processes publish from the same revision. -/
def racingPublications : List (Nat × Action) :=
  openRegistry 0 ++ openRegistry 1 ++
    [(0, .call (.publishCandidate (plainArtifact "a" "t" "s" false) 0 {}) 0),
      (1, .call (.publishCandidate (plainArtifact "b" "t" "s" false) 0 {}) 0)]

private theorem racingPublications_below :
    (World.start fun _ => none).RunsBelow plainSerde racingPublications := by
  decide +kernel

end Gail.Elm
