import Gail.Elm.RegistryCalls
import Gail.Elm.RecordList

/-! What a decision that writes has checked, and the index it writes. Later proofs take the cases
of `Writes` and never unfold a decision. -/
namespace Gail.Elm
variable {Bytes : Type} {serde : Serde Bytes} {maxBytes now : Nat}

section Fallback
variable {disk : Disk Bytes} {outgoing artifact : ElmArtifact} {record : RegistryRecord}
  {candidates : List RegistryRecord} {modelId : String}

theorem compatibleArtifact_eq_some :
    compatibleArtifact serde maxBytes disk outgoing record = some artifact ↔
      loadArtifact serde disk record.artifactFile maxBytes = .ok artifact ∧
        artifact.compatible record outgoing := by
  unfold compatibleArtifact
  cases loadArtifact serde disk record.artifactFile maxBytes with
  | error error => simp
  | ok candidate =>
    simp only [Option.ite_none_right_eq_some, Option.some.injEq, Except.ok.injEq]
    constructor
    · rintro ⟨hc, rfl⟩; exact ⟨rfl, hc⟩
    · rintro ⟨rfl, hc⟩; exact ⟨hc, rfl⟩

theorem fallback_eq_some
    (h : fallback serde maxBytes disk outgoing candidates = some (modelId, artifact)) :
    ∃ newest, maxByKey RegistryRecord.revision candidates = some newest ∧
      newest.modelId = modelId ∧
      compatibleArtifact serde maxBytes disk outgoing newest = some artifact := by
  obtain ⟨newest, hn, hm⟩ := Option.bind_eq_some_iff.mp h
  obtain ⟨found, hc, he⟩ := Option.map_eq_some_iff.mp hm
  obtain ⟨rfl, rfl⟩ := Prod.mk.inj he
  exact ⟨newest, hn, rfl, hc⟩

variable (file : RegistryFile) (champions : Champions) (task : String)
  (chosen : Option (String × ElmArtifact))

/-- A fallback changes the champions of an index and nothing else. -/
theorem installFallback_file : ∃ championByTask,
    (installFallback file champions task chosen).file = { file with championByTask } := by
  cases chosen <;> exact ⟨_, rfl⟩

theorem installFallback_champion (other : String) :
    (installFallback file champions task chosen).file.championByTask[other]? =
      if task = other then chosen.map Prod.fst else file.championByTask[other]? := by
  cases chosen <;>
    simp [installFallback, Std.TreeMap.getElem?_insert, Std.TreeMap.getElem?_erase]

theorem installFallback_champions (other : String) :
    (installFallback file champions task chosen).champions[other]? =
      if task = other then chosen.map Prod.snd else champions[other]? := by
  cases chosen <;>
    simp [installFallback, Std.TreeMap.getElem?_insert, Std.TreeMap.getElem?_erase]

end Fallback

/-- The demotion of the previous champion changes nothing or moves one other serving record to
shadow. -/
theorem demotePrevious_cases (file : RegistryFile) (previous : Option String) (modelId : String)
    (now revision : Nat) :
    demotePrevious file previous modelId now revision = file.records ∨
      ∃ previousId index record, previous = some previousId ∧ previousId ≠ modelId ∧
        file.position previousId = some (index, record) ∧ record.stage.isServing ∧
        allowedTransition record.stage .shadow ∧
        demotePrevious file previous modelId now revision = file.records.modify index
          (fun record => record.moveTo .shadow replacedReason now revision) := by
  cases previous with
  | none => exact .inl rfl
  | some previousId =>
    by_cases hid : previousId = modelId
    · exact .inl (if_pos hid)
    cases hp : file.position previousId with
    | none => left; simp [demotePrevious, hid, hp]
    | some found =>
      obtain ⟨index, record⟩ := found
      cases hs : record.stage
      case qualified | canary | active =>
        right
        exact ⟨previousId, index, record, rfl, hid, hp, by rw [hs]; rfl, by rw [hs]; rfl,
          by simp [demotePrevious, hid, hp, hs]⟩
      all_goals left; simp [demotePrevious, hid, hp, hs]

section Decisions
variable {disk : Disk Bytes} {state next : RegistryState}

theorem claimDecision_write {modelId : String} {maximum : UInt64} {granted : Bool}
    (h : claimDecision modelId maximum now state = .ok (.write next granted)) :
    ∃ index record, state.file.position modelId = some (index, record) ∧
      record.stage = .canary ∧ record.fixtureOnly = false ∧
      state.file.canaryCount modelId < maximum.toNat ∧
      next = { state with file := claimedFile state.file index modelId maximum now } ∧
      granted = true := by
  unfold claimDecision at h
  cases hp : state.file.position modelId with
  | none => simp [hp] at h
  | some found =>
    obtain ⟨index, record⟩ := found
    rw [hp] at h
    dsimp only at h
    by_cases hs : record.stage ≠ .canary ∨ record.fixtureOnly
    · rw [if_pos hs] at h; cases h
    rw [if_neg hs] at h
    by_cases hm : maximum.toNat ≤ state.file.canaryCount modelId
    · rw [if_pos hm] at h; cases h
    rw [if_neg hm] at h
    obtain ⟨hstage, hfixture⟩ := not_or.mp hs
    cases h
    exact ⟨index, record, rfl, not_not.mp hstage, Bool.eq_false_iff.mpr hfixture,
      not_le.mp hm, rfl, rfl⟩

theorem promoteDecision_ok {modelId reason : String} {target : LifecycleStage} {expected : Nat}
    {outcome : Outcome RegistryRecord}
    (h : promoteDecision serde maxBytes disk modelId target expected reason now state =
      .ok outcome) :
    ∃ index record artifact, state.file.revision = expected ∧
      state.file.position modelId = some (index, record) ∧
      allowedTransition record.stage target ∧ ¬ (record.fixtureOnly ∧ target.isServing) ∧
      loadArtifact serde disk record.artifactFile maxBytes = .ok artifact ∧
      artifact.isOf record modelId record.taskId ∧
      outcome =
        let serving := target.isServing && !artifact.metadata.fixtureOnly
        let file := promotedFile state.file index modelId target serving artifact.metadata.taskId
          reason now
        .write (promotedState serde maxBytes disk state file modelId artifact serving)
          (file.records.getD index record) := by
  unfold promoteDecision at h
  by_cases hr : state.file.revision ≠ expected
  · rw [if_pos hr] at h; cases h
  rw [if_neg hr] at h
  cases hp : state.file.position modelId with
  | none => simp [hp] at h
  | some found =>
    obtain ⟨index, record⟩ := found
    rw [hp] at h
    dsimp only at h
    by_cases ht : ¬ allowedTransition record.stage target
    · rw [if_pos ht] at h; cases h
    rw [if_neg ht] at h
    by_cases hf : record.fixtureOnly ∧ target.isServing
    · rw [if_pos hf] at h; cases h
    rw [if_neg hf] at h
    cases hl : loadArtifact serde disk record.artifactFile maxBytes with
    | error error => simp [hl] at h
    | ok artifact =>
      rw [hl] at h
      dsimp only at h
      by_cases hi : ¬ artifact.isOf record modelId record.taskId
      · rw [if_pos hi] at h; cases h
      rw [if_neg hi] at h
      cases h
      exact ⟨index, record, artifact, not_not.mp hr, rfl, not_not.mp ht, hf, hl, not_not.mp hi, rfl⟩

theorem rollbackDecision_write {task key reason : String} {expected : Nat} {event : RollbackEvent}
    (h : rollbackDecision serde maxBytes disk task key expected reason now state =
      .ok (.write next event)) :
    ∃ currentId currentArtifact index record, state.file.revision = expected ∧
      state.file.championByTask[task]? = some currentId ∧
      state.champions[task]? = some currentArtifact ∧
      state.file.position currentId = some (index, record) ∧
      allowedTransition record.stage .rolledBack ∧
      (next, event) = rolledBackState state (rolledBackFile state.file index reason now) currentId
        (fallback serde maxBytes disk currentArtifact
          (rollbackCandidates (rolledBackFile state.file index reason now) task currentId))
        task key reason := by
  unfold rollbackDecision at h
  split at h
  · split at h <;> cases h
  by_cases hr : state.file.revision ≠ expected
  · rw [if_pos hr] at h; cases h
  rw [if_neg hr] at h
  cases hc : state.file.championByTask[task]? with
  | none => simp [hc] at h
  | some currentId =>
    rw [hc] at h
    dsimp only at h
    cases ha : state.champions[task]? with
    | none => simp [ha] at h
    | some currentArtifact =>
      rw [ha] at h
      dsimp only at h
      cases hp : state.file.position currentId with
      | none => simp [hp] at h
      | some found =>
        obtain ⟨index, record⟩ := found
        rw [hp] at h
        dsimp only at h
        by_cases ht : ¬ allowedTransition record.stage .rolledBack
        · rw [if_pos ht] at h; cases h
        rw [if_neg ht] at h
        cases h
        exact ⟨currentId, currentArtifact, index, record, not_not.mp hr, rfl, rfl, hp,
          not_not.mp ht, rfl⟩

variable (serde maxBytes disk) in
/-- The four ways in which a state is written. -/
inductive Writes (state : RegistryState) : RegistryState → Prop where
  | published (artifact : ElmArtifact) (now : Nat) :
      Writes state { state with file := publishedFile state.file artifact now }
  | claimed (index : Nat) (record : RegistryRecord) (modelId : String) (maximum : UInt64)
      (now : Nat) (hp : state.file.position modelId = some (index, record))
      (hs : record.stage = .canary) (hf : record.fixtureOnly = false)
      (hm : state.file.canaryCount modelId < maximum.toNat) :
      Writes state { state with file := claimedFile state.file index modelId maximum now }
  | promoted (index : Nat) (record : RegistryRecord) (modelId : String) (target : LifecycleStage)
      (artifact : ElmArtifact) (reason : String) (now : Nat)
      (hp : state.file.position modelId = some (index, record))
      (ht : allowedTransition record.stage target) (hf : ¬ (record.fixtureOnly ∧ target.isServing))
      (hl : loadArtifact serde disk record.artifactFile maxBytes = .ok artifact)
      (hi : artifact.isOf record modelId record.taskId) (serving : Bool)
      (hserving : serving = (target.isServing && !artifact.metadata.fixtureOnly)) :
      Writes state (promotedState serde maxBytes disk state
        (promotedFile state.file index modelId target serving artifact.metadata.taskId reason now)
        modelId artifact serving)
  | rolledBack (task currentId : String) (currentArtifact : ElmArtifact) (index : Nat)
      (record : RegistryRecord) (key reason : String) (now : Nat)
      (hc : state.file.championByTask[task]? = some currentId)
      (ha : state.champions[task]? = some currentArtifact)
      (hp : state.file.position currentId = some (index, record))
      (ht : allowedTransition record.stage .rolledBack) :
      Writes state (rolledBackState state (rolledBackFile state.file index reason now) currentId
        (fallback serde maxBytes disk currentArtifact
          (rollbackCandidates (rolledBackFile state.file index reason now) task currentId))
        task key reason).1

theorem map_eq_write {α : Type} {f : α → Answer} {decision : Except ElmError (Outcome α)}
    {answer : Answer} (h : decision.map (Outcome.map f) = .ok (.write next answer)) :
    ∃ result, decision = .ok (.write next result) ∧ f result = answer := by
  rcases decision with error | outcome
  · cases h
  · cases outcome with
    | keep result => cases h
    | write next' result => cases h; exact ⟨result, rfl, rfl⟩

private theorem writes_promoted {modelId reason : String} {target : LifecycleStage} {expected : Nat}
    {answer : Answer}
    (h : (promoteDecision serde maxBytes disk modelId target expected reason now state).map
      (Outcome.map .record) = .ok (.write next answer)) : Writes serde maxBytes disk state next := by
  obtain ⟨_, hd, -⟩ := map_eq_write h
  obtain ⟨index, record, artifact, -, hp, ht, hf, hl, hi, he⟩ := promoteDecision_ok hd
  cases he
  exact .promoted index record modelId target artifact reason now hp ht hf hl hi _ rfl

/-- A call that writes does so in one of the four ways. -/
theorem Call.writes {call : Call} {answer : Answer}
    (h : call.decision serde maxBytes now disk state = .ok (.write next answer)) :
    Writes serde maxBytes disk state next := by
  cases call with
  | publishCandidate artifact expected faults =>
    simp only [decision] at h
    split at h
    · cases h
    · cases h
      exact .published artifact now
  | promote modelId target expected reason fault => exact writes_promoted h
  | markEvaluated modelId expected reason fault => exact writes_promoted h
  | claimCanaryDecision modelId maximum fault =>
    obtain ⟨_, hd, -⟩ := map_eq_write h
    obtain ⟨index, record, hp, hs, hf, hm, rfl, -⟩ := claimDecision_write hd
    exact .claimed index record modelId maximum now hp hs hf hm
  | rollbackChampion task key expected reason fault =>
    obtain ⟨_, hd, -⟩ := map_eq_write h
    obtain ⟨currentId, currentArtifact, index, record, -, hc, ha, hp, ht, he⟩ :=
      rollbackDecision_write hd
    obtain ⟨rfl, -⟩ := Prod.mk.inj he
    exact .rolledBack task currentId currentArtifact index record key reason now hc ha hp ht

end Decisions

section Written
variable (disk : Disk Bytes) (state : RegistryState) (file : RegistryFile) (modelId : String)
  (artifact : ElmArtifact) (serving : Bool)

/-- A promotion chooses a champion for the index it is given and changes nothing else in it. -/
theorem promotedState_file : ∃ championByTask,
    (promotedState serde maxBytes disk state file modelId artifact serving).file =
      { file with championByTask } := by
  unfold promotedState
  dsimp only
  split
  · exact ⟨_, rfl⟩
  · split
    · exact installFallback_file ..
    · exact ⟨_, rfl⟩

/-- A rollback also records its event. -/
theorem rolledBackState_file (currentId : String) (chosen : Option (String × ElmArtifact))
    (task key reason : String) : ∃ championByTask,
    (rolledBackState state file currentId chosen task key reason).1.file =
      { file with
        championByTask
        rollbackHistory := file.rollbackHistory ++
          [(rolledBackState state file currentId chosen task key reason).2] } := by
  obtain ⟨champions, he⟩ := installFallback_file file state.champions task chosen
  exact ⟨champions, by simp only [rolledBackState, he]⟩

variable {disk} {state} {next : RegistryState}

/-- Every write raises the revision once. -/
theorem Writes.revision (h : Writes serde maxBytes disk state next) :
    next.file.revision = saturatingSucc state.file.revision := by
  cases h with
  | published => rfl
  | claimed => rfl
  | promoted index record modelId target artifact reason now hp ht hf hl hi serving hserving =>
    obtain ⟨champions, he⟩ := promotedState_file disk state (promotedFile state.file index modelId
      target serving artifact.metadata.taskId reason now) modelId artifact serving
    rw [he]; rfl
  | rolledBack task currentId currentArtifact index record key reason now hc ha hp ht =>
    obtain ⟨champions, he⟩ := rolledBackState_file state
      (rolledBackFile state.file index reason now) currentId _ task key reason
    rw [he]; rfl

end Written

end Gail.Elm
