import Gail.Elm.RegistryArtifacts

/-! The artifact files of recorded models. A publication writes a file named by the model alone, so
they stay as published exactly as long as no recorded model is published again. -/
namespace Gail.Elm
open Gail.Library RegistryFile
variable {Bytes : Type} {serde : Serde Bytes} {maxBytes now : Nat} {w : World Bytes}
  {input : Nat × Action}

/-- A publication that passes its checks is of a model without a record in the durable index. -/
def World.BringsUnrecorded (serde : Serde Bytes) (w : World Bytes) (input : Nat × Action) : Prop :=
  ∀ artifact, w.Publishes serde input artifact → ∀ file, durable serde w.disk = some file →
    ∀ record ∈ file.records, record.modelId ≠ artifact.metadata.modelId

/-- Whatever a copy records is still recorded in the durable index. -/
def World.Covered (serde : Serde Bytes) (w : World Bytes) : Prop :=
  ∀ p copy, (w.process p).Holds copy →
    ∃ file, durable serde w.disk = some file ∧ copy.Extends StagePath file

theorem World.Covered.next (h : w.Covered serde) (hc : w.Coherent serde) (input : Nat × Action) :
    (w.next serde input).Covered serde := by
  intro q copy hq
  rcases w.next_index serde input with
    ⟨hi, hk⟩ | ⟨maxBytes, state, fresh, written, hi, ⟨adopted, hr⟩, hw, hn, hk⟩
  · rw [durable_congr hi]
    rcases hk q copy hq with hh | hd
    · exact h q copy hh
    · exact ⟨copy, hd, .refl copy⟩
  · refine ⟨written.file, hn, ?_⟩
    rcases hk q copy hq with hh | ⟨-, rfl | rfl⟩
    · obtain ⟨old, hold, he⟩ := h q copy hh
      cases Option.some.inj (hold.symm.trans (hc.fresh hi hr))
      exact he.trans hw.extends.path
    · exact .refl _
    · exact hw.extends.path

theorem World.Covered.bringsNew (h : w.Covered serde) (hn : w.BringsUnrecorded serde input) :
    w.BringsNew serde input := by
  rintro artifact hp file (hd | ⟨q, hq⟩) record hr
  · exact hn artifact hp file hd record hr
  · obtain ⟨last, hlast, he⟩ := h q file hq
    obtain ⟨i, hi⟩ := List.mem_iff_getElem?.mp hr
    obtain ⟨moved, hm, hmoves⟩ := he.records i record hi
    rw [hmoves.1.modelId]
    exact hn artifact hp last hlast moved (List.mem_of_getElem? hm)

/-- What holds in every state of a run whose publications bring unrecorded models. -/
structure World.Intact (serde : Serde Bytes) (w : World Bytes) : Prop where
  sound : w.Sound serde
  coherent : w.Coherent serde
  covered : w.Covered serde

theorem World.Intact.next (h : w.Intact serde) (hb : w.BelowMax serde)
    (hn : w.BringsUnrecorded serde input) : (w.next serde input).Intact serde where
  sound := h.sound.next (h.covered.bringsNew hn)
  coherent := h.coherent.next hb input
  covered := h.covered.next h.coherent input

/-- The guard of such a run. -/
abbrev World.PublishesNew (serde : Serde Bytes) (w : World Bytes) (inputs : List (Nat × Action)) :
    Prop :=
  Along (World.next serde) (fun w input => w.BelowMax serde ∧ w.BringsUnrecorded serde input) w
    inputs

theorem World.Intact.run (h : w.Intact serde) {inputs : List (Nat × Action)}
    (hg : w.PublishesNew serde inputs) : (run (World.next serde) w inputs).Intact serde :=
  run_invariant (World.next serde) (fun _ _ hi hs => hi.next hs.1 hs.2) h hg

/-- The file of a recorded model is the same at the end of such a run. -/
theorem World.Intact.file_kept (h : w.Intact serde) {inputs : List (Nat × Action)}
    (hg : w.PublishesNew serde inputs) {file : RegistryFile}
    (hd : durable serde w.disk = some file) {record : RegistryRecord} (hr : record ∈ file.records) :
    (Library.run (World.next serde) w inputs).disk record.artifactFile =
      w.disk record.artifactFile := by
  induction inputs generalizing w file record with
  | nil => rfl
  | cons input inputs ih =>
    obtain ⟨⟨hbelow, hnew⟩, hrest⟩ := hg
    have hkept := h.sound.artifact_kept (h.covered.bringsNew hnew) (.inl hd) hr
    obtain ⟨next, hn, he⟩ := h.coherent.extends
      (show w.RunsBelow serde [input] from ⟨hbelow, trivial⟩) hd
    obtain ⟨i, hi⟩ := List.mem_iff_getElem?.mp hr
    obtain ⟨moved, hm, hmoves⟩ := he.records i record hi
    have htail := ih (h.next hbelow hnew) hrest hn (List.mem_of_getElem? hm)
    rw [← hmoves.1.artifactFile] at htail
    exact htail.trans hkept

theorem loadArtifact_congr {disk after : Disk Bytes} {path : String} (h : after path = disk path)
    (maxBytes : Nat) :
    loadArtifact serde after path maxBytes = loadArtifact serde disk path maxBytes := by
  simp only [loadArtifact, h]

/-- A publication that succeeds keeps the models distinct and their files unchanged exactly when its
model has no record yet. -/
theorem World.Intact.publication_iff (h : w.Intact serde) {p expected : Nat}
    {artifact : ElmArtifact} {faults : PublishFaults} {record : RegistryRecord}
    (hok : w.answer serde (p, .call (.publishCandidate artifact expected faults) now) =
      some (.ok (.record record))) {file : RegistryFile} (hd : durable serde w.disk = some file) :
    ((∃ next, durable serde (w.next serde
          (p, .call (.publishCandidate artifact expected faults) now)).disk = some next ∧
        (next.records.map RegistryRecord.modelId).Nodup) ∧
      ∀ record ∈ file.records, (w.next serde
        (p, .call (.publishCandidate artifact expected faults) now)).disk record.artifactFile =
          w.disk record.artifactFile) ↔
    ∀ record ∈ file.records, record.modelId ≠ artifact.metadata.modelId := by
  constructor
  · rintro ⟨⟨next, hn, hdistinct⟩, -⟩ found hfound he
    obtain ⟨process, hs, -⟩ :=
      w.next_steps serde (p, .call (.publishCandidate artifact expected faults) now)
    rcases hs.quiet_or_called with
      ⟨-, hnone, -⟩ | ⟨maxBytes, state, call, now', hi, ha, -, hdisk, hsome⟩
    · rw [hnone] at hok
      cases hok
    obtain ⟨rfl, rfl⟩ := Action.call.inj ha
    have hresult := Option.some.inj (hsome.symm.trans hok)
    rcases (Call.effect serde maxBytes now _ w.disk state).of_ok hresult with
      ⟨hc, -⟩ | ⟨adopted, fresh, -, hr, ⟨hk, -⟩ | hw⟩
    · obtain ⟨_, _, hcall, -⟩ := Call.precheck_ok hc
      cases hcall
    · simp only [Call.decision] at hk
      split at hk <;> cases hk
    · rcases Call.write_records hw.decided with ⟨_, _, hcall, hstate⟩ | ⟨-, hcall⟩
      · cases hcall
        cases Option.some.inj ((h.coherent.fresh hi hr).symm.trans hd)
        have hdurable := hw.durable
        rw [← hdisk, hn, hstate] at hdurable
        cases Option.some.inj hdurable
        simp only [publishedFile, List.map_append, List.map_cons, List.map_nil] at hdistinct
        have hne := (List.nodup_append.mp hdistinct).2.2
        exact hne _ (List.mem_map_of_mem hfound) _ (List.mem_singleton_self _) he
      · exact absurd rfl (hcall _ _ _)
  · intro hne
    have hnew : w.BringsNew serde (p, .call (.publishCandidate artifact expected faults) now) := by
      apply h.covered.bringsNew
      rintro other ⟨_, _, _, _, _, _, -, ha, -, -⟩ found hfound record hr
      cases ha
      cases Option.some.inj (hd.symm.trans hfound)
      exact hne record hr
    have hsound := h.sound.next hnew
    obtain ⟨next, hn⟩ := hsound.durable
    exact ⟨⟨next, hn, (hsound.seen next (.inl hn)).distinct⟩,
      fun record hr => h.sound.artifact_kept hnew (.inl hd) hr⟩

/-- One process brings a model to shadow. -/
def freshModel : List (Nat × Action) :=
  openRegistry 0 ++ enterShadow 0 (plainArtifact "a" "t" "s" false) 0

private theorem bringsUnrecorded_of_action {p : Nat} {action : Action}
    (h : ∀ artifact expected faults now,
      action ≠ .call (.publishCandidate artifact expected faults) now) :
    w.BringsUnrecorded serde (p, action) := by
  rintro artifact ⟨_, _, _, _, _, _, -, ha, -⟩
  exact absurd ha (h _ _ _ _)

private theorem freshModel_publishesNew :
    (World.start fun _ => none).PublishesNew plainSerde freshModel := by
  have hbelow : (World.start fun _ => none).RunsBelow plainSerde freshModel := by decide +kernel
  apply Along.and (World.next plainSerde) hbelow
  refine ⟨bringsUnrecorded_of_action (by simp), bringsUnrecorded_of_action (by simp), ?_,
    bringsUnrecorded_of_action (by simp), bringsUnrecorded_of_action (by simp),
    bringsUnrecorded_of_action (by simp), trivial⟩
  intro artifact _ file hf record hr
  cases hf
  cases hr

end Gail.Elm
