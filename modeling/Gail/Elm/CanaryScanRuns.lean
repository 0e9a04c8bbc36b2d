import Gail.Elm.CanaryScan
import Gail.Elm.RegistryArtifacts

/-! Runs of the canary scan among other operations. The revision guards what the scan has read from the
copy whose revision it names; what it read before that is guarded by nothing. -/
namespace Gail.Elm
open Gail.Library Gail.Trading
variable {Bytes F : Type} {serde : Serde Bytes}

section Firsts

/-- Only the first record of a model leaves the stage that it was published with. -/
def RegistryFile.FirstsServe (file : RegistryFile) : Prop :=
  ∀ (i : Nat) record, file.records[i]? = some record → record.stage ≠ .trained →
    file.position record.modelId = some (i, record)

variable {maxBytes : Nat} {disk : Disk Bytes} {state next : RegistryState}

theorem Writes.firstsServe (h : Writes serde maxBytes disk state next) (hf : state.file.FirstsServe) :
    next.file.FirstsServe := by
  intro i moved hm hs
  by_cases hi : i < state.file.records.length
  · have hr : state.file.records[i]? = some state.file.records[i] := List.getElem?_eq_getElem hi
    have hfirst : state.file.position state.file.records[i].modelId =
        some (i, state.file.records[i]) := by
      rcases h.changed hr hm with he | hp
      · exact hf i _ hr (he ▸ hs)
      · exact hp
    obtain ⟨found, hp, hmoves⟩ := h.extends.position hfirst
    have hfound := (RegistryFile.position_eq_some.mp hp).1
    obtain rfl : found = moved := Option.some.inj (hfound.symm.trans hm)
    rw [← hmoves.1.modelId]
    exact hp
  · exact absurd (h.added (not_lt.mp hi) hm) hs

end Firsts

section Memory
variable {w : World Bytes} {p : Nat} {state : RegistryState}

/-- The copies are in step with the index, and in each of them only first records have moved. -/
structure World.InOrder (serde : Serde Bytes) (w : World Bytes) : Prop where
  coherent : w.Coherent serde
  firsts : ∀ file, w.Sees serde file → file.FirstsServe

theorem World.inOrder_empty : (World.empty : World Bytes).InOrder serde where
  coherent := World.coherent_start serde _
  firsts := by
    intro file hf
    cases World.sees_start.mp hf
    exact fun i record hr => nomatch hr

theorem World.InOrder.next (h : w.InOrder serde) (hb : w.BelowMax serde) (input : Nat × Action) :
    (w.next serde input).InOrder serde where
  coherent := h.coherent.next hb input
  firsts := by
    intro file hf
    rcases World.sees_next hf with hs | ⟨maxBytes, state, written, hs, hw, rfl⟩
    · exact h.firsts file hs
    · exact hw.firstsServe (h.firsts state.file hs)

/-- A file that is not the index does not matter. -/
theorem World.InOrder.frame (h : w.InOrder serde) {after : Disk Bytes}
    (ha : after indexPath = w.disk indexPath) : ({ w with disk := after } : World Bytes).InOrder serde where
  coherent := by
    intro q copy hq
    rw [durable_congr ha]
    exact h.coherent q copy hq
  firsts := by
    rintro file (hd | hq)
    · exact h.firsts file (.inl ((durable_congr ha).symm.trans hd))
    · exact h.firsts file (.inr hq)

private theorem refreshed_memory {maxBytes : Nat} {disk : Disk Bytes} {found : RegistryFile}
    {adopted : Bool} {fresh : RegistryState}
    (h : adoptFresh serde maxBytes disk state found = .ok (adopted, fresh)) :
    fresh = state ∨ state.file.revision < fresh.file.revision := by
  rcases adoptFresh_ok h with ⟨-, -, rfl⟩ | ⟨hlt, -, he, -⟩
  · exact .inl rfl
  · exact .inr (he ▸ hlt)

/-- A refresh leaves the copy as it is or brings a newer one. -/
theorem refreshLocked_memory {maxBytes : Nat} {disk : Disk Bytes} {adopted : Bool}
    {fresh : RegistryState} (h : refreshLocked serde maxBytes disk state = .ok (adopted, fresh)) :
    fresh = state ∨ state.file.revision < fresh.file.revision := by
  obtain ⟨found, -, ha⟩ := refreshLocked_ok h
  exact refreshed_memory ha

private theorem called_memory (h : w.Coherent serde) (hb : w.BelowMax serde) {maxBytes : Nat}
    (hp : w.process p = .idle maxBytes state) (call : Call) (now : Nat) :
    (call.perform serde maxBytes now w.disk state).state = state ∨
      state.file.revision < (call.perform serde maxBytes now w.disk state).state.file.revision := by
  rcases (call.effect serde maxBytes now w.disk state).kept_or_replaced with
    ⟨-, he | ⟨adopted, hr⟩⟩ | ⟨adopted, fresh, written, answer, -, hr, hw, ⟨he, -⟩ | ⟨he, -⟩⟩
  · exact .inl he
  · exact refreshLocked_memory hr
  · have hlt := hb _ (h.fresh hp hr)
    have hrevision := (Call.writes hw.decided).revision
    rw [saturatingSucc_of_lt hlt] at hrevision
    right
    rw [he]
    rcases refreshLocked_memory hr with rfl | hnewer <;> omega
  · rw [he]
    exact refreshLocked_memory hr

/-- As long as a process is not closed, its copy stays or becomes a newer one. -/
theorem World.Coherent.memory_next (h : w.Coherent serde) (hb : w.BelowMax serde)
    (hm : (w.process p).memory = some state) {input : Nat × Action} (hc : input ≠ (p, .close)) :
    ∃ next, ((w.next serde input).process p).memory = some next ∧
      (next = state ∨ state.file.revision < next.file.revision) := by
  obtain ⟨q, action⟩ := input
  have hprocess : (w.next serde (q, action)).process =
      Function.update w.process q ((w.process q).step serde w.disk action).1 := rfl
  rw [hprocess]
  by_cases hq : p = q
  swap
  · rw [Function.update_of_ne hq]
    exact ⟨state, hm, .inl rfl⟩
  subst hq
  rw [Function.update_self]
  cases hp : w.process p with
  | closed => rw [hp] at hm; cases hm
  | opening maxBytes file => rw [hp] at hm; cases hm
  | idle maxBytes copy =>
    obtain rfl : copy = state := by rw [hp] at hm; exact Option.some.inj hm
    cases action with
    | close => exact absurd rfl hc
    | startOpen limit => exact ⟨copy, rfl, .inl rfl⟩
    | finishOpen => exact ⟨copy, rfl, .inl rfl⟩
    | finishRefresh => exact ⟨copy, rfl, .inl rfl⟩
    | startRefresh =>
      refine ⟨copy, ?_, .inl rfl⟩
      simp only [Process.step]
      split <;> rfl
    | call call now => exact ⟨_, rfl, called_memory h hb hp call now⟩
  | refreshing maxBytes copy fresh =>
    obtain rfl : copy = state := by rw [hp] at hm; exact Option.some.inj hm
    cases action with
    | close => exact absurd rfl hc
    | finishRefresh =>
      simp only [Process.step]
      cases ha : adoptFresh serde maxBytes w.disk copy fresh with
      | error error => exact ⟨copy, rfl, .inl rfl⟩
      | ok adopted => exact ⟨adopted.2, rfl, refreshed_memory ha⟩
    | _ => exact ⟨copy, rfl, .inl rfl⟩

end Memory

section Scans
variable [Scalar F] (reports : StoredReports Bytes F) (config : CanaryScanConfig F)
  (details : ElmArtifact → ModelDetails F)

/-- The checks up to the budget hold of a copy. -/
structure Counted (now : Nat) (state : RegistryState) (record : RegistryRecord) : Prop where
  selected : config.selects now record = true
  found : state.record record.modelId = some record
  budget : config.withinBudget record (state.canaryDecisions record.modelId) = true

/-- So do the checks of the champion. -/
structure ChampionChecked (now : Nat) (state : RegistryState) (record : RegistryRecord)
    (champion : ElmArtifact) : Prop extends Counted config now state record where
  serving : state.champion record.taskId = some champion
  matching : champion.isChampionOf record = true

/-- The stored report is the one that was checked. -/
structure ReportChecked (serde : Serde Bytes) (disk : Disk Bytes) (record : RegistryRecord)
    (champion : ElmArtifact) (report : StoredReport F) : Prop where
  stored : storedReport reports disk record.modelId = some report
  qualifies : config.qualifies serde reports details record champion report = true

/-- What a step of the scan rests on. The last one rests on the copy that its revision was read from,
and the copy of the process has not changed without a new revision. -/
def ScanStep.Justified (serde : Serde Bytes) (disk : Disk Bytes) (now : Nat) (state : RegistryState) :
    ScanStep F → Prop
  | .between => True
  | .counted record => Counted config now state record
  | .championRead record champion => ChampionChecked config now state record champion
  | .reportRead record champion report =>
    ChampionChecked config now state record champion ∧
      ReportChecked reports config details serde disk record champion report
  | .promoting record champion report seen =>
    ChampionChecked config now seen record champion ∧
      ReportChecked reports config details serde disk record champion report ∧
      InStep (fun copy : RegistryState => copy.file.revision) state seen

/-- The records that are left to the scan are those that the registry finds. -/
def Scan.Finds (scan : Scan) (state : RegistryState) : Prop :=
  ∀ record ∈ scan.todo, config.selects scan.now record = true → state.record record.modelId = some record

/-- Everything that a scan has read is so. -/
structure ScanWorld.Inv (serde : Serde Bytes) (worker : Nat) (s : ScanWorld Bytes F) : Prop where
  world : s.world.InOrder serde
  scan : ∀ scan step, s.phase = .scanning scan step →
    ∃ state, (s.world.process worker).memory = some state ∧ scan.Finds config state ∧
      step.Justified reports config details serde s.world.disk scan.now state

variable {reports config details} {disk after : Disk Bytes} {now : Nat} {state next : RegistryState}
  {record : RegistryRecord} {champion : ElmArtifact} {report : StoredReport F}

theorem Counted.frame (h : Counted config now state record)
    (hr : Reading.Same state next (.record record.modelId))
    (hd : Reading.Same state next (.decisions record.modelId)) :
    Counted config now next record where
  selected := h.selected
  found := Eq.trans hr h.found
  budget := by
    have hcount : next.canaryDecisions record.modelId = state.canaryDecisions record.modelId := hd
    rw [hcount]
    exact h.budget

theorem ChampionChecked.frame (h : ChampionChecked config now state record champion)
    (hr : Reading.Same state next (.record record.modelId))
    (hd : Reading.Same state next (.decisions record.modelId))
    (hc : Reading.Same state next (.champion record.taskId)) :
    ChampionChecked config now next record champion :=
  { h.toCounted.frame hr hd with
    serving := Eq.trans hc h.serving
    matching := h.matching }

theorem ReportChecked.frame (h : ReportChecked reports config details serde disk record champion report)
    (hfile : after (evaluationPath record.modelId) = disk (evaluationPath record.modelId)) :
    ReportChecked reports config details serde after record champion report where
  stored := by
    rw [storedReport, hfile]
    exact h.stored
  qualifies := h.qualifies

/-- What a step rests on lasts while nothing changes that was read. -/
theorem ScanStep.Justified.frame {step : ScanStep F}
    (h : step.Justified reports config details serde disk now state)
    (hs : ∀ reading ∈ step.readings, reading.Same state next)
    (hd : ∀ modelId ∈ step.trustedReport,
      after (evaluationPath modelId) = disk (evaluationPath modelId))
    (hn : next = state ∨ state.file.revision < next.file.revision) :
    step.Justified reports config details serde after now next := by
  cases step with
  | between => trivial
  | counted record =>
    exact Counted.frame h (hs (.record _) (by simp [readings])) (hs (.decisions _) (by simp [readings]))
  | championRead record champion =>
    exact ChampionChecked.frame h (hs (.record _) (by simp [readings]))
      (hs (.decisions _) (by simp [readings])) (hs (.champion _) (by simp [readings]))
  | reportRead record champion report =>
    have hchampion := h.1.frame (hs (.record _) (by simp [readings]))
      (hs (.decisions _) (by simp [readings])) (hs (.champion _) (by simp [readings]))
    exact ⟨hchampion, h.2.frame (hd record.modelId rfl)⟩
  | promoting record champion report seen =>
    refine ⟨h.1, h.2.1.frame (hd record.modelId rfl), ?_⟩
    rcases hn with rfl | hlt
    · exact h.2.2
    · exact h.2.2.advance hlt

theorem Scan.Finds.frame {scan : Scan} {step : ScanStep F} (h : scan.Finds config state)
    (hs : ∀ reading ∈ (ScanPhase.scanning scan step).readings config, reading.Same state next) :
    scan.Finds config next := by
  intro record hr hselected
  have hreading : Reading.record record.modelId ∈ (ScanPhase.scanning scan step).readings config :=
    List.mem_append_left _ (List.mem_map_of_mem (List.mem_filter.mpr ⟨hr, hselected⟩))
  exact Eq.trans (hs _ hreading) (h record hr hselected)

/-- Checks that hold of one copy are all the checks there are. -/
theorem ChampionChecked.eligible (h : ChampionChecked config now state record champion)
    (hr : ReportChecked reports config details serde disk record champion report) :
    config.eligible serde reports details disk now state record.modelId = true := by
  simp only [CanaryScanConfig.eligible, h.found, h.serving, hr.stored, Option.any_some, h.selected,
    h.budget, h.matching, hr.qualifies, Bool.and_self]

omit [Scalar F] in
theorem Reading.same_refl (state : RegistryState) (reading : Reading) : reading.Same state state := by
  cases reading <;> rfl

omit [Scalar F] in
theorem evaluationPath_injective : Function.Injective evaluationPath := by
  intro a b h
  have hl := congrArg String.toList h
  simp only [evaluationPath, String.toList_append, List.append_left_inj, List.append_right_inj] at hl
  exact String.toList_inj.mp hl

omit [Scalar F] in
/-- The report of another model stays. -/
theorem storeEvaluation_report (serde : Serde Bytes) (maxBytes : Nat) (disk : Disk Bytes)
    (state : RegistryState) {modelId other : String} (hne : other ≠ modelId) (bytes : Bytes)
    (fault : Option IoFault) :
    (storeEvaluation serde maxBytes disk state modelId bytes fault).disk (evaluationPath other) =
      disk (evaluationPath other) := by
  rw [storeEvaluation]
  split
  · rfl
  · split
    · rfl
    · next record hrecord =>
      refine writeAtomic_ne (fun he => hne ?_) bytes fault
      rw [evaluationPath_injective he, RegistryFile.record_modelId hrecord]

omit [Scalar F] in
/-- No operation of the registry changes a report. -/
theorem World.next_report (serde : Serde Bytes) (w : World Bytes) (input : Nat × Action)
    (modelId : String) :
    (w.next serde input).disk (evaluationPath modelId) = w.disk (evaluationPath modelId) := by
  apply World.next_disk_ne (indexPath_ne_evaluationPath modelId).symm
  intro artifact _ he
  have hl := congrArg (fun s => s.toList.head?) he
  simp [evaluationPath, artifactPath, String.toList_append] at hl

omit [Scalar F] in
/-- A stored report is no part of the index. -/
theorem storeEvaluation_index (serde : Serde Bytes) (maxBytes : Nat) (disk : Disk Bytes)
    (state : RegistryState) (modelId : String) (bytes : Bytes) (fault : Option IoFault) :
    (storeEvaluation serde maxBytes disk state modelId bytes fault).disk indexPath = disk indexPath := by
  rw [storeEvaluation]
  split
  · rfl
  · split
    · rfl
    · exact writeAtomic_ne (indexPath_ne_evaluationPath _) bytes fault

omit [Scalar F] in
/-- A report that the scan reads is the stored one. -/
theorem storedReport_of_evaluationJson {maxBytes : Nat} {modelId : String}
    (h : evaluationJson serde reports maxBytes disk state modelId = some report) :
    storedReport reports disk modelId = some report := by
  obtain ⟨record, hrecord, h⟩ := Option.bind_eq_some_iff.mp h
  obtain ⟨bytes, hbytes, h⟩ := Option.bind_eq_some_iff.mp h
  rw [RegistryFile.record_modelId hrecord] at hbytes
  split at h
  · cases h
  · rw [storedReport, hbytes]
    exact h

/-- What the next read adds is so in the copy that was read. -/
theorem Scan.read_justified {maxBytes : Nat} {scan after : Scan} {step next : ScanStep F}
    (hf : scan.Finds config state)
    (hj : step.Justified reports config details serde disk scan.now state)
    (h : scan.read serde reports config details maxBytes disk state step = .scanning after next) :
    after.Finds config state ∧ next.Justified reports config details serde disk after.now state := by
  cases step with
  | between =>
    rw [read] at h
    split at h
    next hdone => cases h
    next record todo htodo =>
      have hrest : ({ scan with todo } : Scan).Finds config state := fun r hr =>
        hf r (htodo ▸ List.mem_cons_of_mem record hr)
      split at h
      · next hchecks =>
        cases h
        obtain ⟨hselected, hbudget⟩ := Bool.and_eq_true_iff.mp hchecks
        have hfound := hf record (htodo ▸ List.mem_cons_self) hselected
        exact ⟨hrest, hselected, hfound, hbudget⟩
      · cases h
        exact ⟨hrest, trivial⟩
  | counted record =>
    rw [read] at h
    split at h
    · cases h
      exact ⟨hf, trivial⟩
    · next champion hchampion =>
      split at h
      · next hmatching =>
        cases h
        exact ⟨hf, { toCounted := hj, serving := hchampion, matching := hmatching }⟩
      · cases h
        exact ⟨hf, trivial⟩
  | championRead record champion =>
    rw [read] at h
    split at h
    · cases h
      exact ⟨hf, trivial⟩
    · next report hreport =>
      split at h
      · next hqualifies =>
        cases h
        refine ⟨hf, hj, ?_, hqualifies⟩
        exact storedReport_of_evaluationJson hreport
      · cases h
        exact ⟨hf, trivial⟩
  | reportRead record champion report =>
    cases h
    exact ⟨hf, hj.1, hj.2, .refl _ state⟩
  | promoting record champion report seen =>
    cases h
    exact ⟨hf, hj⟩

end Scans

namespace ScanWorld
variable [Scalar F] {reports : StoredReports Bytes F} {config : CanaryScanConfig F}
  {details : ElmArtifact → ModelDetails F} {worker : Nat} {s : ScanWorld Bytes F}
  {action : ScanAction Bytes}

theorem inv_start : (start : ScanWorld Bytes F).Inv reports config details serde worker where
  world := World.inOrder_empty
  scan := fun _ _ h => nomatch h

/-- A step that leaves the scan where it is leaves it justified. -/
theorem Inv.same_phase (h : s.Inv reports config details serde worker) {after : ScanWorld Bytes F}
    (hw : after.world.InOrder serde) (hphase : after.phase = s.phase)
    (hm : ∀ state, (s.world.process worker).memory = some state →
      ∃ next, (after.world.process worker).memory = some next ∧
        (next = state ∨ state.file.revision < next.file.revision))
    (hu : ∀ state ∈ (s.world.process worker).memory, ∀ next ∈ (after.world.process worker).memory,
      ∀ reading ∈ s.phase.readings config, reading.Same state next)
    (hd : ∀ modelId ∈ s.phase.trustedReport,
      after.world.disk (evaluationPath modelId) = s.world.disk (evaluationPath modelId)) :
    after.Inv reports config details serde worker where
  world := hw
  scan := by
    intro scan step hscanning
    rw [hphase] at hscanning
    obtain ⟨state, hstate, hfinds, hjustified⟩ := h.scan scan step hscanning
    obtain ⟨next, hnext, hnewer⟩ := hm state hstate
    have hsame := hu state hstate next hnext
    rw [hscanning] at hsame hd
    refine ⟨next, hnext, hfinds.frame hsame, hjustified.frame ?_ hd hnewer⟩
    intro reading hreading
    exact hsame reading (List.mem_append_right _ hreading)

theorem Inv.next_registry (h : s.Inv reports config details serde worker)
    (hb : s.world.BelowMax serde) {process : Nat} {step : Action}
    (hu : s.Undisturbed serde reports config details worker (.registry process step)) :
    (s.next serde reports config details worker (.registry process step)).Inv reports config details
      serde worker := by
  have hw := h.world.next hb (process, step)
  by_cases hclose : process = worker ∧ step.closes
  · refine ⟨hw, fun scan after hscanning => ?_⟩
    rw [next, if_pos hclose] at hscanning
    cases hscanning
  · have hphase : (s.next serde reports config details worker (.registry process step)).phase =
        s.phase := if_neg hclose
    have hne : (process, step) ≠ (worker, .close) := by
      intro he
      obtain ⟨rfl, rfl⟩ := Prod.mk.inj he
      exact hclose ⟨rfl, rfl⟩
    exact h.same_phase hw hphase (fun state hm => h.world.coherent.memory_next hb hm hne) hu.1
      fun modelId _ => World.next_report serde s.world (process, step) modelId

theorem Inv.next_storeEvaluation (h : s.Inv reports config details serde worker) {process : Nat}
    {modelId : String} {bytes : Bytes} {fault : Option IoFault}
    (hu : s.Undisturbed serde reports config details worker
      (.storeEvaluation process modelId bytes fault)) :
    (s.next serde reports config details worker (.storeEvaluation process modelId bytes fault)).Inv
      reports config details serde worker := by
  obtain ⟨-, hkept⟩ := hu
  rw [next]
  split
  · next maxBytes state hp =>
    refine h.same_phase (h.world.frame ?_) rfl (fun state hm => ⟨state, hm, .inl rfl⟩) ?_ ?_
    · exact storeEvaluation_index serde maxBytes s.world.disk state modelId bytes fault
    · intro state hm next hn reading _
      obtain rfl := Option.some.inj (hm.symm.trans hn)
      exact Reading.same_refl state reading
    · intro trusted htrusted
      have hne : trusted ≠ modelId := fun he => hkept trusted htrusted (congrArg some he.symm)
      exact storeEvaluation_report serde maxBytes s.world.disk state hne bytes fault
  · exact h

theorem Inv.next_takeRecords (h : s.Inv reports config details serde worker) (now : Nat) :
    (s.next serde reports config details worker (.takeRecords now)).Inv reports config details serde
      worker := by
  rw [next]
  split
  · next maxBytes state hphase hp =>
    split
    · refine ⟨h.world, fun scan step hscanning => ?_⟩
      cases hscanning
      refine ⟨state, by rw [hp]; rfl, fun record hr hselected => ?_, trivial⟩
      -- A selected record is at shadow, so it is the first one of its model.
      have hfirsts := h.world.firsts state.file (.inr ⟨worker, by rw [hp]; exact .idle maxBytes state⟩)
      obtain ⟨i, hi⟩ := List.mem_iff_getElem?.mp hr
      have hstage : record.stage = .shadow := by
        simp only [CanaryScanConfig.selects, Bool.and_eq_true, beq_iff_eq] at hselected
        exact hselected.1.1.1
      have hne : record.stage ≠ .trained := by
        rw [hstage]
        exact nofun
      exact RegistryFile.record_of_position (hfirsts i record hi hne)
    · exact ⟨h.world, fun scan step hscanning => nomatch hscanning⟩
  · exact h

theorem Inv.next_read (h : s.Inv reports config details serde worker) :
    (s.next serde reports config details worker .read).Inv reports config details serde worker := by
  rw [next]
  split
  · next scan step maxBytes state hphase hp =>
    refine ⟨h.world, fun after next hscanning => ?_⟩
    obtain ⟨found, hm, hfinds, hjustified⟩ := h.scan scan step hphase
    obtain rfl : state = found := by
      rw [hp] at hm
      exact Option.some.inj hm
    exact ⟨state, hm, Scan.read_justified hfinds hjustified hscanning⟩
  · exact h

theorem Inv.next_promote (h : s.Inv reports config details serde worker) (hb : s.world.BelowMax serde)
    {now : Nat} {fault : Option IoFault}
    (hu : s.Undisturbed serde reports config details worker (.promote now fault)) :
    (s.next serde reports config details worker (.promote now fault)).Inv reports config details serde
      worker := by
  obtain ⟨hu, -⟩ := hu
  rw [next] at hu ⊢
  split at hu
  swap
  · exact h
  rename_i scan record champion report seen hphase
  split at hu
  · exact h
  rename_i answer hanswer
  obtain ⟨state, hm, hfinds, -⟩ := h.scan scan _ hphase
  have hne : promotionInput worker record seen now fault ≠ (worker, .close) := by
    intro he
    cases (Prod.mk.inj he).2
  obtain ⟨fresh, hfresh, -⟩ := h.world.coherent.memory_next hb hm hne
  have hsame := hu state hm fresh hfresh
  rw [hphase] at hsame
  have hrest : scan.Finds config fresh := hfinds.frame hsame
  refine ⟨h.world.next hb _, fun after step hscanning => ⟨fresh, hfresh, ?_⟩⟩
  -- The scan goes on with the records that were left, or it ends.
  simp only [Scan.afterPromotion] at hscanning
  split at hscanning
  · cases hscanning
    exact ⟨hrest, trivial⟩
  · cases hscanning
    exact ⟨hrest, trivial⟩
  · cases hscanning

theorem Inv.next (h : s.Inv reports config details serde worker) (hb : s.world.BelowMax serde)
    (hu : s.Undisturbed serde reports config details worker action) :
    (s.next serde reports config details worker action).Inv reports config details serde worker := by
  cases action with
  | registry process step => exact h.next_registry hb hu
  | storeEvaluation process modelId bytes fault => exact h.next_storeEvaluation hu
  | takeRecords now => exact h.next_takeRecords now
  | read => exact h.next_read
  | promote now fault => exact h.next_promote hb hu

/-- A promotion is decided on the durable index, and on the copy that its revision was read from. -/
theorem Inv.promotes (h : s.Inv reports config details serde worker) {now : Nat} {modelId : String}
    {fresh : RegistryState} (hp : s.promotes serde worker action = some (now, modelId, fresh)) :
    durable serde s.world.disk = some fresh.file ∧
      config.eligible serde reports details s.world.disk now fresh modelId = true := by
  cases action with
  | promote clock fault =>
    rw [ScanWorld.promotes] at hp
    split at hp
    swap
    · cases hp
    rename_i scan record champion report seen maxBytes state hphase hprocess
    split at hp
    · cases hp
    rename_i adopted refreshed hrefreshed
    split at hp
    swap
    · cases hp
    rename_i written answer hdecision
    cases hp
    obtain ⟨found, hm, -, hchampion, hreport, hseen⟩ := h.scan scan _ hphase
    obtain rfl : state = found := by
      rw [hprocess] at hm
      exact Option.some.inj hm
    obtain ⟨-, -, -, hrevision, -⟩ := promoteDecision_ok hdecision
    have hstep : InStep (fun copy : RegistryState => copy.file.revision) fresh seen := by
      rcases refreshLocked_memory hrefreshed with rfl | hlt
      · exact hseen
      · exact hseen.advance hlt
    obtain rfl : seen = fresh := hstep.eq hrevision.symm
    exact ⟨h.world.coherent.fresh hprocess hrefreshed, hchampion.eligible hreport⟩
  | _ => cases hp

/-- The steps of a run in which the revision is enough: it can grow, and nothing that the scan has read
changes before the revision is read. -/
abbrev Orderly (serde : Serde Bytes) (reports : StoredReports Bytes F) (config : CanaryScanConfig F)
    (details : ElmArtifact → ModelDetails F) (worker : Nat) (s : ScanWorld Bytes F)
    (action : ScanAction Bytes) : Prop :=
  s.world.BelowMax serde ∧ s.Undisturbed serde reports config details worker action

/-- In an orderly run every promotion to canary is decided on the durable index, at a revision at which
all checks of the scan hold. -/
theorem canary_promotions_checked {actions : List (ScanAction Bytes)}
    (h : Along (next serde reports config details worker) (Orderly serde reports config details worker)
      start actions) (before after : List (ScanAction Bytes)) (action : ScanAction Bytes)
    (ha : actions = before ++ action :: after) (now : Nat) (modelId : String) (state : RegistryState) :
    let s := run (next serde reports config details worker) start before
    s.promotes serde worker action = some (now, modelId, state) →
      durable serde s.world.disk = some state.file ∧
        config.eligible serde reports details s.world.disk now state modelId = true := by
  intro s hp
  subst ha
  have hinv : s.Inv reports config details serde worker :=
    run_invariant (next serde reports config details worker)
      (fun s action hs hg => Inv.next hs hg.1 hg.2) inv_start ((along_append _).mp h).1
  exact hinv.promotes hp

section Sample

/-- The plain codec, in a directory that also holds reports of the scan. -/
def scanSerde : Serde (StoredFile ⊕ StoredReport ℚ) where
  len _ := 1
  sha256Hex
    | .inl file => plainSerde.sha256Hex file
    | .inr stored => stored.report.remainder
  registryToVec file := .ok (.inl (.index file))
  registryFromSlice
    | .inl file => plainSerde.registryFromSlice file
    | .inr _ => .error "missing field revision"
  artifactToVec artifact := .ok (.inl (.artifact artifact))
  artifactFromSlice
    | .inl file => plainSerde.artifactFromSlice file
    | .inr _ => .error "missing field format_version"
  registry_round_trip h := by cases h; rfl
  artifact_round_trip hw hl := by cases hw; cases hl; exact ⟨rfl, rfl, rfl⟩

def scanReports : StoredReports (StoredFile ⊕ StoredReport ℚ) ℚ where
  fromSlice := Sum.getRight?
  toVec stored := some (.inr stored)

/-- Two tasks, whose models may go to canary after fifty seconds in shadow. -/
def scanConfig : CanaryScanConfig ℚ where
  elm :=
    { mode := .auto
      tasks := ["first", "second"].foldl (fun tasks task => tasks.insert task
        { mode := none, maxStage := .canary, promotionPolicy := "edge", allowed := true
          rolloutFraction := 1 / 10, influenceCap := 1 / 10 }) ∅
      promotionPolicies := (∅ : Std.TreeMap String (PromotionPolicy ℚ)).insert "edge" edgePolicy
      automaticRollback := true
      trading := { allowLiveInfluence := false, maximumInfluence := 0 }
      maximumFeatureAgeSeconds := 60 }
  automaticPromotion := true
  minimumDwellSeconds := 50
  liveExecution := false

def scanDetails (_ : ElmArtifact) : ModelDetails ℚ where
  taskKind := .regression
  targetUnits := ["bps"]
  expiryUnixSeconds := none
  trainingCutoff := 0
  preprocessor := { means := [0], scales := [1] }
  calibration := none

/-- A report that qualifies the model of a task. -/
def scanReport (modelId task : String) : StoredReport ℚ where
  report := { (edgeResult task).report with qualified := true, reportSha256 := "r" }
  taskId := task
  datasetDigest := (plainArtifact modelId task "s" false).metadata.datasetDigest

/-- Two processes, and two models that went to shadow at time zero with their reports. -/
def twoShadows : List (ScanAction (StoredFile ⊕ StoredReport ℚ)) :=
  (openRegistry 0 ++ openRegistry 1 ++ enterShadow 0 (plainArtifact "a" "first" "s" false) 0 ++
    enterShadow 0 (plainArtifact "b" "second" "s" false) 4).map (fun input => .registry input.1 input.2) ++
  [.storeEvaluation 0 "a" (.inr (scanReport "a" "first")) none,
    .storeEvaluation 0 "b" (.inr (scanReport "b" "second")) none]

/-- Everything that the scan of the first process does for a model before its promotion. -/
def modelReads : List (ScanAction (StoredFile ⊕ StoredReport ℚ)) := [.read, .read, .read, .read]

abbrev sampleNext : ScanWorld (StoredFile ⊕ StoredReport ℚ) ℚ →
    ScanAction (StoredFile ⊕ StoredReport ℚ) → ScanWorld (StoredFile ⊕ StoredReport ℚ) ℚ :=
  next scanSerde scanReports scanConfig scanDetails 0

/-- A scan that takes the first model to canary, and has read the second. -/
def quietScan : List (ScanAction (StoredFile ⊕ StoredReport ℚ)) :=
  twoShadows ++ [.takeRecords 100] ++ modelReads ++ [.promote 100 none] ++ modelReads

/-- The second promotion of the scan is one of the theorem. -/
theorem canary_promotions_checked_quiet :
    ∃ state : RegistryState,
      (run sampleNext start quietScan).promotes scanSerde 0 (.promote 100 none) = some (100, "b", state) ∧
        durable scanSerde (run sampleNext start quietScan).world.disk = some state.file ∧
        scanConfig.eligible scanSerde scanReports scanDetails
          (run sampleNext start quietScan).world.disk 100 state "b" = true := by
  have hp : ((run sampleNext start quietScan).promotes scanSerde 0 (.promote 100 none)).map
      (fun found => (found.1, found.2.1)) = some (100, "b") := by
    decide +kernel
  obtain ⟨⟨now, modelId, state⟩, hp, hfound⟩ := Option.map_eq_some_iff.mp hp
  cases hfound
  have hquiet : Along sampleNext (Orderly scanSerde scanReports scanConfig scanDetails 0) start
      (quietScan ++ [.promote 100 none]) := by
    decide +kernel
  exact ⟨state, hp, canary_promotions_checked hquiet quietScan [] _ rfl 100 "b" state hp⟩

/-- While the promotion of the first model is still to come, the other process takes the second model to
active and back to shadow, and so its dwell starts again. -/
def disturbedScan : List (ScanAction (StoredFile ⊕ StoredReport ℚ)) :=
  twoShadows ++ [.takeRecords 100] ++ modelReads ++
    [.registry 1 (.call (.promote "b" .active 8 "trial" none) 99),
      .registry 1 (.call (.promote "b" .shadow 9 "trial ended" none) 99), .promote 100 none] ++ modelReads

/-- The promotion of the first model conflicts, and so the copy is refreshed. The second is then
promoted one second into its dwell of fifty: its record is the old one, its revision the new one. -/
theorem canary_promoted_within_dwell :
    ((run sampleNext start disturbedScan).promotes scanSerde 0 (.promote 100 none)).map (fun found =>
        (found.1, found.2.1, (found.2.2.record "b").map (fun record => (record.stage, record.updatedAt)),
          scanConfig.eligible scanSerde scanReports scanDetails
            (run sampleNext start disturbedScan).world.disk found.1 found.2.2 found.2.1)) =
      some (100, "b", some (.shadow, 99), false) := by
  decide +kernel

end Sample

end ScanWorld

end Gail.Elm
