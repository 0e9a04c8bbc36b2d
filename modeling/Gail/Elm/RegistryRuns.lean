import Gail.Elm.RegistryInvariant
import Gail.Elm.RegistryProcesses

/-! Runs of the processes over one directory. Below the largest revision every copy is in step with the durable index, so
each write starts from it and the index only grows. The stages a record goes through over a run, whoever moves it: a
promotion, the demotion of the champion it replaces, an exhausted canary budget or a rollback. -/
namespace Gail.Elm
open Gail.Library
variable {Bytes : Type} {serde : Serde Bytes} {maxBytes now : Nat}

section Readers
variable {disk after : Disk Bytes} {state fresh : RegistryState} {file : RegistryFile}

theorem durable_congr (h : after indexPath = disk indexPath) :
    durable serde after = durable serde disk := by
  simp only [durable, h]

theorem durable_of_read (h : readRegistryFile serde disk maxBytes = .ok file) :
    durable serde disk = some file := by
  unfold readRegistryFile at h
  unfold durable
  cases hd : disk indexPath with
  | none => rw [hd] at h; cases h; rfl
  | some bytes =>
    rw [hd] at h
    dsimp only at h ⊢
    split at h
    · cases h
    · cases hp : serde.registryFromSlice bytes with
      | error error => rw [hp] at h; cases h
      | ok found => rw [hp] at h; cases h; rfl

theorem adoptFresh_ok {adopted : Bool} {found : RegistryFile}
    (h : adoptFresh serde maxBytes disk state found = .ok (adopted, fresh)) :
    (found.revision ≤ state.file.revision ∧ adopted = false ∧ fresh = state) ∨
      (state.file.revision < found.revision ∧ adopted = true ∧ fresh.file = found ∧
        loadChampions serde disk found maxBytes = .ok fresh.champions) := by
  unfold adoptFresh at h
  by_cases hr : found.revision ≤ state.file.revision
  · rw [if_pos hr] at h
    cases h
    exact .inl ⟨hr, rfl, rfl⟩
  · rw [if_neg hr] at h
    cases hl : loadChampions serde disk found maxBytes with
    | error error => rw [hl] at h; cases h
    | ok champions =>
      rw [hl] at h
      cases h
      exact .inr ⟨not_le.mp hr, rfl, rfl, rfl⟩

theorem refreshLocked_ok {adopted : Bool}
    (h : refreshLocked serde maxBytes disk state = .ok (adopted, fresh)) :
    ∃ found, durable serde disk = some found ∧
      adoptFresh serde maxBytes disk state found = .ok (adopted, fresh) := by
  unfold refreshLocked at h
  cases hr : readRegistryFile serde disk maxBytes with
  | error error => rw [hr] at h; cases h
  | ok found => rw [hr] at h; exact ⟨found, durable_of_read hr, h⟩

theorem refreshLocked_of_not_adopted
    (h : (refreshLocked serde maxBytes disk state).toOption.map Prod.fst = some false) :
    refreshLocked serde maxBytes disk state = .ok (false, state) := by
  cases hr : refreshLocked serde maxBytes disk state with
  | error error => rw [hr] at h; cases h
  | ok refreshed =>
    obtain ⟨adopted, fresh⟩ := refreshed
    rw [hr] at h
    cases h
    obtain ⟨found, -, ha⟩ := refreshLocked_ok hr
    rcases adoptFresh_ok ha with ⟨-, -, rfl⟩ | ⟨-, he, -⟩
    · rfl
    · cases he

/-- A refresh leaves the old copy or the durable one. -/
theorem refreshLocked_file {adopted : Bool}
    (h : refreshLocked serde maxBytes disk state = .ok (adopted, fresh)) :
    fresh.file = state.file ∨ durable serde disk = some fresh.file := by
  obtain ⟨found, hd, ha⟩ := refreshLocked_ok h
  rcases adoptFresh_ok ha with ⟨-, -, rfl⟩ | ⟨-, -, he, -⟩
  · exact .inl rfl
  · exact .inr (he ▸ hd)

/-- A copy in step with the durable index is replaced by it. -/
theorem refreshLocked_current {adopted : Bool}
    (h : refreshLocked serde maxBytes disk state = .ok (adopted, fresh))
    (hd : durable serde disk = some file)
    (hs : InStep RegistryFile.revision file state.file) : fresh.file = file := by
  obtain ⟨found, hd', ha⟩ := refreshLocked_ok h
  cases Option.some.inj (hd.symm.trans hd')
  rcases adoptFresh_ok ha with ⟨hle, -, rfl⟩ | ⟨-, -, he, -⟩
  · exact hs.current hle
  · exact he

theorem Call.Replaces.durable {call : Call} {next : RegistryState} {answer : Answer}
    (h : call.Replaces serde maxBytes now disk fresh next answer after) :
    durable serde after = some next.file := by
  obtain ⟨bytes, hv, rfl⟩ := h.written
  simp [Elm.durable, serde.registry_round_trip hv, Except.toOption]

/-- A call leaves the index alone, or replaces it and then adopts the new state or fails. -/
theorem Call.Effect.kept_or_replaced {call : Call} {reply : Reply Bytes Answer}
    (h : call.Effect serde maxBytes now disk state reply) :
    (reply.disk indexPath = disk indexPath ∧ (reply.state = state ∨
      ∃ adopted, refreshLocked serde maxBytes disk state = .ok (adopted, reply.state))) ∨
    ∃ adopted fresh next answer, call.precheck serde maxBytes = none ∧
      refreshLocked serde maxBytes disk state = .ok (adopted, fresh) ∧
      call.Replaces serde maxBytes now disk fresh next answer reply.disk ∧
      ((reply.state = next ∧ reply.result = .ok answer) ∨
        (reply.state = fresh ∧ ∃ error, reply.result = .error error)) := by
  cases h with
  | early result h => exact .inl ⟨rfl, .inl rfl⟩
  | unread error hp h => exact .inl ⟨rfl, .inl rfl⟩
  | refused adopted fresh error hp hr h => exact .inl ⟨rfl, .inr ⟨adopted, hr⟩⟩
  | kept adopted fresh answer hp hr h => exact .inl ⟨rfl, .inr ⟨adopted, hr⟩⟩
  | halted adopted fresh next answer error hp hr h =>
    exact .inl ⟨call.store_index disk, .inr ⟨adopted, hr⟩⟩
  | interrupted adopted fresh next answer fault after hp hr h hf hs =>
    exact .inr ⟨adopted, fresh, next, answer, hp, hr, h, .inr ⟨rfl, _, rfl⟩⟩
  | written adopted fresh next answer after hp hr h =>
    exact .inr ⟨adopted, fresh, next, answer, hp, hr, h, .inl ⟨rfl, rfl⟩⟩

end Readers

section Steps
variable (serde)

/-- Everything one step of a process can do. -/
inductive Process.Steps (disk : Disk Bytes) :
    Process → Action → Process → Disk Bytes → Option (Except ElmError Answer) → Prop where
  | stays (process : Process) (action : Action) : Steps disk process action process disk none
  | closes (process : Process) (action : Action) : Steps disk process action .closed disk none
  | opens (maxBytes : Nat) (file : RegistryFile)
      (h : readRegistryFile serde disk maxBytes = .ok file) :
      Steps disk .closed (.startOpen maxBytes) (.opening maxBytes file) disk none
  | opened (maxBytes : Nat) (file : RegistryFile) (champions : Champions)
      (h : restoreChampions serde disk file maxBytes = .ok champions) :
      Steps disk (.opening maxBytes file) .finishOpen (.idle maxBytes { file, champions }) disk none
  | refreshes (maxBytes : Nat) (state : RegistryState) (fresh : RegistryFile)
      (h : readRegistryFile serde disk maxBytes = .ok fresh) :
      Steps disk (.idle maxBytes state) .startRefresh (.refreshing maxBytes state fresh) disk none
  | abandoned (maxBytes : Nat) (state : RegistryState) (fresh : RegistryFile) :
      Steps disk (.refreshing maxBytes state fresh) .finishRefresh (.idle maxBytes state) disk none
  | refreshed (maxBytes : Nat) (state next : RegistryState) (fresh : RegistryFile) (adopted : Bool)
      (h : adoptFresh serde maxBytes disk state fresh = .ok (adopted, next)) :
      Steps disk (.refreshing maxBytes state fresh) .finishRefresh (.idle maxBytes next) disk none
  | called (maxBytes : Nat) (state : RegistryState) (call : Call) (now : Nat) :
      Steps disk (.idle maxBytes state) (.call call now)
        (.idle maxBytes (call.perform serde maxBytes now disk state).state)
        (call.perform serde maxBytes now disk state).disk
        (some (call.perform serde maxBytes now disk state).result)

theorem Process.step_steps (disk : Disk Bytes) (process : Process) (action : Action) :
    Process.Steps serde disk process action (process.step serde disk action).1
      (process.step serde disk action).2.1 (process.step serde disk action).2.2 := by
  cases action with
  | startOpen maxBytes =>
    cases process with
    | closed =>
      simp only [step]
      cases h : readRegistryFile serde disk maxBytes with
      | error error => exact .stays ..
      | ok file => exact .opens maxBytes file h
    | _ => exact .stays ..
  | finishOpen =>
    cases process with
    | opening maxBytes file =>
      simp only [step]
      cases h : restoreChampions serde disk file maxBytes with
      | error error => exact .closes ..
      | ok champions => exact .opened maxBytes file champions h
    | _ => exact .stays ..
  | close => exact .closes ..
  | startRefresh =>
    cases process with
    | idle maxBytes state =>
      simp only [step]
      cases h : readRegistryFile serde disk maxBytes with
      | error error => exact .stays ..
      | ok fresh => exact .refreshes maxBytes state fresh h
    | _ => exact .stays ..
  | finishRefresh =>
    cases process with
    | refreshing maxBytes state fresh =>
      simp only [step]
      cases h : adoptFresh serde maxBytes disk state fresh with
      | error error => exact .abandoned ..
      | ok adopted => exact .refreshed maxBytes state adopted.2 fresh adopted.1 h
    | _ => exact .stays ..
  | call call now =>
    cases process with
    | idle maxBytes state => exact .called maxBytes state call now
    | _ => exact .stays ..

end Steps

section Seen

/-- An index in the directory or in the memory of a process. -/
def World.Sees (serde : Serde Bytes) (w : World Bytes) (file : RegistryFile) : Prop :=
  durable serde w.disk = some file ∨ ∃ p, (w.process p).Holds file

/-- A step that is no call changes no file, and what it copies is the index. -/
theorem Process.Steps.quiet_or_called {disk after : Disk Bytes} {process next : Process}
    {action : Action} {answer : Option (Except ElmError Answer)}
    (h : Process.Steps serde disk process action next after answer) :
    (after = disk ∧ answer = none ∧
      ∀ file, next.Holds file → process.Holds file ∨ durable serde disk = some file) ∨
    ∃ maxBytes state call now, process = .idle maxBytes state ∧ action = .call call now ∧
      next = .idle maxBytes (call.perform serde maxBytes now disk state).state ∧
      after = (call.perform serde maxBytes now disk state).disk ∧
      answer = some (call.perform serde maxBytes now disk state).result := by
  cases h with
  | stays => exact .inl ⟨rfl, rfl, fun file hf => .inl hf⟩
  | closes => exact .inl ⟨rfl, rfl, fun file hf => nomatch hf⟩
  | opens maxBytes found h =>
    refine .inl ⟨rfl, rfl, ?_⟩
    intro file hf
    cases hf
    exact .inr (durable_of_read h)
  | opened maxBytes found champions h =>
    refine .inl ⟨rfl, rfl, ?_⟩
    intro file hf
    cases hf
    exact .inl (.opening ..)
  | refreshes maxBytes state fresh h =>
    refine .inl ⟨rfl, rfl, ?_⟩
    intro file hf
    cases hf with
    | refreshing => exact .inl (.idle ..)
    | fresh => exact .inr (durable_of_read h)
  | abandoned maxBytes state fresh =>
    refine .inl ⟨rfl, rfl, ?_⟩
    intro file hf
    cases hf
    exact .inl (.refreshing ..)
  | refreshed maxBytes state written fresh adopted h =>
    refine .inl ⟨rfl, rfl, ?_⟩
    intro file hf
    cases hf
    rcases adoptFresh_ok h with ⟨-, -, rfl⟩ | ⟨-, -, he, -⟩
    · exact .inl (.refreshing ..)
    · exact .inl (he ▸ .fresh ..)
  | called maxBytes state call now =>
    exact .inr ⟨maxBytes, state, call, now, rfl, rfl, rfl, rfl, rfl⟩

/-- A step leaves the index alone and copies nothing but the index, or a call replaces the index by
one that it writes from its refreshed state. -/
theorem Process.Steps.index {disk after : Disk Bytes} {process next : Process} {action : Action}
    {answer : Option (Except ElmError Answer)}
    (h : Process.Steps serde disk process action next after answer) :
    (after indexPath = disk indexPath ∧
      ∀ file, next.Holds file → process.Holds file ∨ durable serde disk = some file) ∨
      ∃ maxBytes state fresh written, process = .idle maxBytes state ∧
        (∃ adopted, refreshLocked serde maxBytes disk state = .ok (adopted, fresh)) ∧
        Writes serde maxBytes disk fresh written ∧ durable serde after = some written.file ∧
        ∀ file, next.Holds file → file = written.file ∨ file = fresh.file := by
  rcases h.quiet_or_called with ⟨rfl, -, hk⟩ | ⟨maxBytes, state, call, now, rfl, -, rfl, rfl, -⟩
  · exact .inl ⟨rfl, hk⟩
  rcases (call.effect serde maxBytes now disk state).kept_or_replaced with
    ⟨hi, hm⟩ | ⟨adopted, fresh, written, granted, -, hr, hw, hm⟩
  · refine .inl ⟨hi, ?_⟩
    intro file hf
    cases hf
    rcases hm with he | ⟨adopted, hr⟩
    · rw [he]; exact .inl (.idle ..)
    · rcases refreshLocked_file hr with he | hd
      · rw [he]; exact .inl (.idle ..)
      · exact .inr hd
  · refine .inr ⟨maxBytes, state, fresh, written, rfl, ⟨adopted, hr⟩, Call.writes hw.decided,
      hw.durable, ?_⟩
    intro file hf
    cases hf
    rcases hm with ⟨he, -⟩ | ⟨he, -⟩
    · exact .inl (congrArg RegistryState.file he)
    · exact .inr (congrArg RegistryState.file he)

variable (serde) in
theorem World.next_steps (w : World Bytes) (input : Nat × Action) :
    ∃ process, Process.Steps serde w.disk (w.process input.1) input.2 process
      (w.next serde input).disk (w.answer serde input) ∧
      (w.next serde input).process = Function.update w.process input.1 process :=
  ⟨_, Process.step_steps serde w.disk (w.process input.1) input.2, rfl⟩

variable (serde) in
/-- What a step of one process does to the index and to the copies that all of them hold. -/
theorem World.next_index (w : World Bytes) (input : Nat × Action) :
    ((w.next serde input).disk indexPath = w.disk indexPath ∧
      ∀ q copy, ((w.next serde input).process q).Holds copy →
        (w.process q).Holds copy ∨ durable serde w.disk = some copy) ∨
    ∃ maxBytes state fresh written, w.process input.1 = .idle maxBytes state ∧
      (∃ adopted, refreshLocked serde maxBytes w.disk state = .ok (adopted, fresh)) ∧
      Writes serde maxBytes w.disk fresh written ∧
      durable serde (w.next serde input).disk = some written.file ∧
      ∀ q copy, ((w.next serde input).process q).Holds copy →
        (w.process q).Holds copy ∨ q = input.1 ∧ (copy = written.file ∨ copy = fresh.file) := by
  obtain ⟨process, hs, hp⟩ := w.next_steps serde input
  rcases hs.index with ⟨hi, hk⟩ | ⟨maxBytes, state, fresh, written, hi, hr, hw, hn, hk⟩
  · refine .inl ⟨hi, ?_⟩
    intro q copy hq
    rw [hp] at hq
    by_cases hqp : q = input.1
    · subst hqp
      rw [Function.update_self] at hq
      exact hk copy hq
    · rw [Function.update_of_ne hqp] at hq
      exact .inl hq
  · refine .inr ⟨maxBytes, state, fresh, written, hi, hr, hw, hn, ?_⟩
    intro q copy hq
    rw [hp] at hq
    by_cases hqp : q = input.1
    · subst hqp
      rw [Function.update_self] at hq
      exact .inr ⟨rfl, hk copy hq⟩
    · rw [Function.update_of_ne hqp] at hq
      exact .inl hq

/-- An index seen after a step was seen before, or was written from one that was. -/
theorem World.sees_next {w : World Bytes} {input : Nat × Action} {file : RegistryFile}
    (h : (w.next serde input).Sees serde file) :
    w.Sees serde file ∨ ∃ maxBytes state written, w.Sees serde state.file ∧
      Writes serde maxBytes w.disk state written ∧ written.file = file := by
  rcases w.next_index serde input with
    ⟨hi, hk⟩ | ⟨maxBytes, state, fresh, written, hi, ⟨adopted, hr⟩, hw, hn, hk⟩
  · rcases h with hd | ⟨q, hq⟩
    · exact .inl (.inl (durable_congr hi ▸ hd))
    · exact .inl ((hk q file hq).elim (fun hh => .inr ⟨q, hh⟩) .inl)
  · have hfresh : w.Sees serde fresh.file := by
      rcases refreshLocked_file hr with he | hd
      · exact .inr ⟨input.1, by rw [hi, he]; exact .idle ..⟩
      · exact .inl hd
    have hwritten : written.file = file → w.Sees serde file ∨ ∃ maxBytes state written,
        w.Sees serde state.file ∧ Writes serde maxBytes w.disk state written ∧
          written.file = file := fun he => .inr ⟨maxBytes, fresh, written, hfresh, hw, he⟩
    rcases h with hd | ⟨q, hq⟩
    · exact hwritten (Option.some.inj (hn.symm.trans hd))
    · rcases hk q file hq with hh | ⟨-, he | he⟩
      · exact .inl (.inr ⟨q, hh⟩)
      · exact hwritten he.symm
      · exact .inl (he ▸ hfresh)

/-- What every write keeps holds of every index that is ever seen. -/
theorem World.run_sees {P : RegistryFile → Prop}
    (hP : ∀ maxBytes disk state written, Writes serde maxBytes disk state written →
      P state.file → P written.file) {w : World Bytes} (inputs : List (Nat × Action))
    (h : ∀ file, w.Sees serde file → P file) :
    ∀ file, (run (World.next serde) w inputs).Sees serde file → P file := by
  induction inputs generalizing w with
  | nil => exact h
  | cons input inputs ih =>
    apply ih
    intro file hf
    rcases World.sees_next hf with hs | ⟨maxBytes, state, written, hs, hw, rfl⟩
    · exact h file hs
    · exact hP maxBytes w.disk state written hw (h state.file hs)

theorem World.sees_start {disk : Disk Bytes} {file : RegistryFile} :
    (World.start disk).Sees serde file ↔ durable serde disk = some file := by
  refine ⟨?_, .inl⟩
  rintro (h | ⟨p, hp⟩)
  · exact h
  · cases hp

/-- A world reached by any processes from a directory whose index is well formed. -/
def World.Reachable (serde : Serde Bytes) (w : World Bytes) : Prop :=
  ∃ disk inputs, (∀ file, durable serde disk = some file → file.WellFormed) ∧
    w = run (World.next serde) (World.start disk) inputs

theorem World.Reachable.wellFormed {w : World Bytes} (h : w.Reachable serde) :
    ∀ file, w.Sees serde file → file.WellFormed := by
  obtain ⟨disk, inputs, hdisk, rfl⟩ := h
  refine World.run_sees (fun _ _ _ _ hw hi => hw.wellFormed hi) inputs ?_
  intro file hf
  exact hdisk file (World.sees_start.mp hf)

/-- A run of the plain codec over a directory that starts empty. -/
def plainWorld (inputs : List (Nat × Action)) : World StoredFile :=
  run (World.next plainSerde) World.empty inputs

/-- What the first process holds after such a run. -/
def plainMemory (inputs : List (Nat × Action)) : RegistryState :=
  ((plainWorld inputs).process 0).memory.getD {}

theorem plainWorld_reachable (inputs : List (Nat × Action)) :
    (plainWorld inputs).Reachable plainSerde := by
  refine ⟨fun _ => none, inputs, ?_, rfl⟩
  intro file hf
  cases hf
  exact RegistryFile.wellFormed_empty

end Seen

section Coherence
variable {w : World Bytes} {file : RegistryFile}

/-- The durable revision can still grow. -/
def World.BelowMax (serde : Serde Bytes) (w : World Bytes) : Prop :=
  ∀ file, durable serde w.disk = some file → file.revision < u64Max

instance (w : World Bytes) : Decidable (w.BelowMax serde) :=
  match h : durable serde w.disk with
  | none => isTrue (by intro file hf; rw [h] at hf; cases hf)
  | some found => decidable_of_iff (found.revision < u64Max) (by simp [World.BelowMax, h])

/-- Every copy a process holds is the durable index or an older one. -/
def World.Coherent (serde : Serde Bytes) (w : World Bytes) : Prop :=
  ∀ p copy, (w.process p).Holds copy →
    ∃ file, durable serde w.disk = some file ∧ InStep RegistryFile.revision file copy

variable (serde) in
theorem World.coherent_start (disk : Disk Bytes) : (World.start disk).Coherent serde :=
  fun _ _ h => nomatch h

/-- While copies are in step, a call that writes starts from the durable index. -/
theorem World.Coherent.fresh (h : w.Coherent serde) {p : Nat} {state fresh : RegistryState}
    {adopted : Bool} (hp : w.process p = .idle maxBytes state)
    (hr : refreshLocked serde maxBytes w.disk state = .ok (adopted, fresh)) :
    durable serde w.disk = some fresh.file := by
  obtain ⟨file, hd, hs⟩ := h p state.file (hp ▸ .idle maxBytes state)
  rw [refreshLocked_current hr hd hs, hd]

/-- The durable index after a step: the old one, or one written from it. -/
theorem World.Coherent.durable_next (h : w.Coherent serde) (input : Nat × Action)
    (hd : durable serde w.disk = some file) :
    durable serde (w.next serde input).disk = some file ∨
      ∃ maxBytes state written, state.file = file ∧ Writes serde maxBytes w.disk state written ∧
        durable serde (w.next serde input).disk = some written.file := by
  rcases w.next_index serde input with
    ⟨hi, -⟩ | ⟨maxBytes, state, fresh, written, hi, ⟨adopted, hr⟩, hw, hn, -⟩
  · exact .inl ((durable_congr hi).trans hd)
  · exact .inr ⟨maxBytes, fresh, written, Option.some.inj ((h.fresh hi hr).symm.trans hd), hw, hn⟩

/-- Below the largest revision a write takes every other copy behind the index. -/
theorem World.Coherent.next (h : w.Coherent serde) (hb : w.BelowMax serde)
    (input : Nat × Action) : (w.next serde input).Coherent serde := by
  intro q copy hq
  rcases w.next_index serde input with
    ⟨hi, hk⟩ | ⟨maxBytes, state, fresh, written, hi, ⟨adopted, hr⟩, hw, hn, hk⟩
  · rw [durable_congr hi]
    rcases hk q copy hq with hh | hd
    · exact h q copy hh
    · exact ⟨copy, hd, .refl _ copy⟩
  · have hd := h.fresh hi hr
    have hlt : fresh.file.revision < written.file.revision := by
      rw [hw.revision, saturatingSucc_of_lt (hb _ hd)]
      omega
    refine ⟨written.file, hn, ?_⟩
    rcases hk q copy hq with hh | ⟨-, rfl | rfl⟩
    · obtain ⟨old, hold, hstep⟩ := h q copy hh
      cases Option.some.inj (hold.symm.trans hd)
      exact hstep.advance hlt
    · exact .refl _ _
    · exact (InStep.refl _ _).advance hlt

/-- A run in which every step starts below the largest revision. -/
abbrev World.RunsBelow (serde : Serde Bytes) (w : World Bytes) (inputs : List (Nat × Action)) :
    Prop :=
  Along (World.next serde) (fun w _ => w.BelowMax serde) w inputs

theorem World.Coherent.run (h : w.Coherent serde) {inputs : List (Nat × Action)}
    (hb : w.RunsBelow serde inputs) : (run (World.next serde) w inputs).Coherent serde :=
  run_invariant (World.next serde) (fun _ input hc hm => hc.next hm input) h hb

/-- Over a run nothing in the durable index is lost. -/
theorem World.Coherent.extends (h : w.Coherent serde) {inputs : List (Nat × Action)}
    (hb : w.RunsBelow serde inputs) (hd : durable serde w.disk = some file) :
    ∃ last, durable serde (Library.run (World.next serde) w inputs).disk = some last ∧
      file.Extends StagePath last := by
  induction inputs generalizing w file with
  | nil => exact ⟨file, hd, .refl file⟩
  | cons input inputs ih =>
    have hnext := h.next hb.1 input
    rcases h.durable_next input hd with hsame | ⟨maxBytes, state, written, rfl, hw, hn⟩
    · exact ih hnext hb.2 hsame
    · obtain ⟨last, hlast, he⟩ := ih hnext hb.2 hn
      exact ⟨last, hlast, hw.extends.path.trans he⟩

/-- A directory at the largest revision, with one model in canary. -/
def saturatedDisk : Disk StoredFile := fun path =>
  if path = indexPath then
    some (.index
      { revision := u64Max
        records := [{ publishedRecord (plainArtifact "a" "t" "s" false) 4 0 with stage := .canary }]
        championByTask := (∅ : Std.TreeMap String String).insert "t" "a" })
  else if path = artifactPath "a" then some (.artifact (plainArtifact "a" "t" "s" false))
  else none

end Coherence

section Stages
variable {Bytes : Type} {serde : Serde Bytes} {w : World Bytes} {input : Nat × Action}

/-- One step moves every record along at most one edge, and new records enter as trained. -/
theorem World.Coherent.stages_next (h : w.Coherent serde) {file next : RegistryFile}
    (hd : durable serde w.disk = some file)
    (hn : durable serde (w.next serde input).disk = some next) :
    Grows (RegistryRecord.Moves StageStep) file.records next.records ∧
      ∀ i record, file.records.length ≤ i → next.records[i]? = some record →
        record.stage = .trained := by
  rcases h.durable_next input hd with hsame | ⟨maxBytes, state, written, rfl, hw, hwritten⟩
  · cases Option.some.inj (hn.symm.trans hsame)
    refine ⟨.refl .refl _, ?_⟩
    intro i record hi hr
    have hlt := (List.getElem?_eq_some_iff.mp hr).1
    omega
  · cases Option.some.inj (hn.symm.trans hwritten)
    exact ⟨hw.extends.records, fun i record hi hr => hw.added hi hr⟩

/-- A withdrawn model is no champion of any later index. -/
theorem RegistryFile.Extends.withdrawn_not_champion {file last : RegistryFile}
    (h : file.Extends StagePath last) (hw : last.WellFormed) {modelId : String}
    {record : RegistryRecord} (hr : file.record modelId = some record)
    (hs : record.stage.isWithdrawn) (task : String) :
    last.championByTask[task]? ≠ some modelId := by
  intro hc
  obtain ⟨index, hp⟩ := RegistryFile.exists_position hr
  obtain ⟨moved, hm, hmoves⟩ := h.position hp
  obtain ⟨found, hfound, hserves⟩ := hw.champion task modelId hc
  cases Option.some.inj (hfound.symm.trans (RegistryFile.record_of_position hm))
  have hserving := (RegistryRecord.servesTask_iff.mp hserves).2.2
  rw [withdrawn_not_serving (withdrawn_of_path hs hmoves.2)] at hserving
  cases hserving

/-- Over any run below the largest revision, from a well-formed directory: stages follow the table,
no fixture serves, and a withdrawn model is never chosen as a champion again. -/
theorem stages_follow_table {disk : Disk Bytes}
    (hdisk : ∀ file, durable serde disk = some file → file.WellFormed)
    {inputs : List (Nat × Action)} (hb : (World.start disk).RunsBelow serde inputs) :
    (∀ before input after, inputs = before ++ input :: after →
      let w := run (World.next serde) (World.start disk) before
      ∀ file next, durable serde w.disk = some file →
        durable serde (w.next serde input).disk = some next →
        (∀ (i : Nat) record, file.records[i]? = some record → ∃ moved,
          next.records[i]? = some moved ∧ record.SameModel moved ∧
            (record.stage = moved.stage ∨ allowedTransition record.stage moved.stage)) ∧
        ∀ (i : Nat) record, file.records.length ≤ i → next.records[i]? = some record →
          record.stage = .trained) ∧
    (∀ file, (run (World.next serde) (World.start disk) inputs).Sees serde file →
      ∀ record ∈ file.records, record.fixtureOnly → record.stage ≠ .qualified ∧
        record.stage ≠ .shadow ∧ record.stage ≠ .canary ∧ record.stage ≠ .active) ∧
    ∀ before after, inputs = before ++ after → ∀ file last,
      durable serde (run (World.next serde) (World.start disk) before).disk = some file →
      durable serde (run (World.next serde) (World.start disk) inputs).disk = some last →
      ∀ modelId record, file.record modelId = some record →
        (record.stage = .rejected ∨ record.stage = .quarantined ∨ record.stage = .retired ∨
          record.stage = .rolledBack) →
        ∀ task : String, last.championByTask[task]? ≠ some modelId := by
  have hstart := World.coherent_start serde disk
  have hwell : ∀ file, (run (World.next serde) (World.start disk) inputs).Sees serde file →
      file.WellFormed :=
    World.Reachable.wellFormed ⟨disk, inputs, hdisk, rfl⟩
  refine ⟨?_, ?_, ?_⟩
  · rintro before input after rfl w file next hd hn
    have hc : w.Coherent serde := hstart.run ((along_append (World.next serde)).mp hb).1
    exact hc.stages_next hd hn
  · intro file hf record hr hfixture
    have hserving := (hwell file hf).fixture record hr hfixture
    refine ⟨?_, ?_, ?_, ?_⟩ <;> rintro hs <;> rw [hs] at hserving <;> cases hserving
  · rintro before after rfl file last hd hlast modelId record hr hs task
    obtain ⟨hbefore, hafter⟩ := (along_append (World.next serde)).mp hb
    obtain ⟨last', hlast', he⟩ := (hstart.run hbefore).extends hafter hd
    rw [run_append] at hlast
    cases Option.some.inj (hlast'.symm.trans hlast)
    have hwithdrawn : record.stage.isWithdrawn := by
      rcases hs with hs | hs | hs | hs <;> rw [hs] <;> rfl
    refine he.withdrawn_not_champion (hwell last (.inl ?_)) hr hwithdrawn task
    rw [run_append]
    exact hlast

/-- One model goes to shadow and is rolled back. -/
def rolledBackRun : List (Nat × Action) :=
  openRegistry 0 ++ enterShadow 0 (plainArtifact "a" "t" "s" false) 0 ++
    [(0, .call (.rollbackChampion "t" "rollback-1" 4 "fault" none) 0)]

private theorem rolledBackRun_below :
    (World.start fun _ => none).RunsBelow plainSerde rolledBackRun := by
  decide +kernel

theorem stages_follow_table_rolledBackRun :
    ∃ last, durable plainSerde (plainWorld rolledBackRun).disk = some last ∧
      ∀ task : String, last.championByTask[task]? ≠ some "a" := by
  have hstage : ((durable plainSerde (plainWorld rolledBackRun).disk).bind fun file =>
      (file.record "a").map RegistryRecord.stage) = some .rolledBack := by decide +kernel
  obtain ⟨last, hd, hr⟩ := Option.bind_eq_some_iff.mp hstage
  obtain ⟨record, hrecord, hs⟩ := Option.map_eq_some_iff.mp hr
  refine ⟨last, hd, ?_⟩
  exact (stages_follow_table (by rintro file hf; cases hf; exact RegistryFile.wellFormed_empty)
    rolledBackRun_below).2.2 rolledBackRun [] (List.append_nil _).symm last last hd hd "a" record
    hrecord (.inr (.inr (.inr hs)))

/-- At the largest revision a stale process brings a rolled back model into service again. -/
theorem rolledBack_returns :
    let opened := run (World.next plainSerde) (World.start saturatedDisk)
      (openRegistry 0 ++ openRegistry 1)
    let rolled := opened.next plainSerde
      (0, .call (.rollbackChampion "t" "rollback-1" u64Max "fault" none) 0)
    let returned := rolled.next plainSerde (1, .call (.claimCanaryDecision "a" 1 none) 0)
    let stage := fun w : World StoredFile => (durable plainSerde w.disk).bind fun file =>
      (file.record "a").map RegistryRecord.stage
    stage rolled = some .rolledBack ∧ stage returned = some .shadow ∧
      ¬ allowedTransition .rolledBack .shadow ∧
      ((durable plainSerde returned.disk).bind fun file => file.championByTask["t"]?) =
        some "a" := by
  decide +kernel

end Stages

end Gail.Elm
