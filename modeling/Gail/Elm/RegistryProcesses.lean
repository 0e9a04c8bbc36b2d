import Gail.Elm.RegistryCalls
import Gail.Elm.RecordList
import Gail.Library.SnapshotStore

/-! Any number of processes over one registry directory. A writer call is one step, since it holds
the writer lock of the directory from its refresh to its commit; opening and refreshing take no
such lock, so reading the index and loading the champions are separate steps. -/
namespace Gail.Elm
open Gail.Library
variable {Bytes : Type}

/-- Where one process stands. -/
inductive Process where
  | closed
  | opening (maxBytes : Nat) (file : RegistryFile)
  | idle (maxBytes : Nat) (state : RegistryState)
  | refreshing (maxBytes : Nat) (state : RegistryState) (fresh : RegistryFile)

structure World (Bytes : Type) where
  disk : Disk Bytes
  process : Nat → Process

inductive Action where
  | startOpen (maxBytes : Nat)
  | finishOpen
  | close
  | startRefresh
  | finishRefresh
  | call (call : Call) (now : Nat)

section Steps
variable (serde : Serde Bytes)

/-- One step of one process: its new phase, the disk, and the answer when it was a call. An action
that does not fit the phase does nothing. -/
def Process.step (disk : Disk Bytes) (process : Process) (action : Action) :
    Process × Disk Bytes × Option (Except ElmError Answer) :=
  match action, process with
  | .startOpen maxBytes, .closed =>
    match readRegistryFile serde disk maxBytes with
    | .error _ => (.closed, disk, none)
    | .ok file => (.opening maxBytes file, disk, none)
  | .finishOpen, .opening maxBytes file =>
    match restoreChampions serde disk file maxBytes with
    | .error _ => (.closed, disk, none)
    | .ok champions => (.idle maxBytes { file, champions }, disk, none)
  | .close, _ => (.closed, disk, none)
  | .startRefresh, .idle maxBytes state =>
    match readRegistryFile serde disk maxBytes with
    | .error _ => (.idle maxBytes state, disk, none)
    | .ok fresh => (.refreshing maxBytes state fresh, disk, none)
  | .finishRefresh, .refreshing maxBytes state fresh =>
    match adoptFresh serde maxBytes disk state fresh with
    | .error _ => (.idle maxBytes state, disk, none)
    | .ok (_, state) => (.idle maxBytes state, disk, none)
  | .call call now, .idle maxBytes state =>
    let reply := call.perform serde maxBytes now disk state
    (.idle maxBytes reply.state, reply.disk, some reply.result)
  | _, _ => (process, disk, none)

/-- The world after a step of the process with the given number. -/
def World.next (w : World Bytes) (input : Nat × Action) : World Bytes :=
  let (process, disk, _) := (w.process input.1).step serde w.disk input.2
  { disk, process := Function.update w.process input.1 process }

/-- The answer of a step, when it is a call that runs. -/
def World.answer (w : World Bytes) (input : Nat × Action) : Option (Except ElmError Answer) :=
  ((w.process input.1).step serde w.disk input.2).2.2

/-- The index as any reader would find it, whatever its size limit. -/
def durable (disk : Disk Bytes) : Option RegistryFile :=
  match disk indexPath with
  | none => some {}
  | some bytes => (serde.registryFromSlice bytes).toOption

end Steps

/-- A directory that no process has opened yet. -/
def World.start (disk : Disk Bytes) : World Bytes := { disk, process := fun _ => .closed }

/-- The world of an empty directory. -/
def World.empty : World Bytes := World.start fun _ => none

/-- The memory of a process that has opened the registry. -/
def Process.memory : Process → Option RegistryState
  | .idle _ state | .refreshing _ state _ => some state
  | _ => none

/-- The size limit of a process that is free for a call. -/
def Process.idleLimit : Process → Option Nat
  | .idle maxBytes _ => some maxBytes
  | _ => none

theorem Process.eq_idle {process : Process} {maxBytes : Nat}
    (h : process.idleLimit = some maxBytes) :
    process = .idle maxBytes (process.memory.getD {}) := by
  cases process with
  | idle limit state => cases h; rfl
  | _ => cases h

/-- Opening the registry, with room for files of one byte. -/
def openRegistry (p : Nat) : List (Nat × Action) := [(p, .startOpen 1), (p, .finishOpen)]

/-- The calls that take a new model to shadow, from a revision on. -/
def enterShadow (p : Nat) (artifact : ElmArtifact) (revision : Nat) : List (Nat × Action) :=
  let modelId := artifact.metadata.modelId
  [(p, .call (.publishCandidate artifact revision {}) 0),
    (p, .call (.markEvaluated modelId (revision + 1) "test evaluation" none) 0),
    (p, .call (.promote modelId .qualified (revision + 2) "test evidence" none) 0),
    (p, .call (.promote modelId .shadow (revision + 3) "shadow" none) 0)]

/-- The index copies a process holds. -/
inductive Process.Holds : Process → RegistryFile → Prop where
  | opening (maxBytes : Nat) (file : RegistryFile) : Holds (.opening maxBytes file) file
  | idle (maxBytes : Nat) (state : RegistryState) : Holds (.idle maxBytes state) state.file
  | refreshing (maxBytes : Nat) (state : RegistryState) (fresh : RegistryFile) :
      Holds (.refreshing maxBytes state fresh) state.file
  | fresh (maxBytes : Nat) (state : RegistryState) (fresh : RegistryFile) :
      Holds (.refreshing maxBytes state fresh) fresh

end Gail.Elm
