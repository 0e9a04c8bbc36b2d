import Gail.Trading.StateRestore

/-! The file of the trading state over runs of persists, crashes and restarts. A persist replaces the file
as a whole; the repair that a restore writes does not. -/
namespace Gail.Trading.Snapshot
open Gail.Library Codec
variable {F Bytes : Type} [Scalar F]

/-- The file, the process and the snapshot that `persist_checked` has made and not renamed yet. -/
structure StateWorld (F Bytes : Type) [Scalar F] where
  file : Option Bytes
  process : Option (TradingState F)
  writing : Option (TradingState F)
  /-- The last snapshot that was renamed into place. -/
  completed : Option (TradingState F)

/-- How the repair ends that a restore writes. -/
inductive RepairWrite where
  | complete
  /-- The file is not opened. -/
  | refused
  /-- The process goes on with the error, or dies. -/
  | cut (written : Nat) (dies : Bool)

inductive StateAction (F : Type) [Scalar F] where
  | start (now : F) (repair : RepairWrite)
  /-- Anything that changes the state in memory. -/
  | change (state : TradingState F)
  /-- `persist_checked` has the lock of the writers and makes its snapshot. -/
  | serialise
  /-- It renames its temporary file, or fails before. -/
  | finish (renamed : Bool)
  | crash

/-- The sizes that a process is started with. -/
structure RingSizes where
  logRingSize : Nat
  tradeRingSize : Nat

namespace StateWorld
variable (serde : SerdeText F Bytes) (sizes : RingSizes)

/-- What a process that starts now has restored, and what it writes back. -/
def restored (now : F) (s : StateWorld F Bytes) : TradingState F × Option Bytes :=
  serde.restore (.new sizes.logRingSize sizes.tradeRingSize) now s.file

def next (s : StateWorld F Bytes) : StateAction F → StateWorld F Bytes
  | .start now repair =>
    match s.process, s.restored serde sizes now with
    | some _, _ => s
    | none, (state, none) => { s with process := some state }
    | none, (state, some written) =>
      match repair with
      | .complete => { s with process := some state, file := some written }
      | .refused => { s with process := some state }
      | .cut length dies =>
        { s with process := if dies then none else some state, file := some (serde.cut length written) }
  | .change state =>
    match s.process with
    | none => s
    | some _ => { s with process := some state }
  | .serialise =>
    match s.writing with
    | none => { s with writing := s.process }
    | some _ => s
  | .finish renamed =>
    match s.writing, renamed with
    | none, _ => s
    | some _, false => { s with writing := none }
    | some snapshot, true =>
      { s with
        writing := none
        file := some (serde.toStringPretty (tradingState.encode snapshot))
        completed := some snapshot }
  | .crash => { s with process := none, writing := none }

def start : StateWorld F Bytes := { file := none, process := none, writing := none, completed := none }

/-- A process that starts now has the durable part of the last completed snapshot, and does not trade as
if it had lost nothing when there is a file that it cannot read. -/
def Restores (s : StateWorld F Bytes) : Prop :=
  ∀ now,
    (∀ snapshot ∈ s.completed, (s.file.bind serde.parse).isSome = true ∧
      (s.restored serde sizes now).1.durablePart = snapshot.durablePart.normalised ∧
      (snapshot.quantMigration.normalize = snapshot.quantMigration →
        (s.restored serde sizes now).1.durablePart = snapshot.durablePart)) ∧
    (∀ bytes ∈ s.file, serde.parse bytes = none →
      ¬ ((s.restored serde sizes now).1.paused = false ∧
        (s.restored serde sizes now).1.inFlightOrderIntents = []))

/-- Only recoverable snapshots go into place, and a repair is written to its end. -/
def Orderly (s : StateWorld F Bytes) : StateAction F → Prop
  | .finish true => ∀ snapshot ∈ s.writing, Recoverable snapshot
  | .start now (.cut _ _) => s.process = none → (s.restored serde sizes now).2 = none
  | _ => True

/-- The file has the durable part of the last snapshot. -/
def Kept (s : StateWorld F Bytes) : Prop :=
  (s.file = none ∧ s.completed = none) ∨
    ∃ snapshot state, s.completed = some snapshot ∧
      s.file = some (serde.toStringPretty (tradingState.encode state)) ∧ Recoverable state ∧
      state.durablePart = snapshot.durablePart

variable {serde sizes} {s : StateWorld F Bytes}

theorem kept_start : (start : StateWorld F Bytes).Kept serde := Or.inl ⟨rfl, rfl⟩

/-- A start that repairs the file leaves the repaired state in it. -/
theorem Kept.next_start (h : s.Kept serde) (now : F) (repair : RepairWrite)
    (ho : s.Orderly serde sizes (.start now repair)) :
    (s.next serde sizes (.start now repair)).Kept serde := by
  rw [next]
  split
  · exact h
  · exact h
  rename_i state written hprocess hrestored
  cases repair with
  | refused => exact h
  | cut length dies =>
    have hnone := ho hprocess
    rw [hrestored] at hnone
    cases hnone
  | complete =>
    rcases h with ⟨hfile, hcompleted⟩ | ⟨snapshot, old, hcompleted, hfile, hold, hdurable⟩
    · -- Without a file there is nothing to repair.
      rw [restored, hfile] at hrestored
      cases hrestored
    · rw [restored, hfile] at hrestored
      have hwritten := serde.restore_repair _ now hold (congrArg Prod.snd hrestored)
      exact Or.inr ⟨snapshot, _, hcompleted, congrArg some hwritten, hold.repaired, hdurable⟩

theorem Kept.next (h : s.Kept serde) (action : StateAction F) (ho : s.Orderly serde sizes action) :
    (s.next serde sizes action).Kept serde := by
  cases action with
  | start now repair => exact h.next_start now repair ho
  | change state =>
    rw [StateWorld.next]
    split <;> exact h
  | serialise =>
    rw [StateWorld.next]
    split <;> exact h
  | finish renamed =>
    cases hwriting : s.writing with
    | none =>
      simp only [StateWorld.next, hwriting]
      exact h
    | some snapshot =>
      cases renamed with
      | false =>
        simp only [StateWorld.next, hwriting]
        exact h
      | true =>
        simp only [StateWorld.next, hwriting]
        exact Or.inr ⟨snapshot, snapshot, rfl, rfl, ho snapshot hwriting, rfl⟩
  | crash => exact h

theorem Kept.restores (h : s.Kept serde) : s.Restores serde sizes := by
  intro now
  rcases h with ⟨hfile, hcompleted⟩ | ⟨snapshot, state, hcompleted, hfile, hstate, hdurable⟩
  · rw [hfile, hcompleted]
    exact ⟨fun _ hs => absurd hs nofun, fun _ hb => absurd hb nofun⟩
  · obtain ⟨hparses, hgives⟩ := (restore_durablePart_iff serde _ state now).mpr hstate
    rw [restored, hfile, hcompleted]
    constructor
    · intro found hfound
      obtain rfl : snapshot = found := Option.some.inj hfound
      have hsame := hgives.trans (congrArg DurablePart.normalised hdurable)
      refine ⟨hparses, hsame, fun hnormal => hsame.trans ?_⟩
      rw [DurablePart.normalised, TradingState.durablePart, hnormal]
    · intro bytes hbytes hfails
      rw [← Option.some.inj hbytes] at hfails
      rw [hfails] at hparses
      cases hparses

/-- In an orderly run, from every state that is reached a restart gives back the last completed snapshot. -/
theorem restart_restores {actions : List (StateAction F)}
    (h : Along (next serde sizes) (Orderly serde sizes) start actions) :
    ∀ before, before <+: actions → (run (next serde sizes) start before).Restores serde sizes := by
  rintro before ⟨after, rfl⟩
  have hstep : ∀ (s : StateWorld F Bytes) action, s.Kept serde → s.Orderly serde sizes action →
      (s.next serde sizes action).Kept serde :=
    fun s action hk ho => hk.next action ho
  exact (run_invariant (next serde sizes) hstep kept_start ((along_append _).mp h).1).restores

section Sample

/-- Texts as what they say, if anything. -/
def plainText : SerdeText NumberOrNaN (Option (Library.Json NumberOrNaN)) where
  toStringPretty := some
  fromStr text := text.filter fun json => json.depth ≤ 127
  cut _ _ := none
  fromStr_toStringPretty json := by simp [Option.filter]

def smallRings : RingSizes := { logRingSize := 10, tradeRingSize := 10 }

/-- An operator has paused the process while an intent is in flight and an order is open, whose amount is
the one that the exchange interface gave. -/
def pausedState (amount : NumberOrNaN) (failures : Nat) : TradingState NumberOrNaN :=
  { TradingState.new 10 10 with
    paused := true
    inFlightOrderIntents :=
      [("buy:binance:BTC/USDT", { authority := "gail", claimedAt := .number 1000, expiresAt := .number 1120 })]
    openPositions :=
      [{ id := "17", exchange := "binance", symbol := "BTC/USDT", side := "buy", orderType := "limit", amount,
         price := none, status := "open", timestamp := none }]
    apiSchema :=
      { adaptiveApiSchema.initial with
        endpoints := [("orders", { adaptiveEndpointSchema.initial with failureCount := failures })] } }

/-- A process that persists a state and stops. -/
def persisting (state : TradingState NumberOrNaN) : List (StateAction NumberOrNaN) :=
  [.start (.number 0) .complete, .change state, .serialise, .finish true, .crash]

abbrev sampleNext := next plainText smallRings

/-- A run with an order of two units, in which a counter is repaired to the end. -/
def repairedRun : List (StateAction NumberOrNaN) :=
  persisting (pausedState (.number 2) saturatedCounter) ++ [.start (.number 9) .complete]

theorem restart_restores_paused :
    (run sampleNext start repairedRun).Restores plainText smallRings :=
  restart_restores (by
    refine ⟨trivial, trivial, trivial, fun snapshot hs => ?_, trivial, trivial, trivial⟩
    obtain rfl : pausedState (.number 2) saturatedCounter = snapshot := Option.some.inj hs
    exact ⟨by decide +kernel, by decide +kernel, by decide +kernel, by decide +kernel, by decide +kernel,
      by decide +kernel, fun _ => rfl⟩) repairedRun List.prefix_rfl

/-- Whether a state is paused, and how many leases it has. -/
def leased (state : TradingState NumberOrNaN) : Bool × Nat := (state.paused, state.inFlightOrderIntents.length)

/-- After the run the last snapshot is paused with a lease, and a restart gives neither back. -/
def Forgets (actions : List (StateAction NumberOrNaN)) : Prop :=
  (run sampleNext start actions).completed.map leased = some (true, 1) ∧
    leased ((run sampleNext start actions).restored plainText smallRings (.number 10)).1 = (false, 0)

/-- A paused process starts unpaused and without its lease: the amount `NaN` was written as null; or the
process died over the repair of a counter. -/
theorem restart_forgets :
    Forgets (persisting (pausedState .nan 0)) ∧
      Forgets (persisting (pausedState (.number 2) saturatedCounter) ++
        [.start (.number 9) (.cut 100 true)]) := by
  refine ⟨⟨?_, ?_⟩, ?_, ?_⟩
  · decide +kernel
  · decide +kernel
  · decide +kernel
  · decide +kernel

end Sample

end StateWorld

end Gail.Trading.Snapshot
