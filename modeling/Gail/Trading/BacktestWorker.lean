import Gail.Library.Run

/-! The worker that replays backtests: the flag and the channel of its requests, the flag of the shared
state that says that a backtest runs, and the loop between them. -/
namespace Gail.Trading
open Gail.Library

/-- Where a call of `BacktestRequests::request` stands. -/
inductive RequestCall where
  | idle
  /-- The flag is set and the channel not yet tried. -/
  | flagged
  /-- The channel took nothing and the flag is not yet reset. -/
  | refused
  | rejected
  /-- It has returned true, when so many replays had been started. -/
  | accepted (replaysBefore : Nat)
  deriving DecidableEq

/-- Where the worker stands in its loop, with the request whose message it took. -/
inductive WorkerPhase where
  | selecting
  | claiming (request : Option Nat)
  | clearing (request : Option Nat) (claimed : Bool)
  | starting
  | replaying
  | finishing (stopped : Bool)
  | recording
  | closing
  | unqueueing
  | releasing
  | exited
  deriving DecidableEq

/-- The worker and what it shares; the last four fields only keep account of a run. -/
structure BacktestWorld where
  queued : Bool
  channel : List Nat
  closed : Bool
  backtestInProgress : Bool
  shutdown : Bool
  phase : WorkerPhase
  call : Nat → RequestCall
  /-- Replays that have been started and have not ended; one that shutdown cancels may go on. -/
  running : Nat
  started : Nat
  /-- Another owner has set the flag of the shared state, and nobody has reset it since. -/
  ownerHolds : Bool
  /-- Requests whose message was taken while another owner held the flag. -/
  heldOff : List Nat

inductive BacktestEvent where
  /-- The compare-exchange of a request, its `try_send`, and its reset of the flag. -/
  | flag (call : Nat)
  | send (call : Nat)
  | unflag (call : Nat)
  | shutdown
  /-- The branches of the worker's two `select!`. A poll may miss what comes after it. -/
  | stop
  | receive
  | tick
  /-- The worker goes on to its next await. -/
  | advance
  /-- The replay returns, fails or panics. -/
  | replayEnds
  /-- Another owner claims the flag of the shared state. -/
  | claimFlag
  /-- `record_backtest`, by a replay or another owner. -/
  | recordBacktest
  deriving DecidableEq

namespace BacktestWorld

def start : BacktestWorld where
  queued := false
  channel := []
  closed := false
  backtestInProgress := false
  shutdown := false
  phase := .selecting
  call := fun _ => .idle
  running := 0
  started := 0
  ownerHolds := false
  heldOff := []

def setCall (s : BacktestWorld) (call : Nat) (phase : RequestCall) : BacktestWorld :=
  { s with call := Function.update s.call call phase }

def flag (s : BacktestWorld) (call : Nat) : BacktestWorld :=
  if s.call call ≠ .idle then s
  else if s.queued then s.setCall call .rejected
  else { s.setCall call .flagged with queued := true }

/-- The channel has room for one message. -/
def send (s : BacktestWorld) (call : Nat) : BacktestWorld :=
  if s.call call ≠ .flagged then s
  else if s.closed || !s.channel.isEmpty then s.setCall call .refused
  else { s.setCall call (.accepted s.started) with channel := [call] }

def unflag (s : BacktestWorld) (call : Nat) : BacktestWorld :=
  if s.call call ≠ .refused then s
  else { s.setCall call .rejected with queued := false }

def stop (s : BacktestWorld) : BacktestWorld :=
  if !s.shutdown then s
  else
    match s.phase with
    | .selecting => { s with phase := .closing }
    | .replaying => { s with phase := .finishing true }
    | _ => s

def receive (s : BacktestWorld) : BacktestWorld :=
  match s.phase, s.channel with
  | .selecting, call :: channel => { s with channel, phase := .claiming (some call) }
  | _, _ => s

def tick (s : BacktestWorld) : BacktestWorld :=
  if s.phase = .selecting then { s with phase := .claiming none } else s

/-- The lock that claims the flag of the shared state unless it is set. -/
def claim (s : BacktestWorld) (request : Option Nat) : BacktestWorld :=
  if s.backtestInProgress then
    { s with
      phase := .clearing request false
      heldOff := if s.ownerHolds then request.toList ++ s.heldOff else s.heldOff }
  else { s with backtestInProgress := true, phase := .clearing request true }

/-- The worker resets the flag of the shared state, whoever set it. -/
def resetFlag (s : BacktestWorld) : BacktestWorld :=
  { s with backtestInProgress := false, ownerHolds := false }

def advance (s : BacktestWorld) : BacktestWorld :=
  match s.phase with
  | .claiming request => s.claim request
  | .clearing request claimed =>
    { s with
      queued := if request.isSome then false else s.queued
      phase := if claimed then .starting else .selecting }
  | .starting => { s with phase := .replaying, running := s.running + 1, started := s.started + 1 }
  | .finishing stopped => { s.resetFlag with phase := if stopped then .closing else .recording }
  | .recording => { s with phase := .selecting }
  | .closing => { s with closed := true, phase := .unqueueing }
  | .unqueueing => { s with queued := false, phase := .releasing }
  | .releasing => { s.resetFlag with phase := .exited }
  | .selecting | .replaying | .exited => s

def replayEnds (s : BacktestWorld) : BacktestWorld :=
  if s.phase = .replaying then { s with phase := .finishing false, running := s.running - 1 } else s

def claimFlag (s : BacktestWorld) : BacktestWorld :=
  if s.backtestInProgress then s else { s with backtestInProgress := true, ownerHolds := true }

def next (s : BacktestWorld) : BacktestEvent → BacktestWorld
  | .flag call => s.flag call
  | .send call => s.send call
  | .unflag call => s.unflag call
  | .shutdown => { s with shutdown := true }
  | .stop => s.stop
  | .receive => s.receive
  | .tick => s.tick
  | .advance => s.advance
  | .replayEnds => s.replayEnds
  | .claimFlag => s.claimFlag
  | .recordBacktest => s.resetFlag

/-- The event takes the worker on. -/
def moved (s : BacktestWorld) (event : BacktestEvent) : Bool := decide ((s.next event).phase ≠ s.phase)

/-- There is no shutdown and no other owner. -/
def Undisturbed (s : BacktestWorld) (_ : BacktestEvent) : Prop :=
  s.shutdown = false ∧ s.ownerHolds = false

/-- The request is in the channel or in the hands of the worker, which has yet to start its replay. -/
def Waits (s : BacktestWorld) (call : Nat) : Prop :=
  call ∈ s.channel ∨ s.phase = .claiming (some call) ∨ s.phase = .clearing (some call) true ∨
    s.phase = .starting

/-- A request that returned true when so many replays had been started will be followed by another
one: unless a replay runs, the worker can go on, and eight of its steps start a replay. -/
structure WillFollow (s : BacktestWorld) (replaysBefore : Nat) : Prop where
  enabled : s.phase = .replaying ∨ s.moved .receive = true ∨ s.moved .advance = true
  bounded : ∀ later, Along next Undisturbed s later → 8 ≤ countAlong next moved s later →
    replaysBefore < (run next s later).started

end BacktestWorld

/-- The worker has claimed the flag and not yet reset it. -/
def WorkerPhase.claimed : WorkerPhase → Bool
  | .clearing _ claimed => claimed
  | .starting | .replaying | .finishing _ => true
  | _ => false

/-- The worker has seen the shutdown. -/
def WorkerPhase.stopping : WorkerPhase → Bool
  | .finishing stopped => stopped
  | .closing | .unqueueing | .releasing | .exited => true
  | _ => false

/-- How many steps of the worker are left to the next start of a replay. -/
def WorkerPhase.remaining : WorkerPhase → Nat
  | .starting => 1
  | .clearing _ true => 2
  | .claiming _ => 3
  | .selecting => 4
  | .clearing _ false | .recording => 5
  | .finishing _ => 6
  | .replaying => 7
  | .closing | .unqueueing | .releasing | .exited => 0

namespace BacktestWorld
variable {s : BacktestWorld}

/-- What every step of the worker, its callers and the other owners keeps. -/
structure Orderly (s : BacktestWorld) : Prop where
  running : s.running ≤ if s.phase = .replaying ∨ s.phase.stopping = true then 1 else 0
  channel : s.channel.length ≤ 1
  owned : s.backtestInProgress = true → s.ownerHolds = true ∨ s.phase.claimed = true
  stopping : s.phase.stopping = true → s.shutdown = true
  closed : s.phase = .unqueueing ∨ s.phase = .releasing ∨ s.phase = .exited → s.closed = true
  unqueued : s.phase = .releasing ∨ s.phase = .exited → s.queued = true →
    ∃ call, s.call call = .flagged ∨ s.call call = .refused
  before : ∀ call n, s.call call = .accepted n → n ≤ s.started
  followed : ∀ call n, s.call call = .accepted n →
    n < s.started ∨ s.shutdown = true ∨ call ∈ s.heldOff ∨ s.Waits call

theorem start_orderly : start.Orderly where
  running := by simp [start]
  channel := Nat.zero_le 1
  owned h := Bool.noConfusion h
  stopping h := Bool.noConfusion h
  closed h := by simp [start] at h
  unqueued h := by simp [start] at h
  before _ _ h := RequestCall.noConfusion h
  followed _ _ h := RequestCall.noConfusion h

@[simp] theorem setCall_self (call : Nat) (phase : RequestCall) :
    (s.setCall call phase).call call = phase := Function.update_self ..

theorem setCall_of_ne {call other : Nat} (phase : RequestCall) (h : other ≠ call) :
    (s.setCall call phase).call other = s.call other := Function.update_of_ne h ..

/-- A call that goes on without being accepted leaves the other requests where they were. -/
theorem Orderly.setCall (h : s.Orderly) {call : Nat} {phase : RequestCall}
    (hp : ∀ n, phase ≠ .accepted n)
    (hq : s.queued = true → phase = .flagged ∨ phase = .refused ∨
      s.call call ≠ .flagged ∧ s.call call ≠ .refused) : (s.setCall call phase).Orderly := by
  have haccepted : ∀ other n, (s.setCall call phase).call other = .accepted n →
      s.call other = .accepted n := by
    intro other n ho
    by_cases hc : other = call
    · rw [hc, setCall_self] at ho
      exact absurd ho (hp n)
    · rwa [setCall_of_ne phase hc] at ho
  refine ⟨h.running, h.channel, h.owned, h.stopping, h.closed, fun hphase hqueued => ?_,
    fun other n ho => h.before other n (haccepted other n ho),
    fun other n ho => h.followed other n (haccepted other n ho)⟩
  obtain ⟨waiting, hw⟩ := h.unqueued hphase hqueued
  by_cases hc : waiting = call
  · rcases hq hqueued with hf | hr | ⟨hf, hr⟩
    · exact ⟨call, .inl (by rw [setCall_self, hf])⟩
    · exact ⟨call, .inr (by rw [setCall_self, hr])⟩
    · rw [hc] at hw
      exact absurd hw (not_or.mpr ⟨hf, hr⟩)
  · exact ⟨waiting, by rwa [setCall_of_ne phase hc]⟩

theorem Orderly.flag (h : s.Orderly) (call : Nat) : (s.flag call).Orderly := by
  unfold BacktestWorld.flag
  split_ifs with hi hq
  · exact h
  · have hidle : s.call call = .idle := not_not.mp hi
    exact h.setCall (fun n => by simp) fun _ => .inr (.inr (by simp [hidle]))
  · have hset : (s.setCall call .flagged).Orderly := h.setCall (fun n => by simp) fun _ => .inl rfl
    exact ⟨hset.running, hset.channel, hset.owned, hset.stopping, hset.closed,
      fun _ _ => ⟨call, .inl (setCall_self ..)⟩, hset.before, hset.followed⟩

theorem Orderly.unflag (h : s.Orderly) (call : Nat) : (s.unflag call).Orderly := by
  unfold BacktestWorld.unflag
  split_ifs
  · exact h
  · -- The flag is reset before the call leaves, so that nobody has to answer for it.
    have hreset : { s with queued := false }.Orderly :=
      ⟨h.running, h.channel, h.owned, h.stopping, h.closed, fun _ hq => Bool.noConfusion hq, h.before,
        h.followed⟩
    exact hreset.setCall (fun n => by simp) fun hq => Bool.noConfusion hq

theorem Orderly.send (h : s.Orderly) (call : Nat) : (s.send call).Orderly := by
  unfold BacktestWorld.send
  split_ifs with hf hc
  · exact h
  · exact h.setCall (fun n => by simp) fun _ => .inr (.inl rfl)
  · have hopen : s.closed = false ∧ s.channel = [] := by simpa using hc
    have hother : ∀ other n, (s.setCall call (.accepted s.started)).call other = .accepted n →
        other = call ∧ n = s.started ∨ s.call other = .accepted n := by
      intro other n ho
      by_cases hcall : other = call
      · rw [hcall, setCall_self] at ho
        exact .inl ⟨hcall, (RequestCall.accepted.inj ho).symm⟩
      · rw [setCall_of_ne _ hcall] at ho
        exact .inr ho
    refine ⟨h.running, Nat.le_refl 1, h.owned, h.stopping, h.closed, fun hphase => ?_,
      fun other n ho => ?_, fun other n ho => ?_⟩
    · have hclosed := h.closed (.inr hphase)
      rw [hopen.1] at hclosed
      exact Bool.noConfusion hclosed
    · rcases hother other n ho with ⟨-, rfl⟩ | ho
      · exact Nat.le_refl _
      · exact h.before other n ho
    · rcases hother other n ho with ⟨rfl, -⟩ | ho
      · exact .inr (.inr (.inr (.inl (List.mem_singleton_self _))))
      · refine (h.followed other n ho).imp id (Or.imp id (Or.imp id fun hw => ?_))
        rcases hw with hw | hw
        · rw [hopen.2] at hw
          cases hw
        · exact .inr hw

/-- Nothing but the account of the owners changes when the flag of the shared state is set or reset
while the worker has not claimed it. -/
theorem Orderly.setFlag (h : s.Orderly) {inProgress held : Bool}
    (ho : inProgress = true → held = true ∨ s.phase.claimed = true) :
    { s with backtestInProgress := inProgress, ownerHolds := held }.Orderly :=
  ⟨h.running, h.channel, ho, h.stopping, h.closed, h.unqueued, h.before, h.followed⟩

theorem Orderly.resetFlag (h : s.Orderly) : s.resetFlag.Orderly := h.setFlag fun hp => Bool.noConfusion hp

theorem Orderly.claimFlag (h : s.Orderly) : s.claimFlag.Orderly := by
  unfold BacktestWorld.claimFlag
  split_ifs
  · exact h
  · exact h.setFlag fun _ => .inl rfl

theorem Orderly.shutdown (h : s.Orderly) : { s with shutdown := true }.Orderly :=
  ⟨h.running, h.channel, h.owned, fun _ => rfl, h.closed, h.unqueued, h.before,
    fun _ _ _ => .inr (.inl rfl)⟩

theorem Orderly.stop (h : s.Orderly) : s.stop.Orderly := by
  unfold BacktestWorld.stop
  split_ifs with hs
  · exact h
  · have hshut : s.shutdown = true := by simpa using hs
    have hrunning := h.running
    have howned := h.owned
    split
    · rename_i hp
      rw [hp] at hrunning howned
      exact ⟨hrunning.trans (by simp [WorkerPhase.stopping]), h.channel, howned, fun _ => hshut, by simp, by simp, h.before,
        fun _ _ _ => .inr (.inl hshut)⟩
    · rename_i hp
      rw [hp] at hrunning
      exact ⟨hrunning, h.channel, fun _ => .inr rfl, fun _ => hshut, by simp, by simp, h.before,
        fun _ _ _ => .inr (.inl hshut)⟩
    · exact h

/-- From the select the worker goes to claim the flag, with the message that it took if any. -/
theorem Orderly.select (h : s.Orderly) (hp : s.phase = .selecting) {request : Option Nat}
    {channel : List Nat} (hc : s.channel = request.toList ++ channel) :
    { s with channel, phase := .claiming request }.Orderly := by
  have hrunning := h.running
  have howned := h.owned
  have hlength := h.channel
  rw [hp] at hrunning howned
  rw [hc, List.length_append] at hlength
  refine ⟨hrunning, Nat.le_trans (Nat.le_add_left _ _) hlength, howned,
    by simp [WorkerPhase.stopping], by simp, by simp, h.before,
    fun call n ho => ?_⟩
  refine (h.followed call n ho).imp id (Or.imp id (Or.imp id fun hw => ?_))
  rcases hw with hw | hw | hw | hw
  · rw [hc] at hw
    rcases List.mem_append.mp hw with hw | hw
    · exact .inr (.inl (congrArg WorkerPhase.claiming (Option.mem_toList.mp hw)))
    · exact .inl hw
  all_goals
    rw [hp] at hw
    cases hw

theorem Orderly.receive (h : s.Orderly) : s.receive.Orderly := by
  unfold BacktestWorld.receive
  split
  · rename_i call channel hp hc
    have hlist : s.channel = (some call).toList ++ channel := hc
    exact h.select hp hlist
  · exact h

theorem Orderly.tick (h : s.Orderly) : s.tick.Orderly := by
  unfold BacktestWorld.tick
  split_ifs with hp
  · have hlist : s.channel = (none : Option Nat).toList ++ s.channel := rfl
    exact h.select hp hlist
  · exact h

theorem Orderly.replayEnds (h : s.Orderly) : s.replayEnds.Orderly := by
  unfold BacktestWorld.replayEnds
  split_ifs with hp
  · have hrunning := h.running
    rw [hp] at hrunning
    have hnone : s.running - 1 ≤ 0 := by simp at hrunning; omega
    refine ⟨hnone, h.channel, fun _ => .inr rfl, by simp [WorkerPhase.stopping], by simp, by simp,
      h.before, fun call n ho => ?_⟩
    refine (h.followed call n ho).imp id (Or.imp id (Or.imp id fun hw => ?_))
    rcases hw with hw | hw | hw | hw
    · exact .inl hw
    all_goals
      rw [hp] at hw
      cases hw
  · exact h

/-- At the claim either the worker sets the flag or another owner holds it. -/
theorem Orderly.claim (h : s.Orderly) {request : Option Nat} (hp : s.phase = .claiming request) :
    (s.claim request).Orderly := by
  have hrunning := h.running
  have howned := h.owned
  rw [hp] at hrunning howned
  by_cases hf : s.backtestInProgress = true
  · have hheld : s.ownerHolds = true := (howned hf).resolve_right Bool.false_ne_true
    rw [BacktestWorld.claim, if_pos hf, if_pos hheld]
    refine ⟨hrunning, h.channel, fun _ => .inl hheld, by simp [WorkerPhase.stopping], by simp, by simp,
      h.before, fun call n ho => ?_⟩
    refine (h.followed call n ho).imp id (Or.imp id fun hw => ?_)
    rcases hw with hw | hw | hw | hw | hw
    · exact .inl (List.mem_append_right _ hw)
    · exact .inr (.inl hw)
    · rw [hp] at hw
      rw [WorkerPhase.claiming.inj hw]
      exact .inl (List.mem_append_left _ (List.mem_singleton_self _))
    all_goals
      rw [hp] at hw
      cases hw
  · rw [BacktestWorld.claim, if_neg hf]
    refine ⟨hrunning, h.channel, fun _ => .inr rfl, by simp [WorkerPhase.stopping], by simp, by simp,
      h.before, fun call n ho => ?_⟩
    refine (h.followed call n ho).imp id (Or.imp id (Or.imp id fun hw => ?_))
    rcases hw with hw | hw | hw | hw
    · exact .inl hw
    · rw [hp] at hw
      rw [WorkerPhase.claiming.inj hw]
      exact .inr (.inr (.inl rfl))
    all_goals
      rw [hp] at hw
      cases hw

theorem Orderly.advance (h : s.Orderly) : s.advance.Orderly := by
  have hrunning := h.running
  have howned := h.owned
  have hstopping := h.stopping
  have hfollowed := h.followed
  unfold BacktestWorld.advance
  unfold Waits at hfollowed
  split
  · rename_i request hp
    exact h.claim hp
  · rename_i request claimed hp
    rw [hp] at hrunning howned hfollowed
    cases claimed with
    | true =>
      refine ⟨hrunning, h.channel, fun _ => .inr rfl, by simp [WorkerPhase.stopping], by simp, by simp,
        h.before, fun call n ho => ?_⟩
      exact (hfollowed call n ho).imp id (Or.imp id (Or.imp id fun _ => .inr (.inr (.inr rfl))))
    | false =>
      refine ⟨hrunning, h.channel, howned, by simp [WorkerPhase.stopping], by simp, by simp, h.before,
        fun call n ho => ?_⟩
      refine (hfollowed call n ho).imp id (Or.imp id (Or.imp id fun hw => .inl ?_))
      simpa using hw
  · rename_i hp
    rw [hp] at hrunning
    have hnone : s.running = 0 := by simpa [WorkerPhase.stopping] using hrunning
    refine ⟨by simp [hnone], h.channel, fun _ => .inr rfl, by simp [WorkerPhase.stopping], by simp,
      by simp, fun call n ho => (h.before call n ho).trans (Nat.le_succ _), fun call n ho => ?_⟩
    exact .inl (Nat.lt_succ_of_le (h.before call n ho))
  · rename_i stopped hp
    rw [hp] at hrunning hstopping hfollowed
    cases stopped with
    | true =>
      refine ⟨hrunning, h.channel, fun hf => Bool.noConfusion hf, fun _ => hstopping rfl, by simp,
        by simp, h.before, fun _ _ _ => .inr (.inl (hstopping rfl))⟩
    | false =>
      refine ⟨hrunning, h.channel, fun hf => Bool.noConfusion hf, by simp [WorkerPhase.stopping],
        by simp, by simp, h.before, fun call n ho => ?_⟩
      refine (hfollowed call n ho).imp id (Or.imp id (Or.imp id fun hw => .inl ?_))
      have hmem : call ∈ s.channel := by simpa using hw
      exact hmem
  · rename_i hp
    rw [hp] at hrunning howned hfollowed
    refine ⟨hrunning, h.channel, howned, by simp [WorkerPhase.stopping], by simp, by simp, h.before,
      fun call n ho => ?_⟩
    refine (hfollowed call n ho).imp id (Or.imp id (Or.imp id fun hw => .inl ?_))
    simpa using hw
  · rename_i hp
    rw [hp] at hrunning howned hstopping
    exact ⟨hrunning, h.channel, howned, fun _ => hstopping rfl, fun _ => rfl, by simp, h.before,
      fun _ _ _ => .inr (.inl (hstopping rfl))⟩
  · rename_i hp
    rw [hp] at hrunning howned hstopping
    exact ⟨hrunning, h.channel, howned, fun _ => hstopping rfl, fun _ => h.closed (.inl hp),
      fun _ hq => Bool.noConfusion hq, h.before, fun _ _ _ => .inr (.inl (hstopping rfl))⟩
  · rename_i hp
    rw [hp] at hrunning hstopping
    exact ⟨hrunning, h.channel, fun hf => Bool.noConfusion hf, fun _ => hstopping rfl,
      fun _ => h.closed (.inr (.inl hp)), fun _ => h.unqueued (.inl hp), h.before,
      fun _ _ _ => .inr (.inl (hstopping rfl))⟩
  · exact h
  · exact h
  · exact h

theorem Orderly.next (h : s.Orderly) (event : BacktestEvent) : (s.next event).Orderly := by
  cases event with
  | flag call => exact h.flag call
  | send call => exact h.send call
  | unflag call => exact h.unflag call
  | shutdown => exact h.shutdown
  | stop => exact h.stop
  | receive => exact h.receive
  | tick => exact h.tick
  | advance => exact h.advance
  | replayEnds => exact h.replayEnds
  | claimFlag => exact h.claimFlag
  | recordBacktest => exact h.resetFlag

theorem orderly_run (events : List BacktestEvent) : (run next start events).Orderly :=
  run_keeps next (fun _ event h => h.next event) events start_orderly

/-- Requests and owners do not take the worker on. -/
theorem phase_next {event : BacktestEvent}
    (h : event ≠ .stop ∧ event ≠ .receive ∧ event ≠ .tick ∧ event ≠ .advance ∧ event ≠ .replayEnds) :
    (s.next event).phase = s.phase ∧ (s.next event).started = s.started := by
  cases event with
  | flag call => simp only [next, flag]; split_ifs <;> exact ⟨rfl, rfl⟩
  | send call => simp only [next, send]; split_ifs <;> exact ⟨rfl, rfl⟩
  | unflag call => simp only [next, unflag]; split_ifs <;> exact ⟨rfl, rfl⟩
  | claimFlag => simp only [next, claimFlag]; split_ifs <;> exact ⟨rfl, rfl⟩
  | shutdown => exact ⟨rfl, rfl⟩
  | recordBacktest => exact ⟨rfl, rfl⟩
  | stop | receive | tick | advance | replayEnds => simp at h

/-- A step of the undisturbed worker brings it nearer to the next start, or is one. -/
theorem Orderly.remaining (h : s.Orderly) (event : BacktestEvent) (hu : s.Undisturbed event) :
    (if s.moved event then 1 else 0) + (s.next event).phase.remaining + 7 * s.started ≤
      s.phase.remaining + 7 * (s.next event).started := by
  obtain ⟨hshut, hheld⟩ := hu
  have hstopping := h.stopping
  have howned := h.owned
  rw [hshut] at hstopping
  rw [hheld] at howned
  have hsame : (s.next event).phase = s.phase → (s.next event).started = s.started →
      (if s.moved event then 1 else 0) + (s.next event).phase.remaining + 7 * s.started ≤
        s.phase.remaining + 7 * (s.next event).started := by
    intro hp hs
    have hm : s.moved event = false := by rw [moved, hp]; simp
    rw [hp, hs, hm, if_neg Bool.false_ne_true, Nat.zero_add]
  have hself : s.next event = s → (if s.moved event then 1 else 0) + (s.next event).phase.remaining +
      7 * s.started ≤ s.phase.remaining + 7 * (s.next event).started :=
    fun hn => hsame (congrArg phase hn) (congrArg started hn)
  cases event with
  | flag call => exact hsame (phase_next (by simp)).1 (phase_next (by simp)).2
  | send call => exact hsame (phase_next (by simp)).1 (phase_next (by simp)).2
  | unflag call => exact hsame (phase_next (by simp)).1 (phase_next (by simp)).2
  | shutdown => exact hsame rfl rfl
  | claimFlag => exact hsame (phase_next (by simp)).1 (phase_next (by simp)).2
  | recordBacktest => exact hsame rfl rfl
  | stop => exact hself (by rw [BacktestWorld.next, BacktestWorld.stop, hshut]; rfl)
  | receive =>
    by_cases hp : s.phase = .selecting
    · cases hc : s.channel with
      | nil => exact hself (by simp only [BacktestWorld.next, BacktestWorld.receive, hp, hc])
      | cons call channel =>
        simp only [moved, BacktestWorld.next, BacktestWorld.receive, hp, hc, WorkerPhase.remaining]
        simp
    · refine hself ?_
      simp only [BacktestWorld.next, BacktestWorld.receive]
      split
      · exact absurd ‹_› hp
      · rfl
  | tick =>
    by_cases hp : s.phase = .selecting
    · simp only [moved, BacktestWorld.next, BacktestWorld.tick, hp, if_true, WorkerPhase.remaining]
      simp
    · exact hself (if_neg hp)
  | replayEnds =>
    by_cases hp : s.phase = .replaying
    · simp only [moved, BacktestWorld.next, BacktestWorld.replayEnds, hp, if_true,
        WorkerPhase.remaining]
      simp
    · exact hself (if_neg hp)
  | advance =>
    cases hp : s.phase with
    | selecting =>
      rw [← hp]
      exact hself (by simp only [BacktestWorld.next, BacktestWorld.advance, hp])
    | claiming request =>
      rw [hp] at howned
      have hfree : s.backtestInProgress = false := by simpa [WorkerPhase.claimed] using howned
      simp only [moved, BacktestWorld.next, BacktestWorld.advance, hp, BacktestWorld.claim, hfree]
      simp [WorkerPhase.remaining]
    | clearing request claimed =>
      simp only [moved, BacktestWorld.next, BacktestWorld.advance, hp]
      cases claimed <;> simp [WorkerPhase.remaining]
    | starting =>
      simp only [moved, BacktestWorld.next, BacktestWorld.advance, hp, WorkerPhase.remaining]
      simp
      omega
    | replaying =>
      rw [← hp]
      exact hself (by simp only [BacktestWorld.next, BacktestWorld.advance, hp])
    | finishing stopped =>
      rw [hp] at hstopping
      cases stopped with
      | true => exact absurd (hstopping rfl) Bool.false_ne_true
      | false =>
        simp only [moved, BacktestWorld.next, BacktestWorld.advance, hp, BacktestWorld.resetFlag,
          WorkerPhase.remaining]
        simp
    | recording =>
      simp only [moved, BacktestWorld.next, BacktestWorld.advance, hp, WorkerPhase.remaining]
      simp
    | closing | unqueueing | releasing | exited =>
      rw [hp] at hstopping
      exact absurd (hstopping rfl) Bool.false_ne_true

theorem remaining_le (phase : WorkerPhase) : phase.remaining ≤ 7 := by
  unfold WorkerPhase.remaining
  split <;> omega

/-- Eight steps of the undisturbed worker start a replay. -/
theorem Orderly.starts (h : s.Orderly) {later : List BacktestEvent}
    (ha : Along BacktestWorld.next Undisturbed s later) (hc : 8 ≤ countAlong BacktestWorld.next moved s later) :
    s.started < (run BacktestWorld.next s later).started := by
  have hkeep : ∀ n (t : BacktestWorld) event,
      (t.Orderly ∧ n + t.phase.remaining + 7 * s.started ≤ s.phase.remaining + 7 * t.started) →
      Undisturbed t event →
      ((t.next event).Orderly ∧ n + (if moved t event then 1 else 0) + (t.next event).phase.remaining +
        7 * s.started ≤ s.phase.remaining + 7 * (t.next event).started) := by
    rintro n t event ⟨ht, hn⟩ hu
    have hstep := ht.remaining event hu
    exact ⟨ht.next event, by omega⟩
  have hstart : s.Orderly ∧ 0 + s.phase.remaining + 7 * s.started ≤
      s.phase.remaining + 7 * s.started := ⟨h, by rw [Nat.zero_add]⟩
  have hrun := countAlong_invariant BacktestWorld.next hkeep hstart ha
  have hle := remaining_le s.phase
  have hend := hrun.2
  omega

/-- A worker that has a request to follow and no shutdown waits for nothing but the end of a replay. -/
theorem Orderly.enabled (h : s.Orderly) (hs : s.shutdown = false) {call : Nat} (hw : s.Waits call) :
    s.phase = .replaying ∨ s.moved .receive = true ∨ s.moved .advance = true := by
  have hstopping := h.stopping
  rw [hs] at hstopping
  cases hp : s.phase with
  | selecting =>
    have hm : call ∈ s.channel := by simpa [Waits, hp] using hw
    obtain ⟨first, channel, hc⟩ := List.exists_cons_of_ne_nil (List.ne_nil_of_mem hm)
    exact .inr (.inl (by simp [moved, BacktestWorld.next, BacktestWorld.receive, hp, hc]))
  | claiming request =>
    refine .inr (.inr ?_)
    simp only [moved, BacktestWorld.next, BacktestWorld.advance, hp, BacktestWorld.claim]
    split_ifs <;> simp
  | clearing request claimed =>
    refine .inr (.inr ?_)
    simp only [moved, BacktestWorld.next, BacktestWorld.advance, hp]
    cases claimed <;> simp
  | starting => exact .inr (.inr (by simp [moved, BacktestWorld.next, BacktestWorld.advance, hp]))
  | replaying => exact .inl rfl
  | finishing stopped =>
    refine .inr (.inr ?_)
    simp only [moved, BacktestWorld.next, BacktestWorld.advance, hp]
    cases stopped <;> simp
  | recording => exact .inr (.inr (by simp [moved, BacktestWorld.next, BacktestWorld.advance, hp]))
  | closing | unqueueing | releasing | exited =>
    rw [hp] at hstopping
    exact absurd (hstopping rfl) Bool.false_ne_true

/-- A closed channel stays closed and accepts nothing. -/
theorem closed_next (hc : s.closed = true) (event : BacktestEvent) :
    (s.next event).closed = true ∧
      ∀ call n, (s.next event).call call = .accepted n → s.call call = .accepted n := by
  have hset : ∀ (call : Nat) (phase : RequestCall), (∀ n, phase ≠ .accepted n) →
      ∀ other n, (s.setCall call phase).call other = .accepted n → s.call other = .accepted n := by
    intro call phase hp other n ho
    by_cases he : other = call
    · rw [he, setCall_self] at ho
      exact absurd ho (hp n)
    · rwa [setCall_of_ne phase he] at ho
  cases event with
  | flag call =>
    simp only [BacktestWorld.next, BacktestWorld.flag]
    split_ifs
    · exact ⟨hc, fun _ _ => id⟩
    · exact ⟨hc, hset call .rejected (by simp)⟩
    · exact ⟨hc, hset call .flagged (by simp)⟩
  | send call =>
    simp only [BacktestWorld.next, BacktestWorld.send, hc, Bool.true_or, if_true]
    split_ifs
    · exact ⟨hc, fun _ _ => id⟩
    · exact ⟨hc, hset call .refused (by simp)⟩
  | unflag call =>
    simp only [BacktestWorld.next, BacktestWorld.unflag]
    split_ifs
    · exact ⟨hc, fun _ _ => id⟩
    · exact ⟨hc, hset call .rejected (by simp)⟩
  | shutdown => exact ⟨hc, fun _ _ => id⟩
  | stop =>
    simp only [BacktestWorld.next, BacktestWorld.stop]
    split_ifs
    · exact ⟨hc, fun _ _ => id⟩
    · split <;> exact ⟨hc, fun _ _ => id⟩
  | receive =>
    simp only [BacktestWorld.next, BacktestWorld.receive]
    split <;> exact ⟨hc, fun _ _ => id⟩
  | tick =>
    simp only [BacktestWorld.next, BacktestWorld.tick]
    split_ifs <;> exact ⟨hc, fun _ _ => id⟩
  | advance =>
    simp only [BacktestWorld.next, BacktestWorld.advance, BacktestWorld.claim]
    split
    · split_ifs <;> exact ⟨hc, fun _ _ => id⟩
    · exact ⟨hc, fun _ _ => id⟩
    · exact ⟨hc, fun _ _ => id⟩
    · exact ⟨hc, fun _ _ => id⟩
    · exact ⟨hc, fun _ _ => id⟩
    · exact ⟨rfl, fun _ _ => id⟩
    all_goals exact ⟨hc, fun _ _ => id⟩
  | replayEnds =>
    simp only [BacktestWorld.next, BacktestWorld.replayEnds]
    split_ifs <;> exact ⟨hc, fun _ _ => id⟩
  | claimFlag =>
    simp only [BacktestWorld.next, BacktestWorld.claimFlag]
    split_ifs <;> exact ⟨hc, fun _ _ => id⟩
  | recordBacktest => exact ⟨hc, fun _ _ => id⟩

theorem closed_run (hc : s.closed = true) (later : List BacktestEvent) (call n : Nat)
    (h : (run next s later).call call = .accepted n) : s.call call = .accepted n := by
  induction later generalizing s with
  | nil => exact h
  | cons event later ih =>
    obtain ⟨hclosed, haccepted⟩ := closed_next hc event
    exact haccepted call n (ih hclosed h)

/-- What the scheduling promises of a state: at most one replay and one request, that a request which
returned true is followed by a replay, and that nothing is left when the worker has exited. -/
structure Scheduled (s : BacktestWorld) : Prop where
  oneReplay : s.running ≤ 1
  oneQueued : s.channel.length ≤ 1
  followed : ∀ call n, s.call call = .accepted n →
    n < s.started ∨ s.shutdown = true ∨ call ∈ s.heldOff ∨ s.WillFollow n
  /-- The flag may be set by a call that is between its steps. -/
  unqueued : s.phase = .exited → s.queued = true →
    ∃ call, s.call call = .flagged ∨ s.call call = .refused
  released : s.phase = .exited → s.backtestInProgress = true → s.ownerHolds = true
  refusing : s.phase = .exited → ∀ later call n,
    (run next s later).call call = .accepted n → s.call call = .accepted n

end BacktestWorld

open BacktestWorld in
/-- In every run of requests, ticks, replays, other owners and a shutdown, one replay runs at a time
and one request is queued; a request that returned true is followed by a replay unless shutdown or
another owner comes in between; and the worker leaves nothing behind. -/
theorem backtests_scheduled (events : List BacktestEvent) : (run next start events).Scheduled := by
  have h := orderly_run events
  generalize run next start events = s at h
  refine ⟨h.running.trans (by split_ifs <;> omega), h.channel, fun call n ho => ?_,
    fun hp => h.unqueued (.inr hp), fun hp hf => ?_, fun hp => closed_run (h.closed (.inr (.inr hp)))⟩
  · rcases h.followed call n ho with hn | hs | hh | hw
    · exact .inl hn
    · exact .inr (.inl hs)
    · exact .inr (.inr (.inl hh))
    · cases hs : s.shutdown with
      | true => exact .inr (.inl rfl)
      | false =>
        refine .inr (.inr (.inr ⟨h.enabled hs hw, fun later ha hc => ?_⟩))
        exact (h.before call n ho).trans_lt (h.starts ha hc)
  · have howned := h.owned hf
    rw [hp] at howned
    exact howned.resolve_right Bool.false_ne_true

/-- The worker is told to stop while it waits, and exits. -/
def exitEvents : List BacktestEvent := [.shutdown, .stop, .advance, .advance, .advance]

open BacktestWorld in
/-- After the exit a request shows as queued until its second step, and another owner may set the flag
of the shared state. -/
theorem exited_worker_flags :
    ((run next start (exitEvents ++ [.flag 0])).phase = .exited ∧
      (run next start (exitEvents ++ [.flag 0])).queued = true) ∧
    (run next start (exitEvents ++ [.claimFlag])).phase = .exited ∧
      (run next start (exitEvents ++ [.claimFlag])).backtestInProgress = true := by
  decide

end Gail.Trading
