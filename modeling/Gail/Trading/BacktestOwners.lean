import Gail.Trading.BacktestWorker

/-! The two owners of the backtest flag in compatibility mode: the worker, and the tasks that
`trading_run_backtest` spawns. Both claim the flag, and three places reset it, whoever has set it. -/
namespace Gail.Trading
open Gail.Library

/-- The worker with the tasks that calls have spawned and that have not ended. -/
structure BacktestOwners where
  worker : BacktestWorld
  /-- The worker's replay has recorded its result, and with it reset the flag. -/
  recorded : Bool
  tasks : Nat

inductive OwnerEvent where
  /-- A step of the worker, or of the requests that wake it. -/
  | worker (event : BacktestEvent)
  /-- `record_backtest` at the end of the worker's replay. -/
  | replayRecords
  /-- A call of `trading_run_backtest`. -/
  | runBacktest
  /-- A spawned task records its result and ends. -/
  | taskCompletes
  | taskPanics
  deriving DecidableEq

/-- In these phases the worker goes on by resetting the flag. -/
def WorkerPhase.resets : WorkerPhase → Bool
  | .finishing _ | .releasing => true
  | _ => false

namespace BacktestOwners

def start : BacktestOwners := { worker := .start, recorded := false, tasks := 0 }

/-- The steps of the worker are its own: the other owner claims and records by the other events. -/
def workerStep (s : BacktestOwners) : BacktestEvent → BacktestOwners
  | .claimFlag | .recordBacktest => s
  | event =>
    let worker := s.worker.next event
    { s with worker, recorded := s.recorded && worker.phase.claimed }

def replayRecords (s : BacktestOwners) : BacktestOwners :=
  if s.worker.phase = .replaying ∧ s.recorded = false then
    { s with worker := s.worker.next .recordBacktest, recorded := true }
  else s

/-- The call is refused while the flag is set. -/
def runBacktest (s : BacktestOwners) : BacktestOwners :=
  if s.worker.backtestInProgress then s
  else { s with worker := s.worker.next .claimFlag, tasks := s.tasks + 1 }

def taskCompletes (s : BacktestOwners) : BacktestOwners :=
  if s.tasks = 0 then s
  else { s with worker := s.worker.next .recordBacktest, tasks := s.tasks - 1 }

/-- Nothing catches the panic of a spawned task. -/
def taskPanics (s : BacktestOwners) : BacktestOwners := { s with tasks := s.tasks - 1 }

def next (s : BacktestOwners) : OwnerEvent → BacktestOwners
  | .worker event => s.workerStep event
  | .replayRecords => s.replayRecords
  | .runBacktest => s.runBacktest
  | .taskCompletes => s.taskCompletes
  | .taskPanics => s.taskPanics

/-- The backtests that run: those of the tasks, and that of the worker from its claim until its result
is recorded or its failure dealt with. -/
def running (s : BacktestOwners) : Nat :=
  s.tasks + if s.worker.phase.claimed && !s.recorded then 1 else 0

/-- At most one backtest runs, and the flag is set exactly while one does. -/
def Exclusive (s : BacktestOwners) : Prop :=
  s.running ≤ 1 ∧ (s.worker.backtestInProgress = true ↔ s.running = 1)

/-- No spawned task panics, and none runs when the worker resets the flag. -/
def Guarded (s : BacktestOwners) : OwnerEvent → Prop
  | .worker .advance => s.worker.phase.resets = true → s.tasks = 0
  | .taskPanics => s.tasks = 0
  | _ => True

end BacktestOwners

/-- What a step of the worker does to the flag: nothing, or it claims the flag, or it resets it. -/
theorem BacktestWorld.next_cases (s : BacktestWorld) {event : BacktestEvent} (hc : event ≠ .claimFlag)
    (hr : event ≠ .recordBacktest) :
    (s.next event).phase.claimed = s.phase.claimed ∧
        (s.next event).backtestInProgress = s.backtestInProgress ∧
        ¬ (event = .advance ∧ s.phase.resets = true) ∨
      (s.phase.claimed = false ∧ s.backtestInProgress = false ∧ (s.next event).phase.claimed = true ∧
        (s.next event).backtestInProgress = true ∧ ¬ (event = .advance ∧ s.phase.resets = true)) ∨
      event = .advance ∧ s.phase.resets = true ∧ (s.next event).phase.claimed = false ∧
        (s.next event).backtestInProgress = false := by
  cases event with
  | claimFlag => exact absurd rfl hc
  | recordBacktest => exact absurd rfl hr
  | shutdown => simp [next]
  | flag call =>
    left
    simp only [next, flag]
    split_ifs <;> simp [setCall]
  | send call =>
    left
    simp only [next, send]
    split_ifs <;> simp [setCall]
  | unflag call =>
    left
    simp only [next, unflag]
    split_ifs <;> simp [setCall]
  | stop =>
    left
    simp only [next, stop]
    split_ifs
    · simp
    · split <;> simp [*, WorkerPhase.claimed]
  | receive =>
    left
    simp only [next, receive]
    split <;> simp [*, WorkerPhase.claimed]
  | tick =>
    left
    simp only [next, tick]
    split_ifs <;> simp [*, WorkerPhase.claimed]
  | replayEnds =>
    left
    simp only [next, replayEnds]
    split_ifs <;> simp [*, WorkerPhase.claimed]
  | advance =>
    simp only [next, advance]
    cases hp : s.phase with
    | claiming request =>
      cases hf : s.backtestInProgress <;> simp [claim, hf, WorkerPhase.claimed, WorkerPhase.resets]
    | clearing request claimed => cases claimed <;> simp [WorkerPhase.claimed, WorkerPhase.resets]
    | finishing stopped => cases stopped <;> simp [resetFlag, WorkerPhase.claimed, WorkerPhase.resets]
    | releasing => simp [resetFlag, WorkerPhase.claimed, WorkerPhase.resets]
    | _ => simp [hp, WorkerPhase.claimed, WorkerPhase.resets]

namespace BacktestOwners
variable {s : BacktestOwners}

/-- A result is recorded only while the worker has its claim. -/
structure Owned (s : BacktestOwners) : Prop where
  exclusive : s.Exclusive
  recorded : s.recorded = true → s.worker.phase.claimed = true

theorem start_owned : start.Owned where
  exclusive := by simp [Exclusive, running, start, BacktestWorld.start, WorkerPhase.claimed]
  recorded h := Bool.noConfusion h

/-- The worker's backtest, when it counts as running. -/
theorem running_le (s : BacktestOwners) : s.tasks ≤ s.running := Nat.le_add_right ..

theorem Owned.workerStep (h : s.Owned) {event : BacktestEvent} (hc : event ≠ .claimFlag)
    (hr : event ≠ .recordBacktest) (hg : event = .advance → s.worker.phase.resets = true → s.tasks = 0) :
    ({ s with worker := s.worker.next event
              recorded := s.recorded && (s.worker.next event).phase.claimed } : BacktestOwners).Owned := by
  obtain ⟨⟨hle, hflag⟩, hrec⟩ := h
  have hand : (s.recorded && (s.worker.next event).phase.claimed) = true →
      (s.worker.next event).phase.claimed = true := fun ha => (Bool.and_eq_true_iff.mp ha).2
  refine ⟨?_, hand⟩
  unfold Exclusive running at *
  rcases s.worker.next_cases hc hr with ⟨hsame, hkept, -⟩ | ⟨hidle, hfree, hclaims, hset, -⟩ |
    ⟨ha, hresets, hgone, hreset⟩
  · rw [hsame, hkept]
    cases hrecorded : s.recorded with
    | false => simpa [hrecorded] using And.intro hle hflag
    | true => simpa [hrecorded, hrec hrecorded] using And.intro hle hflag
  · have hrecorded : s.recorded = false := by
      by_contra hne
      rw [hrec (by simpa using hne)] at hidle
      cases hidle
    have htasks : s.tasks = 0 := by
      rw [hidle, hfree] at hflag
      simp only [hidle] at hle
      simp at hflag hle
      omega
    simp [hclaims, hset, hrecorded, htasks]
  · simp [hgone, hreset, hg ha hresets]

theorem Owned.replayRecords (h : s.Owned) : s.replayRecords.Owned := by
  obtain ⟨hle, -⟩ := h.exclusive
  unfold BacktestOwners.replayRecords
  split_ifs with hr
  · obtain ⟨hp, hrecorded⟩ := hr
    have hclaimed : s.worker.phase.claimed = true := by rw [hp]; rfl
    have htasks : s.tasks = 0 := by
      unfold running at hle
      rw [hclaimed, hrecorded] at hle
      simpa using hle
    exact ⟨by simp [Exclusive, running, htasks, BacktestWorld.next, BacktestWorld.resetFlag],
      fun _ => hclaimed⟩
  · exact h

theorem Owned.runBacktest (h : s.Owned) : s.runBacktest.Owned := by
  obtain ⟨hle, hflag⟩ := h.exclusive
  unfold BacktestOwners.runBacktest
  split_ifs with hf
  · exact h
  · have hnone : s.running = 0 := by
      rw [hflag] at hf
      omega
    have hclaim : s.worker.next .claimFlag =
        { s.worker with backtestInProgress := true, ownerHolds := true } := if_neg hf
    have hrun : ({ s with worker := s.worker.next .claimFlag, tasks := s.tasks + 1 } :
        BacktestOwners).running = 1 := by
      have hmore : s.tasks + 1 + _ = s.running + 1 := Nat.add_right_comm ..
      rw [hclaim]
      exact hmore.trans (congrArg (· + 1) hnone)
    refine ⟨⟨hrun.le, iff_of_true ?_ hrun⟩, ?_⟩
    · rw [hclaim]
    · rw [hclaim]
      exact h.recorded

theorem Owned.taskCompletes (h : s.Owned) : s.taskCompletes.Owned := by
  obtain ⟨hle, -⟩ := h.exclusive
  have htasks := s.running_le
  unfold BacktestOwners.taskCompletes
  split_ifs with ht
  · exact h
  · have hrun : ({ s with worker := s.worker.next .recordBacktest, tasks := s.tasks - 1 } :
        BacktestOwners).running = 0 := by
      have hless : s.tasks - 1 + _ = s.running - 1 := (Nat.sub_add_comm (Nat.pos_of_ne_zero ht)).symm
      have hone : s.running - 1 = 0 := by omega
      exact hless.trans hone
    refine ⟨⟨by omega, ?_⟩, h.recorded⟩
    rw [hrun]
    simp [BacktestWorld.next, BacktestWorld.resetFlag]

/-- One guarded step keeps the ownership. -/
theorem Owned.next (h : s.Owned) {event : OwnerEvent} (hg : s.Guarded event) : (s.next event).Owned := by
  cases event with
  | worker event =>
    cases event with
    | claimFlag => exact h
    | recordBacktest => exact h
    | advance => exact h.workerStep (by simp) (by simp) fun _ => hg
    | _ => exact h.workerStep (by simp) (by simp) (by simp)
  | replayRecords => exact h.replayRecords
  | runBacktest => exact h.runBacktest
  | taskCompletes => exact h.taskCompletes
  | taskPanics =>
    have hsame : s.tasks - 1 = s.tasks := by rw [hg]
    rw [BacktestOwners.next, taskPanics, hsame]
    exact h

/-- A step that is not guarded against leaves a flag without its backtest, or a backtest without its
flag. -/
theorem Owned.not_exclusive (h : s.Owned) {event : OwnerEvent} (hg : ¬ s.Guarded event) :
    ¬ (s.next event).Exclusive := by
  obtain ⟨hle, hflag⟩ := h.exclusive
  have htasks := s.running_le
  cases event with
  | worker event =>
    cases event with
    | advance =>
      obtain ⟨hresets, hrun⟩ := Classical.not_imp.mp hg
      rcases s.worker.next_cases (by simp : BacktestEvent.advance ≠ .claimFlag) (by simp) with
        ⟨-, -, hn⟩ | ⟨-, -, -, -, hn⟩ | ⟨-, -, hgone, hreset⟩
      · exact absurd ⟨rfl, hresets⟩ hn
      · exact absurd ⟨rfl, hresets⟩ hn
      · have hnext : (s.next (.worker .advance)).running = s.tasks := by
          change s.tasks + (if (s.worker.next .advance).phase.claimed && _ then 1 else 0) = s.tasks
          rw [hgone]
          rfl
        rintro ⟨-, hflag'⟩
        have hset := hflag'.mpr (by omega)
        exact absurd (hreset.symm.trans hset) (by simp)
    | _ => exact absurd trivial hg
  | taskPanics =>
    have ht : s.tasks ≠ 0 := hg
    have hnext : (s.next .taskPanics).running = s.running - 1 :=
      (Nat.sub_add_comm (Nat.pos_of_ne_zero ht)).symm
    rintro ⟨-, hflag'⟩
    have hset : s.running - 1 = 1 := hnext ▸ hflag'.mp (hflag.mpr (by omega))
    omega
  | _ => exact absurd trivial hg

/-- In compatibility mode the flag is set exactly while one backtest runs, in every state of a run in
which no spawned task panics and none runs when the worker resets the flag, and in no other run. -/
theorem exclusive_iff (events : List OwnerEvent) :
    (∀ before, before <+: events → (run next start before).Exclusive) ↔
      Along next Guarded start events :=
  (along_iff_prefixes next (fun _ _ h hg => h.next hg) (fun _ h => h.exclusive)
    (fun _ _ h hg => h.not_exclusive hg) start_owned).symm

/-- The worker's replay, from its first tick to the recording of its result. -/
def replayRecorded : List OwnerEvent :=
  [.worker .tick, .worker .advance, .worker .advance, .worker .advance, .replayRecords]

/-- A call that comes between the recording and the reset of the worker loses the flag, and a second
one starts another backtest; a task that panics leaves the flag behind. -/
theorem flag_lost_and_left :
    (run next start (replayRecorded ++ [.runBacktest, .worker .replayEnds, .worker .advance,
        .runBacktest])).running = 2 ∧
      (run next start [.runBacktest, .taskPanics]).running = 0 ∧
      (run next start [.runBacktest, .taskPanics]).worker.backtestInProgress = true := by
  decide

end BacktestOwners
end Gail.Trading
