import Gail.Library.Holdings
import Gail.Library.Run
import Gail.Orchestration.LoadTracker

/-! Who holds a reservation: the call that was granted it, its guard, or the task that a dropped guard
spawns. A call can be cancelled wherever it waits. -/
namespace Gail.Orchestration
open Gail.Library Gail.Trading

/-- Where an invocation stands with its reservation. -/
inductive ReservationPhase where
  | absent
  /-- About to reserve, without a place in the queue. -/
  | arriving (candidate : ProviderCandidate ℚ)
  | queued (candidate : ProviderCandidate ℚ)
  /-- Granted in the queue: `waiting_guard.release()` waits for the tracker. -/
  | leavingQueue (reservation : LoadReservation ℚ)
  /-- The queue is left, the event `queue_wait` is being recorded. -/
  | recordingWait (reservation : LoadReservation ℚ)
  | guarded (reservation : LoadReservation ℚ)
  /-- `LoadReservationGuard::release` has taken the reservation and waits for the tracker. -/
  | releasing (reservation : LoadReservation ℚ)
  /-- The task that the dropped guard has spawned waits for the tracker. -/
  | returning (reservation : LoadReservation ℚ)
  /-- The same of the dropped guard of a place in the queue. -/
  | unqueueing (candidateId : String)
  | returned
  | ended
  /-- The call has gone with its reservation in hand. -/
  | lost

/-- The reservation that an invocation or a task on its behalf will give back. -/
def ReservationPhase.held : ReservationPhase → Option (LoadReservation ℚ)
  | .leavingQueue reservation | .recordingWait reservation | .guarded reservation
  | .releasing reservation | .returning reservation => some reservation
  | _ => none

/-- The call has the reservation in its own future and not in a guard. -/
def ReservationPhase.inHand : ReservationPhase → Bool
  | .leavingQueue _ | .recordingWait _ | .releasing _ => true
  | _ => false

/-- What it has of a candidate and of a host. -/
def ReservationPhase.slots (candidateId : String) (phase : ReservationPhase) : Nat :=
  match phase.held with
  | some reservation => if reservation.candidateId = candidateId then 1 else 0
  | none => 0

def ReservationPhase.cost (host : String) (phase : ReservationPhase) : HostLoad ℚ :=
  match phase.held with
  | some reservation => if reservation.hostGroup = some host then reservation.cost else 0
  | none => 0

/-- The tracker and all invocations, under their numbers. No operation reads the last three members:
the candidates granted last and how often each invocation's reservation was given back. -/
structure LoadWorld where
  tracker : LoadTracker ℚ
  started : Nat
  phase : Nat → ReservationPhase
  lastCandidate : String → Option (ProviderCandidate ℚ)
  lastOnHost : String → Option (ProviderCandidate ℚ)
  givenBack : Nat → Nat

inductive LoadAction where
  /-- The next invocation begins, in the queue or straight at the tracker. -/
  | start (candidate : ProviderCandidate ℚ) (waitForCapacity : Bool)
  /-- `reserve_candidate_load` has the tracker. -/
  | reserve (index : Nat)
  /-- `release_candidate_waiting` of a call that was granted in the queue. -/
  | leaveQueue (index : Nat)
  /-- The event is recorded and the guard made. -/
  | guard (index : Nat)
  /-- The wait ends without a grant. -/
  | timeOut (index : Nat)
  /-- The guard is released. -/
  | release (index : Nat)
  /-- `release_candidate_load` has the tracker. -/
  | giveBack (index : Nat)
  /-- `release_candidate_waiting` of a spawned task has the tracker. -/
  | unqueue (index : Nat)
  /-- The call is dropped: a race is decided, a timeout is over or the client has gone. -/
  | cancel (index : Nat)

namespace LoadWorld

def start : LoadWorld :=
  { tracker := .empty, started := 0, phase := fun _ => .absent, lastCandidate := fun _ => none
    lastOnHost := fun _ => none, givenBack := fun _ => 0 }

def setPhase (s : LoadWorld) (index : Nat) (phase : ReservationPhase) : LoadWorld :=
  { s with phase := Function.update s.phase index phase }

/-- The grant of a reservation, after which the invocation goes on in the given phase. -/
def grant (s : LoadWorld) (index : Nat) (candidate : ProviderCandidate ℚ) (tracker : LoadTracker ℚ)
    (phase : ReservationPhase) : LoadWorld :=
  { s.setPhase index phase with
    tracker
    lastCandidate := Function.update s.lastCandidate candidate.candidateId (some candidate)
    lastOnHost :=
      match candidate.hostGroup with
      | some host => Function.update s.lastOnHost host (some candidate)
      | none => s.lastOnHost }

/-- A reservation is given back. -/
def settle (s : LoadWorld) (index : Nat) (reservation : LoadReservation ℚ) : LoadWorld :=
  { s.setPhase index .returned with
    tracker := s.tracker.releaseCandidateLoad reservation
    givenBack := Function.update s.givenBack index (s.givenBack index + 1) }

/-- What is left of an invocation that is dropped: a guard spawns a task that gives back what it
holds, while a reservation outside a guard is gone. -/
def dropped : ReservationPhase → ReservationPhase
  | .arriving _ => .ended
  | .queued candidate => .unqueueing candidate.candidateId
  | .leavingQueue _ | .recordingWait _ | .releasing _ => .lost
  | .guarded reservation => .returning reservation
  | phase => phase

/-- A step that does not fit the phase of its invocation does nothing. -/
def next (s : LoadWorld) : LoadAction → LoadWorld
  | .start candidate waitForCapacity =>
    let s := { s with started := s.started + 1 }
    if waitForCapacity then
      { s.setPhase (s.started - 1) (.queued candidate) with
        tracker := s.tracker.enterQueue candidate.candidateId }
    else s.setPhase (s.started - 1) (.arriving candidate)
  | .reserve index =>
    match s.phase index with
    | .arriving candidate =>
      match s.tracker.reserveCandidateLoad candidate with
      | some (reservation, tracker) => s.grant index candidate tracker (.guarded reservation)
      | none => s.setPhase index .ended
    | .queued candidate =>
      match s.tracker.reserveCandidateLoad candidate with
      | some (reservation, tracker) => s.grant index candidate tracker (.leavingQueue reservation)
      | none => s
    | _ => s
  | .leaveQueue index =>
    match s.phase index with
    | .leavingQueue reservation =>
      { s.setPhase index (.recordingWait reservation) with
        tracker := s.tracker.releaseCandidateWaiting reservation.candidateId }
    | _ => s
  | .guard index =>
    match s.phase index with
    | .recordingWait reservation => s.setPhase index (.guarded reservation)
    | _ => s
  | .timeOut index =>
    match s.phase index with
    | .queued candidate => s.setPhase index (.unqueueing candidate.candidateId)
    | _ => s
  | .release index =>
    match s.phase index with
    | .guarded reservation => s.setPhase index (.releasing reservation)
    | _ => s
  | .giveBack index =>
    match s.phase index with
    | .releasing reservation | .returning reservation => s.settle index reservation
    | _ => s
  | .unqueue index =>
    match s.phase index with
    | .unqueueing candidateId =>
      { s.setPhase index .ended with tracker := s.tracker.releaseCandidateWaiting candidateId }
    | _ => s
  | .cancel index => s.setPhase index (dropped (s.phase index))

/-- A reservation is given back once at most, and its invocation does not end without that. -/
def GivenOnce (phase : ReservationPhase) (givenBack : Nat) : Prop :=
  (phase = .returned ∧ givenBack = 1) ∨ (phase ≠ .returned ∧ phase ≠ .lost ∧ givenBack = 0)

/-- The accounts of the tracker are those of the reservations that somebody holds. -/
structure Balanced (s : LoadWorld) : Prop where
  inFlight : ∀ candidateId, s.tracker.inFlight candidateId =
    holdings (ReservationPhase.slots candidateId) s.started s.phase
  usage : ∀ host, s.tracker.usage host = holdings (ReservationPhase.cost host) s.started s.phase
  limit : ∀ candidateId candidate limit, s.lastCandidate candidateId = some candidate →
    candidate.maxConcurrentRequests = some limit → s.tracker.inFlight candidateId ≤ max limit 1
  budget : ∀ host candidate, s.lastOnHost host = some candidate →
    hostBudgetExceeded candidate (s.tracker.usage host) = false
  once : ∀ index, GivenOnce (s.phase index) (s.givenBack index)

/-- No call is cancelled while it has its reservation in hand. -/
def KeepsHold (s : LoadWorld) (action : LoadAction) : Prop :=
  ∀ index, action = .cancel index → (s.phase index).inHand = false

/-- What every step keeps: the accounts, with costs that are not negative. -/
structure Accounted (s : LoadWorld) : Prop extends Balanced s where
  unstarted : ∀ index, s.started ≤ index → s.phase index = .absent
  nonneg : ∀ index reservation, (s.phase index).held = some reservation →
    0 ≤ reservation.resourceCostCpu

variable {s : LoadWorld} {index : Nat} {phase : ReservationPhase} {reservation : LoadReservation ℚ}

theorem start_accounted : Accounted start where
  inFlight _ := rfl
  usage _ := rfl
  limit _ _ _ h := nomatch h
  budget _ _ h := nomatch h
  once _ := .inr ⟨nofun, nofun, rfl⟩
  unstarted _ _ := rfl
  nonneg _ _ h := nomatch h

theorem slots_congr {a b : ReservationPhase} (h : a.held = b.held) (candidateId : String) :
    a.slots candidateId = b.slots candidateId := by
  simp only [ReservationPhase.slots, h]

theorem cost_congr {a b : ReservationPhase} (h : a.held = b.held) (host : String) :
    a.cost host = b.cost host := by
  simp only [ReservationPhase.cost, h]

theorem Accounted.lt_started (h : Accounted s) (hp : s.phase index ≠ .absent) : index < s.started := by
  by_contra hge
  exact hp (h.unstarted index (not_lt.mp hge))

theorem Accounted.not_given (h : Accounted s) (hp : s.phase index ≠ .returned) :
    s.givenBack index = 0 := by
  rcases h.once index with ⟨hr, -⟩ | ⟨-, -, hz⟩
  · exact absurd hr hp
  · exact hz

/-- An invocation goes on with what it has. -/
theorem Accounted.setPhase (h : Accounted s) (hheld : phase.held = (s.phase index).held)
    (hbefore : s.phase index ≠ .absent ∧ s.phase index ≠ .returned)
    (hafter : phase ≠ .returned ∧ phase ≠ .lost) : Accounted (s.setPhase index phase) where
  inFlight candidateId :=
    (h.inFlight candidateId).trans (holdings_update_same phase (slots_congr hheld candidateId)).symm
  usage host := (h.usage host).trans (holdings_update_same phase (cost_congr hheld host)).symm
  limit := h.limit
  budget := h.budget
  once other := by
    change GivenOnce (Function.update s.phase index phase other) (s.givenBack other)
    rcases eq_or_ne other index with rfl | hne
    · rw [Function.update_self]
      exact .inr ⟨hafter.1, hafter.2, h.not_given hbefore.2⟩
    · rw [Function.update_of_ne hne]
      exact h.once other
  unstarted other ho := by
    have hne : other ≠ index := (h.lt_started hbefore.1).trans_le ho |>.ne'
    exact (Function.update_of_ne hne phase s.phase).trans (h.unstarted other ho)
  nonneg other reservation hr := by
    change (Function.update s.phase index phase other).held = _ at hr
    rcases eq_or_ne other index with rfl | hne
    · rw [Function.update_self, hheld] at hr
      exact h.nonneg other reservation hr
    · rw [Function.update_of_ne hne] at hr
      exact h.nonneg other reservation hr

/-- The queue is not part of the accounts. -/
theorem Accounted.waiting (h : Accounted s) (candidateWaiting : Std.TreeMap String Nat) :
    Accounted { s with tracker := { s.tracker with candidateWaiting } } :=
  ⟨⟨h.inFlight, h.usage, h.limit, h.budget, h.once⟩, h.unstarted, h.nonneg⟩

theorem Accounted.started (h : Accounted s) (phase : ReservationPhase) (hheld : phase.held = none)
    (hafter : phase ≠ .returned ∧ phase ≠ .lost) :
    Accounted ({ s with started := s.started + 1 }.setPhase s.started phase) where
  inFlight candidateId := by
    refine (h.inFlight candidateId).trans ?_
    change _ = holdings _ (s.started + 1) (Function.update s.phase s.started phase)
    rw [holdings_succ, holdings_update_ge le_rfl, Function.update_self]
    simp only [ReservationPhase.slots, hheld, add_zero]
  usage host := by
    refine (h.usage host).trans ?_
    change _ = holdings _ (s.started + 1) (Function.update s.phase s.started phase)
    rw [holdings_succ, holdings_update_ge le_rfl, Function.update_self]
    simp only [ReservationPhase.cost, hheld, add_zero]
  limit := h.limit
  budget := h.budget
  once other := by
    change GivenOnce (Function.update s.phase s.started phase other) (s.givenBack other)
    rcases eq_or_ne other s.started with rfl | hne
    · rw [Function.update_self]
      exact .inr ⟨hafter.1, hafter.2, h.not_given (by rw [h.unstarted _ le_rfl]; nofun)⟩
    · rw [Function.update_of_ne hne]
      exact h.once other
  unstarted other ho := by
    have hlt : s.started < other := ho
    exact (Function.update_of_ne hlt.ne' phase s.phase).trans (h.unstarted other hlt.le)
  nonneg other reservation hr := by
    change (Function.update s.phase s.started phase other).held = _ at hr
    rcases eq_or_ne other s.started with rfl | hne
    · rw [Function.update_self, hheld] at hr
      cases hr
    · rw [Function.update_of_ne hne] at hr
      exact h.nonneg other reservation hr

/-- The host of a sum of costs that are not negative. -/
theorem holdings_cpu_nonneg {phases : Nat → ReservationPhase} (host : String) (count : Nat)
    (h : ∀ index reservation, (phases index).held = some reservation → 0 ≤ reservation.resourceCostCpu) :
    0 ≤ (holdings (ReservationPhase.cost host) count phases).cpu := by
  induction count with
  | zero => exact zero_literal.ge
  | succ count ih =>
    rw [holdings_succ, HostLoad.add_cpu]
    apply add_nonneg ih
    unfold ReservationPhase.cost
    split
    · next reservation hr =>
      split
      · exact h count reservation hr
      · exact zero_literal.ge
    · exact zero_literal.ge

theorem holdings_cost_eq_zero {phases : Nat → ReservationPhase} {host : String} {count : Nat}
    (h : (holdings (ReservationPhase.cost host) count phases).requests = 0) :
    holdings (ReservationPhase.cost host) count phases = 0 := by
  have hzero : ∀ i, HostLoad.requestCount ((phases i).cost host) = 0 → (phases i).cost host = 0 := by
    intro i hi
    unfold ReservationPhase.cost at hi ⊢
    cases hr : (phases i).held with
    | none => rfl
    | some reservation =>
      rw [hr] at hi
      dsimp only at hi ⊢
      by_cases hg : reservation.hostGroup = some host
      · rw [if_pos hg] at hi
        cases hi
      · rw [if_neg hg]
  exact holdings_eq_zero hzero h

/-- A grant takes one reservation on. -/
theorem Accounted.granted (h : Accounted s) {candidate : ProviderCandidate ℚ} {tracker : LoadTracker ℚ}
    (hp : s.phase index ≠ .absent ∧ s.phase index ≠ .returned) (hheld : (s.phase index).held = none)
    (hg : s.tracker.reserveCandidateLoad candidate = some (reservation, tracker))
    (hphase : phase.held = some reservation) (hafter : phase ≠ .returned ∧ phase ≠ .lost) :
    Accounted (s.grant index candidate tracker phase) := by
  obtain ⟨rfl, hroom, hin, husage, hbudget⟩ := LoadTracker.reserveCandidateLoad_some hg
  have hlt := h.lt_started hp.1
  constructor
  · constructor
    · intro candidateId
      have hsum := holdings_update (ReservationPhase.slots candidateId) s.phase hlt phase
      have hold : (s.phase index).slots candidateId = 0 := by
        simp only [ReservationPhase.slots, hheld]
      have hnew : phase.slots candidateId = if candidate.candidateId = candidateId then 1 else 0 := by
        simp only [ReservationPhase.slots, hphase]
        rfl
      rw [hold, zero_add, hnew, ← h.inFlight, Nat.add_comm, ← hin] at hsum
      exact hsum.symm
    · intro host
      have hsum := holdings_update (ReservationPhase.cost host) s.phase hlt phase
      have hold : (s.phase index).cost host = 0 := by
        simp only [ReservationPhase.cost, hheld]
      rw [hold, zero_add, ← h.usage] at hsum
      refine (husage host).trans (Eq.trans ?_ hsum.symm)
      simp only [ReservationPhase.cost, hphase]
      change _ = (if candidate.hostGroup = some host then _ else _) + _
      split
      · exact add_comm _ _
      · exact (zero_add _).symm
    · intro candidateId found limit hf hl
      change Function.update s.lastCandidate _ _ candidateId = _ at hf
      change tracker.inFlight candidateId ≤ _
      rw [hin]
      rcases eq_or_ne candidateId candidate.candidateId with rfl | hne
      · rw [Function.update_self] at hf
        cases hf
        rw [if_pos rfl]
        exact hroom limit hl
      · rw [Function.update_of_ne hne] at hf
        rw [if_neg hne.symm]
        exact h.limit candidateId found limit hf hl
    · intro host found hf
      change hostBudgetExceeded found (tracker.usage host) = false
      by_cases hh : candidate.hostGroup = some host
      · have hlast : (s.grant index candidate tracker phase).lastOnHost host = some candidate := by
          simp only [grant, hh, Function.update_self]
        cases hf.symm.trans hlast
        exact hbudget host hh
      · have hlast : (s.grant index candidate tracker phase).lastOnHost host = s.lastOnHost host := by
          cases ho : candidate.hostGroup with
          | none => simp only [grant, ho]
          | some other =>
            have hne : host ≠ other := fun he => hh (he ▸ ho)
            simp only [grant, ho, Function.update_of_ne hne]
        rw [husage, if_neg hh]
        exact h.budget host found (hlast ▸ hf)
    · intro other
      change GivenOnce (Function.update s.phase index phase other) (s.givenBack other)
      rcases eq_or_ne other index with rfl | hne
      · rw [Function.update_self]
        exact .inr ⟨hafter.1, hafter.2, h.not_given hp.2⟩
      · rw [Function.update_of_ne hne]
        exact h.once other
  · intro other ho
    exact (Function.update_of_ne (hlt.trans_le ho).ne' phase s.phase).trans (h.unstarted other ho)
  · intro other held hr
    change (Function.update s.phase index phase other).held = _ at hr
    rcases eq_or_ne other index with rfl | hne
    · rw [Function.update_self, hphase] at hr
      cases hr
      exact max_zero_nonneg _
    · rw [Function.update_of_ne hne] at hr
      exact h.nonneg other held hr

/-- What is given back leaves the accounts. -/
theorem Accounted.settled (h : Accounted s) (hheld : (s.phase index).held = some reservation) :
    Accounted (s.settle index reservation) := by
  have hbefore : s.phase index ≠ .absent ∧ s.phase index ≠ .returned := by
    constructor <;> intro he <;> rw [he] at hheld <;> cases hheld
  have hlt := h.lt_started hbefore.1
  have hnonneg : ∀ other held, (Function.update s.phase index .returned other).held = some held →
      0 ≤ held.resourceCostCpu := by
    intro other held hr
    rcases eq_or_ne other index with rfl | hne
    · rw [Function.update_self] at hr
      cases hr
    · rw [Function.update_of_ne hne] at hr
      exact h.nonneg other held hr
  have hin : ∀ candidateId, (s.settle index reservation).tracker.inFlight candidateId =
      s.tracker.inFlight candidateId - if reservation.candidateId = candidateId then 1 else 0 :=
    fun candidateId => LoadTracker.releaseCandidateLoad_inFlight candidateId
  have husage : ∀ host, s.tracker.usage host = (s.phase index).cost host +
      (s.settle index reservation).tracker.usage host ∧
      (s.settle index reservation).tracker.usage host =
        holdings (ReservationPhase.cost host) s.started (Function.update s.phase index .returned) := by
    intro host
    have hsum := holdings_update (ReservationPhase.cost host) s.phase hlt .returned
    rw [← h.usage] at hsum
    have hall : s.tracker.usage host = (s.phase index).cost host +
        holdings (ReservationPhase.cost host) s.started (Function.update s.phase index .returned) :=
      (zero_add _).symm.trans hsum.symm
    have hcost : (s.phase index).cost host =
        if reservation.hostGroup = some host then reservation.cost else 0 := by
      simp only [ReservationPhase.cost, hheld]
    have hnew : (s.settle index reservation).tracker.usage host =
        holdings (ReservationPhase.cost host) s.started (Function.update s.phase index .returned) := by
      by_cases hg : reservation.hostGroup = some host
      · rw [hcost, if_pos hg] at hall
        exact LoadTracker.releaseCandidateLoad_usage hg hall
          (holdings_cpu_nonneg host s.started hnonneg) holdings_cost_eq_zero
      · rw [hcost, if_neg hg, zero_add] at hall
        exact (LoadTracker.releaseCandidateLoad_usage_ne hg).trans hall
    exact ⟨hnew ▸ hall, hnew⟩
  constructor
  · constructor
    · intro candidateId
      have hsum := holdings_update (ReservationPhase.slots candidateId) s.phase hlt .returned
      have hslots : (s.phase index).slots candidateId =
          if reservation.candidateId = candidateId then 1 else 0 := by
        simp only [ReservationPhase.slots, hheld]
      have hnew : ReservationPhase.returned.slots candidateId = 0 := rfl
      rw [hslots, hnew, zero_add, ← h.inFlight] at hsum
      rw [hin, ← hsum]
      exact Nat.add_sub_cancel_left _ _
    · exact fun host => (husage host).2
    · intro candidateId candidate limit hf hl
      rw [hin]
      exact (Nat.sub_le _ _).trans (h.limit candidateId candidate limit hf hl)
    · intro host candidate hf
      have hless := (husage host).1
      have hcost : 0 ≤ ((s.phase index).cost host).cpu := by
        simp only [ReservationPhase.cost, hheld]
        split
        · exact h.nonneg index reservation hheld
        · exact zero_literal.ge
      refine hostBudgetExceeded_mono ?_ ?_ ?_ (h.budget host candidate hf)
      · rw [hless, HostLoad.add_cpu]
        exact le_add_of_nonneg_left hcost
      · rw [hless, HostLoad.add_ramMb]
        exact Nat.le_add_left _ _
      · rw [hless, HostLoad.add_vramMb]
        exact Nat.le_add_left _ _
    · intro other
      change GivenOnce (Function.update s.phase index .returned other)
        (Function.update s.givenBack index (s.givenBack index + 1) other)
      rcases eq_or_ne other index with rfl | hne
      · rw [Function.update_self, Function.update_self, h.not_given hbefore.2]
        exact .inl ⟨rfl, rfl⟩
      · rw [Function.update_of_ne hne, Function.update_of_ne hne]
        exact h.once other
  · intro other ho
    exact (Function.update_of_ne (hlt.trans_le ho).ne' _ s.phase).trans (h.unstarted other ho)
  · exact hnonneg

/-- A call that is dropped out of a guard or without a reservation leaves what it has to a task. -/
theorem Accounted.cancelled (h : Accounted s) (hk : (s.phase index).inHand = false) :
    Accounted (s.setPhase index (dropped (s.phase index))) := by
  have hsame : dropped (s.phase index) = s.phase index →
      Accounted (s.setPhase index (dropped (s.phase index))) := by
    intro he
    rw [he, LoadWorld.setPhase, Function.update_eq_self]
    exact h
  cases hp : s.phase index with
  | arriving candidate =>
    exact h.setPhase (by rw [hp]; rfl) (by rw [hp]; exact ⟨nofun, nofun⟩) ⟨nofun, nofun⟩
  | queued candidate =>
    exact h.setPhase (by rw [hp]; rfl) (by rw [hp]; exact ⟨nofun, nofun⟩) ⟨nofun, nofun⟩
  | guarded reservation =>
    exact h.setPhase (by rw [hp]; rfl) (by rw [hp]; exact ⟨nofun, nofun⟩) ⟨nofun, nofun⟩
  | leavingQueue reservation | recordingWait reservation | releasing reservation =>
    rw [hp] at hk
    cases hk
  | absent | returning reservation | unqueueing candidateId | returned | ended | lost =>
    rw [hp] at hsame
    exact hsame rfl

theorem Accounted.next (h : Accounted s) {action : LoadAction} (hk : KeepsHold s action) :
    Accounted (s.next action) := by
  cases action with
  | start candidate waitForCapacity =>
    cases waitForCapacity with
    | true => exact (h.started (.queued candidate) rfl ⟨nofun, nofun⟩).waiting _
    | false => exact h.started (.arriving candidate) rfl ⟨nofun, nofun⟩
  | reserve index =>
    unfold LoadWorld.next
    dsimp only
    split
    · next candidate hp =>
      have hheld : (s.phase index).held = none := by rw [hp]; rfl
      have hbefore : s.phase index ≠ .absent ∧ s.phase index ≠ .returned := by
        rw [hp]
        exact ⟨nofun, nofun⟩
      split
      · next reservation tracker hg => exact h.granted hbefore hheld hg rfl ⟨nofun, nofun⟩
      · exact h.setPhase hheld.symm hbefore ⟨nofun, nofun⟩
    · next candidate hp =>
      have hheld : (s.phase index).held = none := by rw [hp]; rfl
      split
      · next reservation tracker hg =>
        exact h.granted (by rw [hp]; exact ⟨nofun, nofun⟩) hheld hg rfl ⟨nofun, nofun⟩
      · exact h
    · exact h
  | leaveQueue index =>
    unfold LoadWorld.next
    dsimp only
    split
    · next reservation hp =>
      have hleft : Accounted (s.setPhase index (.recordingWait reservation)) :=
        h.setPhase (by rw [hp]; rfl) (by rw [hp]; exact ⟨nofun, nofun⟩) ⟨nofun, nofun⟩
      exact hleft.waiting _
    · exact h
  | guard index =>
    unfold LoadWorld.next
    dsimp only
    split
    · next reservation hp =>
      exact h.setPhase (by rw [hp]; rfl) (by rw [hp]; exact ⟨nofun, nofun⟩) ⟨nofun, nofun⟩
    · exact h
  | timeOut index =>
    unfold LoadWorld.next
    dsimp only
    split
    · next candidate hp =>
      exact h.setPhase (by rw [hp]; rfl) (by rw [hp]; exact ⟨nofun, nofun⟩) ⟨nofun, nofun⟩
    · exact h
  | release index =>
    unfold LoadWorld.next
    dsimp only
    split
    · next reservation hp =>
      exact h.setPhase (by rw [hp]; rfl) (by rw [hp]; exact ⟨nofun, nofun⟩) ⟨nofun, nofun⟩
    · exact h
  | giveBack index =>
    unfold LoadWorld.next
    dsimp only
    split
    · next reservation hp => exact h.settled (by rw [hp]; rfl)
    · next reservation hp => exact h.settled (by rw [hp]; rfl)
    · exact h
  | unqueue index =>
    unfold LoadWorld.next
    dsimp only
    split
    · next candidateId hp =>
      have hended : Accounted (s.setPhase index .ended) :=
        h.setPhase (by rw [hp]; rfl) (by rw [hp]; exact ⟨nofun, nofun⟩) ⟨nofun, nofun⟩
      exact hended.waiting _
    · exact h
  | cancel index => exact h.cancelled (hk index rfl)

/-- A call that is dropped with its reservation in hand never gives it back. -/
theorem not_balanced_of_lost {action : LoadAction} (hk : ¬ KeepsHold s action) :
    ¬ Balanced (s.next action) := by
  simp only [KeepsHold, not_forall, Bool.not_eq_false] at hk
  obtain ⟨index, rfl, hhand⟩ := hk
  have hlost : (s.next (.cancel index)).phase index = .lost := by
    change Function.update s.phase index (dropped (s.phase index)) index = _
    rw [Function.update_self]
    cases hp : s.phase index <;> rw [hp] at hhand <;> first | rfl | cases hhand
  intro hb
  rcases hb.once index with ⟨hr, -⟩ | ⟨-, hl, -⟩
  · rw [hlost] at hr
    cases hr
  · exact hl hlost

/-- The accounts are right in every state of a run exactly when no call of it is cancelled with its
reservation in hand. -/
theorem balanced_iff_keepsHold (actions : List LoadAction) :
    (∀ before, before <+: actions → Balanced (run LoadWorld.next start before)) ↔
      Along LoadWorld.next KeepsHold start actions :=
  (along_iff_prefixes LoadWorld.next (I := Accounted) (fun _ _ h hk => h.next hk) (fun _ h => h.toBalanced)
    (fun _ _ _ hk => not_balanced_of_lost hk) start_accounted).symm

/-- One request at a time, without a host. -/
def solver : ProviderCandidate ℚ :=
  { name := "", baseUrl := none, baseUrlScope := none, source := "config", providerType := "openai"
    configuredModel := "gpt", specialties := [], hostGroup := none, maxConcurrentRequests := some 1
    resourceCostCpu := 1, resourceCostRamMb := 0, resourceCostVramMb := 0, hostCpuBudget := none
    hostRamBudgetMb := none, hostVramBudgetMb := none }

/-- The call is granted in the queue and dropped before it has left it. -/
def droppedInQueue : List LoadAction := [.start solver true, .reserve 0, .cancel 0]

/-- The request counts for ever, though nobody runs it. -/
theorem droppedInQueue_unbalanced :
    (run LoadWorld.next start droppedInQueue).tracker.inFlight solver.candidateId = 1 ∧
      (∀ index, ((run LoadWorld.next start droppedInQueue).phase index).held = none) ∧
      ¬ ∀ actions, Balanced (run LoadWorld.next start actions) := by
  have hcount : (run LoadWorld.next start droppedInQueue).tracker.inFlight solver.candidateId = 1 := by
    change (LoadTracker.increment ∅ solver.candidateId)[solver.candidateId]?.getD 0 = 1
    rw [LoadTracker.increment_getD, if_pos rfl]
    rfl
  have hheld : ∀ index, ((run LoadWorld.next start droppedInQueue).phase index).held = none := by
    intro index
    cases index <;> rfl
  refine ⟨hcount, hheld, fun h => ?_⟩
  rcases (h droppedInQueue).once 0 with ⟨hr, -⟩ | ⟨-, hl, -⟩
  · cases hr
  · exact hl rfl

end LoadWorld

end Gail.Orchestration
