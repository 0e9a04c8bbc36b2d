import Gail.Orchestration.Selection
import Mathlib.Algebra.Order.Field.Basic
import Mathlib.Tactic.NormNum

/-! The load tracker: how many requests each candidate runs and waits for, and what its host has in
use. Counters are unbounded and the costs of the theorems are rational, so nothing saturates. -/
namespace Gail.Orchestration
open Gail.Library Gail.Trading

@[ext] structure HostLoad (F : Type) where
  requests : Nat
  cpu : F
  ramMb : Nat
  vramMb : Nat

structure LoadReservation (F : Type) where
  candidateId : String
  hostGroup : Option String
  resourceCostCpu : F
  resourceCostRamMb : Nat
  resourceCostVramMb : Nat

structure LoadTracker (F : Type) where
  candidateInFlight : Std.TreeMap String Nat
  candidateWaiting : Std.TreeMap String Nat
  hostUsage : Std.TreeMap String (HostLoad F)

section Operations
variable {F : Type} [Scalar F]

/-- `HostLoad::default()`. -/
def HostLoad.none : HostLoad F := { requests := 0, cpu := 0.0, ramMb := 0, vramMb := 0 }

/-- The usage with one more request of the candidate. -/
def HostLoad.project (current : HostLoad F) (candidate : ProviderCandidate F) : HostLoad F :=
  { requests := current.requests + 1
    cpu := current.cpu + Scalar.max candidate.resourceCostCpu 0.0
    ramMb := current.ramMb + candidate.resourceCostRamMb
    vramMb := current.vramMb + candidate.resourceCostVramMb }

def HostLoad.release (current : HostLoad F) (reservation : LoadReservation F) : HostLoad F :=
  { requests := current.requests - 1
    cpu := Scalar.max (current.cpu - reservation.resourceCostCpu) 0.0
    ramMb := current.ramMb - reservation.resourceCostRamMb
    vramMb := current.vramMb - reservation.resourceCostVramMb }

def hostBudgetRatio (candidate : ProviderCandidate F) (usage : HostLoad F) : F :=
  let cpu := (candidate.hostCpuBudget.filter fun budget => 0.0 < budget).map fun budget =>
    usage.cpu / budget
  let ram := (candidate.hostRamBudgetMb.filter fun budget => 0 < budget).map fun budget =>
    (Scalar.ofCount usage.ramMb / Scalar.ofCount budget : F)
  let vram := (candidate.hostVramBudgetMb.filter fun budget => 0 < budget).map fun budget =>
    (Scalar.ofCount usage.vramMb / Scalar.ofCount budget : F)
  Scalar.max ((cpu.toList ++ ram.toList ++ vram.toList).foldl Scalar.max 0.0) 0.0

def hostBudgetExceeded (candidate : ProviderCandidate F) (usage : HostLoad F) : Bool :=
  1.0 < hostBudgetRatio candidate usage

/-- The reservation that a grant to the candidate makes. -/
def ProviderCandidate.reservation (candidate : ProviderCandidate F) : LoadReservation F :=
  { candidateId := candidate.candidateId
    hostGroup := candidate.hostGroup
    resourceCostCpu := Scalar.max candidate.resourceCostCpu 0.0
    resourceCostRamMb := candidate.resourceCostRamMb
    resourceCostVramMb := candidate.resourceCostVramMb }

namespace LoadTracker

def empty : LoadTracker F := { candidateInFlight := ∅, candidateWaiting := ∅, hostUsage := ∅ }

/-- What the tracker says of a candidate and of a host; what is not there counts as nothing. -/
def inFlight (tracker : LoadTracker F) (candidateId : String) : Nat :=
  tracker.candidateInFlight[candidateId]?.getD 0

def waiting (tracker : LoadTracker F) (candidateId : String) : Nat :=
  tracker.candidateWaiting[candidateId]?.getD 0

def usage (tracker : LoadTracker F) (host : String) : HostLoad F :=
  tracker.hostUsage[host]?.getD .none

/-- `and_modify(|value| *value += 1).or_insert(1)`. -/
def increment (counts : Std.TreeMap String Nat) (key : String) : Std.TreeMap String Nat :=
  counts.insert key ((counts[key]?.map fun value => value + 1).getD 1)

/-- A count goes down by one and its last unit takes the entry away. -/
def decrement (counts : Std.TreeMap String Nat) (key : String) : Std.TreeMap String Nat :=
  match counts[key]? with
  | none => counts
  | some current => if current ≤ 1 then counts.erase key else counts.insert key (current - 1)

/-- `reserve_candidate_load` under the lock of the tracker. -/
def reserveCandidateLoad (tracker : LoadTracker F) (candidate : ProviderCandidate F) :
    Option (LoadReservation F × LoadTracker F) :=
  if candidate.maxConcurrentRequests.any fun limit =>
      max limit 1 ≤ tracker.inFlight candidate.candidateId then none
  else
    let granted := { tracker with
      candidateInFlight := increment tracker.candidateInFlight candidate.candidateId }
    match candidate.hostGroup with
    | none => some (candidate.reservation, granted)
    | some hostGroup =>
      let projected := (tracker.usage hostGroup).project candidate
      if hostBudgetExceeded candidate projected then none
      else
        some (candidate.reservation,
          { granted with hostUsage := tracker.hostUsage.insert hostGroup projected })

/-- The part of `release_candidate_load` that concerns the host. -/
def releaseHost (usages : Std.TreeMap String (HostLoad F)) (reservation : LoadReservation F) :
    Std.TreeMap String (HostLoad F) :=
  match reservation.hostGroup with
  | none => usages
  | some hostGroup =>
    match usages[hostGroup]? with
    | none => usages
    | some current =>
      let current := current.release reservation
      if current.requests = 0 then usages.erase hostGroup else usages.insert hostGroup current

def releaseCandidateLoad (tracker : LoadTracker F) (reservation : LoadReservation F) : LoadTracker F :=
  { tracker with
    candidateInFlight := decrement tracker.candidateInFlight reservation.candidateId
    hostUsage := releaseHost tracker.hostUsage reservation }

/-- A request enters the queue of a candidate and leaves it. -/
def enterQueue (tracker : LoadTracker F) (candidateId : String) : LoadTracker F :=
  { tracker with candidateWaiting := increment tracker.candidateWaiting candidateId }

def releaseCandidateWaiting (tracker : LoadTracker F) (candidateId : String) : LoadTracker F :=
  { tracker with candidateWaiting := decrement tracker.candidateWaiting candidateId }

end LoadTracker

end Operations

namespace LoadTracker

theorem increment_getD (counts : Std.TreeMap String Nat) (key other : String) :
    (increment counts key)[other]?.getD 0 =
      counts[other]?.getD 0 + if key = other then 1 else 0 := by
  simp only [increment, Std.TreeMap.getElem?_insert, Std.LawfulEqCmp.compare_eq_iff_eq]
  split
  · next h =>
    subst h
    cases counts[key]? <;> simp
  · rfl

theorem decrement_getD (counts : Std.TreeMap String Nat) (key other : String) :
    (decrement counts key)[other]?.getD 0 =
      counts[other]?.getD 0 - if key = other then 1 else 0 := by
  unfold decrement
  cases hc : counts[key]? with
  | none =>
    dsimp only
    split
    · next h => rw [← h, hc]; rfl
    · rfl
  | some current =>
    dsimp only
    by_cases hk : key = other
    · subst hk
      rw [if_pos rfl, hc]
      split
      · simp only [Std.TreeMap.getElem?_erase_self, Option.getD_none, Option.getD_some]
        omega
      · simp only [Std.TreeMap.getElem?_insert_self, Option.getD_some]
    · rw [if_neg hk]
      split
      · simp only [Std.TreeMap.getElem?_erase, Std.LawfulEqCmp.compare_eq_iff_eq, if_neg hk]
        rfl
      · simp only [Std.TreeMap.getElem?_insert, Std.LawfulEqCmp.compare_eq_iff_eq, if_neg hk]
        rfl

end LoadTracker

section Exact

/-! Exact costs add up. -/

instance : Add (HostLoad ℚ) :=
  ⟨fun a b => ⟨a.requests + b.requests, a.cpu + b.cpu, a.ramMb + b.ramMb, a.vramMb + b.vramMb⟩⟩

instance : Zero (HostLoad ℚ) := ⟨.none⟩

@[simp] theorem HostLoad.add_requests (a b : HostLoad ℚ) : (a + b).requests = a.requests + b.requests := rfl

@[simp] theorem HostLoad.add_cpu (a b : HostLoad ℚ) : (a + b).cpu = a.cpu + b.cpu := rfl

@[simp] theorem HostLoad.add_ramMb (a b : HostLoad ℚ) : (a + b).ramMb = a.ramMb + b.ramMb := rfl

@[simp] theorem HostLoad.add_vramMb (a b : HostLoad ℚ) : (a + b).vramMb = a.vramMb + b.vramMb := rfl

theorem zero_literal : (0.0 : ℚ) = 0 := by norm_num

@[simp] theorem HostLoad.zero_requests : (0 : HostLoad ℚ).requests = 0 := rfl

@[simp] theorem HostLoad.zero_cpu : (0 : HostLoad ℚ).cpu = 0 := zero_literal

@[simp] theorem HostLoad.zero_ramMb : (0 : HostLoad ℚ).ramMb = 0 := rfl

@[simp] theorem HostLoad.zero_vramMb : (0 : HostLoad ℚ).vramMb = 0 := rfl

instance : AddCommMonoid (HostLoad ℚ) where
  add_assoc a b c := by ext <;> simp [add_assoc]
  zero_add a := by ext <;> simp
  add_zero a := by ext <;> simp
  add_comm a b := by ext <;> simp [add_comm]
  nsmul := nsmulRec

/-- The number of requests of a load. -/
def HostLoad.requestCount : HostLoad ℚ →+ Nat where
  toFun := HostLoad.requests
  map_zero' := rfl
  map_add' _ _ := rfl

/-- What a reservation has of its host. -/
def LoadReservation.cost (reservation : LoadReservation ℚ) : HostLoad ℚ :=
  { requests := 1
    cpu := reservation.resourceCostCpu
    ramMb := reservation.resourceCostRamMb
    vramMb := reservation.resourceCostVramMb }

theorem max_zero_nonneg (x : ℚ) : 0 ≤ Scalar.max x 0.0 := by
  have hmax : (Scalar.max x 0.0 : ℚ) = if x < 0 then 0 else x := by
    rw [zero_literal]; rfl
  rw [hmax]
  split
  · exact le_refl 0
  · next h => exact not_lt.mp h

theorem HostLoad.project_eq (current : HostLoad ℚ) (candidate : ProviderCandidate ℚ) :
    current.project candidate = current + candidate.reservation.cost := rfl

/-- In exact arithmetic a release takes back just what the reservation has. -/
theorem HostLoad.release_cost {rest : HostLoad ℚ} {reservation : LoadReservation ℚ} (h : 0 ≤ rest.cpu) :
    (reservation.cost + rest).release reservation = rest := by
  have hcpu : reservation.cost.cpu + rest.cpu - reservation.resourceCostCpu = rest.cpu :=
    add_sub_cancel_left _ _
  have hmax : (Scalar.max rest.cpu 0.0 : ℚ) = rest.cpu := by
    rw [zero_literal]
    exact if_neg (not_lt.mpr h)
  ext
  · exact Nat.add_sub_cancel_left _ _
  · simp only [release, add_cpu, hcpu, hmax]
  · exact Nat.add_sub_cancel_left _ _
  · exact Nat.add_sub_cancel_left _ _

theorem one_lt_max {x y : ℚ} : 1 < (Scalar.max x y : ℚ) ↔ 1 < x ∨ 1 < y := by
  have hmax : (Scalar.max x y : ℚ) = if x < y then y else x := rfl
  rw [hmax]
  split
  · next h => exact ⟨.inr, fun ho => ho.elim (fun hx => hx.trans h) id⟩
  · next h => exact ⟨.inl, fun ho => ho.elim id fun hy => hy.trans_le (not_lt.mp h)⟩

theorem one_lt_foldl_max {values : List ℚ} {start : ℚ} :
    1 < values.foldl Scalar.max start ↔ 1 < start ∨ ∃ value ∈ values, 1 < value := by
  induction values generalizing start with
  | nil => simp
  | cons value values ih => simp only [List.foldl_cons, ih, one_lt_max, List.mem_cons, exists_eq_or_imp,
      or_assoc]

/-- The ratio of a resource that has a budget. -/
private theorem exists_ratio {α : Type} {budget : Option α} {positive : α → Bool} {ratio : α → ℚ} :
    (∃ value ∈ ((budget.filter positive).map ratio).toList, 1 < value) ↔
      ∃ found, budget = some found ∧ positive found = true ∧ 1 < ratio found := by
  simp only [Option.mem_toList, Option.map_eq_some_iff, Option.filter_eq_some_iff]
  constructor
  · rintro ⟨_, ⟨found, ⟨hf, hp⟩, rfl⟩, hlt⟩
    exact ⟨found, hf, hp, hlt⟩
  · rintro ⟨found, hf, hp, hlt⟩
    exact ⟨ratio found, ⟨found, ⟨hf, hp⟩, rfl⟩, hlt⟩

/-- The budget is exceeded when one of the budgeted resources is. -/
theorem hostBudgetExceeded_iff {candidate : ProviderCandidate ℚ} {usage : HostLoad ℚ} :
    hostBudgetExceeded candidate usage = true ↔
      (∃ budget, candidate.hostCpuBudget = some budget ∧ 0 < budget ∧ budget < usage.cpu) ∨
      (∃ budget, candidate.hostRamBudgetMb = some budget ∧ 0 < budget ∧ budget < usage.ramMb) ∨
      (∃ budget, candidate.hostVramBudgetMb = some budget ∧ 0 < budget ∧ budget < usage.vramMb) := by
  have hone : (1.0 : ℚ) = 1 := by norm_num
  have hcount : ∀ used budget : Nat, 0 < budget →
      (1 < (Scalar.ofCount used / Scalar.ofCount budget : ℚ) ↔ budget < used) := by
    intro used budget hb
    change 1 < (used : ℚ) / (budget : ℚ) ↔ _
    rw [one_lt_div (by exact_mod_cast hb), Nat.cast_lt]
  unfold hostBudgetExceeded hostBudgetRatio
  dsimp only
  rw [decide_eq_true_eq, hone, zero_literal, one_lt_max, one_lt_foldl_max]
  simp only [not_lt.mpr (zero_le_one' ℚ), false_or, or_false, List.mem_append, or_and_right,
    exists_or, exists_ratio, decide_eq_true_eq, or_assoc]
  refine or_congr (exists_congr fun budget => ?_) (or_congr (exists_congr fun budget => ?_)
    (exists_congr fun budget => ?_))
  · refine and_congr_right fun _ => and_congr_right fun hb => one_lt_div hb
  · refine and_congr_right fun _ => and_congr_right fun hb => hcount _ _ hb
  · refine and_congr_right fun _ => and_congr_right fun hb => hcount _ _ hb

/-- Less usage does not exceed a budget that more usage is within. -/
theorem hostBudgetExceeded_mono {candidate : ProviderCandidate ℚ} {less more : HostLoad ℚ}
    (hcpu : less.cpu ≤ more.cpu) (hram : less.ramMb ≤ more.ramMb) (hvram : less.vramMb ≤ more.vramMb)
    (h : hostBudgetExceeded candidate more = false) : hostBudgetExceeded candidate less = false := by
  rw [Bool.eq_false_iff] at h ⊢
  intro hless
  apply h
  rw [hostBudgetExceeded_iff] at hless ⊢
  rcases hless with ⟨budget, hb, hp, hlt⟩ | ⟨budget, hb, hp, hlt⟩ | ⟨budget, hb, hp, hlt⟩
  · exact .inl ⟨budget, hb, hp, hlt.trans_le hcpu⟩
  · exact .inr (.inl ⟨budget, hb, hp, hlt.trans_le hram⟩)
  · exact .inr (.inr ⟨budget, hb, hp, hlt.trans_le hvram⟩)

namespace LoadTracker
variable {tracker granted : LoadTracker ℚ} {candidate : ProviderCandidate ℚ}
  {reservation : LoadReservation ℚ}

/-- A grant stays within the limit and the budget of its candidate and adds one reservation. -/
theorem reserveCandidateLoad_some
    (h : tracker.reserveCandidateLoad candidate = some (reservation, granted)) :
    reservation = candidate.reservation ∧
      (∀ limit, candidate.maxConcurrentRequests = some limit →
        tracker.inFlight candidate.candidateId < max limit 1) ∧
      (∀ candidateId, granted.inFlight candidateId =
        tracker.inFlight candidateId + if candidate.candidateId = candidateId then 1 else 0) ∧
      (∀ host, granted.usage host =
        if candidate.hostGroup = some host then tracker.usage host + reservation.cost
        else tracker.usage host) ∧
      ∀ host, candidate.hostGroup = some host →
        hostBudgetExceeded candidate (granted.usage host) = false := by
  unfold reserveCandidateLoad at h
  split at h
  · cases h
  rename_i hlimit
  have hroom : ∀ limit, candidate.maxConcurrentRequests = some limit →
      tracker.inFlight candidate.candidateId < max limit 1 := by
    intro limit hl
    simp only [hl, Option.any_some, decide_eq_true_eq, not_le] at hlimit
    exact hlimit
  dsimp only at h
  cases hg : candidate.hostGroup with
  | none =>
    rw [hg] at h
    cases h
    refine ⟨rfl, hroom, fun candidateId => increment_getD _ _ _, ?_, ?_⟩
    · intro host
      rw [if_neg (by simp)]
      rfl
    · intro host hh
      cases hh
  | some hostGroup =>
    rw [hg] at h
    dsimp only at h
    split at h
    · cases h
    rename_i hbudget
    cases h
    have husage : ∀ host, ({ tracker with
        candidateInFlight := increment tracker.candidateInFlight candidate.candidateId
        hostUsage := tracker.hostUsage.insert hostGroup
          ((tracker.usage hostGroup).project candidate) } : LoadTracker ℚ).usage host =
        if hostGroup = host then (tracker.usage hostGroup).project candidate else tracker.usage host := by
      intro host
      simp only [usage, Std.TreeMap.getElem?_insert, Std.LawfulEqCmp.compare_eq_iff_eq]
      split <;> rfl
    refine ⟨rfl, hroom, fun candidateId => increment_getD _ _ _, ?_, ?_⟩
    · intro host
      rw [husage]
      by_cases hh : hostGroup = host
      · rw [if_pos hh, if_pos (congrArg some hh), hh, HostLoad.project_eq]
      · rw [if_neg hh, if_neg fun he => hh (Option.some.inj he)]
    · intro host hh
      rw [husage, if_pos (Option.some.inj hh)]
      exact Bool.eq_false_iff.mpr hbudget

theorem releaseCandidateLoad_inFlight (candidateId : String) :
    (tracker.releaseCandidateLoad reservation).inFlight candidateId =
      tracker.inFlight candidateId - if reservation.candidateId = candidateId then 1 else 0 :=
  decrement_getD _ _ _

theorem releaseCandidateLoad_usage_ne {host : String} (h : reservation.hostGroup ≠ some host) :
    (tracker.releaseCandidateLoad reservation).usage host = tracker.usage host := by
  simp only [usage, releaseCandidateLoad, releaseHost]
  split
  · rfl
  · next hostGroup hg =>
    have hne : hostGroup ≠ host := fun he => h (hg.trans (congrArg some he))
    split
    · rfl
    · split
      · rw [Std.TreeMap.getElem?_erase, if_neg (by simpa using hne)]
      · rw [Std.TreeMap.getElem?_insert, if_neg (by simpa using hne)]

/-- A release leaves on its host what the others have there. -/
theorem releaseCandidateLoad_usage {host : String} {rest : HostLoad ℚ}
    (hg : reservation.hostGroup = some host) (hu : tracker.usage host = reservation.cost + rest)
    (hcpu : 0 ≤ rest.cpu) (hnone : rest.requests = 0 → rest = 0) :
    (tracker.releaseCandidateLoad reservation).usage host = rest := by
  have hfound : tracker.hostUsage[host]? = some (reservation.cost + rest) := by
    unfold usage at hu
    cases hf : tracker.hostUsage[host]? with
    | none =>
      rw [hf] at hu
      have hrequests := congrArg HostLoad.requests hu
      simp only [Option.getD_none, HostLoad.add_requests, LoadReservation.cost, HostLoad.none] at hrequests
      omega
    | some current =>
      rw [hf] at hu
      exact congrArg some hu
  simp only [usage, releaseCandidateLoad, releaseHost, hg, hfound, HostLoad.release_cost hcpu]
  split
  · next hz =>
    rw [Std.TreeMap.getElem?_erase_self, hnone hz]
    rfl
  · rw [Std.TreeMap.getElem?_insert_self]
    rfl

end LoadTracker

end Exact

end Gail.Orchestration
