import Gail.Aer.AerCodec

/-! Spike vectors as address events and back: which positions of the vector the events set. -/
namespace Gail.Aer
open Gail.Library

def maxDenseSpikes : Nat := 16 * 1024 * 1024

/-- One event for each byte that is not zero. -/
def spikesToEvents (tsUs : BitVec 64) (baseAddr : BitVec 32) (spikes : List (BitVec 8)) : List AerEvent :=
  spikes.zipIdx.filterMap fun (spike, index) =>
    if spike = 0 then none
    else some { tsUs, addr := baseAddr + BitVec.ofNat 32 index, value := 1 }

def encodeSpikes (tsUs : BitVec 64) (baseAddr : BitVec 32) (spikes : List (BitVec 8)) : List (BitVec 8) :=
  encodeEvents (spikesToEvents tsUs baseAddr spikes)

/-- `addr.saturating_sub(base_addr)`: every address below the base has the index zero. -/
def AerEvent.index (event : AerEvent) (baseAddr : BitVec 32) : Nat := event.addr.toNat - baseAddr.toNat

/-- One round of the loop over the events. -/
def applyEvent (baseAddr : BitVec 32) (applied : Nat × List (BitVec 8)) (event : AerEvent) :
    Nat × List (BitVec 8) :=
  if event.value = 0 then applied
  else if event.index baseAddr < applied.2.length then
    (applied.1 + 1, applied.2.set (event.index baseAddr) 1)
  else applied

/-- How many events were applied, and the destination. -/
def applyEventsToSpikes (events : List AerEvent) (baseAddr : BitVec 32) (destination : List (BitVec 8)) :
    Nat × List (BitVec 8) :=
  events.foldl (applyEvent baseAddr) (0, destination)

def validateDenseLength (length : Nat) : Except AerError Unit :=
  if maxDenseSpikes < length then .error (.badRequest "AER dense output exceeds the 16 MiB limit") else .ok ()

def decodeSpikes (payload : List (BitVec 8)) (baseAddr : BitVec 32) (length : Nat) :
    Except AerError (List (BitVec 8)) := do
  validateDenseLength length
  let events ← decodeEvents payload
  return (applyEventsToSpikes events baseAddr (List.replicate length 0)).2

section Applying
variable {baseAddr : BitVec 32} {events : List AerEvent} {applied : Nat × List (BitVec 8)}

theorem length_applyEvent (baseAddr : BitVec 32) (applied : Nat × List (BitVec 8)) (event : AerEvent) :
    (applyEvent baseAddr applied event).2.length = applied.2.length := by
  unfold applyEvent
  split_ifs
  · rfl
  · rw [List.length_set]
  · rfl

theorem getElem?_applyEvent (baseAddr : BitVec 32) (applied : Nat × List (BitVec 8)) (event : AerEvent)
    {i : Nat} (hi : i < applied.2.length) :
    (applyEvent baseAddr applied event).2[i]? =
      if event.value ≠ 0 ∧ event.index baseAddr = i then some 1 else applied.2[i]? := by
  unfold applyEvent
  by_cases hvalue : event.value = 0
  · rw [if_pos hvalue, if_neg fun h => h.1 hvalue]
  · rw [if_neg hvalue]
    by_cases hindex : event.index baseAddr = i
    · subst hindex
      have hset : event.value ≠ 0 ∧ event.index baseAddr = event.index baseAddr := ⟨hvalue, rfl⟩
      rw [if_pos hi, if_pos hset]
      exact List.getElem?_set_self hi
    · have hnone : ¬ (event.value ≠ 0 ∧ event.index baseAddr = i) := fun h => hindex h.2
      rw [if_neg hnone]
      split_ifs
      · exact List.getElem?_set_ne hindex
      · rfl

/-- A position is set when one of the events has its index, and else keeps what it was. -/
theorem getElem?_foldl_applyEvent {i : Nat} (hi : i < applied.2.length) :
    (events.foldl (applyEvent baseAddr) applied).2[i]? =
      if ∃ event ∈ events, event.value ≠ 0 ∧ event.index baseAddr = i then some 1 else applied.2[i]? := by
  induction events generalizing applied with
  | nil => simp
  | cons event events ih =>
    have hlength := length_applyEvent baseAddr applied event
    rw [List.foldl_cons, ih (hlength.symm ▸ hi), getElem?_applyEvent baseAddr applied event hi]
    simp only [List.exists_mem_cons_iff]
    by_cases hlater : ∃ event ∈ events, event.value ≠ 0 ∧ event.index baseAddr = i
    · rw [if_pos hlater, if_pos (.inr hlater)]
    · rw [if_neg hlater]
      simp only [hlater, or_false]

theorem length_foldl_applyEvent :
    (events.foldl (applyEvent baseAddr) applied).2.length = applied.2.length := by
  induction events generalizing applied with
  | nil => rfl
  | cons event events ih => rw [List.foldl_cons, ih, length_applyEvent]

/-- A position above zero has the index of one address only, and the position zero too, when no event lies below
the base. -/
theorem index_eq_iff {event : AerEvent} {i : Nat} (h : 0 < i ∨ baseAddr.toNat ≤ event.addr.toNat) :
    event.index baseAddr = i ↔ event.addr.toNat = baseAddr.toNat + i := by
  unfold AerEvent.index
  omega

end Applying

section Decoding
variable {payload : List (BitVec 8)} {baseAddr : BitVec 32} {length : Nat} {events : List AerEvent}

theorem decodeSpikes_of_le (h : length ≤ maxDenseSpikes) (hd : decodeEvents payload = .ok events) :
    decodeSpikes payload baseAddr length =
      .ok (applyEventsToSpikes events baseAddr (List.replicate length 0)).2 := by
  rw [decodeSpikes, validateDenseLength, if_neg (not_lt.mpr h), hd]
  rfl

/-- The positions of a vector of zeros after the events, where no event below the base counts. -/
theorem getElem?_applyEventsToSpikes {i : Nat} (hi : i < length)
    (h : 0 < i ∨ ∀ event ∈ events, event.value ≠ 0 → baseAddr.toNat ≤ event.addr.toNat) :
    (applyEventsToSpikes events baseAddr (List.replicate length 0)).2[i]? =
      some (if ∃ event ∈ events, event.value ≠ 0 ∧ event.addr.toNat = baseAddr.toNat + i then 1 else 0) := by
  have hset : (∃ event ∈ events, event.value ≠ 0 ∧ event.index baseAddr = i) ↔
      ∃ event ∈ events, event.value ≠ 0 ∧ event.addr.toNat = baseAddr.toNat + i :=
    exists_congr fun event => and_congr_right fun hevent => and_congr_right fun hvalue =>
      index_eq_iff (h.imp_right fun h => h event hevent hvalue)
  rw [applyEventsToSpikes, getElem?_foldl_applyEvent (by rwa [List.length_replicate]),
    List.getElem?_replicate_of_lt hi]
  simp only [hset]
  split_ifs <;> rfl

end Decoding

section Encoding
variable {tsUs : BitVec 64} {baseAddr : BitVec 32} {spikes : List (BitVec 8)}

theorem mem_sortByTime {event : AerEvent} {events : List AerEvent} :
    event ∈ sortByTime events ↔ event ∈ events :=
  (sortByKey_perm events).mem_iff

/-- The events of a vector whose addresses do not go past the last one. -/
theorem mem_spikesToEvents_iff (h : baseAddr.toNat + spikes.length ≤ 2 ^ 32) {event : AerEvent} :
    event ∈ spikesToEvents tsUs baseAddr spikes ↔
      event.tsUs = tsUs ∧ event.value = 1 ∧ ∃ i spike, spikes[i]? = some spike ∧ spike ≠ 0 ∧
        event.addr.toNat = baseAddr.toNat + i := by
  unfold spikesToEvents
  simp only [List.mem_filterMap, Prod.exists, List.mem_zipIdx_iff_getElem?]
  have haddr {i : Nat} {spike : BitVec 8} (hi : spikes[i]? = some spike) :
      (baseAddr + BitVec.ofNat 32 i).toNat = baseAddr.toNat + i := by
    obtain ⟨hlt, -⟩ := List.getElem?_eq_some_iff.mp hi
    rw [BitVec.toNat_add, BitVec.toNat_ofNat, Nat.add_mod_mod, Nat.mod_eq_of_lt (by omega)]
  constructor
  · rintro ⟨spike, i, hi, he⟩
    split_ifs at he with hzero
    rw [← Option.some.inj he]
    exact ⟨rfl, rfl, i, spike, hi, hzero, haddr hi⟩
  · rintro ⟨rfl, hvalue, i, spike, hi, hzero, he⟩
    refine ⟨spike, i, hi, ?_⟩
    rw [if_neg hzero, Option.some.injEq, AerEvent.mk.injEq]
    exact ⟨rfl, BitVec.eq_of_toNat_eq ((haddr hi).trans he.symm), hvalue.symm⟩

/-- The encoded form has an event for a position exactly if its byte is not zero. -/
theorem exists_event_iff (h : baseAddr.toNat + spikes.length ≤ 2 ^ 32) {i : Nat} {spike : BitVec 8}
    (hi : spikes[i]? = some spike) :
    (∃ event ∈ sortByTime (spikesToEvents tsUs baseAddr spikes), event.value ≠ 0 ∧
      event.addr.toNat = baseAddr.toNat + i) ↔ spike ≠ 0 := by
  simp only [mem_sortByTime, mem_spikesToEvents_iff h]
  constructor
  · rintro ⟨event, ⟨-, -, j, other, hj, hother, haddr⟩, -, he⟩
    obtain rfl : j = i := Nat.add_left_cancel (haddr.symm.trans he)
    rw [hi, Option.some.injEq] at hj
    exact hj ▸ hother
  · intro hspike
    obtain ⟨hlt, -⟩ := List.getElem?_eq_some_iff.mp hi
    have haddr : (BitVec.ofNat 32 (baseAddr.toNat + i)).toNat = baseAddr.toNat + i := by
      rw [BitVec.toNat_ofNat, Nat.mod_eq_of_lt (by omega)]
    have hone : (1 : BitVec 8) ≠ 0 := by decide
    exact ⟨⟨tsUs, BitVec.ofNat 32 (baseAddr.toNat + i), 1⟩, ⟨rfl, rfl, i, spike, hi, hspike, haddr⟩, hone, haddr⟩

/-- Decoding the encoded form of a vector gives a one for every byte that is not zero. -/
theorem decodeSpikes_encodeSpikes (h : baseAddr.toNat + spikes.length ≤ 2 ^ 32)
    (hl : spikes.length ≤ maxDenseSpikes) :
    decodeSpikes (encodeSpikes tsUs baseAddr spikes) baseAddr spikes.length =
      .ok (spikes.map fun spike => if spike = 0 then 0 else 1) := by
  have hbelow : ∀ event ∈ sortByTime (spikesToEvents tsUs baseAddr spikes), event.value ≠ 0 →
      baseAddr.toNat ≤ event.addr.toNat := by
    intro event hevent _
    obtain ⟨-, -, i, spike, -, -, he⟩ := (mem_spikesToEvents_iff h).mp (mem_sortByTime.mp hevent)
    omega
  rw [encodeSpikes, decodeSpikes_of_le hl (decodeEvents_encodeEvents _), Except.ok.injEq]
  apply List.ext_getElem?
  intro i
  by_cases hi : i < spikes.length
  · have hget := List.getElem?_eq_getElem hi
    rw [getElem?_applyEventsToSpikes hi (.inr hbelow), List.getElem?_map, hget, Option.map_some]
    simp only [exists_event_iff h hget, ite_not]
  · have hle := not_lt.mp hi
    rw [List.getElem?_eq_none, List.getElem?_eq_none]
    · rwa [List.length_map]
    · rwa [applyEventsToSpikes, length_foldl_applyEvent, List.length_replicate]

end Encoding

/-- A vector of at most 16 MiB has exactly the positions set that an event which is not zero has as its address,
counted from the base (the position zero where no such event lies below the base), and encoding a vector and
decoding it gives its bytes back as zeros and ones. -/
theorem decodeSpikes_positions :
    (∀ payload baseAddr length, maxDenseSpikes < length →
      ∃ error, decodeSpikes payload baseAddr length = .error error) ∧
    (∀ payload baseAddr length events, length ≤ maxDenseSpikes → decodeEvents payload = .ok events →
      ∃ spikes, decodeSpikes payload baseAddr length = .ok spikes ∧ spikes.length = length ∧
        ∀ i < length, (0 < i ∨ ∀ event ∈ events, event.value ≠ 0 → baseAddr.toNat ≤ event.addr.toNat) →
          spikes[i]? =
            some (if ∃ event ∈ events, event.value ≠ 0 ∧ event.addr.toNat = baseAddr.toNat + i then 1 else 0)) ∧
    ∀ tsUs baseAddr spikes, baseAddr.toNat + spikes.length ≤ 2 ^ 32 → spikes.length ≤ maxDenseSpikes →
      decodeSpikes (encodeSpikes tsUs baseAddr spikes) baseAddr spikes.length =
        .ok (spikes.map fun spike => if spike = 0 then 0 else 1) := by
  refine ⟨?_, ?_, fun tsUs baseAddr spikes => decodeSpikes_encodeSpikes⟩
  · intro payload baseAddr length hl
    exact ⟨_, by rw [decodeSpikes, validateDenseLength, if_pos hl]; rfl⟩
  · intro payload baseAddr length events hl hd
    refine ⟨_, decodeSpikes_of_le hl hd, ?_, fun i hi => getElem?_applyEventsToSpikes hi⟩
    rw [applyEventsToSpikes, length_foldl_applyEvent, List.length_replicate]

/-- An event at the address zero sets the first position from the base one on, and so does not come back as an
event; a byte two comes back as a one; and a vector of more than 16 MiB is refused. -/
theorem below_base_sets_first :
    decodeSpikes (encodeEvents [⟨0, 0, 1⟩]) 1 2 = .ok [1, 0] ∧
      decodeSpikes (encodeSpikes 0 0 [2]) 0 1 = .ok [1] ∧
      (decodeSpikes [] 0 (maxDenseSpikes + 1)).toOption = none := by
  have hsmall : 2 ≤ maxDenseSpikes := by decide
  refine ⟨?_, ?_, ?_⟩
  · rw [decodeSpikes_of_le hsmall (decodeEvents_encodeEvents _)]
    decide
  · exact decodeSpikes_encodeSpikes (by decide) (by decide)
  · rw [decodeSpikes, validateDenseLength, if_pos (Nat.lt_succ_self _)]
    rfl

theorem decodeSpikes_positions_pair :
    decodeSpikes (encodeSpikes 5 4096 [1, 0, 1]) 4096 3 = .ok [1, 0, 1] :=
  decodeSpikes_positions.2.2 5 4096 [1, 0, 1] (by decide) (by decide)

section Auto
variable {payload : List (BitVec 8)} {baseAddr : BitVec 32} {events : List AerEvent} {length i : Nat}

/-- A vector of zeros after the events. -/
def denseSpikes (events : List AerEvent) (baseAddr : BitVec 32) (length : Nat) : List (BitVec 8) :=
  (applyEventsToSpikes events baseAddr (List.replicate length 0)).2

/-- The length that the largest index asks for, whether or not its event sets a position. -/
def autoLength (events : List AerEvent) (baseAddr : BitVec 32) : Nat :=
  (events.map fun event => event.index baseAddr).max?.getD 0 + 1

def decodeSpikesAuto (payload : List (BitVec 8)) (baseAddr : BitVec 32) : Except AerError (List (BitVec 8)) := do
  let events ← decodeEvents payload
  let length := autoLength events baseAddr
  validateDenseLength length
  return denseSpikes events baseAddr length

@[simp] theorem length_denseSpikes : (denseSpikes events baseAddr length).length = length := by
  rw [denseSpikes, applyEventsToSpikes, length_foldl_applyEvent, List.length_replicate]

theorem getElem?_denseSpikes (hi : i < length) : (denseSpikes events baseAddr length)[i]? =
    if ∃ event ∈ events, event.value ≠ 0 ∧ event.index baseAddr = i then some 1 else some 0 := by
  rw [denseSpikes, applyEventsToSpikes, getElem?_foldl_applyEvent (by rwa [List.length_replicate]),
    List.getElem?_replicate_of_lt hi]

theorem index_lt_autoLength {event : AerEvent} (h : event ∈ events) :
    event.index baseAddr < autoLength events baseAddr :=
  Nat.lt_succ_of_le (List.le_max?_getD_of_mem (List.mem_map_of_mem h))

/-- The vector of every length is the one that the events ask for, cut or filled up with zeros. -/
theorem denseSpikes_eq_take (events : List AerEvent) (baseAddr : BitVec 32) (length : Nat) :
    denseSpikes events baseAddr length =
      (denseSpikes events baseAddr (autoLength events baseAddr) ++ List.replicate length 0).take length := by
  refine List.ext_getElem? fun i => ?_
  by_cases hi : i < length
  · rw [getElem?_denseSpikes hi, List.getElem?_take_of_lt hi]
    by_cases hin : i < autoLength events baseAddr
    · rw [List.getElem?_append_left (by simpa using hin), getElem?_denseSpikes hin]
    · have hnone : ¬ ∃ event ∈ events, event.value ≠ 0 ∧ event.index baseAddr = i := by
        rintro ⟨event, hevent, -, rfl⟩
        exact hin (index_lt_autoLength hevent)
      rw [if_neg hnone, List.getElem?_append_right (by simpa using hin), List.getElem?_replicate_of_lt]
      omega
  · rw [List.getElem?_eq_none (by simpa using hi), List.getElem?_eq_none (by simp; omega)]

/-- A vector that is decoded without a length is the one of every length, cut or filled up with zeros. -/
theorem decodeSpikesAuto_agrees {spikes : List (BitVec 8)} (h : decodeSpikesAuto payload baseAddr = .ok spikes)
    (hl : length ≤ maxDenseSpikes) :
    decodeSpikes payload baseAddr length = .ok ((spikes ++ List.replicate length 0).take length) := by
  rw [decodeSpikesAuto] at h
  cases hd : decodeEvents payload with
  | error error =>
    rw [hd] at h
    cases h
  | ok events =>
    rw [hd] at h
    change (validateDenseLength _ >>= _) = _ at h
    rw [validateDenseLength] at h
    split_ifs at h
    · cases h
    · obtain rfl := Except.ok.inj h
      rw [decodeSpikes_of_le hl hd, ← denseSpikes_eq_take, denseSpikes]

theorem decodeSpikesAuto_agrees_filled :
    decodeSpikes (encodeEvents [⟨0, 5, 1⟩, ⟨0, 6, 0⟩]) 4 4 = .ok [0, 1, 0, 0] := by
  have hauto : decodeSpikesAuto (encodeEvents [⟨0, 5, 1⟩, ⟨0, 6, 0⟩]) 4 = .ok [0, 1, 0] := by
    rw [decodeSpikesAuto, decodeEvents_encodeEvents]
    rfl
  exact decodeSpikesAuto_agrees hauto (by decide)

end Auto

end Gail.Aer
