import Gail.Library.Varint
import Gail.Library.StableSort

/-! Address events as bytes: a base time, and for each event the time since the last one, its address
and its value as variable-length numbers. -/
namespace Gail.Aer
open Gail.Library

structure AerEvent where
  tsUs : BitVec 64
  addr : BitVec 32
  value : BitVec 8
  deriving DecidableEq

inductive AerError where
  | badRequest (message : String)
  deriving DecidableEq

/-- The bytes of `AER1`. -/
def aerMagic : List (BitVec 8) := [0x41, 0x45, 0x52, 0x31]

def saturatingSub (a b : BitVec 64) : BitVec 64 := if a < b then 0 else a - b

def saturatingAdd (a b : BitVec 64) : BitVec 64 :=
  if 2 ^ 64 ≤ a.toNat + b.toNat then BitVec.allOnes 64 else a + b

def writeVarint (value : BitVec 64) : List (BitVec 8) := Varint.write value

/-- From the start of what is left of the payload. -/
def readVarint (payload : List (BitVec 8)) : Except AerError (BitVec 64 × List (BitVec 8)) :=
  match Varint.read 0 0 payload with
  | .ok read => .ok read
  | .error .overflow => .error (.badRequest "AER varint overflow")
  | .error .truncated => .error (.badRequest "AER payload truncated")

/-- `sort_by_key(|event| event.ts_us)`. -/
def sortByTime (events : List AerEvent) : List AerEvent :=
  sortByKey (fun event => event.tsUs.toNat) events

/-- The loop over the ordered events. -/
def writeEvents : BitVec 64 → List AerEvent → List (BitVec 8)
  | _, [] => []
  | previousTs, event :: events =>
    writeVarint (saturatingSub event.tsUs previousTs) ++ writeVarint (event.addr.setWidth 64) ++
      writeVarint (event.value.setWidth 64) ++ writeEvents event.tsUs events

def encodeEvents (events : List AerEvent) : List (BitVec 8) :=
  match sortByTime events with
  | [] => []
  | first :: rest => aerMagic ++ toLeBytes 8 first.tsUs ++ writeEvents first.tsUs (first :: rest)

/-- One round of the loop over the payload. -/
def readEvent (previousTs : BitVec 64) (payload : List (BitVec 8)) :
    Except AerError (AerEvent × List (BitVec 8)) := do
  let (delta, payload) ← readVarint payload
  let (addr, payload) ← readVarint payload
  let (value, payload) ← readVarint payload
  return ({ tsUs := saturatingAdd previousTs delta
            addr := addr.setWidth 32
            value := value.setWidth 8 }, payload)

theorem readVarint_shorter {payload rest : List (BitVec 8)} {value : BitVec 64}
    (h : readVarint payload = .ok (value, rest)) : rest.length < payload.length := by
  unfold readVarint at h
  split at h
  · next hread =>
    cases h
    exact Varint.read_shorter hread
  · cases h
  · cases h

theorem readEvent_ok {previousTs : BitVec 64} {payload rest : List (BitVec 8)} {event : AerEvent}
    (h : readEvent previousTs payload = .ok (event, rest)) :
    (∃ delta, event.tsUs = saturatingAdd previousTs delta) ∧ rest.length < payload.length := by
  unfold readEvent at h
  simp only [bind, Except.bind, pure, Except.pure] at h
  split at h
  · cases h
  next hdelta =>
  split at h
  · cases h
  next haddr =>
  split at h
  · cases h
  next hvalue =>
  cases h
  refine ⟨⟨_, rfl⟩, ?_⟩
  have hlt := readVarint_shorter hdelta
  have hlt' := readVarint_shorter haddr
  have hlt'' := readVarint_shorter hvalue
  omega

/-- The loop over the payload. -/
def readEvents (previousTs : BitVec 64) (payload : List (BitVec 8)) :
    Except AerError (List AerEvent) :=
  match payload with
  | [] => .ok []
  | byte :: bytes =>
    match _h : readEvent previousTs (byte :: bytes) with
    | .error error => .error error
    | .ok (event, rest) => (readEvents event.tsUs rest).map (event :: ·)
termination_by payload.length
decreasing_by exact (readEvent_ok _h).2

def decodeEvents (payload : List (BitVec 8)) : Except AerError (List AerEvent) :=
  if payload.isEmpty then .ok []
  else if payload.length < 12 then .error (.badRequest "AER payload truncated")
  else if payload.take 4 ≠ aerMagic then .error (.badRequest "AER payload magic mismatch")
  else readEvents (fromLeBytes 64 ((payload.drop 4).take 8)) (payload.drop 12)

section Order
variable {previousTs : BitVec 64} {event : AerEvent} {events : List AerEvent}

theorem le_saturatingAdd (a b : BitVec 64) : a.toNat ≤ (saturatingAdd a b).toNat := by
  unfold saturatingAdd
  split_ifs with h
  · have := a.isLt
    rw [BitVec.toNat_allOnes]
    omega
  · rw [BitVec.toNat_add, Nat.mod_eq_of_lt (by omega)]
    omega

theorem saturatingAdd_saturatingSub {a b : BitVec 64} (h : a.toNat ≤ b.toNat) :
    saturatingAdd a (saturatingSub b a) = b := by
  have hlt := b.isLt
  have hsub : saturatingSub b a = b - a := by
    unfold saturatingSub
    rw [if_neg (by rw [BitVec.lt_def]; omega)]
  have hdiff : (b - a).toNat = b.toNat - a.toNat := BitVec.toNat_sub_of_le (BitVec.le_def.mpr h)
  unfold saturatingAdd
  rw [hsub, hdiff, if_neg (by omega), BitVec.add_comm, BitVec.sub_add_cancel]

/-- No event comes before the one in front of it, the first not before the given time. -/
def InTime : BitVec 64 → List AerEvent → Prop
  | _, [] => True
  | previousTs, event :: events => previousTs.toNat ≤ event.tsUs.toNat ∧ InTime event.tsUs events

theorem InTime.le (h : InTime previousTs events) :
    ∀ event ∈ events, previousTs.toNat ≤ event.tsUs.toNat := by
  induction events generalizing previousTs with
  | nil => simp
  | cons first events ih =>
    obtain ⟨hfirst, hrest⟩ := h
    intro event hm
    rcases List.mem_cons.mp hm with rfl | hm
    · exact hfirst
    · exact hfirst.trans (ih hrest event hm)

theorem InTime.pairwise (h : InTime previousTs events) :
    events.Pairwise fun a b => a.tsUs.toNat ≤ b.tsUs.toNat := by
  induction events generalizing previousTs with
  | nil => exact List.Pairwise.nil
  | cons first events ih => exact List.pairwise_cons.mpr ⟨h.2.le, ih h.2⟩

theorem inTime_of_pairwise (hs : events.Pairwise fun a b => a.tsUs.toNat ≤ b.tsUs.toNat)
    (h : ∀ event ∈ events, previousTs.toNat ≤ event.tsUs.toNat) : InTime previousTs events := by
  induction events generalizing previousTs with
  | nil => trivial
  | cons first events ih =>
    obtain ⟨hfirst, hrest⟩ := List.pairwise_cons.mp hs
    exact ⟨h first List.mem_cons_self, ih hrest hfirst⟩

theorem sortByTime_of_inTime (h : InTime previousTs events) : sortByTime events = events :=
  sortByKey_of_pairwise h.pairwise

theorem inTime_sortByTime {first : AerEvent} {rest : List AerEvent}
    (h : sortByTime events = first :: rest) : InTime first.tsUs (first :: rest) := by
  have hp : (sortByTime events).Pairwise _ := pairwise_sortByKey _ events
  rw [h] at hp
  obtain ⟨hfirst, hrest⟩ := List.pairwise_cons.mp hp
  exact ⟨le_rfl, inTime_of_pairwise hrest hfirst⟩

/-- What is read is in time: no delta takes the time back. -/
theorem readEvents_inTime {payload : List (BitVec 8)} (h : readEvents previousTs payload = .ok events) :
    InTime previousTs events := by
  induction hn : payload.length using Nat.strongRecOn generalizing previousTs payload events with
  | ind n ih =>
    match payload with
    | [] =>
      rw [readEvents] at h
      cases h
      trivial
    | byte :: bytes =>
      rw [readEvents] at h
      split at h
      · cases h
      · next event rest hread =>
        obtain ⟨⟨delta, hts⟩, hlt⟩ := readEvent_ok hread
        cases hrest : readEvents event.tsUs rest with
        | error error => rw [hrest] at h; cases h
        | ok later =>
          rw [hrest] at h
          cases h
          refine ⟨?_, ih rest.length (hn ▸ hlt) hrest rfl⟩
          rw [hts]
          exact le_saturatingAdd _ _

theorem readEvents_cons {payload rest : List (BitVec 8)}
    (h : readEvent previousTs payload = .ok (event, rest)) :
    readEvents previousTs payload = (readEvents event.tsUs rest).map (event :: ·) := by
  match payload with
  | [] => cases h
  | byte :: bytes =>
    rw [readEvents]
    split
    · next hread =>
      rw [h] at hread
      cases hread
    · next hread =>
      rw [h] at hread
      cases hread
      rfl

theorem readVarint_writeVarint (value : BitVec 64) (rest : List (BitVec 8)) :
    readVarint (writeVarint value ++ rest) = .ok (value, rest) := by
  rw [writeVarint, readVarint, Varint.read_write_zero]

/-- Reading one event back, whatever follows it. -/
theorem readEvent_written (h : previousTs ≤ event.tsUs) (rest : List (BitVec 8)) :
    readEvent previousTs (writeVarint (saturatingSub event.tsUs previousTs) ++
      writeVarint (event.addr.setWidth 64) ++ writeVarint (event.value.setWidth 64) ++ rest) =
        .ok (event, rest) := by
  have haddr : (event.addr.setWidth 64).setWidth 32 = event.addr := by simp
  have hvalue : (event.value.setWidth 64).setWidth 8 = event.value := by simp
  unfold readEvent
  simp only [List.append_assoc, readVarint_writeVarint, bind, Except.bind, pure, Except.pure,
    saturatingAdd_saturatingSub h, haddr, hvalue]

theorem readEvents_writeEvents (h : InTime previousTs events) :
    readEvents previousTs (writeEvents previousTs events) = .ok events := by
  induction events generalizing previousTs with
  | nil => rw [writeEvents, readEvents]
  | cons event events ih =>
    rw [writeEvents, readEvents_cons (readEvent_written h.1 _), ih h.2]
    rfl

end Order

theorem decodeEvents_encodeEvents (events : List AerEvent) :
    decodeEvents (encodeEvents events) = .ok (sortByTime events) := by
  unfold encodeEvents
  cases hs : sortByTime events with
  | nil => rfl
  | cons first rest =>
    have hlength := length_toLeBytes 8 first.tsUs
    have hts : fromLeBytes 64 (toLeBytes 8 first.tsUs) = first.tsUs :=
      fromLeBytes_toLeBytes first.tsUs.isLt
    have hmagic : aerMagic.length = 4 := rfl
    have hheader : (aerMagic ++ toLeBytes 8 first.tsUs).length = 12 := by
      rw [List.length_append, hmagic, hlength]
    simp only [decodeEvents]
    rw [if_neg, if_neg, if_neg]
    · rw [List.drop_left' hheader, List.append_assoc, List.drop_left' hmagic, List.take_left' hlength, hts]
      exact readEvents_writeEvents (inTime_sortByTime hs)
    · rw [List.append_assoc, List.take_left' hmagic]
      simp
    · rw [List.length_append, hheader]
      omega
    · simp [aerMagic]

theorem sortByTime_of_decoded {payload : List (BitVec 8)} {events : List AerEvent}
    (h : decodeEvents payload = .ok events) : sortByTime events = events := by
  unfold decodeEvents at h
  split_ifs at h
  · cases h
    rfl
  · exact sortByTime_of_inTime (readEvents_inTime h)

/-- Decoding gives back what was encoded, in the order of the times; and what was decoded once is
the same when it is encoded and decoded again. -/
theorem events_round_trip :
    (∀ events : List AerEvent, decodeEvents (encodeEvents events) = .ok (sortByTime events) ∧
      StablySorted (fun event => event.tsUs.toNat) events (sortByTime events)) ∧
    ∀ payload events, decodeEvents payload = .ok events →
      decodeEvents (encodeEvents events) = .ok events := by
  constructor
  · intro events
    exact ⟨decodeEvents_encodeEvents events, stablySorted_sortByKey events⟩
  · intro payload events h
    rw [decodeEvents_encodeEvents, sortByTime_of_decoded h]

theorem events_round_trip_swapped :
    decodeEvents (encodeEvents [⟨3, 1, 0⟩, ⟨7, 0, 255⟩]) = .ok [⟨3, 1, 0⟩, ⟨7, 0, 255⟩] := by
  apply events_round_trip.2 (encodeEvents [⟨7, 0, 255⟩, ⟨3, 1, 0⟩])
  rw [decodeEvents_encodeEvents]
  decide

end Gail.Aer
