import Gail.Aer.AerCodec

/-! What a payload writes, as numbers of any size, and the events that it decodes to. -/
namespace Gail.Aer
open Gail.Library

/-- An event as a payload writes it. -/
structure WrittenEvent where
  tsUs : Nat
  addr : Nat
  value : Nat

structure WrittenEvent.Fits (event : WrittenEvent) : Prop where
  tsUs : event.tsUs < 2 ^ 64
  addr : event.addr < 2 ^ 32
  value : event.value < 2 ^ 8

def AerEvent.written (event : AerEvent) : WrittenEvent :=
  { tsUs := event.tsUs.toNat, addr := event.addr.toNat, value := event.value.toNat }

/-- As many as a number of sixty-four bits takes. -/
def maxVarintBytes : Nat := 10

/-- Up to the end, three numbers for each event: the time since the last one, the address and the value. -/
inductive Writes : Nat → List (BitVec 8) → List WrittenEvent → Prop
  | nil (previousTs : Nat) : Writes previousTs [] []
  | cons {previousTs delta addr value : Nat} {payload afterDelta afterAddr rest : List (BitVec 8)}
      {events : List WrittenEvent}
      (delta_eq : Varint.number maxVarintBytes payload = some (delta, afterDelta))
      (addr_eq : Varint.number maxVarintBytes afterDelta = some (addr, afterAddr))
      (value_eq : Varint.number maxVarintBytes afterAddr = some (value, rest))
      (later : Writes (previousTs + delta) rest events) :
      Writes previousTs payload ({ tsUs := previousTs + delta, addr, value } :: events)

/-- The events of a whole payload, after the magic and the base time. -/
def PayloadWrites (payload : List (BitVec 8)) (events : List WrittenEvent) : Prop :=
  if payload.isEmpty then events = []
  else 12 ≤ payload.length ∧ payload.take 4 = aerMagic ∧
    Writes (fromLeBytes 64 ((payload.drop 4).take 8)).toNat (payload.drop 12) events

/-- A payload with a number that does not fit its field is an error, and an accepted one decodes to what it
writes. -/
structure DecodesAsWritten (payload : List (BitVec 8)) : Prop where
  refused : ∀ written, PayloadWrites payload written → (∃ event ∈ written, ¬ event.Fits) →
    ∃ error, decodeEvents payload = .error error
  asWritten : ∀ events, decodeEvents payload = .ok events →
    PayloadWrites payload (events.map AerEvent.written)

section Reading
variable {payload rest : List (BitVec 8)} {previousTs : BitVec 64} {event : AerEvent}
  {events : List AerEvent}

theorem readVarint_ok_iff {value : BitVec 64} :
    readVarint payload = .ok (value, rest) ↔
      ∃ number, Varint.number maxVarintBytes payload = some (number, rest) ∧
        value = BitVec.ofNat 64 number := by
  have hread : Varint.read 0 0 payload = .ok (value, rest) ↔ ∃ number,
      Varint.number maxVarintBytes payload = some (number, rest) ∧
        value = BitVec.ofNat 64 ((0 : BitVec 64).toNat + number * 2 ^ 0) :=
    Varint.read_ok_iff Nat.one_pos (by decide) (by decide)
  have hstart (number : Nat) : (0 : BitVec 64).toNat + number * 2 ^ 0 = number :=
    (Nat.zero_add _).trans (Nat.mul_one number)
  simp only [hstart] at hread
  rw [← hread]
  unfold readVarint
  split
  · next read heq => rw [heq, Except.ok.injEq, Except.ok.injEq]
  · next heq =>
    rw [heq]
    exact iff_of_false (fun h => nomatch h) fun h => nomatch h
  · next heq =>
    rw [heq]
    exact iff_of_false (fun h => nomatch h) fun h => nomatch h

theorem readEvent_ok_iff :
    readEvent previousTs payload = .ok (event, rest) ↔
      ∃ delta addr value afterDelta afterAddr,
        Varint.number maxVarintBytes payload = some (delta, afterDelta) ∧
        Varint.number maxVarintBytes afterDelta = some (addr, afterAddr) ∧
        Varint.number maxVarintBytes afterAddr = some (value, rest) ∧
        event = { tsUs := saturatingAdd previousTs (BitVec.ofNat 64 delta)
                  addr := (BitVec.ofNat 64 addr).setWidth 32
                  value := (BitVec.ofNat 64 value).setWidth 8 } := by
  unfold readEvent
  simp only [bind, Except.bind, pure, Except.pure]
  constructor
  · intro h
    cases hdelta : readVarint payload with
    | error error => rw [hdelta] at h; cases h
    | ok read =>
      obtain ⟨read, afterDelta⟩ := read
      obtain ⟨delta, hnumber, rfl⟩ := readVarint_ok_iff.mp hdelta
      rw [hdelta] at h
      dsimp only at h
      cases haddr : readVarint afterDelta with
      | error error => rw [haddr] at h; cases h
      | ok read =>
        obtain ⟨read, afterAddr⟩ := read
        obtain ⟨addr, hnumber', rfl⟩ := readVarint_ok_iff.mp haddr
        rw [haddr] at h
        dsimp only at h
        cases hvalue : readVarint afterAddr with
        | error error => rw [hvalue] at h; cases h
        | ok read =>
          obtain ⟨read, rest⟩ := read
          obtain ⟨value, hnumber'', rfl⟩ := readVarint_ok_iff.mp hvalue
          rw [hvalue] at h
          cases h
          exact ⟨delta, addr, value, afterDelta, afterAddr, hnumber, hnumber', hnumber'', rfl⟩
  · rintro ⟨delta, addr, value, afterDelta, afterAddr, hdelta, haddr, hvalue, rfl⟩
    rw [readVarint_ok_iff.mpr ⟨delta, hdelta, rfl⟩]
    dsimp only
    rw [readVarint_ok_iff.mpr ⟨addr, haddr, rfl⟩]
    dsimp only
    rw [readVarint_ok_iff.mpr ⟨value, hvalue, rfl⟩]

/-- The loop ends at the end of the payload, or reads an event and goes on. -/
theorem readEvents_ok_cases (h : readEvents previousTs payload = .ok events) :
    payload = [] ∧ events = [] ∨
      ∃ event rest later, readEvent previousTs payload = .ok (event, rest) ∧
        readEvents event.tsUs rest = .ok later ∧ events = event :: later := by
  match payload with
  | [] =>
    rw [readEvents] at h
    cases h
    exact .inl ⟨rfl, rfl⟩
  | byte :: bytes =>
    rw [readEvents] at h
    split at h
    · cases h
    · next event rest hread =>
      cases hlater : readEvents event.tsUs rest with
      | error error => rw [hlater] at h; cases h
      | ok later =>
        rw [hlater] at h
        cases h
        exact .inr ⟨event, rest, later, hread, hlater, rfl⟩

/-- The numbers of an event that fits are kept. -/
theorem written_of_fits {delta addr value : Nat}
    (h : WrittenEvent.Fits { tsUs := previousTs.toNat + delta, addr, value }) :
    AerEvent.written { tsUs := saturatingAdd previousTs (BitVec.ofNat 64 delta)
                       addr := (BitVec.ofNat 64 addr).setWidth 32
                       value := (BitVec.ofNat 64 value).setWidth 8 } =
      { tsUs := previousTs.toNat + delta, addr, value } := by
  obtain ⟨hts, haddr, hvalue⟩ := h
  dsimp only at hts haddr hvalue
  have hdelta : (BitVec.ofNat 64 delta).toNat = delta := by
    rw [BitVec.toNat_ofNat, Nat.mod_eq_of_lt (by omega)]
  have hsum : saturatingAdd previousTs (BitVec.ofNat 64 delta) = previousTs + BitVec.ofNat 64 delta := by
    rw [saturatingAdd, hdelta, if_neg (by omega)]
  rw [AerEvent.written, WrittenEvent.mk.injEq]
  refine ⟨?_, ?_, ?_⟩
  · rw [hsum, BitVec.toNat_add, hdelta, Nat.mod_eq_of_lt hts]
  · rw [BitVec.toNat_setWidth, BitVec.toNat_ofNat, Nat.mod_mod_of_dvd _ (by decide), Nat.mod_eq_of_lt haddr]
  · rw [BitVec.toNat_setWidth, BitVec.toNat_ofNat, Nat.mod_mod_of_dvd _ (by decide), Nat.mod_eq_of_lt hvalue]

/-- What is read was written, and is the same as long as it fits. -/
theorem writes_of_readEvents (h : readEvents previousTs payload = .ok events) (start : Nat) :
    ∃ written, Writes start payload written ∧
      (start = previousTs.toNat → (∀ event ∈ written, event.Fits) →
        events.map AerEvent.written = written) := by
  induction events generalizing previousTs payload start with
  | nil =>
    rcases readEvents_ok_cases h with ⟨rfl, -⟩ | ⟨event, rest, later, -, -, he⟩
    · exact ⟨[], .nil start, fun _ _ => rfl⟩
    · cases he
  | cons event events ih =>
    rcases readEvents_ok_cases h with ⟨-, he⟩ | ⟨first, rest, later, hevent, hlater, he⟩
    · cases he
    obtain ⟨rfl, rfl⟩ := List.cons.inj he
    obtain ⟨delta, addr, value, afterDelta, afterAddr, hdelta, haddr, hvalue, rfl⟩ :=
      readEvent_ok_iff.mp hevent
    obtain ⟨written, hwrites, hsame⟩ := ih hlater (start + delta)
    refine ⟨_, .cons hdelta haddr hvalue hwrites, ?_⟩
    rintro rfl hfits
    obtain ⟨hfirst, hrest⟩ := List.forall_mem_cons.mp hfits
    have hevent := written_of_fits hfirst
    have hts := congrArg WrittenEvent.tsUs hevent
    rw [List.map_cons, hevent, hsame hts.symm hrest]

/-- What is written is read, whether it fits or not. -/
theorem readEvents_of_writes {start : Nat} {written : List WrittenEvent} (h : Writes start payload written)
    (previousTs : BitVec 64) : ∃ events, readEvents previousTs payload = .ok events := by
  induction h generalizing previousTs with
  | nil start => exact ⟨[], by rw [readEvents]⟩
  | cons hdelta haddr hvalue _ ih =>
    have hevent : readEvent previousTs _ = .ok (_, _) :=
      readEvent_ok_iff.mpr ⟨_, _, _, _, _, hdelta, haddr, hvalue, rfl⟩
    obtain ⟨later, hlater⟩ := ih _
    exact ⟨_, by rw [readEvents_cons hevent, hlater]; rfl⟩

end Reading

section Payloads
variable {payload : List (BitVec 8)} {events : List AerEvent} {written : List WrittenEvent}

theorem payloadWrites_of_decodeEvents (h : decodeEvents payload = .ok events) :
    ∃ written, PayloadWrites payload written ∧
      ((∀ event ∈ written, event.Fits) → events.map AerEvent.written = written) := by
  unfold decodeEvents at h
  unfold PayloadWrites
  split_ifs at h ⊢ with hempty hshort hmagic
  · cases h
    exact ⟨[], rfl, fun _ => rfl⟩
  · obtain ⟨written, hwrites, hsame⟩ := writes_of_readEvents h _
    exact ⟨written, ⟨not_lt.mp hshort, not_not.mp hmagic, hwrites⟩, hsame rfl⟩

theorem decodeEvents_of_payloadWrites (h : PayloadWrites payload written) :
    ∃ events, decodeEvents payload = .ok events := by
  unfold PayloadWrites at h
  unfold decodeEvents
  split_ifs at h ⊢ with hempty hshort hmagic
  · exact ⟨[], rfl⟩
  · exact absurd h.1 (not_le.mpr hshort)
  · exact absurd h.2.1 hmagic
  · exact readEvents_of_writes h.2.2 _

/-- A payload decodes as it is written exactly if all that it writes fits: nothing is refused for a number that
is too large for its field. -/
theorem decodesAsWritten_iff (payload : List (BitVec 8)) :
    DecodesAsWritten payload ↔ ∀ written, PayloadWrites payload written → ∀ event ∈ written, event.Fits := by
  constructor
  · intro h written hwrites event hevent
    by_contra hover
    obtain ⟨error, herror⟩ := h.refused written hwrites ⟨event, hevent, hover⟩
    obtain ⟨events, hevents⟩ := decodeEvents_of_payloadWrites hwrites
    rw [hevents] at herror
    cases herror
  · intro h
    refine ⟨?_, ?_⟩
    · rintro written hwrites ⟨event, hevent, hover⟩
      exact absurd (h written hwrites event hevent) hover
    · intro events hevents
      obtain ⟨written, hwrites, hsame⟩ := payloadWrites_of_decodeEvents hevents
      exact hsame (h written hwrites) ▸ hwrites

/-- One event, of the value one at the address 2 ^ 32. -/
def farEvent : List (BitVec 8) :=
  aerMagic ++ toLeBytes 8 (0 : BitVec 64) ++ [0x00, 0x80, 0x80, 0x80, 0x80, 0x10, 0x01]

/-- It is accepted, as an event at the address zero. -/
theorem far_event_wraps :
    decodeEvents farEvent = .ok [⟨0, 0, 1⟩] ∧ ¬ DecodesAsWritten farEvent := by
  have hevent : readEvent 0 (farEvent.drop 12) = .ok (⟨0, 0, 1⟩, []) := rfl
  have hdecode : decodeEvents farEvent = .ok [⟨0, 0, 1⟩] := by
    rw [decodeEvents, if_neg (by decide), if_neg (by decide), if_neg (by decide)]
    rw [show fromLeBytes 64 ((farEvent.drop 4).take 8) = 0 from rfl, readEvents_cons hevent, readEvents]
    rfl
  refine ⟨hdecode, fun h => ?_⟩
  have hcons : Writes 0 (farEvent.drop 12) [⟨0 + 0, 2 ^ 32, 1⟩] := .cons rfl rfl rfl (.nil _)
  have hwrites : PayloadWrites farEvent [⟨0, 2 ^ 32, 1⟩] := by
    rw [PayloadWrites, if_neg (by decide)]
    exact ⟨by decide, by decide, hcons⟩
  obtain ⟨error, herror⟩ := h.refused _ hwrites
    ⟨_, List.mem_singleton_self _, fun hfits => absurd hfits.addr (lt_irrefl _)⟩
  rw [hdecode] at herror
  cases herror

end Payloads

end Gail.Aer
