import Gail.Datalake.MarketNames
import Gail.Library.Run
import Gail.Library.Saturating
import Gail.Library.TextSearch
import Gail.Trading.SnapshotMarkets
import Mathlib.Tactic.NormNum

/-! The circuits of the exchanges, which failures of requests open for a while, and the calls that ask them before
they request a market snapshot and again between their attempts. -/
namespace Gail.Trading.Circuit
open Gail.Library
open Gail.Datalake (stripBrackets compactWords exchangeAlias)
open Snapshot (ExchangeCircuitState)

def marketSnapshotRetryAttempts : Nat := 3

def exchangeBreakerFailureThreshold : Nat := 3

def exchangeBreakerBaseCooldownSeconds : Nat := 30

def exchangeBreakerMaxCooldownSeconds : Nat := 900

def basicHtmlEntities : List (String × String) :=
  [("&#10;", "\n"), ("&#xA;", "\n"), ("&#xa;", "\n"), ("&nbsp;", " "), ("&amp;", "&"), ("&lt;", "<"), ("&gt;", ">"),
    ("&quot;", "\""), ("&#39;", "'")]

def decodeBasicHtmlEntities (value : String) : String :=
  basicHtmlEntities.foldl (fun text (entity, plain) =>
    String.ofList (replaceText entity.toList plain.toList text.toList)) value

def normalizeExchangeName (value : String) : Option String :=
  let normalized := toAsciiLowercase (trim (decodeBasicHtmlEntities value))
  if normalized.isEmpty then none
  else
    let normalized :=
      match splitOnce [':'] normalized.toList with
      | some (head, _) => trim (String.ofList head)
      | none => normalized
    let compact := joinWords (compactWords (stripBrackets normalized.toList.length normalized))
    if compact.isEmpty then none else some (exchangeAlias (String.ofList compact))

/-- The name under which the circuit of an exchange is kept. -/
@[irreducible] def circuitKey (exchange : String) : String :=
  (normalizeExchangeName exchange).getD (toAsciiLowercase exchange)

section Circuits
variable {F : Type} [Scalar F]

/-- The map of circuits. -/
abbrev Circuits (F : Type) := String → Option (ExchangeCircuitState F)

def freshCircuit : ExchangeCircuitState F :=
  { consecutiveFailures := 0, openedUntil := none, lastSuccessAt := none, lastError := none }

/-- Until when the circuit of a key has been opened, if it was not closed since. -/
def openedUntil (circuits : Circuits F) (key : String) : Option F := (circuits key).bind (·.openedUntil)

def failures (circuits : Circuits F) (key : String) : Nat := (circuits key).elim 0 (·.consecutiveFailures)

def IsOpen (circuits : Circuits F) (exchange : String) (now : F) : Prop :=
  ∃ until_ ∈ openedUntil circuits (circuitKey exchange), now < until_

/-- A circuit that has been open for long enough is closed when it is asked. -/
def exchangeCircuitOpen (circuits : Circuits F) (exchange : String) (now : F) : Bool × Circuits F :=
  match circuits (circuitKey exchange) with
  | none => (false, circuits)
  | some circuit =>
    if circuit.openedUntil.any (now < ·) then (true, circuits)
    else
      (false, Function.update circuits (circuitKey exchange) (some { circuit with openedUntil := none }))

def recordExchangeSuccess (circuits : Circuits F) (exchange : String) (now : F) : Circuits F :=
  let circuit := (circuits (circuitKey exchange)).getD freshCircuit
  Function.update circuits (circuitKey exchange) <| some
    { circuit with consecutiveFailures := 0, openedUntil := none, lastSuccessAt := some now, lastError := none }

/-- The powers of two are exact in doubles, so the seconds are counted. -/
def cooldownSeconds (consecutiveFailures : Nat) : Nat :=
  let exponent := min (consecutiveFailures - exchangeBreakerFailureThreshold) 8
  min (exchangeBreakerBaseCooldownSeconds * 2 ^ exponent) exchangeBreakerMaxCooldownSeconds

/-- `saturating_add(1)` on a `u32`. -/
def countFailure (consecutiveFailures : Nat) : Nat := min (consecutiveFailures + 1) (2 ^ 32 - 1)

def recordExchangeFailure (circuits : Circuits F) (exchange error : String) (now : F) : Circuits F :=
  let circuit := (circuits (circuitKey exchange)).getD freshCircuit
  let failures := countFailure circuit.consecutiveFailures
  Function.update circuits (circuitKey exchange) <| some
    { circuit with
      consecutiveFailures := failures
      openedUntil :=
        if exchangeBreakerFailureThreshold ≤ failures then some (now + Scalar.ofCount (cooldownSeconds failures))
        else circuit.openedUntil
      lastError := some (String.ofList (error.toList.take 400)) }

end Circuits

section Calls
variable {F : Type} [Scalar F]

/-- How far a call is: not begun, free to start an attempt, waiting for the reply to it, through with an attempt that
failed but was not the last one, or at an end. -/
inductive Phase
  | entered
  | ready (attempt : Nat)
  | requesting (attempt : Nat)
  | failed (attempt : Nat)
  | done
  deriving DecidableEq

/-- A call of `get_market_snapshot_with_resilience`. -/
structure SnapshotCall where
  exchange : String
  phase : Phase

inductive Reply
  | snapshot
  | error (text : String)

def isMarketSnapshotUnavailableError (error : String) : Bool :=
  containsText error "no dashboard or ticker endpoint returned data"

/-- What a call does next. -/
inductive Move
  | check
  | start
  | reply (reply : Reply)
  /-- The circuit is asked after a failure. The answer decides about a pause only. -/
  | recheck
  | abort

inductive Action
  | call (exchange : String)
  | move (task : Nat) (move : Move)
  /-- The exchange is listed as enabled. -/
  | listed (exchange : String)
  /-- The circuit is asked before calls are made. -/
  | scan (exchange : String)
  /-- A snapshot is requested without asking the circuit. -/
  | request (exchange : String)

structure Event (F : Type) where
  now : F
  action : Action

structure CallRun (F : Type) where
  circuits : Circuits F
  calls : List SnapshotCall

/-- The call changes to a phase, with the circuits as they are then. -/
def CallRun.turn (state : CallRun F) (task : Nat) (call : SnapshotCall) (circuits : Circuits F) (phase : Phase) :
    CallRun F :=
  { circuits, calls := state.calls.set task { call with phase } }

def CallRun.move (state : CallRun F) (now : F) (task : Nat) (call : SnapshotCall) (move : Move) : CallRun F :=
  match move, call.phase with
  | .check, .entered =>
    let (isOpen, circuits) := exchangeCircuitOpen state.circuits call.exchange now
    state.turn task call circuits (if isOpen then .done else .ready 0)
  | .start, .ready attempt => state.turn task call state.circuits (.requesting attempt)
  | .reply .snapshot, .requesting _ =>
    state.turn task call (recordExchangeSuccess state.circuits call.exchange now) .done
  | .reply (.error error), .requesting attempt =>
    if isMarketSnapshotUnavailableError error then state.turn task call state.circuits .done
    else
      state.turn task call (recordExchangeFailure state.circuits call.exchange error now)
        (if attempt + 1 < marketSnapshotRetryAttempts then .failed attempt else .done)
  | .recheck, .failed attempt =>
    state.turn task call (exchangeCircuitOpen state.circuits call.exchange now).2 (.ready (attempt + 1))
  | .abort, _ => state.turn task call state.circuits .done
  | _, _ => state

def step (state : CallRun F) (event : Event F) : CallRun F :=
  match event.action with
  | .call exchange => { state with calls := state.calls ++ [{ exchange, phase := .entered }] }
  | .move task move =>
    match state.calls[task]? with
    | none => state
    | some call => state.move event.now task call move
  | .listed exchange => { state with circuits := recordExchangeSuccess state.circuits exchange event.now }
  | .scan exchange => { state with circuits := (exchangeCircuitOpen state.circuits exchange event.now).2 }
  | .request _ => state

/-- The exchange that a request is started to. -/
def requested (state : CallRun F) (event : Event F) : Option String :=
  match event.action with
  | .move task move =>
    (state.calls[task]?).bind fun call =>
      match move, call.phase with
      | .start, .ready _ => some call.exchange
      | _, _ => none
  | .request exchange => some exchange
  | _ => none

inductive Outcome
  | success
  | failure
  deriving DecidableEq

/-- What the reply to a request says of the exchange. -/
def Reply.outcome : Reply → Option Outcome
  | .snapshot => some .success
  | .error text => if isMarketSnapshotUnavailableError text then none else some .failure

/-- What is recorded for a key. -/
def recorded (key : String) (state : CallRun F) (event : Event F) : Option Outcome :=
  match event.action with
  | .listed exchange => if circuitKey exchange = key then some .success else none
  | .move task move =>
    (state.calls[task]?).bind fun call =>
      match move, call.phase with
      | .reply reply, .requesting _ => if circuitKey call.exchange = key then reply.outcome else none
      | _, _ => none
  | _ => none

end Calls

section Laws
variable {F : Type} [Scalar F]

def countOutcome (streak : Nat) : Outcome → Nat
  | .success => 0
  | .failure => streak + 1

/-- The failures that were recorded for a key since the last success, those before the run included. -/
def streak (start : Circuits F) (key : String) (events : List (Event F)) : Nat :=
  (trace step (recorded key) { circuits := start, calls := [] } events).foldl countOutcome (failures start key)

/-- No request is started while the circuit of its exchange is open. -/
def RequestsClosed (start : Circuits F) (events : List (Event F)) : Prop :=
  Along step (fun state event => ∀ exchange ∈ requested state event, ¬IsOpen state.circuits exchange event.now)
    { circuits := start, calls := [] } events

/-- The laws of the circuits over a run. -/
structure CircuitLaws (start : Circuits F) (events : List (Event F)) : Prop where
  closed : RequestsClosed start events
  opens : ∀ key before event until_, before ++ [event] <+: events →
    openedUntil (run step { circuits := start, calls := [] } (before ++ [event])).circuits key = some until_ →
      openedUntil (run step { circuits := start, calls := [] } before).circuits key = some until_ ∨
        3 ≤ streak start key (before ++ [event]) ∧
          until_ = event.now + Scalar.ofCount (cooldownSeconds (streak start key (before ++ [event])))
  bounded : ∀ key before, before <+: events →
    30 ≤ cooldownSeconds (streak start key before) ∧ cooldownSeconds (streak start key before) ≤ 900
  growing : ∀ key before after, before ++ after <+: events →
    .success ∉ trace step (recorded key) (run step { circuits := start, calls := [] } before) after →
      cooldownSeconds (streak start key before) ≤ cooldownSeconds (streak start key (before ++ after))

/-- The answer of the circuit counts: the loop is not told that it is open when it goes on, no failure opens it for a
call that is free to start an attempt, and no request is started around it. -/
structure Heeded (state : CallRun F) (event : Event F) : Prop where
  rechecked : ∀ task call attempt, event.action = .move task .recheck → state.calls[task]? = some call →
    call.phase = .failed attempt → ¬IsOpen state.circuits call.exchange event.now
  waited : ∀ key, recorded key state event = some .failure →
    exchangeBreakerFailureThreshold ≤ countFailure (failures state.circuits key) →
      ∀ call ∈ state.calls, circuitKey call.exchange = key → ∀ attempt, call.phase ≠ .ready attempt
  asked : ∀ exchange, event.action = .request exchange → ¬IsOpen state.circuits exchange event.now

end Laws

section Asking
variable {F : Type} [Scalar F] {circuits : Circuits F} {exchange key : String} {now : F}

theorem exchangeCircuitOpen_iff :
    (exchangeCircuitOpen circuits exchange now).1 = true ↔ IsOpen circuits exchange now := by
  unfold exchangeCircuitOpen IsOpen openedUntil
  cases circuits (circuitKey exchange) with
  | none => simp
  | some circuit =>
    dsimp only
    rw [Option.bind_some]
    cases hopened : circuit.openedUntil with
    | none => simp
    | some until_ => by_cases hlt : now < until_ <;> simp [hlt]

theorem failures_exchangeCircuitOpen :
    failures (exchangeCircuitOpen circuits exchange now).2 key = failures circuits key := by
  unfold exchangeCircuitOpen
  cases hcircuit : circuits (circuitKey exchange) with
  | none => rfl
  | some circuit =>
    dsimp only
    split_ifs
    · rfl
    · rw [failures, failures]
      dsimp only
      rw [Function.update_apply]
      split_ifs with hkey
      · rw [hkey, hcircuit]
        rfl
      · rfl

/-- What is asked for is left as it is, or closed. -/
theorem openedUntil_exchangeCircuitOpen :
    openedUntil (exchangeCircuitOpen circuits exchange now).2 key = openedUntil circuits key ∨
      openedUntil (exchangeCircuitOpen circuits exchange now).2 key = none := by
  unfold exchangeCircuitOpen
  cases hcircuit : circuits (circuitKey exchange) with
  | none => exact .inl rfl
  | some circuit =>
    dsimp only
    split_ifs
    · exact .inl rfl
    · rw [openedUntil, openedUntil]
      dsimp only
      rw [Function.update_apply]
      split_ifs
      · exact .inr rfl
      · exact .inl rfl

theorem openedUntil_of_closed (h : ¬IsOpen circuits exchange now) :
    openedUntil (exchangeCircuitOpen circuits exchange now).2 (circuitKey exchange) = none := by
  have hanswer := mt exchangeCircuitOpen_iff.mp h
  unfold exchangeCircuitOpen at hanswer ⊢
  cases hcircuit : circuits (circuitKey exchange) with
  | none =>
    dsimp only
    rw [openedUntil, hcircuit, Option.bind_none]
  | some circuit =>
    rw [hcircuit] at hanswer
    dsimp only at hanswer ⊢
    split_ifs at hanswer ⊢
    · exact absurd rfl hanswer
    · rw [openedUntil]
      dsimp only
      rw [Function.update_self, Option.bind_some]

theorem exchangeCircuitOpen_of_open (h : IsOpen circuits exchange now) :
    (exchangeCircuitOpen circuits exchange now).2 = circuits := by
  have hanswer := exchangeCircuitOpen_iff.mpr h
  unfold exchangeCircuitOpen at hanswer ⊢
  cases hcircuit : circuits (circuitKey exchange) with
  | none => rfl
  | some circuit =>
    rw [hcircuit] at hanswer
    dsimp only at hanswer ⊢
    split_ifs at hanswer ⊢
    rfl

end Asking

section Recording
variable {F : Type} [Scalar F] {circuits : Circuits F} {exchange key error : String} {now : F}

omit [Scalar F] in
theorem recordExchangeSuccess_self : failures (recordExchangeSuccess circuits exchange now) (circuitKey exchange) = 0 ∧
    openedUntil (recordExchangeSuccess circuits exchange now) (circuitKey exchange) = none := by
  rw [failures, openedUntil, recordExchangeSuccess, Function.update_self]
  exact ⟨rfl, rfl⟩

omit [Scalar F] in
theorem recordExchangeSuccess_other (h : circuitKey exchange ≠ key) :
    recordExchangeSuccess circuits exchange now key = circuits key := Function.update_of_ne h.symm _ _

theorem recordExchangeFailure_self :
    failures (recordExchangeFailure circuits exchange error now) (circuitKey exchange) =
        countFailure (failures circuits (circuitKey exchange)) ∧
      openedUntil (recordExchangeFailure circuits exchange error now) (circuitKey exchange) =
        if exchangeBreakerFailureThreshold ≤ countFailure (failures circuits (circuitKey exchange)) then
          some (now + Scalar.ofCount (cooldownSeconds (countFailure (failures circuits (circuitKey exchange)))))
        else openedUntil circuits (circuitKey exchange) := by
  rw [failures, openedUntil, recordExchangeFailure, Function.update_self, failures, openedUntil]
  cases circuits (circuitKey exchange) with
  | none => exact ⟨rfl, rfl⟩
  | some circuit => exact ⟨rfl, rfl⟩

theorem recordExchangeFailure_other (h : circuitKey exchange ≠ key) :
    recordExchangeFailure circuits exchange error now key = circuits key := Function.update_of_ne h.symm _ _

end Recording

section Steps
variable {F : Type} [Scalar F] {state : CallRun F} {event : Event F} {key : String}

/-- What an event does to the circuit of a key, by what it records for it. -/
def Recorded (key : String) (before after : Circuits F) (now : F) : Option Outcome → Prop
  | none => failures after key = failures before key ∧
      (openedUntil after key = openedUntil before key ∨ openedUntil after key = none)
  | some .success => failures after key = 0 ∧ openedUntil after key = none
  | some .failure => failures after key = countFailure (failures before key) ∧
      openedUntil after key =
        if exchangeBreakerFailureThreshold ≤ countFailure (failures before key) then
          some (now + Scalar.ofCount (cooldownSeconds (countFailure (failures before key))))
        else openedUntil before key

theorem Recorded.refl (key : String) (circuits : Circuits F) (now : F) : Recorded key circuits circuits now none :=
  ⟨rfl, .inl rfl⟩

theorem Recorded.asked (key : String) (circuits : Circuits F) (exchange : String) (now : F) :
    Recorded key circuits (exchangeCircuitOpen circuits exchange now).2 now none :=
  ⟨failures_exchangeCircuitOpen, openedUntil_exchangeCircuitOpen⟩

theorem Recorded.success (key : String) (circuits : Circuits F) (exchange : String) (now : F) :
    Recorded key circuits (recordExchangeSuccess circuits exchange now) now
      (if circuitKey exchange = key then some .success else none) := by
  split_ifs with hkey
  · rw [← hkey]
    exact recordExchangeSuccess_self
  · unfold Recorded failures openedUntil
    dsimp only
    rw [recordExchangeSuccess_other hkey]
    exact ⟨rfl, .inl rfl⟩

theorem Recorded.failure (key : String) (circuits : Circuits F) (exchange error : String) (now : F) :
    Recorded key circuits (recordExchangeFailure circuits exchange error now) now
      (if circuitKey exchange = key then some .failure else none) := by
  split_ifs with hkey
  · rw [← hkey]
    exact recordExchangeFailure_self
  · unfold Recorded failures openedUntil
    dsimp only
    rw [recordExchangeFailure_other hkey]
    exact ⟨rfl, .inl rfl⟩

theorem step_recorded (key : String) (state : CallRun F) (event : Event F) :
    Recorded key state.circuits (step state event).circuits event.now (recorded key state event) := by
  obtain ⟨now, action⟩ := event
  cases action with
  | call exchange => exact .refl ..
  | request exchange => exact .refl ..
  | listed exchange => exact .success ..
  | scan exchange => exact .asked ..
  | move task move =>
    unfold step recorded
    dsimp only
    cases hcall : state.calls[task]? with
    | none => exact .refl ..
    | some call =>
      obtain ⟨exchange, phase⟩ := call
      cases move with
      | check => cases phase <;> first | exact .asked .. | exact .refl ..
      | start => cases phase <;> exact .refl ..
      | recheck => cases phase <;> first | exact .asked .. | exact .refl ..
      | abort => exact .refl ..
      | reply reply =>
        cases phase with
        | requesting attempt =>
          cases reply with
          | snapshot => exact .success ..
          | error error =>
            rw [Option.bind_some]
            unfold CallRun.move Reply.outcome
            dsimp only
            by_cases hknown : isMarketSnapshotUnavailableError error = true
            · simp only [hknown, if_true, ite_self]
              exact .refl ..
            · simp only [hknown, if_false, Bool.false_eq_true]
              exact .failure ..
        | _ => cases reply <;> exact .refl ..

/-- A call that is free to start an attempt was so before, or the circuit has just been asked for it. -/
theorem ready_step {call : SnapshotCall} {attempt : Nat} (hcall : call ∈ (step state event).calls)
    (hready : call.phase = .ready attempt) :
    call ∈ state.calls ∨ ∃ task old, state.calls[task]? = some old ∧ old.exchange = call.exchange ∧
      (step state event).circuits = (exchangeCircuitOpen state.circuits old.exchange event.now).2 ∧
      (event.action = .move task .check ∧ ¬IsOpen state.circuits old.exchange event.now ∨
        event.action = .move task .recheck ∧ ∃ attempt, old.phase = .failed attempt) := by
  obtain ⟨now, action⟩ := event
  cases action with
  | call exchange =>
    rcases List.mem_append.mp hcall with hcall | hcall
    · exact .inl hcall
    · rw [List.mem_singleton.mp hcall] at hready
      cases hready
  | request exchange => exact .inl hcall
  | listed exchange => exact .inl hcall
  | scan exchange => exact .inl hcall
  | move task move =>
    unfold step at hcall ⊢
    dsimp only at hcall ⊢
    cases hold : state.calls[task]? with
    | none =>
      rw [hold] at hcall
      exact .inl hcall
    | some old =>
      rw [hold] at hcall
      dsimp only at hcall ⊢
      -- A move changes the phase of its own call only.
      have hturn {circuits : Circuits F} {phase : Phase} (h : call ∈ (state.turn task old circuits phase).calls) :
          call ∈ state.calls ∨ call = { old with phase } := List.mem_or_eq_of_mem_set h
      have hbusy {circuits : Circuits F} {phase : Phase} (h : call ∈ (state.turn task old circuits phase).calls)
          (hphase : ∀ attempt, phase ≠ .ready attempt) : call ∈ state.calls :=
        (hturn h).resolve_right fun hsame =>
          hphase attempt ((congrArg SnapshotCall.phase hsame).symm.trans hready)
      obtain ⟨exchange, phase⟩ := old
      cases move with
      | check =>
        cases phase with
        | entered =>
          rcases hturn hcall with hcall | hsame
          · exact .inl hcall
          · refine .inr ⟨task, _, hold, (congrArg SnapshotCall.exchange hsame).symm, rfl, .inl ⟨rfl, fun hopen => ?_⟩⟩
            have hphase : call.phase =
                if (exchangeCircuitOpen state.circuits exchange now).1 then .done else .ready 0 :=
              congrArg SnapshotCall.phase hsame
            rw [exchangeCircuitOpen_iff.mpr hopen, if_pos rfl, hready] at hphase
            cases hphase
        | _ => exact .inl hcall
      | start =>
        cases phase with
        | ready attempt => exact .inl (hbusy hcall nofun)
        | _ => exact .inl hcall
      | recheck =>
        cases phase with
        | failed attempt =>
          rcases hturn hcall with hcall | rfl
          · exact .inl hcall
          · exact .inr ⟨task, _, hold, rfl, rfl, .inr ⟨rfl, attempt, rfl⟩⟩
        | _ => exact .inl hcall
      | abort => exact .inl (hbusy hcall nofun)
      | reply reply =>
        cases phase with
        | requesting attempt =>
          cases reply with
          | snapshot => exact .inl (hbusy hcall nofun)
          | error error =>
            unfold CallRun.move at hcall
            dsimp only at hcall
            split_ifs at hcall
            all_goals exact .inl (hbusy hcall nofun)
        | _ => cases reply <;> exact .inl hcall

end Steps

section Runs
variable {F : Type} [Scalar F] {start : Circuits F} {events : List (Event F)}

/-- The circuits of the calls that are free to start an attempt are closed. -/
def ReadyClosed (state : CallRun F) : Prop :=
  ∀ call ∈ state.calls, ∀ attempt, call.phase = .ready attempt →
    openedUntil state.circuits (circuitKey call.exchange) = none

theorem ReadyClosed.step {state : CallRun F} {event : Event F} (h : ReadyClosed state) (hheeded : Heeded state event) :
    ReadyClosed (step state event) := by
  intro call hcall attempt hready
  rcases ready_step hcall hready with hbefore | ⟨task, old, hold, hexchange, hcircuits, hasked⟩
  · have hclosed := h call hbefore attempt hready
    have hrecorded := step_recorded (circuitKey call.exchange) state event
    cases houtcome : recorded (circuitKey call.exchange) state event with
    | none =>
      rw [houtcome] at hrecorded
      exact hrecorded.2.elim (·.trans hclosed) id
    | some outcome =>
      rw [houtcome] at hrecorded
      cases outcome with
      | success => exact hrecorded.2
      | failure =>
        refine hrecorded.2.trans ?_
        split_ifs with hopens
        · exact absurd hready (hheeded.waited _ houtcome hopens call hbefore rfl attempt)
        · exact hclosed
  · rw [hcircuits, ← hexchange]
    apply openedUntil_of_closed
    rcases hasked with ⟨-, hclosed⟩ | ⟨hrecheck, attempt, hfailed⟩
    · exact hclosed
    · exact hheeded.rechecked task old attempt hrecheck hold hfailed

theorem requestsClosed_of_heeded (h : Along step Heeded { circuits := start, calls := [] } events) :
    RequestsClosed start events := by
  have hready : ReadyClosed { circuits := start, calls := [] } := fun call hcall => by cases hcall
  have hall := (along_invariant step (fun _ _ hi hg => ReadyClosed.step hi hg) hready h).and step h
  refine hall.mono step ?_
  rintro state ⟨now, action⟩ ⟨hclosed, hheeded⟩ exchange hrequested
  cases action with
  | move task move =>
    obtain ⟨call, hcall, hstarted⟩ := Option.bind_eq_some_iff.mp hrequested
    obtain ⟨name, phase⟩ := call
    cases move with
    | start =>
      cases phase with
      | ready attempt =>
        rw [← Option.some.inj hstarted]
        rintro ⟨until_, hopened, -⟩
        have hnone := hclosed _ (List.mem_of_getElem? hcall) attempt rfl
        rw [hnone] at hopened
        cases hopened
      | _ => cases hstarted
    | _ => cases hstarted
  | request other =>
    rw [← Option.some.inj hrequested]
    exact hheeded.asked other rfl
  | _ => cases hrequested

end Runs

section Cooldowns
variable {F : Type} [Scalar F] {start : Circuits F} {events : List (Event F)} {key : String}

theorem cooldownSeconds_mem (n : Nat) : 30 ≤ cooldownSeconds n ∧ cooldownSeconds n ≤ 900 := by
  have hpower : 1 ≤ 2 ^ min (n - 3) 8 := Nat.one_le_two_pow
  exact ⟨le_min (Nat.le_mul_of_pos_right 30 hpower) (by decide), min_le_right _ _⟩

theorem cooldownSeconds_mono {m n : Nat} (h : m ≤ n) : cooldownSeconds m ≤ cooldownSeconds n := by
  have hexponent : min (m - 3) 8 ≤ min (n - 3) 8 := min_le_min_right 8 (Nat.sub_le_sub_right h 3)
  exact min_le_min_right 900 (Nat.mul_le_mul_left 30 (Nat.pow_le_pow_right Nat.two_pos hexponent))

theorem cooldownSeconds_of_le {n : Nat} (h : 11 ≤ n) : cooldownSeconds n = 900 := by
  have hexponent : min (n - exchangeBreakerFailureThreshold) 8 = 8 := min_eq_right (Nat.le_sub_of_add_le h)
  rw [cooldownSeconds, hexponent]
  rfl

/-- The counter of a circuit is the streak, unless that is beyond what makes a difference. -/
structure Counted (count streak : Nat) : Prop where
  le : count ≤ streak
  same : count = streak ∨ 11 ≤ count

theorem Counted.failure {count streak : Nat} (h : Counted count streak) :
    Counted (countFailure count) (streak + 1) := by
  obtain ⟨hle, hsame⟩ := h
  unfold countFailure
  constructor <;> omega

theorem Counted.cooldown {count streak : Nat} (h : Counted count streak) :
    cooldownSeconds count = cooldownSeconds streak := by
  rcases h.same with hsame | hlarge
  · rw [hsame]
  · rw [cooldownSeconds_of_le hlarge, cooldownSeconds_of_le (hlarge.trans h.le)]

theorem streak_concat (start : Circuits F) (key : String) (before : List (Event F)) (event : Event F) :
    streak start key (before ++ [event]) =
      (recorded key (run step { circuits := start, calls := [] } before) event).elim (streak start key before)
        (countOutcome (streak start key before)) := by
  rw [streak, trace_append, List.foldl_append, trace, trace, List.append_nil]
  cases recorded key (run step { circuits := start, calls := [] } before) event <;> rfl

theorem counted_run (start : Circuits F) (key : String) (events : List (Event F)) :
    Counted (failures (run step { circuits := start, calls := [] } events).circuits key) (streak start key events) := by
  induction events using List.reverseRecOn with
  | nil => exact ⟨Nat.le_refl _, .inl rfl⟩
  | append_singleton before event ih =>
    have hrecorded := step_recorded key (run step { circuits := start, calls := [] } before) event
    rw [run_append, run_cons, run_nil, streak_concat]
    cases houtcome : recorded key (run step { circuits := start, calls := [] } before) event with
    | none =>
      rw [houtcome] at hrecorded
      rw [hrecorded.1]
      exact ih
    | some outcome =>
      rw [houtcome] at hrecorded
      cases outcome with
      | success =>
        rw [hrecorded.1]
        exact ⟨Nat.le_refl _, .inl rfl⟩
      | failure =>
        rw [hrecorded.1]
        exact ih.failure

/-- What stands after an event stood before it, or has been set by the third or a later failure in a row. -/
theorem opens_of_run (start : Circuits F) (key : String) (before : List (Event F)) (event : Event F) {until_ : F}
    (h : openedUntil (run step { circuits := start, calls := [] } (before ++ [event])).circuits key = some until_) :
    openedUntil (run step { circuits := start, calls := [] } before).circuits key = some until_ ∨
      3 ≤ streak start key (before ++ [event]) ∧
        until_ = event.now + Scalar.ofCount (cooldownSeconds (streak start key (before ++ [event]))) := by
  have hcounted := counted_run start key before
  have hrecorded := step_recorded key (run step { circuits := start, calls := [] } before) event
  rw [run_append, run_cons, run_nil] at h
  rw [streak_concat]
  cases houtcome : recorded key (run step { circuits := start, calls := [] } before) event with
  | none =>
    rw [houtcome] at hrecorded
    rcases hrecorded.2 with hsame | hnone
    · exact .inl (hsame ▸ h)
    · rw [hnone] at h
      cases h
  | some outcome =>
    rw [houtcome] at hrecorded
    cases outcome with
    | success =>
      rw [hrecorded.2] at h
      cases h
    | failure =>
      rw [hrecorded.2] at h
      split_ifs at h with hopens
      · refine .inr ⟨hopens.trans hcounted.failure.le, ?_⟩
        rw [← Option.some.inj h, hcounted.failure.cooldown]
        rfl
      · exact .inl h

theorem le_foldl_countOutcome {outcomes : List Outcome} (h : .success ∉ outcomes) (n : Nat) :
    n ≤ outcomes.foldl countOutcome n := by
  induction outcomes generalizing n with
  | nil => exact Nat.le_refl n
  | cons outcome outcomes ih =>
    obtain ⟨hfirst, hrest⟩ := not_or.mp (List.mem_cons.not.mp h)
    cases outcome with
    | success => exact absurd rfl hfirst
    | failure => exact (Nat.le_succ n).trans (ih hrest (n + 1))

/-- The circuits keep their laws in every run in which their answers count. -/
theorem circuitLaws_of_heeded (start : Circuits F) (events : List (Event F))
    (h : Along step Heeded { circuits := start, calls := [] } events) : CircuitLaws start events := by
  refine ⟨requestsClosed_of_heeded h, ?_, fun key before _ => cooldownSeconds_mem _, ?_⟩
  · intro key before event until_ _ hopened
    exact opens_of_run start key before event hopened
  · intro key before after _ hfailures
    apply cooldownSeconds_mono
    rw [streak, streak, trace_append, List.foldl_append]
    exact le_foldl_countOutcome hfailures _

/-- One call whose first attempt succeeds. -/
theorem circuitLaws_of_success : CircuitLaws (fun _ => none) [⟨(0 : ℚ), .call "binance"⟩, ⟨0, .move 0 .check⟩,
    ⟨0, .move 0 .start⟩, ⟨1, .move 0 (.reply .snapshot)⟩] := by
  apply circuitLaws_of_heeded
  have hcalm {state : CallRun ℚ} {event : Event ℚ} (hrecheck : ∀ task, event.action ≠ .move task .recheck)
      (hrequest : ∀ exchange, event.action ≠ .request exchange)
      (hrecorded : ∀ key, recorded key state event ≠ some .failure) : Heeded state event :=
    ⟨fun task _ _ haction => absurd haction (hrecheck task), fun key h => absurd h (hrecorded key),
      fun exchange haction => absurd haction (hrequest exchange)⟩
  refine ⟨hcalm nofun nofun nofun, hcalm nofun nofun nofun, hcalm nofun nofun nofun, hcalm nofun nofun ?_, trivial⟩
  intro key h
  change (if circuitKey "binance" = key then some Outcome.success else none) = _ at h
  split_ifs at h
  cases h

/-- Circuits of which each counts two failures. -/
def twiceFailed : Circuits ℚ := fun _ =>
  some { consecutiveFailures := 2, openedUntil := none, lastSuccessAt := none, lastError := none }

/-- The third failure in a row opens the circuit, and the loop goes on to its next attempt. -/
theorem retry_requests_while_open : ¬CircuitLaws twiceFailed [⟨0, .call "binance"⟩, ⟨0, .move 0 .check⟩,
    ⟨0, .move 0 .start⟩, ⟨1, .move 0 (.reply (.error "timed out"))⟩, ⟨1, .move 0 .recheck⟩, ⟨1, .move 0 .start⟩] := by
  intro h
  obtain ⟨-, -, -, -, -, hrequest, -⟩ := h.closed
  refine hrequest "binance" rfl ?_
  set called := step { circuits := twiceFailed, calls := [] } ⟨0, .call "binance"⟩
  set checked := step called ⟨0, .move 0 .check⟩
  set started := step checked ⟨0, .move 0 .start⟩
  set failed := step started ⟨1, .move 0 (.reply (.error "timed out"))⟩
  have hcheck : Recorded (circuitKey "binance") called.circuits checked.circuits 0 none := step_recorded _ _ _
  have hstart : Recorded (circuitKey "binance") checked.circuits started.circuits 0 none := step_recorded _ _ _
  have hcount : failures started.circuits (circuitKey "binance") = 2 := hstart.1.trans hcheck.1
  have hfailure : recorded (circuitKey "binance") started ⟨1, .move 0 (.reply (.error "timed out"))⟩ =
      some .failure := by
    change (if circuitKey "binance" = circuitKey "binance" then _ else none) = _
    rw [if_pos rfl]
    rfl
  have hopened := step_recorded (circuitKey "binance") started ⟨1, .move 0 (.reply (.error "timed out"))⟩
  have hthird : countFailure 2 = 3 := by
    unfold countFailure
    omega
  rw [hfailure] at hopened
  have huntil := hopened.2
  have hthreshold : exchangeBreakerFailureThreshold ≤ 3 := Nat.le_refl 3
  rw [hcount, hthird, if_pos hthreshold] at huntil
  have hopen : IsOpen failed.circuits "binance" 1 := by
    refine ⟨_, huntil, ?_⟩
    change (1 : ℚ) < 1 + (30 : Nat)
    norm_num
  have hrechecked : (step failed ⟨1, .move 0 .recheck⟩).circuits =
      (exchangeCircuitOpen failed.circuits "binance" 1).2 := rfl
  rw [hrechecked, exchangeCircuitOpen_of_open hopen]
  exact hopen

end Cooldowns

section Necessity
variable {F : Type} [Scalar F] {state : CallRun F} {event : Event F}

/-- What is recorded leaves the calls that are free to start an attempt as they are. -/
theorem ready_stays {key : String} {outcome : Outcome} {place : Nat} {call : SnapshotCall} {attempt : Nat}
    (hcall : state.calls[place]? = some call) (hready : call.phase = .ready attempt)
    (h : recorded key state event = some outcome) : (step state event).calls[place]? = some call := by
  obtain ⟨now, action⟩ := event
  cases action with
  | move task move =>
    obtain ⟨old, hold, hrecorded⟩ := Option.bind_eq_some_iff.mp h
    have hset {circuits : Circuits F} {phase : Phase} {n : Nat} (hphase : old.phase = .requesting n) :
        (state.turn task old circuits phase).calls[place]? = some call := by
      rw [CallRun.turn, List.getElem?_set_ne, hcall]
      rintro rfl
      rw [hcall] at hold
      rw [Option.some.inj hold, hphase] at hready
      cases hready
    unfold step
    dsimp only
    rw [hold]
    obtain ⟨exchange, phase⟩ := old
    cases move with
    | reply reply =>
      cases phase with
      | requesting n =>
        cases reply with
        | snapshot => exact hset rfl
        | error error =>
          unfold CallRun.move
          dsimp only
          split_ifs <;> exact hset rfl
      | _ => cases hrecorded
    | _ => cases hrecorded
  | _ => first | exact hcall | cases h

omit [Scalar F] in
theorem requested_start {task attempt : Nat} {call : SnapshotCall} (now : F) (hcall : state.calls[task]? = some call)
    (hready : call.phase = .ready attempt) : requested state ⟨now, .move task .start⟩ = some call.exchange := by
  simp only [requested, hcall, Option.bind_some, hready]

/-- Where an answer does not count, a request is started at once while the circuit is open, or a call is free to. -/
theorem requested_while_open_of_not_heeded
    (hclock : ∀ seconds, 30 ≤ seconds → event.now < event.now + Scalar.ofCount seconds) (h : ¬Heeded state event) :
    (∃ exchange ∈ requested state event, IsOpen state.circuits exchange event.now) ∨
      ∃ task, ∃ exchange ∈ requested (step state event) ⟨event.now, .move task .start⟩,
        IsOpen (step state event).circuits exchange event.now := by
  by_contra hnone
  obtain ⟨hevent, hnext⟩ := not_or.mp hnone
  refine h ⟨?_, ?_, ?_⟩
  · intro task call attempt haction hcall hfailed hopen
    have hstep : step state event = state.turn task call state.circuits (.ready (attempt + 1)) := by
      unfold step
      rw [haction]
      dsimp only
      rw [hcall]
      dsimp only
      unfold CallRun.move
      rw [hfailed]
      dsimp only
      rw [exchangeCircuitOpen_of_open hopen]
    obtain ⟨hplace, -⟩ := List.getElem?_eq_some_iff.mp hcall
    rw [hstep] at hnext
    have hset : (state.turn task call state.circuits (.ready (attempt + 1))).calls[task]? =
        some { call with phase := .ready (attempt + 1) } := List.getElem?_set_self hplace
    have hstarted := requested_start event.now hset rfl
    exact hnext ⟨task, call.exchange, hstarted, hopen⟩
  · intro key hrecorded hopens call hcall hkey attempt hready
    obtain ⟨place, hplace, hget⟩ := List.mem_iff_getElem.mp hcall
    have hstays := ready_stays (List.getElem?_eq_some_iff.mpr ⟨hplace, hget⟩) hready hrecorded
    have hafter := step_recorded key state event
    rw [hrecorded] at hafter
    have hopened := hafter.2.trans (if_pos hopens)
    rw [← hkey] at hopened
    exact hnext ⟨place, call.exchange, requested_start event.now hstays hready, _, hopened,
      hclock _ (cooldownSeconds_mem _).1⟩
  · intro exchange haction hopen
    exact hevent ⟨exchange, by rw [requested, haction]; rfl, hopen⟩

end Necessity

end Gail.Trading.Circuit
