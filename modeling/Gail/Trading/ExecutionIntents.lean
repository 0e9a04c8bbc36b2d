import Gail.Library.LockedFile
import Gail.Library.Run
import Gail.Trading.TradeHistory

/-! From a decision that has passed every gate to its order. A claim on the intent is saved before the
order is placed, and kept as long as the order may have been accepted. -/
namespace Gail.Trading
open Gail.Library

/-- The settings that an execution reads; normalisation keeps the lease at half a minute or more. -/
structure ExecutionConfig (F : Type) where
  executionAuthority : String
  executionLeaseSeconds : F
  minTradeIntervalSeconds : Nat
  tradeRingSize : Nat

structure ExecutionIntentClaim (F : Type) where
  authority : String
  claimedAt : F
  expiresAt : F

/-- The part of the trading state that executions change. -/
structure TradingState (F : Type) where
  ledger : TradeLedger F
  inFlightOrderIntents : String → Option (ExecutionIntentClaim F)

/-- Why an intent is not claimed. -/
inductive ClaimRefusal (F : Type) where
  | leased (authority : String) (remaining : F)
  | cooling (age remaining : F)

/-- A decision as it is executed: on the exchange that it was routed to, with the amount that the
balance allows, at the price it was checked against. -/
structure ExecutionOrder (F : Type) where
  action : TradeAction
  exchange : String
  symbol : String
  amountUsd : F
  referencePrice : Option F
  overrideApplied : Bool

def ExecutionOrder.intentKey {F : Type} (order : ExecutionOrder F) : Option String :=
  order.action.side.bind fun side => executionIntentKey side order.exchange order.symbol

/-- An order with the claim that its execution has made. -/
structure ExecutionIntent (F : Type) where
  order : ExecutionOrder F
  key : String
  isKey : order.intentKey = some key
  claim : ExecutionIntentClaim F

/-- Where `execute_if_warranted` stands. -/
inductive ExecutionPhase (F : Type) where
  | idle
  /-- In `persist_checked`, before it has the lock of the file. -/
  | claimed (intent : ExecutionIntent F)
  | persisting (intent : ExecutionIntent F)
  /-- In `ensure_trading_pair_active_for_order`. -/
  | activating (intent : ExecutionIntent F)
  /-- In `place_buy_order` or `place_sell_order`. -/
  | submitting (intent : ExecutionIntent F)
  /-- In the last `persist`, before it has the lock of the file. -/
  | closing
  | closingPersist

/-- An order that was placed, and the trade that was recorded once it was accepted. -/
structure Submission (F : Type) where
  intent : ExecutionIntent F
  trade : Option (ExecutedTrade F)

/-- The bridge and its file; `sent` is what OctoBot has been asked for. -/
structure ExecutionWorld (F : Type) where
  now : F
  config : ExecutionConfig F
  store : LockedFile (TradingState F)
  phase : ExecutionPhase F
  sent : List (Submission F)

/-- One loop executes all decisions, one after the other; tasks and operator calls beside it save the
state as well. -/
inductive ExecutionEvent (F : Type) where
  | tick (later : F)
  /-- A decision has passed the gates before the claim. -/
  | execute (order : ExecutionOrder F)
  /-- The execution gets the lock of the file. -/
  | lock
  /-- Its write ends, with the file renamed or not. -/
  | written (renamed : Bool)
  /-- The pair is active, or is not, or that could not be found out. -/
  | activation (ready : Bool)
  | reply (result : Option (OctobotOrderResult F))
  /-- Another task or call gets the lock of the file. -/
  | otherLock
  | otherWritten (renamed : Bool)
  /-- Its future is dropped during the renaming, which goes on without the lock. -/
  | otherDropped
  | land (index : Nat)
  | importTrades (trades : List (ExecutedTrade F))
  /-- The process ends, and a new one can or cannot read the file. -/
  | restart (config : ExecutionConfig F) (readBack : Bool)

namespace ExecutionPhase
variable {F : Type}

/-- The intent that the execution has claimed and not given up. -/
def intent : ExecutionPhase F → Option (ExecutionIntent F)
  | claimed intent | persisting intent | activating intent | submitting intent => some intent
  | idle | closing | closingPersist => none

/-- The execution has the lock of the file. -/
def writes : ExecutionPhase F → Bool
  | persisting _ | closingPersist => true
  | _ => false

end ExecutionPhase

section Definitions
variable {F : Type} [Scalar F]

namespace TradingState

/-- The expired claims are removed. -/
def retainClaims (state : TradingState F) (now : F) : TradingState F :=
  { state with
    inFlightOrderIntents := fun key =>
      (state.inFlightOrderIntents key).filter fun claim => decide (now < claim.expiresAt) }

def insertClaim (state : TradingState F) (key : String) (claim : ExecutionIntentClaim F) :
    TradingState F :=
  { state with inFlightOrderIntents := Function.update state.inFlightOrderIntents key (some claim) }

def releaseExecutionIntent (state : TradingState F) (key : String) : TradingState F :=
  { state with inFlightOrderIntents := Function.update state.inFlightOrderIntents key none }

end TradingState

namespace ExecutionConfig

def claim (config : ExecutionConfig F) (now : F) : ExecutionIntentClaim F :=
  { authority := config.executionAuthority
    claimedAt := now
    expiresAt := now + config.executionLeaseSeconds }

/-- An equivalent trade is too recent. -/
def cooldown (config : ExecutionConfig F) (now : F) (previous : ExecutedTrade F) :
    Option (ClaimRefusal F) :=
  let age := Scalar.max (now - previous.ts) 0.0
  if age < Scalar.ofCount config.minTradeIntervalSeconds then
    some (.cooling age (Scalar.ofCount config.minTradeIntervalSeconds - age))
  else none

end ExecutionConfig

/-- The clock is read once; expired claims go even when the intent is not claimed. -/
def claimExecutionIntent (state : TradingState F) (key : String) (config : ExecutionConfig F)
    (operatorOverride : Bool) (now : F) : TradingState F × Except (ClaimRefusal F) Unit :=
  let state := state.retainClaims now
  match state.inFlightOrderIntents key with
  | some existing =>
    (state, .error (.leased existing.authority (Scalar.max (existing.expiresAt - now) 0.0)))
  | none =>
    let previous := if operatorOverride then none else state.ledger.previousTrade key
    match previous.bind (config.cooldown now) with
    | some refusal => (state, .error refusal)
    | none => (state.insertClaim key (config.claim now), .ok ())

variable [NumberText F]

namespace TradingState

def new (tradeRingSize : Nat) : TradingState F :=
  { ledger := .empty tradeRingSize, inFlightOrderIntents := fun _ => none }

def recordTrade (state : TradingState F) (trade : ExecutedTrade F) : TradingState F :=
  { state with ledger := state.ledger.recordTrade trade }

/-- What a new process makes of a state that it has read. -/
def restore (restored : TradingState F) (tradeRingSize : Nat) : TradingState F :=
  { ledger := restored.ledger.restore tradeRingSize
    inFlightOrderIntents := restored.inFlightOrderIntents }

/-- The state of a new process: that of the file, or a fresh one when there is none or it cannot be
read. -/
def boot (tradeRingSize : Nat) (file : Option (TradingState F)) : TradingState F :=
  match file with
  | some restored => restored.restore tradeRingSize
  | none => new tradeRingSize

end TradingState

/-- The trade that an accepted order is recorded as. -/
def ExecutionOrder.executedTrade (order : ExecutionOrder F) (executedAt : F)
    (result : OctobotOrderResult F) : ExecutedTrade F :=
  { ts := executedAt
    exchange := order.exchange
    symbol := order.symbol
    action := order.action
    amountUsd := order.amountUsd
    price := result.price.or order.referencePrice
    orderId := some result.orderId.text
    source := .gail }

namespace ExecutionWorld

def start (now : F) (config : ExecutionConfig F) (file : Option (TradingState F)) : ExecutionWorld F :=
  { now, config, store := .start (.boot config.tradeRingSize file) file, phase := .idle, sent := [] }

def claim (w : ExecutionWorld F) (order : ExecutionOrder F) : ExecutionWorld F :=
  match hk : order.intentKey with
  | none => w
  | some key =>
    match claimExecutionIntent w.store.memory key w.config order.overrideApplied w.now with
    | (state, .error _) => { w with store := w.store.setMemory state }
    | (state, .ok ()) =>
      { w with
        store := w.store.setMemory state
        phase := .claimed { order, key, isKey := hk, claim := w.config.claim w.now } }

/-- The execution gives its claim up. -/
def release (w : ExecutionWorld F) (intent : ExecutionIntent F) (phase : ExecutionPhase F) :
    ExecutionWorld F :=
  { w with store := w.store.setMemory (w.store.memory.releaseExecutionIntent intent.key), phase }

/-- The order is accepted: the claim goes and the trade is recorded, under one lock. -/
def acknowledge (w : ExecutionWorld F) (intent : ExecutionIntent F) (result : OctobotOrderResult F) :
    ExecutionWorld F :=
  let trade := intent.order.executedTrade w.now result
  { w with
    store := w.store.setMemory ((w.store.memory.releaseExecutionIntent intent.key).recordTrade trade)
    phase := .closing
    sent := w.sent.dropLast ++ [{ intent, trade := some trade }] }

/-- An event that does not fit the phase does nothing, and the clock does not run backwards. -/
def step (w : ExecutionWorld F) : ExecutionEvent F → ExecutionWorld F
  | .tick later => if w.now ≤ later then { w with now := later } else w
  | .execute order =>
    match w.phase with
    | .idle => w.claim order
    | _ => w
  | .lock =>
    match w.phase, w.store.writer with
    | .claimed intent, none => { w with store := w.store.copy, phase := .persisting intent }
    | .closing, none => { w with store := w.store.copy, phase := .closingPersist }
    | _, _ => w
  | .written renamed =>
    let finished := { w with store := w.store.finish renamed }
    match w.phase with
    | .persisting intent =>
      if renamed then { finished with phase := .activating intent } else finished.release intent .idle
    | .closingPersist => { finished with phase := .idle }
    | _ => w
  | .activation ready =>
    match w.phase with
    | .activating intent =>
      if ready then { w with phase := .submitting intent, sent := w.sent ++ [{ intent, trade := none }] }
      else w.release intent .closing
    | _ => w
  | .reply result =>
    match w.phase with
    | .submitting intent =>
      match result with
      | some result => w.acknowledge intent result
      | none => { w with phase := .closing }
    | _ => w
  | .otherLock => { w with store := w.store.copy }
  | .otherWritten renamed => if w.phase.writes then w else { w with store := w.store.finish renamed }
  | .otherDropped => if w.phase.writes then w else { w with store := w.store.drop }
  | .land index => { w with store := w.store.land index }
  | .importTrades trades =>
    match w.phase with
    | .idle =>
      { w with store := w.store.setMemory { w.store.memory with
          ledger := (w.store.memory.ledger.importTradeHistory trades).1 } }
    | _ => w
  | .restart config readBack =>
    let file := if readBack then w.store.file.map Prod.snd else none
    { w with config, store := w.store.reopen (.boot config.tradeRingSize file), phase := .idle }

end ExecutionWorld

end Definitions

end Gail.Trading
