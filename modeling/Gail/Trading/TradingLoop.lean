import Gail.Trading.ExecutionIntents

/-! The trading bridge with its one execution owner. The owner evaluates, and executes the plans that a
review has made beside it, while an operator pauses the bridge and posts overrides. -/
namespace Gail.Trading
open Gail.Library

structure TradeOverride (F : Type) where
  action : TradeAction
  exchange : Option String
  symbol : Option String
  amountUsd : Option F

/-- An override with the number that tells it from all others. -/
structure PostedOverride (F : Type) where
  number : Nat
  request : TradeOverride F

/-- The settings of the loop; those of the execution hold the cooldown. -/
structure LoopConfig (F : Type) where
  execution : ExecutionConfig F
  maxOpenPositions : Nat
  microTradeMinUsd : F
  microTradeMaxUsd : F

/-- What the gates for open positions and for the cooldown look at. -/
structure LimitView (F : Type) where
  now : F
  lastTradeAt : Option F
  openPositions : Nat
  maxOpenPositions : Nat

/-- What a decision is made of beside the override and the limits. -/
structure DecisionInput (F : Type) where
  blendedSignal : F
  /-- The blended confidence reaches the adaptive threshold. -/
  confident : Bool
  /-- Exchange and symbol of the target. -/
  market : Option (String × String)
  worthwhile : Bool
  amountUsd : F
  /-- An execution gate, the target validation or the veto of a model turns the decision into a hold. -/
  withheld : Bool

structure TradeDecision (F : Type) where
  action : TradeAction
  exchange : String
  symbol : String
  amountUsd : F
  /-- The override that it applies. -/
  overrideApplied : Option (PostedOverride F)

/-- A decision with the limits that it was made under. -/
structure TradePlan (F : Type) where
  decision : TradeDecision F
  decidedAt : LimitView F

inductive MaintenanceKind where
  | discovery
  | pruning
  deriving DecidableEq

/-- The review task; a finished one waits for the owner. -/
inductive MaintenanceReview (F : Type) where
  | starting (kind : MaintenanceKind)
  | planning (kind : MaintenanceKind)
  | planned (plan : Option (TradePlan F))

/-- An execution with the limits at its start, and the order as it stands. -/
structure PlanExecution (F : Type) where
  plan : TradePlan F
  fromReview : Bool
  startedAt : LimitView F
  order : ExecutionOrder F

/-- Where the owner stands. -/
inductive LoopPhase (F : Type) where
  | idle
  | evaluating
  | decided (plan : TradePlan F)
  /-- In `execute_if_warranted`, before its gates. -/
  | executing (execution : PlanExecution F)
  /-- All gates are passed. -/
  | cleared (execution : PlanExecution F)
  | claimed (execution : PlanExecution F) (key : String)
  /-- In `place_buy_order` or `place_sell_order`. -/
  | submitting (execution : PlanExecution F) (key : String)
  | evaluated

/-- A call of `place_buy_order` or `place_sell_order`, and whether the bridge was paused then. -/
structure LoopSubmission (F : Type) where
  execution : PlanExecution F
  paused : Bool

/-- Why an override is no longer pending. -/
inductive RemovalCause where
  | replaced
  | cancelled
  /-- An order was accepted, for the override of this number or for a decision of the engine. -/
  | orderAccepted (number : Option Nat)
  deriving DecidableEq

structure OverrideRemoval where
  number : Nat
  cause : RemovalCause
  deriving DecidableEq

/-- The bridge; `sent` and `removed` say what has been done so far. -/
structure TradingLoop (F : Type) where
  now : F
  config : LoopConfig F
  paused : Bool
  pendingOverride : Option (PostedOverride F)
  posted : Nat
  trading : TradingState F
  openPositions : Nat
  maxOpenPositionsOverride : Option Nat
  phase : LoopPhase F
  review : Option (MaintenanceReview F)
  sent : List (LoopSubmission F)
  removed : List OverrideRemoval

inductive LoopEvent (F : Type) where
  | tick (later : F)
  /-- `trading_pause`, or a pause by a failed native validation or by a backtest task. -/
  | pause
  | resume
  | postOverride (request : TradeOverride F)
  | overrideMaxOpenPositions (value : Option Nat)
  /-- A portfolio is read. -/
  | portfolio (openPositions : Nat)
  | importTrades (trades : List (ExecutedTrade F))
  /-- A tick or a wakeup reaches the check of `paused`. -/
  | beginCycle
  | decide (input : DecisionInput F)
  | abandonCycle
  | execute
  | endCycle (review : Option MaintenanceKind)
  /-- The review looks whether an override is pending. -/
  | checkReview
  /-- The candidate that the review selects is decided. -/
  | decideReview (input : DecisionInput F) (holdingUsd : Option F)
  | abandonReview
  /-- The owner takes a finished review. -/
  | completeReview (modelsUnchanged : Bool)
  /-- Routing, balances, repricing and qualification let the order pass, on this exchange and for this
  amount. -/
  | gates (exchange : String) (amountUsd : F) (referencePrice : Option F)
  | refuse
  | claim
  /-- The claim is saved and the pair active, or not. -/
  | activation (ready : Bool)
  | reply (result : Option (OctobotOrderResult F))

namespace LoopPhase
variable {F : Type}

/-- Past the check of `paused`, with an order still to come. -/
def checked : LoopPhase F → Bool
  | idle | evaluated => false
  | _ => true

def execution : LoopPhase F → Option (PlanExecution F)
  | executing execution | cleared execution | claimed execution _ | submitting execution _ =>
    some execution
  | idle | evaluating | decided _ | evaluated => none

end LoopPhase

namespace PlanExecution
variable {F : Type}

/-- It executes a decision of the engine. -/
def automatic (execution : PlanExecution F) : Bool :=
  execution.plan.decision.overrideApplied.isNone

/-- Where the owner goes on. -/
def next (execution : PlanExecution F) : LoopPhase F :=
  if execution.fromReview then .idle else .evaluated

end PlanExecution

section Definitions
variable {F : Type} [Scalar F]

namespace TradeAction

def signalToAction (signal : F) : TradeAction :=
  if 0.65 ≤ signal then strongBuy
  else if 0.2 ≤ signal then buy
  else if signal ≤ -0.65 then strongSell
  else if signal ≤ -0.2 then sell
  else hold

end TradeAction

namespace LimitView

/-- The cooldown after the last trade is over. -/
def CooldownOver (view : LimitView F) (config : LoopConfig F) : Prop :=
  ∀ last ∈ view.lastTradeAt,
    ¬ view.now - last < Scalar.ofCount config.execution.minTradeIntervalSeconds

instance (view : LimitView F) (config : LoopConfig F) : Decidable (view.CooldownOver config) :=
  match h : view.lastTradeAt with
  | none => isTrue fun last hl => by rw [h] at hl; cases hl
  | some last =>
    decidable_of_iff (¬ view.now - last < Scalar.ofCount config.execution.minTradeIntervalSeconds) <| by
      unfold CooldownOver
      rw [h]
      exact ⟨fun hn _ hl => Option.some.inj hl ▸ hn, fun hall => hall last rfl⟩

/-- Another position may be opened. -/
def Room (view : LimitView F) : Prop := view.openPositions < view.maxOpenPositions

instance (view : LimitView F) : Decidable view.Room := inferInstanceAs (Decidable (_ < _))

end LimitView

/-- `apply_override`. -/
def PostedOverride.applyOverride (posted : PostedOverride F) (config : LoopConfig F) :
    TradeDecision F :=
  { action := posted.request.action
    exchange := posted.request.exchange.getD ""
    symbol := posted.request.symbol.getD ""
    amountUsd := clamp (posted.request.amountUsd.getD config.microTradeMinUsd) config.microTradeMinUsd
      config.microTradeMaxUsd
    overrideApplied := some posted }

namespace TradeDecision

def hold (exchange symbol : String) : TradeDecision F :=
  { action := .hold, exchange, symbol, amountUsd := 0.0, overrideApplied := none }

/-- A withheld decision of the engine is a hold. -/
def withhold (decision : TradeDecision F) (withheld : Bool) : TradeDecision F :=
  if withheld && decision.overrideApplied.isNone then
    { decision with action := .hold, amountUsd := 0.0 }
  else decision

/-- What a decision does not name is taken from the target market. -/
def fillTarget (decision : TradeDecision F) (market : Option (String × String)) : TradeDecision F :=
  match market with
  | none => decision
  | some (exchange, symbol) =>
    { decision with
      exchange := if (trim decision.exchange).isEmpty then exchange else decision.exchange
      symbol := if (trim decision.symbol).isEmpty then symbol else decision.symbol }

end TradeDecision

/-- `DecisionEngine::decide`. -/
def DecisionInput.decide (input : DecisionInput F) (pending : Option (PostedOverride F))
    (view : LimitView F) (config : LoopConfig F) : TradeDecision F :=
  match pending with
  | some posted => posted.applyOverride config
  | none =>
    let target := input.market.getD ("", "")
    let hold := TradeDecision.hold target.1 target.2
    if !input.confident then hold
    else if view.maxOpenPositions ≤ view.openPositions ∧ 0.0 < input.blendedSignal then hold
    else if ¬ view.CooldownOver config then hold
    else if input.market.isNone then hold
    else
      let action := TradeAction.signalToAction input.blendedSignal
      if action ≠ .hold ∧ input.worthwhile = false then hold
      else
        { action, exchange := target.1, symbol := target.2, amountUsd := input.amountUsd
          overrideApplied := none }

namespace MaintenanceKind

/-- The side that the review selects. -/
def side : MaintenanceKind → OrderSide
  | discovery => .buy
  | pruning => .sell

/-- The amount of a plan: pruning sells the whole holding. -/
def planAmount (kind : MaintenanceKind) (amountUsd : F) (holdingUsd : Option F) : F :=
  match kind, holdingUsd with
  | pruning, some holdingUsd => Scalar.max holdingUsd 0.01
  | _, _ => amountUsd

end MaintenanceKind

namespace TradingLoop

def start (now : F) (config : LoopConfig F) (paused : Bool) (trading : TradingState F)
    (openPositions : Nat) (maxOpenPositionsOverride : Option Nat) : TradingLoop F :=
  { now, config, paused, pendingOverride := none, posted := 0, trading, openPositions
    maxOpenPositionsOverride, phase := .idle, review := none, sent := [], removed := [] }

variable (w : TradingLoop F)

def limits : LimitView F :=
  { now := w.now
    lastTradeAt := w.trading.ledger.lastTradeAt
    openPositions := w.openPositions
    maxOpenPositions := w.maxOpenPositionsOverride.getD w.config.maxOpenPositions }

/-- What is pending is replaced by `next`, or by nothing. -/
def removeOverride (next : Option (PostedOverride F)) (cause : RemovalCause) : TradingLoop F :=
  { w with
    pendingOverride := next
    removed := w.removed ++ w.pendingOverride.toList.map fun posted => { number := posted.number, cause } }

def postOverride (request : TradeOverride F) : TradingLoop F :=
  { w.removeOverride (some { number := w.posted, request }) .replaced with posted := w.posted + 1 }

/-- The evaluation decides; only a buy or a sell is executed. -/
def evaluate (input : DecisionInput F) : TradingLoop F :=
  let decision := ((input.decide w.pendingOverride w.limits w.config).withhold input.withheld).fillTarget
    input.market
  if decision.action.side.isSome then
    { w with phase := .decided { decision, decidedAt := w.limits } }
  else { w with phase := .evaluated }

/-- The candidate of a review becomes its plan if it is of the right side. -/
def planReview (kind : MaintenanceKind) (input : DecisionInput F) (holdingUsd : Option F) :
    TradingLoop F :=
  let decision := (input.decide w.pendingOverride w.limits w.config).withhold input.withheld
  { w with review := some (.planned (
      if decision.action.side = some kind.side then
        some
          { decision :=
              { decision with amountUsd := kind.planAmount decision.amountUsd holdingUsd }
            decidedAt := w.limits }
      else none)) }

def executionOf (plan : TradePlan F) (fromReview : Bool) : PlanExecution F :=
  { plan, fromReview
    startedAt := w.limits
    order :=
      { action := plan.decision.action
        exchange := plan.decision.exchange
        symbol := plan.decision.symbol
        amountUsd := plan.decision.amountUsd
        referencePrice := none
        overrideApplied := plan.decision.overrideApplied.isSome } }

/-- The start of `execute_if_warranted`. -/
def startExecution (plan : TradePlan F) (fromReview : Bool) : TradingLoop F :=
  let decision := plan.decision
  let execution := w.executionOf plan fromReview
  match decision.action with
  | .hold => { w with phase := execution.next }
  | .cancel => { w.removeOverride none .cancelled with phase := execution.next }
  | _ =>
    if decision.exchange.isEmpty || decision.symbol.isEmpty then { w with phase := execution.next }
    else { w with phase := .executing execution }

/-- `complete_maintenance_review`. -/
def takeReview (plan : Option (TradePlan F)) (modelsUnchanged : Bool) : TradingLoop F :=
  let taken := { w with review := none }
  if !w.paused && w.pendingOverride.isNone && modelsUnchanged then
    match plan with
    | some plan => taken.startExecution plan true
    | none => taken
  else taken

def claimIntent (execution : PlanExecution F) : TradingLoop F :=
  match execution.order.intentKey with
  | none => { w with phase := execution.next }
  | some key =>
    match claimExecutionIntent w.trading key w.config.execution execution.order.overrideApplied w.now with
    | (trading, .error _) => { w with trading, phase := execution.next }
    | (trading, .ok ()) => { w with trading, phase := .claimed execution key }

def submit (execution : PlanExecution F) (key : String) : TradingLoop F :=
  { w with
    phase := .submitting execution key
    sent := w.sent ++ [{ execution, paused := w.paused }] }

variable [NumberText F]

/-- The order is accepted. Whatever override is pending is cleared. -/
def acknowledge (execution : PlanExecution F) (key : String) (result : OctobotOrderResult F) :
    TradingLoop F :=
  let cleared := w.removeOverride none
    (.orderAccepted (execution.plan.decision.overrideApplied.map PostedOverride.number))
  { cleared with
    trading := (w.trading.releaseExecutionIntent key).recordTrade
      (execution.order.executedTrade w.now result)
    phase := execution.next }

/-- An event that does not fit the phase does nothing, and the clock does not run backwards. -/
def step (w : TradingLoop F) : LoopEvent F → TradingLoop F
  | .tick later => if w.now ≤ later then { w with now := later } else w
  | .pause => { w with paused := true }
  | .resume => { w with paused := false }
  | .postOverride request => w.postOverride request
  | .overrideMaxOpenPositions value => { w with maxOpenPositionsOverride := value }
  | .portfolio openPositions => { w with openPositions }
  | .importTrades trades =>
    { w with trading := { w.trading with ledger := (w.trading.ledger.importTradeHistory trades).1 } }
  | .beginCycle =>
    match w.phase with
    | .idle => if w.paused then w else { w with phase := .evaluating }
    | _ => w
  | .decide input =>
    match w.phase with
    | .evaluating => w.evaluate input
    | _ => w
  | .abandonCycle =>
    match w.phase with
    | .evaluating => { w with phase := .evaluated }
    | _ => w
  | .execute =>
    match w.phase with
    | .decided plan => w.startExecution plan false
    | _ => w
  | .endCycle review =>
    match w.phase with
    | .evaluated => { w with phase := .idle, review := w.review.or (review.map .starting) }
    | _ => w
  | .checkReview =>
    match w.review with
    | some (.starting kind) =>
      { w with review := some (if w.pendingOverride.isSome then .planned none else .planning kind) }
    | _ => w
  | .decideReview input holdingUsd =>
    match w.review with
    | some (.planning kind) => w.planReview kind input holdingUsd
    | _ => w
  | .abandonReview =>
    match w.review with
    | some _ => { w with review := some (.planned none) }
    | none => w
  | .completeReview modelsUnchanged =>
    match w.phase, w.review with
    | .idle, some (.planned plan) => w.takeReview plan modelsUnchanged
    | _, _ => w
  | .gates exchange amountUsd referencePrice =>
    match w.phase with
    | .executing execution =>
      { w with phase := .cleared { execution with
          order := { execution.order with exchange, amountUsd, referencePrice } } }
    | _ => w
  | .refuse =>
    match w.phase with
    | .executing execution => { w with phase := execution.next }
    | _ => w
  | .claim =>
    match w.phase with
    | .cleared execution => w.claimIntent execution
    | _ => w
  | .activation ready =>
    match w.phase with
    | .claimed execution key =>
      if ready then w.submit execution key
      else
        { w with trading := w.trading.releaseExecutionIntent key, phase := execution.next }
    | _ => w
  | .reply result =>
    match w.phase with
    | .submitting execution key =>
      match result with
      | some result => w.acknowledge execution key result
      | none => { w with phase := execution.next }
    | _ => w

end TradingLoop

end Definitions

section Stages
variable {F : Type}

@[simp] theorem PlanExecution.next_execution (execution : PlanExecution F) :
    execution.next.execution = none := by
  unfold next
  split <;> rfl

@[simp] theorem PlanExecution.next_checked (execution : PlanExecution F) :
    execution.next.checked = false := by
  unfold next
  split <;> rfl

theorem PlanExecution.next_ne_decided (execution : PlanExecution F) (plan : TradePlan F) :
    execution.next ≠ .decided plan := by
  unfold next
  split <;> exact fun h => nomatch h

namespace TradingLoop
variable (w : TradingLoop F)

/-- A plan that the owner is about to execute: its own decision, or that of a finished review. A review
is not taken up while the bridge is paused or an override is pending. -/
inductive Chosen (w : TradingLoop F) (plan : TradePlan F) :
    LoopEvent F → Bool → Option (MaintenanceReview F) → Prop
  | main (hphase : w.phase = .decided plan) : Chosen w plan .execute false w.review
  | review (hphase : w.phase = .idle) (hreview : w.review = some (.planned (some plan)))
      (hpaused : w.paused = false) (hpending : w.pendingOverride = none) :
      Chosen w plan (.completeReview true) true none

/-- An execution begins, or the decision is passed over, or it only cancels the pending override. -/
theorem startExecution_cases (plan : TradePlan F) (fromReview : Bool) :
    let execution := w.executionOf plan fromReview
    w.startExecution plan fromReview = { w with phase := .executing execution } ∨
      w.startExecution plan fromReview = { w with phase := execution.next } ∨
      w.startExecution plan fromReview =
        { w.removeOverride none .cancelled with phase := execution.next } := by
  intro execution
  unfold startExecution
  dsimp only
  split
  · exact Or.inr (Or.inl rfl)
  · exact Or.inr (Or.inr rfl)
  · split
    · exact Or.inr (Or.inl rfl)
    · exact Or.inl rfl

/-- A finished review is dropped, or its plan is executed. -/
theorem takeReview_cases (plan : Option (TradePlan F)) (modelsUnchanged : Bool) :
    w.takeReview plan modelsUnchanged = { w with review := none } ∨
      ∃ chosen, plan = some chosen ∧ w.paused = false ∧ w.pendingOverride = none ∧
        modelsUnchanged = true ∧ w.takeReview plan modelsUnchanged =
          ({ w with review := none } : TradingLoop F).startExecution chosen true := by
  unfold takeReview
  dsimp only
  split
  · next hp =>
    simp only [Bool.and_eq_true, Bool.not_eq_true', Option.isNone_iff_eq_none] at hp
    cases plan with
    | none => exact Or.inl rfl
    | some chosen => exact Or.inr ⟨chosen, rfl, hp.1.1, hp.1.2, hp.2, rfl⟩
  · exact Or.inl rfl

end TradingLoop

end Stages

section Steps
variable {F : Type} [Scalar F]

/-- The intent is claimed, or the execution ends. -/
theorem TradingLoop.claimIntent_cases (w : TradingLoop F) (execution : PlanExecution F) :
    (∃ trading, trading.ledger = w.trading.ledger ∧
        w.claimIntent execution = { w with trading, phase := execution.next }) ∨
      ∃ key trading, trading.ledger = w.trading.ledger ∧ execution.order.intentKey = some key ∧
        (claimExecutionIntent w.trading key w.config.execution execution.order.overrideApplied w.now).2 =
          .ok () ∧
        w.claimIntent execution = { w with trading, phase := .claimed execution key } := by
  unfold claimIntent
  cases hk : execution.order.intentKey with
  | none => exact Or.inl ⟨w.trading, rfl, rfl⟩
  | some key =>
    have hledger : (claimExecutionIntent w.trading key w.config.execution
        execution.order.overrideApplied w.now).1.ledger = w.trading.ledger := by
      unfold claimExecutionIntent
      dsimp only
      split
      · rfl
      · split <;> rfl
    dsimp only
    split
    · next trading _ hc =>
      rw [hc] at hledger
      exact Or.inl ⟨trading, hledger, rfl⟩
    · next trading hc =>
      rw [hc] at hledger
      exact Or.inr ⟨key, trading, hledger, rfl, by rw [hc], rfl⟩

variable [NumberText F]

@[simp] theorem TradeLedger.importTradeHistory_lastTradeAt (ledger : TradeLedger F)
    (trades : List (ExecutedTrade F)) :
    (ledger.importTradeHistory trades).1.lastTradeAt = ledger.lastTradeAt := by
  unfold importTradeHistory
  dsimp only
  split <;> rfl

namespace TradingLoop

/-- All that a step can do. -/
inductive Transition (w : TradingLoop F) : LoopEvent F → TradingLoop F → Prop
  | stay (event) : Transition w event w
  | tick (later) (h : w.now ≤ later) : Transition w (.tick later) { w with now := later }
  | pause : Transition w .pause { w with paused := true }
  | resume : Transition w .resume { w with paused := false }
  | post (request) : Transition w (.postOverride request) (w.postOverride request)
  | limit (value) :
      Transition w (.overrideMaxOpenPositions value) { w with maxOpenPositionsOverride := value }
  | hold (openPositions) : Transition w (.portfolio openPositions) { w with openPositions }
  | importTrades (trades) :
      Transition w (.importTrades trades)
        { w with trading := { w.trading with ledger := (w.trading.ledger.importTradeHistory trades).1 } }
  | begin (hphase : w.phase = .idle) (hpaused : w.paused = false) :
      Transition w .beginCycle { w with phase := .evaluating }
  | decide (input) (hphase : w.phase = .evaluating) (decision)
      (hdecision : decision = ((input.decide w.pendingOverride w.limits w.config).withhold
        input.withheld).fillTarget input.market)
      (hside : decision.action.side.isSome) :
      Transition w (.decide input) { w with phase := .decided { decision, decidedAt := w.limits } }
  | holdBack (event) (hphase : w.phase = .evaluating) : Transition w event { w with phase := .evaluated }
  | endCycle (kind) (hphase : w.phase = .evaluated) :
      Transition w (.endCycle kind)
        { w with phase := .idle, review := w.review.or (kind.map .starting) }
  | plan (input) (holdingUsd) (kind) (hreview : w.review = some (.planning kind)) (decision)
      (hdecision : decision = (input.decide w.pendingOverride w.limits w.config).withhold input.withheld)
      (hside : decision.action.side = some kind.side) :
      Transition w (.decideReview input holdingUsd)
        { w with review := some (.planned (some
          { decision := { decision with amountUsd := kind.planAmount decision.amountUsd holdingUsd }
            decidedAt := w.limits })) }
  | review (event) (review : Option (MaintenanceReview F))
      (h : ∀ plan, review ≠ some (.planned (some plan))) : Transition w event { w with review }
  | execute (event) (plan) (fromReview) (review) (hchosen : w.Chosen plan event fromReview review) :
      Transition w event { w with review, phase := .executing (w.executionOf plan fromReview) }
  | passOver (event) (plan) (fromReview) (review) (hchosen : w.Chosen plan event fromReview review) :
      Transition w event { w with review, phase := (w.executionOf plan fromReview).next }
  | cancel (event) (plan) (fromReview) (review) (hchosen : w.Chosen plan event fromReview review) :
      Transition w event
        { w.removeOverride none .cancelled with
          review, phase := (w.executionOf plan fromReview).next }
  | gates (execution) (exchange amountUsd referencePrice) (hphase : w.phase = .executing execution) :
      Transition w (.gates exchange amountUsd referencePrice)
        { w with phase := .cleared { execution with
          order := { execution.order with exchange, amountUsd, referencePrice } } }
  | finish (event) (execution) (trading) (hphase : w.phase.execution = some execution)
      (hledger : trading.ledger = w.trading.ledger) :
      Transition w event { w with trading, phase := execution.next }
  | claim (execution) (key) (trading) (hphase : w.phase = .cleared execution)
      (hledger : trading.ledger = w.trading.ledger) (hkey : execution.order.intentKey = some key)
      (hclaim : (claimExecutionIntent w.trading key w.config.execution execution.order.overrideApplied
        w.now).2 = .ok ()) :
      Transition w .claim { w with trading, phase := .claimed execution key }
  | submit (execution) (key) (hphase : w.phase = .claimed execution key) :
      Transition w (.activation true) (w.submit execution key)
  | accept (execution) (key) (result) (hphase : w.phase = .submitting execution key) :
      Transition w (.reply (some result)) (w.acknowledge execution key result)

variable (w : TradingLoop F)

theorem evaluate_transition (input : DecisionInput F) (h : w.phase = .evaluating) :
    w.Transition (.decide input) (w.evaluate input) := by
  unfold evaluate
  dsimp only
  split
  · next hside => exact .decide input h _ rfl hside
  · exact .holdBack _ h

theorem planReview_transition (kind : MaintenanceKind) (input : DecisionInput F)
    (holdingUsd : Option F) (h : w.review = some (.planning kind)) :
    w.Transition (.decideReview input holdingUsd) (w.planReview kind input holdingUsd) := by
  unfold planReview
  dsimp only
  split
  · next hside => exact .plan input holdingUsd kind h _ rfl hside
  · exact .review _ _ fun plan hp => nomatch hp

theorem startExecution_transition {event : LoopEvent F} {plan : TradePlan F} {fromReview : Bool}
    {review : Option (MaintenanceReview F)} (h : w.Chosen plan event fromReview review) :
    w.Transition event (({ w with review } : TradingLoop F).startExecution plan fromReview) := by
  rcases startExecution_cases { w with review } plan fromReview with hs | hs | hs <;> rw [hs]
  · exact .execute event plan fromReview review h
  · exact .passOver event plan fromReview review h
  · exact .cancel event plan fromReview review h

theorem takeReview_transition (plan : Option (TradePlan F)) (modelsUnchanged : Bool)
    (hphase : w.phase = .idle) (hreview : w.review = some (.planned plan)) :
    w.Transition (.completeReview modelsUnchanged) (w.takeReview plan modelsUnchanged) := by
  rcases w.takeReview_cases plan modelsUnchanged with h | ⟨chosen, rfl, hpaused, hpending, rfl, h⟩ <;>
    rw [h]
  · exact .review _ _ fun plan hp => nomatch hp
  · exact w.startExecution_transition (.review hphase hreview hpaused hpending)

theorem claimIntent_transition (execution : PlanExecution F) (h : w.phase = .cleared execution) :
    w.Transition .claim (w.claimIntent execution) := by
  rcases w.claimIntent_cases execution with ⟨trading, hledger, hc⟩ | ⟨key, trading, hledger, hk, ho, hc⟩ <;>
    rw [hc]
  · exact .finish _ execution trading (by rw [h]; rfl) hledger
  · exact .claim execution key trading h hledger hk ho

theorem step_transition (event : LoopEvent F) : w.Transition event (w.step event) := by
  cases event with
  | tick later =>
    simp only [step]
    split
    · next h => exact .tick later h
    · exact .stay _
  | pause => exact .pause
  | resume => exact .resume
  | postOverride request => exact .post request
  | overrideMaxOpenPositions value => exact .limit value
  | portfolio openPositions => exact .hold openPositions
  | importTrades trades => exact .importTrades trades
  | beginCycle =>
    simp only [step]
    split
    · next hphase =>
      split
      · exact .stay _
      · next hp => exact .begin hphase (Bool.not_eq_true _ ▸ hp)
    · exact .stay _
  | decide input =>
    simp only [step]
    split
    · next hphase => exact w.evaluate_transition input hphase
    · exact .stay _
  | abandonCycle =>
    simp only [step]
    split
    · next hphase => exact .holdBack _ hphase
    · exact .stay _
  | execute =>
    simp only [step]
    split
    · next hphase => exact w.startExecution_transition (.main hphase)
    · exact .stay _
  | endCycle kind =>
    simp only [step]
    split
    · next hphase => exact .endCycle kind hphase
    · exact .stay _
  | checkReview =>
    simp only [step]
    split
    · apply Transition.review
      intro plan
      split <;> exact fun h => nomatch h
    · exact .stay _
  | decideReview input holdingUsd =>
    simp only [step]
    split
    · next kind hreview => exact w.planReview_transition kind input holdingUsd hreview
    · exact .stay _
  | abandonReview =>
    simp only [step]
    split
    · exact .review _ _ fun plan h => nomatch h
    · exact .stay _
  | completeReview modelsUnchanged =>
    simp only [step]
    split
    · next plan hphase hreview => exact w.takeReview_transition plan modelsUnchanged hphase hreview
    · exact .stay _
  | gates exchange amountUsd referencePrice =>
    simp only [step]
    split
    · next execution hphase => exact .gates execution exchange amountUsd referencePrice hphase
    · exact .stay _
  | refuse =>
    simp only [step]
    split
    · next execution hphase => exact .finish _ execution w.trading (by rw [hphase]; rfl) rfl
    · exact .stay _
  | claim =>
    simp only [step]
    split
    · next execution hphase => exact w.claimIntent_transition execution hphase
    · exact .stay _
  | activation ready =>
    simp only [step]
    split
    · next execution key hphase =>
      cases ready with
      | true => exact .submit execution key hphase
      | false => exact .finish _ execution _ (by rw [hphase]; rfl) rfl
    · exact .stay _
  | reply result =>
    simp only [step]
    split
    · next execution key hphase =>
      cases result with
      | some result => exact .accept execution key result hphase
      | none => exact .finish _ execution w.trading (by rw [hphase]; rfl) rfl
    · exact .stay _

end TradingLoop

end Steps

end Gail.Trading
