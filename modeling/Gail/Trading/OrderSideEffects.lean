import Gail.Library.FirstPerKey
import Gail.Library.Text
import Gail.Trading.Scalar

/-! What a submission leaves to be seen: the open orders and trades that OctoBot lists after it, set
against those it listed before. -/
namespace Gail.Trading
open Gail.Library

/-- `normalize_order_side` knows these two. -/
inductive OrderSide where
  | buy
  | sell
  deriving DecidableEq

def OrderSide.name : OrderSide → String
  | .buy => "buy"
  | .sell => "sell"

def normalizeOrderSide (raw : String) : Option OrderSide :=
  let lowered := toAsciiLowercase raw
  if containsText lowered "buy" then some .buy
  else if containsText lowered "sell" then some .sell
  else none

def sideMatches (candidate expected : String) : Bool :=
  normalizeOrderSide candidate == normalizeOrderSide expected

structure OctobotOrder (F : Type) where
  id : String
  exchange : String
  symbol : String
  side : String
  amount : F
  price : Option F
  status : String
  timestamp : Option F

structure OctobotTrade (F : Type) where
  id : Option String
  exchange : String
  symbol : String
  side : String
  amount : F
  price : F
  timestamp : Option F

structure OrderPlacementBaseline (F : Type) where
  capturedAt : F
  openOrderIds : List String
  openOrdersCaptured : Bool
  tradeIds : List String
  latestTradeTs : Option F
  tradesCaptured : Bool

/-- The id of an accepted order; a fill without one gets `filled-` and its time. -/
inductive OrderId (F : Type) where
  | given (id : String)
  | filled (ts : F)
  deriving DecidableEq

structure OctobotOrderResult (F : Type) where
  orderId : OrderId F
  symbol : String
  side : String
  amount : F
  price : Option F
  status : String

/-- An open order or a trade that a poll lists. -/
inductive PolledEntry (F : Type) where
  | order (order : OctobotOrder F)
  | trade (trade : OctobotTrade F)

namespace PolledEntry
variable {F : Type}

def exchange : PolledEntry F → String
  | .order listed => listed.exchange
  | .trade listed => listed.exchange

def symbol : PolledEntry F → String
  | .order listed => listed.symbol
  | .trade listed => listed.symbol

def side : PolledEntry F → String
  | .order listed => listed.side
  | .trade listed => listed.side

end PolledEntry

/-- What the two reads of a poll find, or nothing for a read that fails. -/
structure OrderPoll (F : Type) where
  openOrders : Option (List (OctobotOrder F))
  trades : Option (List (OctobotTrade F))
  now : F

/-- The submission that is waited for. -/
structure OrderWatch (F : Type) where
  symbol : String
  side : String
  amountUsd : F
  baseline : OrderPlacementBaseline F
  requestStartedAt : F

section Definitions
variable {F : Type} [Scalar F]

/-- The id of a trade, where a blank one counts as none. -/
def OctobotTrade.tradeId (trade : OctobotTrade F) : Option String :=
  trade.id.filter fun id => !(trim id).isEmpty

/-- `get_trade_history`. -/
def tradeHistory (limit : Nat) (trades : List (OctobotTrade F)) : List (OctobotTrade F) :=
  trades.take limit

/-- `reduce(f64::max)` of the times. -/
def latestTimestamp (trades : List (OctobotTrade F)) : Option F :=
  match trades.filterMap (·.timestamp) with
  | [] => none
  | ts :: rest => some (rest.foldl Scalar.max ts)

/-- The baseline of the two reads before a submission. -/
def captureOrderBaseline (capturedAt : F) (orders : Option (List (OctobotOrder F)))
    (trades : Option (List (OctobotTrade F))) : OrderPlacementBaseline F :=
  let history := trades.map (tradeHistory 50)
  { capturedAt
    openOrderIds := (orders.getD []).map (·.id)
    openOrdersCaptured := orders.isSome
    tradeIds := (history.getD []).filterMap OctobotTrade.tradeId
    latestTradeTs := history.bind latestTimestamp
    tradesCaptured := history.isSome }

/-- Not more than a second before the capture or the request. -/
def recent (timestamp : Option F) (baseline : OrderPlacementBaseline F) (requestStartedAt : F) : Bool :=
  timestamp.any fun ts =>
    decide (baseline.capturedAt ≤ ts + 1.0) || decide (requestStartedAt ≤ ts + 1.0)

def isNewOpenOrder (order : OctobotOrder F) (baseline : OrderPlacementBaseline F)
    (requestStartedAt : F) : Bool :=
  if baseline.openOrdersCaptured then !baseline.openOrderIds.contains order.id
  else recent order.timestamp baseline requestStartedAt

def isNewTrade (trade : OctobotTrade F) (baseline : OrderPlacementBaseline F) (requestStartedAt : F) :
    Bool :=
  match trade.tradeId with
  | some id => if baseline.tradesCaptured then !baseline.tradeIds.contains id else true
  | none =>
    if baseline.tradesCaptured then
      match trade.timestamp, baseline.latestTradeTs with
      | some ts, some lastTs => decide (lastTs + 0.001 < ts)
      | some _, none => true
      | none, _ => false
    else recent trade.timestamp baseline requestStartedAt

namespace OrderWatch
variable (watch : OrderWatch F)

/-- The entry has the symbol and the side of the submission. -/
def matchesEntry (entry : PolledEntry F) : Bool :=
  eqIgnoreAsciiCase entry.symbol watch.symbol && sideMatches entry.side watch.side

def isNew : PolledEntry F → Bool
  | .order order => isNewOpenOrder order watch.baseline watch.requestStartedAt
  | .trade trade => isNewTrade trade watch.baseline watch.requestStartedAt

def accepts (entry : PolledEntry F) : Bool := watch.matchesEntry entry && watch.isNew entry

/-- `value` unless it is empty. -/
def orDefault (value fallback : String) : String := if value.isEmpty then fallback else value

/-- The order that is reported for an entry. -/
def result (now : F) : PolledEntry F → OctobotOrderResult F
  | .order order =>
    { orderId := .given order.id
      symbol := orDefault order.symbol watch.symbol
      side := orDefault order.side watch.side
      amount := if 0.0 < order.amount then order.amount else watch.amountUsd
      price := order.price
      status := orDefault order.status "submitted" }
  | .trade trade =>
    { orderId := (trade.id.map OrderId.given).getD (.filled (trade.timestamp.getD now))
      symbol := orDefault trade.symbol watch.symbol
      side := orDefault trade.side watch.side
      amount := if 0.0 < trade.amount then trade.amount else watch.amountUsd
      price := some trade.price
      status := "filled" }

end OrderWatch

/-- What a poll lists, open orders first; `get_trade_history(30)` cuts the trades. -/
def OrderPoll.entries (poll : OrderPoll F) : List (PolledEntry F) :=
  (poll.openOrders.getD []).map .order ++ (tradeHistory 30 (poll.trades.getD [])).map .trade

/-- `MAX_ORDER_POLL_ATTEMPTS`. -/
def maxOrderPollAttempts : Nat := 4

/-- The entry that is taken for the submission, and the order that is reported for it. -/
def waitForOrderSideEffects (watch : OrderWatch F) (polls : Nat → OrderPoll F) :
    Option (PolledEntry F × OctobotOrderResult F) :=
  ((List.range maxOrderPollAttempts).map polls).findSome? fun poll =>
    (poll.entries.find? watch.accepts).map fun entry => (entry, watch.result poll.now entry)

end Definitions

section Attribution
variable {F : Type} [Scalar F]

/-- The reads before a submission, which make its baseline. -/
structure BaselineReads (F : Type) where
  capturedAt : F
  orders : Option (List (OctobotOrder F))
  trades : Option (List (OctobotTrade F))

def BaselineReads.baseline (reads : BaselineReads F) : OrderPlacementBaseline F :=
  captureOrderBaseline reads.capturedAt reads.orders reads.trades

/-- The ways in which an entry passes for new. -/
inductive PassesForNew (reads : BaselineReads F) (requestStartedAt : F) : PolledEntry F → Prop where
  /-- The open orders were read, and the order was not among them. -/
  | unlistedOrder {order read} (hread : reads.orders = some read)
      (h : order.id ∉ read.map (·.id)) : PassesForNew reads requestStartedAt (.order order)
  | recentOrder {order} (hread : reads.orders = none)
      (h : recent order.timestamp reads.baseline requestStartedAt = true) :
      PassesForNew reads requestStartedAt (.order order)
  /-- The trades were read, and the trade was not among the first fifty. -/
  | unlistedTrade {trade read id} (hread : reads.trades = some read) (hid : trade.tradeId = some id)
      (h : id ∉ (tradeHistory 50 read).filterMap OctobotTrade.tradeId) :
      PassesForNew reads requestStartedAt (.trade trade)
  /-- The trades were not read, and any trade with an id passes, however old. -/
  | anyTrade {trade id} (hread : reads.trades = none) (hid : trade.tradeId = some id) :
      PassesForNew reads requestStartedAt (.trade trade)
  | laterTrade {trade read ts} (hread : reads.trades = some read) (hid : trade.tradeId = none)
      (hts : trade.timestamp = some ts)
      (h : ∀ lastTs ∈ latestTimestamp (tradeHistory 50 read), lastTs + 0.001 < ts) :
      PassesForNew reads requestStartedAt (.trade trade)
  | recentTrade {trade} (hread : reads.trades = none) (hid : trade.tradeId = none)
      (h : recent trade.timestamp reads.baseline requestStartedAt = true) :
      PassesForNew reads requestStartedAt (.trade trade)

theorem isNewOpenOrder_iff {reads : BaselineReads F} {requestStartedAt : F} {order : OctobotOrder F} :
    isNewOpenOrder order reads.baseline requestStartedAt = true ↔
      PassesForNew reads requestStartedAt (.order order) := by
  unfold isNewOpenOrder
  cases hr : reads.orders with
  | none =>
    have hcaptured : reads.baseline.openOrdersCaptured = false := by
      simp [BaselineReads.baseline, captureOrderBaseline, hr]
    rw [hcaptured, if_neg Bool.false_ne_true]
    constructor
    · exact .recentOrder hr
    · intro h
      cases h with
      | unlistedOrder hread => rw [hr] at hread; cases hread
      | recentOrder _ h => exact h
  | some read =>
    have hcaptured : reads.baseline.openOrdersCaptured = true := by
      simp [BaselineReads.baseline, captureOrderBaseline, hr]
    have hids : reads.baseline.openOrderIds = read.map (·.id) := by
      simp [BaselineReads.baseline, captureOrderBaseline, hr]
    rw [hcaptured, if_pos rfl, hids, Bool.not_eq_true', List.contains_eq_mem, decide_eq_false_iff_not]
    constructor
    · exact .unlistedOrder hr
    · intro h
      cases h with
      | unlistedOrder hread h =>
        cases hr.symm.trans hread
        exact h
      | recentOrder hread => rw [hr] at hread; cases hread

theorem isNewTrade_iff {reads : BaselineReads F} {requestStartedAt : F} {trade : OctobotTrade F} :
    isNewTrade trade reads.baseline requestStartedAt = true ↔
      PassesForNew reads requestStartedAt (.trade trade) := by
  unfold isNewTrade
  cases hr : reads.trades with
  | none =>
    have hcaptured : reads.baseline.tradesCaptured = false := by
      simp [BaselineReads.baseline, captureOrderBaseline, hr]
    rw [hcaptured]
    cases hid : trade.tradeId with
    | some id => exact ⟨fun _ => .anyTrade hr hid, fun _ => rfl⟩
    | none =>
      dsimp only
      rw [if_neg Bool.false_ne_true]
      constructor
      · exact .recentTrade hr hid
      · intro h
        cases h with
        | recentTrade _ _ h => exact h
        | unlistedTrade hread | laterTrade hread => rw [hr] at hread; cases hread
        | anyTrade _ hid' => rw [hid] at hid'; cases hid'
  | some read =>
    have hcaptured : reads.baseline.tradesCaptured = true := by
      simp [BaselineReads.baseline, captureOrderBaseline, hr]
    have hids : reads.baseline.tradeIds = (tradeHistory 50 read).filterMap OctobotTrade.tradeId := by
      simp [BaselineReads.baseline, captureOrderBaseline, hr]
    have hlatest : reads.baseline.latestTradeTs = latestTimestamp (tradeHistory 50 read) := by
      simp [BaselineReads.baseline, captureOrderBaseline, hr]
    rw [hcaptured]
    cases hid : trade.tradeId with
    | some id =>
      dsimp only
      rw [if_pos rfl, hids, Bool.not_eq_true', List.contains_eq_mem, decide_eq_false_iff_not]
      constructor
      · exact .unlistedTrade hr hid
      · intro h
        cases h with
        | unlistedTrade hread hid' h =>
          cases hr.symm.trans hread
          cases hid.symm.trans hid'
          exact h
        | anyTrade hread | recentTrade hread => rw [hr] at hread; cases hread
        | laterTrade _ hid' => rw [hid] at hid'; cases hid'
    | none =>
      dsimp only
      rw [if_pos rfl, hlatest]
      have hlater : PassesForNew reads requestStartedAt (.trade trade) ↔
          ∃ ts, trade.timestamp = some ts ∧
            ∀ lastTs ∈ latestTimestamp (tradeHistory 50 read), lastTs + 0.001 < ts := by
        constructor
        · intro h
          cases h with
          | laterTrade hread _ hts h =>
            cases hr.symm.trans hread
            exact ⟨_, hts, h⟩
          | anyTrade hread | recentTrade hread => rw [hr] at hread; cases hread
          | unlistedTrade _ hid' => rw [hid] at hid'; cases hid'
        · rintro ⟨ts, hts, h⟩
          exact .laterTrade hr hid hts h
      rw [hlater]
      cases trade.timestamp <;> cases latestTimestamp (tradeHistory 50 read) <;> simp

/-- A submission, with what was read before it. -/
structure OrderSubmission (F : Type) where
  exchange : String
  symbol : String
  side : String
  amountUsd : F
  reads : BaselineReads F
  requestStartedAt : F

namespace OrderSubmission
variable (submission : OrderSubmission F) (existed : PolledEntry F → Prop)

def watch : OrderWatch F :=
  { symbol := submission.symbol
    side := submission.side
    amountUsd := submission.amountUsd
    baseline := submission.reads.baseline
    requestStartedAt := submission.requestStartedAt }

/-- All that the polls list, in the order in which it is looked at. -/
def listed (polls : Nat → OrderPoll F) : List (PolledEntry F) :=
  ((List.range maxOrderPollAttempts).map polls).flatMap OrderPoll.entries

/-- The entry is on the exchange of the submission and was not there before it. -/
def Genuine (entry : PolledEntry F) : Prop :=
  eqIgnoreAsciiCase entry.exchange submission.exchange = true ∧ ¬ existed entry

/-- An order is only reported for an entry of the exchange, the symbol and the side of the submission
that was not there before it. -/
def Attributes (polls : Nat → OrderPoll F) : Prop :=
  ∀ entry result, waitForOrderSideEffects submission.watch polls = some (entry, result) →
    submission.Genuine existed entry ∧ eqIgnoreAsciiCase entry.symbol submission.symbol = true ∧
      sideMatches entry.side submission.side = true

/-- The entry has the symbol and the side of the submission and passes for new. -/
def TakenFor (entry : PolledEntry F) : Prop :=
  (eqIgnoreAsciiCase entry.symbol submission.symbol = true ∧
    sideMatches entry.side submission.side = true) ∧
  PassesForNew submission.reads submission.requestStartedAt entry

variable {submission existed}

theorem accepts_iff {entry : PolledEntry F} :
    submission.watch.accepts entry = true ↔ submission.TakenFor entry := by
  have hnew : submission.watch.isNew entry = true ↔
      PassesForNew submission.reads submission.requestStartedAt entry := by
    cases entry with
    | order listed => exact isNewOpenOrder_iff
    | trade listed => exact isNewTrade_iff
  unfold OrderWatch.accepts OrderWatch.matchesEntry TakenFor
  rw [Bool.and_eq_true, Bool.and_eq_true, hnew]
  rfl

/-- What is reported is the first entry that is accepted. -/
theorem waitForOrderSideEffects_entry (polls : Nat → OrderPoll F) :
    (waitForOrderSideEffects submission.watch polls).map Prod.fst =
      (listed polls).find? submission.watch.accepts := by
  unfold waitForOrderSideEffects listed
  rw [← findSome?_find?, List.map_findSome?]
  congr 1
  funext poll
  simp [Function.comp_def]

/-- The report is right exactly when, before any entry that is taken for the order of the submission
though it is on another exchange or was there before, the polls list a genuine one. -/
theorem attributes_iff (submission : OrderSubmission F) (existed : PolledEntry F → Prop)
    (polls : Nat → OrderPoll F) :
    submission.Attributes existed polls ↔
      ∀ early misleading later, listed polls = early ++ misleading :: later →
        submission.TakenFor misleading → ¬ submission.Genuine existed misleading →
          ∃ genuine ∈ early, submission.TakenFor genuine ∧ submission.Genuine existed genuine := by
  have hreport : submission.Attributes existed polls ↔
      ∀ entry, (listed polls).find? submission.watch.accepts = some entry →
        submission.Genuine existed entry := by
    rw [← waitForOrderSideEffects_entry]
    constructor
    · intro h entry he
      obtain ⟨⟨_, result⟩, hr, rfl⟩ := Option.map_eq_some_iff.mp he
      exact (h _ result hr).1
    · intro h entry result hr
      have hfound : (waitForOrderSideEffects submission.watch polls).map Prod.fst = some entry := by
        rw [hr]
        rfl
      refine ⟨h entry hfound, ?_⟩
      rw [waitForOrderSideEffects_entry] at hfound
      exact (accepts_iff.mp (List.find?_some hfound)).1
  rw [hreport, find?_good_iff]
  simp only [accepts_iff]

end OrderSubmission

section Sample

/-- A buy of another exchange, done long before. -/
def oldTrade : OctobotTrade ℚ :=
  { id := some "t-1", exchange := "kraken", symbol := "BTC/USDT", side := "buy", amount := 1
    price := 100, timestamp := some 1000 }

/-- The open orders could be read before the submission, the trades could not. -/
def blindSubmission : OrderSubmission ℚ :=
  { exchange := "binance", symbol := "BTC/USDT", side := "buy", amountUsd := 10
    reads := { capturedAt := 90000, orders := some [], trades := none }
    requestStartedAt := 90000 }

def oldTradePoll : OrderPoll ℚ := { openOrders := some [], trades := some [oldTrade], now := 90001 }

/-- The old trade is reported as the fill of the submission. -/
theorem oldTrade_misattributed :
    ¬ blindSubmission.Attributes (· = .trade oldTrade) fun _ => oldTradePoll := by
  intro h
  have hfound : (waitForOrderSideEffects blindSubmission.watch fun _ => oldTradePoll) =
      some (.trade oldTrade, blindSubmission.watch.result 90001 (.trade oldTrade)) := by
    rfl
  exact (h _ _ hfound).1.2 rfl

end Sample

end Attribution

end Gail.Trading
