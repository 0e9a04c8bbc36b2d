import Gail.Trading.OrderSideEffects

/-! The trades on record: the history of all of them, and the recent ones that are looked at before the
next order. -/
namespace Gail.Trading
open Gail.Library

inductive TradeAction where
  | buy
  | sell
  | hold
  | strongBuy
  | strongSell
  | cancel
  deriving DecidableEq

namespace TradeAction

def name : TradeAction → String
  | buy => "buy"
  | sell => "sell"
  | hold => "hold"
  | strongBuy => "strong_buy"
  | strongSell => "strong_sell"
  | cancel => "cancel"

/-- `trade_action_side`. -/
def side : TradeAction → Option OrderSide
  | buy | strongBuy => some .buy
  | sell | strongSell => some .sell
  | hold | cancel => none

end TradeAction

inductive TradeRecordSource where
  | gail
  | octobotImported
  deriving DecidableEq

structure ExecutedTrade (F : Type) where
  ts : F
  exchange : String
  symbol : String
  action : TradeAction
  amountUsd : F
  price : Option F
  orderId : Option String
  source : TradeRecordSource

/-- The formats of a number in a text. -/
class NumberText (F : Type) where
  /-- `{:.n}`. -/
  fixed : Nat → F → String

instance : NumberText ℚ where
  fixed digits value :=
    let scaled := ((if value < 0 then -value else value) * 10 ^ digits + 1 / 2).floor.toNat
    let fraction := toString (scaled % 10 ^ digits)
    (if value < 0 then "-" else "") ++ toString (scaled / 10 ^ digits) ++
      if digits = 0 then ""
      else "." ++ String.ofList (List.replicate (digits - fraction.length) '0') ++ fraction

section Identity
variable {F : Type} [Scalar F] [NumberText F]

def OrderId.text : OrderId F → String
  | given id => id
  | filled ts => "filled-" ++ NumberText.fixed 3 ts

/-- By its order id, where it has one that is not blank. -/
def tradeIdentity (trade : ExecutedTrade F) : String :=
  match trade.orderId.filter fun id => !(trim id).isEmpty with
  | some orderId => "order:" ++ toAsciiLowercase trade.exchange ++ ":" ++ orderId
  | none =>
    "fallback:" ++ NumberText.fixed 3 trade.ts ++ "|" ++ toAsciiLowercase trade.exchange ++ "|" ++
      toAsciiUppercase trade.symbol ++ "|" ++ trade.action.name ++ "|" ++
      NumberText.fixed 8 trade.amountUsd ++ "|" ++ NumberText.fixed 8 (trade.price.getD 0.0)

end Identity

/-- `BUY|symbol`, or `SELL|exchange|symbol`: a buy is the same order on every exchange. -/
def executionIntentKey (side : OrderSide) (exchange symbol : String) : Option String :=
  let symbol := toAsciiUppercase (trim symbol)
  if symbol.isEmpty then none
  else
    match side with
    | .buy => some ("BUY|" ++ symbol)
    | .sell =>
      let exchange := toAsciiUppercase (trim exchange)
      if exchange.isEmpty then none else some ("SELL|" ++ exchange ++ "|" ++ symbol)

def ExecutedTrade.intentKey {F : Type} (trade : ExecutedTrade F) : Option String :=
  trade.action.side.bind fun side => executionIntentKey side trade.exchange trade.symbol

/-- The trades of a trading state. -/
structure TradeLedger (F : Type) where
  lastTradeAt : Option F
  tradeCount : Nat
  recentTrades : List (ExecutedTrade F)
  tradeHistory : List (ExecutedTrade F)
  tradeRingSize : Nat

namespace TradeLedger
variable {F : Type} [Scalar F] [NumberText F]

def empty (tradeRingSize : Nat) : TradeLedger F :=
  { lastTradeAt := none, tradeCount := 0, recentTrades := [], tradeHistory := [], tradeRingSize }

/-- A trade that is known already only takes the place of one that was imported. -/
def appendTradeHistory (ledger : TradeLedger F) (trade : ExecutedTrade F) : TradeLedger F :=
  match ledger.tradeHistory.findIdx? fun existing => tradeIdentity existing == tradeIdentity trade with
  | some index =>
    let imported := ledger.tradeHistory[index]?.any fun existing => existing.source = .octobotImported
    if imported && decide (trade.source = .gail) then
      { ledger with tradeHistory := ledger.tradeHistory.set index trade }
    else ledger
  | none => { ledger with tradeHistory := ledger.tradeHistory ++ [trade] }

def appendRecentTrade (ledger : TradeLedger F) (trade : ExecutedTrade F) : TradeLedger F :=
  let kept :=
    if ledger.tradeRingSize ≤ ledger.recentTrades.length then ledger.recentTrades.tail
    else ledger.recentTrades
  { ledger with recentTrades := kept ++ [trade] }

def recordTrade (ledger : TradeLedger F) (trade : ExecutedTrade F) : TradeLedger F :=
  let counted := { ledger with lastTradeAt := some trade.ts, tradeCount := ledger.tradeCount + 1 }
  (counted.appendTradeHistory trade).appendRecentTrade trade

def rebuildRecentTrades (ledger : TradeLedger F) : TradeLedger F :=
  { ledger with
    recentTrades := (ledger.tradeHistory.reverse.take ledger.tradeRingSize).reverse }

/-- The trades whose identity is neither in `seen` nor that of an earlier one. -/
def unseenTrades : List String → List (ExecutedTrade F) → List (ExecutedTrade F)
  | _, [] => []
  | seen, trade :: trades =>
    if tradeIdentity trade ∈ seen then unseenTrades seen trades
    else trade :: unseenTrades (tradeIdentity trade :: seen) trades

/-- The history is sorted by time when a trade is added to it. -/
def importTradeHistory (ledger : TradeLedger F) (trades : List (ExecutedTrade F)) : TradeLedger F × Nat :=
  let unseen := unseenTrades (ledger.tradeHistory.map tradeIdentity) trades
  if unseen.isEmpty then (ledger, 0)
  else
    let ordered := (ledger.tradeHistory ++ unseen).mergeSort fun left right => decide (left.ts ≤ right.ts)
    ({ ledger with tradeHistory := ordered }.rebuildRecentTrades, unseen.length)

/-- The trades of a ledger that is read from a file. -/
def restore (restored : TradeLedger F) (tradeRingSize : Nat) : TradeLedger F :=
  rebuildRecentTrades
    { lastTradeAt := restored.lastTradeAt
      tradeCount := restored.tradeCount
      recentTrades := restored.recentTrades
      tradeHistory :=
        if restored.tradeHistory.isEmpty then restored.recentTrades else restored.tradeHistory
      tradeRingSize }

/-- The most recent trade of a key. -/
def previousTrade (ledger : TradeLedger F) (key : String) : Option (ExecutedTrade F) :=
  ledger.recentTrades.reverse.find? fun trade => trade.intentKey == some key

theorem recordTrade_recentTrades (ledger : TradeLedger F) (trade : ExecutedTrade F) :
    ∃ kept, (ledger.recordTrade trade).recentTrades = kept ++ [trade] := ⟨_, rfl⟩

/-- A trade that has just been recorded is the most recent one of its key. -/
theorem recordTrade_previousTrade {ledger : TradeLedger F} {trade : ExecutedTrade F} {key : String}
    (h : trade.intentKey = some key) :
    (ledger.recordTrade trade).previousTrade key = some trade := by
  obtain ⟨kept, hkept⟩ := recordTrade_recentTrades ledger trade
  unfold previousTrade
  rw [hkept, List.reverse_append, List.reverse_singleton, List.singleton_append, List.find?_cons, h,
    beq_self_eq_true]

end TradeLedger

end Gail.Trading
