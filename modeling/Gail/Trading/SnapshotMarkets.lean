import Gail.Library.JsonCodec
import Gail.Trading.TradeHistory

/-! What the file of the trading state holds of the markets: balances, orders, exchanges and what was
learnt of their interfaces, with all members, and how each type is written and read. -/
namespace Gail.Trading

instance {F : Type} [Scalar F] : Gail.Library.JsonNumber F where
  isFinite := Scalar.isFinite
  ofInteger
    | .ofNat n => Scalar.ofCount n
    | .negSucc n => -Scalar.ofCount (n + 1)

namespace Snapshot
open Gail.Library Codec Members
variable {F : Type} [Scalar F]

def float : Codec F F := number 0.0

def texts : Codec F (List String) := list text

def optionalText : Codec F (Option String) := option text nofun

def optionalNatural : Codec F (Option Nat) := option natural nofun

def tradeAction : Codec F TradeAction :=
  choice [.buy, .sell, .hold, .strongBuy, .strongSell, .cancel] TradeAction.name .hold
    fun action => by cases action <;> rfl

structure CurrencyBalance (F : Type) where
  free : F
  locked : F
  total : F
  valueUsd : Option F

def currencyBalance : Codec F (CurrencyBalance F) :=
  record .fromMember
    (member "free" (·.free) float <|
      member "locked" (·.locked) float <|
      member "total" (·.total) float <|
      member "value_usd" (·.valueUsd) optionalNumber done)
    (fun (free, locked, total, valueUsd, _) => { free, locked, total, valueUsd })
    (fun _ => rfl) (fun _ => rfl) (by decide +kernel)

structure OctobotPortfolio (F : Type) where
  currencies : List (String × CurrencyBalance F)
  totalValueUsd : Option F
  exchangeCurrencies : List (String × List (String × CurrencyBalance F))

def octobotPortfolio : Codec F (OctobotPortfolio F) :=
  record .fromMember
    (member "currencies" (·.currencies) (textTable currencyBalance) <|
      member "total_value_usd" (·.totalValueUsd) optionalNumber <|
      defaulted "exchange_currencies" (·.exchangeCurrencies) (textTable (textTable currencyBalance)) done)
    (fun (currencies, totalValueUsd, exchangeCurrencies, _) =>
      { currencies, totalValueUsd, exchangeCurrencies })
    (fun _ => rfl) (fun _ => rfl) (by decide +kernel)

structure OctobotOrder (F : Type) where
  id : String
  exchange : String
  symbol : String
  side : String
  orderType : String
  amount : F
  price : Option F
  status : String
  timestamp : Option F

def octobotOrder : Codec F (OctobotOrder F) :=
  record .fromMember
    (member "id" (·.id) text <|
      member "exchange" (·.exchange) text <|
      member "symbol" (·.symbol) text <|
      member "side" (·.side) text <|
      member "order_type" (·.orderType) text <|
      member "amount" (·.amount) float <|
      member "price" (·.price) optionalNumber <|
      member "status" (·.status) text <|
      member "timestamp" (·.timestamp) optionalNumber done)
    (fun (id, exchange, symbol, side, orderType, amount, price, status, timestamp, _) =>
      { id, exchange, symbol, side, orderType, amount, price, status, timestamp })
    (fun _ => rfl) (fun _ => rfl) (by decide +kernel)

structure OctobotExchange where
  name : String
  enabled : Bool
  marketStatusSymbols : List String
  symbols : List String

def octobotExchange : Codec F OctobotExchange :=
  record .fromMember
    (member "name" (·.name) text <|
      member "enabled" (·.enabled) bool <|
      defaulted "market_status_symbols" (·.marketStatusSymbols) texts <|
      member "symbols" (·.symbols) texts done)
    (fun (name, enabled, marketStatusSymbols, symbols, _) =>
      { name, enabled, marketStatusSymbols, symbols })
    (fun _ => rfl) (fun _ => rfl) (by decide +kernel)

structure ExchangeCircuitState (F : Type) where
  consecutiveFailures : Nat
  openedUntil : Option F
  lastSuccessAt : Option F
  lastError : Option String

def exchangeCircuitState : Codec F (ExchangeCircuitState F) :=
  record .fromTypes
    (member "consecutive_failures" (·.consecutiveFailures) natural <|
      member "opened_until" (·.openedUntil) optionalNumber <|
      member "last_success_at" (·.lastSuccessAt) optionalNumber <|
      member "last_error" (·.lastError) optionalText done)
    (fun (consecutiveFailures, openedUntil, lastSuccessAt, lastError, _) =>
      { consecutiveFailures, openedUntil, lastSuccessAt, lastError })
    (fun _ => rfl) (fun _ => rfl) (by decide +kernel)

structure AdaptiveEndpointSchema (F : Type) where
  method : String
  pathTemplate : String
  label : String
  successCount : Nat
  failureCount : Nat
  lastObservedAt : Option F
  lastSuccessAt : Option F
  lastFailureAt : Option F
  lastStatus : Option Nat
  lastError : Option String
  responseKind : Option String
  responseKeys : List String
  degraded : Bool
  skipUntil : Option F

def adaptiveEndpointSchema : Codec F (AdaptiveEndpointSchema F) :=
  record .fromTypes
    (member "method" (·.method) text <|
      member "path_template" (·.pathTemplate) text <|
      member "label" (·.label) text <|
      member "success_count" (·.successCount) natural <|
      member "failure_count" (·.failureCount) natural <|
      member "last_observed_at" (·.lastObservedAt) optionalNumber <|
      member "last_success_at" (·.lastSuccessAt) optionalNumber <|
      member "last_failure_at" (·.lastFailureAt) optionalNumber <|
      member "last_status" (·.lastStatus) optionalNatural <|
      member "last_error" (·.lastError) optionalText <|
      member "response_kind" (·.responseKind) optionalText <|
      member "response_keys" (·.responseKeys) texts <|
      member "degraded" (·.degraded) bool <|
      member "skip_until" (·.skipUntil) optionalNumber done)
    (fun (method, pathTemplate, label, successCount, failureCount, lastObservedAt, lastSuccessAt,
        lastFailureAt, lastStatus, lastError, responseKind, responseKeys, degraded, skipUntil, _) =>
      { method, pathTemplate, label, successCount, failureCount, lastObservedAt, lastSuccessAt,
        lastFailureAt, lastStatus, lastError, responseKind, responseKeys, degraded, skipUntil })
    (fun _ => rfl) (fun _ => rfl) (by decide +kernel)

structure AdaptiveSemanticHint (F : Type) where
  key : String
  summary : String
  evidence : String
  count : Nat
  firstSeenAt : Option F
  lastSeenAt : Option F

def adaptiveSemanticHint : Codec F (AdaptiveSemanticHint F) :=
  record .fromTypes
    (member "key" (·.key) text <|
      member "summary" (·.summary) text <|
      member "evidence" (·.evidence) text <|
      member "count" (·.count) natural <|
      member "first_seen_at" (·.firstSeenAt) optionalNumber <|
      member "last_seen_at" (·.lastSeenAt) optionalNumber done)
    (fun (key, summary, evidence, count, firstSeenAt, lastSeenAt, _) =>
      { key, summary, evidence, count, firstSeenAt, lastSeenAt })
    (fun _ => rfl) (fun _ => rfl) (by decide +kernel)

structure ApiAdjustment (F : Type) where
  ts : F
  api : Option String
  kind : String
  summary : String
  evidence : String

def apiAdjustment : Codec F (ApiAdjustment F) :=
  record .fromMember
    (member "ts" (·.ts) float <|
      member "api" (·.api) optionalText <|
      member "kind" (·.kind) text <|
      member "summary" (·.summary) text <|
      member "evidence" (·.evidence) text done)
    (fun (ts, api, kind, summary, evidence, _) => { ts, api, kind, summary, evidence })
    (fun _ => rfl) (fun _ => rfl) (by decide +kernel)

structure AdaptiveApiSchema (F : Type) where
  version : Nat
  updatedAt : Option F
  endpoints : List (String × AdaptiveEndpointSchema F)
  semanticHints : List (String × AdaptiveSemanticHint F)
  numericHints : List (String × F)
  recentAdjustments : List (ApiAdjustment F)

def adaptiveApiSchema : Codec F (AdaptiveApiSchema F) :=
  record .fromTypes
    (member "version" (·.version) natural <|
      member "updated_at" (·.updatedAt) optionalNumber <|
      member "endpoints" (·.endpoints) (textTable adaptiveEndpointSchema) <|
      member "semantic_hints" (·.semanticHints) (textTable adaptiveSemanticHint) <|
      member "numeric_hints" (·.numericHints) (textTable float) <|
      member "recent_adjustments" (·.recentAdjustments) (list apiAdjustment) done)
    (fun (version, updatedAt, endpoints, semanticHints, numericHints, recentAdjustments, _) =>
      { version, updatedAt, endpoints, semanticHints, numericHints, recentAdjustments })
    (fun _ => rfl) (fun _ => rfl) (by decide +kernel)

end Snapshot

end Gail.Trading
