import Gail.Library.RingCursor
import Gail.Library.Text

/-! The rolling sample of the market: which symbols one call of `get_all_market_snapshots` requests, and
where the next one goes on. -/
namespace Gail.Trading
open Gail.Library

structure OctobotExchange where
  name : String
  /-- `normalize_exchange_name` of the name. -/
  key : Option String
  enabled : Bool
  marketStatusSymbols : List String
  symbols : List String

/-- What does not change from call to call. The exchanges are the values of a map by their keys. -/
structure ScanUniverse where
  exchanges : List OctobotExchange
  targetExchanges : List String
  targetCurrencies : List String
  circuitOpen : String → Bool
  /-- The symbol of the exchange is cooling down or blacklisted. -/
  skipped : String → String → Bool
  distinct : (exchanges.filterMap OctobotExchange.key).Nodup

/-- An exchange that is scanned, with the ring of its symbols. -/
structure ScannedExchange where
  name : String
  key : String
  marketStatusSymbols : List String
  symbols : List String
  nonempty : symbols ≠ []
  deriving DecidableEq

structure ScanState where
  /-- `market_snapshot_available_symbols`. -/
  available : List String
  symbolScanOffsets : String → Option Nat

structure MarketTarget where
  exchangeName : String
  exchangeKey : String
  symbol : String
  deriving DecidableEq

structure ExchangeTargetState where
  exchange : ScannedExchange
  symbols : List String
  baseOffset : Nat
  consumed : Nat

/-- How a request ends. Unavailable symbols are left out. -/
inductive MarketReply where
  | snapshot
  | failed
  /-- The task of the request ends in a panic. -/
  | panicked
  deriving DecidableEq

/-- A call with the replies to its requests and the order that they come in. -/
structure ScanCall where
  limit : Nat
  reply : MarketTarget → MarketReply
  choose : Nat → Nat

/-- The requests of a call; those with a snapshot are `answered`. -/
structure RequestLog where
  inFlight : List MarketTarget
  pending : List MarketTarget
  requested : List MarketTarget
  answered : List MarketTarget

def octobotMarketSnapshotHardLimit : Nat := 20

def marketSnapshotCandidateMultiplier : Nat := 1

def marketSnapshotUnknownProbeLimit : Nat := 8

def maxParallelMarketSnapshotRequests : Nat := 8

def marketSnapshotSymbolKey (exchangeKey symbol : String) : String :=
  toAsciiLowercase exchangeKey ++ "|" ++ toAsciiUppercase symbol

/-- `dedupe_symbols_preserving_order`, with the symbols seen so far. -/
def dedupeSymbols : List String → List String → List String
  | _, [] => []
  | seen, symbol :: symbols =>
    if toAsciiUppercase symbol ∈ seen then dedupeSymbols seen symbols
    else symbol :: dedupeSymbols (toAsciiUppercase symbol :: seen) symbols

/-- All known symbols, and so many of the others. -/
def probeSymbols (known : String → Bool) : Nat → List String → List String
  | _, [] => []
  | probes, symbol :: symbols =>
    if known symbol then symbol :: probeSymbols known probes symbols
    else
      match probes with
      | 0 => probeSymbols known 0 symbols
      | probes + 1 => symbol :: probeSymbols known probes symbols

namespace ScanUniverse

def eligibleSymbols (markets : ScanUniverse) (key : String) (symbols : List String) : List String :=
  dedupeSymbols [] (symbols.filter fun symbol =>
    (markets.targetCurrencies.isEmpty ||
        markets.targetCurrencies.any fun candidate => eqIgnoreAsciiCase candidate symbol) &&
      !markets.skipped key symbol)

def scannedExchange (markets : ScanUniverse) (exchange : OctobotExchange) : Option ScannedExchange :=
  if !exchange.enabled then none
  else if !markets.targetExchanges.isEmpty &&
      !(markets.targetExchanges.any fun candidate => eqIgnoreAsciiCase candidate exchange.name) then none
  else
    match exchange.key with
    | none => none
    | some key =>
      if markets.circuitOpen key then none
      else
        if h : markets.eligibleSymbols key exchange.symbols = [] then none
        else
          some
            { name := exchange.name, key, marketStatusSymbols := exchange.marketStatusSymbols
              symbols := markets.eligibleSymbols key exchange.symbols, nonempty := h }

def scanned (markets : ScanUniverse) : List ScannedExchange :=
  markets.exchanges.filterMap markets.scannedExchange

end ScanUniverse

namespace ScanState

/-- Listed by the trading page, or answered before. -/
def known (state : ScanState) (exchange : ScannedExchange) (symbol : String) : Bool :=
  (exchange.marketStatusSymbols.map toAsciiUppercase).contains (toAsciiUppercase symbol) ||
    state.available.contains (marketSnapshotSymbolKey exchange.key symbol)

def baseOffset (state : ScanState) (exchange : ScannedExchange) : Nat :=
  (state.symbolScanOffsets exchange.key).getD 0 % exchange.symbols.length

/-- The symbols in the order of the ring, from the offset on. -/
def ring (state : ScanState) (exchange : ScannedExchange) : List String :=
  exchange.symbols.rotate (state.baseOffset exchange)

def selected (state : ScanState) (exchange : ScannedExchange) : List String :=
  probeSymbols (state.known exchange) marketSnapshotUnknownProbeLimit (state.ring exchange)

end ScanState

namespace ScannedExchange

def targetState (exchange : ScannedExchange) (state : ScanState) : Option ExchangeTargetState :=
  if (state.selected exchange).isEmpty then none
  else
    some
      { exchange, symbols := state.selected exchange, baseOffset := state.baseOffset exchange
        consumed := 0 }

def target (exchange : ScannedExchange) (symbol : String) : MarketTarget :=
  { exchangeName := exchange.name, exchangeKey := exchange.key, symbol }

end ScannedExchange

/-- One round over the exchanges, and whether it has found a target. -/
def offerRound (candidateLimit : Nat) : List ExchangeTargetState → List MarketTarget →
    List ExchangeTargetState × List MarketTarget × Bool
  | [], targets => ([], targets, false)
  | state :: states, targets =>
    match state.symbols[state.consumed]? with
    | some symbol =>
      if targets.length < candidateLimit then
        let (states, targets, _) :=
          offerRound candidateLimit states (targets ++ [state.exchange.target symbol])
        ({ state with consumed := state.consumed + 1 } :: states, targets, true)
      else
        let (states, targets, progressed) := offerRound candidateLimit states targets
        (state :: states, targets, progressed)
    | none =>
      let (states, targets, progressed) := offerRound candidateLimit states targets
      (state :: states, targets, progressed)

/-- The rounds; each of them that goes on adds a target. -/
def gatherTargets (candidateLimit : Nat) : Nat → List ExchangeTargetState → List MarketTarget →
    List MarketTarget
  | 0, _, targets => targets
  | rounds + 1, states, targets =>
    if targets.length < candidateLimit then
      match offerRound candidateLimit states targets with
      | (states, targets, true) => gatherTargets candidateLimit rounds states targets
      | (_, targets, false) => targets
    else targets

namespace RequestLog

def spawnNext (log : RequestLog) : RequestLog :=
  match log.pending with
  | [] => log
  | target :: pending =>
    { log with inFlight := log.inFlight ++ [target], pending, requested := log.requested ++ [target] }

def start (targets : List MarketTarget) : RequestLog :=
  spawnNext^[maxParallelMarketSnapshotRequests]
    { inFlight := [], pending := targets, requested := [], answered := [] }

/-- Replies come in until nothing is in flight, or the limit is reached. -/
def drain (limit : Nat) (reply : MarketTarget → MarketReply) (choose : Nat → Nat) :
    Nat → RequestLog → RequestLog
  | 0, log => log
  | rounds + 1, log =>
    let index := choose rounds % log.inFlight.length
    match log.inFlight[index]? with
    | none => log
    | some target =>
      let rest := { log with inFlight := log.inFlight.eraseIdx index }
      match reply target with
      | .snapshot =>
        let found := { rest with answered := rest.answered ++ [target] }
        if limit ≤ found.answered.length then found
        else drain limit reply choose rounds found.spawnNext
      | .failed | .panicked => drain limit reply choose rounds rest.spawnNext

end RequestLog

namespace ScanCall

def cappedLimit (call : ScanCall) : Nat := min (max call.limit 1) octobotMarketSnapshotHardLimit

def candidateLimit (call : ScanCall) : Nat :=
  max (call.cappedLimit * marketSnapshotCandidateMultiplier) call.cappedLimit

end ScanCall

/-- The requests for an exchange. -/
def requestedOf (requested : List MarketTarget) (key : String) : Nat :=
  requested.countP fun target => target.exchangeKey == key

def advanceOffsets (states : List ExchangeTargetState) (requested : List MarketTarget)
    (offsets : String → Option Nat) : String → Option Nat :=
  states.foldl (fun offsets state =>
    let span := state.exchange.symbols.length
    let count := min (requestedOf requested state.exchange.key) span
    Function.update offsets state.exchange.key (some ((state.baseOffset + count) % span))) offsets

namespace ScanUniverse
variable (markets : ScanUniverse) (state : ScanState) (call : ScanCall)

def targetStates : List ExchangeTargetState :=
  markets.scanned.filterMap fun exchange => exchange.targetState state

def targets : List MarketTarget :=
  gatherTargets call.candidateLimit call.candidateLimit (markets.targetStates state) []

def requests : RequestLog :=
  RequestLog.drain call.cappedLimit call.reply call.choose (markets.targets state call).length
    (RequestLog.start (markets.targets state call))

/-- A call of `get_all_market_snapshots`. -/
def getAllMarketSnapshots : ScanState × List MarketTarget :=
  if (markets.targets state call).isEmpty then (state, [])
  else
    let log := markets.requests state call
    ({ available := state.available ++ log.answered.map fun target =>
         marketSnapshotSymbolKey target.exchangeKey target.symbol
       symbolScanOffsets :=
         advanceOffsets (markets.targetStates state) log.requested state.symbolScanOffsets },
      log.requested)

def step (state : ScanState) (call : ScanCall) : ScanState :=
  (markets.getAllMarketSnapshots state call).1

end ScanUniverse

end Gail.Trading
