import Gail.Library.Outcome
import Gail.Trading.Decision

/-! The way of a decision to its order: on which exchange it is placed, with how much, and what has been checked
of that. -/
namespace Gail.Trading.Routing
open Gail.Library Gail.Trading.Decision Gail.Trading.Snapshot

/-- The asset at a place of a symbol such as `BTC/USDT`. -/
def symbolAsset (place : Nat) (symbol : String) : Option String :=
  ((symbol.toList.splitOn '/')[place]?.map fun part => trim (String.ofList part)).filter fun asset => !asset.isEmpty

def symbolBaseAsset (symbol : String) : Option String := symbolAsset 0 symbol

def symbolQuoteAsset (symbol : String) : Option String := symbolAsset 1 symbol

def isStablecoin (asset : String) : Bool :=
  ["usdt", "usdc", "busd", "dai", "usd", "eur"].any (containsText (toAsciiLowercase asset))

section Balances
variable {F : Type}

/-- The balances of an exchange. -/
def exchangeBalances (portfolio : OctobotPortfolio F) (exchange : String) :
    Option (List (String × CurrencyBalance F)) :=
  (portfolio.exchangeCurrencies.find? fun entry => eqIgnoreAsciiCase entry.1 exchange).map Prod.snd

def assetBalance (balances : List (String × CurrencyBalance F)) (asset : String) : Option (CurrencyBalance F) :=
  (balances.find? fun entry => eqIgnoreAsciiCase entry.1 asset).map Prod.snd

/-- What a portfolio reports of an asset on an exchange. -/
def reportedBalance (portfolio : OctobotPortfolio F) (exchange asset : String) : Option (CurrencyBalance F) :=
  (exchangeBalances portfolio exchange).bind (assetBalance · asset)

/-- What a portfolio reports of an asset on all exchanges together. -/
def totalBalance (portfolio : OctobotPortfolio F) (asset : String) : Option (CurrencyBalance F) :=
  (portfolio.currencies.find? fun entry => entry.1 == asset).map Prod.snd

inductive SellBalanceAvailability (F : Type) where
  | available (free total : F) (valueUsd : Option F)
  | missing
  | nonPositive (free total : F)

structure ExchangeAssetBalanceCandidate (F : Type) where
  exchange : String
  free : F
  total : F
  valueUsd : Option F

variable [Scalar F]

/-- The share of the value that is free, or what the price makes of it. -/
def sellableValueUsd (free total : F) (valueUsd fallbackPrice : Option F) : Option F :=
  if !Scalar.isFinite free || free ≤ 0.0 then some 0.0
  else
    match valueUsd.filter fun value => Scalar.isFinite value && 0.0 < value with
    | some value =>
      let ratio := if Scalar.isFinite total && 0.0 < total then clamp (free / total) 0.0 1.0 else 1.0
      some (value * ratio)
    | none => (fallbackPrice.filter fun price => Scalar.isFinite price && 0.0 < price).map (free * ·)

def portfolioBalanceState (portfolio : OctobotPortfolio F) (baseAsset : String) : SellBalanceAvailability F :=
  match totalBalance portfolio baseAsset with
  | some balance =>
    if 0.0 < balance.free then .available balance.free balance.total balance.valueUsd
    else .nonPositive balance.free balance.total
  | none => .missing

def portfolioBalanceStateForExchange (portfolio : OctobotPortfolio F) (exchange baseAsset : String) :
    SellBalanceAvailability F :=
  match reportedBalance portfolio exchange baseAsset with
  | some balance =>
    if Scalar.isFinite balance.free && 0.0 < balance.free then
      .available balance.free balance.total balance.valueUsd
    else .nonPositive balance.free balance.total
  | none => .missing

/-- The quote balance of an exchange, at its value. -/
def quoteValueUsd (portfolio : OctobotPortfolio F) (exchange symbol : String) : Option F :=
  (symbolQuoteAsset symbol).bind fun quoteAsset =>
    (reportedBalance portfolio exchange quoteAsset).bind fun balance =>
      if isStablecoin quoteAsset then some (Scalar.max balance.free 0.0)
      else (sellableValueUsd balance.free balance.total balance.valueUsd none).map (Scalar.max · 0.0)

end Balances

section Caps
variable {F : Type} [AmountScalar F]

def buyBalanceUsdSafetyFactor : F := 0.95
def sellBalanceUsdSafetyFactor : F := 0.99

/-- A safe share of a balance, in whole cents. -/
def safeShareUsd (balanceUsd factor : F) : F := AmountScalar.floor (balanceUsd * factor * 100.0) / 100.0

def maxBuyAmountUsdForExchange (portfolio : OctobotPortfolio F) (exchange symbol : String) : Option F :=
  (quoteValueUsd portfolio exchange symbol).bind fun buyableUsd =>
    if Scalar.isFinite buyableUsd then some (safeShareUsd buyableUsd buyBalanceUsdSafetyFactor) else none

/-- A price is asked for where the balance has no value. -/
def sellEstimateUsd (price : Option F) (free total : F) (valueUsd : Option F) : Option F :=
  (sellableValueUsd free total valueUsd none).or
    (price.bind fun price => sellableValueUsd free total valueUsd (some price))

def maxSellAmountUsdFromBalance (price : Option F) (free total : F) (valueUsd : Option F) : Option F :=
  (sellEstimateUsd price free total valueUsd).bind fun sellableUsd =>
    if !Scalar.isFinite sellableUsd || sellableUsd ≤ 0.0 then none
    else
      let capped := safeShareUsd sellableUsd sellBalanceUsdSafetyFactor
      if 0.0 < capped then some capped else none

/-- An amount above a cap becomes the cap. -/
def capAmount (amountUsd cap : F) : F := if cap + Scalar.epsilon < amountUsd then cap else amountUsd

end Caps

section Venues
variable {F : Type} [Scalar F]

def exchangeSupportsSymbol (availableExchanges : List Snapshot.OctobotExchange) (exchange symbol : String) : Bool :=
  if availableExchanges.isEmpty then true
  else
    match availableExchanges.find? fun entry => eqIgnoreAsciiCase entry.name exchange with
    -- The discovery may be stale, so that it names no exchange that the portfolio has.
    | none => true
    | some entry => entry.symbols.isEmpty || entry.symbols.any (eqIgnoreAsciiCase · symbol)

/-- The known value of a balance covers an order nearly. -/
def valueIsSufficient (candidate : ExchangeAssetBalanceCandidate F) (amountUsd : F) : Bool :=
  match candidate.valueUsd.filter fun value => Scalar.isFinite value && 0.0 ≤ value with
  | some value => amountUsd * 0.98 ≤ value + Scalar.epsilon
  | none => 0.0 < candidate.free

def buyBalanceIsSufficient (candidate : ExchangeAssetBalanceCandidate F) (quoteAsset : String) (amountUsd : F) :
    Bool :=
  if !Scalar.isFinite amountUsd || amountUsd ≤ 0.0 then 0.0 < candidate.free
  else if isStablecoin quoteAsset then amountUsd * 0.98 ≤ candidate.free + Scalar.epsilon
  else valueIsSufficient candidate amountUsd

def sellBalanceIsSufficient (candidate : ExchangeAssetBalanceCandidate F) (amountUsd : F) : Bool :=
  if !Scalar.isFinite amountUsd || amountUsd ≤ 0.0 then 0.0 < candidate.free
  else valueIsSufficient candidate amountUsd

/-- `partial_cmp(..).unwrap_or(Equal)`. -/
def numberOrder (a b : F) : Ordering := if a < b then .lt else if b < a then .gt else .eq

/-- The largest balance comes first, and names decide between equal ones. -/
def candidateOrder (left right : ExchangeAssetBalanceCandidate F) : Ordering :=
  (numberOrder right.free left.free).then <|
    (numberOrder right.total left.total).then <|
      (numberOrder (right.valueUsd.getD 0.0) (left.valueUsd.getD 0.0)).then <| compare left.exchange right.exchange

/-- The other exchange that an order goes to, where there is a better one. -/
def selectExecutionExchangeFromPortfolio (requestedExchange symbol : String) (side : OrderSide) (amountUsd : F)
    (portfolio : OctobotPortfolio F) (availableExchanges : List Snapshot.OctobotExchange) : Option String :=
  if portfolio.exchangeCurrencies.isEmpty then none
  else
    let trackedAsset := match side with
      | .sell => symbolBaseAsset symbol
      | .buy => symbolQuoteAsset symbol
    trackedAsset.bind fun trackedAsset =>
      let candidates := (portfolio.exchangeCurrencies.filter fun entry =>
        exchangeSupportsSymbol availableExchanges entry.1 symbol).filterMap fun (exchange, balances) =>
          (assetBalance balances trackedAsset).bind fun balance =>
            if !Scalar.isFinite balance.free || balance.free ≤ 0.0 then none
            else some { exchange, free := balance.free, total := balance.total, valueUsd := balance.valueUsd }
      let sorted := candidates.insertionSort fun left right => candidateOrder left right ≠ .gt
      let requested := sorted.find? fun candidate => eqIgnoreAsciiCase candidate.exchange requestedExchange
      let sufficient := requested.any fun candidate =>
        match side with
        | .sell => sellBalanceIsSufficient candidate amountUsd
        | .buy => buyBalanceIsSufficient candidate trackedAsset amountUsd
      if sufficient then none
      else
        (sorted.head?.filter fun best => !eqIgnoreAsciiCase best.exchange requestedExchange).map
          ExchangeAssetBalanceCandidate.exchange

end Venues

/-- The settings that an execution reads on the way to its order. -/
structure RoutingConfig (F : Type) where
  microTradeMinUsd : F
  advisoryTtlSeconds : F
  marketSnapshotTtlSeconds : F
  maxRepriceDriftBps : F
  strictExchangeSelection : Bool
  liveExecutionEnabled : Bool
  liveExecutionAutoGateEnabled : Bool
  paperQualificationRequired : Bool
  backtestingEnabled : Bool

/-- The portfolio and the exchanges that the state holds when an order is routed. -/
structure RouteRead (F : Type) where
  portfolio : Option (OctobotPortfolio F)
  availableExchanges : List Snapshot.OctobotExchange

/-- The portfolio that the state holds, and the one that OctoBot returns after a refresh. -/
structure BalanceRead (F : Type) where
  cached : Option (OctobotPortfolio F)
  fetched : Option (OctobotPortfolio F)

/-- What an execution reads, at each place where it reads. -/
structure ExecutionReads (F : Type) where
  /-- `micro_trade_min_usd` of the overrides of the configuration. -/
  microTradeMinUsd : Option F
  now : F
  buyRoute : RouteRead F
  buyPortfolio : Option (OctobotPortfolio F)
  sellBalance : BalanceRead F
  sellRoute : RouteRead F
  routedBalance : BalanceRead F
  /-- `get_market_snapshot` while a balance without a value is estimated, and while the order is repriced. -/
  sellPrice : String → String → Option F
  snapshot : String → String → Option (MarketSnapshot F)
  repricedAt : F
  /-- The telemetry's estimate of the cost of a round trip. -/
  roundTripCostBps : MarketSnapshot F → OrderSide → F → F
  paperQualified : Bool
  profitabilityQualified : Bool
  /-- `claim_execution_intent`. -/
  claimed : String → Bool
  persisted : Bool
  /-- `ensure_trading_pair_active_for_order`. -/
  pairActive : String → String → Option Bool

/-- Why no order is placed. -/
inductive ExecutionSkip where
  | hold | cancel | noTarget
  | advisoryExpired | noMarketTimestamp | marketSnapshotExpired | netEdgeTooSmall
  | quoteBalanceUnavailable | quoteBalanceNonPositive
  | sellableValueTooSmall | baseBalanceNonPositive | baseBalanceMissing
  | belowMicroTradeFloor
  | repricingFailed | repricingSnapshotOld | noReferencePrice | priceDrift
  | noIntent | paperObservation | paperQualificationMissing | profitabilityMissing
  | duplicateIntent | leaseNotPersisted | activationFailed | activationPending
  deriving DecidableEq

section Execution
variable {F : Type} [AmountScalar F] (config : RoutingConfig F) (reads : ExecutionReads F)
  (decision : Decision.TradeDecision F)

/-- `maybe_reroute_execution_exchange`. -/
def RouteRead.reroute (read : RouteRead F) (side : OrderSide) : Option String :=
  read.portfolio.bind fun portfolio =>
    selectExecutionExchangeFromPortfolio decision.exchange decision.symbol side decision.amountUsd portfolio
      read.availableExchanges

/-- The cached portfolio stands in for one that cannot be fetched. -/
def BalanceRead.portfolio (read : BalanceRead F) : Option (OctobotPortfolio F) := read.fetched.or read.cached

/-- `ensure_sell_balance_available`. -/
def BalanceRead.availability (read : BalanceRead F) (exchange baseAsset : String) : SellBalanceAvailability F :=
  match read.portfolio with
  | some portfolio =>
    if config.strictExchangeSelection then portfolioBalanceStateForExchange portfolio exchange baseAsset
    else portfolioBalanceState portfolio baseAsset
  | none => .missing

/-- `effective_micro_trade_floor_usd`. -/
def effectiveMicroTradeFloorUsd : F := Scalar.max (reads.microTradeMinUsd.getD config.microTradeMinUsd) 0.01

def checkDecision : Except ExecutionSkip Unit :=
  if decision.exchange.isEmpty || decision.symbol.isEmpty then .error .noTarget
  else if decision.overrideApplied then .ok ()
  else if config.advisoryTtlSeconds < Scalar.max (reads.now - decision.createdAt) 0.0 then .error .advisoryExpired
  else
    match decision.marketFetchedAt with
    | none => .error .noMarketTimestamp
    | some marketFetchedAt =>
      if config.marketSnapshotTtlSeconds < Scalar.max (reads.now - marketFetchedAt) 0.0 then
        .error .marketSnapshotExpired
      else if !decision.economics.isWorthwhile then .error .netEdgeTooSmall
      else .ok ()

def routeBuy : Except ExecutionSkip (String × F) :=
  let exchange := (reads.buyRoute.reroute decision .buy).getD decision.exchange
  match reads.buyPortfolio.bind (maxBuyAmountUsdForExchange · exchange decision.symbol) with
  | none => .error .quoteBalanceUnavailable
  | some maxBuyAmountUsd =>
    if maxBuyAmountUsd ≤ 0.0 then .error .quoteBalanceNonPositive
    else .ok (exchange, capAmount decision.amountUsd maxBuyAmountUsd)

/-- The exchange of a sell, and the look at the balances that was taken for it. -/
def sellVenue : String × BalanceRead F :=
  match reads.sellRoute.reroute decision .sell with
  | some exchange => (exchange, reads.routedBalance)
  | none => (decision.exchange, reads.sellBalance)

def sellAmount (exchange : String) : SellBalanceAvailability F → Except ExecutionSkip F
  | .available free total valueUsd =>
    match maxSellAmountUsdFromBalance (reads.sellPrice exchange decision.symbol) free total valueUsd with
    | none => .ok decision.amountUsd
    | some maxSellAmountUsd =>
      if maxSellAmountUsd < 0.01 then .error .sellableValueTooSmall
      else .ok (capAmount decision.amountUsd maxSellAmountUsd)
  | .nonPositive _ _ => .error .baseBalanceNonPositive
  | .missing => .error .baseBalanceMissing

def routeSell : Except ExecutionSkip (String × F) :=
  match symbolBaseAsset decision.symbol with
  | none => .ok (decision.exchange, decision.amountUsd)
  | some baseAsset =>
    let (exchange, read) := sellVenue reads decision
    (sellAmount reads decision exchange (read.availability config exchange baseAsset)).map (exchange, ·)

def route : OrderSide → Except ExecutionSkip (String × F)
  | .buy => routeBuy reads decision
  | .sell => routeSell config reads decision

def checkFloor (amountUsd : F) : Except ExecutionSkip Unit :=
  if amountUsd + Scalar.epsilon < effectiveMicroTradeFloorUsd config reads then .error .belowMicroTradeFloor
  else .ok ()

/-- Without a usable price the drift is infinite. -/
def adverseRepriceDriftBps (side : OrderSide) (referencePrice currentPrice : F) : Option F :=
  if !Scalar.isFinite referencePrice || referencePrice ≤ 0.0 || !Scalar.isFinite currentPrice || currentPrice ≤ 0.0 then
    none
  else
    let changeBps := (currentPrice - referencePrice) / referencePrice * 10000.0
    match side with
    | .buy => some (Scalar.max changeBps 0.0)
    | .sell => some (Scalar.max (-changeBps) 0.0)

/-- A cost that has fallen does not count. -/
def repriceNetEdge (decisionNetEdgeBps decisionRoundTripCostBps freshRoundTripCostBps adverseDriftBps : F) : F :=
  decisionNetEdgeBps - Scalar.max adverseDriftBps 0.0 -
    Scalar.max (freshRoundTripCostBps - decisionRoundTripCostBps) 0.0

def reprice (side : OrderSide) (exchange : String) (amountUsd : F) : Except ExecutionSkip F :=
  match reads.snapshot exchange decision.symbol with
  | none => .error .repricingFailed
  | some snapshot =>
    if config.marketSnapshotTtlSeconds < Scalar.max (reads.repricedAt - snapshot.fetchedAt) 0.0 then
      .error .repricingSnapshotOld
    else
      match decision.referencePrice with
      | none => .error .noReferencePrice
      | some referencePrice =>
        match adverseRepriceDriftBps side referencePrice snapshot.price with
        -- No edge is left by an infinite drift.
        | none => .error .priceDrift
        | some adverseDriftBps =>
          let netEdgeBps := repriceNetEdge decision.economics.expectedNetEdgeBps
            decision.economics.estimatedRoundTripCostBps (reads.roundTripCostBps snapshot side amountUsd)
            adverseDriftBps
          if config.maxRepriceDriftBps < adverseDriftBps ∨
              netEdgeBps + Scalar.epsilon < decision.economics.requiredNetEdgeBps then .error .priceDrift
          else .ok snapshot.price

/-- An override is not repriced. -/
def executionReferencePrice (side : OrderSide) (exchange : String) (amountUsd : F) :
    Except ExecutionSkip (Option F) :=
  if decision.overrideApplied then .ok decision.referencePrice
  else (reprice config reads decision side exchange amountUsd).map some

def effectiveLiveExecution : Bool :=
  let autoLiveReady := config.liveExecutionAutoGateEnabled && reads.paperQualified && reads.profitabilityQualified
  (config.liveExecutionEnabled || autoLiveReady) && reads.paperQualified && reads.profitabilityQualified

/-- From the key of the intent to the activation of the pair. -/
def claimIntent (side : OrderSide) (exchange : String) : Except ExecutionSkip Unit :=
  match executionIntentKey side exchange decision.symbol with
  | none => .error .noIntent
  | some intentKey =>
    if effectiveLiveExecution config reads = false then .error .paperObservation
    else if (config.paperQualificationRequired && !reads.paperQualified) = true then
      .error .paperQualificationMissing
    else if (config.backtestingEnabled && !reads.profitabilityQualified) = true then .error .profitabilityMissing
    else if reads.claimed intentKey = false then .error .duplicateIntent
    else if reads.persisted = false then .error .leaseNotPersisted
    else
      match reads.pairActive exchange decision.symbol with
      | none => .error .activationFailed
      | some ready => if ready = false then .error .activationPending else .ok ()

/-- The order of a decision, where one is placed. -/
def executeIfWarranted : Except ExecutionSkip (ExecutionOrder F) :=
  match decision.action.side with
  | none => .error (if decision.action = .cancel then .cancel else .hold)
  | some side => do
    checkDecision config reads decision
    let (exchange, amountUsd) ← route config reads decision side
    checkFloor config reads amountUsd
    let referencePrice ← executionReferencePrice config reads decision side exchange amountUsd
    claimIntent config reads decision side exchange
    return {
      action := decision.action, exchange, symbol := decision.symbol, amountUsd, referencePrice
      overrideApplied := decision.overrideApplied }

end Execution

section Statement
variable {F : Type} [AmountScalar F] (config : RoutingConfig F) (reads : ExecutionReads F)
  (decision : Decision.TradeDecision F) (side : OrderSide)

/-- The cap of an order: that of a buy is the quote balance of its exchange, that of a sell the value of what was
found last, where there is one. -/
def Capped (order : ExecutionOrder F) : OrderSide → Prop
  | .buy => ∃ portfolio cap, reads.buyPortfolio = some portfolio ∧
      maxBuyAmountUsdForExchange portfolio order.exchange order.symbol = some cap ∧ ¬ cap ≤ 0.0 ∧
      order.amountUsd = capAmount decision.amountUsd cap
  | .sell => ∀ baseAsset, symbolBaseAsset order.symbol = some baseAsset →
      order.exchange = (sellVenue reads decision).1 ∧ ∃ free total valueUsd,
        (sellVenue reads decision).2.availability config order.exchange baseAsset = .available free total valueUsd ∧
          ∀ cap, maxSellAmountUsdFromBalance (reads.sellPrice order.exchange order.symbol) free total valueUsd =
              some cap →
            ¬ cap < 0.01 ∧ order.amountUsd = capAmount decision.amountUsd cap

/-- What has been checked of an order is what it is placed with. -/
structure Checked (order : ExecutionOrder F) : Prop where
  action : order.action = decision.action
  symbol : order.symbol = decision.symbol
  capped : Capped config reads decision order side
  aboveFloor : ¬ order.amountUsd + Scalar.epsilon < effectiveMicroTradeFloorUsd config reads
  repriced : ∃ snapshot referencePrice adverseDriftBps, reads.snapshot order.exchange order.symbol = some snapshot ∧
    decision.referencePrice = some referencePrice ∧
    adverseRepriceDriftBps side referencePrice snapshot.price = some adverseDriftBps ∧
    ¬ config.maxRepriceDriftBps < adverseDriftBps ∧
    ¬ repriceNetEdge decision.economics.expectedNetEdgeBps decision.economics.estimatedRoundTripCostBps
      (reads.roundTripCostBps snapshot side order.amountUsd) adverseDriftBps + Scalar.epsilon <
        decision.economics.requiredNetEdgeBps
  claimed : ∃ intentKey, executionIntentKey side order.exchange order.symbol = some intentKey ∧
    reads.claimed intentKey = true
  active : reads.pairActive order.exchange order.symbol = some true

/-- Of a buy, the quote balance that the exchange reports is enough. -/
def BuyCovered (order : ExecutionOrder F) : Prop :=
  ∃ portfolio available, reads.buyPortfolio = some portfolio ∧
    quoteValueUsd portfolio order.exchange order.symbol = some available ∧ order.amountUsd ≤ available

/-- The estimate of what can be sold of a balance. -/
def SellEstimate (order : ExecutionOrder F) (balance : CurrencyBalance F) (estimateUsd : F) : Prop :=
  sellEstimateUsd (reads.sellPrice order.exchange order.symbol) balance.free balance.total balance.valueUsd =
    some estimateUsd

/-- Of a sell, the base balance that the exchange reports is enough, where its value can be estimated. -/
def SellCovered (order : ExecutionOrder F) : Prop :=
  ∀ portfolio baseAsset balance estimateUsd, (sellVenue reads decision).2.portfolio = some portfolio →
    symbolBaseAsset order.symbol = some baseAsset →
    reportedBalance portfolio order.exchange baseAsset = some balance →
    SellEstimate reads order balance estimateUsd → order.amountUsd ≤ estimateUsd

/-- An order that its balance covers, of the least amount at least. -/
structure Covered (order : ExecutionOrder F) : Prop where
  buy : side = .buy → BuyCovered reads order
  sell : side = .sell → SellCovered reads decision order
  floor : effectiveMicroTradeFloorUsd config reads ≤ order.amountUsd

/-- The balance that a sell is held to: that of all exchanges, unless the selection is strict. -/
def heldBalance (portfolio : OctobotPortfolio F) (exchange asset : String) : Option (CurrencyBalance F) :=
  if config.strictExchangeSelection then reportedBalance portfolio exchange asset else totalBalance portfolio asset

/-- Of a sell, the balance that it is held to is enough, where a cent is left of its estimated value. -/
def SellHeld (order : ExecutionOrder F) : Prop :=
  ∀ portfolio baseAsset balance estimateUsd, (sellVenue reads decision).2.portfolio = some portfolio →
    symbolBaseAsset order.symbol = some baseAsset →
    heldBalance config portfolio order.exchange baseAsset = some balance →
    SellEstimate reads order balance estimateUsd → 0.01 ≤ estimateUsd * sellBalanceUsdSafetyFactor →
    order.amountUsd ≤ estimateUsd

structure Held (order : ExecutionOrder F) : Prop where
  buy : side = .buy → BuyCovered reads order
  sell : side = .sell → SellHeld config reads decision order
  floor : effectiveMicroTradeFloorUsd config reads ≤ order.amountUsd + Scalar.epsilon

end Statement

section Checks
variable {F : Type} {config : RoutingConfig F} {reads : ExecutionReads F} {decision : Decision.TradeDecision F}
  {exchange : String}

theorem of_claimIntent {side : OrderSide} (h : claimIntent config reads decision side exchange = .ok ()) :
    (∃ intentKey, executionIntentKey side exchange decision.symbol = some intentKey ∧
      reads.claimed intentKey = true) ∧ reads.pairActive exchange decision.symbol = some true := by
  unfold claimIntent at h
  cases hkey : executionIntentKey side exchange decision.symbol with
  | none =>
    rw [hkey] at h
    cases h
  | some intentKey =>
    rw [hkey] at h
    obtain ⟨-, h⟩ := ok_of_ite h
    obtain ⟨-, h⟩ := ok_of_ite h
    obtain ⟨-, h⟩ := ok_of_ite h
    obtain ⟨hclaimed, h⟩ := ok_of_ite h
    obtain ⟨-, h⟩ := ok_of_ite h
    refine ⟨⟨intentKey, rfl, by simpa using hclaimed⟩, ?_⟩
    cases hactive : reads.pairActive exchange decision.symbol with
    | none =>
      rw [hactive] at h
      cases h
    | some ready =>
      rw [hactive] at h
      obtain ⟨hready, -⟩ := ok_of_ite h
      rw [Bool.not_eq_false] at hready
      rw [hready]

variable [AmountScalar F] {amountUsd : F}

theorem of_routeBuy (h : routeBuy reads decision = .ok (exchange, amountUsd)) :
    ∃ portfolio cap, reads.buyPortfolio = some portfolio ∧
      maxBuyAmountUsdForExchange portfolio exchange decision.symbol = some cap ∧ ¬ cap ≤ 0.0 ∧
      amountUsd = capAmount decision.amountUsd cap := by
  unfold routeBuy at h
  dsimp only at h
  split at h
  · cases h
  · next cap hcap =>
    obtain ⟨hpositive, h⟩ := ok_of_ite h
    obtain ⟨rfl, rfl⟩ := Prod.mk.inj (Except.ok.inj h)
    obtain ⟨portfolio, hportfolio, hcap⟩ := Option.bind_eq_some_iff.mp hcap
    exact ⟨portfolio, cap, hportfolio, hcap, hpositive, rfl⟩

theorem of_sellAmount {availability : SellBalanceAvailability F}
    (h : sellAmount reads decision exchange availability = .ok amountUsd) :
    ∃ free total valueUsd, availability = .available free total valueUsd ∧
      ∀ cap, maxSellAmountUsdFromBalance (reads.sellPrice exchange decision.symbol) free total valueUsd = some cap →
        ¬ cap < 0.01 ∧ amountUsd = capAmount decision.amountUsd cap := by
  cases availability with
  | missing => cases h
  | nonPositive free total => cases h
  | available free total valueUsd =>
    refine ⟨free, total, valueUsd, rfl, fun cap hcap => ?_⟩
    rw [sellAmount, hcap] at h
    obtain ⟨hcent, h⟩ := ok_of_ite h
    exact ⟨hcent, (Except.ok.inj h).symm⟩

theorem of_routeSell (h : routeSell config reads decision = .ok (exchange, amountUsd)) {baseAsset : String}
    (hbase : symbolBaseAsset decision.symbol = some baseAsset) :
    exchange = (sellVenue reads decision).1 ∧ ∃ free total valueUsd,
      (sellVenue reads decision).2.availability config exchange baseAsset = .available free total valueUsd ∧
        ∀ cap, maxSellAmountUsdFromBalance (reads.sellPrice exchange decision.symbol) free total valueUsd = some cap →
          ¬ cap < 0.01 ∧ amountUsd = capAmount decision.amountUsd cap := by
  rw [routeSell, hbase] at h
  dsimp only at h
  cases hamount : sellAmount reads decision (sellVenue reads decision).1
      ((sellVenue reads decision).2.availability config (sellVenue reads decision).1 baseAsset) with
  | error skip =>
    rw [hamount] at h
    cases h
  | ok amount =>
    rw [hamount] at h
    obtain ⟨rfl, rfl⟩ := Prod.mk.inj (Except.ok.inj h)
    exact ⟨rfl, of_sellAmount hamount⟩

theorem of_reprice {side : OrderSide} {price : F}
    (h : reprice config reads decision side exchange amountUsd = .ok price) :
    ∃ snapshot referencePrice adverseDriftBps, reads.snapshot exchange decision.symbol = some snapshot ∧
      decision.referencePrice = some referencePrice ∧
      adverseRepriceDriftBps side referencePrice snapshot.price = some adverseDriftBps ∧
      ¬ config.maxRepriceDriftBps < adverseDriftBps ∧
      ¬ repriceNetEdge decision.economics.expectedNetEdgeBps decision.economics.estimatedRoundTripCostBps
        (reads.roundTripCostBps snapshot side amountUsd) adverseDriftBps + Scalar.epsilon <
          decision.economics.requiredNetEdgeBps := by
  unfold reprice at h
  cases hsnapshot : reads.snapshot exchange decision.symbol with
  | none =>
    rw [hsnapshot] at h
    cases h
  | some snapshot =>
    rw [hsnapshot] at h
    obtain ⟨-, h⟩ := ok_of_ite h
    cases hreference : decision.referencePrice with
    | none =>
      rw [hreference] at h
      cases h
    | some referencePrice =>
      rw [hreference] at h
      dsimp only at h
      cases hdrift : adverseRepriceDriftBps side referencePrice snapshot.price with
      | none =>
        rw [hdrift] at h
        cases h
      | some adverseDriftBps =>
        rw [hdrift] at h
        obtain ⟨hchecks, -⟩ := ok_of_ite h
        rw [not_or] at hchecks
        exact ⟨snapshot, referencePrice, adverseDriftBps, rfl, rfl, hdrift, hchecks⟩

/-- Every check is of the values that are submitted. -/
theorem executeIfWarranted_checked {order : ExecutionOrder F} {side : OrderSide}
    (hown : decision.overrideApplied = false) (hside : decision.action.side = some side)
    (h : executeIfWarranted config reads decision = .ok order) : Checked config reads decision side order := by
  rw [executeIfWarranted, hside] at h
  obtain ⟨-, -, h⟩ := ok_of_bind h
  obtain ⟨⟨exchange, amountUsd⟩, hroute, h⟩ := ok_of_bind h
  obtain ⟨⟨⟩, hfloor, h⟩ := ok_of_bind h
  obtain ⟨price, hprice, h⟩ := ok_of_bind h
  obtain ⟨⟨⟩, hclaim, h⟩ := ok_of_bind h
  obtain rfl := Except.ok.inj h
  rw [executionReferencePrice, hown, if_neg Bool.false_ne_true] at hprice
  obtain ⟨hclaimed, hactive⟩ := of_claimIntent hclaim
  refine { action := rfl, symbol := rfl, capped := ?_, aboveFloor := (ok_of_ite hfloor).1, repriced := ?_
           claimed := hclaimed, active := hactive }
  · cases side with
    | buy => exact of_routeBuy hroute
    | sell => exact fun baseAsset hbase => of_routeSell hroute hbase
  · cases hrepriced : reprice config reads decision side exchange amountUsd with
    | error skip =>
      rw [hrepriced] at hprice
      cases hprice
    | ok fresh => exact of_reprice hrepriced

end Checks

section Exact
variable {config : RoutingConfig ℚ} {reads : ExecutionReads ℚ} {decision : Decision.TradeDecision ℚ}
  {order : ExecutionOrder ℚ} {side : OrderSide}

/-- Whole cents of a share are no more than the share. -/
theorem safeShareUsd_le (balanceUsd factor : ℚ) : safeShareUsd balanceUsd factor ≤ balanceUsd * factor := by
  have hfloor : ((balanceUsd * factor * 100.0).floor : ℚ) ≤ balanceUsd * factor * 100.0 := Rat.floor_le _
  change ((balanceUsd * factor * 100.0).floor : ℚ) / 100.0 ≤ _
  rw [div_le_iff₀ (by norm_num)]
  exact hfloor

theorem cent_le_of_floor {balanceUsd factor : ℚ} (h : (1 : ℤ) ≤ (balanceUsd * factor * 100.0).floor) :
    0.01 ≤ safeShareUsd balanceUsd factor := by
  have hcast : (1 : ℚ) ≤ ((balanceUsd * factor * 100.0).floor : ℚ) := by exact_mod_cast h
  change 0.01 ≤ ((balanceUsd * factor * 100.0).floor : ℚ) / 100.0
  rw [le_div_iff₀ (by norm_num)]
  linarith

/-- A share of a cent makes at least a cent. -/
theorem cent_le_safeShareUsd {balanceUsd factor : ℚ} (h : 0.01 ≤ balanceUsd * factor) :
    0.01 ≤ safeShareUsd balanceUsd factor :=
  cent_le_of_floor (Rat.le_floor_iff.mpr (by push_cast; linarith))

/-- A positive share is of a cent at least. -/
theorem cent_le_of_pos {balanceUsd factor : ℚ} (h : 0 < safeShareUsd balanceUsd factor) :
    0.01 ≤ safeShareUsd balanceUsd factor := by
  change 0 < ((balanceUsd * factor * 100.0).floor : ℚ) / 100.0 at h
  have hpositive : (0 : ℚ) < ((balanceUsd * factor * 100.0).floor : ℚ) := by
    by_contra hnot
    exact absurd h (not_lt.mpr (div_nonpos_of_nonpos_of_nonneg (not_lt.mp hnot) (by norm_num)))
  exact cent_le_of_floor (by exact_mod_cast hpositive)

theorem capAmount_le (amountUsd cap : ℚ) : capAmount amountUsd cap ≤ cap + Scalar.epsilon := by
  have hepsilon : (0 : ℚ) ≤ Scalar.epsilon := by change (0 : ℚ) ≤ 1 / 2 ^ 52; norm_num
  unfold capAmount
  split_ifs with h
  · linarith
  · exact not_lt.mp h

/-- What a cap is taken from is larger than the cap by more than the tolerance. -/
theorem capAmount_le_balance {amountUsd balanceUsd factor : ℚ} (hfactor : 0 < factor) (hsafe : factor ≤ 0.99)
    (hshare : 0.01 ≤ safeShareUsd balanceUsd factor) :
    capAmount amountUsd (safeShareUsd balanceUsd factor) ≤ balanceUsd := by
  have hcap := capAmount_le amountUsd (safeShareUsd balanceUsd factor)
  have hle := safeShareUsd_le balanceUsd factor
  have hepsilon : (Scalar.epsilon : ℚ) ≤ 0.0001 := by change (1 / 2 ^ 52 : ℚ) ≤ 0.0001; norm_num
  have hbalance : 0.01 ≤ balanceUsd := by nlinarith
  have hrest : balanceUsd * factor ≤ balanceUsd * 0.99 := by nlinarith
  linarith

theorem buyCovered_of_capped (h : Capped config reads decision order .buy) : BuyCovered reads order := by
  obtain ⟨portfolio, cap, hportfolio, hcap, hpositive, hamount⟩ := h
  obtain ⟨available, havailable, hcap⟩ := Option.bind_eq_some_iff.mp hcap
  rw [if_pos (isFinite_rat available)] at hcap
  obtain rfl := Option.some.inj hcap
  norm_num at hpositive
  have hcent := cent_le_of_pos hpositive
  refine ⟨portfolio, available, hportfolio, havailable, ?_⟩
  rw [hamount]
  exact capAmount_le_balance (by unfold buyBalanceUsdSafetyFactor; norm_num)
    (by unfold buyBalanceUsdSafetyFactor; norm_num) hcent

/-- What is available is the balance that the sell is held to. -/
theorem availability_of_held {read : BalanceRead ℚ} {portfolio : OctobotPortfolio ℚ} {exchange baseAsset : String}
    {balance : CurrencyBalance ℚ} {free total : ℚ} {valueUsd : Option ℚ} (hread : read.portfolio = some portfolio)
    (hbalance : heldBalance config portfolio exchange baseAsset = some balance)
    (h : read.availability config exchange baseAsset = .available free total valueUsd) :
    free = balance.free ∧ total = balance.total ∧ valueUsd = balance.valueUsd := by
  rw [BalanceRead.availability, hread] at h
  unfold heldBalance at hbalance
  dsimp only at h
  by_cases hstrict : config.strictExchangeSelection = true
  · rw [if_pos hstrict] at h hbalance
    rw [portfolioBalanceStateForExchange, hbalance] at h
    dsimp only at h
    split_ifs at h
    cases h
    exact ⟨rfl, rfl, rfl⟩
  · rw [if_neg hstrict] at h hbalance
    rw [portfolioBalanceState, hbalance] at h
    dsimp only at h
    split_ifs at h
    cases h
    exact ⟨rfl, rfl, rfl⟩

theorem sellHeld_of_capped (h : Capped config reads decision order .sell) : SellHeld config reads decision order := by
  intro portfolio baseAsset balance estimateUsd hread hbase hbalance hestimate hcent
  obtain ⟨-, free, total, valueUsd, havailability, hcap⟩ := h baseAsset hbase
  obtain ⟨rfl, rfl, rfl⟩ := availability_of_held hread hbalance havailability
  have hshare := cent_le_safeShareUsd hcent
  have hpositive : 0 < estimateUsd := by unfold sellBalanceUsdSafetyFactor at hcent; linarith
  have hmaximum : maxSellAmountUsdFromBalance (reads.sellPrice order.exchange order.symbol) balance.free balance.total
      balance.valueUsd = some (safeShareUsd estimateUsd sellBalanceUsdSafetyFactor) := by
    rw [maxSellAmountUsdFromBalance, hestimate, Option.bind_some, isFinite_rat]
    have hnot : ¬ estimateUsd ≤ 0.0 := by norm_num; exact hpositive
    have hsome : (0.0 : ℚ) < safeShareUsd estimateUsd sellBalanceUsdSafetyFactor := by linarith
    simp [hnot, hsome]
  rw [(hcap _ hmaximum).2]
  exact capAmount_le_balance (by unfold sellBalanceUsdSafetyFactor; norm_num)
    (by unfold sellBalanceUsdSafetyFactor; norm_num) hshare

end Exact

section Sample

deriving instance DecidableEq for CurrencyBalance, ExecutionOrder

def sampleDecision (action : TradeAction) (amountUsd : ℚ) : Decision.TradeDecision ℚ where
  action := action
  exchange := "binance"
  symbol := "BTC/USDT"
  amountUsd := amountUsd
  confidence := 0.9
  rationale := ""
  fuzzySignal := 0
  fuzzyConfidence := 0.9
  aiSignal := 0
  aiConfidence := 0.9
  blendedSignal := 0
  roiFeedback := none
  overrideApplied := false
  createdAt := 0
  marketFetchedAt := some 0
  referencePrice := some 50000
  economics :=
    { expectedGrossEdgeBps := 100, estimatedRoundTripCostBps := 40, expectedNetEdgeBps := 60
      requiredNetEdgeBps := 10, calibrationMultiplier := 1 }
  providerKeys := []
  marketRegime := ""
  holdingHorizonSeconds := none
  portfolioTargetWeight := none

def sampleConfig (strictExchangeSelection : Bool) : RoutingConfig ℚ where
  microTradeMinUsd := 10
  advisoryTtlSeconds := 60
  marketSnapshotTtlSeconds := 60
  maxRepriceDriftBps := 50
  strictExchangeSelection := strictExchangeSelection
  liveExecutionEnabled := true
  liveExecutionAutoGateEnabled := false
  paperQualificationRequired := true
  backtestingEnabled := true

/-- Dollars on one exchange, and the same of a coin on two. -/
def samplePortfolio (coins valueUsd dollars : ℚ) : OctobotPortfolio ℚ where
  currencies :=
    [("BTC", { free := 2 * coins, locked := 0, total := 2 * coins, valueUsd := some (2 * valueUsd) })]
  totalValueUsd := none
  exchangeCurrencies :=
    [("binance", [
        ("BTC", { free := coins, locked := 0, total := coins, valueUsd := some valueUsd }),
        ("USDT", { free := dollars, locked := 0, total := dollars, valueUsd := none })]),
      ("kraken", [("BTC", { free := coins, locked := 0, total := coins, valueUsd := some valueUsd })])]

/-- A run that finds one portfolio wherever it looks, and a price that has not moved. -/
def sampleReads (portfolio : OctobotPortfolio ℚ) : ExecutionReads ℚ where
  microTradeMinUsd := none
  now := 1
  buyRoute := { portfolio := some portfolio, availableExchanges := [] }
  buyPortfolio := some portfolio
  sellBalance := { cached := some portfolio, fetched := some portfolio }
  sellRoute := { portfolio := some portfolio, availableExchanges := [] }
  routedBalance := { cached := some portfolio, fetched := some portfolio }
  sellPrice _ _ := some 50000
  snapshot exchange symbol := some { exchange, symbol, price := 50000, fetchedAt := 1 }
  repricedAt := 1
  roundTripCostBps _ _ _ := 40
  paperQualified := true
  profitabilityQualified := true
  claimed _ := true
  persisted := true
  pairActive _ _ := some true

def sampleOrder (action : TradeAction) (amountUsd : ℚ) : ExecutionOrder ℚ where
  action := action
  exchange := "binance"
  symbol := "BTC/USDT"
  amountUsd := amountUsd
  referencePrice := some 50000
  overrideApplied := false

theorem not_covered_of_estimate {config : RoutingConfig ℚ} {portfolio : OctobotPortfolio ℚ}
    {decision : Decision.TradeDecision ℚ} {order : ExecutionOrder ℚ} (balance : CurrencyBalance ℚ) (estimateUsd : ℚ)
    (hbase : symbolBaseAsset order.symbol = some "BTC")
    (hbalance : reportedBalance portfolio order.exchange "BTC" = some balance)
    (hestimate : SellEstimate (sampleReads portfolio) order balance estimateUsd)
    (h : estimateUsd < order.amountUsd) : ¬ Covered config (sampleReads portfolio) decision .sell order := by
  intro hcovered
  have hread : (sellVenue (sampleReads portfolio) decision).2.portfolio = some portfolio := by
    unfold sellVenue
    split <;> rfl
  exact absurd (hcovered.sell rfl _ _ _ _ hread hbase hbalance hestimate) (not_le.mpr h)

end Sample

end Gail.Trading.Routing
