import Gail.Trading.ExecutionIntents
import Gail.Trading.OrderPlacement
import Mathlib.Data.Rat.Floor

/-! What is written down once an order is accepted: the trade, the fill for the cost estimates and the
markout that outcomes are measured by. All three are made of the decision, not of the request. -/
namespace Gail.Trading
open Gail.Library

structure ExecutionCostObservation (F : Type) where
  observedAt : F
  exchange : String
  symbol : String
  side : String
  orderId : String
  notionalUsd : F
  referencePrice : F
  fillPrice : F
  observedSlippageBps : F
  estimatedFeeBps : F

structure TradeMarkout (F : Type) where
  orderId : String
  executedAt : F
  dueAt : F
  exchange : String
  symbol : String
  action : TradeAction
  amountUsd : F
  entryPrice : F
  providers : List String
  regime : String

/-- The settings that are read when an order is recorded. -/
structure RecordConfig (F : Type) where
  telemetryEnabled : Bool
  telemetryLedgerSize : Nat
  estimatedFeeBps : F
  markoutHorizonSeconds : Nat
  markoutLedgerSize : Nat

/-- What a markout takes from its decision. -/
structure MarkoutContext where
  holdingHorizonSeconds : Option Nat
  providerKeys : List String
  marketRegime : String

/-- The part of the trading state that an accepted order changes. -/
structure ExecutionBooks (F : Type) where
  trading : TradingState F
  fills : List (ExecutionCostObservation F)
  markouts : List (TradeMarkout F)

section Definitions
variable {F : Type} [AmountScalar F] [NumberText F]

/-- `execution_telemetry.record_fill`. -/
def recordFill (config : RecordConfig F) (fills : List (ExecutionCostObservation F)) (observedAt : F)
    (exchange symbol side orderId : String) (notionalUsd referencePrice fillPrice : F) :
    List (ExecutionCostObservation F) :=
  if !config.telemetryEnabled || decide (referencePrice ≤ 0.0) || decide (fillPrice ≤ 0.0) ||
      !Scalar.isFinite referencePrice || !Scalar.isFinite fillPrice then fills
  else
    let signedMoveBps := (fillPrice / referencePrice - 1.0) * 10000.0
    let recorded := fills ++
      [{ observedAt
         exchange := toAsciiLowercase exchange
         symbol := toAsciiUppercase symbol
         side := toAsciiLowercase side
         orderId
         notionalUsd := Scalar.max notionalUsd 0.0
         referencePrice
         fillPrice
         observedSlippageBps :=
           Scalar.max (if Library.eqIgnoreAsciiCase side "sell" then -signedMoveBps else signedMoveBps) 0.0
         estimatedFeeBps := Scalar.max config.estimatedFeeBps 0.0 }]
    recorded.drop (recorded.length - config.telemetryLedgerSize)

/-- `outcome_ledger.record`. -/
def recordMarkout (markouts : List (TradeMarkout F)) (markout : TradeMarkout F) (capacity : Nat) :
    List (TradeMarkout F) :=
  if markout.entryPrice ≤ 0.0 ∨ Scalar.isFinite markout.entryPrice = false then markouts
  else if markouts.any fun item => !markout.orderId.isEmpty && item.orderId == markout.orderId then markouts
  else markouts.drop (markouts.length + 1 - max capacity 1) ++ [markout]

/-- An execution whose `place_order` has returned an order. -/
structure AcceptedOrder (F : Type) [AmountScalar F] where
  intent : ExecutionIntent F
  side : OrderSide
  isSide : intent.order.action.side = some side
  context : MarkoutContext
  cache : ModeCache
  capture : OrderPlacementBaseline F
  requestStartedAt : F
  captures : String → Option (String × String)
  answers : Nat → SubmissionAnswer F
  result : OctobotOrderResult F
  isResult : (PlaceOrder.placeOrder
    { exchange := intent.order.exchange, symbol := intent.order.symbol, side := side.name
      amountUsd := intent.order.amountUsd, cache, capture, requestStartedAt, captures } answers).outcome =
    .ok result

namespace AcceptedOrder
variable (accepted : AcceptedOrder F)

/-- `place_buy_order` or `place_sell_order`. -/
def call : PlaceOrder F :=
  { exchange := accepted.intent.order.exchange
    symbol := accepted.intent.order.symbol
    side := accepted.side.name
    amountUsd := accepted.intent.order.amountUsd
    cache := accepted.cache
    capture := accepted.capture
    requestStartedAt := accepted.requestStartedAt
    captures := accepted.captures }

def placement : Placement F := accepted.call.placeOrder accepted.answers

def markout (config : RecordConfig F) (executedAt entryPrice : F) : TradeMarkout F :=
  { orderId := accepted.result.orderId.text
    executedAt
    dueAt := executedAt + Scalar.ofCount (clampCount
      (accepted.context.holdingHorizonSeconds.getD config.markoutHorizonSeconds) 60 (30 * 86400))
    exchange := accepted.intent.order.exchange
    symbol := accepted.intent.order.symbol
    action := accepted.intent.order.action
    amountUsd := accepted.intent.order.amountUsd
    entryPrice
    providers := accepted.context.providerKeys
    regime := accepted.context.marketRegime }

/-- The success branch of `execute_if_warranted`. -/
def record (config : RecordConfig F) (books : ExecutionBooks F) (executedAt : F) : ExecutionBooks F :=
  let order := accepted.intent.order
  let trade := order.executedTrade executedAt accepted.result
  { trading := (books.trading.releaseExecutionIntent accepted.intent.key).recordTrade trade
    fills :=
      match order.referencePrice, accepted.result.price with
      | some referencePrice, some fillPrice =>
        recordFill config books.fills executedAt order.exchange order.symbol accepted.side.name
          accepted.result.orderId.text order.amountUsd referencePrice fillPrice
      | _, _ => books.fills
    markouts :=
      match accepted.result.price.or order.referencePrice with
      | some entryPrice =>
        recordMarkout books.markouts (accepted.markout config executedAt entryPrice)
          config.markoutLedgerSize
      | none => books.markouts }

end AcceptedOrder

namespace SentOrder

/-- The request asks for this. -/
def Asks (sent : SentOrder F) (exchange symbol : String) (side : OrderSide) (amountUsd : F) : Prop :=
  (sent.path, sent.payload) = buildOrderSubmission sent.mode exchange symbol side.name amountUsd

/-- The reply says that the portfolio does not hold what is to be sold. -/
def portfolioNegative (side : OrderSide) (sent : SentOrder F) : Bool :=
  decide (side = .sell) &&
    match sent.answer.reply with
    | .transportError _ => false
    | .answer status body => !status.isSuccess && bodyHasPortfolioNegativeRejection body

end SentOrder

/-- The books that an order is recorded in say what the request asked for. Fills are kept in one case,
whatever the case of the names. -/
structure ExecutionBooks.Tell (before after : ExecutionBooks F) (request : SentOrder F) : Prop where
  trade : ∃ trade side, after.trading.ledger.recentTrades.getLast? = some trade ∧
    trade.action.side = some side ∧ request.Asks trade.exchange trade.symbol side trade.amountUsd
  fills : ∀ fill ∈ after.fills, fill ∈ before.fills ∨
    ∃ exchange symbol side, fill.exchange = toAsciiLowercase exchange ∧
      fill.symbol = toAsciiUppercase symbol ∧ fill.side = side.name ∧
      request.Asks exchange symbol side fill.notionalUsd
  markouts : ∀ markout ∈ after.markouts, markout ∈ before.markouts ∨
    ∃ side, markout.action.side = some side ∧
      request.Asks markout.exchange markout.symbol side markout.amountUsd

/-- The accepted request is the last one of the call. -/
def AcceptedOrder.Recorded (accepted : AcceptedOrder F) (config : RecordConfig F)
    (books : ExecutionBooks F) (executedAt : F) : Prop :=
  ∃ request ∈ accepted.placement.sent.getLast?,
    books.Tell (accepted.record config books executedAt) request

/-- A whole number of cents, and at least one. -/
def WholeCents (amountUsd : F) : Prop := PlaceOrder.roundedAmount amountUsd = amountUsd

end Definitions

section Placed
variable {F : Type} [AmountScalar F]

/-- The requests of a round ask for its amount, on the exchange of the call. -/
theorem submitModes_asks (call : PlaceOrder F) (side : OrderSide) (amountUsd : F)
    (answers : Nat → SubmissionAnswer F) (modes : List OrderSubmissionMode) (index : Nat)
    (baseline : Option (OrderPlacementBaseline F)) (cache : ModeCache) :
    ∀ sent ∈ (call.submitModes side amountUsd answers modes index baseline cache).sent,
      sent.Asks call.exchange call.symbol side amountUsd := by
  induction modes generalizing index baseline cache with
  | nil => exact fun _ h => nomatch h
  | cons mode modes ih =>
    intro sent hs
    rw [PlaceOrder.submitModes] at hs
    dsimp only at hs
    split at hs
    case h_3 =>
      rcases List.mem_cons.mp hs with rfl | hs
      · rfl
      · exact ih _ _ _ sent hs
    all_goals
      rw [List.mem_singleton.mp hs]
      rfl

/-- A reply that is taken for a negative portfolio is one, and says how much less to ask for. -/
theorem portfolioNegative_of_attempt {call : PlaceOrder F} {side : OrderSide} {sent : SentOrder F}
    {baseline : Option (OrderPlacementBaseline F)} {retryAmountUsd : Option F}
    (h : call.attemptOrderSubmission side sent.amountUsd sent.path baseline sent.answer =
      .ok (.rejectedPortfolioNegative retryAmountUsd)) :
    sent.portfolioNegative side = true ∧ ∃ body,
      retryAmountUsd = retryAmountFromPortfolioNegativeRejection call.captures body sent.amountUsd := by
  unfold PlaceOrder.attemptOrderSubmission at h
  unfold SentOrder.portfolioNegative
  cases hr : sent.answer.reply with
  | transportError message =>
    rw [hr] at h
    cases h
  | answer status body =>
    rw [hr] at h
    dsimp only at h ⊢
    split at h
    · next hs =>
      split at h
      · next hn =>
        cases h
        exact ⟨by simp [hs, hn.1, hn.2], body, rfl⟩
      split at h
      · cases h
      · split at h <;> cases h
    · split at h
      · cases h
      · split at h <;> cases h

/-- Any other reply is not one. -/
theorem not_portfolioNegative_of_attempt {call : PlaceOrder F} {side : OrderSide} {sent : SentOrder F}
    {baseline : Option (OrderPlacementBaseline F)}
    (h : ∀ retryAmountUsd,
      call.attemptOrderSubmission side sent.amountUsd sent.path baseline sent.answer ≠
        .ok (.rejectedPortfolioNegative retryAmountUsd)) :
    sent.portfolioNegative side = false := by
  by_contra hn
  rw [Bool.not_eq_false, SentOrder.portfolioNegative, Bool.and_eq_true, decide_eq_true_eq] at hn
  obtain ⟨rfl, hn⟩ := hn
  unfold PlaceOrder.attemptOrderSubmission at h
  cases hr : sent.answer.reply with
  | transportError message =>
    rw [hr] at hn
    cases hn
  | answer status body =>
    rw [hr] at hn h
    dsimp only at hn h
    rw [Bool.and_eq_true] at hn
    rw [if_pos hn.1, if_pos ⟨rfl, hn.2⟩] at h
    exact h _ rfl

end Placed

section Cents

theorem round_intCast (n : ℤ) : AmountScalar.round (n : ℚ) = n := by
  have hfloor : ∀ m : ℤ, ((m : ℚ) + 1 / 2).floor = m := by
    intro m
    change ⌊(m : ℚ) + 1 / 2⌋ = m
    rw [Int.floor_intCast_add]
    norm_num
  change (if (n : ℚ) < 0 then -(((-(n : ℚ) + 1 / 2).floor : ℤ) : ℚ) else (((n : ℚ) + 1 / 2).floor : ℤ)) = n
  split
  · have hneg : -(n : ℚ) = ((-n : ℤ) : ℚ) := (Int.cast_neg n).symm
    rw [hneg, hfloor, Int.cast_neg, neg_neg]
  · rw [hfloor]

/-- What has been cut to cents, and is one at least, is left as it is. -/
theorem wholeCents_of_int {n : ℤ} (h : (0.01 : ℚ) ≤ (n : ℚ) / 100.0) : WholeCents ((n : ℚ) / 100.0) := by
  have hhundred : (n : ℚ) / 100.0 * 100.0 = n := div_mul_cancel₀ _ (by norm_num)
  unfold WholeCents PlaceOrder.roundedAmount
  rw [hhundred, round_intCast]
  change (if (n : ℚ) / 100.0 < 0.01 then (0.01 : ℚ) else (n : ℚ) / 100.0) = _
  rw [if_neg (not_lt.mpr h)]

/-- The amounts that are tried again are whole cents. -/
theorem smallerAmount_wholeCents {n : ℤ} {current amount : ℚ}
    (h : smallerAmount ((n : ℚ) / 100.0) current = some amount) : WholeCents amount := by
  have hcent := (smallerAmount_some h).1
  unfold smallerAmount at h
  split at h
  · cases h
    exact wholeCents_of_int hcent
  · cases h

theorem round_eq_intCast (x : ℚ) : ∃ n : ℤ, AmountScalar.round x = n := by
  change ∃ n : ℤ, (if x < 0 then -(((-x + 1 / 2).floor : ℤ) : ℚ) else ((x + 1 / 2).floor : ℤ)) = n
  split
  · exact ⟨-(-x + 1 / 2).floor, by rw [Int.cast_neg]⟩
  · exact ⟨_, rfl⟩

theorem reducedSellRetryAmount_wholeCents {current amount : ℚ}
    (h : reducedSellRetryAmount current = some amount) : WholeCents amount := by
  unfold reducedSellRetryAmount at h
  split at h
  · cases h
  · obtain ⟨n, hn⟩ := round_eq_intCast (current * 0.95 * 100.0)
    rw [hn] at h
    exact smallerAmount_wholeCents h

theorem retryAmount_wholeCents {captures : String → Option (String × String)} {body : Json ℚ}
    {current amount : ℚ}
    (h : retryAmountFromPortfolioNegativeRejection captures body current = some amount) :
    WholeCents amount := by
  rcases Option.or_eq_some_iff.mp h with h | ⟨-, h⟩
  · obtain ⟨message, -, h⟩ := Option.bind_eq_some_iff.mp h
    unfold retryAmountFromPortfolioNegativeMessage at h
    obtain ⟨⟨attempted, available⟩, -, h⟩ := Option.bind_eq_some_iff.mp h
    obtain ⟨attemptedQuantity, -, h⟩ := Option.bind_eq_some_iff.mp h
    obtain ⟨availableQuantity, -, h⟩ := Option.bind_eq_some_iff.mp h
    dsimp only at h
    split at h
    · cases h
    split at h
    · cases h
    · have hfinite : ∀ x : ℚ, floorUsdToCents x =
          (((Scalar.max x 0.0 * 100.0 : ℚ).floor : ℤ) : ℚ) / 100.0 := fun _ => rfl
      rw [hfinite] at h
      exact smallerAmount_wholeCents h
  · exact reducedSellRetryAmount_wholeCents h

end Cents

section Rounds
open PlaceOrder

/-- Whether a portfolio was found negative in a round, by how it ends. -/
def RoundNegative (side : OrderSide) (round : Round ℚ) : Prop :=
  match round.ending with
  | .portfolioNegative suggested => (∃ sent ∈ round.sent, sent.portfolioNegative side = true) ∧
      ∀ amount ∈ suggested, WholeCents amount
  | _ => ∀ sent ∈ round.sent, sent.portfolioNegative side = false

theorem RoundNegative.cons {side : OrderSide} {round : Round ℚ} {sent : SentOrder ℚ}
    (h : RoundNegative side round) (hs : sent.portfolioNegative side = false) :
    RoundNegative side { round with sent := sent :: round.sent } := by
  unfold RoundNegative at h ⊢
  dsimp only
  split at h
  · obtain ⟨⟨found, hmem, hfound⟩, hcents⟩ := h
    exact ⟨⟨found, List.mem_cons_of_mem _ hmem, hfound⟩, hcents⟩
  · exact List.forall_mem_cons.mpr ⟨hs, h⟩

theorem submitModes_negative (call : PlaceOrder ℚ) (side : OrderSide) (amountUsd : ℚ)
    (answers : Nat → SubmissionAnswer ℚ) (modes : List OrderSubmissionMode) (index : Nat)
    (baseline : Option (OrderPlacementBaseline ℚ)) (cache : ModeCache) :
    RoundNegative side (call.submitModes side amountUsd answers modes index baseline cache) := by
  induction modes generalizing index baseline cache with
  | nil => exact List.forall_mem_nil _
  | cons mode modes ih =>
    -- The request of the first mode, with what comes back for it.
    let sent : SentOrder ℚ :=
      { mode
        path := (buildOrderSubmission mode call.exchange call.symbol side.name amountUsd).1
        payload := (buildOrderSubmission mode call.exchange call.symbol side.name amountUsd).2
        amountUsd, answer := answers index }
    have hnot : ∀ {attempt}, call.attemptOrderSubmission side sent.amountUsd sent.path
          (if baseline.isNone ∧ some mode ≠ call.cache.direct then some call.capture else baseline)
          sent.answer = attempt → (∀ retry, attempt ≠ .ok (.rejectedPortfolioNegative retry)) →
        sent.portfolioNegative side = false := by
      intro attempt ha hne
      exact not_portfolioNegative_of_attempt (fun retry h => hne retry (ha ▸ h))
    rw [submitModes]
    dsimp only
    split
    · next ha => exact List.forall_mem_singleton.mpr (hnot ha (by rintro _ ⟨⟩))
    · next ha => exact List.forall_mem_singleton.mpr (hnot ha (by rintro _ ⟨⟩))
    · next ha => exact (ih _ _ _).cons (hnot ha (by rintro _ ⟨⟩))
    · next ha =>
      have hattempt : call.attemptOrderSubmission side sent.amountUsd sent.path
          (if baseline.isNone ∧ some mode ≠ call.cache.direct then some call.capture else baseline)
          sent.answer = _ := ha
      obtain ⟨hfound, body, rfl⟩ := portfolioNegative_of_attempt hattempt
      refine ⟨⟨sent, List.mem_singleton.mpr rfl, hfound⟩, ?_⟩
      intro amount hamount
      exact retryAmount_wholeCents (Option.filter_eq_some_iff.mp hamount).1
    · next ha => exact List.forall_mem_singleton.mpr (hnot ha (by rintro _ ⟨⟩))
    · next ha => exact List.forall_mem_singleton.mpr (hnot ha (by rintro _ ⟨⟩))

/-- The accepted request asks for the amount that the rounds begin with, unless the portfolio was found
negative before; then it asks for fewer whole cents. -/
def AcceptedLast (call : PlaceOrder ℚ) (side : OrderSide) (amountUsd : ℚ) (placement : Placement ℚ) :
    Prop :=
  ∀ result, placement.outcome = .ok result → ∃ before last asked, placement.sent = before ++ [last] ∧
    last.Asks call.exchange call.symbol side asked ∧
      ((asked = amountUsd ∧ ∀ sent ∈ placement.sent, sent.portfolioNegative side = false) ∨
        ((∃ sent ∈ placement.sent, sent.portfolioNegative side = true) ∧ asked < amountUsd ∧
          WholeCents asked))

/-- A call of one round. -/
theorem acceptedLast_single {call : PlaceOrder ℚ} {side : OrderSide} {round : Round ℚ}
    {outcome : Except (PlaceOrderError ℚ) (OctobotOrderResult ℚ)}
    (hasks : ∀ sent ∈ round.sent, sent.Asks call.exchange call.symbol side round.amountUsd)
    (hnegative : RoundNegative side round) (hspec : call.RoundSpec side round)
    (hending : round.ending = .returned outcome) :
    AcceptedLast call side round.amountUsd { rounds := [round], outcome } := by
  intro result _
  have hsent : ({ rounds := [round], outcome } : Placement ℚ).sent = round.sent := by simp [Placement.sent]
  unfold RoundNegative at hnegative
  unfold RoundSpec at hspec
  rw [hending] at hnegative hspec
  obtain ⟨before, last, hlast, -, -⟩ := hspec
  rw [hsent]
  exact ⟨before, last, round.amountUsd, hlast, hasks last (by simp [hlast]), .inl ⟨rfl, hnegative⟩⟩

/-- A round in which the portfolio was found negative, before the rest of a call. -/
theorem AcceptedLast.cons {call : PlaceOrder ℚ} {side : OrderSide} {round : Round ℚ} {amountUsd : ℚ}
    {placement : Placement ℚ} (h : AcceptedLast call side amountUsd placement)
    (hfound : ∃ sent ∈ round.sent, sent.portfolioNegative side = true)
    (hless : amountUsd < round.amountUsd) (hcents : WholeCents amountUsd) :
    AcceptedLast call side round.amountUsd { placement with rounds := round :: placement.rounds } := by
  intro result hresult
  obtain ⟨before, last, asked, hlast, hasks, hamount⟩ := h result hresult
  have hsent : ({ placement with rounds := round :: placement.rounds } : Placement ℚ).sent =
      round.sent ++ placement.sent := by
    simp [Placement.sent]
  rw [hsent]
  refine ⟨round.sent ++ before, last, asked, by rw [hlast, List.append_assoc], hasks, .inr ⟨?_, ?_⟩⟩
  · obtain ⟨sent, hmem, hneg⟩ := hfound
    exact ⟨sent, List.mem_append_left _ hmem, hneg⟩
  · rcases hamount with ⟨rfl, -⟩ | ⟨-, hlt, hc⟩
    · exact ⟨hless, hcents⟩
    · exact ⟨hlt.trans hless, hc⟩

theorem submitRounds_acceptedLast (call : PlaceOrder ℚ) (side : OrderSide)
    (modes : List OrderSubmissionMode) (answers : Nat → SubmissionAnswer ℚ) (retries : Nat)
    (amountUsd : ℚ) (index : Nat) (baseline : Option (OrderPlacementBaseline ℚ)) (cache : ModeCache) :
    AcceptedLast call side amountUsd
      (call.submitRounds side modes answers retries amountUsd index baseline cache) := by
  induction retries generalizing amountUsd index baseline cache with
  | zero =>
    obtain ⟨hamount, hspec⟩ := submitModes_spec call side amountUsd answers modes index baseline cache
    have hasks := submitModes_asks call side amountUsd answers modes index baseline cache
    have hnegative := submitModes_negative call side amountUsd answers modes index baseline cache
    unfold submitRounds
    generalize call.submitModes side amountUsd answers modes index baseline cache = round
      at hamount hspec hasks hnegative
    subst hamount
    dsimp only
    cases he : round.ending with
    | returned outcome => exact acceptedLast_single hasks hnegative hspec he
    | rejected => rintro _ ⟨⟩
    | portfolioNegative suggested => rintro _ ⟨⟩
  | succ retries ih =>
    obtain ⟨hamount, hspec⟩ := submitModes_spec call side amountUsd answers modes index baseline cache
    have hasks := submitModes_asks call side amountUsd answers modes index baseline cache
    have hnegative := submitModes_negative call side amountUsd answers modes index baseline cache
    unfold submitRounds
    generalize call.submitModes side amountUsd answers modes index baseline cache = round
      at hamount hspec hasks hnegative
    subst hamount
    dsimp only
    cases he : round.ending with
    | returned outcome => exact acceptedLast_single hasks hnegative hspec he
    | rejected => rintro _ ⟨⟩
    | portfolioNegative suggested =>
      unfold RoundNegative at hnegative
      unfold RoundSpec at hspec
      rw [he] at hnegative hspec
      dsimp only
      cases hretry : suggested.or (reducedSellRetryAmount round.amountUsd) with
      | none => rintro _ ⟨⟩
      | some retryAmount =>
        rcases Option.or_eq_some_iff.mp hretry with h | ⟨-, h⟩
        · exact (ih _ _ _ _).cons hnegative.1
            (LawfulAmounts.lt_of_add_epsilon_lt (hspec.2 retryAmount h).2) (hnegative.2 retryAmount h)
        · exact (ih _ _ _ _).cons hnegative.1
            (LawfulAmounts.lt_of_add_epsilon_lt (reducedSellRetryAmount_some h).2)
            (reducedSellRetryAmount_wholeCents h)

end Rounds

section Recorded
variable {F : Type}

/-- Requests that ask for the same order in the same way ask for one amount. -/
theorem SentOrder.Asks.amount_eq {sent : SentOrder F} {exchange symbol : String} {side : OrderSide}
    {exchange' symbol' : String} {side' : OrderSide} {amountUsd amountUsd' : F}
    (h : sent.Asks exchange symbol side amountUsd) (h' : sent.Asks exchange' symbol' side' amountUsd') :
    amountUsd = amountUsd' := by
  have heq := h.symm.trans h'
  cases hm : sent.mode <;>
    simp only [hm, buildOrderSubmission, canonicalOrder, userCommand, Prod.mk.injEq, Json.object.injEq,
      Json.array.injEq, List.cons.injEq, Json.number.injEq] at heq <;> tauto

variable [AmountScalar F]

theorem mem_recordFill {config : RecordConfig F} {fills : List (ExecutionCostObservation F)}
    {observedAt : F} {exchange symbol side orderId : String} {notionalUsd referencePrice fillPrice : F}
    {fill : ExecutionCostObservation F}
    (h : fill ∈ recordFill config fills observedAt exchange symbol side orderId notionalUsd
      referencePrice fillPrice) :
    fill ∈ fills ∨ fill.exchange = toAsciiLowercase exchange ∧ fill.symbol = toAsciiUppercase symbol ∧
      fill.side = toAsciiLowercase side ∧ fill.notionalUsd = Scalar.max notionalUsd 0.0 := by
  unfold recordFill at h
  split at h
  · exact .inl h
  · rcases List.mem_append.mp (List.mem_of_mem_drop h) with h | h
    · exact .inl h
    · rw [List.mem_singleton.mp h]
      exact .inr ⟨rfl, rfl, rfl, rfl⟩

theorem mem_recordMarkout {markouts : List (TradeMarkout F)} {markout item : TradeMarkout F}
    {capacity : Nat} (h : item ∈ recordMarkout markouts markout capacity) :
    item ∈ markouts ∨ item = markout := by
  unfold recordMarkout at h
  split at h
  · exact .inl h
  split at h
  · exact .inl h
  · rcases List.mem_append.mp h with h | h
    · exact .inl (List.mem_of_mem_drop h)
    · exact .inr (List.mem_singleton.mp h)

theorem toAsciiLowercase_name (side : OrderSide) : toAsciiLowercase side.name = side.name := by
  cases side <;> decide

theorem normalizeOrderSide_name (side : OrderSide) : normalizeOrderSide side.name = some side := by
  cases side <;> decide

end Recorded

section Exact

theorem WholeCents.cent_le {amountUsd : ℚ} (h : WholeCents amountUsd) : 0.01 ≤ amountUsd := by
  rw [← h]
  change (0.01 : ℚ) ≤ if _ < (0.01 : ℚ) then (0.01 : ℚ) else _
  split
  · exact le_rfl
  · next hlt => exact not_lt.mp hlt

namespace AcceptedOrder
variable (accepted : AcceptedOrder ℚ)

/-- The last request of the call is the one that was accepted. -/
theorem acceptedLast : ∃ before last asked, accepted.placement.sent = before ++ [last] ∧
    last.Asks accepted.intent.order.exchange accepted.intent.order.symbol accepted.side asked ∧
    ((asked = PlaceOrder.roundedAmount accepted.intent.order.amountUsd ∧
        ∀ sent ∈ accepted.placement.sent, sent.portfolioNegative accepted.side = false) ∨
      ((∃ sent ∈ accepted.placement.sent, sent.portfolioNegative accepted.side = true) ∧
        asked < PlaceOrder.roundedAmount accepted.intent.order.amountUsd ∧ WholeCents asked)) := by
  have hresult : accepted.placement.outcome = .ok accepted.result := accepted.isResult
  have hside : normalizeOrderSide accepted.call.side = some accepted.side :=
    normalizeOrderSide_name accepted.side
  unfold placement PlaceOrder.placeOrder at hresult ⊢
  rw [hside] at hresult ⊢
  dsimp only at hresult ⊢
  split at hresult
  · cases hresult
  · next hvalid =>
    rw [if_neg hvalid]
    exact submitRounds_acceptedLast _ _ _ _ _ _ _ _ _ _ hresult

/-- The trade that was recorded last is the decided one. -/
theorem record_getLast? (config : RecordConfig ℚ) (books : ExecutionBooks ℚ) (executedAt : ℚ) :
    (accepted.record config books executedAt).trading.ledger.recentTrades.getLast? =
      some (accepted.intent.order.executedTrade executedAt accepted.result) := by
  obtain ⟨kept, hkept⟩ := TradeLedger.recordTrade_recentTrades
    (books.trading.releaseExecutionIntent accepted.intent.key).ledger
    (accepted.intent.order.executedTrade executedAt accepted.result)
  change (TradeLedger.recordTrade _ _).recentTrades.getLast? = _
  rw [hkept, List.getLast?_append, List.getLast?_singleton]
  rfl

variable {accepted} {config : RecordConfig ℚ} {books : ExecutionBooks ℚ} {executedAt : ℚ}

/-- Books that tell what was asked for need an amount that was asked for as it was decided. -/
theorem Recorded.asked (h : accepted.Recorded config books executedAt) :
    WholeCents accepted.intent.order.amountUsd ∧
      ∀ sent ∈ accepted.placement.sent, sent.portfolioNegative accepted.side = false := by
  obtain ⟨before, last, asked, hsent, hasks, hamount⟩ := accepted.acceptedLast
  obtain ⟨request, hrequest, htell⟩ := h
  rw [Option.mem_def, hsent, List.getLast?_concat, Option.some.injEq] at hrequest
  subst hrequest
  obtain ⟨trade, side, hrecent, -, htold⟩ := htell.trade
  rw [record_getLast?, Option.some.injEq] at hrecent
  subst hrecent
  have hsame : asked = accepted.intent.order.amountUsd := hasks.amount_eq htold
  rcases hamount with ⟨hfirst, hnone⟩ | ⟨-, hless, hcents⟩
  · exact ⟨hfirst.symm.trans hsame, hnone⟩
  · -- A later amount is whole cents already, so it is not the decided one.
    rw [← hsame, hcents] at hless
    exact absurd hless (lt_irrefl _)

/-- A request for the decided amount is told by all that is recorded. -/
theorem tell_of_asks {request : SentOrder ℚ} (hcents : WholeCents accepted.intent.order.amountUsd)
    (hasks : request.Asks accepted.intent.order.exchange accepted.intent.order.symbol accepted.side
      accepted.intent.order.amountUsd) :
    books.Tell (accepted.record config books executedAt) request where
  trade := ⟨_, accepted.side, accepted.record_getLast? config books executedAt, accepted.isSide, hasks⟩
  fills := by
    intro fill hfill
    unfold record at hfill
    dsimp only at hfill
    split at hfill
    · rcases mem_recordFill hfill with h | ⟨hexchange, hsymbol, hside, hnotional⟩
      · exact .inl h
      · refine .inr ⟨_, _, accepted.side, hexchange, hsymbol, ?_, ?_⟩
        · rw [hside, toAsciiLowercase_name]
        · have hcent := hcents.cent_le
          have hpos : ¬ accepted.intent.order.amountUsd < 0.0 := by
            norm_num at hcent ⊢
            linarith
          have hmax : Scalar.max accepted.intent.order.amountUsd 0.0 = accepted.intent.order.amountUsd :=
            if_neg hpos
          rw [hnotional, hmax]
          exact hasks
    · exact .inl hfill
  markouts := by
    intro markout hmarkout
    unfold record at hmarkout
    dsimp only at hmarkout
    split at hmarkout
    · rcases mem_recordMarkout hmarkout with h | rfl
      · exact .inl h
      · exact .inr ⟨accepted.side, accepted.isSide, hasks⟩
    · exact .inl hmarkout

/-- The books tell what was asked for exactly when the decided amount is a whole number of cents and no
request of the call was refused for want of holdings. -/
theorem recorded_iff (accepted : AcceptedOrder ℚ) (config : RecordConfig ℚ) (books : ExecutionBooks ℚ)
    (executedAt : ℚ) :
    accepted.Recorded config books executedAt ↔
      WholeCents accepted.intent.order.amountUsd ∧
        ∀ sent ∈ accepted.placement.sent, sent.portfolioNegative accepted.side = false := by
  refine ⟨Recorded.asked, ?_⟩
  rintro ⟨hcents, hnone⟩
  obtain ⟨before, last, asked, hsent, hasks, hamount⟩ := accepted.acceptedLast
  refine ⟨last, by rw [hsent, List.getLast?_concat]; rfl, ?_⟩
  apply tell_of_asks hcents
  rcases hamount with ⟨hfirst, -⟩ | ⟨⟨sent, hmem, hneg⟩, -⟩
  · rw [hfirst, hcents] at hasks
    exact hasks
  · rw [hnone sent hmem] at hneg
    cases hneg

end AcceptedOrder

/-- The portfolio holds less than is to be sold; the request for less is acknowledged. -/
def sellAnswers : Nat → SubmissionAnswer ℚ
  | 0 =>
    { reply := .answer { code := 400, settled := by decide }
        (.string "PortfolioNegativeValueError: trying to update BTC")
      polls := fun _ => { openOrders := none, trades := none, now := 100 } }
  | _ =>
    { reply := .answer .ok (.object [("order_id", .string "o-1")])
      polls := fun _ => { openOrders := none, trades := none, now := 100 } }

/-- A sale for a hundred dollars. -/
def saleIntent : ExecutionIntent ℚ :=
  { order :=
      { action := .sell, exchange := "binance", symbol := "BTC/USDT", amountUsd := 100
        referencePrice := some 50000, overrideApplied := false }
    key := "SELL|BINANCE|BTC/USDT"
    isKey := by decide +kernel
    claim := { authority := "gail", claimedAt := 100, expiresAt := 130 } }

def saleCall : PlaceOrder ℚ :=
  { exchange := "binance", symbol := "BTC/USDT", side := "sell", amountUsd := 100
    cache := { preferred := none, direct := none }
    capture := captureOrderBaseline 100 (some []) (some [])
    requestStartedAt := 100, captures := fun _ => none }

/-- It is accepted with 95 dollars, and recorded with a hundred, whatever is in the books. -/
theorem reducedSale_misrecorded : ∃ accepted : AcceptedOrder ℚ, accepted.intent = saleIntent ∧
    accepted.placement = saleCall.placeOrder sellAnswers ∧
    ((saleCall.placeOrder sellAnswers).sent.getLast?.map (·.amountUsd)) = some 95 ∧
    ∀ config books executedAt, ¬ accepted.Recorded config books executedAt := by
  have hok : (saleCall.placeOrder sellAnswers).outcome.isOk = true := by decide +kernel
  cases hresult : (saleCall.placeOrder sellAnswers).outcome with
  | error error =>
    rw [hresult] at hok
    cases hok
  | ok result =>
    refine ⟨{ intent := saleIntent, side := .sell, isSide := rfl
              context := { holdingHorizonSeconds := none, providerKeys := [], marketRegime := "unknown" }
              cache := saleCall.cache, capture := saleCall.capture
              requestStartedAt := saleCall.requestStartedAt, captures := saleCall.captures
              answers := sellAnswers, result, isResult := hresult }, rfl, rfl, by decide +kernel, ?_⟩
    intro config books executedAt h
    have hnegative : (saleCall.placeOrder sellAnswers).sent.any (·.portfolioNegative .sell) = true := by
      decide +kernel
    obtain ⟨sent, hmem, hneg⟩ := List.any_eq_true.mp hnegative
    rw [h.asked.2 sent hmem] at hneg
    cases hneg

end Exact

end Gail.Trading
