import Gail.Trading.OrderReplies
import Mathlib.Tactic.NormNum

/-! How an order is placed: one endpoint after the other, until one accepts it or none may be asked any
more, and for a sell once or twice again with less. -/
namespace Gail.Trading
open Gail.Library

inductive OrderSubmissionMode where
  | directCreateOrder
  | directCreateOrders
  | directOrdersActionBody
  | directOrdersCanonicalBody
  | userCommandTrading
  | userCommandGailTrading
  | userCommandTradingBridge
  deriving DecidableEq

namespace OrderSubmissionMode

/-- `default_order_submission_mode_candidates`. -/
def candidates : List OrderSubmissionMode :=
  [.directCreateOrder, .directCreateOrders, .directOrdersActionBody, .directOrdersCanonicalBody,
    .userCommandTrading, .userCommandGailTrading, .userCommandTradingBridge]

def ordered (preferred : Option OrderSubmissionMode) : List OrderSubmissionMode :=
  preferred.toList ++ candidates.filter fun mode => some mode != preferred

end OrderSubmissionMode

/-- A status that is a success or an error; redirections are followed by the client. -/
structure HttpStatus where
  code : Nat
  settled : (200 ≤ code ∧ code < 300) ∨ (400 ≤ code ∧ code < 600)

namespace HttpStatus

def ok : HttpStatus := { code := 200, settled := by decide }

def isSuccess (status : HttpStatus) : Bool := 200 ≤ status.code && status.code < 300

def isClientError (status : HttpStatus) : Bool := 400 ≤ status.code && status.code < 500

def isServerError (status : HttpStatus) : Bool := 500 ≤ status.code && status.code < 600

end HttpStatus

/-- What comes back for a request. A body that cannot be read counts as null. -/
inductive Reply (F : Type) where
  | transportError (message : String)
  | answer (status : HttpStatus) (body : Json F)

/-- The reply to a mutating request, and what the polls see if it is waited for its effects. -/
structure SubmissionAnswer (F : Type) where
  reply : Reply F
  polls : Nat → OrderPoll F

/-- The modes that worked last; `direct` is the one that acknowledged an order itself. -/
structure ModeCache where
  preferred : Option OrderSubmissionMode
  direct : Option OrderSubmissionMode
  deriving DecidableEq

/-- The errors of `place_order`, without the list of what was tried. -/
inductive PlaceOrderError (F : Type) where
  | unsupportedSide (side : String)
  | invalidAmount (amountUsd : F)
  | requestFailed (message : String)
  | nonPositiveQuantity (amountUsd : F)
  | ambiguous (mode : OrderSubmissionMode)
  | failed (amountUsd : F)

inductive OrderSubmissionAttempt (F : Type) where
  | accepted (result : OctobotOrderResult F) (directAcknowledgement : Bool)
  | rejected
  | rejectedPortfolioNegative (retryAmountUsd : Option F)
  | rejectedNonPositiveQuantity
  | ambiguousAccepted

/-- One call of `place_order`: its arguments, the cached modes it finds and the baseline that it
captures when it needs one. -/
structure PlaceOrder (F : Type) where
  exchange : String
  symbol : String
  side : String
  amountUsd : F
  cache : ModeCache
  capture : OrderPlacementBaseline F
  requestStartedAt : F
  /-- The captures of the regular expression in `retry_amount_from_portfolio_negative_message`. -/
  captures : String → Option (String × String)

/-- A mutating request that was sent, with what came back. -/
structure SentOrder (F : Type) where
  mode : OrderSubmissionMode
  path : String
  payload : Json F
  amountUsd : F
  answer : SubmissionAnswer F

/-- How a pass over the modes ends. -/
inductive RoundEnding (F : Type) where
  | returned (outcome : Except (PlaceOrderError F) (OctobotOrderResult F))
  | rejected
  | portfolioNegative (suggestedRetryAmountUsd : Option F)

/-- A pass over the modes with one amount. -/
structure Round (F : Type) where
  amountUsd : F
  sent : List (SentOrder F)
  baseline : Option (OrderPlacementBaseline F)
  cache : ModeCache
  ending : RoundEnding F

/-- What a call has done and returned. -/
structure Placement (F : Type) where
  rounds : List (Round F)
  outcome : Except (PlaceOrderError F) (OctobotOrderResult F)

section Definitions
variable {F : Type} [AmountScalar F]

/-- The order that the modes send, as it is or within their own payload. -/
def canonicalOrder (exchange symbol side : String) (amountUsd : F) : Json F :=
  .object [("exchange", .string exchange), ("symbol", .string symbol), ("side", .string side),
    ("type", .string "market"), ("order_type", .string "market"), ("amount", .number amountUsd),
    ("amount_usd", .number amountUsd), ("price", .null)]

/-- A command to a service of OctoBot. -/
def userCommand (subject : String) (data : Json F) : Json F :=
  .object [("subject", .string subject), ("action", .string "create_order"), ("data", data)]

/-- The path and the payload of a mode. -/
def buildOrderSubmission (mode : OrderSubmissionMode) (exchange symbol side : String) (amountUsd : F) :
    String × Json F :=
  let canonical := canonicalOrder exchange symbol side amountUsd
  match mode with
  | .directCreateOrder => ("/api/orders?action=create_order", canonical)
  | .directCreateOrders => ("/api/orders?action=create_orders", .array [canonical])
  | .directOrdersActionBody =>
    ("/api/orders", .object [("action", .string "create_order"), ("exchange", .string exchange),
      ("symbol", .string symbol), ("side", .string side), ("type", .string "market"),
      ("amount", .number amountUsd), ("amount_usd", .number amountUsd)])
  | .directOrdersCanonicalBody => ("/api/orders", canonical)
  | .userCommandTrading => ("/api/user_command", userCommand "trading" canonical)
  | .userCommandGailTrading =>
    ("/api/user_command", userCommand "gail_trading" (.object [("exchange", .string exchange),
      ("symbol", .string symbol), ("side", .string side), ("amount_usd", .number amountUsd),
      ("type", .string "market")]))
  | .userCommandTradingBridge =>
    ("/api/user_command", userCommand "trading_bridge" (.object [("exchange", .string exchange),
      ("symbol", .string symbol), ("side", .string side), ("amount", .number amountUsd),
      ("order_type", .string "market")]))

/-- A mode that fails is no longer the cached one. -/
def ModeCache.forget (cache : ModeCache) (mode : OrderSubmissionMode) : ModeCache :=
  { preferred := if cache.preferred = some mode then none else cache.preferred
    direct := if cache.direct = some mode then none else cache.direct }

/-- A mode that has accepted an order. -/
def ModeCache.remember (mode : OrderSubmissionMode) (directAcknowledgement : Bool) : ModeCache :=
  { preferred := some mode, direct := if directAcknowledgement then some mode else none }

namespace PlaceOrder
variable (call : PlaceOrder F)

/-- What an acknowledgement of a request defaults to. -/
def defaults (side : OrderSide) (amountUsd : F) (path : String) : ResultDefaults F :=
  { symbol := call.symbol, side := side.name, amount := amountUsd, sourceHint := path }

def watch (side : OrderSide) (amountUsd : F) (baseline : OrderPlacementBaseline F) : OrderWatch F :=
  { symbol := call.symbol, side := side.name, amountUsd, baseline
    requestStartedAt := call.requestStartedAt }

/-- The order that is observed when a success has no acknowledgement; without a baseline nothing is
looked for. -/
def observed (side : OrderSide) (amountUsd : F) (baseline : Option (OrderPlacementBaseline F))
    (polls : Nat → OrderPoll F) : Option (OctobotOrderResult F) :=
  baseline.bind fun baseline =>
    (waitForOrderSideEffects (call.watch side amountUsd baseline) polls).map Prod.snd

/-- How the reply to a request is taken, unless the request fails. -/
def attemptOrderSubmission (side : OrderSide) (amountUsd : F) (path : String)
    (baseline : Option (OrderPlacementBaseline F)) (answer : SubmissionAnswer F) :
    Except (PlaceOrderError F) (OrderSubmissionAttempt F) :=
  match answer.reply with
  | .transportError message => .error (.requestFailed message)
  | .answer status body =>
    if !status.isSuccess then
      if side = .sell ∧ bodyHasPortfolioNegativeRejection body then
        .ok (.rejectedPortfolioNegative
          (retryAmountFromPortfolioNegativeRejection call.captures body amountUsd))
      else if bodyHasNonPositiveQuantityRejection body then .ok .rejectedNonPositiveQuantity
      else if status.isServerError then .ok .ambiguousAccepted
      else .ok .rejected
    else
      match parseOrderResultBody (call.defaults side amountUsd path) body with
      | some result => .ok (.accepted result true)
      | none =>
        match call.observed side amountUsd baseline answer.polls with
        | some result => .ok (.accepted result false)
        | none => .ok .ambiguousAccepted

/-- The cached modes after an attempt. -/
def cacheAfter (cache : ModeCache) (mode : OrderSubmissionMode) (reply : Reply F)
    (attempt : Except (PlaceOrderError F) (OrderSubmissionAttempt F)) : ModeCache :=
  match reply, attempt with
  | .transportError _, _ => cache
  | .answer status _, attempt =>
    if !status.isSuccess then cache.forget mode
    else
      match attempt with
      | .ok (.accepted _ directAcknowledgement) => .remember mode directAcknowledgement
      | _ => cache

/-- A pass over the modes. Each request takes the next answer; a baseline is captured before the first
mode that is not the proven direct one. -/
def submitModes (side : OrderSide) (amountUsd : F) (answers : Nat → SubmissionAnswer F) :
    List OrderSubmissionMode → Nat → Option (OrderPlacementBaseline F) → ModeCache → Round F
  | [], _, baseline, cache => { amountUsd, sent := [], baseline, cache, ending := .rejected }
  | mode :: modes, index, baseline, cache =>
    let baseline :=
      if baseline.isNone ∧ some mode ≠ call.cache.direct then some call.capture else baseline
    let (path, payload) := buildOrderSubmission mode call.exchange call.symbol side.name amountUsd
    let sent : SentOrder F := { mode, path, payload, amountUsd, answer := answers index }
    let attempt := call.attemptOrderSubmission side amountUsd path baseline (answers index)
    let cache := cacheAfter cache mode (answers index).reply attempt
    let stop := fun ending => ({ amountUsd, sent := [sent], baseline, cache, ending } : Round F)
    match attempt with
    | .error error => stop (.returned (.error error))
    | .ok (.accepted result _) => stop (.returned (.ok result))
    | .ok .rejected =>
      let round := submitModes side amountUsd answers modes (index + 1) baseline cache
      { round with sent := sent :: round.sent }
    | .ok (.rejectedPortfolioNegative retryAmountUsd) =>
      stop (.portfolioNegative (retryAmountUsd.filter fun value =>
        Scalar.isFinite value && decide (0.0 < value)))
    | .ok .rejectedNonPositiveQuantity => stop (.returned (.error (.nonPositiveQuantity amountUsd)))
    | .ok .ambiguousAccepted => stop (.returned (.error (.ambiguous mode)))

/-- The rounds of the call, of which the first argument says how often a sell may be tried again. -/
def submitRounds (side : OrderSide) (modes : List OrderSubmissionMode)
    (answers : Nat → SubmissionAnswer F) :
    Nat → F → Nat → Option (OrderPlacementBaseline F) → ModeCache → Placement F
  | retries, amountUsd, index, baseline, cache =>
    let round := call.submitModes side amountUsd answers modes index baseline cache
    match round.ending, retries with
    | .returned outcome, _ => { rounds := [round], outcome }
    | .portfolioNegative suggested, retries + 1 =>
      match suggested.or (reducedSellRetryAmount amountUsd) with
      | some retryAmount =>
        let rest := submitRounds side modes answers retries retryAmount (index + round.sent.length)
          round.baseline round.cache
        { rest with rounds := round :: rest.rounds }
      | none => { rounds := [round], outcome := .error (.failed amountUsd) }
    | _, _ => { rounds := [round], outcome := .error (.failed amountUsd) }

/-- The amount in cents, at least one. -/
def roundedAmount (amountUsd : F) : F :=
  Scalar.max (AmountScalar.round (amountUsd * 100.0) / 100.0) 0.01

def placeOrder (answers : Nat → SubmissionAnswer F) : Placement F :=
  match normalizeOrderSide call.side with
  | none => { rounds := [], outcome := .error (.unsupportedSide call.side) }
  | some side =>
    if Scalar.isFinite call.amountUsd = false ∨ call.amountUsd ≤ 0.0 then
      { rounds := [], outcome := .error (.invalidAmount call.amountUsd) }
    else
      let baseline :=
        if call.cache.preferred.isSome ∧ call.cache.preferred = call.cache.direct then none
        else some call.capture
      call.submitRounds side (OrderSubmissionMode.ordered call.cache.preferred) answers
        (if side = .sell then 2 else 0) (roundedAmount call.amountUsd) 0 baseline call.cache

end PlaceOrder

end Definitions

/-- All requests of a call, in order. -/
def Placement.sent {F : Type} (placement : Placement F) : List (SentOrder F) :=
  placement.rounds.flatMap (·.sent)

/-- What doubles and exact amounts have in common. -/
class LawfulAmounts (F : Type) [AmountScalar F] : Prop where
  lt_trans {a b c : F} : a < b → b < c → a < c
  lt_of_add_epsilon_lt {a b : F} : a + Scalar.epsilon < b → a < b
  pos_of_cent_le {a : F} : 0.01 ≤ a → 0.0 < a

instance : LawfulAmounts ℚ where
  lt_trans := lt_trans
  lt_of_add_epsilon_lt {a b} h := by
    have hpos : (0 : ℚ) < Scalar.epsilon := by
      change (0 : ℚ) < 1 / 2 ^ 52
      norm_num
    exact (lt_add_of_pos_right a hpos).trans h
  pos_of_cent_le h := lt_of_lt_of_le (by norm_num) h

section Placed
variable {F : Type} [AmountScalar F]

/-- The reply refuses the order: a client error, or an error that names a negative portfolio. -/
def Reply.refuses : Reply F → Bool
  | .transportError _ => false
  | .answer status body =>
    status.isClientError || (!status.isSuccess && bodyHasPortfolioNegativeRejection body)

theorem HttpStatus.isClientError_of {status : HttpStatus} (hs : status.isSuccess = false)
    (he : status.isServerError = false) : status.isClientError = true := by
  have hsettled := status.settled
  simp only [isSuccess, isServerError, isClientError, Bool.and_eq_false_iff, Bool.and_eq_true,
    decide_eq_false_iff_not, decide_eq_true_eq] at hs he ⊢
  omega

namespace PlaceOrder

/-- A success that acknowledges the order, or one without an acknowledgement after which it is seen. -/
def Accepted (call : PlaceOrder F) (side : OrderSide) (amountUsd : F) (path : String)
    (answer : SubmissionAnswer F) (result : OctobotOrderResult F) : Prop :=
  ∃ status body, answer.reply = .answer status body ∧ status.isSuccess = true ∧
    (parseOrderResultBody (call.defaults side amountUsd path) body = some result ∨
      parseOrderResultBody (call.defaults side amountUsd path) body = none ∧
        ∃ baseline, call.observed side amountUsd baseline answer.polls = some result)

/-- What a reply is, by how it is taken. -/
def Takes (call : PlaceOrder F) (side : OrderSide) (amountUsd : F) (path : String)
    (answer : SubmissionAnswer F) : Except (PlaceOrderError F) (OrderSubmissionAttempt F) → Prop
  | .ok .rejected => answer.reply.refuses = true
  | .ok (.rejectedPortfolioNegative retryAmountUsd) => answer.reply.refuses = true ∧
      ∀ amount ∈ retryAmountUsd, 0.01 ≤ amount ∧ amount + Scalar.epsilon < amountUsd
  | .ok (.accepted result _) => call.Accepted side amountUsd path answer result
  | _ => True

theorem attemptOrderSubmission_takes (call : PlaceOrder F) (side : OrderSide) (amountUsd : F)
    (path : String) (baseline : Option (OrderPlacementBaseline F)) (answer : SubmissionAnswer F) :
    call.Takes side amountUsd path answer
      (call.attemptOrderSubmission side amountUsd path baseline answer) := by
  unfold attemptOrderSubmission
  split
  · trivial
  next status body hr =>
  split
  · next hs =>
    rw [Bool.not_eq_true'] at hs
    split
    · next hn =>
      refine ⟨by simp [hr, Reply.refuses, hs, hn.2], ?_⟩
      intro amount ha
      exact retryAmountFromPortfolioNegativeRejection_some ha
    split
    · trivial
    split
    · trivial
    · next he =>
      have hclient := HttpStatus.isClientError_of hs (Bool.eq_false_iff.mpr he)
      change answer.reply.refuses = true
      simp [hr, Reply.refuses, hclient]
  · next hs =>
    have hsuccess : status.isSuccess = true := by simpa using hs
    split
    · next result hp => exact ⟨status, body, hr, hsuccess, .inl hp⟩
    · next hp =>
      split
      · next result ho => exact ⟨status, body, hr, hsuccess, .inr ⟨hp, baseline, ho⟩⟩
      · trivial

/-- What the call returns after the last request: an error, or the order that was accepted. -/
def Settles (call : PlaceOrder F) (side : OrderSide) (sent : SentOrder F)
    (outcome : Except (PlaceOrderError F) (OctobotOrderResult F)) : Prop :=
  (∃ error, outcome = .error error) ∨
    ∃ result, outcome = .ok result ∧ call.Accepted side sent.amountUsd sent.path sent.answer result

/-- What was sent in a round, by how it ends. -/
def RoundSpec (call : PlaceOrder F) (side : OrderSide) (round : Round F) : Prop :=
  match round.ending with
  | .returned outcome => ∃ before last, round.sent = before ++ [last] ∧
      (∀ sent ∈ before, sent.answer.reply.refuses = true) ∧ call.Settles side last outcome
  | .rejected => ∀ sent ∈ round.sent, sent.answer.reply.refuses = true
  | .portfolioNegative suggested => (∀ sent ∈ round.sent, sent.answer.reply.refuses = true) ∧
      ∀ amount ∈ suggested, 0.01 ≤ amount ∧ amount + Scalar.epsilon < round.amountUsd

/-- A refused request before a round leaves it a round. -/
theorem RoundSpec.cons {call : PlaceOrder F} {side : OrderSide} {round : Round F} {sent : SentOrder F}
    (h : call.RoundSpec side round) (hs : sent.answer.reply.refuses = true) :
    call.RoundSpec side { round with sent := sent :: round.sent } := by
  unfold RoundSpec at h ⊢
  dsimp only
  cases he : round.ending with
  | returned outcome =>
    rw [he] at h
    obtain ⟨before, last, hsent, hbefore, hsettles⟩ := h
    exact ⟨sent :: before, last, by rw [hsent]; rfl, List.forall_mem_cons.mpr ⟨hs, hbefore⟩, hsettles⟩
  | rejected =>
    rw [he] at h
    exact List.forall_mem_cons.mpr ⟨hs, h⟩
  | portfolioNegative suggested =>
    rw [he] at h
    exact ⟨List.forall_mem_cons.mpr ⟨hs, h.1⟩, h.2⟩

theorem submitModes_spec (call : PlaceOrder F) (side : OrderSide) (amountUsd : F)
    (answers : Nat → SubmissionAnswer F) (modes : List OrderSubmissionMode) (index : Nat)
    (baseline : Option (OrderPlacementBaseline F)) (cache : ModeCache) :
    (call.submitModes side amountUsd answers modes index baseline cache).amountUsd = amountUsd ∧
      call.RoundSpec side (call.submitModes side amountUsd answers modes index baseline cache) := by
  induction modes generalizing index baseline cache with
  | nil => exact ⟨rfl, fun _ h => nomatch h⟩
  | cons mode modes ih =>
    have hsingle : ∀ {sent : SentOrder F} {outcome}, call.Settles side sent outcome →
        ∃ before last, [sent] = before ++ [last] ∧
          (∀ sent ∈ before, sent.answer.reply.refuses = true) ∧ call.Settles side last outcome :=
      fun h => ⟨[], _, rfl, fun _ h => (List.not_mem_nil h).elim, h⟩
    have htakes := attemptOrderSubmission_takes call side amountUsd
      (buildOrderSubmission mode call.exchange call.symbol side.name amountUsd).1
      (if baseline.isNone ∧ some mode ≠ call.cache.direct then some call.capture else baseline)
      (answers index)
    rw [submitModes]
    dsimp only
    split
    · exact ⟨rfl, hsingle (.inl ⟨_, rfl⟩)⟩
    · next ha =>
      rw [ha] at htakes
      exact ⟨rfl, hsingle (.inr ⟨_, rfl, htakes⟩)⟩
    · next ha =>
      rw [ha] at htakes
      exact ⟨(ih _ _ _).1, (ih _ _ _).2.cons htakes⟩
    · next ha =>
      rw [ha] at htakes
      refine ⟨rfl, ?_, ?_⟩
      · intro sent hs
        rw [List.mem_singleton.mp hs]
        exact htakes.1
      · intro amount hamount
        exact htakes.2 amount (Option.mem_def.mpr (Option.filter_eq_some_iff.mp hamount).1)
    · exact ⟨rfl, hsingle (.inl ⟨_, rfl⟩)⟩
    · exact ⟨rfl, hsingle (.inl ⟨_, rfl⟩)⟩

/-- The requests of a round ask for its amount. -/
theorem submitModes_amount (call : PlaceOrder F) (side : OrderSide) (amountUsd : F)
    (answers : Nat → SubmissionAnswer F) (modes : List OrderSubmissionMode) (index : Nat)
    (baseline : Option (OrderPlacementBaseline F)) (cache : ModeCache) :
    ∀ sent ∈ (call.submitModes side amountUsd answers modes index baseline cache).sent,
      sent.amountUsd = amountUsd := by
  induction modes generalizing index baseline cache with
  | nil => exact fun _ h => nomatch h
  | cons mode modes ih =>
    intro sent hs
    rw [submitModes] at hs
    dsimp only at hs
    split at hs
    case h_3 =>
      rcases List.mem_cons.mp hs with rfl | hs
      · rfl
      · exact ih _ _ _ sent hs
    all_goals
      rw [List.mem_singleton.mp hs]

/-- The amounts of the rounds fall, by more than the rounding error, and stay at a cent or more. -/
def Falls (rounds : List (Round F)) : Prop :=
  (rounds.map (·.amountUsd)).IsChain fun earlier later =>
    0.01 ≤ later ∧ later + Scalar.epsilon < earlier

/-- What holds of all that a call has sent and returned. -/
structure PlacementSpec (call : PlaceOrder F) (side : OrderSide) (retries : Nat) (amountUsd : F)
    (placement : Placement F) : Prop where
  settled : ((∀ sent ∈ placement.sent, sent.answer.reply.refuses = true) ∧
      ∃ error, placement.outcome = .error error) ∨
    ∃ before last, placement.sent = before ++ [last] ∧
      (∀ sent ∈ before, sent.answer.reply.refuses = true) ∧ call.Settles side last placement.outcome
  length_le : placement.rounds.length ≤ retries + 1
  first : ∃ round rest, placement.rounds = round :: rest ∧ round.amountUsd = amountUsd
  falls : Falls placement.rounds
  amounts : ∀ round ∈ placement.rounds, ∀ sent ∈ round.sent, sent.amountUsd = round.amountUsd

/-- A call of one round. -/
theorem placementSpec_single {call : PlaceOrder F} {side : OrderSide} {retries : Nat} {round : Round F}
    {outcome : Except (PlaceOrderError F) (OctobotOrderResult F)}
    (h : ((∀ sent ∈ round.sent, sent.answer.reply.refuses = true) ∧ ∃ error, outcome = .error error) ∨
      ∃ before last, round.sent = before ++ [last] ∧
        (∀ sent ∈ before, sent.answer.reply.refuses = true) ∧ call.Settles side last outcome)
    (ha : ∀ sent ∈ round.sent, sent.amountUsd = round.amountUsd) :
    PlacementSpec call side retries round.amountUsd { rounds := [round], outcome } where
  settled := by simpa [Placement.sent] using h
  length_le := Nat.succ_le_succ (Nat.zero_le retries)
  first := ⟨round, [], rfl, rfl⟩
  falls := .singleton _
  amounts := List.forall_mem_singleton.mpr ha

/-- A round that is refused before the rest of a call. -/
theorem PlacementSpec.cons {call : PlaceOrder F} {side : OrderSide} {retries : Nat} {amountUsd : F}
    {placement : Placement F} {round : Round F} (h : PlacementSpec call side retries amountUsd placement)
    (hr : ∀ sent ∈ round.sent, sent.answer.reply.refuses = true)
    (ha : ∀ sent ∈ round.sent, sent.amountUsd = round.amountUsd)
    (hfall : 0.01 ≤ amountUsd ∧ amountUsd + Scalar.epsilon < round.amountUsd) :
    PlacementSpec call side (retries + 1) round.amountUsd
      { placement with rounds := round :: placement.rounds } where
  settled := by
    have hsent : ({ placement with rounds := round :: placement.rounds } : Placement F).sent =
        round.sent ++ placement.sent := by
      simp [Placement.sent]
    rw [hsent]
    rcases h.settled with ⟨hall, herror⟩ | ⟨before, last, hlast, hbefore, hsettles⟩
    · exact .inl ⟨List.forall_mem_append.mpr ⟨hr, hall⟩, herror⟩
    · refine .inr ⟨round.sent ++ before, last, ?_, List.forall_mem_append.mpr ⟨hr, hbefore⟩, hsettles⟩
      rw [hlast, List.append_assoc]
  length_le := Nat.succ_le_succ h.length_le
  first := ⟨round, placement.rounds, rfl, rfl⟩
  falls := by
    obtain ⟨next, rest, hrounds, hnext⟩ := h.first
    have hfalls := h.falls
    unfold Falls at hfalls ⊢
    rw [hrounds] at hfalls ⊢
    rw [List.map_cons] at hfalls
    rw [List.map_cons, List.map_cons]
    refine List.isChain_cons_cons.mpr ⟨?_, hfalls⟩
    rw [hnext]
    exact hfall
  amounts := List.forall_mem_cons.mpr ⟨ha, h.amounts⟩

theorem submitRounds_spec (call : PlaceOrder F) (side : OrderSide) (modes : List OrderSubmissionMode)
    (answers : Nat → SubmissionAnswer F) (retries : Nat) (amountUsd : F) (index : Nat)
    (baseline : Option (OrderPlacementBaseline F)) (cache : ModeCache) :
    PlacementSpec call side retries amountUsd
      (call.submitRounds side modes answers retries amountUsd index baseline cache) := by
  induction retries generalizing amountUsd index baseline cache with
  | zero =>
    obtain ⟨hamount, hspec⟩ := submitModes_spec call side amountUsd answers modes index baseline cache
    have ha := submitModes_amount call side amountUsd answers modes index baseline cache
    unfold submitRounds
    generalize call.submitModes side amountUsd answers modes index baseline cache = round
      at hamount hspec ha
    subst hamount
    unfold RoundSpec at hspec
    dsimp only
    cases he : round.ending with
    | returned outcome =>
      rw [he] at hspec
      exact placementSpec_single (.inr hspec) ha
    | rejected =>
      rw [he] at hspec
      exact placementSpec_single (.inl ⟨hspec, _, rfl⟩) ha
    | portfolioNegative suggested =>
      rw [he] at hspec
      exact placementSpec_single (.inl ⟨hspec.1, _, rfl⟩) ha
  | succ retries ih =>
    obtain ⟨hamount, hspec⟩ := submitModes_spec call side amountUsd answers modes index baseline cache
    have ha := submitModes_amount call side amountUsd answers modes index baseline cache
    unfold submitRounds
    generalize call.submitModes side amountUsd answers modes index baseline cache = round
      at hamount hspec ha
    subst hamount
    unfold RoundSpec at hspec
    dsimp only
    cases he : round.ending with
    | returned outcome =>
      rw [he] at hspec
      exact placementSpec_single (.inr hspec) ha
    | rejected =>
      rw [he] at hspec
      exact placementSpec_single (.inl ⟨hspec, _, rfl⟩) ha
    | portfolioNegative suggested =>
      rw [he] at hspec
      dsimp only
      cases hretry : suggested.or (reducedSellRetryAmount round.amountUsd) with
      | none => exact placementSpec_single (.inl ⟨hspec.1, _, rfl⟩) ha
      | some retryAmount =>
        refine (ih _ _ _ _).cons hspec.1 ha ?_
        rcases Option.or_eq_some_iff.mp hretry with h | ⟨-, h⟩
        · exact hspec.2 retryAmount h
        · exact reducedSellRetryAmount_some h

/-- The amounts of later rounds are positive and below those of all earlier ones. -/
theorem Falls.pairwise [LawfulAmounts F] {rounds : List (Round F)} (h : Falls rounds) :
    rounds.Pairwise fun earlier later => later.amountUsd < earlier.amountUsd ∧ 0.0 < later.amountUsd := by
  have hchain : rounds.IsChain fun earlier later =>
      later.amountUsd < earlier.amountUsd ∧ 0.0 < later.amountUsd := by
    refine List.IsChain.imp ?_ ((List.isChain_map _).mp h)
    intro earlier later hfall
    exact ⟨LawfulAmounts.lt_of_add_epsilon_lt hfall.2, LawfulAmounts.pos_of_cent_le hfall.1⟩
  have htrans : IsTrans (Round F) fun earlier later =>
      later.amountUsd < earlier.amountUsd ∧ 0.0 < later.amountUsd :=
    ⟨fun _ _ _ hab hbc => ⟨LawfulAmounts.lt_trans hbc.1 hab.1, hbc.2⟩⟩
  exact hchain.pairwise

/-- The requests of a call before the last one are all refused, and the last one settles it. -/
theorem placeOrder_spec (call : PlaceOrder F) (answers : Nat → SubmissionAnswer F) :
    ((call.placeOrder answers).rounds = [] ∧ ∃ error, (call.placeOrder answers).outcome = .error error) ∨
      ∃ side retries, normalizeOrderSide call.side = some side ∧ retries ≤ 2 ∧
        PlacementSpec call side retries (roundedAmount call.amountUsd) (call.placeOrder answers) := by
  unfold placeOrder
  split
  · exact .inl ⟨rfl, _, rfl⟩
  next side hside =>
  split
  · exact .inl ⟨rfl, _, rfl⟩
  · refine .inr ⟨side, _, hside, ?_, submitRounds_spec _ _ _ _ _ _ _ _ _⟩
    split <;> omega

/-- A call sends a further request only after a refusal; after any other reply it returns an error, or
the order that was acknowledged or seen. So at most one of its requests can create an order. There are at
most three rounds, and later ones ask for less. -/
theorem placeOrder_safe [LawfulAmounts F] (call : PlaceOrder F) (answers : Nat → SubmissionAnswer F) :
    (∀ before sent next after, (call.placeOrder answers).sent = before ++ sent :: next :: after →
      sent.answer.reply.refuses = true) ∧
    (∀ before sent after, (call.placeOrder answers).sent = before ++ sent :: after →
      sent.answer.reply.refuses = false →
        after = [] ∧ ∃ side, normalizeOrderSide call.side = some side ∧
          call.Settles side sent (call.placeOrder answers).outcome) ∧
    (∀ creates : SentOrder F → Bool, (∀ sent ∈ (call.placeOrder answers).sent,
      sent.answer.reply.refuses = true → creates sent = false) →
        (call.placeOrder answers).sent.countP creates ≤ 1) ∧
    (call.placeOrder answers).rounds.length ≤ 3 ∧
    (call.placeOrder answers).rounds.Pairwise (fun earlier later =>
      later.amountUsd < earlier.amountUsd ∧ 0.0 < later.amountUsd) ∧
    ∀ round ∈ (call.placeOrder answers).rounds, (∀ sent ∈ round.sent, sent.amountUsd = round.amountUsd) ∧
      (round.amountUsd = roundedAmount call.amountUsd ∨ round.amountUsd < roundedAmount call.amountUsd) := by
  rcases placeOrder_spec call answers with ⟨hnone, -⟩ | ⟨side, retries, hside, hretries, hspec⟩
  · have hsent : (call.placeOrder answers).sent = [] := by
      rw [Placement.sent, hnone]
      rfl
    rw [hsent, hnone]
    refine ⟨?_, ?_, fun creates _ => Nat.zero_le _, Nat.zero_le _, .nil, fun _ h => nomatch h⟩
    · intro before sent next after h
      cases before <;> cases h
    · intro before sent after h
      cases before <;> cases h
  · have hpairwise := hspec.falls.pairwise
    have hlength := hspec.length_le
    refine ⟨?_, ?_, ?_, by omega, hpairwise, ?_⟩
    · intro before sent next after h
      rcases hspec.settled with ⟨hall, -⟩ | ⟨early, last, hlast, hearly, -⟩
      · exact hall sent (h ▸ by simp)
      · rcases split_snoc (h.symm.trans hlast) with ⟨hnil, -⟩ | hmem
        · cases hnil
        · exact hearly sent hmem
    · intro before sent after h hrefuses
      rcases hspec.settled with ⟨hall, -⟩ | ⟨early, last, hlast, hearly, hsettles⟩
      · rw [hall sent (h ▸ by simp)] at hrefuses
        cases hrefuses
      · rcases split_snoc (h.symm.trans hlast) with ⟨rfl, rfl⟩ | hmem
        · exact ⟨rfl, side, hside, hsettles⟩
        · rw [hearly sent hmem] at hrefuses
          cases hrefuses
    · intro creates hcreates
      rcases hspec.settled with ⟨hall, -⟩ | ⟨early, last, hlast, hearly, -⟩
      · have hzero : (call.placeOrder answers).sent.countP creates = 0 := by
          refine List.countP_eq_zero.mpr fun sent hs => ?_
          rw [hcreates sent hs (hall sent hs)]
          exact Bool.false_ne_true
        omega
      · have hzero : early.countP creates = 0 := by
          refine List.countP_eq_zero.mpr fun sent hs => ?_
          rw [hcreates sent (hlast ▸ List.mem_append_left _ hs) (hearly sent hs)]
          exact Bool.false_ne_true
        rw [hlast, List.countP_append, hzero, List.countP_singleton]
        split <;> omega
    · intro round hr
      refine ⟨hspec.amounts round hr, ?_⟩
      obtain ⟨first, rest, hrounds, hfirst⟩ := hspec.first
      rw [hrounds] at hr hpairwise
      rcases List.mem_cons.mp hr with rfl | hr
      · exact .inl hfirst
      · rw [← hfirst]
        exact .inr (List.rel_of_pairwise_cons hpairwise hr).1

section Sample

def buyOrder : PlaceOrder ℚ :=
  { exchange := "binance", symbol := "BTC/USDT", side := "buy", amountUsd := 10
    cache := { preferred := none, direct := none }
    capture := captureOrderBaseline 100 (some []) (some [])
    requestStartedAt := 100, captures := fun _ => none }

/-- A success that says nothing, after which a poll lists a new open order. -/
def silentSuccess : SubmissionAnswer ℚ :=
  { reply := .answer .ok .null
    polls := fun _ =>
      { openOrders := some [{ id := "o-1", exchange := "binance", symbol := "BTC/USDT", side := "buy"
                              amount := 10, price := none, status := "open", timestamp := none }]
        trades := some [], now := 101 } }

theorem buyOrder_safe : (buyOrder.placeOrder fun _ => silentSuccess).rounds.length ≤ 3 :=
  (placeOrder_safe buyOrder fun _ => silentSuccess).2.2.2.1

/-- The only request is not acknowledged, and yet an order is returned. -/
theorem silentSuccess_accepted :
    (buyOrder.placeOrder fun _ => silentSuccess).sent.length = 1 ∧
      (∀ defaults, parseOrderResultBody defaults (.null : Json ℚ) = none) ∧
      ¬ ∃ error, (buyOrder.placeOrder fun _ => silentSuccess).outcome = .error error := by
  have hok : (buyOrder.placeOrder fun _ => silentSuccess).outcome.isOk = true := by
    decide +kernel
  refine ⟨by decide +kernel, fun _ => rfl, ?_⟩
  rintro ⟨error, he⟩
  rw [he] at hok
  cases hok

end Sample

end PlaceOrder

end Placed

end Gail.Trading
