import Gail.Trading.OrderSideEffects

/-! What the reply to an order request says: an acknowledgement of the order, or why it was refused and
how much less to ask for. -/
namespace Gail.Trading
open Gail.Library

/-- The operations on amounts beside those of the controller. -/
class AmountScalar (F : Type) extends Scalar F where
  round : F → F
  floor : F → F
  /-- `str::parse`. -/
  parse : String → Option F

/-- An unsigned number, of at least one digit. -/
def parseDigits (digits : List Char) : Option Nat :=
  if digits.isEmpty || !digits.all Char.isDigit then none else some (Nat.ofDigitChars 10 digits 0)

def splitSign : List Char → Bool × List Char
  | '-' :: rest => (true, rest)
  | '+' :: rest => (false, rest)
  | chars => (false, chars)

/-- Sign, digits and power of ten of a decimal number. -/
def decimalParts (text : String) : Option (Bool × Nat × Int) :=
  let (negative, chars) := splitSign text.toList
  let (mantissa, tail) := chars.span fun c => c != 'e' && c != 'E'
  let exponent : Option Int :=
    match tail with
    | [] => some 0
    | _ :: digits =>
      let (negative, digits) := splitSign digits
      (parseDigits digits).map fun value => if negative then -(value : Int) else value
  match exponent, mantissa.splitOn '.' with
  | some exponent, [whole] => (parseDigits whole).map fun value => (negative, value, exponent)
  | some exponent, [whole, fraction] =>
    (parseDigits (whole ++ fraction)).map fun value => (negative, value, exponent - fraction.length)
  | _, _ => none

def ofDecimal {F : Type} [OfScientific F] [Neg F] (negative : Bool) (digits : Nat) (exponent : Int) : F :=
  let value : F := OfScientific.ofScientific digits (decide (exponent < 0)) exponent.natAbs
  if negative then -value else value

instance : AmountScalar Float where
  round := Float.round
  floor := Float.floor
  parse text :=
    match decimalParts text with
    | some (negative, digits, exponent) => some (ofDecimal negative digits exponent)
    | none =>
      let (negative, word) := splitSign (toAsciiLowercase text).toList
      if String.ofList word ∈ ["inf", "infinity"] then some (if negative then -1.0 / 0.0 else 1.0 / 0.0)
      else if String.ofList word = "nan" then some (0.0 / 0.0)
      else none

instance : AmountScalar ℚ where
  round x := if x < 0 then -((-x + 1 / 2).floor : ℚ) else ((x + 1 / 2).floor : ℚ)
  floor x := x.floor
  parse text := (decimalParts text).map fun (negative, digits, exponent) =>
    ofDecimal negative digits exponent

/-- `serde_json::Value`. -/
inductive Json (F : Type) where
  | null
  | bool (value : Bool)
  | number (value : F)
  | string (text : String)
  | array (items : List (Json F))
  | object (members : List (String × Json F))

section Messages
variable {F : Type}

/-- `message` and the other members that may hold it. -/
def messageKeys : List String := ["message", "error", "detail", "details", "reason"]

mutual

def extractAttemptMessage : Json F → Option String
  | .string text => some text
  | .array items => extractFromItems items
  | .object members =>
    let messages := extractFromMembers members
    messageKeys.findSome? fun key =>
      (messages.lookup key).join.filter fun message => !(trim message).isEmpty
  | _ => none

def extractFromItems : List (Json F) → Option String
  | [] => none
  | item :: items => (extractAttemptMessage item).or (extractFromItems items)

/-- The message under each member of an object. -/
def extractFromMembers : List (String × Json F) → List (String × Option String)
  | [] => []
  | (key, value) :: members => (key, extractAttemptMessage value) :: extractFromMembers members

end

def bodyHasPortfolioNegativeRejection (body : Json F) : Bool :=
  (extractAttemptMessage body).any fun message =>
    let lowered := toAsciiLowercase message
    containsText lowered "portfolionegativevalueerror" ||
      (containsText lowered "trying to update" && containsText lowered "quantity was")

def bodyHasNonPositiveQuantityRejection (body : Json F) : Bool :=
  (extractAttemptMessage body).any fun message =>
    let lowered := toAsciiLowercase message
    containsText lowered "order quantity became non-positive after market adaptation" ||
      (containsText lowered "quantity became non-positive" && containsText lowered "market adaptation")

end Messages

section Amounts
variable {F : Type} [AmountScalar F]

def floorUsdToCents (value : F) : F :=
  if Scalar.isFinite value then AmountScalar.floor (Scalar.max value 0.0 * 100.0) / 100.0 else 0.0

/-- A smaller amount, of a cent at least. -/
def smallerAmount (candidate current : F) : Option F :=
  if 0.01 ≤ candidate ∧ candidate + Scalar.epsilon < current then some candidate else none

def reducedSellRetryAmount (currentAmountUsd : F) : Option F :=
  if Scalar.isFinite currentAmountUsd = false ∨ currentAmountUsd ≤ 0.01 then none
  else smallerAmount (AmountScalar.round (currentAmountUsd * 0.95 * 100.0) / 100.0) currentAmountUsd

/-- The captures are those of the regular expression for "trying to update .. with .. but quantity
was ..": the attempted and the available quantity. -/
def retryAmountFromPortfolioNegativeMessage (captures : String → Option (String × String))
    (message : String) (currentAmountUsd : F) : Option F := do
  let (attempted, available) ← captures message
  let attemptedQuantity : F := Scalar.abs (← AmountScalar.parse attempted)
  let availableQuantity : F := Scalar.abs (← AmountScalar.parse available)
  if Scalar.isFinite attemptedQuantity = false ∨ Scalar.isFinite availableQuantity = false ∨
      attemptedQuantity ≤ 0.0 ∨ availableQuantity ≤ 0.0 then none
  else if attemptedQuantity ≤ availableQuantity + Scalar.epsilon then none
  else
    smallerAmount
      (floorUsdToCents (currentAmountUsd * (availableQuantity / attemptedQuantity) * 0.995))
      currentAmountUsd

def retryAmountFromPortfolioNegativeRejection (captures : String → Option (String × String))
    (body : Json F) (currentAmountUsd : F) : Option F :=
  ((extractAttemptMessage body).bind fun message =>
    retryAmountFromPortfolioNegativeMessage captures message currentAmountUsd).or
    (reducedSellRetryAmount currentAmountUsd)

theorem smallerAmount_some {candidate current amount : F} (h : smallerAmount candidate current = some amount) :
    0.01 ≤ amount ∧ amount + Scalar.epsilon < current := by
  unfold smallerAmount at h
  split at h
  · next hcond =>
    cases h
    exact hcond
  · cases h

theorem reducedSellRetryAmount_some {current amount : F} (h : reducedSellRetryAmount current = some amount) :
    0.01 ≤ amount ∧ amount + Scalar.epsilon < current := by
  unfold reducedSellRetryAmount at h
  split at h
  · cases h
  · exact smallerAmount_some h

/-- Whatever a reply says, the amount to retry with is smaller. -/
theorem retryAmountFromPortfolioNegativeRejection_some {captures : String → Option (String × String)}
    {body : Json F} {current amount : F}
    (h : retryAmountFromPortfolioNegativeRejection captures body current = some amount) :
    0.01 ≤ amount ∧ amount + Scalar.epsilon < current := by
  rcases Option.or_eq_some_iff.mp h with h | ⟨-, h⟩
  · obtain ⟨message, -, h⟩ := Option.bind_eq_some_iff.mp h
    unfold retryAmountFromPortfolioNegativeMessage at h
    obtain ⟨⟨attempted, available⟩, -, h⟩ := Option.bind_eq_some_iff.mp h
    obtain ⟨attemptedQuantity, -, h⟩ := Option.bind_eq_some_iff.mp h
    obtain ⟨availableQuantity, -, h⟩ := Option.bind_eq_some_iff.mp h
    dsimp only at h
    split at h
    · cases h
    split at h
    · cases h
    · exact smallerAmount_some h
  · exact reducedSellRetryAmount_some h

end Amounts

section Acknowledgement
variable {F : Type} [AmountScalar F]

/-- What an acknowledgement takes from the request when it does not say it. -/
structure ResultDefaults (F : Type) where
  symbol : String
  side : String
  amount : F
  sourceHint : String

/-- The members of an object that may hold the order. -/
def nestedResultKeys : List String :=
  ["order", "result", "data", "created_order", "created_orders", "payload"]

/-- The first of the members that is a text, trimmed and not empty. -/
def orderResultStringField (members : List (String × Json F)) (keys : List String) : Option String :=
  keys.findSome? fun key =>
    match members.lookup key with
    | some (.string text) => some (trim text) |>.filter fun text => !text.isEmpty
    | _ => none

/-- The first of the members that is a number or the text of one. -/
def orderResultNumericField (members : List (String × Json F)) (keys : List String) : Option F :=
  keys.findSome? fun key =>
    match members.lookup key with
    | some (.number value) => some value
    | some (.string text) => AmountScalar.parse (trim text)
    | _ => none

/-- The order that the members of an object describe themselves. -/
def ownOrderResult (defaults : ResultDefaults F) (members : List (String × Json F)) :
    Option (OctobotOrderResult F) :=
  (orderResultStringField members ["order_id", "id", "exchange_order_id"]).map fun orderId =>
    { orderId := .given orderId
      symbol := ((orderResultStringField members ["symbol", "pair", "market"]).map fun value =>
        value.map fun c => if c = '|' then '/' else c).getD defaults.symbol
      side := (((orderResultStringField members ["side", "order_side", "type"]).bind
        normalizeOrderSide).map OrderSide.name).getD defaults.side
      amount := Scalar.max ((orderResultNumericField members
        ["amount", "quantity", "size", "cost", "amount_usd"]).getD defaults.amount) 0.0
      price := orderResultNumericField members ["price", "avg_price", "average_price", "filled_price"]
      status := (orderResultStringField members ["status", "state", "result"]).getD
        ("submitted via " ++ defaults.sourceHint) }

def Json.isArray : Json F → Bool
  | .array _ => true
  | _ => false

mutual

/-- The order that a body acknowledges. -/
def parseOrderResultBody (defaults : ResultDefaults F) : Json F → Option (OctobotOrderResult F)
  | .array items => parseOrderResultItems defaults items
  | .object members =>
    let parsed := parseOrderResultMembers defaults members
    let nested := nestedResultKeys.findSome? fun key => (parsed.lookup key).join
    let orders := if (members.lookup "orders").any Json.isArray then (parsed.lookup "orders").join else none
    (nested.or orders).or (ownOrderResult defaults members)
  | _ => none

def parseOrderResultItems (defaults : ResultDefaults F) : List (Json F) → Option (OctobotOrderResult F)
  | [] => none
  | item :: items => (parseOrderResultBody defaults item).or (parseOrderResultItems defaults items)

def parseOrderResultMembers (defaults : ResultDefaults F) :
    List (String × Json F) → List (String × Option (OctobotOrderResult F))
  | [] => []
  | (key, value) :: members =>
    (key, parseOrderResultBody defaults value) :: parseOrderResultMembers defaults members

end

end Acknowledgement

end Gail.Trading
