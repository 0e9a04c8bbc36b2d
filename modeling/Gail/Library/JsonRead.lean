import Gail.Library.JsonCodec

/-! What is read of a value of JSON whose shape is not known, by names and by pointers. -/
namespace Gail.Library.Json
variable {F : Type} [JsonNumber F]

/-- The member of an object. -/
def get (json : Json F) (name : String) : Option (Json F) :=
  match json with
  | .object members => members.lookup name
  | _ => none

def asStr : Json F → Option String
  | .text value => some value
  | _ => none

def asF64 : Json F → Option F
  | .integer value => some (JsonNumber.ofInteger value)
  | .number value _ => some value
  | _ => none

def asU64 : Json F → Option Nat
  | .integer (.ofNat value) => if value < 2 ^ 64 then some value else none
  | _ => none

/-- The member, where it is a number. -/
def getF64 (json : Json F) (name : String) : Option F := (json.get name).bind asF64

def getU64 (json : Json F) (name : String) : Option Nat := (json.get name).bind asU64

section Pointers

/-- `str::replace` of two characters by one. -/
def replacePair (first second by_ : Char) : List Char → List Char
  | c :: d :: rest =>
    if c = first ∧ d = second then by_ :: replacePair first second by_ rest
    else c :: replacePair first second by_ (d :: rest)
  | rest => rest

/-- The place that a token names in an array: decimal digits without a sign and without a zero before them. -/
def parseIndex (token : List Char) : Option Nat :=
  if token.isEmpty || !token.all Char.isDigit || (token.head? = some '0' ∧ token.length ≠ 1) then none
  else some (Nat.ofDigitChars 10 token 0)

def step (json : Json F) (token : List Char) : Option (Json F) :=
  match json with
  | .object members => members.lookup (String.ofList token)
  | .array items => (parseIndex token).bind (items[·]?)
  | _ => none

/-- `Value::pointer`. -/
def pointer (json : Json F) (path : String) : Option (Json F) :=
  match path.toList with
  | [] => some json
  | '/' :: path =>
    ((path.splitOn '/').map fun token => replacePair '~' '0' '~' (replacePair '~' '1' '/' token)).foldlM step json
  | _ => none

end Pointers

end Gail.Library.Json
