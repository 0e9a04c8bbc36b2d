import Gail.Library.TextSearch
import Gail.Trading.OrderReplies

/-! Tool calls that a model has written into its text: three notations and a dozen shapes of objects
are read as a call of one of the tools that the request lists. -/
namespace Gail.Gateway
open Gail.Library
open Gail.Trading (Json)

/-- The conversions between JSON and text, which `serde_json` provides. -/
structure SerdeJson (N : Type) where
  fromStr : String → Option (Json N)
  toString : Json N → String

section Values
variable {N : Type}

def asStr : Json N → Option String
  | .string text => some text
  | _ => none

def asArray : Json N → Option (List (Json N))
  | .array items => some items
  | _ => none

def asObject : Json N → Option (List (String × Json N))
  | .object members => some members
  | _ => none

/-- `Value::get` of a key. -/
def member (key : String) (value : Json N) : Option (Json N) :=
  (asObject value).bind (·.lookup key)

def hasKey (key : String) (members : List (String × Json N)) : Bool := (members.lookup key).isSome

/-- `Map::insert`; the members are sorted by their keys. -/
def insertMember (key : String) (value : Json N) :
    List (String × Json N) → List (String × Json N)
  | [] => [(key, value)]
  | (other, old) :: members =>
    if key = other then (key, value) :: members
    else if key < other then (key, value) :: (other, old) :: members
    else (other, old) :: insertMember key value members

/-- `Map::entry` with `or_insert`. -/
def insertIfMissing (key : String) (value : Json N) (members : List (String × Json N)) :
    List (String × Json N) :=
  if hasKey key members then members else insertMember key value members

end Values

/-! The tools of a request. -/

structure OpenAIToolContext where
  toolNames : List String
  deriving DecidableEq

section Tools
variable {N : Type}

def openaiToolName (tool : Json N) : Option String :=
  ((((member "function" tool).bind (member "name")).bind asStr).or
      ((member "name" tool).bind asStr)).bind fun name =>
    if (trim name).isEmpty then none else some (trim name)

namespace OpenAIToolContext

def fromTools (tools : Option (Json N)) : Option OpenAIToolContext :=
  let toolNames := ((tools.bind asArray).map fun items => items.filterMap openaiToolName).getD []
  if toolNames.isEmpty then none else some { toolNames }

def contains (context : OpenAIToolContext) (name : String) : Bool :=
  context.toolNames.any (· == name)

def firstName (context : OpenAIToolContext) : Option String := context.toolNames.head?

end OpenAIToolContext
end Tools

/-! The notations of a call in text. -/

section Notations
variable {N : Type}

/-- The object that the notations are turned into. -/
def namedCall (toolName : List Char) (arguments : List (String × Json N)) : Json N :=
  .object [("arguments", .object arguments), ("tool_name", .string (String.ofList toolName))]

def extractXmlAttr (tag : List Char) (name : String) : Option (List Char) := do
  let (_, rest) ← splitOnce (name.toList ++ "=\"".toList) tag
  let (value, _) ← splitOnce "\"".toList rest
  return value

/-- The parameters of an invocation. A tag that does not end, or has no name, makes the whole
invocation unreadable. -/
def invokeParameters (cursor : List Char) (arguments : List (String × Json N)) :
    Option (List (String × Json N)) :=
  match hp : splitOnce "<parameter".toList cursor with
  | none => some arguments
  | some (_, rest) =>
    match ht : splitOnce ">".toList rest with
    | none => none
    | some (tag, body) =>
      match extractXmlAttr ("<parameter".toList ++ tag ++ ">".toList) "name",
          hv : splitOnce "</parameter>".toList body with
      | some name, some (value, cursor) =>
        have := splitOnce_length hp
        have := splitOnce_length ht
        have := splitOnce_length hv
        invokeParameters cursor
          (insertMember (String.ofList name) (.string (String.ofList (trimChars value))) arguments)
      | _, _ => none
termination_by cursor.length
decreasing_by
  have hlong : "</parameter>".toList.length = 12 := rfl
  omega

/-- `<invoke name="tool"><parameter name="key">value</parameter></invoke>`. -/
def extractMinimaxToolCallValue (text : List Char) : Option (Json N) := do
  let (_, rest) ← splitOnce "<invoke".toList text
  let (tag, rest) ← splitOnce ">".toList rest
  let toolName ← extractXmlAttr ("<invoke".toList ++ tag ++ ">".toList) "name"
  let (body, _) ← splitOnce "</invoke>".toList rest
  let arguments ← invokeParameters body []
  return namedCall toolName arguments

/-- `name => value` or `name => "value"`. -/
def extractArrowField (text : List Char) (name : String) : Option (List Char) := do
  let (_, rest) ← splitOnce (name.toList ++ " =>".toList) text
  let rest := trimStart rest
  match stripPrefix "\"".toList rest with
  | some stripped =>
    let (value, _) ← splitOnce "\"".toList stripped
    return value
  | none =>
    let value := trimChars (rest.takeWhile fun c => c != ',' && c != '\x7d')
    if value.isEmpty then none else some value

/-- `name => {..}`, up to the last brace. -/
def extractBracedArrowField (text : List Char) (name : String) : Option (List Char) := do
  let (_, rest) ← splitOnce (name.toList ++ " =>".toList) text
  let (_, inner) ← splitOnce "\x7b".toList (trimStart rest)
  let value := inner.rdropWhile (· != '\x7d')
  if value.isEmpty then none else some (trimChars value.dropLast)

/-- `--name value` for each pair of words. -/
def extractCliStyleArgs : List (List Char) → List (String × String)
  | [] => []
  | [_] => []
  | token :: value :: tokens =>
    match stripPrefix "--".toList token with
    | none => extractCliStyleArgs (value :: tokens)
    | some name =>
      (String.ofList (trimMatches (fun c => c == ',' || c == '\x7d') name),
          String.ofList (trimMatches (fun c => c == '"' || c == ',' || c == '\x7d') value)) ::
        extractCliStyleArgs tokens

/-- `trim_start_matches("--")`. -/
def trimStartDashes : List Char → List Char
  | '-' :: '-' :: rest => trimStartDashes rest
  | text => text

/-- `name => value` for each part between commas. -/
def extractArrowArgs (text : List Char) : List (String × String) :=
  (text.splitOn ',').filterMap fun part =>
    (splitOnce "=>".toList part).bind fun (name, value) =>
      let quoted := fun c => c == '"' || c == '\x7b' || c == '\x7d'
      let name := trimMatches quoted (trimStartDashes (trimChars name))
      let value := trimMatches quoted (trimChars value)
      if name.isEmpty || value.isEmpty then none else some (String.ofList name, String.ofList value)

/-- `[TOOL_CALL]{tool => "name", args => {--key value}}[/TOOL_CALL]`. -/
def extractBracketToolCallValue (text : List Char) : Option (Json N) := do
  let (_, rest) ← splitOnce "[TOOL_CALL]".toList text
  let (body, _) ← splitOnce "[/TOOL_CALL]".toList rest
  let body := trimChars body
  let toolName ← extractArrowField body "tool"
  let arguments :=
    match extractBracedArrowField body "args" with
    | none => []
    | some argsBody =>
      let flags := (extractCliStyleArgs (splitWhitespace argsBody)).foldl
        (fun arguments (name, value) => insertMember name (.string value) arguments) []
      (extractArrowArgs argsBody).foldl
        (fun arguments (name, value) => insertIfMissing name (.string value) arguments) flags
  return namedCall toolName arguments

def extractToolCallValue (text : String) : Option (Json N) :=
  (extractMinimaxToolCallValue text.toList).or (extractBracketToolCallValue text.toList)

/-- The whole text, or what stands between its first opening and its last closing bracket. -/
def extractJsonValue (serde : SerdeJson N) (text : String) : Option (Json N) :=
  let trimmed := trim text
  (serde.fromStr trimmed).or <|
    let inner := (trimmed.toList.dropWhile fun c => c != '\x7b' && c != '[').rdropWhile
      fun c => c != '\x7d' && c != ']'
    if inner.isEmpty then none else serde.fromStr (String.ofList inner)

end Notations

/-! From an object to a call. -/

section Calls
variable {N : Type}

/-- The shapes after `tool_calls`: an object without a name is told by its keys. -/
def callByKeys (context : OpenAIToolContext) (object : List (String × Json N)) :
    Option (String × Json N) :=
  if object.isEmpty && context.contains "finish" then some ("finish", .object [])
  else if (hasKey "team_name" object || hasKey "current_results" object) && context.contains "finish" then
    some ("finish", .object [])
  else if hasKey "agent_name" object && context.contains "run_agent" then
    some ("run_agent", .object object)
  else if (hasKey "debator_agent_names" object || hasKey "judge_agent_name" object) &&
      context.contains "run_debate" then some ("run_debate", .object object)
  else
    context.firstName.bind fun firstName =>
      if context.toolNames.length = 1 then some (firstName, .object object) else none

/-- The shapes before `tool_calls`: an object that names its tool. -/
def callByName (object : List (String × Json N)) : Option (String × Json N) :=
  match (object.lookup "tool_name").bind asStr with
  | some toolName => some (toolName, (object.lookup "arguments").getD (.object []))
  | none =>
    match (object.lookup "function").bind asObject |>.bind fun function =>
        ((function.lookup "name").bind asStr).map fun toolName => (function, toolName) with
    | some (function, toolName) =>
      some (toolName,
        ((function.lookup "arguments").or (object.lookup "arguments")).getD (.object []))
    | none =>
      ((object.lookup "name").bind asStr).map fun toolName =>
        (toolName, ((object.lookup "parameters").or (object.lookup "arguments")).getD (.object []))

mutual

/-- `tool_call_from_object`, of a value that is an object. -/
def toolCallFromValue (context : OpenAIToolContext) : Json N → Option (String × Json N)
  | .object members =>
    match callByName members with
    | some call => some call
    | none => (nestedCall context members).getD (callByKeys context members)
  | _ => none

/-- What the first object under `tool_calls` is read as, when there is one. -/
def nestedCall (context : OpenAIToolContext) :
    List (String × Json N) → Option (Option (String × Json N))
  | [] => none
  | (key, value) :: members =>
    if key = "tool_calls" then firstCall context value else nestedCall context members

def firstCall (context : OpenAIToolContext) : Json N → Option (Option (String × Json N))
  | .array (.object first :: _) => some (toolCallFromValue context (.object first))
  | _ => none

end

def toolCallFromObject (object : List (String × Json N)) (context : OpenAIToolContext) :
    Option (String × Json N) :=
  toolCallFromValue context (.object object)

/-- The call that a text is read as. -/
def readCall (serde : SerdeJson N) (text : String) (context : OpenAIToolContext) :
    Option (String × Json N) :=
  match (extractToolCallValue text).or (extractJsonValue serde text) with
  | some (.object object) => toolCallFromObject object context
  | _ =>
    if containsText text "<finish>" || containsText text "</finish>" then some ("finish", .object [])
    else none

/-- The arguments of a call, as an object. -/
def callArguments (serde : SerdeJson N) : Json N → Json N
  | .object members => .object members
  | .string raw =>
    match serde.fromStr raw with
    | some (.object members) => .object members
    | _ => .object []
  | .null => .object []
  | value => .object [("value", value)]

def sanitizeOpenaiIdFragment (value : String) : String :=
  String.ofList (value.toList.filter fun c => c.isAlphanum || c == '_' || c == '-')

def synthesizeOpenaiToolCall (serde : SerdeJson N) (requestId text : String)
    (context : OpenAIToolContext) : Option (Json N) :=
  (readCall serde text context).bind fun (toolName, arguments) =>
    if context.contains toolName then
      some (.object
        [("id", .string ("call_" ++ sanitizeOpenaiIdFragment requestId ++ "_0")),
          ("type", .string "function"),
          ("function", .object
            [("name", .string toolName),
              ("arguments", .string (serde.toString (callArguments serde arguments)))])])
    else none

/-- The text is a call of a tool that the request lists. -/
def CallsListedTool (serde : SerdeJson N) (text : String) (context : OpenAIToolContext) : Prop :=
  ∃ call, readCall serde text context = some call ∧ call.1 ∈ context.toolNames

theorem contains_iff {context : OpenAIToolContext} {name : String} :
    context.contains name = true ↔ name ∈ context.toolNames := by
  rw [OpenAIToolContext.contains, List.any_eq_true]
  constructor
  · rintro ⟨tool, hm, he⟩
    rwa [← beq_iff_eq.mp he]
  · intro hm
    exact ⟨name, hm, beq_self_eq_true name⟩

/-- A call is synthesized exactly from the texts that call a listed tool. -/
theorem synthesizeOpenaiToolCall_isSome_iff {serde : SerdeJson N} {requestId text : String}
    {context : OpenAIToolContext} :
    (synthesizeOpenaiToolCall serde requestId text context).isSome ↔
      CallsListedTool serde text context := by
  unfold synthesizeOpenaiToolCall CallsListedTool
  cases readCall serde text context with
  | none => simp
  | some call =>
    simp only [Option.bind_some, Option.some.injEq, exists_eq_left', ← contains_iff]
    split
    · next hc => simp [hc]
    · next hc => simp [hc]

end Calls
end Gail.Gateway
