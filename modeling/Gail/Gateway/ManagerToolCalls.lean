import Gail.Gateway.ToolCalls

/-! The tool calls of a manager, which every notation and layout is brought into one form of, and when that form
is the call that is synthesized from the same text. -/
namespace Gail.Gateway
open Gail.Library
open Gail.Trading (Json)
variable {N : Type}

/-- `Map::remove`. -/
def withoutMember (key : String) (members : List (String × Json N)) : List (String × Json N) :=
  members.filter fun member => member.1 != key

/-- The tool that an object is a call of, and what is left of the object when its name was looked for. -/
def managerToolName (object : List (String × Json N)) : Option (String × List (String × Json N)) :=
  match (object.lookup "tool_name").bind asStr with
  | some toolName => some (toolName, withoutMember "tool_name" object)
  | none =>
    let object := withoutMember "tool_name" object
    match (object.lookup "name").bind asStr with
    | some toolName => some (toolName, withoutMember "name" object)
    | none =>
      let object := withoutMember "name" object
      if hasKey "agent_name" object then some ("run_agent", object)
      else if hasKey "debator_agent_names" object || hasKey "judge_agent_name" object then
        some ("run_debate", object)
      else none

/-- An object written as text, or an empty one. -/
def textMembers (serde : SerdeJson N) (raw : String) : List (String × Json N) :=
  match serde.fromStr raw with
  | some (.object members) => members
  | _ => []

/-- The arguments before they are unwrapped. Where none are given, what is left of the object. -/
def managerArguments (serde : SerdeJson N) (object : List (String × Json N)) : List (String × Json N) :=
  match object.lookup "arguments" with
  | some (.object arguments) => arguments
  | some (.string raw) => textMembers serde raw
  | some .null | none => withoutMember "arguments" object
  | some value => [("value", value)]

/-- What stands under `parameters` if that is an object, and whatever stands under `value` alone. -/
def unwrapArguments (arguments : List (String × Json N)) : Json N :=
  match arguments.lookup "parameters" with
  | some (.object parameters) => .object parameters
  | some _ => .object (withoutMember "parameters" arguments)
  | none =>
    match arguments with
    | [("value", value)] => value
    | _ => .object arguments

/-- An object with a text under `tool_name` and an object under `arguments`. -/
def isManagerCall (object : List (String × Json N)) : Bool :=
  ((object.lookup "tool_name").bind asStr).isSome && ((object.lookup "arguments").bind asObject).isSome

def callOfObject (serde : SerdeJson N) (object : List (String × Json N)) : Option (String × Json N) :=
  (managerToolName object).map fun (toolName, object) =>
    (toolName, unwrapArguments (managerArguments serde object))

/-- The name and the arguments that `normalize_manager_tool_call_text` writes. -/
def managerToolCall (serde : SerdeJson N) (text : String) : Option (String × Json N) :=
  match extractToolCallValue text with
  | some (.object object) => callOfObject serde object
  | some _ => none
  | none =>
    match extractJsonValue serde text with
    | some (.object object) => if isManagerCall object then none else callOfObject serde object
    | _ => none

def managerCallText (serde : SerdeJson N) (toolName : String) (arguments : Json N) : String :=
  serde.toString (.object [("arguments", arguments), ("tool_name", .string toolName)])

def normalizeManagerToolCallText (serde : SerdeJson N) (text : String) : Option String :=
  (managerToolCall serde text).map fun (toolName, arguments) => managerCallText serde toolName arguments

/-- What is printed is read back as itself if it is read at all, which nesting may prevent, and an object is
printed between its braces. -/
structure SerdeJson.Lawful (serde : SerdeJson N) : Prop where
  read_print : ∀ value read, serde.fromStr (serde.toString value) = some read → read = value
  braced : ∀ members, ∃ inner,
    (serde.toString (.object members)).toList = '\x7b' :: (inner ++ ['\x7d'])

/-- The members that the arguments of a synthesized call have. -/
def argumentMembers (serde : SerdeJson N) : Json N → List (String × Json N)
  | .object members => members
  | .string raw => textMembers serde raw
  | .null => []
  | value => [("value", value)]

theorem callArguments_eq (serde : SerdeJson N) (raw : Json N) :
    callArguments serde raw = .object (argumentMembers serde raw) := by
  cases raw with
  | string raw =>
    rw [callArguments, argumentMembers, textMembers]
    cases serde.fromStr raw with
    | none => rfl
    | some value => cases value <;> rfl
  | _ => rfl

/-- The first object under `tool_calls`. -/
def firstToolCall (object : List (String × Json N)) : Option (List (String × Json N)) :=
  match object.lookup "tool_calls" with
  | some (.array (.object first :: _)) => some first
  | _ => none

theorem nestedCall_eq (context : OpenAIToolContext) (object : List (String × Json N)) :
    nestedCall context object = (firstToolCall object).map fun first => toolCallFromObject first context := by
  unfold firstToolCall
  induction object with
  | nil => rw [nestedCall]; rfl
  | cons member object ih =>
    obtain ⟨key, value⟩ := member
    rw [nestedCall, List.lookup_cons]
    by_cases hkey : key = "tool_calls"
    · rw [if_pos hkey, hkey, beq_self_eq_true]
      cases value with
      | array items =>
        cases items with
        | nil => rfl
        | cons item items => cases item <;> rfl
      | _ => rfl
    · rw [if_neg hkey, beq_eq_false_iff_ne.mpr fun he => hkey he.symm, ih]

theorem toolCallFromObject_eq (object : List (String × Json N)) (context : OpenAIToolContext) :
    toolCallFromObject object context = (callByName object).or
      (((firstToolCall object).map fun first => toolCallFromObject first context).getD
        (callByKeys context object)) := by
  rw [toolCallFromObject, toolCallFromValue, nestedCall_eq]
  cases callByName object <;> rfl

def finishKeys (object : List (String × Json N)) : Bool :=
  hasKey "team_name" object || hasKey "current_results" object

def debateKeys (object : List (String × Json N)) : Bool :=
  hasKey "debator_agent_names" object || hasKey "judge_agent_name" object

/-- Where the call of a tool stands in an object, and its arguments, for every list that has the tool: under one
of the names, or in the first of `tool_calls`, or in the keys of the object. -/
inductive Places (serde : SerdeJson N) : List (String × Json N) → String → List (String × Json N) → Prop
  | named {object : List (String × Json N)} {toolName : String} {raw : Json N}
    (hname : callByName object = some (toolName, raw)) : Places serde object toolName (argumentMembers serde raw)
  | nested {object first arguments : List (String × Json N)} {toolName : String}
    (hname : callByName object = none) (hfirst : firstToolCall object = some first)
    (hplaces : Places serde first toolName arguments) : Places serde object toolName arguments
  | finish {object : List (String × Json N)} (hname : callByName object = none)
    (hfirst : firstToolCall object = none) (hkeys : object.isEmpty = true ∨ finishKeys object = true) :
    Places serde object "finish" []
  | agent {object : List (String × Json N)} (hname : callByName object = none)
    (hfirst : firstToolCall object = none) (hfinish : finishKeys object = false)
    (hagent : hasKey "agent_name" object = true) : Places serde object "run_agent" object
  | debate {object : List (String × Json N)} (hname : callByName object = none)
    (hfirst : firstToolCall object = none) (hfinish : finishKeys object = false)
    (hagent : hasKey "agent_name" object = false) (hdebate : debateKeys object = true) :
    Places serde object "run_debate" object

theorem isEmpty_eq_false {key : String} {object : List (String × Json N)} (h : hasKey key object = true) :
    object.isEmpty = false := by
  cases object with
  | nil => cases h
  | cons member object => rfl

theorem debate_nonempty {object : List (String × Json N)} (h : debateKeys object = true) :
    object.isEmpty = false := by
  rcases Bool.or_eq_true_iff.mp h with hkey | hkey
  · exact isEmpty_eq_false hkey
  · exact isEmpty_eq_false hkey

theorem callByKeys_eq (context : OpenAIToolContext) (object : List (String × Json N)) :
    callByKeys context object =
      if (object.isEmpty || finishKeys object) && context.contains "finish" then some ("finish", .object [])
      else if hasKey "agent_name" object && context.contains "run_agent" then some ("run_agent", .object object)
      else if debateKeys object && context.contains "run_debate" then some ("run_debate", .object object)
      else context.firstName.bind fun firstName =>
        if context.toolNames.length = 1 then some (firstName, .object object) else none := by
  unfold callByKeys finishKeys debateKeys
  cases object.isEmpty <;> cases context.contains "finish" <;> simp

variable {serde : SerdeJson N} {object arguments : List (String × Json N)} {toolName : String}

/-- Every list with the tool reads the call from its place. -/
theorem Places.reads (h : Places serde object toolName arguments) {context : OpenAIToolContext}
    (hc : toolName ∈ context.toolNames) :
    ∃ raw, toolCallFromObject object context = some (toolName, raw) ∧
      argumentMembers serde raw = arguments := by
  induction h with
  | named hname =>
    rw [toolCallFromObject_eq, hname]
    exact ⟨_, rfl, rfl⟩
  | nested hname hfirst _ ih =>
    rw [toolCallFromObject_eq, hname, hfirst]
    exact ih hc
  | finish hname hfirst hkeys =>
    rw [toolCallFromObject_eq, hname, hfirst]
    refine ⟨.object [], ?_, rfl⟩
    have hkeys := Bool.or_eq_true_iff.mpr hkeys
    simp [callByKeys_eq, hkeys, contains_iff.mpr hc]
  | agent hname hfirst hfinish hagent =>
    rw [toolCallFromObject_eq, hname, hfirst]
    refine ⟨.object _, ?_, rfl⟩
    simp [callByKeys_eq, hfinish, hagent, isEmpty_eq_false hagent, contains_iff.mpr hc]
  | debate hname hfirst hfinish hagent hdebate =>
    rw [toolCallFromObject_eq, hname, hfirst]
    refine ⟨.object _, ?_, rfl⟩
    simp [callByKeys_eq, hfinish, hagent, hdebate, debate_nonempty hdebate, contains_iff.mpr hc]

theorem contains_pair {a b name : String} :
    (OpenAIToolContext.mk [a, b]).contains name = true ↔ a = name ∨ b = name := by
  simp [OpenAIToolContext.contains]

private theorem places_keys (hname : callByName object = none) (hfirst : firstToolCall object = none)
    (h : ∀ context : OpenAIToolContext, toolName ∈ context.toolNames →
      ∃ raw, callByKeys context object = some (toolName, raw) ∧ argumentMembers serde raw = arguments) :
    Places serde object toolName arguments := by
  -- A list with `finish` takes an object with its keys for that tool, and one with `run_agent` an agent.
  have hfinish (hne : toolName ≠ "finish") : finishKeys object = false := by
    by_contra hkeys
    rw [Bool.not_eq_false] at hkeys
    obtain ⟨raw, hraw, -⟩ := h ⟨["finish", toolName]⟩ (by simp)
    rw [callByKeys_eq, if_pos (by simp [hkeys, contains_pair])] at hraw
    exact hne (congrArg Prod.fst (Option.some.inj hraw)).symm
  have hagent (hne : toolName ≠ "finish") (hrun : toolName ≠ "run_agent") :
      hasKey "agent_name" object = false := by
    by_contra hkey
    rw [Bool.not_eq_false] at hkey
    obtain ⟨raw, hraw, -⟩ := h ⟨["run_agent", toolName]⟩ (by simp)
    rw [callByKeys_eq, if_neg (by simp [hfinish hne, isEmpty_eq_false hkey]),
      if_pos (by simp [hkey, contains_pair])] at hraw
    exact hrun (congrArg Prod.fst (Option.some.inj hraw)).symm
  -- A list that names the tool twice reads no object by the length of the list.
  obtain ⟨raw, hraw, hmembers⟩ := h ⟨[toolName, toolName]⟩ List.mem_cons_self
  rw [callByKeys_eq] at hraw
  split at hraw
  · rename_i hkeys
    cases hraw
    rw [← hmembers]
    exact .finish hname hfirst (Bool.or_eq_true_iff.mp (Bool.and_eq_true_iff.mp hkeys).1)
  · split at hraw
    · rename_i hkeys
      cases hraw
      rw [← hmembers]
      exact .agent hname hfirst (hfinish (by decide)) (Bool.and_eq_true_iff.mp hkeys).1
    · split at hraw
      · rename_i hkeys
        cases hraw
        rw [← hmembers]
        exact .debate hname hfirst (hfinish (by decide)) (hagent (by decide) (by decide))
          (Bool.and_eq_true_iff.mp hkeys).1
      · cases hraw

private theorem sizeOf_firstToolCall {first : List (String × Json N)} (h : firstToolCall object = some first) :
    sizeOf first < sizeOf object := by
  unfold firstToolCall at h
  split at h
  · rename_i head rest hlookup
    cases h
    obtain ⟨before, after, rfl, -⟩ := List.lookup_eq_some_iff.mp hlookup
    have hmem := List.sizeOf_lt_of_mem (List.mem_append_right before List.mem_cons_self :
      ("tool_calls", Json.array (.object first :: rest)) ∈ before ++ ("tool_calls", _) :: after)
    simp only [Prod.mk.sizeOf_spec, Gail.Trading.Json.array.sizeOf_spec, List.cons.sizeOf_spec,
      Gail.Trading.Json.object.sizeOf_spec] at hmem
    omega
  · cases h

/-- A call that every list with its tool reads in the same way stands in its place. -/
theorem places_of_reads {object arguments : List (String × Json N)}
    (h : ∀ context : OpenAIToolContext, toolName ∈ context.toolNames →
      ∃ raw, toolCallFromObject object context = some (toolName, raw) ∧ argumentMembers serde raw = arguments) :
    Places serde object toolName arguments := by
  cases hname : callByName object with
  | some call =>
    obtain ⟨raw, hraw, rfl⟩ := h ⟨[toolName]⟩ List.mem_cons_self
    rw [toolCallFromObject_eq, hname] at hraw
    cases hraw
    exact .named hname
  | none =>
    simp only [toolCallFromObject_eq object, hname, Option.none_or] at h
    cases hfirst : firstToolCall object with
    | none =>
      simp only [hfirst, Option.map_none, Option.getD_none] at h
      exact places_keys hname hfirst h
    | some first =>
      have := sizeOf_firstToolCall hfirst
      simp only [hfirst, Option.map_some, Option.getD_some] at h
      exact .nested hname hfirst (places_of_reads h)
termination_by sizeOf object

/-- What arguments are after unwrapping, where that leaves an object: as they are if they are plain. -/
inductive Unwraps : List (String × Json N) → List (String × Json N) → Prop
  | plain {arguments : List (String × Json N)} (hparameters : arguments.lookup "parameters" = none)
    (hvalue : ∀ value, arguments ≠ [("value", value)]) : Unwraps arguments arguments
  | parameters {arguments parameters : List (String × Json N)}
    (hparameters : arguments.lookup "parameters" = some (.object parameters)) : Unwraps arguments parameters
  | dropped {arguments : List (String × Json N)} {value : Json N}
    (hparameters : arguments.lookup "parameters" = some value) (hvalue : asObject value = none) :
    Unwraps arguments (withoutMember "parameters" arguments)
  | value (members : List (String × Json N)) : Unwraps [("value", .object members)] members

theorem unwrapArguments_eq_iff {members : List (String × Json N)} :
    unwrapArguments arguments = .object members ↔ Unwraps arguments members := by
  constructor
  · intro h
    unfold unwrapArguments at h
    split at h
    · rename_i hparameters
      cases h
      exact .parameters hparameters
    · rename_i value hobject hparameters
      cases h
      refine .dropped hparameters ?_
      cases value with
      | object members => exact absurd rfl (hobject members)
      | _ => rfl
    · rename_i hparameters
      split at h
      · rw [h]
        exact .value members
      · rename_i hvalue
        cases h
        exact .plain hparameters fun value he => hvalue value he
  · intro h
    unfold unwrapArguments
    cases h with
    | plain hparameters hvalue =>
      rw [hparameters]
      dsimp only
      split
      · exact absurd rfl (hvalue _)
      · rfl
    | parameters hparameters => rw [hparameters]
    | dropped hparameters hvalue =>
      rw [hparameters]
      split
      · rename_i he
        cases he
        cases hvalue
      · rfl
      · rename_i he
        cases he
    | value => rfl

/-- The object that a text is a call by, which JSON that is a call already is not. -/
def calledObject (serde : SerdeJson N) (text : String) : Option (List (String × Json N)) :=
  match extractToolCallValue text with
  | some value => asObject value
  | none => ((extractJsonValue serde text).bind asObject).filter fun object => !isManagerCall object

theorem managerToolCall_eq (serde : SerdeJson N) (text : String) :
    managerToolCall serde text = (calledObject serde text).bind (callOfObject serde) := by
  unfold managerToolCall calledObject
  cases extractToolCallValue text with
  | some value => cases value <;> rfl
  | none =>
    cases extractJsonValue serde text with
    | none => rfl
    | some value =>
      cases value with
      | object object =>
        rw [Option.bind_some, asObject, Option.filter_some]
        cases hcall : isManagerCall object with
        | true => simp [hcall]
        | false => simp [hcall]
      | _ => rfl

theorem readCall_of_calledObject {text : String} (h : calledObject serde text = some object)
    (context : OpenAIToolContext) : readCall serde text context = toolCallFromObject object context := by
  unfold calledObject at h
  unfold readCall
  split at h
  · rename_i value hvalue
    cases value with
    | object members => cases h; rw [hvalue]; rfl
    | _ => cases h
  · rename_i hnone
    rw [hnone, Option.none_or]
    obtain ⟨hobject, -⟩ := Option.filter_eq_some_iff.mp h
    obtain ⟨value, hvalue, hmembers⟩ := Option.bind_eq_some_iff.mp hobject
    cases value with
    | object members => cases hmembers; rw [hvalue]
    | _ => cases hmembers

theorem extractToolCallValue_named {text : String} {value : Json N}
    (h : extractToolCallValue text = some value) : ∃ toolName arguments, value = namedCall toolName arguments := by
  rcases Option.or_eq_some_iff.mp h with h | ⟨-, h⟩
  · unfold extractMinimaxToolCallValue at h
    simp only [Option.bind_eq_bind, Option.bind_eq_some_iff] at h
    obtain ⟨_, -, _, -, toolName, -, _, -, arguments, -, hvalue⟩ := h
    exact ⟨toolName, arguments, (Option.some.inj hvalue).symm⟩
  · unfold extractBracketToolCallValue at h
    simp only [Option.bind_eq_bind, Option.bind_eq_some_iff] at h
    obtain ⟨_, -, _, -, toolName, -, hvalue⟩ := h
    exact ⟨toolName, _, (Option.some.inj hvalue).symm⟩

/-- A text with one of the notations in it is not in normal form. -/
theorem normalizesText_of_reads {text : String} {value : Json N} (h : extractToolCallValue text = some value) :
    normalizeManagerToolCallText serde text ≠ none := by
  obtain ⟨toolName, arguments, rfl⟩ := extractToolCallValue_named h
  have hcalled : calledObject serde text =
      some [("arguments", .object arguments), ("tool_name", .string (String.ofList toolName))] := by
    rw [calledObject, h]
    rfl
  rw [normalizeManagerToolCallText, managerToolCall_eq, hcalled]
  intro hnone
  cases hnone

private theorem dropWhile_braced {p q : Char → Bool} {inner : List Char} (ho : p '\x7b' = false)
    (hc : q '\x7d' = false) :
    (('\x7b' :: (inner ++ ['\x7d'])).dropWhile p).rdropWhile q = '\x7b' :: (inner ++ ['\x7d']) := by
  rw [List.dropWhile_cons_of_neg (by simp [ho]), ← List.cons_append, List.rdropWhile_concat_neg]
  simp [hc]

/-- A printed object is read as itself, or as nothing. -/
theorem extractJsonValue_print (laws : serde.Lawful) {members : List (String × Json N)} {read : Json N}
    (h : extractJsonValue serde (serde.toString (.object members)) = some read) : read = .object members := by
  obtain ⟨inner, hinner⟩ := laws.braced members
  have htrim : trim (serde.toString (.object members)) = serde.toString (.object members) := by
    rw [trim, hinner, dropWhile_braced (by decide) (by decide), ← hinner, String.ofList_toList]
  unfold extractJsonValue at h
  rw [htrim] at h
  dsimp only at h
  rw [hinner, dropWhile_braced (by decide) (by decide), ← hinner, String.ofList_toList] at h
  rcases Option.or_eq_some_iff.mp h with h | ⟨-, h⟩
  · exact laws.read_print _ _ h
  · split at h
    · cases h
    · exact laws.read_print _ _ h

/-- The text of a call is in normal form exactly where none of the notations is found in it. -/
theorem normal_iff (laws : serde.Lawful) {members : List (String × Json N)} :
    normalizeManagerToolCallText serde (managerCallText serde toolName (.object members)) = none ↔
      (extractToolCallValue (managerCallText serde toolName (.object members)) : Option (Json N)) = none := by
  constructor
  · intro h
    cases hvalue : (extractToolCallValue (managerCallText serde toolName (.object members)) :
      Option (Json N)) with
    | none => rfl
    | some value => exact absurd h (normalizesText_of_reads hvalue)
  · intro hnone
    have hcalled : calledObject serde (managerCallText serde toolName (.object members)) = none := by
      rw [calledObject, hnone]
      cases hread : extractJsonValue serde (managerCallText serde toolName (.object members)) with
      | none => rfl
      | some read =>
        rw [extractJsonValue_print laws hread]
        rfl
    rw [normalizeManagerToolCallText, managerToolCall_eq, hcalled]
    rfl

/-- What is written of a call is an object with the arguments under an object, is in normal form, and is the call
that is synthesized from the text for every list with its tool. -/
structure NormalCall (serde : SerdeJson N) (text toolName : String) (arguments : Json N) : Prop where
  object : ∃ members, arguments = .object members
  normal : normalizeManagerToolCallText serde (managerCallText serde toolName arguments) = none
  synthesized : ∀ requestId context, toolName ∈ context.toolNames →
    (∃ raw, readCall serde text context = some (toolName, raw) ∧ callArguments serde raw = arguments) ∧
    synthesizeOpenaiToolCall serde requestId text context = some (.object
      [("id", .string ("call_" ++ sanitizeOpenaiIdFragment requestId ++ "_0")),
        ("type", .string "function"),
        ("function", .object
          [("name", .string toolName), ("arguments", .string (serde.toString arguments))])])

/-- Every call that is written for a text is in normal form. -/
def NormalizesText (serde : SerdeJson N) (text : String) : Prop :=
  ∀ toolName arguments, managerToolCall serde text = some (toolName, arguments) →
    NormalCall serde text toolName arguments

/-- The call stands in one place of the object, its arguments are what those found by the name unwrap to, and none
of the notations is found in what is written of it. -/
def KeepsCall (serde : SerdeJson N) (text : String) : Prop :=
  ∀ object ∈ calledObject serde text, ∀ toolName rest, managerToolName object = some (toolName, rest) →
    ∃ arguments, Places serde object toolName arguments ∧ Unwraps (managerArguments serde rest) arguments ∧
      (extractToolCallValue (managerCallText serde toolName (.object arguments)) : Option (Json N)) = none

theorem normalizesText_iff_keepsCall (laws : serde.Lawful) (text : String) :
    NormalizesText serde text ↔ KeepsCall serde text := by
  constructor
  · intro h object hobject toolName rest hname
    have hcall : managerToolCall serde text =
        some (toolName, unwrapArguments (managerArguments serde rest)) := by
      rw [managerToolCall_eq, Option.mem_def.mp hobject, Option.bind_some, callOfObject, hname]
      rfl
    obtain ⟨⟨members, hmembers⟩, hnormal, hsynthesized⟩ := h _ _ hcall
    rw [hmembers] at hnormal hsynthesized
    refine ⟨members, ?_, unwrapArguments_eq_iff.mp hmembers, (normal_iff laws).mp hnormal⟩
    apply places_of_reads
    intro context hcontext
    obtain ⟨⟨raw, hraw, harguments⟩, -⟩ := hsynthesized "" context hcontext
    rw [readCall_of_calledObject hobject] at hraw
    rw [callArguments_eq] at harguments
    exact ⟨raw, hraw, Json.object.inj harguments⟩
  · intro h toolName value hcall
    rw [managerToolCall_eq] at hcall
    obtain ⟨object, hobject, hcall⟩ := Option.bind_eq_some_iff.mp hcall
    obtain ⟨⟨name, rest⟩, hname, hvalue⟩ := Option.map_eq_some_iff.mp hcall
    cases hvalue
    obtain ⟨arguments, hplaces, hunwraps, hnotation⟩ := h object hobject toolName rest hname
    rw [unwrapArguments_eq_iff.mpr hunwraps]
    refine ⟨⟨arguments, rfl⟩, (normal_iff laws).mpr hnotation, fun requestId context hcontext => ?_⟩
    obtain ⟨raw, hraw, hmembers⟩ := hplaces.reads hcontext
    have hread : readCall serde text context = some (toolName, raw) := by
      rw [readCall_of_calledObject hobject, hraw]
    have harguments : callArguments serde raw = .object arguments := by
      rw [callArguments_eq, hmembers]
    refine ⟨⟨raw, hread, harguments⟩, ?_⟩
    rw [synthesizeOpenaiToolCall, hread, Option.bind_some]
    dsimp only
    rw [if_pos (contains_iff.mpr hcontext), harguments]

private theorem mem_of_lookup {key : String} {value : Json N} (h : arguments.lookup key = some value) :
    (key, value) ∈ arguments := by
  obtain ⟨before, after, rfl, -⟩ := List.lookup_eq_some_iff.mp h
  exact List.mem_append_right before List.mem_cons_self

section Sample

def agentArguments : List (String × Json Nat) := [("agent_name", .string "Signals")]

/-- An answer with the arguments under `parameters`, and what it is normalized to. -/
def agentAnswer : String := "\x7b\"name\":\"run_agent\",\"parameters\":\x7b\"agent_name\":\"Signals\"\x7d\x7d"

def agentCall : String := "\x7b\"arguments\":\x7b\"agent_name\":\"Signals\"\x7d,\"tool_name\":\"run_agent\"\x7d"

/-- An answer whose arguments are a list, and what it is normalized to. -/
def listAnswer : String := "\x7b\"tool_name\":\"finish\",\"arguments\":[1]\x7d"

def listCall : String := "\x7b\"arguments\":[1],\"tool_name\":\"finish\"\x7d"

/-- What `serde_json` does with these texts and values. -/
def answerSerde : SerdeJson Nat where
  fromStr text :=
    if text = agentAnswer then some (.object [("name", .string "run_agent"), ("parameters", .object agentArguments)])
    else if text = agentCall then
      some (.object [("arguments", .object agentArguments), ("tool_name", .string "run_agent")])
    else if text = listAnswer ∨ text = listCall then
      some (.object [("arguments", .array [.number 1]), ("tool_name", .string "finish")])
    else none
  toString
    | .object [("arguments", .object [("agent_name", .string "Signals")]), ("tool_name", .string "run_agent")] =>
      agentCall
    | .object [("arguments", .array [.number 1]), ("tool_name", .string "finish")] => listCall
    | .object [("agent_name", .string "Signals")] => "\x7b\"agent_name\":\"Signals\"\x7d"
    | .object [("value", .array [.number 1])] => "\x7b\"value\":[1]\x7d"
    | .object _ => "\x7b\x7d"
    | _ => "null"

theorem answerSerde_lawful : answerSerde.Lawful := by
  constructor
  · intro value read h
    simp only [answerSerde] at h
    split at h
    · rw [if_neg (by decide), if_pos rfl] at h
      exact (Option.some.inj h).symm
    · rw [if_neg (by decide), if_neg (by decide), if_pos (Or.inr rfl)] at h
      exact (Option.some.inj h).symm
    all_goals
      rw [if_neg (by decide), if_neg (by decide), if_neg (by decide)] at h
      cases h
  · intro members
    simp only [answerSerde]
    split
    · exact ⟨(agentCall.toList.drop 1).dropLast, by decide +kernel⟩
    · exact ⟨(listCall.toList.drop 1).dropLast, by decide +kernel⟩
    · exact ⟨"\"agent_name\":\"Signals\"".toList, by decide +kernel⟩
    · exact ⟨"\"value\":[1]".toList, by decide +kernel⟩
    · exact ⟨[], by decide +kernel⟩
    · rename_i hobject
      exact absurd rfl (hobject members)

theorem agentAnswer_normalizes : NormalizesText answerSerde agentAnswer := by
  apply (normalizesText_iff_keepsCall answerSerde_lawful agentAnswer).mpr
  have hobject : calledObject answerSerde agentAnswer =
      some [("name", .string "run_agent"), ("parameters", .object agentArguments)] := by rfl
  have hcall : callByName [("name", .string "run_agent"), ("parameters", .object agentArguments)] =
      some ("run_agent", .object agentArguments) := rfl
  intro object ho toolName rest hname
  cases hobject.symm.trans ho
  cases hname
  exact ⟨agentArguments, .named hcall, .parameters rfl, by rfl⟩

/-- Arguments that are a list are put under `value` and taken out again, so that no object is left. -/
theorem listAnswer_keeps_list :
    normalizeManagerToolCallText answerSerde listAnswer = some listCall ∧
      ¬ NormalizesText answerSerde listAnswer := by
  have hcall : managerToolCall answerSerde listAnswer = some ("finish", .array [.number 1]) := by rfl
  constructor
  · rw [normalizeManagerToolCallText, hcall]
    rfl
  · intro h
    obtain ⟨members, hmembers⟩ := (h _ _ hcall).object
    cases hmembers

end Sample

end Gail.Gateway
