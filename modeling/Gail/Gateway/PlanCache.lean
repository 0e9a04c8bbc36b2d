import Gail.Gateway.MinimalJson
import Gail.Gateway.PromptBudget
import Gail.Library.EvictingCache
import Gail.Orchestration.PositionalPlan
import Mathlib.Data.List.Destutter

/-! The execution plans that are kept from answers, and which of them stands in for an answer that no provider gave. A
plan is kept under the team and the agents that its prompt names. -/
namespace Gail.Gateway.PlanCache
open Gail.Library Schema Gail.Orchestration.DegradedPlan

section Formats

structure OpenAIResponseFormat where
  jsonSchema : Option (Json ℚ)

structure OpenAITextConfig where
  format : Option OpenAIResponseFormat

def schemaValueFromResponseFormat (format : Option OpenAIResponseFormat) : Option (Json ℚ) := do
  let schema ← (← format).jsonSchema
  some ((schema.get "schema").getD schema)

def isTextLike (value : Option (Json ℚ)) (text : String) : Bool :=
  (value.bind Json.asStr).any fun own => eqIgnoreAsciiCase own text

def schemaValueLooksLikeExecutionPlan (schema : Json ℚ) : Bool :=
  isTextLike (schema.get "title") "executionplan" ||
    ((properties schema).lookup "steps").isSome && decide ("steps" ∈ requiredKeys schema)

def responseFormatTargetsExecutionPlan (format : Option OpenAIResponseFormat) : Bool :=
  match format.bind OpenAIResponseFormat.jsonSchema with
  | none => false
  | some jsonSchema =>
    isTextLike (jsonSchema.get "name") "executionplan" ||
      schemaValueLooksLikeExecutionPlan ((jsonSchema.get "schema").getD jsonSchema)

end Formats

section Values

def executionPlanSteps (value : Json ℚ) : Option (List (Json ℚ)) :=
  match value.get "steps" with
  | some (.array steps) => some steps
  | _ => none

def executionPlanStepsLen (value : Json ℚ) : Option Nat := (executionPlanSteps value).map List.length

def executionPlanIsBlank (value : Json ℚ) : Bool := (executionPlanStepsLen value).any fun len => len == 0

def executionPlanHasSteps (value : Json ℚ) : Bool := (executionPlanStepsLen value).any fun len => decide (0 < len)

/-- An object with the required keys, with no others if those are excluded, and with no steps that are not an array. -/
def jsonMatchesObjectSchemaRequirements (schema value : Json ℚ) : Bool :=
  match value with
  | .object members =>
    (requiredKeys schema).all (fun key => (members.lookup key).isSome) &&
      (match schema.get "additionalProperties", schema.get "properties" with
        | some (.bool false), some (.object known) => members.all fun member => (known.lookup member.1).isSome
        | _, _ => true) &&
      match members.lookup "steps" with
      | some (.array _) | none => true
      | some _ => false
  | _ => false

/-- The text is parsed by `serde_json`: all of it, or what its outermost brackets enclose. -/
def extractJsonValue (fromStr : String → Option (Json ℚ)) (text : String) : Option (Json ℚ) :=
  let trimmed := trim text
  (fromStr trimmed).or <|
    let inner := (trimmed.toList.dropWhile fun c => c != '\x7b' && c != '[').rdropWhile
      fun c => c != '\x7d' && c != ']'
    if inner.isEmpty then none else fromStr (String.ofList inner)

end Values

section Requests

structure OpenAIChatCompletionRequest where
  messages : List ChatMessage
  instructions : Option String
  responseFormat : Option OpenAIResponseFormat

structure OpenAIResponseRequest where
  input : Json ℚ
  instructions : Option String
  text : Option OpenAITextConfig

inductive PlanRequest where
  | chat (request : OpenAIChatCompletionRequest)
  | responses (request : OpenAIResponseRequest)

mutual

/-- The texts in a value, a line each; those of an object in the order of its members. -/
def appendJsonStringValues : Json ℚ → String → String
  | .text text, context => context ++ text ++ "\n"
  | .array items, context => appendItems items context
  | .object members, context => appendMembers members context
  | _, context => context

def appendItems : List (Json ℚ) → String → String
  | [], context => context
  | item :: items, context => appendItems items (appendJsonStringValues item context)

def appendMembers : List (String × Json ℚ) → String → String
  | [], context => context
  | (_, item) :: members, context => appendMembers members (appendJsonStringValues item context)

end

def appendLine (context line : String) : String := context ++ line ++ "\n"

def openaiChatRequestContextText (request : OpenAIChatCompletionRequest) : String :=
  (request.messages.map ChatMessage.flattenedText).foldl appendLine (request.instructions.elim "" (appendLine ""))

def openaiResponsesRequestContextText (request : OpenAIResponseRequest) : String :=
  appendJsonStringValues request.input (request.instructions.elim "" (appendLine ""))

namespace PlanRequest

def format : PlanRequest → Option OpenAIResponseFormat
  | .chat request => request.responseFormat
  | .responses request => request.text.bind OpenAITextConfig.format

def context : PlanRequest → List Char
  | .chat request => (openaiChatRequestContextText request).toList
  | .responses request => (openaiResponsesRequestContextText request).toList

def targetsExecutionPlan (request : PlanRequest) : Bool := responseFormatTargetsExecutionPlan request.format

end PlanRequest

end Requests

section Keys

def extractLabeledLineValue (text label : List Char) : Option String := do
  let (_, remainder) ← splitOnce label text
  nonBlank (String.ofList (remainder.takeWhile fun c => c ∉ ['\n', '\r', '\\', '"']))

/-- How teams and agents are compared. -/
def nameKey (name : String) : String := toAsciiLowercase (trim name)

def teamOf (context : List Char) : Option String :=
  (extractLabeledLineValue context "Team:".toList).map nameKey

/-- The agents in order, each of them once. -/
def agentNames (context : List Char) : List String :=
  match extractLabeledSection context "Agents:".toList agentsEndMarkers with
  | none => []
  | some agentsSection =>
    let names := ((extractNamedValuesFromSection agentsSection "name").map nameKey).filter fun name => !name.isEmpty
    (names.insertionSort fun left right => left ≤ right).destutter fun left right => left ≠ right

def executionPlanCacheKeyFromContext (context : List Char) : Option String := do
  let team ← teamOf context
  if (agentNames context).isEmpty then none
  else some ("team=" ++ team ++ "|agents=" ++ ",".intercalate (agentNames context))

namespace PlanRequest

def cacheKey (request : PlanRequest) : Option String :=
  if request.targetsExecutionPlan then executionPlanCacheKeyFromContext request.context else none

end PlanRequest

end Keys

section Caching

def executionPlanCacheMaxEntries : Nat := 64

instance : Fact (0 < executionPlanCacheMaxEntries) := ⟨by decide⟩

abbrev ExecutionPlanCache := EvictingCache String (Json ℚ) executionPlanCacheMaxEntries

/-- The plan that a text is kept as. -/
def maybeCacheExecutionPlanResponse (fromStr : String → Option (Json ℚ)) (responseText : String)
    (format : Option OpenAIResponseFormat) (cacheKey : Option String) : Option (String × Json ℚ) := do
  guard (responseFormatTargetsExecutionPlan format)
  let cacheKey ← cacheKey
  let schema ← schemaValueFromResponseFormat format
  let value ← extractJsonValue fromStr responseText
  guard (!executionPlanIsBlank value)
  guard (executionPlanHasSteps value)
  guard (jsonMatchesObjectSchemaRequirements schema value)
  some (cacheKey, value)

def maybeCacheExecutionPlanFromSuccess (fromStr : String → Option (Json ℚ)) (request : PlanRequest)
    (model text : String) : Option (String × Json ℚ) :=
  if eqIgnoreAsciiCase model "degraded_safety" then none
  else if request.format.isNone then none
  else maybeCacheExecutionPlanResponse fromStr text request.format request.cacheKey

def loadCachedExecutionPlan (cache : ExecutionPlanCache) (cacheKey : String) (schema : Json ℚ) :
    Option (Json ℚ) := do
  let cached ← cache.get cacheKey
  guard (executionPlanHasSteps cached)
  guard (jsonMatchesObjectSchemaRequirements schema cached)
  some cached

/-- The kept plan that a request gets for a value without steps. -/
def servedPlan (cache : ExecutionPlanCache) (request : PlanRequest) : Option (Json ℚ) := do
  let schema ← schemaValueFromResponseFormat request.format
  let value ← MinimalJson.minimalJsonFromSchema schema
  guard (request.targetsExecutionPlan && executionPlanIsBlank value)
  loadCachedExecutionPlan cache (← request.cacheKey) schema

def stepJson (step : FallbackStep) : Json ℚ :=
  .object [("agent_name", .text step.agentName), ("instructions", .array (step.instructions.map .text)),
    ("wait_for", .array (step.waitFor.map .text)), ("skip", .bool step.skip), ("step_type", .text step.stepType),
    ("debate_config", .null)]

def fillExecutionPlanStepsFromContext (value : Json ℚ) (context : List Char) : Json ℚ :=
  match value, executionPlanStepsFromContext context with
  | .object members, some steps => .object (MinimalJson.insertMember "steps" (.array (steps.map stepJson)) members)
  | _, _ => value

/-- The value that stands in for the answer to a request with a schema. -/
def degradedValue (cache : ExecutionPlanCache) (request : PlanRequest) : Option (Json ℚ) := do
  let schema ← schemaValueFromResponseFormat request.format
  let value ← MinimalJson.minimalJsonFromSchema schema
  let value := (servedPlan cache request).getD value
  some (if request.targetsExecutionPlan && executionPlanIsBlank value then
    fillExecutionPlanStepsFromContext value request.context else value)

/-- A request that a model answered, with the entry that would make room, or one that no provider answered. -/
inductive PlanEvent where
  | success (request : PlanRequest) (model text : String) (evicted : Nat)
  | degraded (request : PlanRequest)

def storedPlan (fromStr : String → Option (Json ℚ)) : PlanEvent → Option (String × Json ℚ)
  | .success request model text _ => maybeCacheExecutionPlanFromSuccess fromStr request model text
  | .degraded _ => none

def PlanEvent.evictedPlace : PlanEvent → Nat
  | .success _ _ _ evicted => evicted
  | .degraded _ => 0

/-- The plans that are kept after requests in any order. -/
def cacheAfter (fromStr : String → Option (Json ℚ)) (events : List PlanEvent) : ExecutionPlanCache :=
  run (EvictingCache.afterEvent (storedPlan fromStr) PlanEvent.evictedPlace) EvictingCache.empty events

end Caching

section Statement

/-- The agent of a step. -/
def stepAgent (step : Json ℚ) : Option String := ((step.get "agent_name").bind Json.asStr).map nameKey

def stepWaits (step : Json ℚ) : List String := ((listOf step "wait_for").filterMap Json.asStr).map nameKey

def planSteps (plan : Json ℚ) : List (Json ℚ) := (executionPlanSteps plan).getD []

/-- The agents of the steps and those that they wait for. -/
def namedAgents (plan : Json ℚ) : List String :=
  (planSteps plan).flatMap fun step => (stepAgent step).toList ++ stepWaits step

/-- What the agents wait for. -/
def waitEdges (plan : Json ℚ) : List (String × String) :=
  (planSteps plan).flatMap fun step =>
    (stepAgent step).toList.flatMap fun agent => (stepWaits step).map fun source => (source, agent)

/-- The relations between the channels of a prompt, from agent to agent. -/
def relationsOf (context : List Char) : List (String × String) :=
  match extractLabeledSection context "Agents:".toList agentsEndMarkers,
    extractLabeledSection context "Relations:".toList relationsEndMarkers with
  | some agentsSection, some relationsSection =>
    let agentOf := positionalAgent (extractNamedValuesFromSection agentsSection "name")
      (extractNamedValuesFromSection agentsSection "channel")
    ((extractNamedValuesFromSection relationsSection "source").zip
      (extractNamedValuesFromSection relationsSection "target")).filterMap fun relation => do
        some (nameKey (← agentOf relation.1), nameKey (← agentOf relation.2))
  | _, _ => []

/-- The plan names agents of the request, and they wait as its relations demand. -/
structure Suits (plan : Json ℚ) (request : PlanRequest) : Prop where
  named : ∀ name ∈ namedAgents plan, name ∈ agentNames request.context
  waits : ∀ edge ∈ relationsOf request.context, edge ∈ waitEdges plan

structure SameTeam (origin request : PlanRequest) : Prop where
  team : teamOf origin.context = teamOf request.context
  agents : agentNames origin.context = agentNames request.context

def SameRelations (origin request : PlanRequest) : Prop :=
  ∀ edge, edge ∈ relationsOf origin.context ↔ edge ∈ relationsOf request.context

/-- The names do not contain what separates them in a key. -/
structure Separable (request : PlanRequest) : Prop where
  team : ∀ team, teamOf request.context = some team → ¬ "|agents=".toList <:+: team.toList
  agents : ∀ name ∈ agentNames request.context, ',' ∉ name.toList

variable (fromStr : String → Option (Json ℚ)) (events : List PlanEvent)

/-- The plan was kept from an answer to the request, and no other one under the key after it. -/
def KeptFrom (origin : PlanRequest) (key : String) (plan : Json ℚ) : Prop :=
  ∃ model text evicted,
    EvictingCache.LatestPut (storedPlan fromStr) events (.success origin model text evicted) key plan

/-- There are no more plans than allowed, and whatever is served suits the request and was kept from one that is like
it. -/
structure ServesOwnPlans : Prop where
  bounded : (cacheAfter fromStr events).entries.keys.length ≤ executionPlanCacheMaxEntries
  suits : ∀ request plan, servedPlan (cacheAfter fromStr events) request = some plan → Suits plan request
  own : ∀ request plan, servedPlan (cacheAfter fromStr events) request = some plan →
    ∀ origin key, request.cacheKey = some key → KeptFrom fromStr events origin key plan →
      SameTeam origin request ∧ SameRelations origin request

/-- A plan that is served is the latest one of the key, as it was kept, and meets the schema of the request. The key
tells the team and the agents if they can be separated; the relations have to be the same by themselves. -/
structure ServedFrom (request : PlanRequest) (plan : Json ℚ) (origin : PlanRequest) (key : String) : Prop where
  answer : degradedValue (cacheAfter fromStr events) request = some plan
  kept : KeptFrom fromStr events origin key plan
  keys : origin.cacheKey = some key ∧ request.cacheKey = some key
  steps : executionPlanHasSteps plan = true
  schema : ∃ schema, schemaValueFromResponseFormat request.format = some schema ∧
    jsonMatchesObjectSchemaRequirements schema plan = true
  own : Separable origin → Separable request → SameTeam origin request
  suits : Separable origin → Separable request → SameRelations origin request →
    (Suits plan origin ↔ Suits plan request)

end Statement

section Inversion
variable {fromStr : String → Option (Json ℚ)}

/-- When a text is kept, and as what. -/
theorem maybeCacheExecutionPlanResponse_eq_some {responseText : String} {format : Option OpenAIResponseFormat}
    {cacheKey : Option String} {key : String} {plan : Json ℚ} :
    maybeCacheExecutionPlanResponse fromStr responseText format cacheKey = some (key, plan) ↔
      responseFormatTargetsExecutionPlan format = true ∧ cacheKey = some key ∧
        (∃ schema, schemaValueFromResponseFormat format = some schema ∧
          jsonMatchesObjectSchemaRequirements schema plan = true) ∧
        extractJsonValue fromStr responseText = some plan ∧ executionPlanIsBlank plan = false ∧
        executionPlanHasSteps plan = true := by
  simp only [maybeCacheExecutionPlanResponse, Option.bind_eq_bind, Option.bind_eq_some_iff, Option.guard_eq_some',
    Option.some.injEq, Prod.mk.injEq, Bool.not_eq_true']
  constructor
  · rintro ⟨_, ht, own, hkey, schema, hs, value, hv, _, hb, _, hn, _, hm, rfl, rfl⟩
    exact ⟨ht, hkey, ⟨schema, hs, hm⟩, hv, hb, hn⟩
  · rintro ⟨ht, hkey, ⟨schema, hs, hm⟩, hv, hb, hn⟩
    exact ⟨(), ht, key, hkey, schema, hs, plan, hv, (), hb, (), hn, (), hm, rfl, rfl⟩

theorem storedPlan_success_eq_some {request : PlanRequest} {model text : String} {evicted : Nat} {key : String}
    {plan : Json ℚ} : storedPlan fromStr (.success request model text evicted) = some (key, plan) ↔
      eqIgnoreAsciiCase model "degraded_safety" = false ∧
        maybeCacheExecutionPlanResponse fromStr text request.format request.cacheKey = some (key, plan) := by
  rw [storedPlan, maybeCacheExecutionPlanFromSuccess]
  cases eqIgnoreAsciiCase model "degraded_safety" with
  | true => simp
  | false =>
    cases hformat : request.format with
    | some format => simp
    | none => simp [maybeCacheExecutionPlanResponse_eq_some, schemaValueFromResponseFormat]

/-- When a kept plan is served. -/
theorem servedPlan_eq_some {cache : ExecutionPlanCache} {request : PlanRequest} {plan : Json ℚ} :
    servedPlan cache request = some plan ↔
      ∃ schema value key, schemaValueFromResponseFormat request.format = some schema ∧
        MinimalJson.minimalJsonFromSchema schema = some value ∧ request.targetsExecutionPlan = true ∧
        executionPlanIsBlank value = true ∧ request.cacheKey = some key ∧ cache.get key = some plan ∧
        executionPlanHasSteps plan = true ∧ jsonMatchesObjectSchemaRequirements schema plan = true := by
  simp only [servedPlan, loadCachedExecutionPlan, Option.bind_eq_bind, Option.bind_eq_some_iff, Option.guard_eq_some',
    Option.some.injEq, Bool.and_eq_true]
  constructor
  · rintro ⟨schema, hs, value, hv, _, ⟨ht, hb⟩, key, hkey, cached, hget, _, hn, _, hm, rfl⟩
    exact ⟨schema, value, key, hs, hv, ht, hb, hkey, hget, hn, hm⟩
  · rintro ⟨schema, value, key, hs, hv, ht, hb, hkey, hget, hn, hm⟩
    exact ⟨schema, hs, value, hv, (), ⟨ht, hb⟩, key, hkey, plan, hget, (), hn, (), hm, rfl⟩

theorem executionPlanIsBlank_of_hasSteps {plan : Json ℚ} (h : executionPlanHasSteps plan = true) :
    executionPlanIsBlank plan = false := by
  unfold executionPlanHasSteps at h
  unfold executionPlanIsBlank
  cases hlen : executionPlanStepsLen plan with
  | none => rfl
  | some len =>
    rw [hlen, Option.any_some, decide_eq_true_eq] at h
    rw [Option.any_some, beq_eq_false_iff_ne]
    exact h.ne'

/-- A kept plan is the answer as it is. -/
theorem degradedValue_of_servedPlan {cache : ExecutionPlanCache} {request : PlanRequest} {plan : Json ℚ}
    (h : servedPlan cache request = some plan) : degradedValue cache request = some plan := by
  obtain ⟨schema, value, _, hs, hv, _, _, _, _, hn, _⟩ := servedPlan_eq_some.mp h
  simp [degradedValue, hs, hv, h, executionPlanIsBlank_of_hasSteps hn]

end Inversion

section Sharing

theorem executionPlanCacheKeyFromContext_eq_some {context : List Char} {key : String}
    (h : executionPlanCacheKeyFromContext context = some key) : ∃ team, teamOf context = some team ∧
      agentNames context ≠ [] ∧ key = "team=" ++ team ++ "|agents=" ++ ",".intercalate (agentNames context) := by
  rw [executionPlanCacheKeyFromContext, Option.bind_eq_bind, Option.bind_eq_some_iff] at h
  obtain ⟨team, hteam, h⟩ := h
  split at h
  · cases h
  · next hne => exact ⟨team, hteam, mt List.isEmpty_iff.mpr hne, (Option.some.inj h).symm⟩

/-- Names without a comma are told by the text that they are joined to. -/
theorem names_of_intercalate {first second : List String} (hfirst : ∀ name ∈ first, ',' ∉ name.toList)
    (hsecond : ∀ name ∈ second, ',' ∉ name.toList) (hne : first ≠ []) (hne' : second ≠ [])
    (h : ",".intercalate first = ",".intercalate second) : first = second := by
  have hsplit : ∀ {names : List String}, (∀ name ∈ names, ',' ∉ name.toList) → names ≠ [] →
      (",".intercalate names).toList.splitOn ',' = names.map String.toList := by
    intro names hnames hne
    rw [String.toList_intercalate]
    exact List.splitOn_intercalate ',' (by simpa using hnames) (by simpa using hne)
  apply List.map_injective_iff.mpr fun _ _ => String.toList_inj.mp
  rw [← hsplit hfirst hne, ← hsplit hsecond hne', h]

theorem sameTeam_of_cacheKey {origin request : PlanRequest} {key : String} (horigin : origin.cacheKey = some key)
    (hrequest : request.cacheKey = some key) (hfrom : Separable origin) (hto : Separable request) :
    SameTeam origin request := by
  have hcontext : ∀ {own : PlanRequest}, own.cacheKey = some key →
      executionPlanCacheKeyFromContext own.context = some key := by
    intro own hown
    rw [PlanRequest.cacheKey] at hown
    split at hown
    · exact hown
    · cases hown
  obtain ⟨first, hfirst, hnames, rfl⟩ := executionPlanCacheKeyFromContext_eq_some (hcontext horigin)
  obtain ⟨second, hsecond, hnames', hkey⟩ := executionPlanCacheKeyFromContext_eq_some (hcontext hrequest)
  -- the first separator in the key is the one behind the team
  have hcut : ∀ {own : PlanRequest} {team : String}, Separable own → teamOf own.context = some team →
      ∀ names : String, splitOnce "|agents=".toList (team ++ "|agents=" ++ names).toList =
        some (team.toList, names.toList) := by
    intro own team hown hteam names
    rw [String.toList_append, String.toList_append]
    exact splitOnce_append names.toList (by decide) (hown.team team hteam)
  have hsame : first ++ "|agents=" ++ ",".intercalate (agentNames origin.context) =
      second ++ "|agents=" ++ ",".intercalate (agentNames request.context) := by
    have hlist := congrArg String.toList hkey
    simp only [String.toList_append, List.append_assoc, List.append_cancel_left_eq] at hlist
    rw [← String.toList_inj]
    simpa only [String.toList_append, List.append_assoc] using hlist
  have hparts := (hcut hfrom hfirst _).symm.trans ((congrArg (fun text => splitOnce _ text.toList) hsame).trans
    (hcut hto hsecond _))
  obtain ⟨hteams, hjoined⟩ := Prod.mk.inj (Option.some.inj hparts)
  refine ⟨?_, names_of_intercalate hfrom.agents hto.agents hnames hnames' (String.toList_inj.mp hjoined)⟩
  rw [hfirst, hsecond, String.toList_inj.mp hteams]

/-- Between requests that are alike, a plan suits both or none. -/
theorem suits_iff {origin request : PlanRequest} (hteam : SameTeam origin request)
    (hrelations : SameRelations origin request) (plan : Json ℚ) : Suits plan origin ↔ Suits plan request := by
  constructor
  · intro h
    refine ⟨fun name hname => hteam.agents ▸ h.named name hname, fun edge hedge => ?_⟩
    exact h.waits edge ((hrelations edge).mpr hedge)
  · intro h
    refine ⟨fun name hname => hteam.agents ▸ h.named name hname, fun edge hedge => ?_⟩
    exact h.waits edge ((hrelations edge).mp hedge)

end Sharing

section Results
variable (fromStr : String → Option (Json ℚ)) (events : List PlanEvent)

variable {fromStr events} in
/-- What is found under a key was kept last from a request with the key. -/
theorem keptFrom_of_get {key : String} {plan : Json ℚ} (h : (cacheAfter fromStr events).get key = some plan) :
    ∃ origin, KeptFrom fromStr events origin key plan ∧ origin.cacheKey = some key := by
  obtain ⟨event, hlatest⟩ := EvictingCache.latestPut_of_get PlanEvent.evictedPlace h
  obtain ⟨_, _, _, hput, _⟩ := id hlatest
  cases event with
  | success origin model text evicted =>
    obtain ⟨-, hkept⟩ := storedPlan_success_eq_some.mp hput
    exact ⟨origin, ⟨model, text, evicted, hlatest⟩, (maybeCacheExecutionPlanResponse_eq_some.mp hkept).2.1⟩
  | degraded request => cases hput

theorem servedPlan_servedFrom :
    (cacheAfter fromStr events).entries.keys.length ≤ executionPlanCacheMaxEntries ∧
      ∀ request plan, servedPlan (cacheAfter fromStr events) request = some plan →
        ∃ origin key, ServedFrom fromStr events request plan origin key := by
  refine ⟨(cacheAfter fromStr events).bounded, fun request plan hserved => ?_⟩
  obtain ⟨schema, _, key, hschema, _, _, _, hkey, hget, hsteps, hmatches⟩ := servedPlan_eq_some.mp hserved
  obtain ⟨origin, hkept, horigin⟩ := keptFrom_of_get hget
  have hteam := sameTeam_of_cacheKey horigin hkey
  refine ⟨origin, key, ?_⟩
  exact {
    answer := degradedValue_of_servedPlan hserved
    kept := hkept
    keys := ⟨horigin, hkey⟩
    steps := hsteps
    schema := ⟨schema, hschema, hmatches⟩
    own := hteam
    suits := fun hfrom hto hrelations => suits_iff (hteam hfrom hto) hrelations plan }

variable {fromStr} in
/-- A plan that was just kept is served to whatever request has the key and a schema that it meets. -/
theorem servedPlan_of_stored {event : PlanEvent} {key : String} {plan schema : Json ℚ} {request : PlanRequest}
    (hstored : storedPlan fromStr event = some (key, plan)) (hkey : request.cacheKey = some key)
    (hschema : schemaValueFromResponseFormat request.format = some schema)
    (hblank : (MinimalJson.minimalJsonFromSchema schema).any executionPlanIsBlank = true)
    (hsteps : executionPlanHasSteps plan = true)
    (hmatches : jsonMatchesObjectSchemaRequirements schema plan = true) :
    servedPlan (cacheAfter fromStr (events ++ [event])) request = some plan := by
  obtain ⟨value, hvalue, hvblank⟩ := (Option.any_eq_true _ _).mp hblank
  have htargets : request.targetsExecutionPlan = true := by
    rw [PlanRequest.cacheKey] at hkey
    split at hkey
    · assumption
    · cases hkey
  have hget : (cacheAfter fromStr (events ++ [event])).get key = some plan := by
    rw [cacheAfter, run_append, run_cons, run_nil, EvictingCache.afterEvent, hstored]
    exact EvictingCache.get_store_self _ _ _ _
  exact servedPlan_eq_some.mpr
    ⟨schema, value, key, hschema, hvalue, htargets, hvblank, hkey, hget, hsteps, hmatches⟩

end Results

section Samples

def planFormat : OpenAIResponseFormat where
  jsonSchema := some (.object [("name", .text "ExecutionPlan"),
    ("schema", .object [("properties", .object [("steps", .object [("type", .text "array")])]),
      ("required", .array [.text "steps"]), ("type", .text "object")])])

/-- Agents with their channels, and at most one relation between two channels. -/
def teamPrompt (team : String) (agents : List (String × String)) (relation : Option (String × String)) : String :=
  let member := fun (key value : String) => "\"" ++ key ++ "\":\"" ++ value ++ "\""
  let entry := fun (first second : String) => "\x7b" ++ first ++ "," ++ second ++ "\x7d"
  "Team: " ++ team ++ "\nAgents: [" ++
    ",".intercalate (agents.map fun agent => entry (member "name" agent.1) (member "channel" agent.2)) ++
    "]\nRelations: [" ++ (relation.elim "" fun ends => entry (member "source" ends.1) (member "target" ends.2)) ++ "]"

def planRequest (team : String) (agents : List (String × String)) (relation : Option (String × String)) :
    PlanRequest :=
  .chat {
    messages := [⟨"user", .text (teamPrompt team agents relation)⟩]
    instructions := none
    responseFormat := some planFormat }

def forwardRequest : PlanRequest := planRequest "Alpha" [("A", "a"), ("B", "b")] (some ("a", "b"))

def reversedRequest : PlanRequest := planRequest "Alpha" [("A", "a"), ("B", "b")] (some ("b", "a"))

/-- One agent, whose name reads like two in the key. -/
def joinedRequest : PlanRequest := planRequest "Alpha" [("A,B", "a")] none

/-- A team whose name reads like a team and an agent in the key, and the team and the agent that it reads like. -/
def longTeamRequest : PlanRequest := planRequest "Alpha|agents=A" [("B", "b")] none

def longAgentRequest : PlanRequest := planRequest "Alpha" [("A|agents=B", "b")] none

/-- The agent acts, and then B. -/
def planMembers (agent : String) : String :=
  let step := fun (name waitFor : String) =>
    "\x7b\"agent_name\":\"" ++ name ++ "\",\"wait_for\":" ++ waitFor ++ "\x7d"
  "\"steps\":[" ++ step agent "null" ++ "," ++ step "B" ("[\"" ++ agent ++ "\"]") ++ "]"

def planText (agent : String) : String := "\x7b" ++ planMembers agent ++ "\x7d"

def planOf (agent : String) : Json ℚ :=
  .object [("steps", .array [.object [("agent_name", .text agent), ("wait_for", .null)],
    .object [("agent_name", .text "B"), ("wait_for", .array [.text agent])]])]

def planJson (agent text : String) : Option (Json ℚ) := if text = planText agent then some (planOf agent) else none

def answered (request : PlanRequest) (agent : String) : List PlanEvent :=
  [.success request "llama3.2" (planText agent) 0]

private theorem trim_planText (agent : String) : trim (planText agent) = planText agent := by
  have htext : (planText agent).toList = '\x7b' :: ((planMembers agent).toList ++ ['\x7d']) := by
    rw [planText, String.toList_append, String.toList_append]
    simp only [String.reduceToList, List.cons_append, List.nil_append]
  rw [trim, htext, List.dropWhile_cons_of_neg (by decide), ← List.cons_append,
    List.rdropWhile_concat_neg _ _ _ (by decide), List.cons_append, ← htext, String.ofList_toList]

private theorem extractJsonValue_planText (agent : String) :
    extractJsonValue (planJson agent) (planText agent) = some (planOf agent) := by
  rw [extractJsonValue, trim_planText, planJson, if_pos rfl]
  rfl

/-- What the key and the comparison of requests read of a context. -/
private def reads (context : List Char) : Option String × List String × List (String × String) :=
  (teamOf context, agentNames context, relationsOf context)

private theorem context_eq (team : String) (agents : List (String × String)) (relation : Option (String × String)) :
    (planRequest team agents relation).context = (teamPrompt team agents relation).toList ++ ['\n'] := by
  simp [planRequest, PlanRequest.context, openaiChatRequestContextText, appendLine, ChatMessage.flattenedText,
    MessageContent.flattenedText]

private theorem cacheKey_eq {team name : String} {agents : List (String × String)}
    {relation : Option (String × String)} {names : List String} {relations : List (String × String)}
    (h : reads (planRequest team agents relation).context = (some name, names, relations)) (hne : names ≠ []) :
    (planRequest team agents relation).cacheKey = some ("team=" ++ name ++ "|agents=" ++ ",".intercalate names) := by
  obtain ⟨hteam, hrest⟩ := Prod.mk.inj h
  obtain ⟨hnames, -⟩ := Prod.mk.inj hrest
  have hformat : (planRequest team agents relation).targetsExecutionPlan = true := rfl
  rw [PlanRequest.cacheKey, if_pos hformat, executionPlanCacheKeyFromContext, hteam, hnames]
  exact if_neg (mt List.isEmpty_iff.mp hne)

private theorem reads_eq :
    reads forwardRequest.context = (some "alpha", ["a", "b"], [("a", "b")]) ∧
      reads reversedRequest.context = (some "alpha", ["a", "b"], [("b", "a")]) ∧
      reads joinedRequest.context = (some "alpha", ["a,b"], []) ∧
      reads longTeamRequest.context = (some "alpha|agents=a", ["b"], []) ∧
      reads longAgentRequest.context = (some "alpha", ["a|agents=b"], []) := by
  -- the characters are written out before the kernel evaluates
  simp only [forwardRequest, reversedRequest, joinedRequest, longTeamRequest, longAgentRequest, context_eq, teamPrompt,
    String.toList_append, String.toList_intercalate, List.map_cons, List.map_nil, Option.elim_none, Option.elim_some,
    String.reduceToList]
  decide +kernel

private theorem keys_eq : forwardRequest.cacheKey = some "team=alpha|agents=a,b" ∧
    reversedRequest.cacheKey = some "team=alpha|agents=a,b" ∧
    joinedRequest.cacheKey = some "team=alpha|agents=a,b" ∧
    longTeamRequest.cacheKey = some "team=alpha|agents=a|agents=b" ∧
    longAgentRequest.cacheKey = some "team=alpha|agents=a|agents=b" := by
  obtain ⟨hforward, hreversed, hjoined, hlongTeam, hlongAgent⟩ := reads_eq
  exact ⟨cacheKey_eq hforward (by decide), cacheKey_eq hreversed (by decide), cacheKey_eq hjoined (by decide),
    cacheKey_eq hlongTeam (by decide), cacheKey_eq hlongAgent (by decide)⟩

/-- What a request is answered is kept from it and served to another one with the same key. -/
private theorem answered_served {origin request : PlanRequest} {key : String} (agent : String)
    (hfrom : origin.format = some planFormat) (hto : request.format = some planFormat)
    (hkey : origin.cacheKey = some key) (hother : request.cacheKey = some key) :
    servedPlan (cacheAfter (planJson agent) (answered origin agent)) request = some (planOf agent) ∧
      KeptFrom (planJson agent) (answered origin agent) origin key (planOf agent) := by
  have hstored : storedPlan (planJson agent) (.success origin "llama3.2" (planText agent) 0) =
      some (key, planOf agent) := by
    refine storedPlan_success_eq_some.mpr ⟨by decide +kernel, maybeCacheExecutionPlanResponse_eq_some.mpr ?_⟩
    rw [hfrom]
    exact ⟨rfl, hkey, ⟨_, rfl, rfl⟩, extractJsonValue_planText agent, rfl, rfl⟩
  constructor
  · apply servedPlan_of_stored [] hstored hother
    · rw [hto]
      rfl
    · decide +kernel
    · rfl
    · rfl
  · exact ⟨"llama3.2", planText agent, 0, [], [], rfl, hstored, nofun⟩

/-- A plan is served for relations that it was not made for and does not wait for, though the agents are the same; it
is served though it names an agent that no request has; it is served for two agents though it was kept for one; and it
is served to a team that it was not kept for. -/
theorem not_servesOwnPlans :
    (¬ ServesOwnPlans (planJson "A") (answered forwardRequest "A") ∧
        ¬ SameRelations forwardRequest reversedRequest) ∧
      ¬ ServesOwnPlans (planJson "Ghost") (answered forwardRequest "Ghost") ∧
      ¬ ServesOwnPlans (planJson "A") (answered joinedRequest "A") ∧
      ¬ ServesOwnPlans (planJson "A") (answered longTeamRequest "A") := by
  obtain ⟨hforward, hreversed, hjoined, hlongTeam, hlongAgent⟩ := reads_eq
  simp only [reads, Prod.mk.injEq] at hforward hreversed hjoined hlongTeam hlongAgent
  obtain ⟨hkeyForward, hkeyReversed, hkeyJoined, hkeyTeam, hkeyAgent⟩ := keys_eq
  refine ⟨⟨fun h => ?_, fun hsame => ?_⟩, fun h => ?_, fun h => ?_, fun h => ?_⟩
  · obtain ⟨hserved, -⟩ := answered_served "A" rfl rfl hkeyForward hkeyReversed
    have hedge := (h.suits _ _ hserved).waits ("b", "a") (by rw [hreversed.2.2]; decide)
    exact absurd hedge (by decide +kernel)
  · have hedge := (hsame ("a", "b")).mp (by rw [hforward.2.2]; decide)
    rw [hreversed.2.2] at hedge
    exact absurd hedge (by decide)
  · obtain ⟨hserved, -⟩ := answered_served "Ghost" rfl rfl hkeyForward hkeyForward
    have hname := (h.suits _ _ hserved).named "ghost" (by decide +kernel)
    rw [hforward.2.1] at hname
    exact absurd hname (by decide)
  · obtain ⟨hserved, hkept⟩ := answered_served "A" rfl rfl hkeyJoined hkeyForward
    have hagents := (h.own _ _ hserved _ _ hkeyForward hkept).1.agents
    rw [hjoined.2.1, hforward.2.1] at hagents
    exact absurd hagents (by decide)
  · obtain ⟨hserved, hkept⟩ := answered_served "A" rfl rfl hkeyTeam hkeyAgent
    have hteam := (h.own _ _ hserved _ _ hkeyAgent hkept).1.team
    rw [hlongTeam.1, hlongAgent.1] at hteam
    exact absurd hteam (by decide)

theorem forward_servedFrom :
    ∃ origin key, ServedFrom (planJson "A") (answered forwardRequest "A") forwardRequest (planOf "A") origin key :=
  (servedPlan_servedFrom (planJson "A") (answered forwardRequest "A")).2 forwardRequest (planOf "A")
    (answered_served "A" rfl rfl keys_eq.1 keys_eq.1).1

end Samples

end Gail.Gateway.PlanCache
