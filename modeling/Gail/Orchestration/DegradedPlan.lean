import Gail.Library.Acyclic
import Gail.Library.JsonRead
import Gail.Library.TextSearch

/-! The plan that stands in for one that no provider could make: the agents of the prompt in the order of their list,
each waiting for those it depends on or, if there are none, for the one listed before it. -/
namespace Gail.Orchestration.DegradedPlan
open Gail.Library Relation

structure PromptAgentDescriptor where
  name : String
  channel : Option String
  deriving DecidableEq

section Parsing
variable {F : Type} [JsonNumber F]

/-- A text that is not blank, trimmed. -/
def nonBlank (value : String) : Option String :=
  let value := trim value
  if value.isEmpty then none else some value

/-- The text between a label and the first end marker after it. -/
def extractLabeledSection (text label : List Char) (endMarkers : List (List Char)) : Option (List Char) := do
  let (_, afterLabel) ← splitOnce label text
  let section_ := endMarkers.foldl (fun kept marker =>
    match splitOnce marker afterLabel with
    | some (before, _) => if before.length < kept.length then before else kept
    | none => kept) afterLabel
  some (trimChars section_)

/-- The quoted values that follow a quoted name and a colon, in a text that is no JSON. -/
def extractNamedValuesFromSection (section_ : List Char) (fieldName : String) : List String :=
  ((splitText ('"' :: fieldName.toList ++ ['"']) section_).drop 1).filterMap fun tail => do
    let (_, afterColon) ← splitOnce [':'] tail
    let (_, afterStartQuote) ← splitOnce ['"'] afterColon
    let (value, _) ← splitOnce ['"'] afterStartQuote
    nonBlank (String.ofList value)

/-- The first agent of each name, up to case. -/
def dedupeAgents (agents : List PromptAgentDescriptor) : List PromptAgentDescriptor :=
  (agents.foldl (fun (kept : List String × List PromptAgentDescriptor) agent =>
    if toAsciiLowercase agent.name ∈ kept.1 then kept
    else (toAsciiLowercase agent.name :: kept.1, kept.2 ++ [agent])) ([], [])).2

def agentOfItem (item : Json F) : Option PromptAgentDescriptor := do
  let name ← nonBlank (← (item.get "name").bind Json.asStr)
  some { name, channel := ((item.get "channel").bind Json.asStr).bind nonBlank }

/-- The section is parsed by `serde_json`. -/
def parsePromptAgents (fromStr : String → Option (Json F)) (promptText : List Char) : List PromptAgentDescriptor :=
  match extractLabeledSection promptText "Agents:".toList
      ["Relations:".toList, "Initial Data:".toList, "Instructions:".toList] with
  | none => []
  | some section_ =>
    let agents :=
      match fromStr (String.ofList section_) with
      | some (.array items) => dedupeAgents (items.filterMap agentOfItem)
      | _ => []
    if agents.isEmpty then
      let names := extractNamedValuesFromSection section_ "name"
      let channels := extractNamedValuesFromSection section_ "channel"
      dedupeAgents (names.zipIdx.filterMap fun (name, index) => do
        some { name := ← nonBlank name, channel := channels[index]?.bind nonBlank })
    else agents

def relationOfItem (item : Json F) : Option (String × String) := do
  let source ← nonBlank (← (item.get "source").bind Json.asStr)
  let target ← nonBlank (← (item.get "target").bind Json.asStr)
  some (source, target)

def parsePromptRelations (fromStr : String → Option (Json F)) (promptText : List Char) : List (String × String) :=
  match extractLabeledSection promptText "Relations:".toList ["Initial Data:".toList, "Instructions:".toList] with
  | none => []
  | some section_ =>
    let parsed :=
      match fromStr (String.ofList section_) with
      | some (.array items) => items.filterMap relationOfItem
      | _ => []
    if parsed.isEmpty then
      (extractNamedValuesFromSection section_ "source").zip (extractNamedValuesFromSection section_ "target")
    else parsed

end Parsing

section Steps

/-- How channels are compared. -/
def channelKey (channel : String) : String := toAsciiLowercase (trim channel)

/-- The agent of a channel: of several, the one that comes last. -/
def channelToAgent (agents : List PromptAgentDescriptor) (channel : String) : Option String :=
  (agents.filterMap fun agent => agent.channel.map fun own => (channelKey own, agent.name)).reverse.lookup
    (channelKey channel)

def addDependency (agents : List PromptAgentDescriptor) (dependencies : String → List String)
    (relation : String × String) : String → List String :=
  match channelToAgent agents relation.1, channelToAgent agents relation.2 with
  | some sourceAgent, some targetAgent =>
    if sourceAgent ∈ dependencies targetAgent then dependencies
    else Function.update dependencies targetAgent (dependencies targetAgent ++ [sourceAgent])
  | _, _ => dependencies

/-- The agents that each agent depends on. -/
def dependencies (agents : List PromptAgentDescriptor) (relations : List (String × String)) : String → List String :=
  relations.foldl (addDependency agents) fun _ => []

/-- The members that every step has alike are left at their values. -/
structure FallbackStep where
  agentName : String
  instructions : List String := []
  waitFor : List String
  skip : Bool := false
  stepType : String := "agent"
  deriving DecidableEq

/-- The dependencies of an agent are removed when its step is made. -/
def fallbackSteps (dependencies : String → List String) :
    Option String → List PromptAgentDescriptor → List FallbackStep
  | _, [] => []
  | previous, agent :: agents =>
    let waitFor := dependencies agent.name
    { agentName := agent.name, waitFor := if waitFor.isEmpty then previous.toList else waitFor } ::
      fallbackSteps (Function.update dependencies agent.name []) (some agent.name) agents

def buildDegradedExecutionPlanSteps {F : Type} [JsonNumber F] (fromStr : String → Option (Json F))
    (promptText : List Char) : List FallbackStep :=
  let agents := parsePromptAgents fromStr promptText
  fallbackSteps (dependencies agents (parsePromptRelations fromStr promptText)) none agents

end Steps

section Plans

/-- The agent listens to the channel. -/
def HasChannel (agents : List PromptAgentDescriptor) (name channel : String) : Prop :=
  ∃ agent ∈ agents, agent.name = name ∧ agent.channel.map channelKey = some (channelKey channel)

/-- A relation leads from the channel of one agent to the channel of another. -/
def RelationEdge (agents : List PromptAgentDescriptor) (relations : List (String × String)) (a b : String) : Prop :=
  ∃ relation ∈ relations, HasChannel agents a relation.1 ∧ HasChannel agents b relation.2

/-- A relation leads from one agent to another where a channel that several agents have stands for the last of
them. -/
def Declared (agents : List PromptAgentDescriptor) (relations : List (String × String)) (a b : String) : Prop :=
  ∃ relation ∈ relations, channelToAgent agents relation.1 = some a ∧ channelToAgent agents relation.2 = some b

/-- The second step waits for the first. -/
def StepWaits (steps : List FallbackStep) (a b : String) : Prop :=
  ∃ step ∈ steps, step.agentName = b ∧ a ∈ step.waitFor

/-- A step can run when all that it waits for has run. -/
inductive CanRun (steps : List FallbackStep) : String → Prop
  | intro (name : String) : (∀ a, StepWaits steps a name → CanRun steps a) → CanRun steps name

/-- A plan of the agents that keeps to the relations and can be worked through. -/
structure RunnablePlan (agents : List PromptAgentDescriptor) (relations : List (String × String))
    (steps : List FallbackStep) : Prop where
  names : steps.map FallbackStep.agentName = agents.map PromptAgentDescriptor.name
  within : ∀ a b, StepWaits steps a b → a ∈ steps.map FallbackStep.agentName
  relations : ∀ a b, RelationEdge agents relations a b → StepWaits steps a b
  acyclic : Acyclic (StepWaits steps)
  runs : ∀ step ∈ steps, CanRun steps step.agentName

end Plans

section Building
variable {agents : List PromptAgentDescriptor} {relations : List (String × String)}

theorem dedupeAgents_nodup (agents : List PromptAgentDescriptor) :
    ((dedupeAgents agents).map PromptAgentDescriptor.name).Nodup := by
  have hfold (kept : List String × List PromptAgentDescriptor) (hkept : (kept.2.map PromptAgentDescriptor.name).Nodup)
      (hseen : ∀ agent ∈ kept.2, toAsciiLowercase agent.name ∈ kept.1) :
      ((agents.foldl (fun (kept : List String × List PromptAgentDescriptor) agent =>
        if toAsciiLowercase agent.name ∈ kept.1 then kept
        else (toAsciiLowercase agent.name :: kept.1, kept.2 ++ [agent])) kept).2.map
          PromptAgentDescriptor.name).Nodup := by
    induction agents generalizing kept with
    | nil => exact hkept
    | cons agent agents ih =>
      rw [List.foldl_cons]
      split_ifs with hknown
      · exact ih kept hkept hseen
      · apply ih
        · rw [List.map_append]
          refine List.nodup_append.mpr ⟨hkept, List.nodup_singleton _, ?_⟩
          rintro _ hearlier _ hlast rfl
          obtain ⟨earlier, hmem, hname⟩ := List.mem_map.mp hearlier
          rw [List.map_singleton, List.mem_singleton] at hlast
          exact hknown (hlast ▸ hname ▸ hseen earlier hmem)
        · intro other hother
          rcases List.mem_append.mp hother with hother | hother
          · exact List.mem_cons_of_mem _ (hseen other hother)
          · rw [List.mem_singleton.mp hother]
            exact List.mem_cons_self
  exact hfold ([], []) List.nodup_nil fun agent h => (by cases h)

theorem parsePromptAgents_nodup {F : Type} [JsonNumber F] (fromStr : String → Option (Json F))
    (promptText : List Char) : ((parsePromptAgents fromStr promptText).map PromptAgentDescriptor.name).Nodup := by
  unfold parsePromptAgents
  split
  · exact List.nodup_nil
  · dsimp only
    split_ifs
    · exact dedupeAgents_nodup _
    · split
      · exact dedupeAgents_nodup _
      · exact List.nodup_nil

theorem hasChannel_of_channelToAgent {name channel : String} (h : channelToAgent agents channel = some name) :
    HasChannel agents name channel := by
  obtain ⟨before, after, hsplit, -⟩ := List.lookup_eq_some_iff.mp h
  have hmem : (channelKey channel, name) ∈ (agents.filterMap fun agent =>
      agent.channel.map fun own => (channelKey own, agent.name)).reverse := by
    rw [hsplit]
    simp
  obtain ⟨agent, hagent, hkeyed⟩ := List.mem_filterMap.mp (List.mem_reverse.mp hmem)
  obtain ⟨own, hown, hpair⟩ := Option.map_eq_some_iff.mp hkeyed
  obtain ⟨hkey, hname⟩ := Prod.mk.inj hpair
  exact ⟨agent, hagent, hname, by rw [hown, Option.map_some, hkey]⟩

theorem Declared.edge {a b : String} (h : Declared agents relations a b) : RelationEdge agents relations a b := by
  obtain ⟨relation, hrelation, hsource, htarget⟩ := h
  exact ⟨relation, hrelation, hasChannel_of_channelToAgent hsource, hasChannel_of_channelToAgent htarget⟩

/-- Where no two agents share a channel, every relation between agents is declared. -/
theorem declared_iff_of_distinct (h : (agents.filterMap fun agent => agent.channel.map channelKey).Nodup)
    {a b : String} : Declared agents relations a b ↔ RelationEdge agents relations a b := by
  have hfound {name channel : String} (hchannel : HasChannel agents name channel) :
      channelToAgent agents channel = some name := by
    obtain ⟨agent, hagent, rfl, hkey⟩ := hchannel
    have hkeys : ((agents.filterMap fun agent => agent.channel.map fun own => (channelKey own, agent.name)).reverse.map
        Prod.fst).Nodup := by
      rw [List.map_reverse, List.nodup_reverse, List.map_filterMap]
      simpa only [Option.map_map, Function.comp_def] using h
    have hmem : (channelKey channel, agent.name) ∈
        (agents.filterMap fun agent => agent.channel.map fun own => (channelKey own, agent.name)).reverse := by
      rw [List.mem_reverse, List.mem_filterMap]
      refine ⟨agent, hagent, ?_⟩
      obtain ⟨own, hown, hsame⟩ := Option.map_eq_some_iff.mp hkey
      rw [hown, Option.map_some, hsame]
    have hlast := lookup_of_nodup_keys hkeys hmem
    exact hlast
  refine ⟨Declared.edge, ?_⟩
  rintro ⟨relation, hrelation, hsource, htarget⟩
  exact ⟨relation, hrelation, hfound hsource, hfound htarget⟩

theorem mem_addDependency_iff {kept : String → List String} {relation : String × String} {a b : String} :
    a ∈ addDependency agents kept relation b ↔ a ∈ kept b ∨
      channelToAgent agents relation.1 = some a ∧ channelToAgent agents relation.2 = some b := by
  unfold addDependency
  cases channelToAgent agents relation.1 with
  | none => simp
  | some source =>
    cases channelToAgent agents relation.2 with
    | none => simp
    | some target =>
      simp only [Option.some.injEq]
      split_ifs with hknown
      · refine ⟨.inl, ?_⟩
        rintro (hmem | ⟨rfl, rfl⟩)
        · exact hmem
        · exact hknown
      · rw [Function.update_apply]
        split_ifs with htarget
        · rw [htarget, List.mem_append, List.mem_singleton, and_iff_left rfl, eq_comm (a := a)]
        · rw [or_iff_left]
          exact fun h => htarget h.2.symm

/-- What an agent depends on is declared by the relations. -/
theorem mem_dependencies_iff {a b : String} :
    a ∈ dependencies agents relations b ↔ Declared agents relations a b := by
  have hfold (kept : String → List String) :
      a ∈ relations.foldl (addDependency agents) kept b ↔ a ∈ kept b ∨ Declared agents relations a b := by
    induction relations generalizing kept with
    | nil => simp [Declared]
    | cons relation relations ih =>
      rw [List.foldl_cons, ih, mem_addDependency_iff, or_assoc]
      simp only [Declared, List.exists_mem_cons_iff]
  rw [dependencies, hfold]
  simp

theorem fallbackSteps_names (dependencies : String → List String) (previous : Option String)
    (agents : List PromptAgentDescriptor) :
    (fallbackSteps dependencies previous agents).map FallbackStep.agentName =
      agents.map PromptAgentDescriptor.name := by
  induction agents generalizing dependencies previous with
  | nil => rfl
  | cons agent agents ih => rw [fallbackSteps, List.map_cons, ih, List.map_cons]

/-- The steps wait for the dependencies of their agents, or for the agent before if there are none. -/
theorem stepWaits_fallbackSteps_iff {dependencies : String → List String} {previous : Option String} {a b : String}
    (hnodup : (agents.map PromptAgentDescriptor.name).Nodup) :
    StepWaits (fallbackSteps dependencies previous agents) a b ↔
      b ∈ agents.map PromptAgentDescriptor.name ∧ (a ∈ dependencies b ∨ dependencies b = [] ∧
        (Precedes (agents.map PromptAgentDescriptor.name) a b ∨
          previous = some a ∧ (agents.map PromptAgentDescriptor.name).head? = some b)) := by
  induction agents generalizing dependencies previous with
  | nil => simp [StepWaits, fallbackSteps]
  | cons agent agents ih =>
    obtain ⟨hfresh, hnodup⟩ := List.nodup_cons.mp hnodup
    rw [fallbackSteps, List.map_cons, precedes_cons_iff, List.head?_cons, List.mem_cons]
    have hcons (step : FallbackStep) (steps : List FallbackStep) :
        StepWaits (step :: steps) a b ↔ (step.agentName = b ∧ a ∈ step.waitFor) ∨ StepWaits steps a b := by
      simp only [StepWaits, List.exists_mem_cons_iff]
    rw [hcons, ih hnodup]
    dsimp only
    by_cases hb : b = agent.name
    · subst hb
      have hnone : ¬Precedes (agents.map PromptAgentDescriptor.name) a agent.name := fun h => hfresh h.mem.2
      have hhead : (agents.map PromptAgentDescriptor.name).head? ≠ some agent.name := fun h =>
        hfresh (List.mem_of_head? h)
      cases hwait : dependencies agent.name with
      | nil =>
        simp only [List.isEmpty_nil, if_true, Option.mem_toList, hfresh, hnone, hhead, false_and,
          and_false, or_false, false_or, true_and, and_true, List.not_mem_nil]
      | cons first rest => simp [hfresh]
    · rw [Function.update_of_ne hb]
      have hname : agent.name ≠ b := fun h => hb h.symm
      simp only [hname, hb, false_and, false_or, Option.some.injEq]
      tauto

theorem canRun_iff_acc {steps : List FallbackStep} {name : String} :
    CanRun steps name ↔ Acc (StepWaits steps) name := by
  constructor
  · intro h
    induction h with
    | intro name _ ih => exact ⟨name, ih⟩
  · intro h
    induction h with
    | intro name _ ih => exact ⟨name, ih⟩

end Building

section Planning
variable {F : Type} [JsonNumber F]

/-- The plan for a prompt is runnable exactly if its relations are between the agents that their channels stand for,
or follow the list, and the list leads from no agent, over what it depends on, back to itself. -/
theorem buildDegradedExecutionPlanSteps_runnable_iff (fromStr : String → Option (Json F)) (promptText : List Char)
    (hacyclic : Acyclic
      (RelationEdge (parsePromptAgents fromStr promptText) (parsePromptRelations fromStr promptText))) :
    RunnablePlan (parsePromptAgents fromStr promptText) (parsePromptRelations fromStr promptText)
        (buildDegradedExecutionPlanSteps fromStr promptText) ↔
      (∀ a b, RelationEdge (parsePromptAgents fromStr promptText) (parsePromptRelations fromStr promptText) a b →
          Declared (parsePromptAgents fromStr promptText) (parsePromptRelations fromStr promptText) a b ∨
            Free (Declared (parsePromptAgents fromStr promptText) (parsePromptRelations fromStr promptText)) b ∧
              Precedes ((parsePromptAgents fromStr promptText).map PromptAgentDescriptor.name) a b) ∧
        Acyclic (LeadsBack ((parsePromptAgents fromStr promptText).map PromptAgentDescriptor.name)
          (Declared (parsePromptAgents fromStr promptText) (parsePromptRelations fromStr promptText))) := by
  have hnodup := parsePromptAgents_nodup fromStr promptText
  unfold buildDegradedExecutionPlanSteps
  generalize parsePromptAgents fromStr promptText = agents at *
  generalize parsePromptRelations fromStr promptText = relations at *
  dsimp only
  have hnames := fallbackSteps_names (dependencies agents relations) none agents
  have hmem {a channel : String} (h : HasChannel agents a channel) : a ∈ agents.map PromptAgentDescriptor.name := by
    obtain ⟨agent, hagent, rfl, -⟩ := h
    exact List.mem_map_of_mem hagent
  have hedge (a b : String) (h : RelationEdge agents relations a b) :
      a ∈ agents.map PromptAgentDescriptor.name ∧ b ∈ agents.map PromptAgentDescriptor.name := by
    obtain ⟨relation, -, hsource, htarget⟩ := h
    exact ⟨hmem hsource, hmem htarget⟩
  have hfree (b : String) : dependencies agents relations b = [] ↔ Free (Declared agents relations) b := by
    rw [List.eq_nil_iff_forall_not_mem]
    simp only [mem_dependencies_iff, Free]
  have hwaits : StepWaits (fallbackSteps (dependencies agents relations) none agents) =
      Waits (agents.map PromptAgentDescriptor.name) (Declared agents relations) := by
    funext a b
    rw [eq_iff_iff, stepWaits_fallbackSteps_iff hnodup, mem_dependencies_iff, hfree, Waits]
    simp
  have hdeclared : Acyclic (Declared agents relations) := fun a h =>
    hacyclic a (TransGen.mono (fun _ _ => Declared.edge) _ _ h)
  rw [← acyclic_waits_iff hnodup (fun a b h => hedge a b h.edge) hdeclared]
  have hwithin (a b : String) (h : Waits (agents.map PromptAgentDescriptor.name) (Declared agents relations) a b) :
      a ∈ agents.map PromptAgentDescriptor.name :=
    h.2.elim (fun h => (hedge a b h.edge).1) fun h => h.2.mem.1
  constructor
  · rintro ⟨-, -, hrelations, hrunnable, -⟩
    rw [hwaits] at hrelations hrunnable
    exact ⟨fun a b h => (hrelations a b h).2, hrunnable⟩
  · rintro ⟨hrelations, hrunnable⟩
    refine ⟨hnames, ?_, ?_, ?_, ?_⟩
    · rw [hwaits, hnames]
      exact hwithin
    · rw [hwaits]
      exact fun a b h => ⟨(hedge a b h).2, hrelations a b h⟩
    · rwa [hwaits]
    · intro step _
      rw [canRun_iff_acc, hwaits]
      exact (wellFounded_of_acyclic hwithin hrunnable).apply _

/-- Exact numbers, for prompts that are evaluated. -/
instance : JsonNumber Int where
  isFinite _ := true
  ofInteger value := value

def agentsSection : String :=
  "[\x7b\"name\":\"A\",\"channel\":\"a\"\x7d,\x7b\"name\":\"B\",\"channel\":\"b\"\x7d]"

def relationsSection (source target : String) : String :=
  "[\x7b\"source\":\"" ++ source ++ "\",\"target\":\"" ++ target ++ "\"\x7d]"

/-- The prompt lists A before B, and one relation between their channels. -/
def samplePrompt (source target : String) : List Char :=
  ("Agents: " ++ agentsSection ++ "\nRelations: " ++ relationsSection source target).toList

/-- What is parsed of the sections of the prompt. -/
def sampleJson (source target : String) (text : String) : Option (Json Int) :=
  if text = agentsSection then
    some (.array [.object [("name", .text "A"), ("channel", .text "a")],
      .object [("name", .text "B"), ("channel", .text "b")]])
  else if text = relationsSection source target then
    some (.array [.object [("source", .text source), ("target", .text target)]])
  else none

def sampleAgents : List PromptAgentDescriptor := [⟨"A", some "a"⟩, ⟨"B", some "b"⟩]

set_option maxRecDepth 4096 in
theorem samplePrompt_forward : parsePromptAgents (sampleJson "a" "b") (samplePrompt "a" "b") = sampleAgents ∧
    parsePromptRelations (sampleJson "a" "b") (samplePrompt "a" "b") = [("a", "b")] := by
  decide

set_option maxRecDepth 4096 in
theorem samplePrompt_backward : parsePromptAgents (sampleJson "b" "a") (samplePrompt "b" "a") = sampleAgents ∧
    parsePromptRelations (sampleJson "b" "a") (samplePrompt "b" "a") = [("b", "a")] := by
  decide

theorem hasChannel_sample {name channel : String} (h : HasChannel sampleAgents name channel) :
    name = "A" ∧ channelKey channel = "a" ∨ name = "B" ∧ channelKey channel = "b" := by
  have hkeys : channelKey "a" = "a" ∧ channelKey "b" = "b" := by decide
  obtain ⟨agent, hagent, rfl, hkey⟩ := h
  rw [sampleAgents, List.mem_cons, List.mem_singleton] at hagent
  rcases hagent with rfl | rfl
  · exact .inl ⟨rfl, (Option.some.inj hkey).symm.trans hkeys.1⟩
  · exact .inr ⟨rfl, (Option.some.inj hkey).symm.trans hkeys.2⟩

/-- With one relation, the only edge is between the agents of its channels. -/
theorem relationEdge_sample {source target a b : String} (h : RelationEdge sampleAgents [(source, target)] a b) :
    HasChannel sampleAgents a source ∧ HasChannel sampleAgents b target := by
  obtain ⟨relation, hrelation, hends⟩ := h
  rwa [List.mem_singleton.mp hrelation] at hends

/-- The second agent depends on the first. -/
theorem runnable_forward : RunnablePlan (parsePromptAgents (sampleJson "a" "b") (samplePrompt "a" "b"))
    (parsePromptRelations (sampleJson "a" "b") (samplePrompt "a" "b"))
    (buildDegradedExecutionPlanSteps (sampleJson "a" "b") (samplePrompt "a" "b")) := by
  have hkeys : channelKey "a" ≠ "b" ∧ channelKey "b" ≠ "a" := by decide
  have hedge {x y : String} (h : RelationEdge sampleAgents [("a", "b")] x y) : x = "A" ∧ y = "B" := by
    obtain ⟨hsource, htarget⟩ := relationEdge_sample h
    exact ⟨((hasChannel_sample hsource).resolve_right fun h => hkeys.1 h.2).1,
      ((hasChannel_sample htarget).resolve_left fun h => hkeys.2 h.2).1⟩
  have hdifferent : "A" ≠ "B" := by decide
  apply (buildDegradedExecutionPlanSteps_runnable_iff (sampleJson "a" "b") (samplePrompt "a" "b") ?_).mpr
  all_goals rw [samplePrompt_forward.1, samplePrompt_forward.2]
  · refine ⟨fun x y h => .inl ?_, fun x hcycle => ?_⟩
    · obtain ⟨rfl, rfl⟩ := hedge h
      exact ⟨_, List.mem_singleton_self _, by decide, by decide⟩
    · -- What leads back begins with an agent that depends on something and is not the last one.
      obtain ⟨y, ⟨root, ⟨before, middle, after, hitems, hneedy, -⟩, -⟩, -⟩ := TransGen.head'_iff.mp hcycle
      obtain ⟨z, hz⟩ := not_forall_not.mp hneedy
      obtain ⟨-, rfl⟩ := hedge hz.edge
      cases before with
      | nil => exact hdifferent (List.cons.inj hitems).1
      | cons first before =>
        have hlength := congrArg List.length hitems
        simp [sampleAgents] at hlength
        omega
  · exact acyclic_of_edges (fun x y => hedge) fun x hx hy => hdifferent (hx.symm.trans hy)

/-- The first agent depends on the second, which has no dependencies and waits for the first. -/
theorem deadlock_backward :
    Acyclic (RelationEdge (parsePromptAgents (sampleJson "b" "a") (samplePrompt "b" "a"))
        (parsePromptRelations (sampleJson "b" "a") (samplePrompt "b" "a"))) ∧
      ¬RunnablePlan (parsePromptAgents (sampleJson "b" "a") (samplePrompt "b" "a"))
        (parsePromptRelations (sampleJson "b" "a") (samplePrompt "b" "a"))
        (buildDegradedExecutionPlanSteps (sampleJson "b" "a") (samplePrompt "b" "a")) := by
  have hkeys : channelKey "a" ≠ "b" ∧ channelKey "b" ≠ "a" := by decide
  have hdifferent : "B" ≠ "A" := by decide
  have hedge {x y : String} (h : RelationEdge sampleAgents [("b", "a")] x y) : x = "B" ∧ y = "A" := by
    obtain ⟨hsource, htarget⟩ := relationEdge_sample h
    exact ⟨((hasChannel_sample hsource).resolve_left fun h => hkeys.2 h.2).1,
      ((hasChannel_sample htarget).resolve_right fun h => hkeys.1 h.2).1⟩
  unfold buildDegradedExecutionPlanSteps
  rw [samplePrompt_backward.1, samplePrompt_backward.2]
  have hsteps : fallbackSteps (dependencies sampleAgents [("b", "a")]) none sampleAgents =
      [{ agentName := "A", waitFor := ["B"] }, { agentName := "B", waitFor := ["A"] }] := by decide
  refine ⟨acyclic_of_edges (fun x y => hedge) fun x hx hy => hdifferent (hx.symm.trans hy), fun h => ?_⟩
  have hacyclic := h.acyclic
  dsimp only at hacyclic
  rw [hsteps] at hacyclic
  have hfirst : StepWaits [{ agentName := "A", waitFor := ["B"] }, { agentName := "B", waitFor := ["A"] }] "A" "B" :=
    ⟨_, List.mem_cons_of_mem _ (List.mem_singleton_self _), rfl, List.mem_singleton_self _⟩
  have hsecond : StepWaits [{ agentName := "A", waitFor := ["B"] }, { agentName := "B", waitFor := ["A"] }] "B" "A" :=
    ⟨_, List.mem_cons_self, rfl, List.mem_singleton_self _⟩
  exact hacyclic "A" (.head hfirst (.single hsecond))

end Planning

end Gail.Orchestration.DegradedPlan
