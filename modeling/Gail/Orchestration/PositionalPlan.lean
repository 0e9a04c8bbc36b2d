import Gail.Orchestration.DegradedPlan

/-! The other builder of the plan that stands in for one, which pairs names with channels and sources with targets by
their places, and when it makes the plan of the builder that parses the entries. -/
namespace Gail.Orchestration.DegradedPlan
open Gail.Library

section Steps

def agentsEndMarkers : List (List Char) := ["Relations:".toList, "Initial Data:".toList, "Instructions:".toList]
def relationsEndMarkers : List (List Char) := ["Initial Data:".toList, "Instructions:".toList]

/-- The agents of the names, each name in its first spelling. -/
def orderedAgents (names : List String) : List PromptAgentDescriptor :=
  dedupeAgents (names.filterMap fun name => do some { name := ← nonBlank name, channel := none })

/-- The name at the place of a channel: of several, the one that comes last. -/
def positionalAgent (names channels : List String) (channel : String) : Option String :=
  (names.zipIdx.filterMap fun (name, index) => do
    let name ← nonBlank name
    some (channelKey (← channels[index]?.bind nonBlank), name)).reverse.lookup (channelKey channel)

def addDependencyOf (agentOf : String → Option String) (dependencies : String → List String)
    (relation : String × String) : String → List String :=
  match agentOf relation.1, agentOf relation.2 with
  | some sourceAgent, some targetAgent =>
    if sourceAgent ∈ dependencies targetAgent then dependencies
    else Function.update dependencies targetAgent (dependencies targetAgent ++ [sourceAgent])
  | _, _ => dependencies

def dependenciesOf (agentOf : String → Option String) (relations : List (String × String)) : String → List String :=
  relations.foldl (addDependencyOf agentOf) fun _ => []

def executionPlanStepsFromContext (context : List Char) : Option (List FallbackStep) := do
  let agentsSection ← extractLabeledSection context "Agents:".toList agentsEndMarkers
  let names := extractNamedValuesFromSection agentsSection "name"
  let channels := extractNamedValuesFromSection agentsSection "channel"
  let agents := orderedAgents names
  let relations := match extractLabeledSection context "Relations:".toList relationsEndMarkers with
    | some relationsSection =>
      (extractNamedValuesFromSection relationsSection "source").zip
        (extractNamedValuesFromSection relationsSection "target")
    | none => []
  if agents.isEmpty then none
  else some (fallbackSteps (dependenciesOf (positionalAgent names channels) relations) none agents)

end Steps

section Statement
variable {F : Type} [JsonNumber F]

/-- A prompt whose sections are arrays. -/
structure ArrayPrompt (fromStr : String → Option (Json F)) (promptText : List Char) where
  agentsSection : List Char
  relationsSection : List Char
  agentItems : List (Json F)
  relationItems : List (Json F)
  agents : extractLabeledSection promptText "Agents:".toList agentsEndMarkers = some agentsSection
  relations : extractLabeledSection promptText "Relations:".toList relationsEndMarkers = some relationsSection
  agents_eq : fromStr (String.ofList agentsSection) = some (.array agentItems)
  relations_eq : fromStr (String.ofList relationsSection) = some (.array relationItems)

namespace ArrayPrompt
variable {fromStr : String → Option (Json F)} {promptText : List Char} (prompt : ArrayPrompt fromStr promptText)

/-- The agents that entries name, with the channels of those entries. -/
def named : List PromptAgentDescriptor := dedupeAgents (prompt.agentItems.filterMap agentOfItem)

/-- The relations of the entries that have both ends. -/
def complete : List (String × String) := prompt.relationItems.filterMap relationOfItem

def names : List String := extractNamedValuesFromSection prompt.agentsSection "name"
def channels : List String := extractNamedValuesFromSection prompt.agentsSection "channel"

/-- Sources and targets by their places. -/
def pairs : List (String × String) :=
  (extractNamedValuesFromSection prompt.relationsSection "source").zip
    (extractNamedValuesFromSection prompt.relationsSection "target")

/-- Both builders make the same plan, and it waits only for what a single entry relates and for the agent before. -/
structure Agrees : Prop where
  same : (executionPlanStepsFromContext promptText).getD [] = buildDegradedExecutionPlanSteps fromStr promptText
  sound : ∀ a b, StepWaits (buildDegradedExecutionPlanSteps fromStr promptText) a b →
    RelationEdge prompt.named prompt.complete a b ∨
      Precedes ((buildDegradedExecutionPlanSteps fromStr promptText).map FallbackStep.agentName) a b

end ArrayPrompt

/-- The agents that relations lead from to an agent, in the order of the relations. -/
def leadingTo (agentOf : String → Option String) (relations : List (String × String)) (name : String) : List String :=
  (relations.filterMap fun relation => if agentOf relation.2 = some name then agentOf relation.1 else none).eraseDups

/-- Two lists make an agent wait for the same, as an empty list stands for the agent before. -/
def SameWait (previous : Option String) (first second : List String) : Prop :=
  first = second ∨ first = [] ∧ second = previous.toList ∨ second = [] ∧ first = previous.toList

/-- What is paired by places is what the entries pair. -/
structure PairedAlike (fromStr : String → Option (Json F)) (promptText : List Char)
    (prompt : ArrayPrompt fromStr promptText) : Prop where
  names : (orderedAgents prompt.names).map PromptAgentDescriptor.name =
    (parsePromptAgents fromStr promptText).map PromptAgentDescriptor.name
  leads : ∀ before name after,
    (parsePromptAgents fromStr promptText).map PromptAgentDescriptor.name = before ++ name :: after →
      SameWait before.getLast?
        (leadingTo (positionalAgent prompt.names prompt.channels) prompt.pairs name)
        (leadingTo (channelToAgent (parsePromptAgents fromStr promptText)) (parsePromptRelations fromStr promptText)
          name)
  entries : (prompt.named ≠ [] ∧ prompt.complete ≠ []) ∨
    ∀ a b, Declared (parsePromptAgents fromStr promptText) (parsePromptRelations fromStr promptText) a b →
      Precedes ((parsePromptAgents fromStr promptText).map PromptAgentDescriptor.name) a b

end Statement

section Waiting

theorem dependencies_eq (agents : List PromptAgentDescriptor) (relations : List (String × String)) :
    dependencies agents relations = dependenciesOf (channelToAgent agents) relations := rfl

theorem dependenciesOf_concat (agentOf : String → Option String) (relations : List (String × String))
    (relation : String × String) : dependenciesOf agentOf (relations ++ [relation]) =
      addDependencyOf agentOf (dependenciesOf agentOf relations) relation := by
  rw [dependenciesOf, List.foldl_concat, dependenciesOf]

theorem eraseDups_concat (names : List String) (name : String) :
    (names ++ [name]).eraseDups = if name ∈ names.eraseDups then names.eraseDups else names.eraseDups ++ [name] := by
  rw [List.eraseDups_append, List.removeAll, List.filter_singleton]
  by_cases hknown : name ∈ names <;> simp [hknown, List.eraseDups_cons]

/-- One more relation leads to its target, if that is the agent. -/
theorem leadingTo_concat (agentOf : String → Option String) (relations : List (String × String))
    {relation : String × String} {source target : String} (hsource : agentOf relation.1 = some source)
    (htarget : agentOf relation.2 = some target) (name : String) :
    leadingTo agentOf (relations ++ [relation]) name =
      if target = name ∧ source ∉ leadingTo agentOf relations name then leadingTo agentOf relations name ++ [source]
      else leadingTo agentOf relations name := by
  by_cases hname : target = name
  · have hlast : [relation].filterMap (fun relation =>
        if agentOf relation.2 = some name then agentOf relation.1 else none) = [source] := by
      simp [htarget, hsource, hname]
    rw [leadingTo, List.filterMap_append, hlast, eraseDups_concat]
    change (if source ∈ leadingTo agentOf relations name then leadingTo agentOf relations name
      else leadingTo agentOf relations name ++ [source]) = _
    by_cases hknown : source ∈ leadingTo agentOf relations name
    · rw [if_pos hknown, if_neg fun h => h.2 hknown]
    · rw [if_neg hknown, if_pos ⟨hname, hknown⟩]
  · rw [if_neg fun h => hname h.1]
    simp [leadingTo, htarget, hname]

theorem leadingTo_concat_none (agentOf : String → Option String) (relations : List (String × String))
    {relation : String × String} (h : agentOf relation.1 = none ∨ agentOf relation.2 = none) (name : String) :
    leadingTo agentOf (relations ++ [relation]) name = leadingTo agentOf relations name := by
  unfold leadingTo
  rcases h with h | h <;> simp [h]

/-- The agents that an agent depends on are those that the relations lead from to it. -/
theorem dependenciesOf_eq (agentOf : String → Option String) (relations : List (String × String)) (name : String) :
    dependenciesOf agentOf relations name = leadingTo agentOf relations name := by
  induction relations using List.reverseRecOn generalizing name with
  | nil => rfl
  | append_singleton relations relation ih =>
    rw [dependenciesOf_concat, addDependencyOf]
    cases hsource : agentOf relation.1 with
    | none => rw [leadingTo_concat_none agentOf relations (.inl hsource), ← ih name]
    | some source =>
      cases htarget : agentOf relation.2 with
      | none => rw [leadingTo_concat_none agentOf relations (.inr htarget), ← ih name]
      | some target =>
        rw [leadingTo_concat agentOf relations hsource htarget]
        dsimp only
        by_cases hname : target = name
        · subst hname
          rw [ih target]
          by_cases hknown : source ∈ leadingTo agentOf relations target
          · rw [if_pos hknown, if_neg fun h => h.2 hknown, ih target]
          · rw [if_neg hknown, if_pos ⟨rfl, hknown⟩, Function.update_self]
        · rw [if_neg (c := target = name ∧ _) fun h => hname h.1]
          split_ifs
          · exact ih name
          · rw [Function.update_of_ne (Ne.symm hname), ih name]

/-- What a step waits for. -/
def waitFor (previous : Option String) (needed : List String) : List String :=
  if needed.isEmpty then previous.toList else needed

theorem waitFor_eq_iff {previous : Option String} {first second : List String} :
    waitFor previous first = waitFor previous second ↔ SameWait previous first second := by
  unfold waitFor SameWait
  cases first with
  | nil =>
    cases second with
    | nil => simp
    | cons head tail => simp only [List.isEmpty_nil, List.isEmpty_cons, if_true, Bool.false_eq_true, if_false,
        reduceCtorEq, false_or, false_and, or_false, true_and]; exact eq_comm
  | cons head tail =>
    cases second with
    | nil => simp only [List.isEmpty_nil, List.isEmpty_cons, if_true, Bool.false_eq_true, if_false, reduceCtorEq,
        false_or, false_and, true_and]
    | cons other rest => simp only [List.isEmpty_cons, Bool.false_eq_true, if_false, reduceCtorEq, false_and, or_false]

theorem fallbackSteps_congr {agents : List PromptAgentDescriptor} {first second : String → List String}
    (h : ∀ name ∈ agents.map PromptAgentDescriptor.name, first name = second name) (previous : Option String) :
    fallbackSteps first previous agents = fallbackSteps second previous agents := by
  induction agents generalizing first second previous with
  | nil => rfl
  | cons agent agents ih =>
    rw [List.map_cons, List.forall_mem_cons] at h
    rw [fallbackSteps, fallbackSteps, h.1, ih]
    intro name hname
    rw [Function.update_apply, Function.update_apply, h.2 name hname]

/-- As names do not repeat, it makes no difference that the dependencies of an agent are removed. -/
theorem fallbackSteps_cons {dependencies : String → List String} {previous : Option String}
    {agent : PromptAgentDescriptor} {agents : List PromptAgentDescriptor}
    (h : agent.name ∉ agents.map PromptAgentDescriptor.name) :
    fallbackSteps dependencies previous (agent :: agents) =
      { agentName := agent.name, waitFor := waitFor previous (dependencies agent.name) } ::
        fallbackSteps dependencies (some agent.name) agents := by
  rw [fallbackSteps, waitFor]
  refine congrArg _ (fallbackSteps_congr (fun name hname => ?_) _)
  have hother : name ≠ agent.name := fun heq => h (heq ▸ hname)
  exact Function.update_of_ne hother _ _

/-- Two plans are the same if they are of the same agents, and every agent waits alike. -/
theorem fallbackSteps_eq_iff {agents others : List PromptAgentDescriptor} {first second : String → List String}
    (hnodup : (agents.map PromptAgentDescriptor.name).Nodup) (hothers : (others.map PromptAgentDescriptor.name).Nodup)
    (previous : Option String) :
    fallbackSteps first previous agents = fallbackSteps second previous others ↔
      agents.map PromptAgentDescriptor.name = others.map PromptAgentDescriptor.name ∧
        ∀ before name after, others.map PromptAgentDescriptor.name = before ++ name :: after →
          SameWait (before.getLast?.or previous) (first name) (second name) := by
  induction agents generalizing others previous with
  | nil =>
    cases others with
    | nil => simp [fallbackSteps]
    | cons other others => simp [fallbackSteps]
  | cons agent agents ih =>
    cases others with
    | nil => simp [fallbackSteps]
    | cons other others =>
      rw [List.map_cons, List.nodup_cons] at hnodup hothers
      rw [fallbackSteps_cons hnodup.1, fallbackSteps_cons hothers.1, List.cons.injEq, FallbackStep.mk.injEq,
        List.map_cons, List.map_cons, List.cons.injEq]
      constructor
      · rintro ⟨⟨hname, -, hwait, -⟩, hrest⟩
        rw [hname] at hwait hrest
        obtain ⟨hnames, hleads⟩ := (ih hnodup.2 hothers.2 _).mp hrest
        refine ⟨⟨hname, hnames⟩, fun before name after hsplit => ?_⟩
        cases before with
        | nil =>
          obtain ⟨rfl, -⟩ := List.cons.inj hsplit
          exact waitFor_eq_iff.mp hwait
        | cons head before =>
          rw [List.cons_append, List.cons.injEq] at hsplit
          obtain ⟨rfl, hsplit⟩ := hsplit
          have hlead := hleads before name after hsplit
          rw [List.getLast?_cons, Option.some_or]
          cases hlast : before.getLast? <;> simpa [hlast] using hlead
      · rintro ⟨⟨hname, hnames⟩, hleads⟩
        have hfirst := waitFor_eq_iff.mpr (hleads [] other.name _ rfl)
        rw [hname]
        refine ⟨⟨rfl, rfl, hfirst, rfl, rfl⟩, (ih hnodup.2 hothers.2 _).mpr ⟨hnames, ?_⟩⟩
        intro before name after hsplit
        have hlead := hleads (other.name :: before) name after (by rw [hsplit, List.cons_append])
        rw [List.getLast?_cons, Option.some_or] at hlead
        cases hlast : before.getLast? <;> simpa [hlast] using hlead

end Waiting

section Results
variable {F : Type} [JsonNumber F] {fromStr : String → Option (Json F)} {promptText : List Char}

namespace ArrayPrompt

/-- Where entries name agents, these are the agents. -/
theorem parsePromptAgents_eq (prompt : ArrayPrompt fromStr promptText) (h : prompt.named ≠ []) :
    parsePromptAgents fromStr promptText = prompt.named := by
  have hsection : extractLabeledSection promptText "Agents:".toList
      ["Relations:".toList, "Initial Data:".toList, "Instructions:".toList] = some prompt.agentsSection :=
    prompt.agents
  rw [parsePromptAgents, hsection]
  dsimp only
  rw [prompt.agents_eq]
  exact if_neg fun hempty => h (List.isEmpty_iff.mp hempty)

theorem parsePromptRelations_eq (prompt : ArrayPrompt fromStr promptText) (h : prompt.complete ≠ []) :
    parsePromptRelations fromStr promptText = prompt.complete := by
  have hsection : extractLabeledSection promptText "Relations:".toList
      ["Initial Data:".toList, "Instructions:".toList] = some prompt.relationsSection := prompt.relations
  rw [parsePromptRelations, hsection]
  dsimp only
  rw [prompt.relations_eq]
  exact if_neg fun hempty => h (List.isEmpty_iff.mp hempty)

theorem executionPlanStepsFromContext_eq (prompt : ArrayPrompt fromStr promptText) :
    (executionPlanStepsFromContext promptText).getD [] =
      fallbackSteps (dependenciesOf (positionalAgent prompt.names prompt.channels) prompt.pairs) none
        (orderedAgents prompt.names) := by
  rw [executionPlanStepsFromContext, prompt.agents, prompt.relations]
  change (if (orderedAgents prompt.names).isEmpty = true then none else some _).getD [] = _
  by_cases hempty : orderedAgents prompt.names = []
  · rw [if_pos (List.isEmpty_iff.mpr hempty), hempty]
    rfl
  · rw [if_neg fun h => hempty (List.isEmpty_iff.mp h)]
    rfl

end ArrayPrompt

theorem orderedAgents_nodup (names : List String) :
    ((orderedAgents names).map PromptAgentDescriptor.name).Nodup := dedupeAgents_nodup _

/-- The plans are the same exactly if names and leads are. -/
theorem same_iff (prompt : ArrayPrompt fromStr promptText) :
    (executionPlanStepsFromContext promptText).getD [] = buildDegradedExecutionPlanSteps fromStr promptText ↔
      (orderedAgents prompt.names).map PromptAgentDescriptor.name =
          (parsePromptAgents fromStr promptText).map PromptAgentDescriptor.name ∧
        ∀ before name after,
          (parsePromptAgents fromStr promptText).map PromptAgentDescriptor.name = before ++ name :: after →
            SameWait before.getLast?
              (leadingTo (positionalAgent prompt.names prompt.channels) prompt.pairs name)
              (leadingTo (channelToAgent (parsePromptAgents fromStr promptText))
                (parsePromptRelations fromStr promptText) name) := by
  rw [prompt.executionPlanStepsFromContext_eq, buildDegradedExecutionPlanSteps, dependencies_eq,
    fallbackSteps_eq_iff (orderedAgents_nodup _) (parsePromptAgents_nodup fromStr promptText)]
  simp only [dependenciesOf_eq, Option.or_none]

/-- An entry with both ends is behind what is waited for, or it is the agent before. -/
theorem sound_iff (prompt : ArrayPrompt fromStr promptText) :
    (∀ a b, StepWaits (buildDegradedExecutionPlanSteps fromStr promptText) a b →
      RelationEdge prompt.named prompt.complete a b ∨
        Precedes ((buildDegradedExecutionPlanSteps fromStr promptText).map FallbackStep.agentName) a b) ↔
      (prompt.named ≠ [] ∧ prompt.complete ≠ []) ∨
        ∀ a b, Declared (parsePromptAgents fromStr promptText) (parsePromptRelations fromStr promptText) a b →
          Precedes ((parsePromptAgents fromStr promptText).map PromptAgentDescriptor.name) a b := by
  have hwaits (a b : String) : StepWaits (fallbackSteps (dependencies (parsePromptAgents fromStr promptText)
      (parsePromptRelations fromStr promptText)) none (parsePromptAgents fromStr promptText)) a b ↔ _ :=
    stepWaits_fallbackSteps_iff (parsePromptAgents_nodup fromStr promptText)
  simp only [buildDegradedExecutionPlanSteps, hwaits, fallbackSteps_names, mem_dependencies_iff, reduceCtorEq,
    false_and, or_false]
  constructor
  · intro hsound
    by_cases hparsed : prompt.named ≠ [] ∧ prompt.complete ≠ []
    · exact .inl hparsed
    · refine .inr fun a b hdeclared => ?_
      obtain ⟨relation, -, -, htarget⟩ := hdeclared.edge
      obtain ⟨agent, hagent, rfl, -⟩ := htarget
      refine (hsound a _ ⟨List.mem_map_of_mem hagent, .inl hdeclared⟩).resolve_left ?_
      rintro ⟨relation, hrelation, ⟨source, hsource, -⟩, -⟩
      exact hparsed ⟨List.ne_nil_of_mem hsource, List.ne_nil_of_mem hrelation⟩
  · rintro hentries a b ⟨-, hdeclared | ⟨-, hprecedes⟩⟩
    · rcases hentries with ⟨hnamed, hcomplete⟩ | hnext
      · rw [prompt.parsePromptAgents_eq hnamed, prompt.parsePromptRelations_eq hcomplete] at hdeclared
        exact .inl hdeclared.edge
      · exact .inr (hnext a b hdeclared)
    · exact .inr hprecedes

/-- The builders agree on a prompt exactly if pairing by places comes to what the entries pair. -/
theorem agrees_iff (prompt : ArrayPrompt fromStr promptText) :
    prompt.Agrees ↔ PairedAlike fromStr promptText prompt := by
  constructor
  · intro h
    obtain ⟨hnames, hleads⟩ := (same_iff prompt).mp h.same
    exact ⟨hnames, hleads, (sound_iff prompt).mp h.sound⟩
  · intro h
    exact ⟨(same_iff prompt).mpr ⟨h.names, h.leads⟩, (sound_iff prompt).mpr h.entries⟩

/-- Both entries have their channels. -/
def sampleArray : ArrayPrompt (sampleJson "a" "b") (samplePrompt "a" "b") where
  agentsSection := agentsSection.toList
  relationsSection := (relationsSection "a" "b").toList
  agentItems := [.object [("name", .text "A"), ("channel", .text "a")],
    .object [("name", .text "B"), ("channel", .text "b")]]
  relationItems := [.object [("source", .text "a"), ("target", .text "b")]]
  agents := by decide +kernel
  relations := by decide +kernel
  agents_eq := by rw [sampleJson, if_pos (by decide +kernel)]
  relations_eq := by rw [sampleJson, if_neg (by decide +kernel), if_pos (by decide +kernel)]

theorem sampleArray_values : sampleArray.names = ["A", "B"] ∧ sampleArray.channels = ["a", "b"] ∧
    sampleArray.pairs = [("a", "b")] := by
  decide +kernel

theorem agrees_complete : sampleArray.Agrees := by
  obtain ⟨hnames, hchannels, hpairs⟩ := sampleArray_values
  refine (agrees_iff sampleArray).mpr ⟨?_, fun before name after hsplit => .inl ?_, .inl ⟨by decide, by decide⟩⟩
  · rw [hnames, samplePrompt_forward.1]
    decide
  · rw [samplePrompt_forward.1] at hsplit
    rw [hnames, hchannels, hpairs, samplePrompt_forward.1, samplePrompt_forward.2]
    have hname : name = "A" ∨ name = "B" := by
      have hmem : name ∈ ["A", "B"] := by
        change ["A", "B"] = before ++ name :: after at hsplit
        rw [hsplit]
        simp
      simpa using hmem
    rcases hname with rfl | rfl
    · decide
    · decide

/-- The first agent and the third have no channel. -/
def gapAgentsSection : String :=
  "[\x7b\"name\":\"A\"\x7d,\x7b\"name\":\"B\",\"channel\":\"b\"\x7d,\x7b\"name\":\"C\"\x7d," ++
    "\x7b\"name\":\"D\",\"channel\":\"d\"\x7d]"

def gapPrompt : List Char := ("Agents: " ++ gapAgentsSection ++ "\nRelations: " ++ relationsSection "b" "d").toList

def gapAgentItems : List (Json Int) :=
  [.object [("name", .text "A")], .object [("name", .text "B"), ("channel", .text "b")],
    .object [("name", .text "C")], .object [("name", .text "D"), ("channel", .text "d")]]

def gapJson (text : String) : Option (Json Int) :=
  if text = gapAgentsSection then some (.array gapAgentItems)
  else if text = relationsSection "b" "d" then some (.array [.object [("source", .text "b"), ("target", .text "d")]])
  else none

def gapArray : ArrayPrompt gapJson gapPrompt where
  agentsSection := gapAgentsSection.toList
  relationsSection := (relationsSection "b" "d").toList
  agentItems := gapAgentItems
  relationItems := [.object [("source", .text "b"), ("target", .text "d")]]
  agents := by decide +kernel
  relations := by decide +kernel
  agents_eq := by rw [gapJson, if_pos (by decide +kernel)]
  relations_eq := by rw [gapJson, if_neg (by decide +kernel), if_pos (by decide +kernel)]

theorem gapArray_values : gapArray.names = ["A", "B", "C", "D"] ∧ gapArray.channels = ["b", "d"] ∧
    gapArray.pairs = [("b", "d")] := by
  decide +kernel

/-- By places, the channel of B is that of A, and the channel of D that of B; so D waits for C and not for B. -/
theorem gap_not_agrees : ¬ gapArray.Agrees := by
  intro h
  obtain ⟨hnames, hchannels, hpairs⟩ := gapArray_values
  have hsame := h.same
  rw [gapArray.executionPlanStepsFromContext_eq, hnames, hchannels, hpairs, buildDegradedExecutionPlanSteps,
    gapArray.parsePromptAgents_eq (by decide), gapArray.parsePromptRelations_eq (by decide)] at hsame
  exact absurd hsame (by decide)

end Results

end Gail.Orchestration.DegradedPlan
