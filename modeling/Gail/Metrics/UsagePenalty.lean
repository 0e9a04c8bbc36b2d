import Gail.Metrics.MetricsStore
import Mathlib.Tactic.NormNum

/-! The penalty for recent usage, which looks its statistics up under another key than the one that results are filed
under. -/
namespace Gail.Metrics
open Gail.Library Gail.Trading

/-- The arguments of `record_result_with_context`, with its clock readings. -/
structure ResultCall (F : Type) where
  summary : CandidateSummary
  source : String
  requestProfile : String
  workflow : String
  role : String
  requestCategory : Option String
  success : Bool
  latencyMs : Option Nat
  telemetry : Option LocalUsageTelemetry
  quality : F
  error : Option String
  bucketNow : F
  now : F

/-- `exp`, `ln_1p` and `round` of the standard library. -/
structure UsageMath (F : Type) where
  exp : F → F
  ln1p : F → F
  round : F → F

section Usage
variable {F : Type} [Scalar F]

namespace ResultCall

def operation (call : ResultCall F) : MetricsOperation F :=
  .recordResultWithContext call.summary call.source call.requestProfile call.workflow call.role call.requestCategory
    call.success call.latencyMs call.telemetry call.quality call.error

def merge (call : ResultCall F) (stats : StatsBucket F) : StatsBucket F :=
  mergeStats call.bucketNow stats call.success call.latencyMs call.telemetry call.quality call.error

def roleKey (call : ResultCall F) : String :=
  routingProfileKey call.source call.requestProfile call.workflow call.role call.requestCategory

/-- The call records usage of the candidate under the workflow and the role. -/
def IsUsage (call : ResultCall F) (candidateId workflow role : String) : Prop :=
  call.summary.candidateId = candidateId ∧ call.workflow = workflow ∧ call.role = role

instance (call : ResultCall F) (candidateId workflow role : String) :
    Decidable (call.IsUsage candidateId workflow role) := inferInstanceAs (Decidable (_ ∧ _ ∧ _))

end ResultCall

def recordCall (data : MetricsData F) (call : ResultCall F) : MetricsData F :=
  (call.operation.apply call.bucketNow call.now data).getD data

def recordCalls (data : MetricsData F) (calls : List (ResultCall F)) : MetricsData F := calls.foldl recordCall data

/-- The statistics that the penalty is computed from. -/
def usageStats (data : MetricsData F) (candidateId workflow role : String) : Option (StatsBucket F) :=
  data.candidates[candidateId]?.map fun bucket => (bucket.roles[workflow ++ ":" ++ role]?).getD bucket.stats

def roundTo (math : UsageMath F) (value factor : F) : F := math.round (value * factor) / factor

def usagePenalty (math : UsageMath F) (now decaySeconds : F) (stats : StatsBucket F) : F :=
  let updatedAt := stats.updatedAt.getD 0.0
  let ageSeconds := Scalar.max (now - updatedAt) 0.0
  if stats.total = 0 then 0.0
  else if updatedAt ≤ 0.0 then 0.0
  else if decaySeconds * 8.0 < ageSeconds then 0.0
  else
    let recency := math.exp (-(ageSeconds / decaySeconds))
    let intensity := clamp (math.ln1p (Scalar.ofCount stats.total) / 6.0) 0.0 1.5
    roundTo math (intensity * recency) 1000000.0

def recentUsagePenalty (math : UsageMath F) (now : F) (data : MetricsData F) (candidateId workflow role : String)
    (decaySeconds : F) : F :=
  ((usageStats data candidateId workflow role).map
    (usagePenalty math now (Scalar.max decaySeconds 30.0))).getD 0.0

/-- The statistics of these calls alone. -/
def usageOf (calls : List (ResultCall F)) : StatsBucket F := calls.foldl (fun stats call => call.merge stats) {}

/-- The candidate's usage under the workflow and the role is read back, and nothing else. -/
def ReadsOwnUsage (data : MetricsData F) (calls : List (ResultCall F)) (candidateId workflow role : String) : Prop :=
  usageStats data candidateId workflow role =
    some (usageOf (calls.filter fun call => call.IsUsage candidateId workflow role))

end Usage

section Keys
variable {F : Type}

theorem toLower_ne_colon {c : Char} (h : c ≠ ':') : c.toLower ≠ ':' := by
  by_cases hupper : c.isUpper = true
  · intro hcolon
    have hnat := toNat_toLower hupper
    have hrange := isUpper_iff.mp hupper
    rw [hcolon] at hnat
    have hfixed : ':'.toNat = 58 := rfl
    omega
  · rwa [toLower_of_not_isUpper hupper]

theorem colon_not_mem_cleanKeyPart (value : String) : ':' ∉ (cleanKeyPart value).toList := by
  unfold cleanKeyPart
  rw [String.toList_ofList]
  intro h
  have hmem := (List.dropWhile_sublist _).subset ((List.rdropWhile_prefix _ _).subset (List.mem_of_mem_take h))
  obtain ⟨c, -, hc⟩ := List.mem_map.mp hmem
  split_ifs at hc with hclean
  · refine toLower_ne_colon ?_ hc
    rintro rfl
    revert hclean
    decide
  · exact absurd hc (by decide)

theorem colon_not_mem_part {text name : String} (htext : ':' ∉ text.toList) (hname : ':' ∉ name.toList)
    (value : String) : ':' ∉ (text ++ name ++ cleanKeyPart value).toList := by
  rw [String.toList_append, String.toList_append, List.mem_append, List.mem_append, not_or, not_or]
  exact ⟨⟨htext, hname⟩, colon_not_mem_cleanKeyPart value⟩

/-- No key that results are filed under has a colon. -/
theorem colon_not_mem_routingProfileKey (source requestProfile workflow role : String)
    (requestCategory : Option String) :
    ':' ∉ (routingProfileKey source requestProfile workflow role requestCategory).toList := by
  have hsource := colon_not_mem_part (show ':' ∉ "".toList by decide) (show ':' ∉ "source=".toList by decide) source
  rw [String.empty_append] at hsource
  have hprofile := colon_not_mem_part hsource (show ':' ∉ ";profile=".toList by decide) requestProfile
  have hworkflow := colon_not_mem_part hprofile (show ':' ∉ ";workflow=".toList by decide) workflow
  have hrole := colon_not_mem_part hworkflow (show ':' ∉ ";role=".toList by decide) role
  exact colon_not_mem_part hrole (show ':' ∉ ";category=".toList by decide) (requestCategory.getD "")

theorem roleKey_ne (call : ResultCall F) (workflow role : String) : call.roleKey ≠ workflow ++ ":" ++ role := by
  intro h
  have hcolon : ':' ∈ call.roleKey.toList := by
    have hsingle : ':' ∈ ":".toList := by decide
    rw [h, String.toList_append, String.toList_append]
    exact List.mem_append_left _ (List.mem_append_right _ hsingle)
  exact colon_not_mem_routingProfileKey _ _ _ _ _ hcolon

end Keys

def callsOf {F : Type} (candidateId : String) (calls : List (ResultCall F)) : List (ResultCall F) :=
  calls.filter fun call => call.summary.candidateId = candidateId

theorem callsOf_concat {F : Type} (candidateId : String) (calls : List (ResultCall F)) (call : ResultCall F) :
    callsOf candidateId (calls ++ [call]) =
      callsOf candidateId calls ++ if call.summary.candidateId = candidateId then [call] else [] := by
  rw [callsOf, List.filter_append]
  congr 1
  split_ifs with hcall
  · exact List.filter_cons_of_pos (by simpa using hcall)
  · exact List.filter_cons_of_neg (by simpa using hcall)

section Runs
variable {F : Type} [Scalar F] {data : MetricsData F} {calls : List (ResultCall F)} {candidateId workflow role : String}

/-- The statistics count as many results. -/
structure Counts (n : Nat) (stats : StatsBucket F) : Prop where
  parts : stats.successes + stats.failures = n
  total : stats.total = n

theorem Counts.mergeLatency {n : Nat} {stats : StatsBucket F} (h : Counts n stats) (success : Bool) (latencyMs : Nat) :
    Counts n (stats.mergeLatency success latencyMs) := by
  unfold StatsBucket.mergeLatency
  split
  · exact ⟨h.parts, h.total⟩
  · exact ⟨h.parts, h.total⟩

theorem Counts.mergeTelemetry {n : Nat} {stats : StatsBucket F} (h : Counts n stats) (success : Bool)
    (latencyMs : Option Nat) (telemetry : LocalUsageTelemetry) :
    Counts n (stats.mergeTelemetry success latencyMs telemetry) := by
  unfold StatsBucket.mergeTelemetry
  cases telemetry.queueWaitMs <;> dsimp only <;> split <;> try split_ifs
  all_goals exact ⟨h.parts, h.total⟩

theorem Counts.mergeStats {n : Nat} {stats : StatsBucket F} (h : Counts n stats) (now : F) (success : Bool)
    (latencyMs : Option Nat) (telemetry : Option LocalUsageTelemetry) (quality : F) (error : Option String) :
    Counts (n + 1) (mergeStats now stats success latencyMs telemetry quality error) := by
  have hcounted : Counts (n + 1)
      { stats with
        successes := if success then stats.successes + 1 else stats.successes
        failures := if success then stats.failures else stats.failures + 1
        total := (if success then stats.successes + 1 else stats.successes) +
          if success then stats.failures else stats.failures + 1 } := by
    have hparts := h.parts
    constructor <;> dsimp only <;> split_ifs <;> omega
  unfold Metrics.mergeStats
  dsimp only
  have hlatency (latencyMs : Option Nat) {merged : StatsBucket F} (hmerged : Counts (n + 1) merged) :
      Counts (n + 1) ((latencyMs.map (merged.mergeLatency success)).getD merged) := by
    cases latencyMs with
    | none => exact hmerged
    | some latencyMs => exact hmerged.mergeLatency success latencyMs
  have htelemetry {merged : StatsBucket F} (hmerged : Counts (n + 1) merged) :
      Counts (n + 1) ((telemetry.map (merged.mergeTelemetry success latencyMs)).getD merged) := by
    cases telemetry with
    | none => exact hmerged
    | some telemetry => exact hmerged.mergeTelemetry success latencyMs telemetry
  have hall := htelemetry (hlatency latencyMs hcounted)
  exact ⟨hall.parts, hall.total⟩

theorem counts_usageOf (calls : List (ResultCall F)) : Counts calls.length (usageOf calls) := by
  induction calls using List.reverseRecOn with
  | nil => exact ⟨rfl, rfl⟩
  | append_singleton calls call ih =>
    rw [usageOf, List.foldl_append, List.length_append]
    exact ih.mergeStats call.bucketNow call.success call.latencyMs call.telemetry call.quality call.error

/-- What the store has of a candidate after these calls: the statistics of its calls together, and none under the key
of the workflow and the role. -/
structure Filed (data : MetricsData F) (calls : List (ResultCall F)) (candidateId workflow role : String) : Prop where
  stats : data.candidates[candidateId]?.map CandidateBucket.stats =
    if callsOf candidateId calls = [] then none else some (usageOf (callsOf candidateId calls))
  roles : ∀ bucket, data.candidates[candidateId]? = some bucket → bucket.roles[workflow ++ ":" ++ role]? = none

/-- One more call. -/
theorem Filed.recordCall (h : Filed data calls candidateId workflow role) (call : ResultCall F) :
    Filed (recordCall data call) (calls ++ [call]) candidateId workflow role := by
  have hcandidates : (Metrics.recordCall data call).candidates =
      entryOrDefault data.candidates call.summary.candidateId {} fun bucket =>
        { bucket.describe call.summary with
          stats := call.merge (bucket.describe call.summary).stats
          roles := entryOrDefault (bucket.describe call.summary).roles call.roleKey {} call.merge } := rfl
  by_cases hcall : call.summary.candidateId = candidateId
  · have hcalls := callsOf_concat candidateId calls call
    rw [if_pos hcall] at hcalls
    have hbefore : ((data.candidates[candidateId]?).getD {}).stats = usageOf (callsOf candidateId calls) := by
      have hstats := h.stats
      cases hbucket : data.candidates[candidateId]? with
      | none =>
        rw [hbucket, Option.map_none] at hstats
        split_ifs at hstats with hnone
        rw [hnone]
        rfl
      | some bucket =>
        rw [hbucket, Option.map_some] at hstats
        split_ifs at hstats with hnone
        exact Option.some.inj hstats
    have hkeys : ((data.candidates[candidateId]?).getD {}).roles[workflow ++ ":" ++ role]? = none := by
      cases hbucket : data.candidates[candidateId]? with
      | none => exact Std.TreeMap.getElem?_emptyc
      | some bucket => exact h.roles bucket hbucket
    constructor
    · rw [hcandidates, entryOrDefault, hcall, Std.TreeMap.getElem?_insert_self, hcalls, if_neg (by simp),
        Option.map_some, usageOf, List.foldl_append]
      exact congrArg (fun stats => some (call.merge stats)) hbefore
    · intro bucket hbucket
      rw [hcandidates, entryOrDefault, hcall, Std.TreeMap.getElem?_insert_self] at hbucket
      rw [← Option.some.inj hbucket]
      dsimp only [entryOrDefault, CandidateBucket.describe]
      rw [Std.TreeMap.getElem?_insert, if_neg, hkeys]
      exact fun heq => roleKey_ne call workflow role (Std.LawfulEqCmp.eq_of_compare heq)
  · have hcalls := callsOf_concat candidateId calls call
    rw [if_neg hcall, List.append_nil] at hcalls
    have hkept : (Metrics.recordCall data call).candidates[candidateId]? = data.candidates[candidateId]? := by
      rw [hcandidates, entryOrDefault, Std.TreeMap.getElem?_insert, if_neg]
      exact fun heq => hcall (Std.LawfulEqCmp.eq_of_compare heq)
    exact ⟨by rw [hkept, hcalls, h.stats], fun bucket hbucket => h.roles bucket (hkept ▸ hbucket)⟩

theorem recordCalls_filed (hnew : data.candidates[candidateId]? = none) (calls : List (ResultCall F))
    (workflow role : String) : Filed (recordCalls data calls) calls candidateId workflow role := by
  induction calls using List.reverseRecOn with
  | nil => exact ⟨by rw [recordCalls, List.foldl_nil, hnew]; rfl, fun bucket hbucket => by
      rw [recordCalls, List.foldl_nil, hnew] at hbucket
      cases hbucket⟩
  | append_singleton calls call ih =>
    rw [recordCalls, List.foldl_append]
    exact ih.recordCall call

/-- Of a candidate that is new to the store, the usage of a role is read back exactly if none of its calls is under
another workflow or role. -/
theorem usage_read_back_iff (hnew : data.candidates[candidateId]? = none)
    (hown : ∃ call ∈ calls, call.IsUsage candidateId workflow role) :
    ReadsOwnUsage (recordCalls data calls) calls candidateId workflow role ↔
      ∀ call ∈ calls, call.summary.candidateId = candidateId → call.workflow = workflow ∧ call.role = role := by
  obtain ⟨hstats, hroles⟩ := recordCalls_filed hnew calls workflow role
  obtain ⟨own, hmem, howned⟩ := hown
  have hne : callsOf candidateId calls ≠ [] :=
    List.ne_nil_of_mem (List.mem_filter.mpr ⟨hmem, decide_eq_true howned.1⟩)
  rw [if_neg hne] at hstats
  obtain ⟨bucket, hbucket, hall⟩ := Option.map_eq_some_iff.mp hstats
  have hread : usageStats (recordCalls data calls) candidateId workflow role =
      some (usageOf (callsOf candidateId calls)) := by
    rw [usageStats, hbucket, Option.map_some, hroles bucket hbucket, Option.getD_none, hall]
  have hsplit : (calls.filter fun call => call.IsUsage candidateId workflow role) =
      (callsOf candidateId calls).filter fun call => call.workflow = workflow ∧ call.role = role := by
    rw [callsOf, List.filter_filter]
    refine List.filter_congr fun call _ => ?_
    rw [← Bool.decide_and, decide_eq_decide, ResultCall.IsUsage]
    tauto
  rw [ReadsOwnUsage, hread, Option.some_inj, hsplit]
  constructor
  · intro heq call hcall hid
    have hlength : (callsOf candidateId calls).length =
        ((callsOf candidateId calls).filter fun call => call.workflow = workflow ∧ call.role = role).length := by
      rw [← (counts_usageOf (callsOf candidateId calls)).total, heq, (counts_usageOf _).total]
    have hkept := List.length_filter_eq_length_iff.mp hlength.symm call
      (List.mem_filter.mpr ⟨hcall, decide_eq_true hid⟩)
    exact of_decide_eq_true hkept
  · intro hrest
    congr 1
    symm
    rw [List.filter_eq_self]
    intro call hcall
    obtain ⟨hmem, hid⟩ := List.mem_filter.mp hcall
    exact decide_eq_true (hrest call hmem (of_decide_eq_true hid))

end Runs

section Sample

def sampleCall (role : String) (now : ℚ) : ResultCall ℚ :=
  { summary :=
      { candidateId := "ollama:llama3.2"
        provider := "ollama"
        model := "llama3.2"
        configuredModel := "llama3.2"
        resolvedModel := "llama3.2"
        hostId := none
        specialties := [] }
    source := "unknown"
    requestProfile := "unclassified"
    workflow := "project_solver"
    role
    requestCategory := none
    success := true
    latencyMs := some 42
    telemetry := none
    quality := 1
    error := none
    bucketNow := now
    now }

/-- The functions at the arguments that the sample meets. -/
def sampleMath : UsageMath ℚ :=
  { exp := fun x => if x = 0 then 1 else 0
    ln1p := fun x => if x = 2 then 1.0986122886681098 else 0
    round := fun x => (x + 1 / 2).floor }

theorem usage_read_back_planner :
    ReadsOwnUsage (recordCalls {} [sampleCall "planner" 100, sampleCall "planner" 160])
        [sampleCall "planner" 100, sampleCall "planner" 160] "ollama:llama3.2" "project_solver" "planner" ↔
      ∀ call ∈ [sampleCall "planner" 100, sampleCall "planner" 160],
        call.summary.candidateId = "ollama:llama3.2" → call.workflow = "project_solver" ∧ call.role = "planner" :=
  usage_read_back_iff rfl ⟨sampleCall "planner" 100, List.mem_cons_self, rfl, rfl, rfl⟩

/-- A planner that was used long ago is penalised for what the same candidate has just done as a reviewer. -/
theorem reviewer_penalises_planner :
    ¬ ReadsOwnUsage (recordCalls {} [sampleCall "planner" 100, sampleCall "reviewer" 10000])
        [sampleCall "planner" 100, sampleCall "reviewer" 10000] "ollama:llama3.2" "project_solver" "planner" ∧
      recentUsagePenalty sampleMath 10000 (recordCalls {} [sampleCall "planner" 100, sampleCall "reviewer" 10000])
        "ollama:llama3.2" "project_solver" "planner" 600 = 0.183102 ∧
      usagePenalty sampleMath 10000 600 (usageOf [sampleCall "planner" 100]) = 0 := by
  refine ⟨?_, by decide +kernel, by decide +kernel⟩
  intro h
  have htotal := congrArg (Option.map StatsBucket.total) h
  exact absurd htotal (by decide +kernel)

end Sample
end Gail.Metrics
