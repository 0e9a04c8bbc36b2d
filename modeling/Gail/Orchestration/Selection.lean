import Gail.Library.FloatOrder
import Gail.Library.Text
import Gail.Trading.Scalar
import Mathlib.Data.List.Rotate
import Std.Data.TreeMap.Lemmas

/-! The provider candidates that a request can be sent to, with the two identities they have, and how a wave picks
among them: by rank, by the estimated time to a useful answer, and in turn among the endpoints of one model. -/
namespace Gail.Orchestration
open Gail.Library Gail.Trading

/-- A candidate as far as selection, load accounting and dispatch read it. -/
structure ProviderCandidate (F : Type) where
  /-- `profile.name` and `profile.base_url`. -/
  name : String
  baseUrl : Option String
  /-- Host, port and path of the base URL, which `candidate_scope_from_base_url` reads off it with the
  `url` crate and sanitizes. -/
  baseUrlScope : Option String
  source : String
  providerType : String
  configuredModel : String
  specialties : List String
  hostGroup : Option String
  maxConcurrentRequests : Option Nat
  resourceCostCpu : F
  resourceCostRamMb : Nat
  resourceCostVramMb : Nat
  hostCpuBudget : Option F
  hostRamBudgetMb : Option Nat
  hostVramBudgetMb : Option Nat
  deriving DecidableEq

/-- `split('_')`, without the empty parts. -/
def scopeParts (chars : List Char) : List String :=
  ((chars.splitOn '_').filter fun part => !part.isEmpty).map String.ofList

def sanitizeCandidateScope (value fallback : String) : String :=
  let cleaned := value.toList.map fun c => if c.isAlphanum then c.toLower else '_'
  let collapsed := "_".intercalate (scopeParts cleaned)
  if collapsed.isEmpty then fallback else collapsed

namespace ProviderCandidate
variable {F : Type}

def isOllama (candidate : ProviderCandidate F) : Bool :=
  eqIgnoreAsciiCase candidate.providerType "ollama"

def isLocalFallback (candidate : ProviderCandidate F) : Bool :=
  eqIgnoreAsciiCase candidate.providerType "ollama" || candidate.specialties.contains "local"

def endpointScope (candidate : ProviderCandidate F) : Option String :=
  let explicitName := trim candidate.name
  if candidate.isOllama then
    if !explicitName.isEmpty && !eqIgnoreAsciiCase explicitName candidate.providerType then
      some (sanitizeCandidateScope explicitName "endpoint")
    else candidate.baseUrlScope
  else if !eqIgnoreAsciiCase candidate.providerType "openai" then none
  else candidate.baseUrlScope

def candidateId (candidate : ProviderCandidate F) : String :=
  let model := trim candidate.configuredModel
  candidate.providerType ++ "/" ++ (if model.isEmpty then "default" else model) ++
    ((candidate.endpointScope.map fun scope => "@" ++ scope).getD "")

def attemptKey (candidate : ProviderCandidate F) : String :=
  candidate.providerType ++ "::" ++ trim candidate.configuredModel ++ "::" ++
    trim (candidate.baseUrl.getD "")

/-- The identity of equivalent work, whatever its endpoint. -/
def modelKey (candidate : ProviderCandidate F) : String :=
  toAsciiLowercase (trim candidate.providerType) ++ "::" ++
    toAsciiLowercase (trim candidate.configuredModel)

end ProviderCandidate

/-- The conversions that the dispatch policy makes, and the total order of the candidates. -/
class RoundScalar (F : Type) extends Scalar F where
  round : F → F
  /-- `as usize`, which cuts the fraction off and saturates. -/
  toUsize : F → Nat
  /-- What `total_cmp` compares. -/
  Key : Type
  keyOrder : LinearOrder Key
  totalKey : F → Key
  /-- The key of `f64::INFINITY`. -/
  infinityKey : Key

instance : RoundScalar Float where
  round := Float.round
  toUsize x := x.toUInt64.toNat
  Key := ℤ
  keyOrder := inferInstance
  totalKey := FloatOrder.totalKey
  infinityKey := FloatOrder.infinityKey

/-- No exact number is infinite. -/
instance : RoundScalar ℚ where
  round x := if x < 0 then -((-x + 1 / 2).floor : ℚ) else ((x + 1 / 2).floor : ℚ)
  toUsize x := x.floor.toNat
  Key := WithTop ℚ
  keyOrder := inferInstance
  totalKey x := x
  infinityKey := ⊤

instance {F : Type} [RoundScalar F] : LinearOrder (RoundScalar.Key F) := RoundScalar.keyOrder

structure RankedCandidate (F : Type) where
  candidate : ProviderCandidate F
  score : F
  healthOk : Bool
  healthMode : Option String
  generationTokensPerSecond : Option F

structure CandidateDispatchEstimate (F : Type) where
  samples : Nat
  serviceTimeMs : F
  estimatedUsefulCompletionMs : F

/-- The estimates, under candidate ids. -/
abbrev DispatchEstimates (F : Type) := Std.TreeMap String (CandidateDispatchEstimate F)

/-- `normalize_key`. -/
def normalizeKey (value fallback : String) : String :=
  let cleaned := toAsciiLowercase (trim value)
  if cleaned.isEmpty then fallback else cleaned

section Definitions
variable {F : Type}

/-- `partial_cmp(..).unwrap_or(Equal)`. -/
def compareNumbers [Scalar F] (left right : F) : Ordering :=
  if left < right then .lt else if right < left then .gt else .eq

/-- `parse::<f64>` of digits and points. -/
def parseDecimal [Scalar F] (text : List Char) : Option F :=
  match text.splitOn '.' with
  | [whole] => some (OfScientific.ofScientific (Nat.ofDigitChars 10 whole 0) true 0)
  | [whole, fraction] =>
    some (OfScientific.ofScientific (Nat.ofDigitChars 10 (whole ++ fraction) 0) true fraction.length)
  | _ => none

/-- The first number directly before a letter `b`; the digits and points just read are carried. -/
def sizeBeforeB [Scalar F] : List Char → List Char → Option F
  | _, [] => none
  | digits, c :: rest =>
    if c.isDigit || c = '.' then sizeBeforeB (digits ++ [c]) rest
    else if c = 'b' && digits.any Char.isDigit then (parseDecimal digits).orElse fun _ => sizeBeforeB [] rest
    else sizeBeforeB [] rest

def parseModelSizeBillions [Scalar F] (model : String) : Option F :=
  sizeBeforeB [] (toAsciiLowercase (trim model)).toList

def modelSizeTier (F : Type) [Scalar F] (model : String) : Nat :=
  match (parseModelSizeBillions model : Option F) with
  | some size => if 20.0 ≤ size then 3 else if 7.0 ≤ size then 2 else if 0.0 < size then 1 else 0
  | none => 0

/-- `sort_by`, which keeps the order of equal elements. -/
def sortBy {α : Type} (order : α → α → Ordering) (items : List α) : List α :=
  items.mergeSort fun left right => order left right != .gt

/-- What a selector has picked so far, and the identities it looks at. -/
structure Picks (F : Type) where
  selected : List (ProviderCandidate F)
  ids : List String
  models : List String
  providerTypes : List String

namespace Picks

def empty : Picks F := { selected := [], ids := [], models := [], providerTypes := [] }

/-- One candidate, unless its identity, its model or in the first pass its provider type is taken. -/
def pick (identity : ProviderCandidate F → String) (deduplicateModels firstPass : Bool) (picks : Picks F)
    (candidate : ProviderCandidate F) : Picks F :=
  if firstPass && picks.providerTypes.contains candidate.providerType then picks
  else if deduplicateModels && picks.models.contains candidate.modelKey then picks
  else if picks.ids.contains (identity candidate) then picks
  else
    { selected := picks.selected ++ [candidate]
      ids := identity candidate :: picks.ids
      models := candidate.modelKey :: picks.models
      providerTypes :=
        if firstPass then candidate.providerType :: picks.providerTypes else picks.providerTypes }

/-- A pass over the candidates, which ends once the target is reached. -/
def pass (identity : ProviderCandidate F → String) (target : Nat) (deduplicateModels firstPass : Bool) :
    List (ProviderCandidate F) → Picks F → Picks F
  | [], picks => picks
  | candidate :: rest, picks =>
    if picks.selected.length = target then picks
    else pass identity target deduplicateModels firstPass rest
      (picks.pick identity deduplicateModels firstPass candidate)

/-- The two passes of a selector. -/
def choose (identity : ProviderCandidate F → String) (target : Nat) (deduplicateModels : Bool)
    (candidates : List (ProviderCandidate F)) : List (ProviderCandidate F) :=
  (pass identity target deduplicateModels false candidates
    (pass identity target deduplicateModels true candidates empty)).selected

end Picks

variable [Scalar F]

/-- Health, then throughput, then the size of the model. -/
def rankOrder (left right : RankedCandidate F) : Ordering :=
  (compare right.healthOk left.healthOk).then <|
    (match right.generationTokensPerSecond, left.generationTokensPerSecond with
      | some right, some left => compareNumbers right left
      | some _, none => .lt
      | none, some _ => .gt
      | none, none => .eq : Ordering).then <|
    compare (modelSizeTier F right.candidate.configuredModel)
      (modelSizeTier F left.candidate.configuredModel)

/-- `max_by`: of several greatest elements, the last one. -/
def bestLocalFallbackCandidate (ranked : List (RankedCandidate F)) : Option (ProviderCandidate F) :=
  match ranked.filter fun item => item.candidate.isLocalFallback with
  | [] => none
  | first :: rest =>
    some (rest.foldl (fun best item =>
      if (compare best.healthOk item.healthOk).then (compareNumbers best.score item.score) = .gt then best
      else item) first).candidate

def ensureLocalFallbackSelected (selected : List (ProviderCandidate F))
    (localFallback : Option (ProviderCandidate F)) (target : Nat) (deduplicateModels : Bool) :
    List (ProviderCandidate F) :=
  match localFallback with
  | none => selected
  | some fallback =>
    if selected.any fun candidate => candidate.candidateId == fallback.candidateId then selected
    else if deduplicateModels && selected.any fun candidate => candidate.modelKey == fallback.modelKey then
      selected
    else if selected.length < target then selected ++ [fallback]
    else if 2 ≤ target then selected.dropLast ++ [fallback]
    else selected

def selectRankedCandidates (ranked : List (RankedCandidate F)) (maxCandidates : Nat)
    (deduplicateModels : Bool) : List (ProviderCandidate F) :=
  let target := max maxCandidates 1
  let ordered := (sortBy rankOrder ranked).map (·.candidate)
  let localFallback := if 2 ≤ target then bestLocalFallbackCandidate ranked else none
  ensureLocalFallbackSelected (Picks.choose ProviderCandidate.attemptKey target deduplicateModels ordered)
    localFallback target deduplicateModels

/-- What the operator has set in the environment, or the defaults. -/
structure AdaptiveSettings (F : Type) where
  raceWindowMs : F
  maxRacedCandidates : Nat

structure AdaptiveDispatchPolicy (F : Type) where
  raceWindowMs : F
  maxRacedCandidates : Nat

/-- The least of the positive finite values. -/
def leastPositive (values : List F) : F :=
  ((values.filter fun value => Scalar.isFinite value && decide (0.0 < value)).foldl
    (fun best value => some (match best with
      | none => value
      | some best => if value < best then value else best)) none).getD 5000.0

/-- `(count as f64).sqrt().ceil()`. -/
def ceilSqrt (count : Nat) : Nat :=
  if Nat.sqrt count * Nat.sqrt count = count then Nat.sqrt count else Nat.sqrt count + 1

/-- `estimates.get(..).map(estimated_useful_completion_ms)` of a candidate. -/
def usefulEta (estimates : DispatchEstimates F) (item : RankedCandidate F) : Option F :=
  estimates[item.candidate.candidateId]?.map fun estimate => estimate.estimatedUsefulCompletionMs

structure RoundRobinContext where
  providerKey : String
  modelKey : String
  key : String
  groupSize : Nat

def matchesRoundRobinGroup (item : RankedCandidate F) (providerKey modelKey : String) : Bool :=
  normalizeKey item.candidate.providerType "openai" == providerKey &&
    normalizeKey item.candidate.configuredModel "" == modelKey

def roundRobinContext (ranked : List (RankedCandidate F)) (workflow role : String) :
    Option RoundRobinContext :=
  match (ranked.find? fun item => item.healthOk).or ranked.head? with
  | none => none
  | some anchor =>
    let providerKey := normalizeKey anchor.candidate.providerType "openai"
    let modelKey := normalizeKey anchor.candidate.configuredModel ""
    let groupSize := ranked.countP fun item => matchesRoundRobinGroup item providerKey modelKey
    if providerKey.isEmpty || modelKey.isEmpty then none
    else if groupSize < 2 then none
    else some { providerKey, modelKey, groupSize
                key := workflow ++ ":" ++ role ++ ":" ++ providerKey ++ ":" ++ modelKey }

def reorderRankedCandidatesForRoundRobin (ranked : List (RankedCandidate F)) (context : RoundRobinContext)
    (offset : Nat) : List (RankedCandidate F) :=
  if ranked.length < 2 || context.groupSize < 2 then ranked
  else
    let inGroup := fun item : RankedCandidate F =>
      matchesRoundRobinGroup item context.providerKey context.modelKey
    let group := ranked.filter inGroup
    let rest := ranked.filter fun item => !inGroup item
    if group.length < 2 then group ++ rest
    else
      let group := group.rotate (offset % group.length)
      group.filter (·.healthOk) ++ group.filter (fun item => !item.healthOk) ++ rest

/-- `next_round_robin_offset` for the cursor that it finds under the key of the group. -/
def nextRoundRobinOffset (cursor groupSize : Nat) : Nat :=
  if groupSize ≤ 1 then 0 else cursor % groupSize

end Definitions

section Dispatch
variable {F : Type} [RoundScalar F]

/-- Where a candidate is expected to finish; one without an estimate never does. -/
def etaKey (estimates : DispatchEstimates F) (item : RankedCandidate F) : RoundScalar.Key F :=
  ((usefulEta estimates item).map RoundScalar.totalKey).getD RoundScalar.infinityKey

/-- The estimate, then health, then the score. -/
def etaOrder (estimates : DispatchEstimates F) (left right : RankedCandidate F) : Ordering :=
  (compare (etaKey estimates left) (etaKey estimates right)).then <|
    (compare right.healthOk left.healthOk).then <|
      compare (RoundScalar.totalKey right.score) (RoundScalar.totalKey left.score)

def adaptiveDispatchPolicy (settings : AdaptiveSettings F)
    (estimates : DispatchEstimates F) (maxCandidates : Nat) : AdaptiveDispatchPolicy F :=
  let seedWindow := clamp settings.raceWindowMs 0.0 30000.0
  let seedRaced := clampCount settings.maxRacedCandidates 1 (max maxCandidates 1)
  let values := estimates.values
  let confidence : F := clamp
    (Scalar.ofCount ((values.map fun estimate => estimate.samples).foldl max 0) / 20.0) 0.0 1.0
  let bestServiceMs := leastPositive (values.map fun estimate => estimate.serviceTimeMs)
  let learnedWindowMs := clamp (bestServiceMs * 0.20) 100.0 3000.0
  let raceWindowMs := clamp (seedWindow * (1.0 - confidence) + learnedWindowMs * confidence) 50.0 3000.0
  let bestEta := leastPositive (values.map fun estimate => estimate.estimatedUsefulCompletionMs)
  let nearTieCount := values.countP fun estimate =>
    decide (estimate.estimatedUsefulCompletionMs ≤ bestEta + raceWindowMs)
  let learnedRaced := if nearTieCount ≤ 1 then 1 else ceilSqrt nearTieCount
  let maxRacedCandidates := RoundScalar.toUsize (clamp
    (RoundScalar.round (Scalar.ofCount seedRaced * (1.0 - confidence) +
      Scalar.ofCount learnedRaced * confidence)) 1.0 (Scalar.ofCount (max maxCandidates 1)))
  { raceWindowMs, maxRacedCandidates }

/-- The candidates that race: the first in the order that are near the best estimate, or the first. -/
def competitiveCandidates (settings : AdaptiveSettings F)
    (estimates : DispatchEstimates F) (maxCandidates : Nat) (first : RankedCandidate F)
    (ordered : List (RankedCandidate F)) : List (RankedCandidate F) :=
  let bestEta := (usefulEta estimates first).getD 5000.0
  let policy := adaptiveDispatchPolicy settings estimates maxCandidates
  let frontier := bestEta + policy.raceWindowMs
  let competitive := (ordered.filter fun item =>
    (usefulEta estimates item).any fun eta => decide (eta ≤ frontier)).take policy.maxRacedCandidates
  if competitive.isEmpty then [first] else competitive

def selectAdaptiveCandidates (settings : AdaptiveSettings F)
    (ranked : List (RankedCandidate F)) (maxCandidates : Nat) (deduplicateModels : Bool)
    (estimates : DispatchEstimates F) : List (ProviderCandidate F) :=
  match sortBy (etaOrder estimates) ranked with
  | [] => []
  | first :: rest =>
    let competitive := competitiveCandidates settings estimates maxCandidates first (first :: rest)
    let target := min competitive.length (max maxCandidates 1)
    Picks.choose ProviderCandidate.candidateId target deduplicateModels
      (competitive.map (·.candidate))

/-- The cursor is the one that the selection finds, whichever requests have moved it before. -/
def selectRoundRobinCandidates (settings : AdaptiveSettings F)
    (ranked : List (RankedCandidate F)) (maxCandidates : Nat) (workflow role : String)
    (deduplicateModels : Bool) (estimates : DispatchEstimates F) (cursor : Nat) :
    List (ProviderCandidate F) :=
  match roundRobinContext ranked workflow role with
  | none => selectAdaptiveCandidates settings ranked maxCandidates deduplicateModels estimates
  | some context =>
    let reordered := reorderRankedCandidatesForRoundRobin ranked context
      (nextRoundRobinOffset cursor context.groupSize)
    selectAdaptiveCandidates settings reordered maxCandidates deduplicateModels estimates

end Dispatch

section Picked
variable {F : Type} {identity : ProviderCandidate F → String} {target : Nat}
  {deduplicateModels firstPass : Bool} {candidates : List (ProviderCandidate F)} {picks : Picks F}

namespace Picks

/-- What a selector has picked comes from the pool, under identities that it remembers. -/
structure Sound (identity : ProviderCandidate F → String) (candidates : List (ProviderCandidate F))
    (picks : Picks F) : Prop where
  subset : picks.selected ⊆ candidates
  seen : ∀ candidate ∈ picks.selected, identity candidate ∈ picks.ids
  nodup : (picks.selected.map identity).Nodup

theorem empty_sound : Sound identity candidates (empty : Picks F) where
  subset := List.nil_subset _
  seen _ h := nomatch h
  nodup := List.nodup_nil

/-- A candidate is passed over, or picked under a fresh identity. -/
theorem pick_cases (identity : ProviderCandidate F → String) (deduplicateModels firstPass : Bool)
    (picks : Picks F) (candidate : ProviderCandidate F) :
    picks.pick identity deduplicateModels firstPass candidate = picks ∨
    identity candidate ∉ picks.ids ∧
      (picks.pick identity deduplicateModels firstPass candidate).selected =
        picks.selected ++ [candidate] ∧
      (picks.pick identity deduplicateModels firstPass candidate).ids = identity candidate :: picks.ids := by
  unfold pick
  split
  · exact .inl rfl
  split
  · exact .inl rfl
  split
  · exact .inl rfl
  · next hfresh => exact .inr ⟨by simpa using hfresh, rfl, rfl⟩

theorem Sound.pick (h : Sound identity candidates picks) {candidate : ProviderCandidate F}
    (hc : candidate ∈ candidates) :
    Sound identity candidates (picks.pick identity deduplicateModels firstPass candidate) := by
  rcases pick_cases identity deduplicateModels firstPass picks candidate with he | ⟨hfresh, hselected, hids⟩
  · rw [he]
    exact h
  · constructor
    · rw [hselected]
      exact List.append_subset.mpr ⟨h.subset, List.cons_subset.mpr ⟨hc, List.nil_subset _⟩⟩
    · intro other ho
      rw [hselected] at ho
      rw [hids]
      rcases List.mem_append.mp ho with ho | ho
      · exact List.mem_cons_of_mem _ (h.seen other ho)
      · rw [List.mem_singleton.mp ho]
        exact List.mem_cons_self
    · rw [hselected, List.map_append]
      refine List.nodup_append.mpr ⟨h.nodup, List.nodup_singleton _, ?_⟩
      rintro _ hl _ hr rfl
      obtain ⟨other, ho, he⟩ := List.mem_map.mp hl
      rw [List.mem_singleton.mp hr] at he
      exact hfresh (he ▸ h.seen other ho)

/-- What every pick short of the target keeps, a pass keeps. -/
theorem pass_keeps {P : Picks F → Prop}
    (hpick : ∀ picks candidate, candidate ∈ candidates → picks.selected.length ≠ target → P picks →
      P (picks.pick identity deduplicateModels firstPass candidate)) (h : P picks) :
    P (pass identity target deduplicateModels firstPass candidates picks) := by
  induction candidates generalizing picks with
  | nil => exact h
  | cons candidate rest ih =>
    rw [pass]
    split
    · exact h
    · next hlt =>
      apply ih
      · intro picks candidate hc
        exact hpick picks candidate (List.mem_cons_of_mem _ hc)
      · exact hpick picks candidate List.mem_cons_self hlt h

theorem pick_length (identity : ProviderCandidate F → String) (deduplicateModels firstPass : Bool)
    (picks : Picks F) (candidate : ProviderCandidate F) :
    picks.selected.length ≤ (picks.pick identity deduplicateModels firstPass candidate).selected.length ∧
    (picks.pick identity deduplicateModels firstPass candidate).selected.length ≤
      picks.selected.length + 1 := by
  rcases pick_cases identity deduplicateModels firstPass picks candidate with he | ⟨-, hselected, -⟩
  · rw [he]
    omega
  · rw [hselected, List.length_append, List.length_singleton]
    omega

/-- The first candidate is picked. -/
theorem pick_empty (candidate : ProviderCandidate F) :
    (empty.pick identity deduplicateModels firstPass candidate).selected = [candidate] := by
  simp [pick, empty]

theorem choose_sound : (choose identity target deduplicateModels candidates) ⊆ candidates ∧
    ((choose identity target deduplicateModels candidates).map identity).Nodup := by
  have h : Sound identity candidates (pass identity target deduplicateModels false candidates
      (pass identity target deduplicateModels true candidates empty)) :=
    pass_keeps (fun _ _ hc _ h => h.pick hc) (pass_keeps (fun _ _ hc _ h => h.pick hc) empty_sound)
  exact ⟨h.subset, h.nodup⟩

theorem choose_length_le : (choose identity target deduplicateModels candidates).length ≤ target := by
  have hpick : ∀ firstPass (picks : Picks F) candidate, candidate ∈ candidates →
      picks.selected.length ≠ target → picks.selected.length ≤ target →
      (picks.pick identity deduplicateModels firstPass candidate).selected.length ≤ target := by
    intro firstPass picks candidate _ hne hle
    have := (pick_length identity deduplicateModels firstPass picks candidate).2
    omega
  exact pass_keeps (P := fun picks => picks.selected.length ≤ target) (hpick false)
    (pass_keeps (P := fun picks => picks.selected.length ≤ target) (hpick true) (Nat.zero_le _))

theorem choose_ne_nil (ht : 0 < target) (hc : candidates ≠ []) :
    choose identity target deduplicateModels candidates ≠ [] := by
  have hgrow : ∀ firstPass (picks : Picks F), 0 < picks.selected.length →
      0 < (pass identity target deduplicateModels firstPass candidates picks).selected.length := by
    intro firstPass picks h
    refine pass_keeps (P := fun picks => 0 < picks.selected.length) ?_ h
    intro picks candidate _ _ h
    exact h.trans_le (pick_length _ _ _ picks candidate).1
  obtain ⟨first, rest, rfl⟩ := List.exists_cons_of_ne_nil hc
  apply List.ne_nil_of_length_pos
  apply hgrow
  rw [pass, if_neg (by simp [empty]; omega)]
  refine pass_keeps (P := fun picks => 0 < picks.selected.length) ?_ ?_
  · intro picks candidate _ _ h
    exact h.trans_le (pick_length _ _ _ picks candidate).1
  · rw [pick_empty]
    exact Nat.one_pos

/-- The first candidate comes first. -/
theorem choose_head? (ht : 0 < target) (candidate : ProviderCandidate F) (rest : List (ProviderCandidate F)) :
    (choose identity target deduplicateModels (candidate :: rest)).head? = some candidate := by
  have hkeep : ∀ firstPass (picks : Picks F) (other : ProviderCandidate F), picks.selected.head? = some candidate →
      (picks.pick identity deduplicateModels firstPass other).selected.head? = some candidate := by
    intro firstPass picks other h
    rcases pick_cases identity deduplicateModels firstPass picks other with he | ⟨-, hselected, -⟩
    · rw [he, h]
    · rw [hselected, List.head?_append, h, Option.some_or]
  unfold choose
  refine pass_keeps (P := fun picks => picks.selected.head? = some candidate) (fun picks other _ _ => hkeep _ _ _) ?_
  rw [pass, if_neg (by simp [empty]; omega)]
  refine pass_keeps (P := fun picks => picks.selected.head? = some candidate) (fun picks other _ _ => hkeep _ _ _) ?_
  rw [pick_empty, List.head?_cons]

end Picks

/-- What a selector answers for a pool: some of its candidates, each attempt once, up to a limit. -/
structure Chosen (pool : List (ProviderCandidate F)) (limit : Nat) (selected : List (ProviderCandidate F)) :
    Prop where
  subset : selected ⊆ pool
  nodup : (selected.map ProviderCandidate.attemptKey).Nodup
  length_le : selected.length ≤ limit
  ne_nil : pool ≠ [] → selected ≠ []

/-- The attempts of a pool are distinct. -/
def Distinct (pool : List (ProviderCandidate F)) : Prop := (pool.map ProviderCandidate.attemptKey).Nodup

variable {pool selected : List (ProviderCandidate F)}

/-- In a pool of distinct attempts no candidate is picked twice under any identity. -/
theorem Distinct.picked (h : Distinct pool) (hs : selected ⊆ pool) (hn : (selected.map identity).Nodup) :
    Distinct selected := by
  refine (List.nodup_map_iff_inj_on hn.of_map).mpr ?_
  intro a ha b hb he
  exact List.inj_on_of_nodup_map h (hs ha) (hs hb) he

theorem Chosen.mono {other : List (ProviderCandidate F)} {limit more : Nat} (h : Chosen pool limit selected)
    (hs : pool ⊆ other) (hl : limit ≤ more) (hne : other ≠ [] → pool ≠ []) :
    Chosen other more selected :=
  ⟨List.Subset.trans h.subset hs, h.nodup, h.length_le.trans hl, fun ho => h.ne_nil (hne ho)⟩

theorem mem_sortBy {α : Type} {order : α → α → Ordering} {items : List α} {item : α} :
    item ∈ sortBy order items ↔ item ∈ items :=
  (List.mergeSort_perm items _).mem_iff

/-- The fallback takes a free place or the last one, and only when it is not picked yet. -/
theorem Chosen.ensureLocalFallbackSelected {fallback : Option (ProviderCandidate F)} (h : Distinct pool)
    (hc : Chosen pool target selected) (hf : ∀ candidate ∈ fallback, candidate ∈ pool) :
    Chosen pool target
      (Gail.Orchestration.ensureLocalFallbackSelected selected fallback target deduplicateModels) := by
  unfold Gail.Orchestration.ensureLocalFallbackSelected
  split
  · exact hc
  · next fallback =>
    have hmem := hf fallback rfl
    split
    · exact hc
    · next hother =>
      have hnot : fallback ∉ selected := fun hm => hother (List.any_eq_true.mpr ⟨fallback, hm, by simp⟩)
      have hadd : ∀ kept, kept.Sublist selected → kept.length < target →
          Chosen pool target (kept ++ [fallback]) := by
        intro kept hk hlt
        constructor
        · apply List.append_subset.mpr
          exact ⟨List.Subset.trans hk.subset hc.subset, List.cons_subset.mpr ⟨hmem, List.nil_subset _⟩⟩
        · rw [List.map_append]
          refine List.nodup_append.mpr ⟨hc.nodup.sublist (hk.map _), List.nodup_singleton _, ?_⟩
          rintro _ hl _ hr rfl
          obtain ⟨other, ho, he⟩ := List.mem_map.mp hl
          rw [List.mem_singleton.mp hr] at he
          have hs := hk.subset ho
          exact hnot (List.inj_on_of_nodup_map h (hc.subset hs) hmem he ▸ hs)
        · rw [List.length_append, List.length_singleton]
          exact hlt
        · simp
      split
      · exact hc
      split
      · next hlt => exact hadd selected (List.Sublist.refl _) hlt
      split
      · next htwo =>
        apply hadd _ (List.dropLast_sublist _)
        have := hc.length_le
        rw [List.length_dropLast]
        omega
      · exact hc

theorem reorderRankedCandidatesForRoundRobin_perm (ranked : List (RankedCandidate F))
    (context : RoundRobinContext) (offset : Nat) :
    (reorderRankedCandidatesForRoundRobin ranked context offset).Perm ranked := by
  unfold reorderRankedCandidatesForRoundRobin
  split
  · exact .refl _
  dsimp only
  split
  · exact List.filter_append_perm _ _
  · refine List.Perm.trans (List.Perm.append_right _ ?_) (List.filter_append_perm _ _)
    exact (List.filter_append_perm _ _).trans (List.rotate_perm _ _)

variable [Scalar F]

theorem bestLocalFallbackCandidate_mem {ranked : List (RankedCandidate F)} :
    ∀ candidate ∈ bestLocalFallbackCandidate ranked, candidate ∈ ranked.map (·.candidate) := by
  intro candidate hc
  unfold bestLocalFallbackCandidate at hc
  split at hc
  · cases hc
  · next first rest hfilter =>
    cases hc
    apply List.mem_map_of_mem
    apply (List.mem_filter.mp _).1
    · exact fun item => item.candidate.isLocalFallback
    rw [hfilter]
    apply foldl_choice_mem
    intro a b
    split
    · exact .inl rfl
    · exact .inr rfl

theorem selectRankedCandidates_chosen {ranked : List (RankedCandidate F)} (maxCandidates : Nat)
    (h : Distinct (ranked.map (·.candidate))) :
    Chosen (ranked.map (·.candidate)) (max maxCandidates 1)
      (selectRankedCandidates ranked maxCandidates deduplicateModels) := by
  have hpool : ∀ candidate, candidate ∈ (sortBy rankOrder ranked).map (·.candidate) ↔
      candidate ∈ ranked.map (·.candidate) := by
    intro candidate
    simp only [List.mem_map, mem_sortBy]
  have hpositive : 0 < max maxCandidates 1 := Nat.lt_of_lt_of_le Nat.one_pos (le_max_right _ _)
  refine Chosen.ensureLocalFallbackSelected h ⟨?_, ?_, ?_, ?_⟩ ?_
  · exact fun candidate hc => (hpool candidate).mp (Picks.choose_sound.1 hc)
  · exact Picks.choose_sound.2
  · exact Picks.choose_length_le
  · intro hne
    apply Picks.choose_ne_nil hpositive
    obtain ⟨candidate, hc⟩ := List.exists_mem_of_ne_nil _ hne
    exact List.ne_nil_of_mem ((hpool candidate).mpr hc)
  · intro candidate hc
    split at hc
    · exact bestLocalFallbackCandidate_mem candidate hc
    · cases hc

end Picked

section Adaptive
variable {F : Type} [RoundScalar F] {settings : AdaptiveSettings F} {deduplicateModels : Bool}
  {estimates : DispatchEstimates F} {ranked : List (RankedCandidate F)}

theorem competitiveCandidates_subset (settings : AdaptiveSettings F) (estimates : DispatchEstimates F)
    (maxCandidates : Nat) (first : RankedCandidate F) (rest : List (RankedCandidate F)) :
    competitiveCandidates settings estimates maxCandidates first (first :: rest) ⊆ first :: rest ∧
      competitiveCandidates settings estimates maxCandidates first (first :: rest) ≠ [] := by
  unfold competitiveCandidates
  dsimp only
  split
  · exact ⟨List.cons_subset.mpr ⟨List.mem_cons_self, List.nil_subset _⟩, by simp⟩
  · next hne =>
    refine ⟨fun item hi => List.mem_of_mem_filter (List.mem_of_mem_take hi), ?_⟩
    intro he
    rw [he] at hne
    exact hne rfl

theorem selectAdaptiveCandidates_chosen (maxCandidates : Nat) (h : Distinct (ranked.map (·.candidate))) :
    Chosen (ranked.map (·.candidate)) (max maxCandidates 1)
      (selectAdaptiveCandidates settings ranked maxCandidates deduplicateModels estimates) := by
  unfold selectAdaptiveCandidates
  split
  · next he =>
    have hempty : ranked = [] := (List.mergeSort_perm ranked _).symm.trans (.of_eq he) |>.eq_nil
    rw [hempty]
    exact ⟨List.nil_subset _, List.nodup_nil, Nat.zero_le _, fun hne => absurd rfl hne⟩
  · next first rest he =>
    obtain ⟨hsubset, hne⟩ := competitiveCandidates_subset settings estimates maxCandidates first rest
    have hpool : ∀ candidate ∈ (competitiveCandidates settings estimates maxCandidates first
        (first :: rest)).map (·.candidate), candidate ∈ ranked.map (·.candidate) := by
      intro candidate hc
      obtain ⟨item, hi, rfl⟩ := List.mem_map.mp hc
      exact List.mem_map_of_mem (mem_sortBy.mp (he ▸ hsubset hi))
    constructor
    · exact fun candidate hc => hpool candidate (Picks.choose_sound.1 hc)
    · exact Distinct.picked h (fun candidate hc => hpool candidate (Picks.choose_sound.1 hc))
        Picks.choose_sound.2
    · exact Picks.choose_length_le.trans (min_le_right _ _)
    · intro _
      apply Picks.choose_ne_nil
      · have := List.length_pos_of_ne_nil hne
        omega
      · simpa using hne

theorem selectRoundRobinCandidates_chosen (maxCandidates cursor : Nat) (workflow role : String)
    (h : Distinct (ranked.map (·.candidate))) :
    Chosen (ranked.map (·.candidate)) (max maxCandidates 1)
      (selectRoundRobinCandidates settings ranked maxCandidates workflow role deduplicateModels estimates
        cursor) := by
  unfold selectRoundRobinCandidates
  split
  · exact selectAdaptiveCandidates_chosen maxCandidates h
  · next context _ =>
    have hperm := (reorderRankedCandidatesForRoundRobin_perm ranked context
      (nextRoundRobinOffset cursor context.groupSize)).map (·.candidate)
    have hdistinct : Distinct ((reorderRankedCandidatesForRoundRobin ranked context
        (nextRoundRobinOffset cursor context.groupSize)).map (·.candidate)) :=
      (hperm.map ProviderCandidate.attemptKey).nodup_iff.mpr h
    refine (selectAdaptiveCandidates_chosen maxCandidates hdistinct).mono hperm.subset le_rfl ?_
    intro hne he
    rw [he] at hperm
    exact hne hperm.symm.eq_nil

end Adaptive

end Gail.Orchestration
