import Gail.Library.FloatSum
import Gail.Library.RingCursor
import Gail.Library.StableSort
import Gail.Orchestration.Selection
import Gail.Trading.ScalarOrder

/-! Selections in turn: the cursor of a group of equivalent endpoints decides which of them is listed first, and the
order by estimate, health and score decides after it. -/
namespace Gail.Orchestration
open Gail.Library Gail.Trading OrderDual

section Definitions
variable {F : Type}

/-- What one selection after another is made from. -/
structure RoundRobinRequest (F : Type) where
  ranked : List (RankedCandidate F)
  maxCandidates : Nat
  workflow : String
  role : String
  deduplicateModels : Bool
  settings : AdaptiveSettings F
  estimates : DispatchEstimates F

/-- The cursors of the groups, which are at zero before they are used. -/
abbrev Cursors := String → UInt64

/-- `next_round_robin_offset` moves the cursor on, and `wrapping_add` starts again from zero. -/
def advanceCursor (cursors : Cursors) (context : RoundRobinContext) : Cursors :=
  if context.groupSize ≤ 1 then cursors
  else Function.update cursors context.key (cursors context.key + 1)

namespace RoundRobinRequest
variable (request : RoundRobinRequest F)

def context : Option RoundRobinContext := roundRobinContext request.ranked request.workflow request.role

/-- The equivalent endpoints. -/
def group (context : RoundRobinContext) : List (RankedCandidate F) :=
  request.ranked.filter fun item => matchesRoundRobinGroup item context.providerKey context.modelKey

/-- All other candidates. -/
def others (context : RoundRobinContext) : List (RankedCandidate F) :=
  request.ranked.filter fun item => !matchesRoundRobinGroup item context.providerKey context.modelKey

variable [RoundScalar F]

/-- The candidates of one selection, and the cursors that it leaves. -/
def takeTurn (cursors : Cursors) : List (ProviderCandidate F) × Cursors :=
  let select (cursor : Nat) := selectRoundRobinCandidates request.settings request.ranked request.maxCandidates
    request.workflow request.role request.deduplicateModels request.estimates cursor
  match request.context with
  | none => (select 0, cursors)
  | some context => (select (cursors context.key).toNat, advanceCursor cursors context)

/-- The candidates of successive selections. -/
def turns : Nat → Cursors → List (List (ProviderCandidate F))
  | 0, _ => []
  | count + 1, cursors => (request.takeTurn cursors).1 :: turns count (request.takeTurn cursors).2

/-- In as many selections as there are endpoints each of them comes first once. -/
def FairTurns (context : RoundRobinContext) (cursors : Cursors) : Prop :=
  ((request.turns context.groupSize cursors).map List.head?).Perm
    ((request.group context).map fun item => some item.candidate)

end RoundRobinRequest

end Definitions

section Frontier

/-- What is guaranteed of the frontier of a race, at its window. -/
class LawfulRace (F : Type) [RoundScalar F] : Prop where
  /-- The frontier is not before the best estimate, unless it is NaN. -/
  le_frontier : ∀ eta window : F, eta ≤ eta + clamp window 50.0 3000.0 ∨
    ∀ other : F, ¬ other ≤ eta + clamp window 50.0 3000.0
  /-- Without a best estimate, none that is infinite is before the frontier. -/
  not_le_frontier : ∀ other window : F, RoundScalar.infinityKey ≤ RoundScalar.totalKey other →
    ¬ other ≤ 5000.0 + clamp window 50.0 3000.0

instance : LawfulRace ℚ where
  le_frontier eta window := by
    left
    have hwindow : (0 : ℚ) ≤ clamp window 50.0 3000.0 := by
      unfold clamp
      split_ifs with hlow <;> norm_num at *
      linarith
    exact le_add_of_nonneg_right hwindow
  not_le_frontier other window h := by
    change (⊤ : WithTop ℚ) ≤ (other : WithTop ℚ) at h
    exact absurd (top_le_iff.mp h) (WithTop.coe_ne_top)

theorem window_cases (window : Float) : ¬ clamp window 50.0 3000.0 ≤ clamp window 50.0 3000.0 ∨
    0 < clamp window 50.0 3000.0 ∧ clamp window 50.0 3000.0 ≤ 5000.0 := by
  have hordered : (50.0 : Float) ≤ 3000.0 := by decide
  refine or_iff_not_imp_left.mpr fun hnumber => ?_
  have hwindow := (Scalar.clamp_number_iff hordered).mp (not_not.mp hnumber)
  have hleast : (50.0 : Float) ≤ 50.0 := by decide
  have hpositive : (0 : Float) < 50.0 := by decide
  have hmost : (3000.0 : Float) ≤ 5000.0 := by decide
  exact ⟨Scalar.lt_of_lt_of_le hpositive ((Scalar.le_clamp_iff_number hleast hordered).mpr hwindow),
    (Scalar.clamp_le_iff_number hmost hordered).mpr hwindow⟩

instance : LawfulRace Float where
  le_frontier eta window := by
    rcases window_cases window with hnan | ⟨hpositive, -⟩
    · exact .inr fun other h => hnan (FloatOrder.number_of_add_right (Scalar.Comparable.numbers h).2)
    · exact (FloatOrder.le_add_or_isNaN hpositive).imp_right fun hnan other h => hnan (Scalar.Comparable.numbers h).2
  not_le_frontier other window hinfinite h := by
    obtain ⟨place, bound, hplace, hbound, hle⟩ := FloatOrder.le_iff.mp h
    rcases window_cases window with hnan | ⟨hpositive, hmost⟩
    · exact hnan (FloatOrder.number_of_add_right (Scalar.Comparable.numbers h).2)
    · have hfive : (5000.0 : Float).toModel.unpack = .finite .positive (5000 * 2 ^ 40) (-40) (by decide) := rfl
      obtain ⟨sum, hsum, hlt⟩ := FloatOrder.add_lt_infinity hfive (by decide)
        (show (0 : Float) < 5000.0 by decide) (show (5000.0 : Float) ≤ 5000.0 by decide) hpositive hmost
      rw [FloatOrder.rank_of_infinityKey_le hinfinite hplace] at hle
      rw [Option.some.inj (hbound.symm.trans hsum)] at hle
      exact hle.not_gt hlt

end Frontier

section Order
variable {F : Type} [RoundScalar F] {estimates : DispatchEstimates F} {ranked : List (RankedCandidate F)}

/-- The key of the order by estimate, health and score. -/
def raceKey (estimates : DispatchEstimates F) (item : RankedCandidate F) :
    RoundScalar.Key F ×ₗ Boolᵒᵈ ×ₗ (RoundScalar.Key F)ᵒᵈ :=
  toLex (etaKey estimates item, toLex (toDual item.healthOk, toDual (RoundScalar.totalKey item.score)))

theorem etaOrder_eq_cmp (left right : RankedCandidate F) :
    etaOrder estimates left right = cmp (raceKey estimates left) (raceKey estimates right) := by
  have hhealth : cmp (toDual left.healthOk) (toDual right.healthOk) = compare right.healthOk left.healthOk := by
    cases left.healthOk <;> cases right.healthOk <;> rfl
  unfold etaOrder raceKey
  rw [FloatOrder.cmp_toLex, FloatOrder.cmp_toLex, hhealth, cmp_toDual, cmp_eq_compare, cmp_eq_compare]

theorem etaOrder_ne_gt_iff {left right : RankedCandidate F} :
    etaOrder estimates left right ≠ .gt ↔ raceKey estimates left ≤ raceKey estimates right := by
  rw [etaOrder_eq_cmp, Ne, cmp_eq_gt_iff, not_lt]

theorem sortBy_etaOrder (ranked : List (RankedCandidate F)) :
    StablySorted (raceKey estimates) ranked (sortBy (etaOrder estimates) ranked) := by
  have hsame : (fun left right : RankedCandidate F => etaOrder estimates left right != .gt) =
      fun left right => decide (raceKey estimates left ≤ raceKey estimates right) := by
    funext left right
    rw [Bool.eq_iff_iff, bne_iff_ne, etaOrder_ne_gt_iff, decide_eq_true_eq]
  unfold sortBy
  rw [hsame]
  exact stablySorted_mergeSort ranked

/-- No candidate is ahead. -/
def Foremost (estimates : DispatchEstimates F) (ranked : List (RankedCandidate F)) (item : RankedCandidate F) : Prop :=
  ∀ other ∈ ranked, etaOrder estimates item other ≠ .gt

instance : DecidablePred (Foremost estimates ranked) := fun item =>
  inferInstanceAs (Decidable (∀ other ∈ ranked, etaOrder estimates item other ≠ .gt))

theorem head?_sortBy (ranked : List (RankedCandidate F)) :
    (sortBy (etaOrder estimates) ranked).head? = ranked.find? fun item => Foremost estimates ranked item := by
  rw [(sortBy_etaOrder ranked).head?_eq]
  refine List.find?_congr fun item _ => ?_
  rw [decide_eq_decide]
  exact forall₂_congr fun other _ => etaOrder_ne_gt_iff.symm

variable [LawfulRace F] {settings : AdaptiveSettings F} {deduplicateModels : Bool} {maxCandidates : Nat}

/-- The first in the order is the first that competes. -/
theorem competitiveCandidates_head? (settings : AdaptiveSettings F) (maxCandidates : Nat) (first : RankedCandidate F)
    (rest : List (RankedCandidate F)) (hfirst : ∀ item ∈ rest, etaKey estimates first ≤ etaKey estimates item) :
    (competitiveCandidates settings estimates maxCandidates first (first :: rest)).head? = some first := by
  unfold competitiveCandidates
  dsimp only
  set window := (adaptiveDispatchPolicy settings estimates maxCandidates).raceWindowMs
  set limit := (adaptiveDispatchPolicy settings estimates maxCandidates).maxRacedCandidates
  obtain ⟨seed, hseed⟩ : ∃ seed, window = clamp seed 50.0 3000.0 := ⟨_, rfl⟩
  have hnone (frontier : F)
      (h : ∀ item ∈ first :: rest, ∀ eta, usefulEta estimates item = some eta → ¬ eta ≤ frontier) :
      ((first :: rest).filter fun item => (usefulEta estimates item).any fun eta => decide (eta ≤ frontier)) = [] := by
    rw [List.filter_eq_nil_iff]
    intro item hitem hany
    obtain ⟨eta, heta, hle⟩ := (Option.any_eq_true _ _).mp hany
    exact h item hitem eta heta (of_decide_eq_true hle)
  cases hbest : usefulEta estimates first with
  | none =>
    have hinfinite : etaKey estimates first = RoundScalar.infinityKey := by rw [etaKey, hbest]; rfl
    rw [hnone]
    · rw [List.take_nil]
      rfl
    · intro item hitem eta heta
      rw [Option.getD_none, hseed]
      apply LawfulRace.not_le_frontier
      rcases List.mem_cons.mp hitem with rfl | hitem
      · rw [hbest] at heta
        cases heta
      · have hle := hfirst item hitem
        rwa [hinfinite, etaKey, heta] at hle
  | some best =>
    rw [Option.getD_some, hseed]
    rcases LawfulRace.le_frontier best seed with hle | hnan
    · rw [List.filter_cons_of_pos (by rw [hbest]; exact decide_eq_true hle)]
      cases limit with
      | zero => rfl
      | succ limit => rfl
    · rw [hnone]
      · rw [List.take_nil]
        rfl
      · exact fun item _ eta _ => hnan eta

/-- The first candidate of the selection is the first in the given order that none is ahead of. -/
theorem selectAdaptiveCandidates_head? (ranked : List (RankedCandidate F)) :
    (selectAdaptiveCandidates settings ranked maxCandidates deduplicateModels estimates).head? =
      (ranked.find? fun item => Foremost estimates ranked item).map (·.candidate) := by
  rw [← head?_sortBy]
  have hsorted : (sortBy (etaOrder estimates) ranked).Pairwise fun left right =>
      raceKey estimates left ≤ raceKey estimates right := (sortBy_etaOrder ranked).sorted
  unfold selectAdaptiveCandidates
  split
  · next hnil => rw [hnil]; rfl
  · next first rest hcons =>
    rw [hcons] at hsorted
    have hhead := competitiveCandidates_head? settings maxCandidates first rest fun item hitem =>
      Prod.Lex.monotone_fst _ _ ((List.pairwise_cons.mp hsorted).1 item hitem)
    obtain ⟨others, hcompetitive⟩ := List.head?_eq_some_iff.mp hhead
    dsimp only
    rw [hcons, hcompetitive, List.map_cons, Picks.choose_head?]
    · rfl
    · rw [List.length_cons]
      omega

end Order

section Turns
variable {F : Type} {request : RoundRobinRequest F} {context : RoundRobinContext} {cursors : Cursors}

namespace RoundRobinRequest

theorem context_spec (h : request.context = some context) :
    context.groupSize = (request.group context).length ∧ 2 ≤ context.groupSize := by
  unfold RoundRobinRequest.context roundRobinContext at h
  split at h
  · cases h
  · dsimp only at h
    split_ifs at h with hkeys hsmall
    rw [← Option.some.inj h, group]
    dsimp only
    rw [← List.countP_eq_length_filter]
    exact ⟨rfl, Nat.not_lt.mp hsmall⟩

/-- A group without unhealthy endpoints is only turned round. -/
theorem reorder_eq (h : request.context = some context)
    (hhealthy : ∀ item ∈ request.group context, item.healthOk = true)
    (offset : Nat) : reorderRankedCandidatesForRoundRobin request.ranked context offset =
      (request.group context).rotate (offset % context.groupSize) ++ request.others context := by
  obtain ⟨hsize, htwo⟩ := context_spec h
  have hlength : (request.group context).length ≤ request.ranked.length := List.length_filter_le _ _
  have hturned : ∀ item ∈ (request.group context).rotate (offset % context.groupSize), item.healthOk = true :=
    fun item hitem => hhealthy item (List.mem_rotate.mp hitem)
  have hgroup : (request.ranked.filter fun item => matchesRoundRobinGroup item context.providerKey context.modelKey) =
      request.group context := rfl
  unfold reorderRankedCandidatesForRoundRobin
  rw [if_neg (by simp; omega)]
  dsimp only
  rw [hgroup, ← hsize, if_neg (by omega), List.filter_eq_self.mpr hturned, List.filter_eq_nil_iff.mpr, List.append_nil]
  · rfl
  · intro item hitem
    rw [hturned item hitem]
    exact Bool.false_ne_true

variable [RoundScalar F]

/-- The cursor moves on by one, and starts again at the width of its type. -/
theorem takeTurn_cursor (h : request.context = some context) :
    ((request.takeTurn cursors).2 context.key).toNat = ((cursors context.key).toNat + 1) % 2 ^ 64 := by
  obtain ⟨-, htwo⟩ := context_spec h
  unfold takeTurn
  rw [h]
  dsimp only
  rw [advanceCursor, if_neg (by omega), Function.update_self, UInt64.toNat_add]
  rfl

/-- The candidate that comes first where the group is turned round so far: the first that no other is ahead of. -/
def firstAt (request : RoundRobinRequest F) (context : RoundRobinContext) (position : Nat) :
    Option (ProviderCandidate F) :=
  (((request.group context).rotate position ++ request.others context).find? fun item =>
    Foremost request.estimates request.ranked item).map (·.candidate)

/-- Where no candidate is ahead of an endpoint, each position has its own. -/
theorem firstAt_eq (hforemost : ∀ item ∈ request.group context, Foremost request.estimates request.ranked item)
    {position : Nat} (hposition : position < (request.group context).length) :
    request.firstAt context position = (request.group context)[position]?.map (·.candidate) := by
  unfold firstAt
  rw [← List.head?_rotate hposition]
  cases hturned : (request.group context).rotate position with
  | nil =>
    have hlength := congrArg List.length hturned
    rw [List.length_rotate, List.length_nil] at hlength
    omega
  | cons first rest =>
    have hfirst : first ∈ request.group context := List.mem_rotate.mp (hturned ▸ List.mem_cons_self)
    rw [List.cons_append, List.find?_cons_of_pos (by simpa using hforemost first hfirst), List.head?_cons]

/-- What comes first of the group has no candidate ahead. -/
theorem foremost_of_firstAt (hdistinct : ((request.group context).map (·.candidate)).Nodup) {item : RankedCandidate F}
    (hitem : item ∈ request.group context) {position : Nat}
    (hfirst : request.firstAt context position = some item.candidate) :
    Foremost request.estimates request.ranked item := by
  obtain ⟨found, hfound, hsame⟩ := Option.map_eq_some_iff.mp hfirst
  have hforemost : Foremost request.estimates request.ranked found := by simpa using List.find?_some hfound
  -- Membership of the group is a matter of the candidate.
  have hgroup : found ∈ request.group context := by
    rcases List.mem_append.mp (List.mem_of_find?_eq_some hfound) with hmem | hmem
    · exact List.mem_rotate.mp hmem
    · have hmatches := (List.mem_filter.mp hitem).2
      have hother := (List.mem_filter.mp hmem).2
      unfold matchesRoundRobinGroup at hmatches hother
      rw [hsame, hmatches] at hother
      exact absurd hother (by decide)
  rwa [List.inj_on_of_nodup_map hdistinct hgroup hitem hsame] at hforemost

variable [LawfulRace F]

theorem head?_takeTurn (h : request.context = some context)
    (hhealthy : ∀ item ∈ request.group context, item.healthOk = true) :
    (request.takeTurn cursors).1.head? = request.firstAt context ((cursors context.key).toNat % context.groupSize) := by
  obtain ⟨-, htwo⟩ := context_spec h
  have hperm := reorderRankedCandidatesForRoundRobin_perm request.ranked context
    (nextRoundRobinOffset (cursors context.key).toNat context.groupSize)
  unfold takeTurn
  rw [h]
  dsimp only
  unfold selectRoundRobinCandidates
  change (match request.context with | none => _ | some context => _ : List (ProviderCandidate F)).head? = _
  rw [h]
  dsimp only
  rw [selectAdaptiveCandidates_head?]
  rw [reorder_eq h hhealthy, nextRoundRobinOffset, if_neg (by omega), Nat.mod_mod] at hperm ⊢
  refine congrArg _ (List.find?_congr fun item _ => ?_)
  rw [decide_eq_decide]
  exact forall_congr' fun other => imp_congr_left hperm.mem_iff

/-- Which candidates come first in successive selections. -/
theorem map_head?_turns (h : request.context = some context)
    (hhealthy : ∀ item ∈ request.group context, item.healthOk = true) (count : Nat) (cursors : Cursors) :
    (request.turns count cursors).map List.head? =
      (turnPositions (2 ^ 64) context.groupSize (cursors context.key).toNat count).map (request.firstAt context) := by
  induction count generalizing cursors with
  | zero => rfl
  | succ count ih =>
    have hcursor := (cursors context.key).toNat_lt
    rw [turns, List.map_cons, ih, takeTurn_cursor h, turnPositions_mod, turnPositions_succ, List.map_cons,
      head?_takeTurn h hhealthy, Nat.mod_eq_of_lt hcursor]

/-- The turns are fair exactly if no candidate is ahead of an endpoint of the group, which therefore have one estimate
and one score, and the cursor does not start again within the turns, or the endpoints divide its width. -/
theorem fairTurns_iff (request : RoundRobinRequest F) (context : RoundRobinContext) (cursors : Cursors)
    (h : request.context = some context) (hhealthy : ∀ item ∈ request.group context, item.healthOk = true)
    (hdistinct : ((request.group context).map (·.candidate)).Nodup) :
    request.FairTurns context cursors ↔
      (∀ item ∈ request.group context, Foremost request.estimates request.ranked item) ∧
        ((cursors context.key).toNat + context.groupSize ≤ 2 ^ 64 ∨ context.groupSize ∣ 2 ^ 64) := by
  obtain ⟨hsize, htwo⟩ := context_spec h
  rw [← turnPositions_nodup_iff (cursors context.key).toNat_lt]
  unfold FairTurns
  rw [map_head?_turns h hhealthy]
  constructor
  · intro hfair
    have hnodup : ((request.group context).map fun item => some item.candidate).Nodup := by
      have hsome := hdistinct.map (Option.some_injective _)
      rwa [List.map_map] at hsome
    refine ⟨fun item hitem => ?_, (hfair.nodup_iff.mpr hnodup).of_map⟩
    have hpicked : some item.candidate ∈ (request.group context).map fun item => some item.candidate :=
      List.mem_map_of_mem hitem
    obtain ⟨position, -, hposition⟩ := List.mem_map.mp (hfair.mem_iff.mpr hpicked)
    exact foremost_of_firstAt hdistinct hitem hposition
  · rintro ⟨hforemost, hpositions⟩
    refine ((turnPositions_perm_range (by omega) hpositions).map _).trans (.of_eq ?_)
    apply List.ext_getElem
    · simp [hsize]
    · intro position _ hright
      have hposition : position < (request.group context).length := by simpa using hright
      rw [List.getElem_map, List.getElem_map, List.getElem_range, firstAt_eq hforemost hposition,
        List.getElem?_eq_getElem hposition, Option.map_some]

section Sample

/-- A healthy endpoint of the one model. -/
def endpoint (baseUrl : String) (score : ℚ) : RankedCandidate ℚ :=
  { candidate :=
      { name := "", baseUrl := some baseUrl, baseUrlScope := some baseUrl, source := "config", providerType := "openai"
        configuredModel := "qwen", specialties := [], hostGroup := none, maxConcurrentRequests := none
        resourceCostCpu := 0, resourceCostRamMb := 0, resourceCostVramMb := 0, hostCpuBudget := none
        hostRamBudgetMb := none, hostVramBudgetMb := none }
    score := score, healthOk := true, healthMode := none, generationTokensPerSecond := none }

/-- Two endpoints, of which nothing is known but their scores. -/
def pair (first second : ℚ) : RoundRobinRequest ℚ :=
  { ranked := [endpoint "qc00" first, endpoint "qc02" second], maxCandidates := 1, workflow := "general"
    role := "assistant", deduplicateModels := true, settings := { raceWindowMs := 750, maxRacedCandidates := 2 }
    estimates := ∅ }

def pairContext : RoundRobinContext :=
  { providerKey := "openai", modelKey := "qwen", key := "general:assistant:openai:qwen", groupSize := 2 }

theorem keys_normalized : normalizeKey "openai" "openai" = "openai" ∧ normalizeKey "qwen" "" = "qwen" := by decide

theorem pair_context (first second : ℚ) : (pair first second).context = some pairContext := by
  unfold RoundRobinRequest.context roundRobinContext
  simp [pair, endpoint, matchesRoundRobinGroup, keys_normalized, pairContext]

theorem pair_group (first second : ℚ) : (pair first second).group pairContext =
    [endpoint "qc00" first, endpoint "qc02" second] := by
  simp [group, pair, endpoint, matchesRoundRobinGroup, keys_normalized, pairContext]

theorem pair_healthy (first second : ℚ) : ∀ item ∈ (pair first second).group pairContext, item.healthOk = true := by
  rw [pair_group]
  simp [endpoint]

/-- Endpoints of one score take turns. -/
theorem pair_fair : (pair 5 5).FairTurns pairContext fun _ => 0 := by
  refine (fairTurns_iff (pair 5 5) pairContext (fun _ => 0) (pair_context 5 5) (pair_healthy 5 5) ?_).mpr
    ⟨?_, by decide⟩
  · rw [pair_group]
    decide
  · rw [pair_group]
    decide

/-- Of two scores, the better endpoint comes first both times. -/
theorem pair_unfair : (pair 5 4).context = some pairContext ∧
    (pair 5 4).group pairContext = [endpoint "qc00" 5, endpoint "qc02" 4] ∧
    (∀ item ∈ (pair 5 4).group pairContext, item.healthOk = true) ∧
    ((pair 5 4).turns 2 fun _ => 0).map List.head? =
      [some (endpoint "qc00" 5).candidate, some (endpoint "qc00" 5).candidate] ∧
    ¬(pair 5 4).FairTurns pairContext fun _ => 0 := by
  have hpositions : turnPositions (2 ^ 64) pairContext.groupSize (UInt64.toNat 0) 2 = [0, 1] := by decide
  have hfirst : (pair 5 4).firstAt pairContext 0 = some (endpoint "qc00" 5).candidate ∧
      (pair 5 4).firstAt pairContext 1 = some (endpoint "qc00" 5).candidate := by
    unfold firstAt
    rw [pair_group]
    decide
  have hturns : ((pair 5 4).turns 2 fun _ => 0).map List.head? =
      [some (endpoint "qc00" 5).candidate, some (endpoint "qc00" 5).candidate] := by
    rw [map_head?_turns (pair_context 5 4) (pair_healthy 5 4), hpositions, List.map_cons, List.map_singleton,
      hfirst.1, hfirst.2]
  refine ⟨pair_context 5 4, pair_group 5 4, pair_healthy 5 4, hturns, fun hfair => ?_⟩
  have hperm : (((pair 5 4).turns 2 fun _ => 0).map List.head?).Perm
      (((pair 5 4).group pairContext).map fun item => some item.candidate) := hfair
  rw [hturns, pair_group] at hperm
  revert hperm
  decide

end Sample

end RoundRobinRequest

end Turns

end Gail.Orchestration
