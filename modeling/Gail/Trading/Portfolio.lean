import Gail.Library.StableSort
import Gail.Library.Text
import Gail.Trading.Scalar
import Mathlib.Data.Nat.Log
import Mathlib.Data.Prod.Lex
import Mathlib.Data.Rat.Floor
import Mathlib.Data.String.Basic
import Mathlib.Tactic.LinearCombination
import Mathlib.Tactic.Positivity

/-! Cross-sectional allocation in exact arithmetic: which markets are taken, what weight each of them
gets, and what is left as cash. -/
namespace Gail.Trading
open Gail.Library

structure CrossSectionalConfig (F : Type) where
  enabled : Bool
  topK : Nat
  minimumQuoteVolumeUsd : F
  maximumSpreadBps : F
  minimumDepthUsd : F
  minimumListingAgeDays : F
  winsorQuantile : F
  volatilityFloorPct : F
  volatilityTargetPct : F
  maximumAssetWeight : F
  maximumClusterWeight : F
  minimumFactorScore : F
  allowIlliquidReversal : Bool

structure CrossSectionalInput (F : Type) where
  exchange : String
  symbol : String
  directionalSignal : F
  confidence : F
  riskScore : F
  volatilityPct : F
  quoteVolumeUsd : Option F
  spreadBps : Option F
  depthUsd : Option F
  listingAgeDays : Option F
  inventoryEligible : Bool
  actionable : Bool
  correlationCluster : String
  currentWeight : F

structure PortfolioAllocation (F : Type) where
  exchange : String
  symbol : String
  rank : Nat
  directionalSignal : F
  factorScore : F
  targetWeight : F
  currentWeight : F
  rebalanceWeight : F
  volatilityPct : F
  liquidityScore : F
  correlationCluster : String

structure PortfolioRecommendation (F : Type) where
  allocations : List (PortfolioAllocation F)
  cashWeight : F
  eligibleMarkets : Nat
  excludedMarkets : Nat

structure ScoredInput (F : Type) where
  input : CrossSectionalInput F
  factorScore : F
  liquidityScore : F

/-- What the loop over the scored markets has done. -/
structure AllocationState (F : Type) where
  clusterWeights : String → F
  allocations : List (PortfolioAllocation F)
  targetInvested : F
  targetCount : Nat

/-- The functions of the standard library that only matter for which markets are taken. -/
structure ScoreFunctions (F : Type) where
  log10 : F → F
  /-- `round() as usize`. -/
  roundCount : F → Nat

section Definitions
variable {F : Type} [Field F] [LinearOrder F]

/-- `f64::clamp`, where the bounds are in order. -/
def within (x low high : F) : F := max low (min x high)

/-- `f64::EPSILON`. -/
def epsilonWeight : F := 1 / 2 ^ 52

def CrossSectionalConfig.normalise (config : CrossSectionalConfig F) : CrossSectionalConfig F :=
  let maximumAssetWeight := within config.maximumAssetWeight (1 / 100) 1
  { config with
    topK := clampCount config.topK 1 50
    minimumQuoteVolumeUsd := within config.minimumQuoteVolumeUsd 0 (10 ^ 15)
    maximumSpreadBps := within config.maximumSpreadBps (1 / 10) 5000
    minimumDepthUsd := within config.minimumDepthUsd 0 (10 ^ 15)
    minimumListingAgeDays := within config.minimumListingAgeDays 0 10000
    winsorQuantile := within config.winsorQuantile 0 (1 / 4)
    volatilityFloorPct := within config.volatilityFloorPct (1 / 100) 100
    volatilityTargetPct := within config.volatilityTargetPct (1 / 100) 100
    maximumAssetWeight
    maximumClusterWeight := within config.maximumClusterWeight maximumAssetWeight 1
    minimumFactorScore := within config.minimumFactorScore 0 10 }

/-- An allocator has a normalised configuration. -/
structure CrossSectionalAllocator (F : Type) [Field F] [LinearOrder F] where
  config : CrossSectionalConfig F
  normalised : ∃ given : CrossSectionalConfig F, config = given.normalise

def CrossSectionalAllocator.new (config : CrossSectionalConfig F) : CrossSectionalAllocator F :=
  { config := config.normalise, normalised := ⟨config, rfl⟩ }

def median (values : List F) : F :=
  let ordered := sortByKey id values
  let middle := ordered.length / 2
  if values.isEmpty then 0
  else if ordered.length % 2 = 0 then (ordered.getD (middle - 1) 0 + ordered.getD middle 0) / 2
  else ordered.getD middle 0

/-- The median does not depend on the order of the values. -/
theorem median_perm {values values' : List F} (h : values'.Perm values) : median values' = median values := by
  unfold median
  rw [sortByKey_id_perm h, h.isEmpty_eq]

def winsorBounds (functions : ScoreFunctions F) (values : List F) (quantile : F) : F × F :=
  let ordered := sortByKey id values
  let tail := functions.roundCount (((ordered.length - 1 : Nat) : F) * within quantile 0 (1 / 4))
  if values.isEmpty then (0, 0)
  else (ordered.getD tail 0, ordered.getD (ordered.length - 1 - tail) 0)

namespace CrossSectionalConfig
variable (config : CrossSectionalConfig F)

def eligible (input : CrossSectionalInput F) : Bool :=
  input.actionable && input.inventoryEligible
    && input.quoteVolumeUsd.any (config.minimumQuoteVolumeUsd ≤ ·)
    && input.spreadBps.all (· ≤ config.maximumSpreadBps)
    && input.depthUsd.all (config.minimumDepthUsd ≤ ·)
    && input.listingAgeDays.all (config.minimumListingAgeDays ≤ ·)

def volatility (input : CrossSectionalInput F) : F := max |input.volatilityPct| config.volatilityFloorPct

def rawScore (marketComponent : F) (input : CrossSectionalInput F) : F :=
  (input.directionalSignal - marketComponent) / config.volatility input * within input.confidence 0 1
    * (1 - within input.riskScore 0 1)

def score (functions : ScoreFunctions F) (bounds : F × F) (input : CrossSectionalInput F) (rawScore : F) :
    ScoredInput F :=
  let quoteVolume := max (input.quoteVolumeUsd.getD 0) 0
  let liquidityScore := within (functions.log10 (quoteVolume + 1) / 10) 0 1
  let factorScore := within rawScore bounds.1 bounds.2
  let reversed := config.allowIlliquidReversal && decide (liquidityScore < 45 / 100)
    && decide (0 < |input.directionalSignal|)
  { input, factorScore := if reversed then -factorScore else factorScore, liquidityScore }

/-- The eligible markets with a sufficient score, the strongest first. -/
def rankedRows (functions : ScoreFunctions F) (inputs : List (CrossSectionalInput F)) :
    List (ScoredInput F) :=
  let eligible := inputs.filter config.eligible
  let marketComponent :=
    if 3 ≤ eligible.length then median (eligible.map CrossSectionalInput.directionalSignal) else 0
  let rawScores := eligible.map (config.rawScore marketComponent)
  let bounds := winsorBounds functions rawScores config.winsorQuantile
  let scored := (List.zipWith (config.score functions bounds) eligible rawScores).filter fun row =>
    config.minimumFactorScore ≤ |row.factorScore|
  sortByKey (fun row => toLex (-|row.factorScore|, toLex (-row.liquidityScore, row.input.symbol))) scored

end CrossSectionalConfig

namespace ScoredInput
variable (row : ScoredInput F)

def cluster : String :=
  if (trim row.input.correlationCluster).isEmpty then row.input.symbol else row.input.correlationCluster

/-- What the volatility of the market alone allows. -/
def volatilityWeight (config : CrossSectionalConfig F) : F :=
  within (config.volatilityTargetPct / config.volatility row.input) 0 config.maximumAssetWeight

def isLong : Bool := 0 ≤ row.input.directionalSignal

/-- The market is near enough to its target. -/
def settled (targetWeight : F) : Bool :=
  let rebalanceWeight := targetWeight - within row.input.currentWeight 0 1
  (row.isLong && rebalanceWeight ≤ 5 / 1000) || (!row.isLong && -(5 / 1000) ≤ rebalanceWeight)

def allocation (config : CrossSectionalConfig F) (rank : Nat) (targetWeight : F) : PortfolioAllocation F :=
  let currentWeight := within row.input.currentWeight 0 1
  { exchange := row.input.exchange
    symbol := row.input.symbol
    rank
    directionalSignal := row.input.directionalSignal
    factorScore := row.factorScore
    targetWeight
    currentWeight
    rebalanceWeight := targetWeight - currentWeight
    volatilityPct := config.volatility row.input
    liquidityScore := row.liquidityScore
    correlationCluster := row.cluster }

end ScoredInput

namespace AllocationState

def start : AllocationState F :=
  { clusterWeights := fun _ => 0, allocations := [], targetInvested := 0, targetCount := 0 }

/-- One round of the loop. -/
def allocateRow (config : CrossSectionalConfig F) (state : AllocationState F) (row : ScoredInput F) :
    AllocationState F :=
  let usedClusterWeight := state.clusterWeights row.cluster
  let remainingClusterWeight := max (config.maximumClusterWeight - usedClusterWeight) 0
  let allowedWeight := min (row.volatilityWeight config) remainingClusterWeight
  if allowedWeight ≤ epsilonWeight then state
  else
    let targetWeight := if row.isLong then allowedWeight else 0
    { clusterWeights :=
        Function.update state.clusterWeights row.cluster (usedClusterWeight + targetWeight)
      targetInvested := state.targetInvested + targetWeight
      targetCount := state.targetCount + 1
      allocations :=
        if row.settled targetWeight then state.allocations
        else
          state.allocations ++ [row.allocation config (state.allocations.length + 1) targetWeight] }

def allocateRows (config : CrossSectionalConfig F) : AllocationState F → List (ScoredInput F) → AllocationState F
  | state, [] => state
  | state, row :: rows =>
    if config.topK ≤ state.targetCount then state
    else allocateRows config (state.allocateRow config row) rows

end AllocationState

namespace CrossSectionalAllocator
variable (allocator : CrossSectionalAllocator F)

/-- The allocations by the size of their moves. -/
def orderAllocations (allocations : List (PortfolioAllocation F)) : List (PortfolioAllocation F) :=
  (sortByKey (fun allocation => toLex (-|allocation.rebalanceWeight|, allocation.symbol))
    allocations).mapIdx fun index allocation => { allocation with rank := index + 1 }

def allocateWithoutCrossSection (inputs : List (CrossSectionalInput F)) : PortfolioRecommendation F :=
  let kept := inputs.filter fun input => input.actionable && input.inventoryEligible
  let ordered := sortByKey (fun input => -|input.directionalSignal|) kept
  let allocations := (ordered.take allocator.config.topK).mapIdx fun index input =>
    { exchange := input.exchange
      symbol := input.symbol
      rank := index + 1
      directionalSignal := input.directionalSignal
      factorScore := input.directionalSignal
      targetWeight := allocator.config.maximumAssetWeight
      currentWeight := input.currentWeight
      rebalanceWeight := allocator.config.maximumAssetWeight - input.currentWeight
      volatilityPct := input.volatilityPct
      liquidityScore := 0
      correlationCluster := input.symbol }
  { eligibleMarkets := allocations.length
    excludedMarkets := inputs.length - allocations.length
    allocations
    cashWeight := 1 - min (allocations.map PortfolioAllocation.targetWeight).sum 1 }

def allocate (functions : ScoreFunctions F) (inputs : List (CrossSectionalInput F)) :
    PortfolioRecommendation F :=
  if !allocator.config.enabled then allocator.allocateWithoutCrossSection inputs
  else if (inputs.filter allocator.config.eligible).isEmpty then
    { allocations := [], cashWeight := 1, eligibleMarkets := 0, excludedMarkets := inputs.length }
  else
    let state := AllocationState.allocateRows allocator.config .start
      (allocator.config.rankedRows functions inputs)
    { eligibleMarkets := state.targetCount
      excludedMarkets := inputs.length - state.targetCount
      allocations := orderAllocations state.allocations
      cashWeight := 1 - min state.targetInvested 1 }

end CrossSectionalAllocator

end Definitions

/-! What an allocation comes to: the markets that are taken in the order of their ranks, and for each of
them its own weight within what the earlier ones leave of its cluster. -/

section Shares
variable {F : Type} [Field F] [LinearOrder F] (config : CrossSectionalConfig F)

/-- What the long markets of a cluster would take on their own. -/
def clusterLoad (before : List (ScoredInput F)) (cluster : String) : F :=
  ((before.filter fun row => row.isLong && row.cluster == cluster).map
    fun row => row.volatilityWeight config).sum

/-- The weight of a market, but not more than the earlier ones leave of its cluster. -/
def allowance (before : List (ScoredInput F)) (row : ScoredInput F) : F :=
  min (row.volatilityWeight config)
    (config.maximumClusterWeight - min (clusterLoad config before row.cluster) config.maximumClusterWeight)

/-- The markets that are taken after some others, with their weights. A market is passed over if it is
allowed no weight. -/
def takenShares : List (ScoredInput F) → List (ScoredInput F) → List (ScoredInput F × F)
  | _, [] => []
  | before, row :: rows =>
    if config.topK ≤ before.length then []
    else if allowance config before row ≤ epsilonWeight then takenShares before rows
    else (row, if row.isLong then allowance config before row else 0) :: takenShares (before ++ [row]) rows

def takenWeight (shares : List (ScoredInput F × F)) : F := (shares.map Prod.snd).sum

/-- The weight of the markets that are left as they are. -/
def settledWeight (shares : List (ScoredInput F × F)) : F :=
  takenWeight (shares.filter fun share => share.1.settled share.2)

/-- What the markets that are left as they are weigh is what all of them together have too much:
normally neither is anything. -/
def CrossSectionalAllocator.Fits (allocator : CrossSectionalAllocator F) (functions : ScoreFunctions F)
    (inputs : List (CrossSectionalInput F)) : Prop :=
  if allocator.config.enabled then
    let shares := takenShares allocator.config [] (allocator.config.rankedRows functions inputs)
    settledWeight shares = max (takenWeight shares - 1) 0
  else
    let kept := inputs.filter fun input => input.actionable && input.inventoryEligible
    (min allocator.config.topK kept.length : Nat) * allocator.config.maximumAssetWeight ≤ 1

/-- Targets and cash are the whole portfolio. -/
structure PortfolioRecommendation.Whole (recommendation : PortfolioRecommendation F) : Prop where
  total : (recommendation.allocations.map PortfolioAllocation.targetWeight).sum
    + recommendation.cashWeight = 1
  cash : 0 ≤ recommendation.cashWeight

end Shares

section Sums
variable {F : Type} [Field F] [LinearOrder F] [IsStrictOrderedRing F] {config : CrossSectionalConfig F}
  {state : AllocationState F} {before rows : List (ScoredInput F)} {row : ScoredInput F}

omit [Field F] [IsStrictOrderedRing F] in
theorem low_le_within (x low high : F) : low ≤ within x low high := le_max_left _ _

theorem CrossSectionalAllocator.maximumClusterWeight_nonneg (allocator : CrossSectionalAllocator F) :
    0 ≤ allocator.config.maximumClusterWeight := by
  obtain ⟨given, hgiven⟩ := allocator.normalised
  rw [hgiven]
  have hasset : (1 / 100 : F) ≤ within given.maximumAssetWeight (1 / 100) 1 := low_le_within _ _ _
  have hcluster : within given.maximumAssetWeight (1 / 100) 1 ≤
      within given.maximumClusterWeight (within given.maximumAssetWeight (1 / 100) 1) 1 :=
    low_le_within _ _ _
  have hpos : (0 : F) ≤ 1 / 100 := by positivity
  exact hpos.trans (hasset.trans hcluster)

omit [IsStrictOrderedRing F] in
theorem volatilityWeight_nonneg : 0 ≤ row.volatilityWeight config := low_le_within _ _ _

/-- With what it is allowed, a market brings its cluster up to its load within the cap. -/
theorem min_add_allowance : min (clusterLoad config before row.cluster) config.maximumClusterWeight
      + allowance config before row =
    min (clusterLoad config before row.cluster + row.volatilityWeight config)
      config.maximumClusterWeight := by
  have hown : 0 ≤ row.volatilityWeight config := volatilityWeight_nonneg
  unfold allowance
  rcases le_total (clusterLoad config before row.cluster) config.maximumClusterWeight with h | h
  · rw [min_eq_left h, ← min_add_add_left, add_sub_cancel]
  · rw [min_eq_right h, sub_self, min_eq_right hown, add_zero, min_eq_right]
    exact h.trans (le_add_of_nonneg_right hown)

omit [IsStrictOrderedRing F] in
theorem clusterLoad_concat (cluster : String) : clusterLoad config (before ++ [row]) cluster =
    clusterLoad config before cluster +
      if row.isLong && row.cluster == cluster then row.volatilityWeight config else 0 := by
  unfold clusterLoad
  rw [List.filter_append, List.map_append, List.sum_append]
  split_ifs with h <;> simp [h]

/-- The loop has taken these markets. -/
structure AllocationState.Follows (state : AllocationState F) (config : CrossSectionalConfig F)
    (before : List (ScoredInput F)) : Prop where
  clusterWeights : ∀ cluster, state.clusterWeights cluster =
    min (clusterLoad config before cluster) config.maximumClusterWeight
  targetCount : state.targetCount = before.length

theorem min_remaining (h : state.Follows config before) :
    min (row.volatilityWeight config)
      (max (config.maximumClusterWeight - state.clusterWeights row.cluster) 0) =
        allowance config before row := by
  rw [allowance, h.clusterWeights, max_eq_left]
  exact sub_nonneg.mpr (min_le_right _ _)

theorem allocateRow_passed (h : state.Follows config before)
    (hpassed : allowance config before row ≤ epsilonWeight) : state.allocateRow config row = state := by
  unfold AllocationState.allocateRow
  simp only [min_remaining h, if_pos hpassed]

/-- A market that is taken gets its share, and is listed unless it is settled. -/
theorem allocateRow_taken (h : state.Follows config before)
    (htaken : ¬ allowance config before row ≤ epsilonWeight) :
    let share := if row.isLong then allowance config before row else 0
    let next := state.allocateRow config row
    next.Follows config (before ++ [row]) ∧ next.targetInvested = state.targetInvested + share ∧
      (next.allocations.map PortfolioAllocation.targetWeight).sum =
        (state.allocations.map PortfolioAllocation.targetWeight).sum +
          if row.settled share then 0 else share := by
  intro share next
  have hnext : next =
      { clusterWeights :=
          Function.update state.clusterWeights row.cluster (state.clusterWeights row.cluster + share)
        targetInvested := state.targetInvested + share
        targetCount := state.targetCount + 1
        allocations :=
          if row.settled share then state.allocations
          else state.allocations ++ [row.allocation config (state.allocations.length + 1) share] } := by
    change state.allocateRow config row = _
    unfold AllocationState.allocateRow
    simp only [min_remaining h, if_neg htaken]
    rfl
  rw [hnext]
  refine ⟨⟨fun cluster => ?_, ?_⟩, rfl, ?_⟩
  · rw [clusterLoad_concat]
    dsimp only
    by_cases hc : cluster = row.cluster
    · subst hc
      rw [Function.update_self, h.clusterWeights]
      cases hl : row.isLong with
      | true =>
        have hshare : share = allowance config before row := if_pos hl
        rw [hshare, min_add_allowance, beq_self_eq_true, Bool.and_self, if_pos rfl]
      | false =>
        have hshare : share = 0 := if_neg (by rw [hl]; decide)
        rw [hshare, Bool.false_and, if_neg (by decide), add_zero, add_zero]
    · rw [Function.update_of_ne hc, h.clusterWeights]
      have hother : (row.isLong && row.cluster == cluster) = false := by
        rw [Bool.and_eq_false_iff]
        exact .inr (beq_false_of_ne (Ne.symm hc))
      rw [hother, if_neg (by decide), add_zero]
  · rw [h.targetCount, List.length_append]
    rfl
  · simp only
    split_ifs
    · rw [add_zero]
    · rw [List.map_append, List.sum_append]
      simp [ScoredInput.allocation]

/-- The loop gives every market that is taken its share. -/
theorem allocateRows_shares (rows : List (ScoredInput F)) (h : state.Follows config before) :
    let shares := takenShares config before rows
    let final := AllocationState.allocateRows config state rows
    final.targetInvested = state.targetInvested + takenWeight shares ∧
      (final.allocations.map PortfolioAllocation.targetWeight).sum + settledWeight shares =
        (state.allocations.map PortfolioAllocation.targetWeight).sum + takenWeight shares := by
  induction rows generalizing state before with
  | nil => simp [takenShares, AllocationState.allocateRows, takenWeight, settledWeight]
  | cons row rows ih =>
    simp only [takenShares, AllocationState.allocateRows, h.targetCount]
    by_cases hfull : config.topK ≤ before.length
    · simp [if_pos hfull, takenWeight, settledWeight]
    rw [if_neg hfull, if_neg hfull]
    by_cases hpassed : allowance config before row ≤ epsilonWeight
    · rw [if_pos hpassed, allocateRow_passed h hpassed]
      exact ih h
    · rw [if_neg hpassed]
      obtain ⟨hfollows, hinvested, hlisted⟩ := allocateRow_taken h hpassed
      obtain ⟨htotal, hlists⟩ := ih hfollows
      set share := if row.isLong then allowance config before row else 0 with hshare
      set rest := takenShares config (before ++ [row]) rows with hrest
      have htaken : takenWeight ((row, share) :: rest) = share + takenWeight rest := by
        rw [takenWeight, List.map_cons, List.sum_cons]
        rfl
      have hsettled : settledWeight ((row, share) :: rest) =
          (if row.settled share then share else 0) + settledWeight rest := by
        unfold settledWeight
        rw [List.filter_cons]
        split_ifs
        · rw [takenWeight, List.map_cons, List.sum_cons]
          rfl
        · rw [zero_add]
      rw [htotal, hinvested, htaken, hsettled]
      refine ⟨add_assoc _ _ _, ?_⟩
      rw [hlisted] at hlists
      split_ifs at hlists ⊢ <;> linear_combination hlists

omit [IsStrictOrderedRing F] in
theorem sum_orderAllocations (allocations : List (PortfolioAllocation F)) :
    ((CrossSectionalAllocator.orderAllocations allocations).map PortfolioAllocation.targetWeight).sum =
      (allocations.map PortfolioAllocation.targetWeight).sum := by
  unfold CrossSectionalAllocator.orderAllocations
  rw [List.mapIdx_eq_zipIdx_map, List.map_map]
  have hsame : (PortfolioAllocation.targetWeight ∘ fun item : PortfolioAllocation F × Nat =>
      { item.1 with rank := item.2 + 1 }) = PortfolioAllocation.targetWeight ∘ Prod.fst := rfl
  rw [hsame, ← List.map_map, List.zipIdx_map_fst]
  exact ((sortByKey_perm _).map _).sum_eq

/-- A sum is made whole by what is left of one exactly when it does not exceed one. -/
theorem add_residual_eq_one_iff (listed invested : F) :
    listed + (1 - min invested 1) = 1 ↔ invested - listed = max (invested - 1) 0 := by
  rcases le_total invested 1 with h | h
  · rw [min_eq_left h, max_eq_right (sub_nonpos.mpr h)]
    constructor <;> intro he <;> linear_combination -he
  · rw [min_eq_right h, max_eq_left (sub_nonneg.mpr h)]
    constructor <;> intro he <;> linear_combination -he

theorem residual_nonneg (invested : F) : 0 ≤ 1 - min invested 1 := sub_nonneg.mpr (min_le_right _ _)

theorem allocateWithoutCrossSection_whole_iff (allocator : CrossSectionalAllocator F)
    (inputs : List (CrossSectionalInput F)) :
    (allocator.allocateWithoutCrossSection inputs).Whole ↔
      (min allocator.config.topK (inputs.filter fun input =>
        input.actionable && input.inventoryEligible).length : Nat) *
          allocator.config.maximumAssetWeight ≤ 1 := by
  set kept := inputs.filter fun input => input.actionable && input.inventoryEligible with hkept
  have hsum : ((allocator.allocateWithoutCrossSection inputs).allocations.map
      PortfolioAllocation.targetWeight).sum =
        (min allocator.config.topK kept.length : Nat) * allocator.config.maximumAssetWeight := by
    unfold CrossSectionalAllocator.allocateWithoutCrossSection
    dsimp only
    rw [List.mapIdx_eq_zipIdx_map, List.map_map, ← hkept]
    have hconst : ∀ items : List (CrossSectionalInput F × Nat), (items.map
        (PortfolioAllocation.targetWeight ∘ fun item : CrossSectionalInput F × Nat =>
          { exchange := item.1.exchange, symbol := item.1.symbol, rank := item.2 + 1
            directionalSignal := item.1.directionalSignal, factorScore := item.1.directionalSignal
            targetWeight := allocator.config.maximumAssetWeight, currentWeight := item.1.currentWeight
            rebalanceWeight := allocator.config.maximumAssetWeight - item.1.currentWeight
            volatilityPct := item.1.volatilityPct, liquidityScore := 0
            correlationCluster := item.1.symbol })).sum =
          items.length * allocator.config.maximumAssetWeight := by
      intro items
      rw [show (PortfolioAllocation.targetWeight ∘ fun item : CrossSectionalInput F × Nat => _) =
        Function.const _ allocator.config.maximumAssetWeight from rfl, List.map_const, List.sum_replicate,
        nsmul_eq_mul]
    rw [hconst, List.length_zipIdx, List.length_take, (sortByKey_perm _).length_eq]
  have hcash : (allocator.allocateWithoutCrossSection inputs).cashWeight =
      1 - min ((allocator.allocateWithoutCrossSection inputs).allocations.map
        PortfolioAllocation.targetWeight).sum 1 := rfl
  constructor
  · intro h
    have htotal := h.total
    rw [hcash, hsum, add_residual_eq_one_iff, sub_self] at htotal
    exact sub_nonpos.mp (max_eq_right_iff.mp htotal.symm)
  · intro h
    refine ⟨?_, hcash ▸ residual_nonneg _⟩
    rw [hcash, hsum, add_residual_eq_one_iff, sub_self, max_eq_right (sub_nonpos.mpr h)]

/-- Targets and cash are the whole portfolio exactly when the shares of the markets that are taken,
less those that are left as they are, come to one at most. -/
theorem allocation_whole_iff (config : CrossSectionalConfig F) (functions : ScoreFunctions F)
    (inputs : List (CrossSectionalInput F)) :
    ((CrossSectionalAllocator.new config).allocate functions inputs).Whole ↔
      (CrossSectionalAllocator.new config).Fits functions inputs := by
  set allocator := CrossSectionalAllocator.new config with hallocator
  unfold CrossSectionalAllocator.allocate CrossSectionalAllocator.Fits
  cases henabled : allocator.config.enabled with
  | false => exact allocateWithoutCrossSection_whole_iff allocator inputs
  | true =>
    rw [if_neg (by decide), if_pos rfl]
    have hstart : (AllocationState.start : AllocationState F).Follows allocator.config [] :=
      ⟨fun cluster => (min_eq_left allocator.maximumClusterWeight_nonneg).symm, rfl⟩
    obtain ⟨hinvested, hlisted⟩ :=
      allocateRows_shares (allocator.config.rankedRows functions inputs) hstart
    set shares := takenShares allocator.config [] (allocator.config.rankedRows functions inputs)
      with hshares
    split_ifs with hempty
    · have hnone : shares = [] := by
        rw [List.isEmpty_iff] at hempty
        rw [hshares, CrossSectionalConfig.rankedRows, hempty]
        rfl
      have hzero : (0 : F) = max (0 - 1) 0 := (max_eq_right (by linarith)).symm
      rw [hnone]
      refine iff_of_true ⟨?_, zero_le_one⟩ hzero
      rw [List.map_nil, List.sum_nil, zero_add]
    · have hstartSum : ((AllocationState.start : AllocationState F).allocations.map
          PortfolioAllocation.targetWeight).sum = 0 := rfl
      have hstartInvested : (AllocationState.start : AllocationState F).targetInvested = 0 := rfl
      rw [hstartInvested, zero_add] at hinvested
      rw [hstartSum, zero_add] at hlisted
      have hsettled : settledWeight shares = takenWeight shares -
          ((AllocationState.allocateRows allocator.config .start
            (allocator.config.rankedRows functions inputs)).allocations.map
              PortfolioAllocation.targetWeight).sum := by
        linear_combination hlisted
      dsimp only
      rw [hsettled, ← add_residual_eq_one_iff]
      constructor
      · intro h
        have htotal := h.total
        rw [sum_orderAllocations, hinvested] at htotal
        exact htotal
      · intro h
        refine ⟨?_, residual_nonneg _⟩
        rw [sum_orderAllocations, hinvested]
        exact h

end Sums

section Sample

/-- Four markets of four clusters. -/
def fourMarkets : List (CrossSectionalInput ℚ) :=
  [("A", 9), ("B", 8), ("C", 2), ("D", 1)].map fun (symbol, tenths) =>
    { exchange := "binance"
      symbol
      directionalSignal := tenths / 10
      confidence := 1
      riskScore := 0
      volatilityPct := 2
      quoteVolumeUsd := some 99999999
      spreadBps := none
      depthUsd := none
      listingAgeDays := none
      inventoryEligible := true
      actionable := true
      correlationCluster := symbol
      currentWeight := 0 }

def CrossSectionalConfig.default : CrossSectionalConfig ℚ :=
  { enabled := true
    topK := 3
    minimumQuoteVolumeUsd := 1000000
    maximumSpreadBps := 40
    minimumDepthUsd := 5000
    minimumListingAgeDays := 14
    winsorQuantile := 5 / 100
    volatilityFloorPct := 25 / 100
    volatilityTargetPct := 2
    maximumAssetWeight := 45 / 100
    maximumClusterWeight := 65 / 100
    minimumFactorScore := 5 / 100
    allowIlliquidReversal := false }

/-- The whole part of the logarithm, and the nearest count. -/
def ScoreFunctions.exact : ScoreFunctions ℚ where
  log10 x := Nat.log 10 x.floor.toNat
  roundCount x := (x + 1 / 2).floor.toNat

/-- By default three markets get forty-five hundredths each, and no cash is left. -/
theorem allocation_exceeds_portfolio :
    let recommendation := (CrossSectionalAllocator.new .default).allocate .exact fourMarkets
    (recommendation.allocations.map PortfolioAllocation.targetWeight).sum = 135 / 100 ∧
      recommendation.cashWeight = 0 ∧ ¬ recommendation.Whole := by
  intro recommendation
  have hsum : (recommendation.allocations.map PortfolioAllocation.targetWeight).sum = 135 / 100 := by
    decide +kernel
  have hcash : recommendation.cashWeight = 0 := by
    decide +kernel
  refine ⟨hsum, hcash, fun h => ?_⟩
  have htotal := h.total
  rw [hsum, hcash] at htotal
  norm_num at htotal

/-- The two strongest of them leave a tenth in cash. -/
theorem allocation_whole_iff_two :
    ((CrossSectionalAllocator.new .default).allocate .exact (fourMarkets.take 2)).Whole := by
  apply (allocation_whole_iff CrossSectionalConfig.default .exact (fourMarkets.take 2)).mpr
  unfold CrossSectionalAllocator.Fits
  rw [if_pos (by decide +kernel)]
  decide +kernel

end Sample

end Gail.Trading
