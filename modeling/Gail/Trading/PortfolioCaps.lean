import Gail.Trading.Portfolio

/-! The caps of an allocation: on each market, on each cluster, and on the number of markets. -/
namespace Gail.Trading
open Gail.Library

section Caps
variable {F : Type} [Field F] [LinearOrder F]

/-- The market passes every filter; what is not known of it, other than its volume, is no obstacle. -/
structure CrossSectionalConfig.Admits (config : CrossSectionalConfig F) (input : CrossSectionalInput F) :
    Prop where
  actionable : input.actionable = true
  inventory : input.inventoryEligible = true
  volume : ∃ volume, input.quoteVolumeUsd = some volume ∧ config.minimumQuoteVolumeUsd ≤ volume
  spread : ∀ spread, input.spreadBps = some spread → spread ≤ config.maximumSpreadBps
  depth : ∀ depth, input.depthUsd = some depth → config.minimumDepthUsd ≤ depth
  age : ∀ age, input.listingAgeDays = some age → config.minimumListingAgeDays ≤ age

/-- The total target of the markets of a cluster. -/
def clusterTarget (allocations : List (PortfolioAllocation F)) (cluster : String) : F :=
  ((allocations.filter fun allocation => allocation.correlationCluster == cluster).map
    PortfolioAllocation.targetWeight).sum

/-- The recommendation keeps within the caps and lists the largest moves first. -/
structure PortfolioRecommendation.WithinCaps (recommendation : PortfolioRecommendation F)
    (config : CrossSectionalConfig F) (inputs : List (CrossSectionalInput F)) : Prop where
  asset : ∀ allocation ∈ recommendation.allocations, allocation.targetWeight ≤ config.maximumAssetWeight
  cluster : ∀ cluster, clusterTarget recommendation.allocations cluster ≤ config.maximumClusterWeight
  count : recommendation.allocations.length ≤ config.topK
  admitted : ∀ allocation ∈ recommendation.allocations, ∃ input ∈ inputs, config.Admits input ∧
    input.exchange = allocation.exchange ∧ input.symbol = allocation.symbol
  ranks : recommendation.allocations.map PortfolioAllocation.rank =
    List.range' 1 recommendation.allocations.length
  descending : recommendation.allocations.Pairwise fun earlier later =>
    |later.rebalanceWeight| ≤ |earlier.rebalanceWeight|

/-- What the loop keeps while it takes markets from a ranked list. -/
structure AllocationState.WithinCaps (state : AllocationState F) (config : CrossSectionalConfig F)
    (ranked : List (ScoredInput F)) : Prop where
  asset : ∀ allocation ∈ state.allocations, allocation.targetWeight ≤ config.maximumAssetWeight
  listed : ∀ cluster, clusterTarget state.allocations cluster ≤ state.clusterWeights cluster
  cluster : ∀ cluster, state.clusterWeights cluster ≤ config.maximumClusterWeight
  counted : state.allocations.length ≤ state.targetCount
  count : state.targetCount ≤ config.topK
  ranked : ∀ allocation ∈ state.allocations, ∃ row ∈ ranked,
    row.input.exchange = allocation.exchange ∧ row.input.symbol = allocation.symbol

variable {config : CrossSectionalConfig F} {state : AllocationState F} {ranked rows : List (ScoredInput F)}
  {row : ScoredInput F} {input : CrossSectionalInput F}

omit [Field F] in
theorem CrossSectionalConfig.admits_of_eligible (h : config.eligible input = true) : config.Admits input := by
  simp only [CrossSectionalConfig.eligible, Bool.and_eq_true] at h
  obtain ⟨⟨⟨⟨⟨hactionable, hinventory⟩, hvolume⟩, hspread⟩, hdepth⟩, hage⟩ := h
  refine ⟨hactionable, hinventory, ?_, ?_, ?_, ?_⟩
  · obtain ⟨volume, hsome, hle⟩ := (Option.any_eq_true _ _).mp hvolume
    exact ⟨volume, hsome, of_decide_eq_true hle⟩
  · intro spread hsome
    rw [hsome] at hspread
    exact of_decide_eq_true hspread
  · intro depth hsome
    rw [hsome] at hdepth
    exact of_decide_eq_true hdepth
  · intro age hsome
    rw [hsome] at hage
    exact of_decide_eq_true hage

/-- Every ranked market is one of those given, and passes the filters. -/
theorem CrossSectionalConfig.admits_of_ranked (functions : ScoreFunctions F)
    (inputs : List (CrossSectionalInput F)) (h : row ∈ config.rankedRows functions inputs) :
    row.input ∈ inputs ∧ config.Admits row.input := by
  rw [CrossSectionalConfig.rankedRows, (sortByKey_perm _).mem_iff] at h
  have hscored := (List.mem_filter.mp h).1
  rw [List.zipWith_map_right, List.zipWith_self, List.mem_map] at hscored
  obtain ⟨input, hinput, rfl⟩ := hscored
  obtain ⟨hmem, heligible⟩ := List.mem_filter.mp hinput
  exact ⟨hmem, config.admits_of_eligible heligible⟩

omit [Field F] in
theorem within_le_high {x low high : F} (h : low ≤ high) : within x low high ≤ high :=
  max_le h (min_le_right _ _)

omit [LinearOrder F] in
theorem clusterTarget_concat (allocations : List (PortfolioAllocation F)) (allocation : PortfolioAllocation F)
    (cluster : String) : clusterTarget (allocations ++ [allocation]) cluster =
      clusterTarget allocations cluster +
        if allocation.correlationCluster = cluster then allocation.targetWeight else 0 := by
  unfold clusterTarget
  rw [List.filter_append, List.map_append, List.sum_append]
  split_ifs with h <;> simp [h]

/-- A market is passed over, or takes a target within its own cap and what is left of its cluster. -/
theorem allocateRow_cases (config : CrossSectionalConfig F) (state : AllocationState F) (row : ScoredInput F) :
    state.allocateRow config row = state ∨
    ∃ target, (target = 0 ∨ (epsilonWeight < target ∧ target ≤ row.volatilityWeight config ∧
        target ≤ max (config.maximumClusterWeight - state.clusterWeights row.cluster) 0)) ∧
      state.allocateRow config row =
        { clusterWeights := Function.update state.clusterWeights row.cluster
            (state.clusterWeights row.cluster + target)
          targetInvested := state.targetInvested + target
          targetCount := state.targetCount + 1
          allocations :=
            if row.settled target then state.allocations
            else state.allocations ++ [row.allocation config (state.allocations.length + 1) target] } := by
  unfold AllocationState.allocateRow
  dsimp only
  set allowed := min (row.volatilityWeight config)
    (max (config.maximumClusterWeight - state.clusterWeights row.cluster) 0) with hallowed
  by_cases hnone : allowed ≤ epsilonWeight
  · exact .inl (if_pos hnone)
  · refine .inr ⟨if row.isLong then allowed else 0, ?_, if_neg hnone⟩
    split_ifs
    · exact .inr ⟨not_le.mp hnone, min_le_left _ _, min_le_right _ _⟩
    · exact .inl rfl

/-- Ordering the allocations changes nothing of them but their ranks. -/
theorem orderAllocations_perm (allocations : List (PortfolioAllocation F)) :
    ((CrossSectionalAllocator.orderAllocations allocations).map fun allocation =>
      { allocation with rank := 0 }).Perm (allocations.map fun allocation => { allocation with rank := 0 }) := by
  unfold CrossSectionalAllocator.orderAllocations
  rw [List.mapIdx_eq_zipIdx_map, List.map_map]
  have hsame : ((fun allocation : PortfolioAllocation F => { allocation with rank := 0 }) ∘
      fun item : PortfolioAllocation F × Nat => { item.1 with rank := item.2 + 1 }) =
        (fun allocation => { allocation with rank := 0 }) ∘ Prod.fst := rfl
  rw [hsame, ← List.map_map, List.zipIdx_map_fst]
  exact (sortByKey_perm _).map _

/-- What does not depend on the rank and holds of every allocation holds when they are ordered. -/
theorem forall_orderAllocations {p : PortfolioAllocation F → Prop}
    (hp : ∀ allocation rank, p { allocation with rank } ↔ p allocation)
    {allocations : List (PortfolioAllocation F)} (h : ∀ allocation ∈ allocations, p allocation) :
    ∀ allocation ∈ CrossSectionalAllocator.orderAllocations allocations, p allocation := by
  intro allocation hmem
  have hunranked := (orderAllocations_perm allocations).mem_iff.mp (List.mem_map_of_mem hmem)
  obtain ⟨given, hgiven, heq⟩ := List.mem_map.mp hunranked
  rw [← hp allocation 0, ← heq, hp]
  exact h given hgiven

theorem clusterTarget_orderAllocations (allocations : List (PortfolioAllocation F)) (cluster : String) :
    clusterTarget (CrossSectionalAllocator.orderAllocations allocations) cluster =
      clusterTarget allocations cluster := by
  have hunranked : ∀ items : List (PortfolioAllocation F), clusterTarget items cluster =
      clusterTarget (items.map fun allocation => { allocation with rank := 0 }) cluster := by
    intro items
    unfold clusterTarget
    rw [List.filter_map, List.map_map]
    rfl
  rw [hunranked, hunranked allocations]
  exact (((orderAllocations_perm allocations).filter _).map _).sum_eq

theorem length_orderAllocations (allocations : List (PortfolioAllocation F)) :
    (CrossSectionalAllocator.orderAllocations allocations).length = allocations.length := by
  unfold CrossSectionalAllocator.orderAllocations
  rw [List.length_mapIdx, (sortByKey_perm _).length_eq]

theorem ranks_orderAllocations (allocations : List (PortfolioAllocation F)) :
    (CrossSectionalAllocator.orderAllocations allocations).map PortfolioAllocation.rank =
      List.range' 1 (CrossSectionalAllocator.orderAllocations allocations).length := by
  unfold CrossSectionalAllocator.orderAllocations
  rw [List.mapIdx_eq_zipIdx_map, List.map_map, List.length_map, List.length_zipIdx]
  have hrank : (PortfolioAllocation.rank ∘ fun item : PortfolioAllocation F × Nat =>
      { item.1 with rank := item.2 + 1 }) = (· + 1) ∘ Prod.snd := rfl
  rw [hrank, ← List.map_map, List.zipIdx_map_snd, ← List.range'_succ_left]

section Ordered
variable [IsStrictOrderedRing F]

theorem epsilonWeight_pos : 0 < (epsilonWeight : F) := by
  unfold epsilonWeight
  positivity

theorem CrossSectionalAllocator.maximumAssetWeight_nonneg (allocator : CrossSectionalAllocator F) :
    0 ≤ allocator.config.maximumAssetWeight := by
  obtain ⟨given, hgiven⟩ := allocator.normalised
  have hpos : (0 : F) ≤ 1 / 100 := by positivity
  rw [hgiven]
  exact hpos.trans (low_le_within _ _ _)

theorem allocateRow_withinCaps (hasset : 0 ≤ config.maximumAssetWeight) (h : state.WithinCaps config ranked)
    (hroom : state.targetCount < config.topK) (hrow : row ∈ ranked) :
    (state.allocateRow config row).WithinCaps config ranked := by
  rcases allocateRow_cases config state row with hsame | ⟨target, htarget, hnext⟩
  · rw [hsame]
    exact h
  have hpos : 0 ≤ target := by
    rcases htarget with rfl | ⟨hlarge, -, -⟩
    · exact le_rfl
    · exact (epsilonWeight_pos.trans hlarge).le
  have hown : target ≤ config.maximumAssetWeight := by
    rcases htarget with rfl | ⟨-, hweight, -⟩
    · exact hasset
    · exact hweight.trans (within_le_high hasset)
  have hleft : state.clusterWeights row.cluster + target ≤ config.maximumClusterWeight := by
    have hused := h.cluster row.cluster
    rcases htarget with rfl | ⟨-, -, hremaining⟩
    · rw [add_zero]
      exact hused
    · rw [max_eq_left (sub_nonneg.mpr hused)] at hremaining
      exact le_sub_iff_add_le'.mp hremaining
  have hgrown : ∀ cluster, state.clusterWeights cluster + (if row.cluster = cluster then target else 0) =
      Function.update state.clusterWeights row.cluster (state.clusterWeights row.cluster + target) cluster := by
    intro cluster
    by_cases hc : row.cluster = cluster
    · rw [if_pos hc, ← hc, Function.update_self]
    · rw [if_neg hc, add_zero, Function.update_of_ne (Ne.symm hc)]
  have hlisted : ∀ cluster, clusterTarget (if row.settled target then state.allocations
      else state.allocations ++ [row.allocation config (state.allocations.length + 1) target]) cluster ≤
        clusterTarget state.allocations cluster + if row.cluster = cluster then target else 0 := by
    intro cluster
    have hshare : 0 ≤ if row.cluster = cluster then target else 0 := by
      split_ifs
      · exact hpos
      · exact le_rfl
    by_cases hsettled : row.settled target = true
    · rw [if_pos hsettled]
      exact le_add_of_nonneg_right hshare
    · rw [if_neg hsettled, clusterTarget_concat]
      exact le_rfl
  rw [hnext]
  refine ⟨?_, fun cluster => ?_, fun cluster => ?_, ?_, hroom, ?_⟩
  · split_ifs
    · exact h.asset
    · intro allocation hmem
      rcases List.mem_append.mp hmem with hold | hnew
      · exact h.asset allocation hold
      · rw [List.mem_singleton.mp hnew]
        exact hown
  · dsimp only
    rw [← hgrown]
    exact (hlisted cluster).trans (add_le_add_left (h.listed cluster) _)
  · dsimp only
    by_cases hc : cluster = row.cluster
    · rw [hc, Function.update_self]
      exact hleft
    · rw [Function.update_of_ne hc]
      exact h.cluster cluster
  · split_ifs
    · exact h.counted.trans (Nat.le_succ _)
    · rw [List.length_append]
      exact Nat.succ_le_succ h.counted
  · split_ifs
    · exact h.ranked
    · intro allocation hmem
      rcases List.mem_append.mp hmem with hold | hnew
      · exact h.ranked allocation hold
      · rw [List.mem_singleton.mp hnew]
        exact ⟨row, hrow, rfl, rfl⟩

theorem allocateRows_withinCaps (hasset : 0 ≤ config.maximumAssetWeight) (hrows : ∀ row ∈ rows, row ∈ ranked)
    (h : state.WithinCaps config ranked) :
    (AllocationState.allocateRows config state rows).WithinCaps config ranked := by
  induction rows generalizing state with
  | nil => exact h
  | cons row rows ih =>
    rw [AllocationState.allocateRows]
    by_cases hfull : config.topK ≤ state.targetCount
    · rw [if_pos hfull]
      exact h
    · rw [if_neg hfull]
      apply ih fun later hlater => hrows later (List.mem_cons_of_mem row hlater)
      exact allocateRow_withinCaps hasset h (not_le.mp hfull) (hrows row List.mem_cons_self)

theorem descending_orderAllocations (allocations : List (PortfolioAllocation F)) :
    (CrossSectionalAllocator.orderAllocations allocations).Pairwise fun earlier later =>
      |later.rebalanceWeight| ≤ |earlier.rebalanceWeight| := by
  have hsorted := pairwise_sortByKey
    (fun allocation : PortfolioAllocation F => toLex (-|allocation.rebalanceWeight|, allocation.symbol)) allocations
  have hsame : (CrossSectionalAllocator.orderAllocations allocations).map PortfolioAllocation.rebalanceWeight =
      (sortByKey (fun allocation => toLex (-|allocation.rebalanceWeight|, allocation.symbol))
        allocations).map PortfolioAllocation.rebalanceWeight := by
    unfold CrossSectionalAllocator.orderAllocations
    rw [List.mapIdx_eq_zipIdx_map, List.map_map]
    have hweight : (PortfolioAllocation.rebalanceWeight ∘ fun item : PortfolioAllocation F × Nat =>
        { item.1 with rank := item.2 + 1 }) = PortfolioAllocation.rebalanceWeight ∘ Prod.fst := rfl
    rw [hweight, ← List.map_map, List.zipIdx_map_fst]
  have hweights : ((CrossSectionalAllocator.orderAllocations allocations).map
      PortfolioAllocation.rebalanceWeight).Pairwise fun earlier later => |later| ≤ |earlier| := by
    rw [hsame, List.pairwise_map]
    apply hsorted.imp
    intro earlier later hle
    exact neg_le_neg_iff.mp (Prod.Lex.monotone_fst _ _ hle)
  exact List.pairwise_map.mp hweights

end Ordered
end Caps

end Gail.Trading
