import Gail.Trading.Portfolio

/-! What the order in which the markets are enumerated decides in an allocation. -/
namespace Gail.Trading
open Gail.Library
variable {F : Type} [Field F] [LinearOrder F]

/-- What tells one market from another. -/
def CrossSectionalInput.market (input : CrossSectionalInput F) : String × String := (input.exchange, input.symbol)

def CrossSectionalInput.kept (input : CrossSectionalInput F) : Bool := input.actionable && input.inventoryEligible

/-- The order of the markets where no cross section is used. -/
def CrossSectionalInput.signalKey (input : CrossSectionalInput F) : F := -|input.directionalSignal|

/-- The order of the markets in a cross section, which does not look at the exchange. -/
def ScoredInput.rankKey (row : ScoredInput F) : F ×ₗ F ×ₗ String :=
  toLex (-|row.factorScore|, toLex (-row.liquidityScore, row.input.symbol))

/-- The eligible markets with a sufficient score, as they are enumerated. -/
def CrossSectionalConfig.scoredRows (config : CrossSectionalConfig F) (functions : ScoreFunctions F)
    (inputs : List (CrossSectionalInput F)) : List (ScoredInput F) :=
  let eligible := inputs.filter config.eligible
  let marketComponent :=
    if 3 ≤ eligible.length then median (eligible.map CrossSectionalInput.directionalSignal) else 0
  let rawScores := eligible.map (config.rawScore marketComponent)
  let bounds := winsorBounds functions rawScores config.winsorQuantile
  (eligible.map fun input => config.score functions bounds input (config.rawScore marketComponent input)).filter
    fun row => config.minimumFactorScore ≤ |row.factorScore|

/-- Two markets that the order does not tell apart come after as many as the portfolio takes. -/
def CrossSectionalAllocator.TiesPastCapacity (allocator : CrossSectionalAllocator F)
    (functions : ScoreFunctions F) (inputs : List (CrossSectionalInput F)) : Prop :=
  if allocator.config.enabled then
    ∀ a ∈ allocator.config.scoredRows functions inputs, ∀ b ∈ allocator.config.scoredRows functions inputs,
      a.input.market ≠ b.input.market → a.rankKey = b.rankKey →
        allocator.config.topK ≤ (takenShares allocator.config []
          ((allocator.config.rankedRows functions inputs).filter fun c => c.rankKey < a.rankKey)).length
  else
    ∀ a ∈ inputs.filter CrossSectionalInput.kept, ∀ b ∈ inputs.filter CrossSectionalInput.kept,
      a.market ≠ b.market → |a.directionalSignal| = |b.directionalSignal| →
        allocator.config.topK ≤ (inputs.filter CrossSectionalInput.kept).countP
          fun c => |a.directionalSignal| < |c.directionalSignal|

section Scores
variable {config : CrossSectionalConfig F} {functions : ScoreFunctions F} {inputs inputs' : List (CrossSectionalInput F)}

theorem rankedRows_eq : config.rankedRows functions inputs =
    sortByKey ScoredInput.rankKey (config.scoredRows functions inputs) := by
  unfold CrossSectionalConfig.rankedRows CrossSectionalConfig.scoredRows
  dsimp only
  rw [List.zipWith_map_right, List.zipWith_self]
  rfl

theorem winsorBounds_perm {values values' : List F} (h : values'.Perm values) (quantile : F) :
    winsorBounds functions values' quantile = winsorBounds functions values quantile := by
  unfold winsorBounds
  rw [sortByKey_id_perm h, h.isEmpty_eq]

/-- A score depends on which markets there are, not on their order. -/
theorem scoredRows_perm (config : CrossSectionalConfig F) (functions : ScoreFunctions F) (h : inputs'.Perm inputs) :
    (config.scoredRows functions inputs').Perm (config.scoredRows functions inputs) := by
  have heligible : (inputs'.filter config.eligible).Perm (inputs.filter config.eligible) := h.filter _
  have hmedian := median_perm (heligible.map CrossSectionalInput.directionalSignal)
  unfold CrossSectionalConfig.scoredRows
  dsimp only
  rw [heligible.length_eq, hmedian, winsorBounds_perm (heligible.map _)]
  exact (heligible.map _).filter _

theorem scoredRows_reverse (config : CrossSectionalConfig F) (functions : ScoreFunctions F)
    (inputs : List (CrossSectionalInput F)) :
    config.scoredRows functions inputs.reverse = (config.scoredRows functions inputs).reverse := by
  have heligible : (inputs.reverse.filter config.eligible).Perm (inputs.filter config.eligible) :=
    (List.reverse_perm inputs).filter _
  have hmedian := median_perm (heligible.map CrossSectionalInput.directionalSignal)
  unfold CrossSectionalConfig.scoredRows
  dsimp only
  rw [heligible.length_eq, hmedian, winsorBounds_perm (heligible.map _), List.filter_reverse, List.map_reverse,
    List.filter_reverse]

theorem market_scoredRows_sublist (config : CrossSectionalConfig F) (functions : ScoreFunctions F)
    (inputs : List (CrossSectionalInput F)) :
    ((config.scoredRows functions inputs).map fun row => row.input.market).Sublist
      (inputs.map CrossSectionalInput.market) := by
  unfold CrossSectionalConfig.scoredRows
  dsimp only
  refine (List.filter_sublist.map _).trans ?_
  rw [List.map_map]
  exact List.filter_sublist.map CrossSectionalInput.market

end Scores

section Loop
variable [IsStrictOrderedRing F] {config : CrossSectionalConfig F} {state : AllocationState F}
  {before : List (ScoredInput F)}

omit [IsStrictOrderedRing F] in
theorem allocateRows_full (h : config.topK ≤ state.targetCount) (rows : List (ScoredInput F)) :
    AllocationState.allocateRows config state rows = state := by
  cases rows with
  | nil => rfl
  | cons row rows => exact if_pos h

omit [IsStrictOrderedRing F] in
theorem allocateRows_append (rows rows' : List (ScoredInput F)) :
    AllocationState.allocateRows config state (rows ++ rows') =
      AllocationState.allocateRows config (AllocationState.allocateRows config state rows) rows' := by
  induction rows generalizing state with
  | nil => rfl
  | cons row rows ih =>
    rw [List.cons_append, AllocationState.allocateRows, AllocationState.allocateRows]
    split_ifs with hfull
    · exact (allocateRows_full hfull rows').symm
    · exact ih

theorem targetCount_allocateRows (rows : List (ScoredInput F)) (h : state.Follows config before) :
    (AllocationState.allocateRows config state rows).targetCount =
      before.length + (takenShares config before rows).length := by
  induction rows generalizing state before with
  | nil => exact h.targetCount
  | cons row rows ih =>
    rw [AllocationState.allocateRows, takenShares, h.targetCount]
    split_ifs with hfull hpassed
    · exact h.targetCount
    · rw [allocateRow_passed h hpassed]
      exact ih h
    all_goals
      rw [ih (allocateRow_taken h hpassed).1, List.length_append, List.length_singleton, List.length_cons]
      omega

end Loop

section Orders
variable {allocator : CrossSectionalAllocator F} {functions : ScoreFunctions F}
  {inputs inputs' : List (CrossSectionalInput F)}

omit [Field F] [LinearOrder F] in
theorem market_ne {a b : CrossSectionalInput F} (hdistinct : (inputs.map CrossSectionalInput.market).Nodup)
    (ha : a ∈ inputs) (hb : b ∈ inputs) (hne : a ≠ b) : a.market ≠ b.market := fun h =>
  hne (List.inj_on_of_nodup_map hdistinct ha hb h)

/-- The recommendation is made from the markets that are taken, and from how many there are. -/
theorem allocateWithoutCrossSection_congr (hlength : inputs'.length = inputs.length)
    (h : (sortByKey CrossSectionalInput.signalKey (inputs'.filter CrossSectionalInput.kept)).take
        allocator.config.topK =
      (sortByKey CrossSectionalInput.signalKey (inputs.filter CrossSectionalInput.kept)).take
        allocator.config.topK) :
    allocator.allocateWithoutCrossSection inputs' = allocator.allocateWithoutCrossSection inputs := by
  unfold CrossSectionalInput.signalKey CrossSectionalInput.kept at h
  unfold CrossSectionalAllocator.allocateWithoutCrossSection
  dsimp only
  rw [h, hlength]

/-- The markets that are recommended. -/
theorem markets_allocateWithoutCrossSection :
    (allocator.allocateWithoutCrossSection inputs).allocations.map
        (fun allocation => (allocation.exchange, allocation.symbol)) =
      ((sortByKey CrossSectionalInput.signalKey (inputs.filter CrossSectionalInput.kept)).take
        allocator.config.topK).map CrossSectionalInput.market := by
  unfold CrossSectionalAllocator.allocateWithoutCrossSection
  dsimp only
  rw [List.mapIdx_eq_zipIdx_map, List.map_map]
  conv_rhs => rw [← List.zipIdx_map_fst 0 (List.take _ _), List.map_map]
  rfl

/-- A loop that is full before the first tied rows does not see their order. -/
theorem allocateRows_perm [IsStrictOrderedRing F] {config : CrossSectionalConfig F} {rows rows' : List (ScoredInput F)}
    (hcap : 0 ≤ config.maximumClusterWeight) (hperm : rows'.Perm rows)
    (hties : ∀ a ∈ rows, ∀ b ∈ rows, a ≠ b → a.rankKey = b.rankKey → config.topK ≤
      (takenShares config [] ((sortByKey ScoredInput.rankKey rows).filter fun c => c.rankKey < a.rankKey)).length) :
    AllocationState.allocateRows config .start (sortByKey ScoredInput.rankKey rows') =
      AllocationState.allocateRows config .start (sortByKey ScoredInput.rankKey rows) := by
  rcases sortByKey_eq_or_tied ScoredInput.rankKey hperm with heq | ⟨a, ha, b, hb, hne, hkey, hahead⟩
  · rw [heq]
  · have hstart : (AllocationState.start : AllocationState F).Follows config [] :=
      ⟨fun cluster => (min_eq_left hcap).symm, rfl⟩
    have hfull := hties a ha b hb hne hkey
    have hcount := targetCount_allocateRows
      ((sortByKey ScoredInput.rankKey rows).filter fun c => c.rankKey < a.rankKey) hstart
    rw [List.length_nil, Nat.zero_add] at hcount
    rw [← hcount] at hfull
    obtain ⟨rest, hrest⟩ := sortByKey_prefix ScoredInput.rankKey rows a.rankKey
    obtain ⟨rest', hrest'⟩ := hahead
    rw [← hrest', allocateRows_append, allocateRows_full hfull]
    conv_rhs => rw [← hrest, allocateRows_append, allocateRows_full hfull]

theorem allocate_perm [IsStrictOrderedRing F] (hties : allocator.TiesPastCapacity functions inputs)
    (hdistinct : (inputs.map CrossSectionalInput.market).Nodup) (hperm : inputs'.Perm inputs) :
    allocator.allocate functions inputs' = allocator.allocate functions inputs := by
  unfold CrossSectionalAllocator.TiesPastCapacity at hties
  unfold CrossSectionalAllocator.allocate
  cases henabled : allocator.config.enabled with
  | false =>
    rw [henabled, if_neg (by decide)] at hties
    rw [if_pos (by decide), if_pos (by decide)]
    apply allocateWithoutCrossSection_congr hperm.length_eq
    apply take_sortByKey_perm (hperm.filter _)
    intro a ha b hb hne hkey
    have hmarket := market_ne (hdistinct.sublist (List.filter_sublist.map _)) ha hb hne
    have hcount := hties a ha b hb hmarket (neg_injective hkey)
    unfold CrossSectionalInput.signalKey
    simpa only [neg_lt_neg_iff] using hcount
  | true =>
    rw [henabled, if_pos rfl] at hties
    have hrows := scoredRows_perm allocator.config functions hperm
    have hsame := allocateRows_perm allocator.maximumClusterWeight_nonneg hrows fun a ha b hb hne hkey => by
      rw [← rankedRows_eq]
      refine hties a ha b hb (fun hmarket => ?_) hkey
      have hrowsDistinct := hdistinct.sublist (market_scoredRows_sublist allocator.config functions inputs)
      exact hne (List.inj_on_of_nodup_map hrowsDistinct ha hb hmarket)
    rw [← rankedRows_eq, ← rankedRows_eq] at hsame
    have henter : ¬ (!true) = true := by decide
    rw [if_neg henter, if_neg henter, hsame, hperm.length_eq,
      (hperm.filter allocator.config.eligible).isEmpty_eq]

/-- Without a cross section, a tie within the markets that are taken shows if they are enumerated the
other way. -/
theorem tiesPastCapacity_of_reverse [IsStrictOrderedRing F] (hdisabled : allocator.config.enabled = false)
    (hdistinct : (inputs.map CrossSectionalInput.market).Nodup)
    (h : allocator.allocate functions inputs.reverse = allocator.allocate functions inputs) :
    allocator.TiesPastCapacity functions inputs := by
  unfold CrossSectionalAllocator.TiesPastCapacity
  rw [hdisabled, if_neg (by decide)]
  intro a ha b hb hne hsize
  by_contra hwithin
  unfold CrossSectionalAllocator.allocate at h
  rw [hdisabled, if_pos (by decide), if_pos (by decide)] at h
  have hmarkets := congrArg (fun recommendation => recommendation.allocations.map
    fun allocation => (allocation.exchange, allocation.symbol)) h
  rw [markets_allocateWithoutCrossSection, markets_allocateWithoutCrossSection, List.filter_reverse] at hmarkets
  have hkey : a.signalKey = b.signalKey := congrArg Neg.neg hsize
  have hfirst := getElem?_sortByKey_reverse (hdistinct.sublist (List.filter_sublist.map _)) ha hb hne hkey
  apply hfirst
  unfold CrossSectionalInput.signalKey at hfirst ⊢
  simp only [neg_lt_neg_iff] at hfirst ⊢
  set place := (inputs.filter CrossSectionalInput.kept).countP fun c => |a.directionalSignal| < |c.directionalSignal|
  have hplace := congrArg (fun markets : List (String × String) => markets[place]?) hmarkets
  rw [List.getElem?_map, List.getElem?_map, List.getElem?_take_of_lt (not_le.mp hwithin),
    List.getElem?_take_of_lt (not_le.mp hwithin)] at hplace
  exact hplace.symm

/-- A tie of two markets of a cross section shows in their ranking. -/
theorem untied_of_reverse {config : CrossSectionalConfig F}
    (hdistinct : (inputs.map CrossSectionalInput.market).Nodup)
    (h : config.rankedRows functions inputs.reverse = config.rankedRows functions inputs) :
    ∀ a ∈ config.scoredRows functions inputs, ∀ b ∈ config.scoredRows functions inputs,
      a.input.market ≠ b.input.market → a.rankKey ≠ b.rankKey := by
  intro a ha b hb hne hkey
  have hrows := hdistinct.sublist (market_scoredRows_sublist config functions inputs)
  have hfirst := getElem?_sortByKey_reverse hrows ha hb hne hkey
  rw [rankedRows_eq, rankedRows_eq, scoredRows_reverse] at h
  exact hfirst (by rw [h])

end Orders

section Sample

/-- One market of two exchanges. -/
def twoExchanges : List (CrossSectionalInput ℚ) :=
  ["binance", "kraken"].map fun exchange =>
    { exchange
      symbol := "BTC/USDT"
      directionalSignal := 9 / 10
      confidence := 1
      riskScore := 0
      volatilityPct := 2
      quoteVolumeUsd := some 99999999
      spreadBps := none
      depthUsd := none
      listingAgeDays := none
      inventoryEligible := true
      actionable := true
      correlationCluster := "BTC"
      currentWeight := 0 }

end Sample

end Gail.Trading
