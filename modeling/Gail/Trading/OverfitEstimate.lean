import Gail.Trading.NativeBacktest
import Mathlib.Data.List.GetD

/-! How often the arm that won in training is a poor one in validation: the ranks that the estimate goes by,
against the median of the scores. -/
namespace Gail.Trading
open Gail.Library

section Median
variable {F : Type} [Field F] [LinearOrder F] [IsStrictOrderedRing F] {values others : List F} {rank : Nat}

/-- The median is between the two values in the middle. -/
theorem median_between (hbelow : ((sortByKey id values).length - 1) / 2 < (sortByKey id values).length)
    (habove : (sortByKey id values).length / 2 < (sortByKey id values).length) :
    (sortByKey id values)[((sortByKey id values).length - 1) / 2] ≤ median values ∧
      median values ≤ (sortByKey id values)[(sortByKey id values).length / 2] := by
  have hsome : values.isEmpty = false := by
    have hpositive := Nat.zero_lt_of_lt habove
    rw [(sortByKey_perm values).length_eq] at hpositive
    exact List.isEmpty_eq_false_iff.mpr (List.ne_nil_of_length_pos hpositive)
  unfold median
  simp only [hsome, Bool.false_eq_true, if_false]
  split_ifs with heven
  · have hlower : ((sortByKey id values).length - 1) / 2 = (sortByKey id values).length / 2 - 1 := by omega
    have hlast : (sortByKey id values).length / 2 - 1 < (sortByKey id values).length := by omega
    have hle := sortByKey_id_mono (Nat.sub_le _ 1) hlast habove
    rw [List.getD_eq_getElem _ _ habove, List.getD_eq_getElem _ _ hlast]
    simp only [hlower]
    constructor <;> linarith
  · have hsame : ((sortByKey id values).length - 1) / 2 = (sortByKey id values).length / 2 := by omega
    rw [List.getD_eq_getElem _ _ habove]
    simp only [hsame]
    exact ⟨le_rfl, le_rfl⟩

/-- A value of the lower half is at most the median. -/
theorem ordered_le_median (hrank : rank < (sortByKey id values).length)
    (h : rank * 2 < (sortByKey id values).length) : (sortByKey id values)[rank] ≤ median values := by
  have hbelow : ((sortByKey id values).length - 1) / 2 < (sortByKey id values).length := by omega
  have hle : rank ≤ ((sortByKey id values).length - 1) / 2 := by omega
  exact (sortByKey_id_mono hle hrank hbelow).trans (median_between hbelow (by omega)).1

/-- A value of the upper half is at least the median. -/
theorem median_le_ordered (hrank : rank < (sortByKey id values).length)
    (h : (sortByKey id values).length ≤ rank * 2) : median values ≤ (sortByKey id values)[rank] := by
  have habove : (sortByKey id values).length / 2 < (sortByKey id values).length := by omega
  have hle : (sortByKey id values).length / 2 ≤ rank := by omega
  exact (median_between (by omega) habove).2.trans (sortByKey_id_mono hle habove hrank)

end Median

section Definitions

namespace WalkForwardFoldReport
variable (fold : WalkForwardFoldReport ℚ) (candidates : List (CandidateBacktestReport ℚ))

/-- The score of an arm in the validation window. -/
def validationScore (candidate : CandidateBacktestReport ℚ) : ℚ :=
  (statisticsBetween candidate.tradeLedger fold.validationStart fold.validationEnd 0.0).score

def medianScore : ℚ := median (candidates.map fold.validationScore)

/-- The score of the arm that won in training. Of arms of one identity, the lowest score counts. -/
def winnerScore : Option ℚ :=
  ((candidates.filter fun candidate => candidate.parameterId == fold.selectedParameterId).map
    fold.validationScore).min?

/-- The winner scores strictly less than the median. -/
def winnerBelowMedian : Option Bool :=
  (fold.winnerScore candidates).map fun score => decide (score < fold.medianScore candidates)

end WalkForwardFoldReport

/-- The folds whose winner is listed, each with whether its winner is below the median. -/
def judgedFolds (folds : List (WalkForwardFoldReport ℚ)) (candidates : List (CandidateBacktestReport ℚ)) :
    List Bool :=
  folds.filterMap fun fold => fold.winnerBelowMedian candidates

/-- No winner has just the median score. -/
def OffMedian (folds : List (WalkForwardFoldReport ℚ)) (candidates : List (CandidateBacktestReport ℚ)) : Prop :=
  ∀ fold ∈ folds, fold.winnerScore candidates ≠ some (fold.medianScore candidates)

/-- What the estimate says. -/
structure EstimatesOverfit (folds : List (WalkForwardFoldReport ℚ))
    (candidates : List (CandidateBacktestReport ℚ)) : Prop where
  guarded : candidates.length < 2 ∨ judgedFolds folds candidates = [] → estimatePbo folds candidates = 1
  fraction : 2 ≤ candidates.length → judgedFolds folds candidates ≠ [] → OffMedian folds candidates →
    estimatePbo folds candidates =
      (judgedFolds folds candidates).count true / (judgedFolds folds candidates).length
  order : OffMedian folds candidates → ∀ others, others.Perm candidates →
    estimatePbo folds others = estimatePbo folds candidates

end Definitions

section Ranks
variable {fold : WalkForwardFoldReport ℚ} {folds : List (WalkForwardFoldReport ℚ)}
  {candidates others : List (CandidateBacktestReport ℚ)}

theorem sortByNumber_rat {α : Type} (key : α → ℚ) (items : List α) : sortByNumber key items = sortByKey key items := by
  unfold sortByNumber sortByKey
  simp only [not_lt]

/-- The rows that a fold ranks. -/
private def ranked (fold : WalkForwardFoldReport ℚ) (candidates : List (CandidateBacktestReport ℚ)) :
    List (String × ℚ) :=
  sortByKey Prod.snd (candidates.map fun candidate => (candidate.parameterId, fold.validationScore candidate))

private theorem ranked_scores (fold : WalkForwardFoldReport ℚ) (candidates : List (CandidateBacktestReport ℚ)) :
    (ranked fold candidates).map Prod.snd = sortByKey id (candidates.map fold.validationScore) := by
  apply eq_sortByKey_id
  · exact List.pairwise_map.mpr (pairwise_sortByKey Prod.snd _)
  · have hperm : (ranked fold candidates).Perm (candidates.map fun candidate =>
        (candidate.parameterId, fold.validationScore candidate)) := sortByKey_perm _
    have hscores := hperm.map Prod.snd
    rwa [List.map_map] at hscores

private theorem belowMedian_eq (fold : WalkForwardFoldReport ℚ) (candidates : List (CandidateBacktestReport ℚ)) :
    fold.belowMedian candidates = ((ranked fold candidates).findIdx? fun row =>
      row.1 == fold.selectedParameterId).map fun rank => decide (rank * 2 < (ranked fold candidates).length) := by
  unfold WalkForwardFoldReport.belowMedian ranked
  simp only [sortByNumber_rat]
  rfl

private theorem mem_ranked_iff {row : String × ℚ} :
    row ∈ ranked fold candidates ↔
      ∃ candidate ∈ candidates, (candidate.parameterId, fold.validationScore candidate) = row :=
  (sortByKey_perm _).mem_iff.trans List.mem_map

/-- The winner is found at the rank of its score. -/
private theorem winnerScore_eq (fold : WalkForwardFoldReport ℚ) (candidates : List (CandidateBacktestReport ℚ)) :
    fold.winnerScore candidates =
      ((ranked fold candidates).find? fun row => row.1 == fold.selectedParameterId).map Prod.snd := by
  have hrows : ∀ score, score ∈ (candidates.filter fun candidate =>
      candidate.parameterId == fold.selectedParameterId).map fold.validationScore ↔
        (fold.selectedParameterId, score) ∈ ranked fold candidates := by
    intro score
    rw [mem_ranked_iff, List.mem_map]
    simp only [List.mem_filter, beq_iff_eq, Prod.mk.injEq]
    grind
  unfold WalkForwardFoldReport.winnerScore
  cases hfind : (ranked fold candidates).find? fun row => row.1 == fold.selectedParameterId with
  | none =>
    rw [Option.map_none, List.min?_eq_none_iff, List.eq_nil_iff_forall_not_mem]
    intro score hscore
    have hmiss := List.find?_eq_none.mp hfind _ ((hrows score).mp hscore)
    exact hmiss (beq_self_eq_true _)
  | some row =>
    obtain ⟨hid, before, after, hsplit, -⟩ := List.find?_eq_some_iff_append.mp hfind
    have hrow : row = (fold.selectedParameterId, row.2) := Prod.ext (beq_iff_eq.mp hid) rfl
    rw [Option.map_some, List.min?_eq_some_iff]
    constructor
    · rw [hrows, ← hrow]
      exact List.mem_of_find?_eq_some hfind
    · intro score hscore
      obtain ⟨candidate, hcandidate, hsame⟩ := mem_ranked_iff.mp ((hrows score).mp hscore)
      have hle := find?_sortByKey_le hfind (List.mem_map_of_mem hcandidate) (by
        rw [hsame]
        exact beq_self_eq_true _)
      rw [hsame] at hle
      exact hle

/-- A fold is judged by the median, unless the winner has just that score. -/
theorem belowMedian_eq_winnerBelowMedian
    (h : fold.winnerScore candidates ≠ some (fold.medianScore candidates)) :
    fold.belowMedian candidates = fold.winnerBelowMedian candidates := by
  have hlength : (ranked fold candidates).length =
      (sortByKey id (candidates.map fold.validationScore)).length := by
    rw [← ranked_scores, List.length_map]
  rw [belowMedian_eq, WalkForwardFoldReport.winnerBelowMedian]
  rw [winnerScore_eq] at h ⊢
  cases hrank : (ranked fold candidates).findIdx? fun row => row.1 == fold.selectedParameterId with
  | none =>
    have hnone : ((ranked fold candidates).find? fun row => row.1 == fold.selectedParameterId) = none := by
      rw [List.find?_eq_none]
      intro row hrow
      simpa using List.findIdx?_eq_none_iff.mp hrank row hrow
    rw [hnone]
    rfl
  | some rank =>
    obtain ⟨hlt, hid, hfirst⟩ := List.findIdx?_eq_some_iff_getElem.mp hrank
    have hsome : ((ranked fold candidates).find? fun row => row.1 == fold.selectedParameterId) =
        some (ranked fold candidates)[rank] :=
      List.find?_eq_some_iff_getElem.mpr ⟨hid, rank, hlt, rfl, fun j hj => by simpa using hfirst j hj⟩
    have hrank' : rank < (sortByKey id (candidates.map fold.validationScore)).length := hlength ▸ hlt
    have hscore : (ranked fold candidates)[rank].2 =
        (sortByKey id (candidates.map fold.validationScore))[rank] := by
      simp only [← ranked_scores, List.getElem_map]
    rw [hsome] at h ⊢
    simp only [Option.map_some, ne_eq, Option.some.injEq, decide_eq_decide, hscore, hlength] at h ⊢
    constructor
    · intro hhalf
      exact lt_of_le_of_ne (ordered_le_median hrank' hhalf) h
    · intro hbelow
      by_contra hhalf
      exact absurd (median_le_ordered hrank' (not_lt.mp hhalf)) (not_le.mpr hbelow)

/-- Whether a fold is judged at all depends on the identities alone. -/
theorem belowMedian_isSome (fold : WalkForwardFoldReport ℚ) (candidates : List (CandidateBacktestReport ℚ)) :
    (fold.belowMedian candidates).isSome = (fold.winnerBelowMedian candidates).isSome := by
  rw [belowMedian_eq, WalkForwardFoldReport.winnerBelowMedian, winnerScore_eq]
  rw [Option.isSome_map, Option.isSome_map, Option.isSome_map, List.findIdx?_isSome, Bool.eq_iff_iff,
    List.any_eq_true, List.find?_isSome]

theorem winnerScore_perm (h : others.Perm candidates) : fold.winnerScore others = fold.winnerScore candidates := by
  have hmem := ((h.filter fun candidate => candidate.parameterId == fold.selectedParameterId).map
    fold.validationScore)
  unfold WalkForwardFoldReport.winnerScore
  apply Option.ext
  intro score
  rw [List.min?_eq_some_iff, List.min?_eq_some_iff]
  simp only [hmem.mem_iff]

theorem medianScore_perm (h : others.Perm candidates) : fold.medianScore others = fold.medianScore candidates :=
  median_perm (h.map fold.validationScore)

theorem judgedFolds_perm (folds : List (WalkForwardFoldReport ℚ)) (h : others.Perm candidates) :
    judgedFolds folds others = judgedFolds folds candidates := by
  unfold judgedFolds WalkForwardFoldReport.winnerBelowMedian
  simp only [winnerScore_perm h, medianScore_perm h]

/-- Of enough arms, the estimate is the share of the folds that are judged poor. -/
theorem estimatePbo_eq (hfolds : judgedFolds folds candidates ≠ []) (hcandidates : 2 ≤ candidates.length)
    (h : OffMedian folds candidates) :
    estimatePbo folds candidates =
      (judgedFolds folds candidates).count true / (judgedFolds folds candidates).length := by
  have hjudged : (folds.filterMap fun fold => fold.belowMedian candidates) = judgedFolds folds candidates := by
    apply List.filterMap_congr
    intro fold hfold
    exact belowMedian_eq_winnerBelowMedian (h fold hfold)
  have hsome : folds.isEmpty = false := by
    rw [List.isEmpty_eq_false_iff]
    rintro rfl
    exact hfolds rfl
  have hempty : (judgedFolds folds candidates).isEmpty = false := List.isEmpty_eq_false_iff.mpr hfolds
  have hmany : decide (candidates.length < 2) = false := decide_eq_false (by omega)
  unfold estimatePbo
  simp only [hjudged, hsome, hmany, hempty, Bool.or_self, Bool.false_eq_true, if_false]
  rw [List.count_eq_countP]
  congr 2
  apply List.countP_congr
  simp

theorem estimatePbo_guarded (h : candidates.length < 2 ∨ judgedFolds folds candidates = []) :
    estimatePbo folds candidates = 1 := by
  have hone : (1.0 : ℚ) = 1 := by norm_num
  unfold estimatePbo
  simp only [hone]
  split
  · rfl
  · rename_i hguard
    have hmany : ¬ candidates.length < 2 := by
      intro hfew
      simp [hfew] at hguard
    have hnone : (folds.filterMap fun fold => fold.belowMedian candidates) = [] := by
      have hjudged := h.resolve_left hmany
      rw [judgedFolds, List.filterMap_eq_nil_iff] at hjudged
      rw [List.filterMap_eq_nil_iff]
      intro fold hfold
      have hsome := belowMedian_isSome fold candidates
      rw [hjudged fold hfold] at hsome
      exact Option.isNone_iff_eq_none.mp (by simpa using hsome)
    rw [hnone]
    rfl

/-- The estimate is the share of the judged folds whose winner is below the median, whatever the order of
the arms. -/
theorem estimatePbo_estimates (folds : List (WalkForwardFoldReport ℚ))
    (candidates : List (CandidateBacktestReport ℚ)) : EstimatesOverfit folds candidates where
  guarded := estimatePbo_guarded
  fraction hcandidates hfolds h := estimatePbo_eq hfolds hcandidates h
  order h others hperm := by
    have hjudged := judgedFolds_perm folds hperm
    have hlength := hperm.length_eq
    by_cases hguard : candidates.length < 2 ∨ judgedFolds folds candidates = []
    · rw [estimatePbo_guarded hguard, estimatePbo_guarded]
      rwa [hlength, hjudged]
    · obtain ⟨hmany, hfolds⟩ := not_or.mp hguard
      have hoff : OffMedian folds others := by
        intro fold hfold
        rw [winnerScore_perm hperm, medianScore_perm hperm]
        exact h fold hfold
      rw [estimatePbo_eq hfolds (not_lt.mp hmany) h, estimatePbo_eq (hjudged ▸ hfolds) _ hoff, hjudged]
      rw [hlength]
      exact not_lt.mp hmany

end Ranks

section Sample

/-- An arm with one trade, of some net return, at time 0. -/
def oneTradeArm (parameterId : String) (netReturnBps : ℚ) : CandidateBacktestReport ℚ :=
  let trade : NativeBacktestTrade ℚ :=
    { parameterId
      exchange := "binance"
      symbol := "BTC/USDT"
      enteredAt := 0
      exitedAt := 60
      direction := 1
      entryPrice := 100
      exitPrice := 100 + netReturnBps / 100
      grossReturnBps := netReturnBps
      entryMarketCostBps := 0
      exitMarketCostBps := 0
      roundTripCostBps := 0
      netReturnBps
      pnlUsd := netReturnBps / 100 }
  { parameterId
    trades := 1
    endingEquityUsd := 100 + netReturnBps / 100
    maximumDrawdownPct := 0
    statistics := .fromTrades [trade] 0
    tradeLedger := [trade] }

/-- A fold that validates an arm at time 0. -/
def foldOf (selectedParameterId : String) : WalkForwardFoldReport ℚ :=
  { trainingStart := -60
    trainingEnd := -60
    validationStart := 0
    validationEnd := 0
    selectedParameterId
    trainingStatistics := .fromTrades [] 0
    validationStatistics := .fromTrades [] 0 }

/-- Of four arms, the last but one is below the median and the best is not. -/
example : estimatePbo [foldOf "b", foldOf "d"]
    [oneTradeArm "a" 10, oneTradeArm "b" 20, oneTradeArm "c" 30, oneTradeArm "d" 40] = 1 / 2 := by
  decide +kernel

/-- The middle one of three arms, which has the median score, counts as below it, and of two arms with equal scores
the one that is listed first does. A single arm is not compared. -/
theorem middle_arm_below_median :
    (estimatePbo [foldOf "b"] [oneTradeArm "a" 10, oneTradeArm "b" 20, oneTradeArm "c" 30] = 1 ∧
      (foldOf "b").winnerBelowMedian [oneTradeArm "a" 10, oneTradeArm "b" 20, oneTradeArm "c" 30] =
        some false) ∧
      (estimatePbo [foldOf "b"] [oneTradeArm "b" 20, oneTradeArm "c" 20] = 1 ∧
        estimatePbo [foldOf "b"] [oneTradeArm "c" 20, oneTradeArm "b" 20] = 0) ∧
      (estimatePbo [foldOf "b"] [oneTradeArm "b" 20] = 1 ∧
        (foldOf "b").winnerBelowMedian [oneTradeArm "b" 20] = some false) := by
  decide +kernel

end Sample

end Gail.Trading
