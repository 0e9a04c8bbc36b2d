import Gail.Trading.UniverseSignals

/-! Walk-forward selection among replayed arms. Each fold validates the arm that did best in its
training window; the run publishes the arm of the last fold, on the trades of all of them. -/
namespace Gail.Trading
open Gail.Library Datalake

structure WalkForwardFoldReport (F : Type) where
  trainingStart : F
  trainingEnd : F
  validationStart : F
  validationEnd : F
  selectedParameterId : String
  trainingStatistics : ActionableStatistics F
  validationStatistics : ActionableStatistics F

/-- Why a run does not qualify an arm, with the numbers of the message. -/
inductive RejectionReason (F : Type)
  | noCompleteFold
  | tooFewTrades (samples required : Nat)
  | insufficientEdge (lowerBound required : F)
  | overfit (probability maximum : F)

structure NativeBacktestReport (F : Type) where
  generatedAt : F
  frames : Nat
  candidates : List (CandidateBacktestReport F)
  walkForwardFolds : List (WalkForwardFoldReport F)
  outOfSampleStatistics : ActionableStatistics F
  probabilityBacktestOverfit : F
  selectedParameterId : Option String
  promotionQualified : Bool
  rejectionReasons : List (RejectionReason F)

section Definitions
variable {F : Type} [Scalar F]

/-- `sort_by` on `partial_cmp(..).unwrap_or(Equal)` of a key, which keeps the order of equal elements. -/
def sortByNumber {α : Type} (key : α → F) (items : List α) : List α :=
  items.insertionSort fun left right => ¬ key right < key left

/-- `Iterator::max_by`: of several greatest elements, the last one. -/
def maxByOrder {α : Type} (order : α → α → Ordering) : List α → Option α
  | [] => none
  | item :: items =>
    some (items.foldl (fun best next => if order best next = .gt then best else next) item)

/-- Four positions in the ordered frames. -/
structure FoldWindow where
  trainingStart : Nat
  trainingEnd : Nat
  validationStart : Nat
  validationEnd : Nat

/-- The trades that a fold validates: those that the first arm of its identity entered in its validation
window. -/
def WalkForwardFoldReport.validationTrades (fold : WalkForwardFoldReport F)
    (candidates : List (CandidateBacktestReport F)) : List (NativeBacktestTrade F) :=
  (candidates.find? fun candidate => candidate.parameterId == fold.selectedParameterId).toList.flatMap
    fun candidate => tradesBetween fold.validationStart fold.validationEnd candidate.tradeLedger

/-- The trades that the statistics of a run are calculated from. -/
def validationTrades (folds : List (WalkForwardFoldReport F))
    (candidates : List (CandidateBacktestReport F)) : List (NativeBacktestTrade F) :=
  folds.flatMap fun fold => fold.validationTrades candidates

/-- Whether the arm of a fold ranks in the lower half of its validation window. -/
def WalkForwardFoldReport.belowMedian (fold : WalkForwardFoldReport F)
    (candidates : List (CandidateBacktestReport F)) : Option Bool :=
  let validationScores := candidates.map fun candidate =>
    (candidate.parameterId, (statisticsBetween candidate.tradeLedger fold.validationStart
      fold.validationEnd 0.0).score)
  let ranked := sortByNumber Prod.snd validationScores
  (ranked.findIdx? fun row => row.1 == fold.selectedParameterId).map fun selectedRank =>
    decide (selectedRank * 2 < ranked.length)

def estimatePbo (folds : List (WalkForwardFoldReport F)) (candidates : List (CandidateBacktestReport F)) :
    F :=
  if folds.isEmpty || decide (candidates.length < 2) then 1.0
  else
    let eligible := folds.filterMap fun fold => fold.belowMedian candidates
    if eligible.isEmpty then 1.0
    else Scalar.ofCount (eligible.countP id) / Scalar.ofCount eligible.length

namespace NativeQuantBacktester
variable (backtester : NativeQuantBacktester F)

/-- The windows of the folds of so many frames. The last frame of a validation window moves on by the
length of the window, as long as there is such a frame. -/
def foldWindows (count : Nat) : List FoldWindow :=
  let training := backtester.config.minimumTrainingFrames
  let validation := backtester.config.validationFrames
  let embargo := backtester.config.embargoFrames
  let ends := (List.range' (training + embargo + validation - 1) count validation).filter (· < count)
  if count < training + embargo + validation then []
  else
    ends.map fun validationEnd =>
      let validationStart := validationEnd + 1 - validation
      let trainingEnd := validationStart - (embargo + 1)
      { trainingStart := trainingEnd + 1 - min training (trainingEnd + 1)
        trainingEnd
        validationStart
        validationEnd }

/-- Better scores are greater, and of equal ones the smaller identity. -/
def trainingOrder (start stop : F) (left right : CandidateBacktestReport F) : Ordering :=
  let score (candidate : CandidateBacktestReport F) :=
    (statisticsBetween candidate.tradeLedger start stop backtester.config.confidenceZScore).score
  (if score left < score right then .lt else if score right < score left then .gt else .eq : Ordering).then
    (compare right.parameterId left.parameterId)

def fold (frames : List (QuantBacktestFrame F)) (candidates : List (CandidateBacktestReport F))
    (window : FoldWindow) : Option (WalkForwardFoldReport F) := do
  let trainingStart := (← frames[window.trainingStart]?).timestamp
  let trainingEnd := (← frames[window.trainingEnd]?).timestamp
  let validationStart := (← frames[window.validationStart]?).timestamp
  let validationEnd := (← frames[window.validationEnd]?).timestamp
  let selected ← maxByOrder (backtester.trainingOrder trainingStart trainingEnd) candidates
  some
    { trainingStart
      trainingEnd
      validationStart
      validationEnd
      selectedParameterId := selected.parameterId
      trainingStatistics := statisticsBetween selected.tradeLedger trainingStart trainingEnd
        backtester.config.confidenceZScore
      validationStatistics := statisticsBetween selected.tradeLedger validationStart validationEnd
        backtester.config.confidenceZScore }

def walkForward (frames : List (QuantBacktestFrame F)) (candidates : List (CandidateBacktestReport F)) :
    List (WalkForwardFoldReport F) :=
  if candidates.isEmpty then []
  else (backtester.foldWindows frames.length).filterMap (backtester.fold frames candidates)

def rejectionReasons (folds : List (WalkForwardFoldReport F)) (statistics : ActionableStatistics F)
    (probability : F) : List (RejectionReason F) :=
  let config := backtester.config
  (if folds.isEmpty then [.noCompleteFold] else []) ++
    (if statistics.samples < config.minimumValidationTrades then
      [.tooFewTrades statistics.samples config.minimumValidationTrades] else []) ++
    (if statistics.lowerConfidenceBoundBps ≤ config.minimumNetEdgeBps then
      [.insufficientEdge statistics.lowerConfidenceBoundBps config.minimumNetEdgeBps] else []) ++
    if config.maximumPbo < probability then [.overfit probability config.maximumPbo] else []

/-- The frames by their times. -/
def orderedFrames (frames : List (QuantBacktestFrame F)) : List (QuantBacktestFrame F) :=
  sortByNumber QuantBacktestFrame.timestamp frames

def candidates (frames : List (QuantBacktestFrame F)) (parameterSets : List (QuantParameters F)) :
    List (CandidateBacktestReport F) :=
  parameterSets.map (backtester.replayCandidate (orderedFrames frames))

def run (frames : List (QuantBacktestFrame F)) (parameterSets : List (QuantParameters F)) :
    NativeBacktestReport F :=
  let candidates := backtester.candidates frames parameterSets
  let folds := backtester.walkForward (orderedFrames frames) candidates
  let statistics := ActionableStatistics.fromTrades (validationTrades folds candidates)
    backtester.config.confidenceZScore
  let probability := estimatePbo folds candidates
  let reasons := backtester.rejectionReasons folds statistics probability
  { generatedAt := ((orderedFrames frames).getLast?.map QuantBacktestFrame.timestamp).getD 0.0
    frames := (orderedFrames frames).length
    candidates
    walkForwardFolds := folds
    outOfSampleStatistics := statistics
    probabilityBacktestOverfit := probability
    selectedParameterId := folds.getLast?.map WalkForwardFoldReport.selectedParameterId
    promotionQualified := reasons.isEmpty
    rejectionReasons := reasons }

end NativeQuantBacktester

namespace NativeBacktestReport
variable (report : NativeBacktestReport F)

/-- What the publication of a run makes the natively validated arm. -/
def publishedArm : Option String := if report.promotionQualified then report.selectedParameterId else none

/-- The out-of-sample trades that an arm itself made: those of the folds that it was selected in. -/
def ownTrades (id : String) : List (NativeBacktestTrade F) :=
  (validationTrades report.walkForwardFolds report.candidates).filter fun trade => trade.parameterId == id

end NativeBacktestReport

end Definitions

/-! Whose trades qualify an arm. -/

section Owners
variable {F : Type} [Scalar F] (backtester : NativeQuantBacktester F)

/-- The own out-of-sample trades of an arm meet the bounds, and no other arm has a part in it. -/
structure QualifiedByOwnTrades (report : NativeBacktestReport F) (id : String) : Prop where
  samples : backtester.config.minimumValidationTrades ≤ (report.ownTrades id).length
  edge : backtester.config.minimumNetEdgeBps <
    (ActionableStatistics.fromTrades (report.ownTrades id)
      backtester.config.confidenceZScore).lowerConfidenceBoundBps
  alone : OfArm id (validationTrades report.walkForwardFolds report.candidates)

/-- A check fails on the trades of all folds. -/
def FailsPooled (folds : List (WalkForwardFoldReport F)) (candidates : List (CandidateBacktestReport F)) :
    Prop :=
  folds = [] ∨
    (validationTrades folds candidates).length < backtester.config.minimumValidationTrades ∨
    (ActionableStatistics.fromTrades (validationTrades folds candidates)
      backtester.config.confidenceZScore).lowerConfidenceBoundBps ≤ backtester.config.minimumNetEdgeBps ∨
    backtester.config.maximumPbo < estimatePbo folds candidates

/-- A fold that was won by another arm than the last one validates no trade. -/
def LastArmTradesAlone (folds : List (WalkForwardFoldReport F))
    (candidates : List (CandidateBacktestReport F)) : Prop :=
  ∀ last ∈ folds.getLast?, ∀ fold ∈ folds, fold.selectedParameterId ≠ last.selectedParameterId →
    fold.validationTrades candidates = []

variable {backtester} {frames : List (QuantBacktestFrame F)} {parameterSets : List (QuantParameters F)}

theorem candidates_ofArm {candidate : CandidateBacktestReport F}
    (h : candidate ∈ backtester.candidates frames parameterSets) :
    OfArm candidate.parameterId candidate.tradeLedger := by
  obtain ⟨parameters, -, rfl⟩ := List.mem_map.mp h
  exact replayCandidate_ofArm backtester _ parameters

/-- What a fold validates is of its own arm. -/
theorem fold_ofArm (fold : WalkForwardFoldReport F) :
    OfArm fold.selectedParameterId
      (fold.validationTrades (backtester.candidates frames parameterSets)) := by
  intro trade htrade
  obtain ⟨candidate, hfound, hledger⟩ := List.mem_flatMap.mp htrade
  have hfind := Option.mem_toList.mp hfound
  have hid := List.find?_some hfind
  rw [← eq_of_beq hid]
  exact candidates_ofArm (List.mem_of_find?_eq_some hfind) trade (List.mem_filter.mp hledger).1

theorem rejectionReasons_eq_nil_iff {folds : List (WalkForwardFoldReport F)}
    {candidates : List (CandidateBacktestReport F)} :
    backtester.rejectionReasons folds (.fromTrades (validationTrades folds candidates)
      backtester.config.confidenceZScore) (estimatePbo folds candidates) = [] ↔
      ¬ FailsPooled backtester folds candidates := by
  simp only [NativeQuantBacktester.rejectionReasons, FailsPooled, List.append_eq_nil_iff,
    ite_eq_right_iff, List.cons_ne_nil, imp_false, List.isEmpty_iff, not_or,
    ActionableStatistics.fromTrades_samples]
  tauto

theorem run_qualified_iff :
    (backtester.run frames parameterSets).promotionQualified = true ↔
      ¬ FailsPooled backtester (backtester.run frames parameterSets).walkForwardFolds
        (backtester.run frames parameterSets).candidates :=
  List.isEmpty_iff.trans rejectionReasons_eq_nil_iff

theorem ownTrades_of_alone {report : NativeBacktestReport F} {id : String}
    (h : OfArm id (validationTrades report.walkForwardFolds report.candidates)) :
    report.ownTrades id = validationTrades report.walkForwardFolds report.candidates :=
  List.filter_eq_self.mpr fun trade htrade => beq_iff_eq.mpr (h trade htrade)

/-- The pooled trades are of one arm exactly when the folds of other arms have none. -/
theorem validationTrades_ofArm_iff {folds : List (WalkForwardFoldReport F)}
    {last : WalkForwardFoldReport F} (hlast : folds.getLast? = some last) :
    OfArm last.selectedParameterId
        (validationTrades folds (backtester.candidates frames parameterSets)) ↔
      LastArmTradesAlone folds (backtester.candidates frames parameterSets) := by
  constructor
  · intro h other hother fold hfold hne
    rw [hlast, Option.mem_some_iff] at hother
    subst hother
    by_contra hsome
    obtain ⟨trade, htrade⟩ := List.exists_mem_of_ne_nil _ hsome
    have hpooled := h trade (List.mem_flatMap.mpr ⟨fold, hfold, htrade⟩)
    exact hne ((fold_ofArm fold trade htrade).symm.trans hpooled)
  · intro h trade htrade
    obtain ⟨fold, hfold, hvalidated⟩ := List.mem_flatMap.mp htrade
    by_cases hid : fold.selectedParameterId = last.selectedParameterId
    · rw [← hid]
      exact fold_ofArm fold trade hvalidated
    · rw [h last hlast fold hfold hid] at hvalidated
      exact absurd hvalidated List.not_mem_nil

end Owners

section Sample

/-- The settings by default, but for short windows and a single required trade. -/
def shortWindows : NativeBacktestConfig ℚ where
  initialEquityUsd := 10000
  tradeNotionalUsd := 25
  holdingHorizonSeconds := 60
  feeBps := 10
  slippageBps := 15
  minimumTrainingFrames := 10
  validationFrames := 5
  embargoFrames := 5
  minimumValidationTrades := 1
  confidenceZScore := 1645 / 1000
  minimumNetEdgeBps := 10
  maximumPbo := 2 / 10

/-- An arm that trades on short momentum alone, and one on middle momentum alone. -/
def shortAndMiddleArms : List (QuantParameters ℚ) :=
  [("short", 1, 0), ("middle", 0, 1)].map fun (id, short, middle) =>
    { id
      kind := .momentum
      shortMomentumWeight := short
      midMomentumWeight := middle
      longMomentumWeight := 0
      liveMomentumWeight := 0
      volumeConfirmationWeight := 0
      riskAttenuation := 0
      entryThreshold := 1 / 2 }

/-- A frame a minute of one market. Short momentum shows in minutes 2 and 16, middle momentum in minute 12,
and the price rises after each of them. -/
def risingFrames : List (QuantBacktestFrame ℚ) :=
  (List.range 25).map fun minute =>
    { timestamp := 60 * minute
      snapshots :=
        [{ exchange := "binance"
           symbol := "BTC/USDT"
           price := if minute ≤ 2 then 100 else if minute ≤ 12 then 102 else if minute ≤ 16 then 105 else 110
           volume24h := some 100000
           fetchedAt := 60 * minute }]
      historicalFeatures := fun _ => some
        { samples := 100
          firstTs := none
          lastTs := none
          freshnessSeconds := none
          momentumShortPct := some (if minute = 2 ∨ minute = 16 then 2 else 0)
          momentumMidPct := some (if minute = 12 then 4 else 0)
          momentumLongPct := none
          volatilityPct := some 1
          drawdownPct := none
          volumeRatioShortLong := none } }

/-- The engine with its policy in exact arithmetic. -/
def sampleBacktester : NativeQuantBacktester ℚ :=
  .new shortWindows (evaluateUniverse .exact .default (15 / 100))

end Sample

end Gail.Trading
