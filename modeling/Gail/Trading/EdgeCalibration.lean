import Gail.Trading.ScalarOrder
import Gail.Trading.SnapshotLedgers

/-! The gate that lets a quant signal trade only on an edge that enough past observations support. -/
namespace Gail.Trading
open Gail.Library Snapshot

/-- A signal of the policy with what its gates read and write. -/
structure GatedSignal (F : Type) extends QuantSignal F where
  /-- Whether the policy would trade, before any gate. -/
  rawActionable : Bool
  selectedHorizonSeconds : Option Nat
  expectedGrossEdgeBps : Option F
  edgeLowerBoundBps : Option F
  estimatedRoundTripCostBps : F
  edgeGateReason : Option String
  rationale : String

structure MultiHorizonConfig (F : Type) where
  enabled : Bool
  horizonsSeconds : List Nat
  expiryGraceSeconds : Nat
  ledgerSize : Nat
  minimumSamples : Nat
  confidenceZScore : F
  minimumNetEdgeBps : F
  requireCalibratedEdge : Bool
  deriving DecidableEq

structure EdgeEstimate (F : Type) where
  horizonSeconds : Nat
  samples : Nat
  conditioningLevel : String
  meanGrossReturnBps : F
  standardDeviationBps : F
  grossLowerBoundBps : F
  estimatedRoundTripCostBps : F
  netLowerBoundBps : F

section Definitions
variable {F : Type} [Scalar F]

/-- `==` on numbers. -/
def equalNumbers (a b : F) : Bool := decide (a ≤ b) && decide (b ≤ a)

namespace EdgeEstimate

/-- From the observations of one level. -/
def ofObservations (config : MultiHorizonConfig F) (horizonSeconds : Nat) (roundTripCostBps : F)
    (level : String) (observations : List (ResolvedHorizonObservation F)) : EdgeEstimate F :=
  let values := observations.map ResolvedHorizonObservation.grossReturnBps
  let mean := mean values
  let variance :=
    if 1 < values.length then
      total (values.map fun value => (value - mean) * (value - mean)) / Scalar.ofCount (values.length - 1)
    else 0.0
  let standardDeviation := Scalar.sqrt variance
  let grossLowerBound :=
    mean - config.confidenceZScore * standardDeviation / Scalar.sqrt (Scalar.ofCount values.length)
  { horizonSeconds
    samples := values.length
    conditioningLevel := level
    meanGrossReturnBps := mean
    standardDeviationBps := standardDeviation
    grossLowerBoundBps := grossLowerBound
    estimatedRoundTripCostBps := roundTripCostBps
    netLowerBoundBps := grossLowerBound - roundTripCostBps }

end EdgeEstimate

section Calibration
variable (state : MultiHorizonCalibrationState F) (config : MultiHorizonConfig F)

/-- The observations of a horizon in one direction, the most specific level first. -/
def levels (symbol regime : String) (direction : F) (horizonSeconds : Nat) :
    List (String × List (ResolvedHorizonObservation F)) :=
  let base := state.resolved.filter fun item =>
    item.horizonSeconds == horizonSeconds && equalNumbers (Scalar.signum item.signal) (Scalar.signum direction)
  let ofSymbol := base.filter fun item => eqIgnoreAsciiCase item.symbol symbol
  [("symbol_regime", ofSymbol.filter fun item => eqIgnoreAsciiCase item.regime regime),
    ("symbol", ofSymbol), ("horizon", base)]

def estimate (symbol regime : String) (direction : F) (horizonSeconds : Nat) (roundTripCostBps : F) :
    Option (EdgeEstimate F) :=
  ((levels state symbol regime direction horizonSeconds).find? fun level =>
    config.minimumSamples ≤ level.2.length).map fun level =>
      .ofObservations config horizonSeconds roundTripCostBps level.1 level.2

/-- The estimate of a horizon for the direction of a signal. -/
def estimateFor (signal : GatedSignal F) (regime : String) (roundTripCostBps : F) (horizonSeconds : Nat) :
    Option (EdgeEstimate F) :=
  estimate state config signal.symbol regime (Scalar.signum signal.signal) horizonSeconds roundTripCostBps

/-- The horizon with the largest lower bound of those with an estimate. -/
def bestEdge (signal : GatedSignal F) (regime : String) (roundTripCostBps : F) : Option (EdgeEstimate F) :=
  maxBy EdgeEstimate.netLowerBoundBps
    (config.horizonsSeconds.filterMap (estimateFor state config signal regime roundTripCostBps))

end Calibration

/-- `append_gate_rationale`. -/
def GatedSignal.appendGateRationale (signal : GatedSignal F) : GatedSignal F :=
  match signal.edgeGateReason with
  | none => signal
  | some reason =>
    if containsText signal.rationale reason then signal
    else { signal with rationale := signal.rationale ++ "; " ++ reason }

def gateSignal [NumberText F] (state : MultiHorizonCalibrationState F) (signal : GatedSignal F)
    (regime : String) (roundTripCostBps : F) (config : MultiHorizonConfig F) : GatedSignal F :=
  let signal := { signal with estimatedRoundTripCostBps := roundTripCostBps }
  if !config.enabled || !signal.rawActionable then signal
  else
    match bestEdge state config signal regime roundTripCostBps with
    | none =>
      if config.requireCalibratedEdge then
        GatedSignal.appendGateRationale
          { signal with
            actionable := false
            edgeGateReason := some ("cost-aware hold: fewer than " ++ toString config.minimumSamples ++
              " comparable multi-horizon observations") }
      else signal
    | some estimate =>
      let signal :=
        { signal with
          selectedHorizonSeconds := some estimate.horizonSeconds
          expectedGrossEdgeBps := some estimate.meanGrossReturnBps
          edgeLowerBoundBps := some estimate.netLowerBoundBps }
      GatedSignal.appendGateRationale <|
        if estimate.netLowerBoundBps + Scalar.epsilon < config.minimumNetEdgeBps then
          { signal with
            actionable := false
            edgeGateReason := some ("cost-aware hold: " ++ toString estimate.horizonSeconds ++
              "s net lower bound " ++ NumberText.fixed 2 estimate.netLowerBoundBps ++ "bps below " ++
              NumberText.fixed 2 config.minimumNetEdgeBps ++ "bps") }
        else { signal with actionable := true, edgeGateReason := none }

/-- The estimate is of a configured horizon, from enough observations of the most specific level that has
enough. Unless a lower bound is NaN, no configured horizon with enough observations has a larger one. -/
structure EdgeEstimate.Supports (estimate : EdgeEstimate F) (state : MultiHorizonCalibrationState F)
    (config : MultiHorizonConfig F) (signal : GatedSignal F) (regime : String) (roundTripCostBps : F) :
    Prop where
  horizon : estimate.horizonSeconds ∈ config.horizonsSeconds
  level : ∃ before observations after,
    levels state signal.symbol regime (Scalar.signum signal.signal) estimate.horizonSeconds =
      before ++ (estimate.conditioningLevel, observations) :: after ∧
    estimate.samples = observations.length ∧ config.minimumSamples ≤ observations.length ∧
    ∀ level ∈ before, level.2.length < config.minimumSamples
  largest :
    let candidates := config.horizonsSeconds.filterMap (estimateFor state config signal regime roundTripCostBps)
    (∀ other ∈ candidates, other.netLowerBoundBps ≤ other.netLowerBoundBps) →
      ∀ other ∈ candidates, other.netLowerBoundBps ≤ estimate.netLowerBoundBps

end Definitions

section Gate
variable {F : Type} [Scalar F] {state : MultiHorizonCalibrationState F} {config : MultiHorizonConfig F}
  {signal : GatedSignal F} {estimate : EdgeEstimate F} {regime : String} {roundTripCostBps : F}

/-- An estimate is made of the first level with enough observations. -/
theorem estimateFor_level {horizonSeconds : Nat}
    (h : estimateFor state config signal regime roundTripCostBps horizonSeconds = some estimate) :
    estimate.horizonSeconds = horizonSeconds ∧
    ∃ before observations after,
      levels state signal.symbol regime (Scalar.signum signal.signal) horizonSeconds =
        before ++ (estimate.conditioningLevel, observations) :: after ∧
      estimate.samples = observations.length ∧ config.minimumSamples ≤ observations.length ∧
      ∀ level ∈ before, level.2.length < config.minimumSamples := by
  obtain ⟨level, hfound, rfl⟩ := Option.map_eq_some_iff.mp h
  obtain ⟨henough, before, after, hsplit, hfewer⟩ := List.find?_eq_some_iff_append.mp hfound
  refine ⟨rfl, before, level.2, after, hsplit, List.length_map .., of_decide_eq_true henough, ?_⟩
  intro earlier hmem
  have hnot := hfewer earlier hmem
  rw [Bool.not_eq_true', decide_eq_false_iff_not] at hnot
  exact Nat.lt_of_not_le hnot

theorem bestEdge_supports [Scalar.Comparable F]
    (h : bestEdge state config signal regime roundTripCostBps = some estimate) :
    estimate.Supports state config signal regime roundTripCostBps := by
  obtain ⟨horizonSeconds, hconfigured, hestimate⟩ := List.mem_filterMap.mp (maxBy_mem h)
  obtain ⟨hhorizon, hlevel⟩ := estimateFor_level hestimate
  refine ⟨?_, ?_, ?_⟩
  · rw [hhorizon]
    exact hconfigured
  · rw [hhorizon]
    exact hlevel
  · intro candidates hnumbers
    exact Scalar.le_maxBy hnumbers h

omit [Scalar F] in
/-- The rationale is all that the gate's reason is added to. -/
theorem appendGateRationale_fields (signal : GatedSignal F) :
    signal.appendGateRationale.actionable = signal.actionable ∧
      signal.appendGateRationale.selectedHorizonSeconds = signal.selectedHorizonSeconds ∧
      signal.appendGateRationale.edgeLowerBoundBps = signal.edgeLowerBoundBps := by
  unfold GatedSignal.appendGateRationale
  split
  · exact ⟨rfl, rfl, rfl⟩
  · split <;> exact ⟨rfl, rfl, rfl⟩

/-- A signal that the gate lets pass has the best edge of its calibration. -/
theorem bestEdge_of_actionable [NumberText F] (henabled : config.enabled = true)
    (hrequired : config.requireCalibratedEdge = true) (hraw : signal.rawActionable = true)
    (h : (gateSignal state signal regime roundTripCostBps config).actionable = true) :
    ∃ estimate, bestEdge state config signal regime roundTripCostBps = some estimate ∧
      (gateSignal state signal regime roundTripCostBps config).selectedHorizonSeconds =
        some estimate.horizonSeconds ∧
      (gateSignal state signal regime roundTripCostBps config).edgeLowerBoundBps =
        some estimate.netLowerBoundBps ∧
      ¬ estimate.netLowerBoundBps + Scalar.epsilon < config.minimumNetEdgeBps := by
  have hsame : bestEdge state config { signal with estimatedRoundTripCostBps := roundTripCostBps } regime
      roundTripCostBps = bestEdge state config signal regime roundTripCostBps := rfl
  have hgated : ¬ (!config.enabled || !signal.rawActionable) = true := by
    rw [henabled, hraw]
    decide
  unfold gateSignal at h ⊢
  dsimp only at h ⊢
  rw [if_neg hgated, hsame] at h ⊢
  cases hbest : bestEdge state config signal regime roundTripCostBps with
  | none =>
    rw [hbest] at h
    dsimp only at h
    rw [if_pos hrequired, (appendGateRationale_fields _).1] at h
    exact absurd h Bool.false_ne_true
  | some estimate =>
    rw [hbest] at h
    dsimp only at h ⊢
    by_cases hbelow : estimate.netLowerBoundBps + Scalar.epsilon < config.minimumNetEdgeBps
    · rw [if_pos hbelow, (appendGateRationale_fields _).1] at h
      exact absurd h Bool.false_ne_true
    · rw [if_neg hbelow]
      exact ⟨estimate, rfl, (appendGateRationale_fields _).2.1, (appendGateRationale_fields _).2.2, hbelow⟩

/-- What a signal rests on that may still trade: the best estimate of its horizons, with a lower bound that
falls short of the configured minimum by no more than the tolerance of the comparison. -/
theorem gateSignal_supported [Scalar.Comparable F] [NumberText F] (state : MultiHorizonCalibrationState F)
    (config : MultiHorizonConfig F) (signal : GatedSignal F) (regime : String) (roundTripCostBps : F)
    (henabled : config.enabled = true) (hrequired : config.requireCalibratedEdge = true)
    (hpolicy : signal.actionable = true → signal.rawActionable = true)
    (h : (gateSignal state signal regime roundTripCostBps config).actionable = true) :
    ∃ estimate : EdgeEstimate F, estimate.Supports state config signal regime roundTripCostBps ∧
      (gateSignal state signal regime roundTripCostBps config).selectedHorizonSeconds =
        some estimate.horizonSeconds ∧
      (gateSignal state signal regime roundTripCostBps config).edgeLowerBoundBps =
        some estimate.netLowerBoundBps ∧
      ¬ estimate.netLowerBoundBps + Scalar.epsilon < config.minimumNetEdgeBps := by
  have hraw : signal.rawActionable = true := by
    by_contra hraw
    have hnot : (!config.enabled || !signal.rawActionable) = true := by
      rw [Bool.eq_false_of_not_eq_true hraw]
      exact Bool.or_true _
    unfold gateSignal at h
    dsimp only at h
    rw [if_pos hnot] at h
    exact hraw (hpolicy h)
  obtain ⟨estimate, hbest, hhorizon, hbound, hminimum⟩ := bestEdge_of_actionable henabled hrequired hraw h
  exact ⟨estimate, bestEdge_supports hbest, hhorizon, hbound, hminimum⟩

end Gate

section Sample

/-- Four fifteen-minute observations of one gross return. -/
def observedReturns (grossReturnBps : ℚ) : MultiHorizonCalibrationState ℚ :=
  { pending := []
    resolved := ["1", "2", "3", "4"].map fun observationId =>
      { observationId
        createdAt := 0
        resolvedAt := 900
        horizonSeconds := 900
        exchange := "binance"
        symbol := "BTC/USDT"
        signal := 4 / 5
        confidence := 4 / 5
        regime := "trend"
        grossReturnBps
        estimatedRoundTripCostBps := 0
        netReturnBps := grossReturnBps }
    lastRecordedByHorizon := [] }

def MultiHorizonConfig.ofFour : MultiHorizonConfig ℚ :=
  { enabled := true
    horizonsSeconds := [900, 3600]
    expiryGraceSeconds := 3600
    ledgerSize := 20000
    minimumSamples := 4
    confidenceZScore := 0
    minimumNetEdgeBps := 1
    requireCalibratedEdge := true }

def GatedSignal.buying : GatedSignal ℚ :=
  { parameterId := "trend-1"
    exchange := "binance"
    symbol := "BTC/USDT"
    signal := 4 / 5
    confidence := 4 / 5
    riskScore := 1 / 5
    actionable := true
    rawActionable := true
    selectedHorizonSeconds := none
    expectedGrossEdgeBps := none
    edgeLowerBoundBps := none
    estimatedRoundTripCostBps := 0
    edgeGateReason := none
    rationale := "trend" }

theorem gateSignal_supported_buying :
    ∃ estimate : EdgeEstimate ℚ, estimate.Supports (observedReturns 20) .ofFour .buying "trend" 12 ∧
      (gateSignal (observedReturns 20) .buying "trend" 12 .ofFour).selectedHorizonSeconds =
        some estimate.horizonSeconds ∧
      (gateSignal (observedReturns 20) .buying "trend" 12 .ofFour).edgeLowerBoundBps =
        some estimate.netLowerBoundBps ∧
      ¬ estimate.netLowerBoundBps + Scalar.epsilon < (MultiHorizonConfig.ofFour).minimumNetEdgeBps :=
  gateSignal_supported (observedReturns 20) .ofFour .buying "trend" 12 rfl rfl (fun _ => rfl)
    (by decide +kernel)

/-- A lower bound just below the minimum lets the signal trade. -/
theorem gate_tolerates_shortfall :
    (gateSignal (observedReturns (1 - 1 / 2 ^ 53)) .buying "trend" 0 .ofFour).actionable = true ∧
      (gateSignal (observedReturns (1 - 1 / 2 ^ 53)) .buying "trend" 0 .ofFour).edgeLowerBoundBps =
        some (1 - 1 / 2 ^ 53) ∧
      (1 - 1 / 2 ^ 53 : ℚ) < (MultiHorizonConfig.ofFour).minimumNetEdgeBps := by
  decide +kernel

end Sample
end Gail.Trading
