import Gail.Library.Repair
import Gail.Trading.LlmRiskOverlay
import Gail.Trading.NativeReplay
import Gail.Trading.Portfolio

/-! The configuration of the quantitative stack in doubles, and how a start repairs it. -/
namespace Gail.Trading.Configuration
open Gail.Library

/-- A clamp to bounds that are in order, which does not panic. -/
def clampIn (x low high : Float) (_ordered : low ≤ high := by decide +kernel) : Float := clamp x low high

def clampCountIn (n low high : Nat) (_ordered : low ≤ high := by decide) : Nat := clampCount n low high

@[simp] theorem clampIn_clampIn {x low high : Float} {h h' : low ≤ high} :
    clampIn (clampIn x low high h) low high h' = clampIn x low high h := Scalar.clamp_clamp h

theorem clampCountIn_mem {n low high : Nat} (h : low ≤ high) :
    low ≤ clampCountIn n low high h ∧ clampCountIn n low high h ≤ high :=
  ⟨le_clampCount h, clampCount_le⟩

theorem clampCount_of_mem {n low high : Nat} (hlow : low ≤ n) (hhigh : n ≤ high) : clampCount n low high = n := by
  rw [clampCount, max_eq_left hlow, min_eq_left hhigh]

theorem clampCount_clampCount {n low high : Nat} (h : low ≤ high) :
    clampCount (clampCount n low high) low high = clampCount n low high :=
  clampCount_of_mem (le_clampCount h) clampCount_le

@[simp] theorem clampCountIn_clampCountIn {n low high : Nat} {h h' : low ≤ high} :
    clampCountIn (clampCountIn n low high h) low high h' = clampCountIn n low high h := clampCount_clampCount h

/-! Bounds that several groups of settings share. -/

theorem unit_ordered : (0.0 : Float) ≤ 1.0 := by decide +kernel

theorem half_ordered : (0.0 : Float) ≤ 0.5 := by decide +kernel

theorem costBps_ordered : (0.0 : Float) ≤ 500.0 := by decide +kernel

theorem edgeBps_ordered : (0.0 : Float) ≤ 2500.0 := by decide +kernel

theorem positions_ordered : 1 ≤ 50 := by decide

theorem streak_ordered : 1 ≤ 100 := by decide

theorem intents_ordered : 1 ≤ 100000 := by decide

theorem samples_ordered : 3 ≤ 10000 := by decide

theorem history_ordered : 10 ≤ 10000 := by decide

theorem secondsOfDay_ordered : 60 ≤ 86400 := by decide

/-- Whatever compares with itself is not NaN. -/
def IsNumber (x : Float) : Prop := x ≤ x

instance (x : Float) : Decidable (IsNumber x) := inferInstanceAs (Decidable (x ≤ x))

section Larger
variable {x c bound : Float}

/-- Of NaN and a number, the number is the larger one. -/
theorem max_eq : Scalar.max x c = if x.isNaN then c else if c.isNaN then x else if x < c then c else x := rfl

@[simp] theorem max_max : Scalar.max (Scalar.max x c) c = Scalar.max x c := by
  have hself := Scalar.lt_irrefl c
  simp only [max_eq]
  split_ifs <;> rfl

theorem le_max (hc : IsNumber c) : c ≤ Scalar.max x c := by
  have hnumber : ¬ c.isNaN = true := fun h => FloatOrder.isNaN_iff.mp h hc
  rw [max_eq, if_neg hnumber]
  split_ifs with hx hlt
  · exact hc
  · exact hc
  · exact Scalar.le_of_not_lt (not_not.mp (mt FloatOrder.isNaN_iff.mpr hx)) hc hlt

theorem max_le (hc : c ≤ bound) (hx : IsNumber x → x ≤ bound) : Scalar.max x c ≤ bound := by
  rw [max_eq]
  split_ifs with hnan hcnan hlt
  · exact hc
  · exact hx (not_not.mp (mt FloatOrder.isNaN_iff.mpr hnan))
  · exact hc
  · exact hx (not_not.mp (mt FloatOrder.isNaN_iff.mpr hnan))

end Larger

section CheckedClamp
variable {x low high : Float}

theorem checkedClamp_eq_some_iff {made : Float} :
    checkedClamp x low high = some made ↔ low ≤ high ∧ clamp x low high = made := by
  rw [checkedClamp, Option.ite_none_right_eq_some, Option.some_inj]

theorem checkedClamp_settled {made : Float} (h : checkedClamp x low high = some made) :
    checkedClamp made low high = some made := by
  obtain ⟨hle, rfl⟩ := checkedClamp_eq_some_iff.mp h
  exact checkedClamp_eq_some_iff.mpr ⟨hle, Scalar.clamp_clamp hle⟩

theorem exists_checkedClamp : (∃ made, checkedClamp x low high = some made) ↔ low ≤ high := by
  simp [checkedClamp_eq_some_iff]

end CheckedClamp

/-! The backtest. -/

structure NativeBacktestConfig extends Trading.NativeBacktestConfig Float where
  maximumFrames : Nat
  symbolLimit : Nat
  frameIntervalSeconds : Nat

def NativeBacktestConfig.normalise (config : NativeBacktestConfig) : Option NativeBacktestConfig := do
  let initialEquityUsd := clampIn config.initialEquityUsd 100.0 1000000000.0
  let tradeNotionalUsd ← checkedClamp config.tradeNotionalUsd 0.01 initialEquityUsd
  let validationFrames := clampCountIn config.validationFrames 5 1000000
  pure
    { initialEquityUsd
      tradeNotionalUsd
      holdingHorizonSeconds := clampCountIn config.holdingHorizonSeconds 60 (30 * 86400)
      feeBps := clampIn config.feeBps 0.0 500.0
      slippageBps := clampIn config.slippageBps 0.0 2500.0
      minimumTrainingFrames := clampCountIn config.minimumTrainingFrames 10 1000000
      validationFrames
      embargoFrames := min config.embargoFrames validationFrames
      minimumValidationTrades := clampCountIn config.minimumValidationTrades 1 100000
      confidenceZScore := clampIn config.confidenceZScore 0.0 4.0
      minimumNetEdgeBps := clampIn config.minimumNetEdgeBps 0.0 2500.0
      maximumPbo := clampIn config.maximumPbo 0.0 1.0
      maximumFrames := clampCountIn config.maximumFrames 100 1000000
      symbolLimit := clampCountIn config.symbolLimit 1 500
      frameIntervalSeconds := clampCountIn config.frameIntervalSeconds 60 86400 }

theorem NativeBacktestConfig.settles_iff (config : NativeBacktestConfig) :
    Settles NativeBacktestConfig.normalise config ↔ IsNumber config.initialEquityUsd := by
  have hbounds : 0.01 ≤ clampIn config.initialEquityUsd 100.0 1000000000.0 ↔ IsNumber config.initialEquityUsd :=
    Scalar.le_clamp_iff_number (by decide +kernel) (by decide +kernel)
  rw [← hbounds, ← exists_checkedClamp]
  refine Iff.trans (settles_checked_iff (fun _ => rfl) fun b hb => ?_) (exists_congr fun b => and_iff_left ?_)
  · dsimp only
    rw [clampIn_clampIn]
    exact checkedClamp_settled hb
  · simp

/-! The horizons of the calibration. -/

def defaultHorizons : List Nat := [900, 3600, 14400, 86400]

/-- The horizons in order, each once. -/
def repairedHorizons (horizons : List Nat) : List Nat :=
  let repaired := firstPerKey id (horizons.map fun horizon => clampCountIn horizon 60 (30 * 86400))
  if repaired.isEmpty then defaultHorizons else repaired

def normaliseCalibration (config : MultiHorizonConfig Float) : MultiHorizonConfig Float :=
  { config with
    horizonsSeconds := repairedHorizons config.horizonsSeconds
    expiryGraceSeconds := clampCountIn config.expiryGraceSeconds 60 (7 * 86400)
    ledgerSize := clampCountIn config.ledgerSize 100 1000000
    minimumSamples := clampCountIn config.minimumSamples 3 100000
    confidenceZScore := clampIn config.confidenceZScore 0.0 4.0
    minimumNetEdgeBps := clampIn config.minimumNetEdgeBps 0.0 2500.0 }

/-- What the repair of horizons comes to, and keeps. -/
structure Horizons (list : List Nat) : Prop where
  ordered : list.Pairwise (· < ·)
  bounds : ∀ horizon ∈ list, 60 ≤ horizon ∧ horizon ≤ 30 * 86400
  nonempty : list.isEmpty = false

theorem repairedHorizons_horizons (horizons : List Nat) : Horizons (repairedHorizons horizons) := by
  unfold repairedHorizons
  dsimp only
  split_ifs with hempty
  · exact ⟨by decide, by decide, rfl⟩
  · refine ⟨pairwise_firstPerKey id _, fun horizon hmem => ?_, Bool.eq_false_iff.mpr hempty⟩
    rw [mem_firstPerKey_iff] at hmem
    obtain ⟨given, -, rfl⟩ := List.mem_map.mp (List.mem_of_find?_eq_some hmem)
    exact clampCountIn_mem (by decide)

theorem Horizons.repaired {list : List Nat} (h : Horizons list) : repairedHorizons list = list := by
  have hmap : (list.map fun horizon => clampCountIn horizon 60 (30 * 86400)) = list := by
    conv_rhs => rw [← List.map_id list]
    exact List.map_congr_left fun horizon hmem =>
      clampCount_of_mem (h.bounds horizon hmem).1 (h.bounds horizon hmem).2
  have hfirst : firstPerKey id list = list := firstPerKey_of_pairwise h.ordered
  unfold repairedHorizons
  rw [hmap, hfirst]
  exact if_neg (by rw [h.nonempty]; decide)

theorem normaliseCalibration_idem (config : MultiHorizonConfig Float) :
    normaliseCalibration (normaliseCalibration config) = normaliseCalibration config := by
  simp [normaliseCalibration, (repairedHorizons_horizons config.horizonsSeconds).repaired]

/-! The selection of a strategy and the portfolio. -/

theorem normaliseSelection_idem (config : StrategySelectionConfig Float) :
    config.normalise.normalise = config.normalise := by
  obtain ⟨id, edge, score, required, age⟩ := config
  simp only [StrategySelectionConfig.normalise, StrategySelectionConfig.mk.injEq]
  refine ⟨?_, Scalar.clamp_clamp (by decide +kernel), Scalar.clamp_clamp (by decide +kernel), trivial, ?_⟩
  · by_cases hempty : (normalizeId id).isEmpty = true
    · rw [if_pos hempty]
      decide
    · rw [if_neg hempty, normalizeId_idem, if_neg hempty]
  · exact clampCount_clampCount (by decide)

structure CrossSectionalConfig extends Trading.CrossSectionalConfig Float where
  microstructureSignalWeight : Float

def CrossSectionalConfig.normalise (config : CrossSectionalConfig) : Option CrossSectionalConfig := do
  let maximumAssetWeight := clampIn config.maximumAssetWeight 0.01 1.0
  let maximumClusterWeight ← checkedClamp config.maximumClusterWeight maximumAssetWeight 1.0
  pure
    { config with
      topK := clampCountIn config.topK 1 50
      minimumQuoteVolumeUsd := clampIn config.minimumQuoteVolumeUsd 0.0 1000000000000000.0
      maximumSpreadBps := clampIn config.maximumSpreadBps 0.1 5000.0
      minimumDepthUsd := clampIn config.minimumDepthUsd 0.0 1000000000000000.0
      minimumListingAgeDays := clampIn config.minimumListingAgeDays 0.0 10000.0
      winsorQuantile := clampIn config.winsorQuantile 0.0 0.25
      volatilityFloorPct := clampIn config.volatilityFloorPct 0.01 100.0
      volatilityTargetPct := clampIn config.volatilityTargetPct 0.01 100.0
      maximumAssetWeight
      maximumClusterWeight
      minimumFactorScore := clampIn config.minimumFactorScore 0.0 10.0
      microstructureSignalWeight := clampIn config.microstructureSignalWeight 0.0 0.5 }

theorem CrossSectionalConfig.settles_iff (config : CrossSectionalConfig) :
    Settles CrossSectionalConfig.normalise config ↔ IsNumber config.maximumAssetWeight := by
  have hbounds : clampIn config.maximumAssetWeight 0.01 1.0 ≤ 1.0 ↔ IsNumber config.maximumAssetWeight :=
    Scalar.clamp_le_iff_number (by decide +kernel) (by decide +kernel)
  rw [← hbounds, ← exists_checkedClamp]
  refine Iff.trans (settles_checked_iff (fun _ => rfl) fun b hb => ?_) (exists_congr fun b => and_iff_left ?_)
  · dsimp only
    rw [clampIn_clampIn]
    exact checkedClamp_settled hb
  · simp

/-! The telemetry and the sleeves. -/

structure ExecutionTelemetryConfig where
  enabled : Bool
  ledgerSize : Nat
  minimumEmpiricalSamples : Nat
  maximumCostBps : Float

def ExecutionTelemetryConfig.normalise (config : ExecutionTelemetryConfig) : ExecutionTelemetryConfig :=
  { config with
    ledgerSize := clampCountIn config.ledgerSize 100 1000000
    minimumEmpiricalSamples := clampCountIn config.minimumEmpiricalSamples 3 10000
    maximumCostBps := clampIn config.maximumCostBps 10.0 10000.0 }

theorem ExecutionTelemetryConfig.normalise_idem (config : ExecutionTelemetryConfig) :
    config.normalise.normalise = config.normalise := by
  simp [ExecutionTelemetryConfig.normalise]

structure PairDefinition where
  id : String
  firstSymbol : String
  secondSymbol : String
  exchange : String

namespace PairDefinition
variable (pair : PairDefinition)

/-- The pairs that are kept. Their symbols are compared as they were given. -/
def retained : Bool :=
  !(trim pair.id).isEmpty && !(trim pair.firstSymbol).isEmpty && !(trim pair.secondSymbol).isEmpty &&
    !Library.eqIgnoreAsciiCase pair.firstSymbol pair.secondSymbol

def cleaned : PairDefinition :=
  { id := toAsciiLowercase (trim pair.id)
    firstSymbol := toAsciiUppercase (trim pair.firstSymbol)
    secondSymbol := toAsciiUppercase (trim pair.secondSymbol)
    exchange := toAsciiLowercase (trim pair.exchange) }

end PairDefinition

structure PairsSleeveConfig where
  enabled : Bool
  shadowOnly : Bool
  atomicHedgeExecutionSupported : Bool
  pairs : List PairDefinition
  lookbackSamples : Nat
  minimumSamples : Nat
  minimumCorrelation : Float
  entryZScore : Float
  exitZScore : Float
  minimumNetEdgeBps : Float
  shadowHorizonSeconds : Nat

theorem five_le_lookback (lookbackSamples : Nat) : 5 ≤ clampCountIn lookbackSamples 10 10000 :=
  le_trans (by decide) (clampCountIn_mem _).1

def PairsSleeveConfig.normalise (config : PairsSleeveConfig) : Option PairsSleeveConfig := do
  let lookbackSamples := clampCountIn config.lookbackSamples 10 10000
  let entryZScore := clampIn config.entryZScore 0.50 8.0
  let exitZScore ← checkedClamp config.exitZScore 0.0 entryZScore
  pure
    { config with
      lookbackSamples
      minimumSamples := clampCountIn config.minimumSamples 5 lookbackSamples (five_le_lookback _)
      minimumCorrelation := clampIn config.minimumCorrelation (-1.0) 1.0
      entryZScore
      exitZScore
      minimumNetEdgeBps := clampIn config.minimumNetEdgeBps 0.0 2500.0
      shadowHorizonSeconds := clampCountIn config.shadowHorizonSeconds 300 (30 * 86400)
      pairs := (config.pairs.filter PairDefinition.retained).map PairDefinition.cleaned }

/-- The symbols of the pair are the same but for case and the white space around them. -/
def PairDefinition.SameMarket (pair : PairDefinition) : Prop :=
  Library.eqIgnoreAsciiCase (trim pair.firstSymbol) (trim pair.secondSymbol) = true

theorem PairDefinition.cleaned_cleaned (pair : PairDefinition) : pair.cleaned.cleaned = pair.cleaned := by
  unfold PairDefinition.cleaned
  simp only [trim_toAsciiLowercase_trim, trim_toAsciiUppercase_trim, toAsciiLowercase_toAsciiLowercase,
    toAsciiUppercase_toAsciiUppercase]

theorem isEmpty_ofList_map (change : Char → Char) (text : String) :
    (String.ofList (text.toList.map change)).isEmpty = text.isEmpty := by
  rw [Bool.eq_iff_iff, String.isEmpty_iff, String.isEmpty_iff, ← String.toList_inj, ← String.toList_inj,
    String.toList_ofList, String.toList_empty, List.map_eq_nil_iff]

/-- A pair that was kept is dropped by the next repair if its symbols have become the same. -/
theorem PairDefinition.retained_cleaned_iff {pair : PairDefinition} (h : pair.retained = true) :
    pair.cleaned.retained = true ↔ ¬ pair.SameMarket := by
  have hlower : ∀ text : String, (toAsciiLowercase text).isEmpty = text.isEmpty := isEmpty_ofList_map Char.toLower
  have hupper : ∀ text : String, (toAsciiUppercase text).isEmpty = text.isEmpty := isEmpty_ofList_map Char.toUpper
  unfold PairDefinition.retained at h
  simp only [Bool.and_eq_true] at h
  obtain ⟨⟨⟨hid, hfirst⟩, hsecond⟩, -⟩ := h
  unfold PairDefinition.retained PairDefinition.cleaned PairDefinition.SameMarket
  dsimp only
  rw [trim_toAsciiLowercase_trim, trim_toAsciiUppercase_trim, trim_toAsciiUppercase_trim, hlower, hupper, hupper,
    hid, hfirst, hsecond, eqIgnoreAsciiCase_toAsciiUppercase]
  simp

theorem PairsSleeveConfig.settles_iff (config : PairsSleeveConfig) :
    Settles PairsSleeveConfig.normalise config ↔
      IsNumber config.entryZScore ∧ ∀ pair ∈ config.pairs, pair.retained = true → ¬ pair.SameMarket := by
  have hbounds : 0.0 ≤ clampIn config.entryZScore 0.50 8.0 ↔ IsNumber config.entryZScore :=
    Scalar.le_clamp_iff_number (by decide +kernel) (by decide +kernel)
  have hrepaired := map_filter_idem_iff PairDefinition.retained PairDefinition.cleaned_cleaned config.pairs
  have hpairs : (∀ pair ∈ config.pairs, pair.retained = true → pair.cleaned.retained = true) ↔
      ∀ pair ∈ config.pairs, pair.retained = true → ¬ pair.SameMarket :=
    forall₂_congr fun pair _ => forall_congr' PairDefinition.retained_cleaned_iff
  rw [hpairs] at hrepaired
  rw [← hbounds, ← hrepaired, ← exists_checkedClamp, ← exists_and_right]
  refine Iff.trans (settles_checked_iff (fun _ => rfl) fun b hb => ?_) (exists_congr fun b => and_congr_right' ?_)
  · dsimp only
    rw [clampIn_clampIn]
    exact checkedClamp_settled hb
  · simp

structure CarrySleeveConfig where
  enabled : Bool
  shadowOnly : Bool
  atomicHedgeExecutionSupported : Bool
  fundingIntervalHours : Float
  expectedHoldingDays : Float
  minimumAbsFundingRate : Float
  maximumAbsFundingRate : Float
  minimumOpenInterestUsd : Float
  maximumAbsBasisBps : Float
  minimumAnnualisedNetEdgeBps : Float
  maximumLeverage : Float
  minimumLiquidationBufferPct : Float
  allowReverseCarry : Bool
  shadowHorizonSeconds : Nat

theorem fundingFloor_le (rate : Float) : Scalar.max (clampIn rate 0.0 0.10) 0.0001 ≤ 0.10 := by
  apply max_le (by decide +kernel)
  intro hnumber
  have hrate := (Scalar.clamp_number_iff (x := rate) (by decide +kernel)).mp hnumber
  exact (Scalar.clamp_le_iff_number (by decide +kernel) (by decide +kernel)).mpr hrate

def CarrySleeveConfig.normalise (config : CarrySleeveConfig) : CarrySleeveConfig :=
  let minimumAbsFundingRate := clampIn config.minimumAbsFundingRate 0.0 0.10
  { config with
    fundingIntervalHours := clampIn config.fundingIntervalHours 1.0 168.0
    expectedHoldingDays := clampIn config.expectedHoldingDays 1.0 365.0
    minimumAbsFundingRate
    maximumAbsFundingRate :=
      clampIn config.maximumAbsFundingRate (Scalar.max minimumAbsFundingRate 0.0001) 0.10 (fundingFloor_le _)
    minimumOpenInterestUsd := clampIn config.minimumOpenInterestUsd 0.0 1000000000000000.0
    maximumAbsBasisBps := clampIn config.maximumAbsBasisBps 1.0 100000.0
    minimumAnnualisedNetEdgeBps := clampIn config.minimumAnnualisedNetEdgeBps 0.0 100000.0
    maximumLeverage := clampIn config.maximumLeverage 1.0 20.0
    minimumLiquidationBufferPct := clampIn config.minimumLiquidationBufferPct 1.0 95.0
    shadowHorizonSeconds := clampCountIn config.shadowHorizonSeconds 300 (30 * 86400) }

theorem CarrySleeveConfig.normalise_idem (config : CarrySleeveConfig) :
    config.normalise.normalise = config.normalise := by
  simp [CarrySleeveConfig.normalise]

structure AlphaSleevesConfig where
  enabled : Bool
  recommendationLedgerSize : Nat
  pairs : PairsSleeveConfig
  carry : CarrySleeveConfig

def AlphaSleevesConfig.normalise (config : AlphaSleevesConfig) : Option AlphaSleevesConfig := do
  let pairs ← config.pairs.normalise
  pure
    { config with
      recommendationLedgerSize := clampCountIn config.recommendationLedgerSize 100 100000
      pairs
      carry := config.carry.normalise }

theorem AlphaSleevesConfig.settles_iff (config : AlphaSleevesConfig) :
    Settles AlphaSleevesConfig.normalise config ↔ Settles PairsSleeveConfig.normalise config.pairs := by
  constructor
  · rintro ⟨result, hfirst, hsecond⟩
    obtain ⟨pairs, hpairs, hresult⟩ := Option.bind_eq_some_iff.mp hfirst
    obtain rfl := Option.some.inj hresult
    obtain ⟨pairs', hpairs', hresult'⟩ := Option.bind_eq_some_iff.mp hsecond
    have hsame : pairs' = pairs := congrArg AlphaSleevesConfig.pairs (Option.some.inj hresult')
    exact ⟨pairs, hpairs, hsame ▸ hpairs'⟩
  · rintro ⟨pairs, hfirst, hsecond⟩
    refine ⟨_, Option.bind_eq_some_iff.mpr ⟨pairs, hfirst, rfl⟩, Option.bind_eq_some_iff.mpr ⟨pairs, hsecond, ?_⟩⟩
    simp [CarrySleeveConfig.normalise_idem]

/-! The risk overlay, and the stack as a whole. -/

theorem overlay_settles_iff (config : LlmRiskOverlayConfig Float) :
    Settles LlmRiskOverlayConfig.normalise config ↔ IsNumber config.dampeningRiskScore := by
  have hbounds : clamp config.dampeningRiskScore 0.0 0.99 ≤ 1.0 ↔ IsNumber config.dampeningRiskScore :=
    Scalar.clamp_le_iff_number (by decide +kernel) (by decide +kernel)
  have hunit : ∀ x : Float, clamp (clamp x 0.0 1.0) 0.0 1.0 = clamp x 0.0 1.0 := fun _ =>
    Scalar.clamp_clamp unit_ordered
  have hdampening : ∀ x : Float, clamp (clamp x 0.0 0.99) 0.0 0.99 = clamp x 0.0 0.99 := fun _ =>
    Scalar.clamp_clamp (by decide +kernel)
  rw [← hbounds, ← exists_checkedClamp]
  refine Iff.trans (settles_checked_iff (fun _ => rfl) fun b hb => ?_) (exists_congr fun b => and_iff_left ?_)
  · dsimp only
    rw [hdampening]
    exact checkedClamp_settled hb
  · simp [hunit, hdampening, clampCount_clampCount]

structure QuantitativeConfig where
  enabled : Bool
  nativeBacktestEnabled : Bool
  nativeBacktest : NativeBacktestConfig
  calibration : MultiHorizonConfig Float
  selection : StrategySelectionConfig Float
  portfolio : CrossSectionalConfig
  executionTelemetry : ExecutionTelemetryConfig
  alphaSleeves : AlphaSleevesConfig
  llmRiskOverlay : LlmRiskOverlayConfig Float

def QuantitativeConfig.normalise (config : QuantitativeConfig) : Option QuantitativeConfig := do
  let nativeBacktest ← config.nativeBacktest.normalise
  let portfolio ← config.portfolio.normalise
  let alphaSleeves ← config.alphaSleeves.normalise
  let llmRiskOverlay ← config.llmRiskOverlay.normalise
  pure
    { config with
      nativeBacktest
      calibration := normaliseCalibration config.calibration
      selection := config.selection.normalise
      portfolio
      executionTelemetry := config.executionTelemetry.normalise
      alphaSleeves
      llmRiskOverlay }

theorem QuantitativeConfig.selection_normalise {config result : QuantitativeConfig}
    (h : config.normalise = some result) : result.selection = config.selection.normalise := by
  obtain ⟨nativeBacktest, _, h⟩ := Option.bind_eq_some_iff.mp h
  obtain ⟨portfolio, _, h⟩ := Option.bind_eq_some_iff.mp h
  obtain ⟨alphaSleeves, _, h⟩ := Option.bind_eq_some_iff.mp h
  obtain ⟨llmRiskOverlay, _, h⟩ := Option.bind_eq_some_iff.mp h
  obtain rfl := Option.some.inj h
  rfl

theorem QuantitativeConfig.settles_iff (config : QuantitativeConfig) :
    Settles QuantitativeConfig.normalise config ↔
      Settles NativeBacktestConfig.normalise config.nativeBacktest ∧
      Settles CrossSectionalConfig.normalise config.portfolio ∧
      Settles AlphaSleevesConfig.normalise config.alphaSleeves ∧
      Settles LlmRiskOverlayConfig.normalise config.llmRiskOverlay := by
  constructor
  · rintro ⟨result, hfirst, hsecond⟩
    obtain ⟨nativeBacktest, hnative, hfirst⟩ := Option.bind_eq_some_iff.mp hfirst
    obtain ⟨portfolio, hportfolio, hfirst⟩ := Option.bind_eq_some_iff.mp hfirst
    obtain ⟨alphaSleeves, hsleeves, hfirst⟩ := Option.bind_eq_some_iff.mp hfirst
    obtain ⟨llmRiskOverlay, hoverlay, hfirst⟩ := Option.bind_eq_some_iff.mp hfirst
    obtain rfl := Option.some.inj hfirst
    obtain ⟨nativeBacktest', hnative', hsecond⟩ := Option.bind_eq_some_iff.mp hsecond
    obtain ⟨portfolio', hportfolio', hsecond⟩ := Option.bind_eq_some_iff.mp hsecond
    obtain ⟨alphaSleeves', hsleeves', hsecond⟩ := Option.bind_eq_some_iff.mp hsecond
    obtain ⟨llmRiskOverlay', hoverlay', hsecond⟩ := Option.bind_eq_some_iff.mp hsecond
    have hsame := Option.some.inj hsecond
    obtain rfl : nativeBacktest' = nativeBacktest := congrArg QuantitativeConfig.nativeBacktest hsame
    obtain rfl : portfolio' = portfolio := congrArg QuantitativeConfig.portfolio hsame
    obtain rfl : alphaSleeves' = alphaSleeves := congrArg QuantitativeConfig.alphaSleeves hsame
    obtain rfl : llmRiskOverlay' = llmRiskOverlay := congrArg QuantitativeConfig.llmRiskOverlay hsame
    exact ⟨⟨_, hnative, hnative'⟩, ⟨_, hportfolio, hportfolio'⟩, ⟨_, hsleeves, hsleeves'⟩, ⟨_, hoverlay, hoverlay'⟩⟩
  · rintro ⟨⟨nativeBacktest, hnative, hnative'⟩, ⟨portfolio, hportfolio, hportfolio'⟩,
      ⟨alphaSleeves, hsleeves, hsleeves'⟩, ⟨llmRiskOverlay, hoverlay, hoverlay'⟩⟩
    have hfirst : ∃ result, config.normalise = some result := by
      unfold QuantitativeConfig.normalise
      rw [hnative, hportfolio, hsleeves, hoverlay]
      exact ⟨_, rfl⟩
    obtain ⟨result, hfirst⟩ := hfirst
    refine ⟨result, hfirst, ?_⟩
    unfold QuantitativeConfig.normalise at hfirst
    rw [hnative, hportfolio, hsleeves, hoverlay] at hfirst
    obtain rfl := Option.some.inj hfirst
    unfold QuantitativeConfig.normalise
    dsimp only
    rw [hnative', hportfolio', hsleeves', hoverlay', normaliseCalibration_idem, normaliseSelection_idem,
      ExecutionTelemetryConfig.normalise_idem]
    rfl

/-- The quantitative configuration comes to rest if four of its numbers are not NaN, and no pair that is
kept is of one market under two spellings. -/
structure QuantitativeConfig.Sound (config : QuantitativeConfig) : Prop where
  initialEquityUsd : IsNumber config.nativeBacktest.initialEquityUsd
  maximumAssetWeight : IsNumber config.portfolio.maximumAssetWeight
  entryZScore : IsNumber config.alphaSleeves.pairs.entryZScore
  dampeningRiskScore : IsNumber config.llmRiskOverlay.dampeningRiskScore
  pairs : ∀ pair ∈ config.alphaSleeves.pairs.pairs, pair.retained = true → ¬ pair.SameMarket

theorem QuantitativeConfig.settles_iff_sound (config : QuantitativeConfig) :
    Settles QuantitativeConfig.normalise config ↔ config.Sound := by
  rw [QuantitativeConfig.settles_iff, NativeBacktestConfig.settles_iff, CrossSectionalConfig.settles_iff,
    AlphaSleevesConfig.settles_iff, PairsSleeveConfig.settles_iff, overlay_settles_iff]
  constructor
  · rintro ⟨hequity, hweight, ⟨hentry, hpairs⟩, hdampening⟩
    exact ⟨hequity, hweight, hentry, hdampening, hpairs⟩
  · intro h
    exact ⟨h.initialEquityUsd, h.maximumAssetWeight, ⟨h.entryZScore, h.pairs⟩, h.dampeningRiskScore⟩

def PairDefinition.default : PairDefinition :=
  { id := "btc-eth", firstSymbol := "BTC/USDT", secondSymbol := "ETH/USDT", exchange := "" }

def QuantitativeConfig.default : QuantitativeConfig :=
  { enabled := true
    nativeBacktestEnabled := true
    nativeBacktest :=
      { initialEquityUsd := 10000.0
        tradeNotionalUsd := 25.0
        holdingHorizonSeconds := 3600
        feeBps := 10.0
        slippageBps := 15.0
        minimumTrainingFrames := 96
        validationFrames := 48
        embargoFrames := 4
        minimumValidationTrades := 16
        confidenceZScore := 1.645
        minimumNetEdgeBps := 10.0
        maximumPbo := 0.20
        maximumFrames := 20000
        symbolLimit := 40
        frameIntervalSeconds := 900 }
    calibration :=
      { enabled := true
        horizonsSeconds := defaultHorizons
        expiryGraceSeconds := 3600
        ledgerSize := 20000
        minimumSamples := 24
        confidenceZScore := 1.645
        minimumNetEdgeBps := 10.0
        requireCalibratedEdge := true }
    selection :=
      { cashParameterId := "cash-v1"
        minimumActionableNetEdgeBps := 0.0
        confidenceZScore := 1.645
        requireNativeValidationForPromotion := true
        nativeValidationMaxAgeSeconds := 24 * 3600 }
    portfolio :=
      { enabled := true
        topK := 3
        minimumQuoteVolumeUsd := 1000000.0
        maximumSpreadBps := 40.0
        minimumDepthUsd := 5000.0
        minimumListingAgeDays := 14.0
        winsorQuantile := 0.05
        volatilityFloorPct := 0.25
        volatilityTargetPct := 2.0
        maximumAssetWeight := 0.45
        maximumClusterWeight := 0.65
        minimumFactorScore := 0.05
        allowIlliquidReversal := false
        microstructureSignalWeight := 0.15 }
    executionTelemetry :=
      { enabled := true, ledgerSize := 10000, minimumEmpiricalSamples := 8, maximumCostBps := 2500.0 }
    alphaSleeves :=
      { enabled := true
        recommendationLedgerSize := 2000
        pairs :=
          { enabled := true
            shadowOnly := true
            atomicHedgeExecutionSupported := false
            pairs := [.default]
            lookbackSamples := 240
            minimumSamples := 60
            minimumCorrelation := 0.60
            entryZScore := 2.0
            exitZScore := 0.50
            minimumNetEdgeBps := 12.0
            shadowHorizonSeconds := 14400 }
        carry :=
          { enabled := true
            shadowOnly := true
            atomicHedgeExecutionSupported := false
            fundingIntervalHours := 8.0
            expectedHoldingDays := 30.0
            minimumAbsFundingRate := 0.0001
            maximumAbsFundingRate := 0.01
            minimumOpenInterestUsd := 1000000.0
            maximumAbsBasisBps := 2000.0
            minimumAnnualisedNetEdgeBps := 150.0
            maximumLeverage := 2.0
            minimumLiquidationBufferPct := 20.0
            allowReverseCarry := false
            shadowHorizonSeconds := 28800 } }
    llmRiskOverlay :=
      { enabled := true
        timeToLiveSeconds := 21600
        minimumCoverage := 0.50
        minimumAgreement := 0.50
        dampeningRiskScore := 0.55
        vetoRiskScore := 0.85
        minimumMultiplier := 0.25 } }

theorem QuantitativeConfig.default_sound : QuantitativeConfig.default.Sound where
  initialEquityUsd := by decide +kernel
  maximumAssetWeight := by decide +kernel
  entryZScore := by decide +kernel
  dampeningRiskScore := by decide +kernel
  pairs pair hpair _ := by
    obtain rfl := List.mem_singleton.mp hpair
    unfold PairDefinition.SameMarket
    decide

end Gail.Trading.Configuration
