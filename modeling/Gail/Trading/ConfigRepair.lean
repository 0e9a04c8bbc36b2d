import Gail.Library.FloatSum
import Gail.Library.UnixPath
import Gail.Trading.QuantitativeConfig
import Gail.Trading.TradeEconomics

/-! The configuration of the trading bridge, and the repair that a start makes of it. Which configurations
it panics on, and which it would change again. -/
namespace Gail.Trading.Configuration
open Gail.Library

/-- `f64::min`. -/
def lesser (x y : Float) : Float := if x.isNaN then y else if y.isNaN then x else if y < x then y else x

/-- A text, or another one in place of a blank text. -/
def textOr (text default : String) : String := if (trim text).isEmpty then default else text

/-- The names without the blank ones, each once but for case. -/
def cleanNames (names : List String) : List String :=
  distinctFrom toAsciiLowercase [] ((names.map trim).filter fun name => !name.isEmpty)

def cleanTimeFrames (timeFrames : List String) : List String :=
  if (cleanNames timeFrames).isEmpty then ["1h", "4h", "1d"] else cleanNames timeFrames

section Parts
variable {x y c high : Float}

theorem isNaN_eq_false (h : IsNumber x) : x.isNaN = false :=
  Bool.eq_false_iff.mpr fun hnan => FloatOrder.isNaN_iff.mp hnan h

theorem lesser_of_numbers (hx : IsNumber x) (hy : IsNumber y) : lesser x y = if y < x then y else x := by
  unfold lesser
  rw [isNaN_eq_false hx, isNaN_eq_false hy, if_neg (by decide), if_neg (by decide)]

theorem max_of_le (h : c ≤ x) : Scalar.max x c = x := by
  obtain ⟨hc, hx⟩ := Scalar.Comparable.numbers h
  rw [max_eq, isNaN_eq_false hx, isNaN_eq_false hc, if_neg (by decide), if_neg (by decide),
    if_neg (Scalar.not_lt_of_le h)]

/-- A lower bound that is kept below an upper one stays where it is. -/
@[simp] theorem lesser_max_idem (hc : IsNumber c) :
    lesser (Scalar.max (lesser (Scalar.max x c) (Scalar.max high c)) c) (Scalar.max high c) =
      lesser (Scalar.max x c) (Scalar.max high c) := by
  have hlow : c ≤ Scalar.max x c := le_max hc
  have hhigh : c ≤ Scalar.max high c := le_max hc
  have hnumber := (Scalar.Comparable.numbers hlow).2
  have hnumber' := (Scalar.Comparable.numbers hhigh).2
  rw [lesser_of_numbers hnumber hnumber']
  split_ifs with hlt
  · rw [max_of_le hhigh, lesser_of_numbers hnumber' hnumber', if_neg (Scalar.lt_irrefl _)]
  · rw [max_of_le hlow, lesser_of_numbers hnumber hnumber', if_neg hlt]

theorem lesser_le (hy : IsNumber y) : lesser x y ≤ y := by
  by_cases hx : IsNumber x
  · rw [lesser_of_numbers hx hy]
    split_ifs with hlt
    · exact hy
    · exact Scalar.le_of_not_lt hy hx hlt
  · unfold lesser
    rw [if_pos (FloatOrder.isNaN_iff.mpr hx)]
    exact hy

theorem le_lesser (hy : c ≤ y) (hx : IsNumber x → c ≤ x) : c ≤ lesser x y := by
  by_cases hnumber : IsNumber x
  · rw [lesser_of_numbers hnumber (Scalar.Comparable.numbers hy).2]
    split_ifs
    · exact hy
    · exact hx hnumber
  · unfold lesser
    rw [if_pos (FloatOrder.isNaN_iff.mpr hnumber)]
    exact hy

@[simp] theorem textOr_idem (text default : String) : textOr (textOr text default) default = textOr text default := by
  by_cases hempty : (trim text).isEmpty = true
  · have hdefault : textOr text default = default := if_pos hempty
    rw [hdefault]
    exact ite_self default
  · have htext : textOr text default = text := if_neg hempty
    rw [htext, htext]

@[simp] theorem cleanNames_idem (names : List String) : cleanNames (cleanNames names) = cleanNames names := by
  have hclean : ∀ name ∈ cleanNames names, trim name = name ∧ name.isEmpty = false := by
    intro name hmem
    have hkept := (distinctFrom_sublist [] _).subset hmem
    obtain ⟨htrimmed, hnonempty⟩ := List.mem_filter.mp hkept
    obtain ⟨given, -, rfl⟩ := List.mem_map.mp htrimmed
    exact ⟨trim_trim given, by simpa using hnonempty⟩
  have hsame : ((cleanNames names).map trim).filter (fun name => !name.isEmpty) = cleanNames names := by
    have hmap : (cleanNames names).map trim = cleanNames names := by
      conv_rhs => rw [← List.map_id (cleanNames names)]
      exact List.map_congr_left fun name hmem => (hclean name hmem).1
    rw [hmap, List.filter_eq_self]
    intro name hmem
    rw [(hclean name hmem).2]
    rfl
  rw [cleanNames, hsame]
  exact distinctFrom_idem _

@[simp] theorem cleanTimeFrames_idem (timeFrames : List String) :
    cleanTimeFrames (cleanTimeFrames timeFrames) = cleanTimeFrames timeFrames := by
  by_cases hempty : (cleanNames timeFrames).isEmpty = true
  · have hdefault : cleanTimeFrames timeFrames = ["1h", "4h", "1d"] := if_pos hempty
    rw [hdefault]
    decide
  · have hnames : cleanTimeFrames timeFrames = cleanNames timeFrames := if_neg hempty
    rw [hnames, cleanTimeFrames, cleanNames_idem, if_neg hempty]

end Parts

/-! Decisions and the scans of the markets. -/

def normaliseDecisions (config : Decision.DecisionSettings Float) : Decision.DecisionSettings Float :=
  let microTradeMaxUsd := Scalar.max config.microTradeMaxUsd 0.01
  let decisionRoiFeedbackLookbackTrades := clampCountIn config.decisionRoiFeedbackLookbackTrades 10 5000
  { config with
    microTradeMaxUsd
    microTradeMinUsd := lesser (Scalar.max config.microTradeMinUsd 0.01) microTradeMaxUsd
    fuzzyConfidenceThreshold := clampIn config.fuzzyConfidenceThreshold 0.0 1.0 unit_ordered
    fuzzyWeight := clampIn config.fuzzyWeight 0.0 1.0 unit_ordered
    decisionRoiFeedbackLookbackTrades
    decisionRoiFeedbackMinSamples :=
      clampCountIn config.decisionRoiFeedbackMinSamples 2 (max decisionRoiFeedbackLookbackTrades 2) (le_max_right _ _)
    decisionRoiFeedbackTargetRoiPct := clampIn config.decisionRoiFeedbackTargetRoiPct 0.1 50.0
    decisionRoiFeedbackMaxSignalAdjustment := clampIn config.decisionRoiFeedbackMaxSignalAdjustment 0.0 0.5 half_ordered
    decisionRoiFeedbackMaxConfidencePenalty := clampIn config.decisionRoiFeedbackMaxConfidencePenalty 0.0 0.95
    decisionRoiFeedbackMaxConfidenceBoost := clampIn config.decisionRoiFeedbackMaxConfidenceBoost 0.0 0.5 half_ordered
    expectedMoveBps := clampIn config.expectedMoveBps 1.0 10000.0
    estimatedFeeBps := clampIn config.estimatedFeeBps 0.0 500.0 costBps_ordered
    estimatedSlippageBps := clampIn config.estimatedSlippageBps 0.0 500.0 costBps_ordered
    minimumNetEdgeBps := clampIn config.minimumNetEdgeBps 0.0 2500.0 edgeBps_ordered
    markoutCalibrationMinSamples := clampCountIn config.markoutCalibrationMinSamples 3 1000
    maxOpenPositions := clampCountIn config.maxOpenPositions 1 50 positions_ordered }

theorem normaliseDecisions_idem (config : Decision.DecisionSettings Float) :
    normaliseDecisions (normaliseDecisions config) = normaliseDecisions config := by
  have hcent : IsNumber 0.01 := by decide +kernel
  simp [normaliseDecisions, lesser_max_idem hcent]

structure ScanSettings where
  evaluationIntervalSeconds : Nat
  tokenDiscoveryIntervalSeconds : Nat
  tokenDiscoverySnapshotLimit : Nat
  tokenDiscoveryCandidatePoolSize : Nat
  tokenDiscoveryMinCompositeScore : Float
  portfolioPruningIntervalSeconds : Nat
  portfolioPruningMinHoldingUsd : Float
  portfolioPruningCandidatePoolSize : Nat
  portfolioPruningMinCompositeScore : Float

def ScanSettings.normalise (config : ScanSettings) : ScanSettings :=
  { evaluationIntervalSeconds := max config.evaluationIntervalSeconds 10
    tokenDiscoveryIntervalSeconds := max config.tokenDiscoveryIntervalSeconds 60
    tokenDiscoverySnapshotLimit := clampCountIn config.tokenDiscoverySnapshotLimit 10 2000
    tokenDiscoveryCandidatePoolSize := clampCountIn config.tokenDiscoveryCandidatePoolSize 1 64
    tokenDiscoveryMinCompositeScore := clampIn config.tokenDiscoveryMinCompositeScore 0.0 2.0
    portfolioPruningIntervalSeconds := max config.portfolioPruningIntervalSeconds 60
    portfolioPruningMinHoldingUsd := Scalar.max config.portfolioPruningMinHoldingUsd 0.0
    portfolioPruningCandidatePoolSize := clampCountIn config.portfolioPruningCandidatePoolSize 1 64
    portfolioPruningMinCompositeScore := clampIn config.portfolioPruningMinCompositeScore 0.0 2.0 }

theorem ScanSettings.normalise_idem (config : ScanSettings) : config.normalise.normalise = config.normalise := by
  simp [ScanSettings.normalise]

/-! The advisers. -/

structure AdvisorSettings where
  maxParallelAdvisors : Nat
  maxParallelSymbolEvaluations : Nat
  advisorTimeoutSeconds : Float
  advisorRoundTimeoutSeconds : Float
  advisorEarlyQuorum : Nat
  advisoryCandidateLimit : Nat

/-- A provider's time and a margin of thirty seconds. -/
def providerDeadline (advisorTimeoutSeconds : Float) : Float := lesser (advisorTimeoutSeconds + 30.0) 1800.0

def AdvisorSettings.normalise (config : AdvisorSettings) : AdvisorSettings :=
  let maxParallelAdvisors := clampCountIn config.maxParallelAdvisors 1 20
  let advisorTimeoutSeconds := clampIn config.advisorTimeoutSeconds 5.0 1740.0
  { maxParallelAdvisors
    maxParallelSymbolEvaluations := clampCountIn config.maxParallelSymbolEvaluations 1 16
    advisorTimeoutSeconds
    -- Provider work finishes before the deadline of the round.
    advisorRoundTimeoutSeconds :=
      Scalar.max (clampIn config.advisorRoundTimeoutSeconds 5.0 1800.0) (providerDeadline advisorTimeoutSeconds)
    advisorEarlyQuorum :=
      clampCountIn config.advisorEarlyQuorum 1 (max maxParallelAdvisors 1) (le_max_right _ _)
    advisoryCandidateLimit := clampCountIn config.advisoryCandidateLimit 1 20 }

/-- The sum with the margin is rounded, but not below what a timeout may be. -/
theorem providerDeadline_mem (timeout : Float) :
    5.0 ≤ providerDeadline (clampIn timeout 5.0 1740.0) ∧ providerDeadline (clampIn timeout 5.0 1740.0) ≤ 1800.0 := by
  refine ⟨le_lesser (by decide +kernel) fun hsum => ?_, lesser_le (by decide +kernel)⟩
  have hnumber := FloatOrder.number_of_add hsum
  have htimeout : IsNumber timeout := (Scalar.clamp_number_iff (by decide +kernel)).mp hnumber
  have hlow : 5.0 ≤ clampIn timeout 5.0 1740.0 :=
    (Scalar.le_clamp_iff_number (by decide +kernel) (by decide +kernel)).mpr htimeout
  have hpositive : (0 : Float) < clampIn timeout 5.0 1740.0 :=
    Scalar.lt_of_lt_of_le (by decide +kernel) hlow
  exact Scalar.Comparable.le_trans hlow (FloatOrder.le_add hpositive (by decide +kernel))

theorem clampIn_of_mem {x low high : Float} {h : low ≤ high} (hlow : low ≤ x) (hhigh : x ≤ high) :
    clampIn x low high h = x := by
  rw [clampIn, clamp, if_neg (Scalar.not_lt_of_le hlow), if_neg (Scalar.not_lt_of_le hhigh)]

theorem roundTimeout_mem (round timeout : Float) :
    let settled := Scalar.max (clampIn round 5.0 1800.0) (providerDeadline (clampIn timeout 5.0 1740.0))
    5.0 ≤ settled ∧ settled ≤ 1800.0 := by
  intro settled
  obtain ⟨hlow, hhigh⟩ := providerDeadline_mem timeout
  refine ⟨Scalar.Comparable.le_trans hlow (le_max (Scalar.Comparable.numbers hlow).2), max_le hhigh fun hround => ?_⟩
  have hnumber : IsNumber round := (Scalar.clamp_number_iff (by decide +kernel)).mp hround
  exact (Scalar.clamp_le_iff_number (by decide +kernel) (by decide +kernel)).mpr hnumber

theorem AdvisorSettings.normalise_idem (config : AdvisorSettings) :
    config.normalise.normalise = config.normalise := by
  obtain ⟨hlow, hhigh⟩ := roundTimeout_mem config.advisorRoundTimeoutSeconds config.advisorTimeoutSeconds
  simp [AdvisorSettings.normalise, clampIn_of_mem hlow hhigh]

/-! Execution and its records. -/

structure ExecutionSettings where
  marketSnapshotTtlSeconds : Float
  advisoryTtlSeconds : Float
  maxRepriceDriftBps : Float
  executionAuthority : String
  executionLeaseSeconds : Float
  markoutHorizonSeconds : Nat
  markoutLedgerSize : Nat
  logRingSize : Nat
  tradeRingSize : Nat
  octobotTimeoutSeconds : Float
  tradeHistorySyncIntervalSeconds : Nat
  refinerTimeoutSeconds : Float

/-- A name without case, or another one in place of a blank name. -/
def nameOr (name default : String) : String :=
  if (toAsciiLowercase (trim name)).isEmpty then default else toAsciiLowercase (trim name)

def ExecutionSettings.normalise (config : ExecutionSettings) : ExecutionSettings :=
  { marketSnapshotTtlSeconds := clampIn config.marketSnapshotTtlSeconds 1.0 900.0
    advisoryTtlSeconds := clampIn config.advisoryTtlSeconds 1.0 900.0
    maxRepriceDriftBps := clampIn config.maxRepriceDriftBps 1.0 2500.0
    executionAuthority := nameOr config.executionAuthority "gail"
    executionLeaseSeconds := clampIn config.executionLeaseSeconds 30.0 3600.0
    markoutHorizonSeconds := clampCountIn config.markoutHorizonSeconds 60 86400 secondsOfDay_ordered
    markoutLedgerSize := clampCountIn config.markoutLedgerSize 100 50000
    logRingSize := clampCountIn config.logRingSize 10 10000 history_ordered
    tradeRingSize := clampCountIn config.tradeRingSize 10 5000
    octobotTimeoutSeconds := Scalar.max config.octobotTimeoutSeconds 1.0
    tradeHistorySyncIntervalSeconds := clampCountIn config.tradeHistorySyncIntervalSeconds 60 86400 secondsOfDay_ordered
    refinerTimeoutSeconds := Scalar.max config.refinerTimeoutSeconds 1.0 }

theorem nameOr_idem {default : String} (h : nameOr default default = default) (name : String) :
    nameOr (nameOr name default) default = nameOr name default := by
  by_cases hempty : (toAsciiLowercase (trim name)).isEmpty = true
  · have hdefault : nameOr name default = default := if_pos hempty
    rw [hdefault, h]
  · have hname : nameOr name default = toAsciiLowercase (trim name) := if_neg hempty
    rw [hname, nameOr, trim_toAsciiLowercase_trim, toAsciiLowercase_toAsciiLowercase, if_neg hempty]

theorem ExecutionSettings.normalise_idem (config : ExecutionSettings) :
    config.normalise.normalise = config.normalise := by
  have hauthority : nameOr "gail" "gail" = "gail" := by decide
  simp [ExecutionSettings.normalise, nameOr_idem hauthority]

/-! The shadow evaluation of the quant arms and the migration to them. -/

structure ShadowSettings where
  quantShadowEnabled : Bool
  quantShadowHorizonSeconds : Nat
  quantShadowExpirySeconds : Nat
  quantShadowLedgerSize : Nat
  quantTuningMinSamples : Nat
  quantTuningMinActionableSamples : Nat
  quantTuningIntervalSamples : Nat
  quantTuningMinOutperformanceBps : Float
  quantMigrationMinSamples : Nat
  quantMigrationMinActionableSamples : Nat
  quantMigrationWindowSamples : Nat
  quantMigrationMinOutperformanceBps : Float
  quantMigrationMaxDownsideRegressionBps : Float
  quantMigrationRequiredStreak : Nat

/-- `Ord::clamp` on an unsigned integer, which panics unless its bounds are in order. -/
def checkedClampCount (n low high : Nat) : Option Nat := if low ≤ high then some (clampCount n low high) else none

theorem checkedClampCount_eq_some_iff {n low high made : Nat} :
    checkedClampCount n low high = some made ↔ low ≤ high ∧ clampCount n low high = made := by
  rw [checkedClampCount, Option.ite_none_right_eq_some, Option.some_inj]

theorem checkedClampCount_settled {n low high made : Nat} (h : checkedClampCount n low high = some made) :
    checkedClampCount made low high = some made := by
  obtain ⟨hle, rfl⟩ := checkedClampCount_eq_some_iff.mp h
  exact checkedClampCount_eq_some_iff.mpr ⟨hle, clampCount_clampCount hle⟩

theorem exists_checkedClampCount {n low high : Nat} :
    (∃ made, checkedClampCount n low high = some made) ↔ low ≤ high := by
  simp [checkedClampCount_eq_some_iff]

theorem horizon_le_week (horizonSeconds : Nat) :
    clampCountIn horizonSeconds 60 86400 secondsOfDay_ordered ≤ 7 * 86400 :=
  (clampCountIn_mem _).2.trans (by decide)

def ShadowSettings.normalise (config : ShadowSettings) : Option ShadowSettings := do
  let quantShadowHorizonSeconds := clampCountIn config.quantShadowHorizonSeconds 60 86400 secondsOfDay_ordered
  let quantShadowLedgerSize := clampCountIn config.quantShadowLedgerSize 100 50000
  let quantTuningMinSamples := clampCountIn config.quantTuningMinSamples 3 10000 samples_ordered
  let quantMigrationMinSamples := clampCountIn config.quantMigrationMinSamples 10 10000 history_ordered
  -- The smallest ledger is below the largest sample minimum.
  let quantMigrationWindowSamples ←
    checkedClampCount config.quantMigrationWindowSamples quantMigrationMinSamples quantShadowLedgerSize
  pure
    { quantShadowEnabled := config.quantShadowEnabled
      quantShadowHorizonSeconds
      quantShadowExpirySeconds :=
        clampCountIn config.quantShadowExpirySeconds quantShadowHorizonSeconds (7 * 86400) (horizon_le_week _)
      quantShadowLedgerSize
      quantTuningMinSamples
      quantTuningMinActionableSamples :=
        clampCountIn config.quantTuningMinActionableSamples 1 quantTuningMinSamples
          ((by decide : 1 ≤ 3).trans (clampCountIn_mem _).1)
      quantTuningIntervalSamples := clampCountIn config.quantTuningIntervalSamples 1 1000
      quantTuningMinOutperformanceBps := clampIn config.quantTuningMinOutperformanceBps 0.0 2500.0 edgeBps_ordered
      quantMigrationMinSamples
      quantMigrationMinActionableSamples :=
        clampCountIn config.quantMigrationMinActionableSamples 1 quantMigrationMinSamples
          ((by decide : 1 ≤ 10).trans (clampCountIn_mem _).1)
      quantMigrationWindowSamples
      quantMigrationMinOutperformanceBps := clampIn config.quantMigrationMinOutperformanceBps 0.0 2500.0 edgeBps_ordered
      quantMigrationMaxDownsideRegressionBps :=
        clampIn config.quantMigrationMaxDownsideRegressionBps 0.0 2500.0 edgeBps_ordered
      quantMigrationRequiredStreak := clampCountIn config.quantMigrationRequiredStreak 1 100 streak_ordered }

/-- The sample minimum of the migration, within its bounds, does not exceed the ledger within its own. -/
def ShadowSettings.Fits (config : ShadowSettings) : Prop :=
  clampCount config.quantMigrationMinSamples 10 10000 ≤ clampCount config.quantShadowLedgerSize 100 50000

theorem ShadowSettings.settles_iff (config : ShadowSettings) :
    Settles ShadowSettings.normalise config ↔ config.Fits := by
  have hfits : config.Fits ↔ ∃ n, checkedClampCount config.quantMigrationWindowSamples
      (clampCountIn config.quantMigrationMinSamples 10 10000)
      (clampCountIn config.quantShadowLedgerSize 100 50000) = some n := exists_checkedClampCount.symm
  rw [hfits]
  refine Iff.trans (settles_checked_iff (fun _ => rfl) fun n hn => ?_) (exists_congr fun n => and_iff_left ?_)
  · dsimp only
    rw [clampCountIn_clampCountIn, clampCountIn_clampCountIn]
    exact checkedClampCount_settled hn
  · simp only [clampIn_clampIn, clampCountIn_clampCountIn]

/-! The datalake. -/

structure DatalakeSettings where
  marketDatalakeRetentionDays : Nat
  marketDatalakeBucketSeconds : Nat
  marketDatalakeShortWindowMinutes : Nat
  marketDatalakeMidWindowHours : Nat
  marketDatalakeLongWindowDays : Nat
  marketDatalakeMinSamples : Nat
  marketDatalakeFeatureWeight : Float
  marketDatalakeBootstrapSymbolLimit : Nat
  marketDatalakeBootstrapRetrySeconds : Nat
  marketDatalakeBootstrapTimeFrames : List String

def DatalakeSettings.normalise (config : DatalakeSettings) : DatalakeSettings :=
  let shortWindowMinutes := clampCountIn config.marketDatalakeShortWindowMinutes 5 (24 * 30)
  let midWindowHours := clampCountIn config.marketDatalakeMidWindowHours 1 (24 * 120)
  let longWindowDays := clampCountIn config.marketDatalakeLongWindowDays 1 3650
  -- Each window is longer than the one before it.
  let midWindowHours :=
    if midWindowHours * 60 ≤ shortWindowMinutes then saturatingAdd (shortWindowMinutes / 60) 1 else midWindowHours
  let longWindowDays :=
    if longWindowDays * 24 ≤ midWindowHours then saturatingAdd (midWindowHours / 24) 1 else longWindowDays
  { marketDatalakeRetentionDays := clampCountIn config.marketDatalakeRetentionDays 7 3650
    marketDatalakeBucketSeconds := clampCountIn config.marketDatalakeBucketSeconds 10 3600
    marketDatalakeShortWindowMinutes := shortWindowMinutes
    marketDatalakeMidWindowHours := midWindowHours
    marketDatalakeLongWindowDays := longWindowDays
    marketDatalakeMinSamples := clampCountIn config.marketDatalakeMinSamples 3 10000 samples_ordered
    marketDatalakeFeatureWeight := clampIn config.marketDatalakeFeatureWeight 0.0 1.0 unit_ordered
    marketDatalakeBootstrapSymbolLimit := clampCountIn config.marketDatalakeBootstrapSymbolLimit 5 2000
    marketDatalakeBootstrapRetrySeconds :=
      clampCountIn config.marketDatalakeBootstrapRetrySeconds 60 86400 secondsOfDay_ordered
    marketDatalakeBootstrapTimeFrames := cleanTimeFrames config.marketDatalakeBootstrapTimeFrames }

/-- The windows as the repair leaves them. -/
theorem windows_mem (config : DatalakeSettings) :
    config.normalise.marketDatalakeMidWindowHours ≤ 24 * 120 ∧ 1 ≤ config.normalise.marketDatalakeMidWindowHours ∧
      config.normalise.marketDatalakeLongWindowDays ≤ 3650 ∧ 1 ≤ config.normalise.marketDatalakeLongWindowDays ∧
      config.normalise.marketDatalakeShortWindowMinutes < config.normalise.marketDatalakeMidWindowHours * 60 ∧
      config.normalise.marketDatalakeMidWindowHours < config.normalise.marketDatalakeLongWindowDays * 24 := by
  unfold DatalakeSettings.normalise
  dsimp only
  obtain ⟨hshort, hshort'⟩ := clampCountIn_mem (n := config.marketDatalakeShortWindowMinutes)
    (show 5 ≤ 24 * 30 by decide)
  obtain ⟨hmid, hmid'⟩ := clampCountIn_mem (n := config.marketDatalakeMidWindowHours) (show 1 ≤ 24 * 120 by decide)
  obtain ⟨hlong, hlong'⟩ := clampCountIn_mem (n := config.marketDatalakeLongWindowDays) (show 1 ≤ 3650 by decide)
  unfold saturatingAdd u64Max
  split_ifs <;> omega

theorem DatalakeSettings.normalise_idem (config : DatalakeSettings) :
    config.normalise.normalise = config.normalise := by
  obtain ⟨hmidHigh, hmidLow, hlongHigh, hlongLow, hshortMid, hmidLong⟩ := windows_mem config
  set settled := config.normalise with hsettled
  have hshort : clampCountIn settled.marketDatalakeShortWindowMinutes 5 (24 * 30) =
      settled.marketDatalakeShortWindowMinutes := clampCount_clampCount (by decide)
  have hmid : clampCountIn settled.marketDatalakeMidWindowHours 1 (24 * 120) = settled.marketDatalakeMidWindowHours :=
    clampCount_of_mem hmidLow hmidHigh
  have hlong : clampCountIn settled.marketDatalakeLongWindowDays 1 3650 = settled.marketDatalakeLongWindowDays :=
    clampCount_of_mem hlongLow hlongHigh
  have hretention : clampCountIn settled.marketDatalakeRetentionDays 7 3650 = settled.marketDatalakeRetentionDays :=
    clampCount_clampCount (by decide)
  have hbucket : clampCountIn settled.marketDatalakeBucketSeconds 10 3600 = settled.marketDatalakeBucketSeconds :=
    clampCount_clampCount (by decide)
  have hsamples : clampCountIn settled.marketDatalakeMinSamples 3 10000 = settled.marketDatalakeMinSamples :=
    clampCount_clampCount (by decide)
  have hweight : clampIn settled.marketDatalakeFeatureWeight 0.0 1.0 = settled.marketDatalakeFeatureWeight :=
    Scalar.clamp_clamp (by decide +kernel)
  have hsymbols : clampCountIn settled.marketDatalakeBootstrapSymbolLimit 5 2000 =
      settled.marketDatalakeBootstrapSymbolLimit := clampCount_clampCount (by decide)
  have hretry : clampCountIn settled.marketDatalakeBootstrapRetrySeconds 60 86400 =
      settled.marketDatalakeBootstrapRetrySeconds := clampCount_clampCount (by decide)
  have hframes : cleanTimeFrames settled.marketDatalakeBootstrapTimeFrames =
      settled.marketDatalakeBootstrapTimeFrames := cleanTimeFrames_idem _
  conv_lhs => rw [DatalakeSettings.normalise]
  rw [hshort, hmid, hlong, if_neg (not_le.mpr hshortMid), if_neg (not_le.mpr hmidLong), hretention, hbucket, hsamples,
    hweight, hsymbols, hretry, hframes]

/-! Where the state and the datalake are stored. -/

structure StoragePaths where
  dataPath : String
  marketDatalakeFilePath : String

/-- The datalake beside the state. -/
def datalakeBeside (dataPath : String) : String :=
  match UnixPath.parent dataPath.toList with
  | some directory => String.ofList (UnixPath.join directory "market_datalake.jsonl".toList)
  | none => "./data/market_datalake.jsonl"

def StoragePaths.normalise (config : StoragePaths) : StoragePaths :=
  let dataPath := textOr config.dataPath "./data/trading_state.json"
  { dataPath
    marketDatalakeFilePath :=
      if (trim config.marketDatalakeFilePath).isEmpty then datalakeBeside dataPath
      else trim config.marketDatalakeFilePath }

/-- If the datalake is put beside the state, the path of that directory does not start with white space. -/
def StoragePaths.Rooted (config : StoragePaths) : Prop :=
  (trim config.marketDatalakeFilePath).isEmpty = true →
    ∀ directory, UnixPath.parent (textOr config.dataPath "./data/trading_state.json").toList = some directory →
      ∀ c, directory.head? = some c → Library.isWhitespace c = false

theorem trim_datalakeBeside_iff (dataPath : String) : trim (datalakeBeside dataPath) = datalakeBeside dataPath ↔
    ∀ directory, UnixPath.parent dataPath.toList = some directory →
      ∀ c, directory.head? = some c → Library.isWhitespace c = false := by
  unfold datalakeBeside
  cases UnixPath.parent dataPath.toList with
  | none => exact iff_of_true (by decide) fun directory h => by cases h
  | some directory =>
    have hfirst : "market_datalake.jsonl".toList.head? = some 'm' := by decide
    have hlast : "market_datalake.jsonl".toList.getLast? = some 'l' := by decide
    simp only [Option.some.injEq, forall_eq']
    exact UnixPath.trim_join_iff hfirst (by decide) hlast (by decide)

theorem trim_datalakeBeside_nonempty (dataPath : String) : (trim (datalakeBeside dataPath)).isEmpty = false := by
  have hmark : 'j' ∈ (datalakeBeside dataPath).toList := by
    unfold datalakeBeside
    cases UnixPath.parent dataPath.toList with
    | none => decide
    | some directory =>
      obtain ⟨middle, hjoin, -⟩ := UnixPath.join_eq directory "market_datalake.jsonl".toList
      dsimp only
      rw [String.toList_ofList, hjoin]
      exact List.mem_append_right _ (List.mem_append_right _ (by decide))
  exact trim_not_isEmpty hmark (by decide)

theorem StoragePaths.dataPath_normalise (config : StoragePaths) :
    config.normalise.dataPath = textOr config.dataPath "./data/trading_state.json" := by
  unfold StoragePaths.normalise
  dsimp only

theorem StoragePaths.file_of_blank {config : StoragePaths} (h : (trim config.marketDatalakeFilePath).isEmpty = true) :
    config.normalise.marketDatalakeFilePath = datalakeBeside config.normalise.dataPath := by
  unfold StoragePaths.normalise
  dsimp only
  rw [if_pos h]

theorem StoragePaths.file_of_given {config : StoragePaths} (h : (trim config.marketDatalakeFilePath).isEmpty = false) :
    config.normalise.marketDatalakeFilePath = trim config.marketDatalakeFilePath := by
  unfold StoragePaths.normalise
  dsimp only
  rw [h, if_neg (by decide)]

theorem StoragePaths.normalise_idem_iff (config : StoragePaths) :
    config.normalise.normalise = config.normalise ↔ config.Rooted := by
  have hdata : config.normalise.normalise.dataPath = config.normalise.dataPath := by
    rw [StoragePaths.dataPath_normalise, StoragePaths.dataPath_normalise, textOr_idem]
  have hfields : config.normalise.normalise = config.normalise ↔
      config.normalise.normalise.marketDatalakeFilePath = config.normalise.marketDatalakeFilePath := by
    refine ⟨fun h => by rw [h], fun hfile => ?_⟩
    have hmk : ∀ paths : StoragePaths, paths = ⟨paths.dataPath, paths.marketDatalakeFilePath⟩ := fun _ => rfl
    rw [hmk config.normalise.normalise, hdata, hfile]
  rw [hfields]
  unfold StoragePaths.Rooted
  cases hblank : (trim config.marketDatalakeFilePath).isEmpty with
  | true =>
    have hfile := StoragePaths.file_of_blank hblank
    have hgiven : (trim config.normalise.marketDatalakeFilePath).isEmpty = false := by
      rw [hfile]
      exact trim_datalakeBeside_nonempty _
    rw [StoragePaths.file_of_given hgiven, hfile, trim_datalakeBeside_iff, StoragePaths.dataPath_normalise]
    exact ⟨fun h _ => h, fun h => h rfl⟩
  | false =>
    have hfile := StoragePaths.file_of_given hblank
    have hgiven : (trim config.normalise.marketDatalakeFilePath).isEmpty = false := by
      rw [hfile, trim_trim]
      exact hblank
    rw [StoragePaths.file_of_given hgiven, hfile, trim_trim]
    exact iff_of_true rfl fun h => by cases h

/-! Research, backtests and the qualification on paper. -/

structure ResearchSettings where
  researchQueryTemplate : String
  researchIndexName : String
  researchMaxParallelQueries : Nat
  researchTopK : Nat
  researchSiteHints : List String

def ResearchSettings.normalise (config : ResearchSettings) : ResearchSettings :=
  { researchQueryTemplate :=
      textOr config.researchQueryTemplate
        "cryptocurrency market sentiment \x7bcurrency\x7d \x7bexchange\x7d \x7bdate\x7d"
    researchIndexName := textOr config.researchIndexName "crypto"
    researchMaxParallelQueries := clampCountIn config.researchMaxParallelQueries 1 8
    researchTopK := clampCountIn config.researchTopK 1 25
    researchSiteHints := cleanNames config.researchSiteHints }

theorem ResearchSettings.normalise_idem (config : ResearchSettings) :
    config.normalise.normalise = config.normalise := by
  simp only [ResearchSettings.normalise, textOr_idem, clampCountIn_clampCountIn, cleanNames_idem]

structure BacktestSettings where
  backtestProfitabilityThreshold : Float
  backtestIntervalSeconds : Nat
  backtestLookbackDays : Nat
  backtestDataCatalogPath : String
  backtestDataCatalogRefreshSeconds : Nat
  backtestDataCollectionExchange : String
  backtestDataCollectionTimeFrames : List String
  backtestDataCollectionCooldownSeconds : Nat

def BacktestSettings.normalise (config : BacktestSettings) : BacktestSettings :=
  { backtestProfitabilityThreshold := clampIn config.backtestProfitabilityThreshold (-100.0) 100.0
    backtestIntervalSeconds := max config.backtestIntervalSeconds 300
    backtestLookbackDays := clampCountIn config.backtestLookbackDays 1 365
    backtestDataCatalogPath := trim config.backtestDataCatalogPath
    backtestDataCatalogRefreshSeconds :=
      clampCountIn config.backtestDataCatalogRefreshSeconds 60 86400 secondsOfDay_ordered
    backtestDataCollectionExchange := nameOr config.backtestDataCollectionExchange "auto"
    backtestDataCollectionTimeFrames := cleanTimeFrames config.backtestDataCollectionTimeFrames
    backtestDataCollectionCooldownSeconds := max config.backtestDataCollectionCooldownSeconds 60 }

theorem BacktestSettings.normalise_idem (config : BacktestSettings) :
    config.normalise.normalise = config.normalise := by
  have hexchange : nameOr "auto" "auto" = "auto" := by decide
  simp only [BacktestSettings.normalise, clampIn_clampIn, clampCountIn_clampCountIn, trim_trim,
    nameOr_idem hexchange, cleanTimeFrames_idem, max_assoc, max_self]

structure PaperSettings where
  paperQualificationMinEvaluations : Nat
  paperQualificationMinValidatedIntents : Nat
  paperQualificationValiditySeconds : Nat

def PaperSettings.normalise (config : PaperSettings) : PaperSettings :=
  { paperQualificationMinEvaluations := clampCountIn config.paperQualificationMinEvaluations 1 1000000
    paperQualificationMinValidatedIntents :=
      clampCountIn config.paperQualificationMinValidatedIntents 1 100000 intents_ordered
    paperQualificationValiditySeconds :=
      clampCountIn config.paperQualificationValiditySeconds 300 (90 * 24 * 60 * 60) }

theorem PaperSettings.normalise_idem (config : PaperSettings) : config.normalise.normalise = config.normalise := by
  simp only [PaperSettings.normalise, clampCountIn_clampCountIn]

/-! The configuration as a whole. -/

/-- The settings that the repair looks at. -/
structure TradingConfig extends Decision.DecisionSettings Float, ScanSettings, AdvisorSettings, ExecutionSettings,
    ShadowSettings, DatalakeSettings, StoragePaths, ResearchSettings, BacktestSettings, PaperSettings where
  quantitative : QuantitativeConfig

def TradingConfig.normalise (config : TradingConfig) : Option TradingConfig := do
  let shadow ← config.toShadowSettings.normalise
  let quantitative ← config.quantitative.normalise
  pure
    { toDecisionSettings := normaliseDecisions config.toDecisionSettings
      toScanSettings := config.toScanSettings.normalise
      toAdvisorSettings := config.toAdvisorSettings.normalise
      toExecutionSettings := config.toExecutionSettings.normalise
      toShadowSettings := shadow
      toDatalakeSettings := config.toDatalakeSettings.normalise
      toStoragePaths := config.toStoragePaths.normalise
      toResearchSettings := config.toResearchSettings.normalise
      toBacktestSettings := config.toBacktestSettings.normalise
      toPaperSettings := config.toPaperSettings.normalise
      quantitative }

/-- The configurations that the repair comes to rest on. -/
structure TradingConfig.Sound (config : TradingConfig) : Prop where
  fits : config.toShadowSettings.Fits
  quantitative : config.quantitative.Sound
  rooted : config.toStoragePaths.Rooted

/-- The repair of a configuration neither panics nor changes its own result exactly where the ledger holds the
sample minimum, four bounds are numbers, no kept pair is one market twice, and the datalake is not put under a
directory that starts with white space. -/
theorem TradingConfig.normalise_settles_iff (config : TradingConfig) :
    Settles TradingConfig.normalise config ↔ config.Sound := by
  have hshadow := ShadowSettings.settles_iff config.toShadowSettings
  have hquantitative := QuantitativeConfig.settles_iff_sound config.quantitative
  have hpaths := StoragePaths.normalise_idem_iff config.toStoragePaths
  constructor
  · rintro ⟨result, hfirst, hsecond⟩
    obtain ⟨shadow, hshadow', hfirst⟩ := Option.bind_eq_some_iff.mp hfirst
    obtain ⟨quantitative, hquantitative', hfirst⟩ := Option.bind_eq_some_iff.mp hfirst
    obtain rfl := Option.some.inj hfirst
    obtain ⟨shadow', hagain, hsecond⟩ := Option.bind_eq_some_iff.mp hsecond
    obtain ⟨quantitative', hagain', hsecond⟩ := Option.bind_eq_some_iff.mp hsecond
    have hsame := Option.some.inj hsecond
    obtain rfl : shadow' = shadow := congrArg TradingConfig.toShadowSettings hsame
    obtain rfl : quantitative' = quantitative := congrArg TradingConfig.quantitative hsame
    have hstored := congrArg TradingConfig.toStoragePaths hsame
    dsimp only at hstored
    exact ⟨hshadow.mp ⟨_, hshadow', hagain⟩, hquantitative.mp ⟨_, hquantitative', hagain'⟩, hpaths.mp hstored⟩
  · intro h
    obtain ⟨shadow, hfirst, hsecond⟩ := hshadow.mpr h.fits
    obtain ⟨quantitative, hfirst', hsecond'⟩ := hquantitative.mpr h.quantitative
    have hresult : ∃ result, config.normalise = some result := by
      unfold TradingConfig.normalise
      rw [hfirst, hfirst']
      exact ⟨_, rfl⟩
    obtain ⟨result, hresult⟩ := hresult
    refine ⟨result, hresult, ?_⟩
    unfold TradingConfig.normalise at hresult
    rw [hfirst, hfirst'] at hresult
    obtain rfl := Option.some.inj hresult
    unfold TradingConfig.normalise
    dsimp only
    rw [hsecond, hsecond', normaliseDecisions_idem, ScanSettings.normalise_idem, AdvisorSettings.normalise_idem,
      ExecutionSettings.normalise_idem, DatalakeSettings.normalise_idem, hpaths.mpr h.rooted,
      ResearchSettings.normalise_idem, BacktestSettings.normalise_idem, PaperSettings.normalise_idem]
    rfl

/-- The settings that the quant controller is run with. -/
def TradingConfig.controller (config : TradingConfig) : Trading.TradingConfig Float :=
  { config.toShadowSettings with
    estimatedFeeBps := config.estimatedFeeBps
    estimatedSlippageBps := config.estimatedSlippageBps
    selection := config.quantitative.selection }

/-- The controller is started with the repair of its own settings. -/
theorem TradingConfig.controller_normalise {config result : TradingConfig} (h : config.normalise = some result) :
    config.controller.normalise.map NormalisedConfig.toTradingConfig = some result.controller := by
  obtain ⟨shadow, hshadow, h⟩ := Option.bind_eq_some_iff.mp h
  obtain ⟨quantitative, hquantitative, h⟩ := Option.bind_eq_some_iff.mp h
  obtain rfl := Option.some.inj h
  obtain ⟨window, hwindow, hshadow⟩ := Option.bind_eq_some_iff.mp hshadow
  obtain rfl := Option.some.inj hshadow
  have hselection := QuantitativeConfig.selection_normalise hquantitative
  obtain ⟨hfits, rfl⟩ := checkedClampCount_eq_some_iff.mp hwindow
  change config.toShadowSettings.Fits at hfits
  unfold TradingConfig.controller Trading.TradingConfig.normalise
  dsimp only
  unfold ShadowSettings.Fits at hfits
  rw [dif_pos hfits, hselection]
  rfl

def TradingConfig.default : TradingConfig :=
  { fuzzyWeight := 0.4
    fuzzyConfidenceThreshold := 0.65
    maxOpenPositions := 40
    minTradeIntervalSeconds := 120
    microTradeMinUsd := 1.0
    microTradeMaxUsd := 25.0
    decisionRoiFeedbackEnabled := true
    decisionRoiFeedbackLookbackTrades := 120
    decisionRoiFeedbackMinSamples := 8
    decisionRoiFeedbackTargetRoiPct := 1.0
    decisionRoiFeedbackMaxSignalAdjustment := 0.2
    decisionRoiFeedbackMaxConfidencePenalty := 0.35
    decisionRoiFeedbackMaxConfidenceBoost := 0.1
    markoutCalibrationMinSamples := 8
    expectedMoveBps := 250.0
    estimatedFeeBps := 10.0
    estimatedSlippageBps := 12.0
    minimumNetEdgeBps := 15.0
    evaluationIntervalSeconds := 900
    tokenDiscoveryIntervalSeconds := 1800
    tokenDiscoverySnapshotLimit := 20
    tokenDiscoveryCandidatePoolSize := 20
    tokenDiscoveryMinCompositeScore := 0.55
    portfolioPruningIntervalSeconds := 1800
    portfolioPruningMinHoldingUsd := 0.0
    portfolioPruningCandidatePoolSize := 64
    portfolioPruningMinCompositeScore := 0.55
    maxParallelAdvisors := 3
    maxParallelSymbolEvaluations := 2
    advisorTimeoutSeconds := 840.0
    advisorRoundTimeoutSeconds := 900.0
    advisorEarlyQuorum := 1
    advisoryCandidateLimit := 8
    marketSnapshotTtlSeconds := 1200.0
    advisoryTtlSeconds := 120.0
    maxRepriceDriftBps := 35.0
    executionAuthority := "gail"
    executionLeaseSeconds := 180.0
    markoutHorizonSeconds := 900
    markoutLedgerSize := 2000
    logRingSize := 1000
    tradeRingSize := 200
    octobotTimeoutSeconds := 10.0
    tradeHistorySyncIntervalSeconds := 900
    refinerTimeoutSeconds := 15.0
    quantShadowEnabled := true
    quantShadowHorizonSeconds := 900
    quantShadowExpirySeconds := 3600
    quantShadowLedgerSize := 2000
    quantTuningMinSamples := 24
    quantTuningMinActionableSamples := 6
    quantTuningIntervalSamples := 8
    quantTuningMinOutperformanceBps := 5.0
    quantMigrationMinSamples := 96
    quantMigrationMinActionableSamples := 16
    quantMigrationWindowSamples := 240
    quantMigrationMinOutperformanceBps := 10.0
    quantMigrationMaxDownsideRegressionBps := 25.0
    quantMigrationRequiredStreak := 3
    marketDatalakeRetentionDays := 365
    marketDatalakeBucketSeconds := 60
    marketDatalakeShortWindowMinutes := 60
    marketDatalakeMidWindowHours := 24
    marketDatalakeLongWindowDays := 60
    marketDatalakeMinSamples := 8
    marketDatalakeFeatureWeight := 0.45
    marketDatalakeBootstrapSymbolLimit := 120
    marketDatalakeBootstrapRetrySeconds := 1800
    marketDatalakeBootstrapTimeFrames := ["1h", "4h", "1d"]
    dataPath := "./data/trading_state.json"
    marketDatalakeFilePath := ""
    researchQueryTemplate := "cryptocurrency market sentiment \x7bcurrency\x7d \x7bexchange\x7d \x7bdate\x7d"
    researchIndexName := "crypto"
    researchMaxParallelQueries := 3
    researchTopK := 5
    researchSiteHints := ["bloomberg.com"]
    backtestProfitabilityThreshold := 0.0
    backtestIntervalSeconds := 3600
    backtestLookbackDays := 30
    backtestDataCatalogPath := ""
    backtestDataCatalogRefreshSeconds := 900
    backtestDataCollectionExchange := "auto"
    backtestDataCollectionTimeFrames := ["1h", "4h", "1d"]
    backtestDataCollectionCooldownSeconds := 900
    paperQualificationMinEvaluations := 100
    paperQualificationMinValidatedIntents := 5
    paperQualificationValiditySeconds := 7 * 24 * 60 * 60
    quantitative := .default }

theorem TradingConfig.default_sound : TradingConfig.default.Sound where
  fits := by
    unfold ShadowSettings.Fits
    decide
  quantitative := QuantitativeConfig.default_sound
  rooted _ directory hparent c hc := by
    have hdirectory : UnixPath.parent (textOr "./data/trading_state.json" "./data/trading_state.json").toList =
        some "./data".toList := by decide
    obtain rfl := Option.some.inj (hdirectory.symm.trans hparent)
    obtain rfl := Option.some.inj hc
    decide

/-- A migration that asks for more samples than the ledger keeps stops the start. -/
theorem normalise_panics :
    ({ TradingConfig.default with quantMigrationMinSamples := 5000, quantShadowLedgerSize := 1000 } :
      TradingConfig).normalise = none ∧ ¬ ∀ config : TradingConfig, Settles TradingConfig.normalise config := by
  have hnone : ({ TradingConfig.default with quantMigrationMinSamples := 5000, quantShadowLedgerSize := 1000 } :
      TradingConfig).normalise = none := rfl
  refine ⟨hnone, fun h => ?_⟩
  obtain ⟨result, hfirst, -⟩ :=
    h { TradingConfig.default with quantMigrationMinSamples := 5000, quantShadowLedgerSize := 1000 }
  rw [hnone] at hfirst
  cases hfirst

end Gail.Trading.Configuration
