import Gail.Library.Text
import Gail.Trading.Scalar

/-! The bounded parameter sets (arms) of the quant controller with the repair of a persisted one, and its settings with
the bounds that normalisation puts them in. -/
namespace Gail.Trading

/-- The characters of Unicode `White_Space`, which `str::trim` removes. -/
def isWhitespace (c : Char) : Bool :=
  (0x9 ≤ c.toNat && c.toNat ≤ 0xD) || (0x2000 ≤ c.toNat && c.toNat ≤ 0x200A) ||
    [0x20, 0x85, 0xA0, 0x1680, 0x2028, 0x2029, 0x202F, 0x205F, 0x3000].contains c.toNat

/-- `trim().to_ascii_lowercase()`. -/
def normalizeId (id : String) : String :=
  String.ofList (((id.toList.dropWhile isWhitespace).rdropWhile isWhitespace).map Char.toLower)

/-- `eq_ignore_ascii_case`. -/
def eqIgnoreAsciiCase (left right : String) : Bool :=
  left.toList.map Char.toLower == right.toList.map Char.toLower

inductive QuantParameterKind
  | momentum
  /-- Explicit no-trade benchmark. -/
  | cash
  deriving DecidableEq, Repr

structure QuantParameters (F : Type) where
  id : String
  kind : QuantParameterKind
  shortMomentumWeight : F
  midMomentumWeight : F
  longMomentumWeight : F
  liveMomentumWeight : F
  volumeConfirmationWeight : F
  riskAttenuation : F
  entryThreshold : F
  deriving DecidableEq

variable {F : Type} [Scalar F]

namespace QuantParameters

def default : QuantParameters F where
  id := "balanced-v1"
  kind := .momentum
  shortMomentumWeight := 0.45
  midMomentumWeight := 0.30
  longMomentumWeight := 0.15
  liveMomentumWeight := 0.10
  volumeConfirmationWeight := 0.10
  riskAttenuation := 0.50
  entryThreshold := 0.24

/-- The weights after clamping, scaled to sum to one, or the default weights when they vanish. -/
def rescale (parameters : QuantParameters F) : QuantParameters F :=
  let total := parameters.shortMomentumWeight + parameters.midMomentumWeight
    + parameters.longMomentumWeight + parameters.liveMomentumWeight
  if total ≤ Scalar.epsilon then
    { parameters with
      shortMomentumWeight := 0.45
      midMomentumWeight := 0.30
      longMomentumWeight := 0.15
      liveMomentumWeight := 0.10 }
  else
    { parameters with
      shortMomentumWeight := parameters.shortMomentumWeight / total
      midMomentumWeight := parameters.midMomentumWeight / total
      longMomentumWeight := parameters.longMomentumWeight / total
      liveMomentumWeight := parameters.liveMomentumWeight / total }

def normalize (parameters : QuantParameters F) : QuantParameters F :=
  match parameters.kind with
  | .cash =>
    { id := normalizeId parameters.id
      kind := .cash
      shortMomentumWeight := 0.0
      midMomentumWeight := 0.0
      longMomentumWeight := 0.0
      liveMomentumWeight := 0.0
      volumeConfirmationWeight := 0.0
      riskAttenuation := 0.0
      entryThreshold := 0.80 }
  | .momentum =>
    rescale
      { id := normalizeId parameters.id
        kind := .momentum
        shortMomentumWeight := clamp parameters.shortMomentumWeight 0.0 1.0
        midMomentumWeight := clamp parameters.midMomentumWeight 0.0 1.0
        longMomentumWeight := clamp parameters.longMomentumWeight 0.0 1.0
        liveMomentumWeight := clamp parameters.liveMomentumWeight 0.0 1.0
        volumeConfirmationWeight := clamp parameters.volumeConfirmationWeight 0.0 0.5
        riskAttenuation := clamp parameters.riskAttenuation 0.0 0.95
        entryThreshold := clamp parameters.entryThreshold 0.08 0.80 }

@[simp] theorem normalize_id (parameters : QuantParameters F) :
    parameters.normalize.id = normalizeId parameters.id := by
  unfold normalize rescale
  split
  · rfl
  · dsimp only
    split <;> rfl

end QuantParameters

def defaultParameterSets : List (QuantParameters F) :=
  List.map QuantParameters.normalize
    [ QuantParameters.default,
      { id := "fast-trend-v1", kind := .momentum,
        shortMomentumWeight := 0.62, midMomentumWeight := 0.20, longMomentumWeight := 0.08,
        liveMomentumWeight := 0.10, volumeConfirmationWeight := 0.16, riskAttenuation := 0.55,
        entryThreshold := 0.28 },
      { id := "slow-trend-v1", kind := .momentum,
        shortMomentumWeight := 0.25, midMomentumWeight := 0.35, longMomentumWeight := 0.30,
        liveMomentumWeight := 0.10, volumeConfirmationWeight := 0.06, riskAttenuation := 0.45,
        entryThreshold := 0.20 },
      { id := "risk-controlled-v1", kind := .momentum,
        shortMomentumWeight := 0.40, midMomentumWeight := 0.30, longMomentumWeight := 0.20,
        liveMomentumWeight := 0.10, volumeConfirmationWeight := 0.12, riskAttenuation := 0.75,
        entryThreshold := 0.34 },
      { id := "volume-confirmed-v1", kind := .momentum,
        shortMomentumWeight := 0.50, midMomentumWeight := 0.25, longMomentumWeight := 0.15,
        liveMomentumWeight := 0.10, volumeConfirmationWeight := 0.25, riskAttenuation := 0.60,
        entryThreshold := 0.26 },
      { id := "cash-v1", kind := .cash,
        shortMomentumWeight := 0.0, midMomentumWeight := 0.0, longMomentumWeight := 0.0,
        liveMomentumWeight := 0.0, volumeConfirmationWeight := 0.0, riskAttenuation := 0.0,
        entryThreshold := 0.80 } ]

theorem isWhitespace_eq : isWhitespace = Library.isWhitespace := by
  funext c
  rw [isWhitespace, Library.isWhitespace, Bool.or_comm, ← Bool.or_assoc, List.contains_eq_mem]

theorem normalizeId_eq (id : String) : normalizeId id = Library.toAsciiLowercase (Library.trim id) := by
  rw [normalizeId, isWhitespace_eq, Library.toAsciiLowercase, Library.trim, String.toList_ofList]

/-- A repaired id is its own repair. -/
theorem normalizeId_idem (id : String) : normalizeId (normalizeId id) = normalizeId id := by
  rw [normalizeId_eq, normalizeId_eq, Library.trim_toAsciiLowercase_trim, Library.toAsciiLowercase_toAsciiLowercase]

structure StrategySelectionConfig (F : Type) where
  cashParameterId : String
  minimumActionableNetEdgeBps : F
  confidenceZScore : F
  requireNativeValidationForPromotion : Bool
  nativeValidationMaxAgeSeconds : Nat
  deriving DecidableEq

structure TradingConfig (F : Type) where
  quantShadowEnabled : Bool
  quantShadowHorizonSeconds : Nat
  quantShadowExpirySeconds : Nat
  quantShadowLedgerSize : Nat
  quantTuningMinSamples : Nat
  quantTuningMinActionableSamples : Nat
  quantTuningIntervalSamples : Nat
  quantTuningMinOutperformanceBps : F
  quantMigrationMinSamples : Nat
  quantMigrationMinActionableSamples : Nat
  quantMigrationWindowSamples : Nat
  quantMigrationMinOutperformanceBps : F
  quantMigrationMaxDownsideRegressionBps : F
  quantMigrationRequiredStreak : Nat
  estimatedFeeBps : F
  estimatedSlippageBps : F
  selection : StrategySelectionConfig F
  deriving DecidableEq

def StrategySelectionConfig.normalise (selection : StrategySelectionConfig F) :
    StrategySelectionConfig F :=
  let cashParameterId := normalizeId selection.cashParameterId
  { selection with
    cashParameterId := if cashParameterId.isEmpty then "cash-v1" else cashParameterId
    minimumActionableNetEdgeBps := clamp selection.minimumActionableNetEdgeBps 0.0 2500.0
    confidenceZScore := clamp selection.confidenceZScore 0.0 4.0
    nativeValidationMaxAgeSeconds :=
      clampCount selection.nativeValidationMaxAgeSeconds 300 (30 * 86400) }

/-- A configuration as the controller receives it. -/
structure NormalisedConfig (F : Type) extends TradingConfig F where
  minSamples_le_window : quantMigrationMinSamples ≤ quantMigrationWindowSamples
  window_le_ledger : quantMigrationWindowSamples ≤ quantShadowLedgerSize
  requiredStreak_pos : 1 ≤ quantMigrationRequiredStreak
  requiredStreak_le : quantMigrationRequiredStreak ≤ 100
  deriving DecidableEq

/-- The clamps of the quant settings, in the order of the source. The clamp of the window panics when
its lower bound, the sample minimum, exceeds the ledger. -/
def TradingConfig.normalise (config : TradingConfig F) : Option (NormalisedConfig F) :=
  let horizon := clampCount config.quantShadowHorizonSeconds 60 86400
  let ledger := clampCount config.quantShadowLedgerSize 100 50000
  let tuningMinSamples := clampCount config.quantTuningMinSamples 3 10000
  let minSamples := clampCount config.quantMigrationMinSamples 10 10000
  if h : minSamples ≤ ledger then
    some
      { config with
        estimatedFeeBps := clamp config.estimatedFeeBps 0.0 500.0
        estimatedSlippageBps := clamp config.estimatedSlippageBps 0.0 500.0
        quantShadowHorizonSeconds := horizon
        quantShadowExpirySeconds := clampCount config.quantShadowExpirySeconds horizon (7 * 86400)
        quantShadowLedgerSize := ledger
        quantTuningMinSamples := tuningMinSamples
        quantTuningMinActionableSamples :=
          clampCount config.quantTuningMinActionableSamples 1 tuningMinSamples
        quantTuningIntervalSamples := clampCount config.quantTuningIntervalSamples 1 1000
        quantTuningMinOutperformanceBps := clamp config.quantTuningMinOutperformanceBps 0.0 2500.0
        quantMigrationMinSamples := minSamples
        quantMigrationMinActionableSamples :=
          clampCount config.quantMigrationMinActionableSamples 1 minSamples
        quantMigrationWindowSamples := clampCount config.quantMigrationWindowSamples minSamples ledger
        quantMigrationMinOutperformanceBps :=
          clamp config.quantMigrationMinOutperformanceBps 0.0 2500.0
        quantMigrationMaxDownsideRegressionBps :=
          clamp config.quantMigrationMaxDownsideRegressionBps 0.0 2500.0
        quantMigrationRequiredStreak := clampCount config.quantMigrationRequiredStreak 1 100
        selection := config.selection.normalise
        minSamples_le_window := le_clampCount h
        window_le_ledger := clampCount_le
        requiredStreak_pos := le_clampCount (by decide)
        requiredStreak_le := clampCount_le }
  else none

end Gail.Trading
