import Gail.Datalake.MarketNames
import Gail.Trading.Scalar
import Mathlib.Tactic.Linarith

/-! The samples of the market datalake, the time buckets that they are put in, and the features of a market that the lake
computes from its samples, as of the last one. -/
namespace Gail.Datalake
open Gail.Trading

/-- The operations on observations beside those of the controller. -/
class LakeScalar (F : Type) extends Scalar F where
  min : F → F → F
  ln : F → F
  /-- `f64::floor`, then the conversion `as i64`. -/
  floorToInt : F → Int

instance : LakeScalar Float where
  min x y := if x.isNaN then y else if y.isNaN then x else if y < x then y else x
  ln := Float.log
  floorToInt x := x.floor.toInt64.toInt

/-- Exact arithmetic, for runs that are evaluated. The logarithm is its tangent at one. -/
instance : LakeScalar ℚ where
  min x y := if y < x then y else x
  ln x := x - 1
  floorToInt x := x.floor

/-- What finite doubles and exact numbers have in common. -/
class LawfulTimes (F : Type) [LakeScalar F] : Prop where
  total {a b : F} : Scalar.isFinite a = true → Scalar.isFinite b = true → a ≤ b ∨ b ≤ a
  trans {a b c : F} : a ≤ b → b ≤ c → a ≤ c
  div_count_mono {a b : F} {n : Nat} : 0 < n → a ≤ b →
    a / Scalar.ofCount n ≤ b / Scalar.ofCount n
  floorToInt_mono {a b : F} : a ≤ b → LakeScalar.floorToInt a ≤ LakeScalar.floorToInt b
  count_nonneg (n : Nat) : (0.0 : F) ≤ Scalar.ofCount n
  le_max_right {a b : F} : 0.0 ≤ b → b ≤ Scalar.max a b
  not_le_of_evicted {a b horizon : F} : 0.0 ≤ horizon → a + Scalar.epsilon < b - horizon → ¬ b ≤ a

instance : LawfulTimes ℚ where
  total _ _ := le_total _ _
  trans := le_trans
  div_count_mono _ h := div_le_div_of_nonneg_right h (Nat.cast_nonneg _)
  floorToInt_mono h := Rat.floor_monotone h
  count_nonneg n := by
    change (0.0 : ℚ) ≤ n
    norm_num
  le_max_right {a b} _ := by
    change b ≤ if a < b then b else a
    split_ifs with h
    · exact le_rfl
    · exact not_lt.mp h
  not_le_of_evicted {a b horizon} hh hlt hle := by
    have hpos : (0 : ℚ) < Scalar.epsilon := by
      change (0 : ℚ) < 1 / 2 ^ 52
      norm_num
    norm_num at hh
    linarith

section Samples
variable (F : Type)

structure MarketMicrostructure where
  bestBid : Option F := none
  bestAsk : Option F := none
  bidDepthUsd : Option F := none
  askDepthUsd : Option F := none
  orderFlowImbalance : Option F := none
  tradeFlowImbalance : Option F := none
  fundingRate : Option F := none
  openInterest : Option F := none
  futuresBasisBps : Option F := none
  listingAgeDays : Option F := none
  quoteVolume24h : Option F := none
  sourceLatencyMs : Option F := none
  deriving DecidableEq

structure MarketSnapshot where
  exchange : String
  symbol : String
  price : F
  priceChangePct1h : Option F := none
  priceChangePct24h : Option F := none
  volume24h : Option F := none
  volumeChangePct : Option F := none
  high24h : Option F := none
  low24h : Option F := none
  fetchedAt : F
  microstructure : MarketMicrostructure F := {}
  deriving DecidableEq

/-- An observation as the lake keeps it. Its time is finite: live observations are checked for it, and
neither JSON nor what they mirror can say otherwise. -/
structure MarketSample [LakeScalar F] where
  observationTimeContract : Int
  exchange : String
  symbol : String
  capturedTs : F
  capturedBucket : Int
  price : F
  priceChangePct24h : Option F := none
  volume24h : Option F := none
  high24h : Option F := none
  low24h : Option F := none
  microstructure : MarketMicrostructure F := {}
  finite : Scalar.isFinite capturedTs = true
  deriving DecidableEq

end Samples

/-- `MARKET_DATALAKE_SCHEMA_VERSION`. -/
def marketDatalakeSchemaVersion : Nat := 3

section Buckets
variable {F : Type} [LakeScalar F]

/-- The number of the interval of so many seconds that a time falls in. -/
def timeBucket (ts : F) (seconds : Nat) : Int := LakeScalar.floorToInt (ts / Scalar.ofCount seconds)

theorem timeBucket_mono [LawfulTimes F] {early late : F} {seconds : Nat} (hs : 0 < seconds)
    (h : early ≤ late) : timeBucket early seconds ≤ timeBucket late seconds :=
  LawfulTimes.floorToInt_mono (LawfulTimes.div_count_mono hs h)

namespace MarketSample

/-- The key under which the cache keeps a sample. -/
def key (sample : MarketSample F) : String := marketFeatureKey sample.exchange sample.symbol

/-- The bucket is the one that the time falls in. -/
def Bucketed (seconds : Nat) (sample : MarketSample F) : Prop :=
  sample.capturedBucket = timeBucket sample.capturedTs seconds

variable [LawfulTimes F]

theorem ts_total (sample other : MarketSample F) :
    sample.capturedTs ≤ other.capturedTs ∨ other.capturedTs ≤ sample.capturedTs :=
  LawfulTimes.total sample.finite other.finite

theorem ts_refl (sample : MarketSample F) : sample.capturedTs ≤ sample.capturedTs :=
  (sample.ts_total sample).elim id id

/-- Among samples that are bucketed alike an earlier bucket means an earlier time. -/
theorem ts_le_of_bucket_lt {seconds : Nat} (hs : 0 < seconds) {sample other : MarketSample F}
    (h : sample.Bucketed seconds) (ho : other.Bucketed seconds)
    (hlt : sample.capturedBucket < other.capturedBucket) : sample.capturedTs ≤ other.capturedTs := by
  refine (sample.ts_total other).resolve_right fun hle => ?_
  have hmono := timeBucket_mono hs hle
  rw [← h, ← ho] at hmono
  omega

end MarketSample

/-- `sample_from_snapshot` at the time `now`. -/
def sampleFromSnapshot (snapshot : MarketSnapshot F) (bucketSeconds : Nat) (now : F) :
    Option (MarketSample F) :=
  if !Scalar.isFinite snapshot.price || snapshot.price ≤ 0.0 then none
  else if h : Scalar.isFinite snapshot.fetchedAt = true then
    if snapshot.fetchedAt ≤ 0.0 || now < snapshot.fetchedAt then none
    else
      some
        { observationTimeContract := marketDatalakeSchemaVersion
          exchange := normalizeExchange snapshot.exchange
          symbol := normalizeSymbol snapshot.symbol
          capturedTs := snapshot.fetchedAt
          capturedBucket := timeBucket snapshot.fetchedAt bucketSeconds
          price := snapshot.price
          priceChangePct24h := snapshot.priceChangePct24h
          volume24h := snapshot.volume24h
          high24h := snapshot.high24h
          low24h := snapshot.low24h
          microstructure := snapshot.microstructure
          finite := h }
  else none

theorem sampleFromSnapshot_bucketed {snapshot : MarketSnapshot F} {bucketSeconds : Nat} {now : F}
    {sample : MarketSample F} (h : sampleFromSnapshot snapshot bucketSeconds now = some sample) :
    sample.Bucketed bucketSeconds := by
  unfold sampleFromSnapshot at h
  split_ifs at h
  rw [← Option.some.inj h]
  rfl

end Buckets

/-- The settings of the lake; the bucket has at least one second and the features at least two
samples. -/
structure MarketDataLakeConfig where
  retentionDays : Nat
  bucketSeconds : Nat
  shortWindowSeconds : Nat
  midWindowSeconds : Nat
  longWindowSeconds : Nat
  minSamples : Nat
  bucketSeconds_pos : 1 ≤ bucketSeconds
  two_le_minSamples : 2 ≤ minSamples

namespace MarketDataLakeConfig
variable (F : Type) [LakeScalar F]

/-- `from_trading_config`, of the settings that the lake reads. -/
def fromTradingConfig (retentionDays bucketSeconds shortWindowMinutes midWindowHours longWindowDays
    minSamples : Nat) : MarketDataLakeConfig where
  retentionDays := retentionDays
  bucketSeconds := max bucketSeconds 1
  shortWindowSeconds := shortWindowMinutes * 60
  midWindowSeconds := midWindowHours * 3600
  longWindowSeconds := longWindowDays * 86400
  minSamples := max minSamples 2
  bucketSeconds_pos := le_max_right _ _
  two_le_minSamples := le_max_right _ _

def retentionSeconds (config : MarketDataLakeConfig) : F := Scalar.ofCount config.retentionDays * 86400.0

def cacheHorizonSeconds (config : MarketDataLakeConfig) : F :=
  let long : F := Scalar.ofCount config.longWindowSeconds
  Scalar.max (LakeScalar.min (long * 2.0) (config.retentionSeconds F)) long

variable {F}

theorem cacheHorizonSeconds_nonneg [LawfulTimes F] (config : MarketDataLakeConfig) :
    (0.0 : F) ≤ config.cacheHorizonSeconds F :=
  have hlong := LawfulTimes.count_nonneg config.longWindowSeconds
  LawfulTimes.trans hlong (LawfulTimes.le_max_right hlong)

end MarketDataLakeConfig

structure MarketHistoricalFeatures (F : Type) where
  samples : Nat
  firstTs : Option F
  lastTs : Option F
  freshnessSeconds : Option F
  momentumShortPct : Option F
  momentumMidPct : Option F
  momentumLongPct : Option F
  volatilityPct : Option F
  drawdownPct : Option F
  volumeRatioShortLong : Option F
  deriving DecidableEq

section Features
variable {F : Type} [LakeScalar F]

/-- The samples from the first one that is not older; only the last if all are. -/
def windowSlice (samples : List (MarketSample F)) (sinceTs : F) : List (MarketSample F) :=
  if samples.isEmpty then samples
  else
    let idx := (samples.findIdx? fun sample =>
      decide (sinceTs ≤ sample.capturedTs + Scalar.epsilon)).getD (samples.length - 1)
    samples.drop idx

def windowChangePct (samples : List (MarketSample F)) : Option F :=
  if samples.length < 2 then none
  else
    match samples.head?, samples.getLast? with
    | some first, some last =>
      if Scalar.abs first.price ≤ Scalar.epsilon then none
      else some ((last.price - first.price) / first.price * 100.0)
    | _, _ => none

/-- The logarithmic returns between neighbours of positive prices. -/
def logReturns : List (MarketSample F) → List F
  | prev :: next :: samples =>
    if 0.0 < prev.price ∧ 0.0 < next.price then
      LakeScalar.ln (next.price / prev.price) :: logReturns (next :: samples)
    else logReturns (next :: samples)
  | _ => []

def realizedVolatilityPct (samples : List (MarketSample F)) : Option F :=
  if samples.length < 3 then none
  else
    let returns := logReturns samples
    if returns.length < 2 then none
    else
      let average := mean returns
      let variance := total (returns.map fun value =>
        let delta := value - average
        delta * delta) / Scalar.ofCount returns.length
      some (Scalar.sqrt variance * 100.0)

def drawdownFromPeakPct (samples : List (MarketSample F)) : Option F :=
  samples.getLast?.bind fun latest =>
    let peak := (samples.map fun sample => sample.high24h.getD sample.price).foldl Scalar.max 0.0
    if peak ≤ Scalar.epsilon then none else some ((latest.price / peak - 1.0) * 100.0)

def averageVolume (samples : List (MarketSample F)) : Option F :=
  let volumes := (samples.filterMap MarketSample.volume24h).filter fun volume =>
    Scalar.isFinite volume && decide (0.0 ≤ volume)
  if volumes.length = 0 then none else some (total volumes / Scalar.ofCount volumes.length)

def computeFeatures (samples : List (MarketSample F)) (now : F) (config : MarketDataLakeConfig) :
    Option (MarketHistoricalFeatures F) :=
  if samples.length < config.minSamples then none
  else
    samples.getLast?.bind fun latest =>
      let anchorTs := latest.capturedTs
      let shortWindow := windowSlice samples (anchorTs - Scalar.ofCount config.shortWindowSeconds)
      let midWindow := windowSlice samples (anchorTs - Scalar.ofCount config.midWindowSeconds)
      let longWindow := windowSlice samples (anchorTs - Scalar.ofCount config.longWindowSeconds)
      if longWindow.length < config.minSamples then none
      else
        let volumeRatioShortLong :=
          match averageVolume shortWindow, averageVolume longWindow with
          | some short, some long => if Scalar.epsilon < long then some (short / long) else none
          | _, _ => none
        some
          { samples := longWindow.length
            firstTs := longWindow.head?.map MarketSample.capturedTs
            lastTs := some latest.capturedTs
            freshnessSeconds := some (Scalar.max (now - latest.capturedTs) 0.0)
            momentumShortPct := windowChangePct shortWindow
            momentumMidPct := windowChangePct midWindow
            momentumLongPct := windowChangePct longWindow
            volatilityPct := realizedVolatilityPct longWindow
            drawdownPct := drawdownFromPeakPct longWindow
            volumeRatioShortLong }

end Features

end Gail.Datalake
