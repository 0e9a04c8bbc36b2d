import Gail.Datalake.MarketSample
import Gail.Library.Gathered

/-! The frames that the native backtest replays, and what they let it know of the future. -/
namespace Gail.Datalake
open Gail.Library Gail.Trading

/-- What else finite doubles and exact numbers have in common. -/
class LawfulMax (F : Type) [LakeScalar F] : Prop extends LawfulTimes F where
  lt_of_not_le {a b : F} : Scalar.isFinite a = true → Scalar.isFinite b = true → ¬ b ≤ a → a < b
  max_choice (a b : F) : Scalar.max a b = a ∨ Scalar.max a b = b
  le_max {a b : F} : Scalar.isFinite a = true → Scalar.isFinite b = true →
    a ≤ Scalar.max a b ∧ b ≤ Scalar.max a b

instance : LawfulMax ℚ where
  lt_of_not_le _ _ h := not_le.mp h
  max_choice a b := by
    change (if a < b then b else a) = a ∨ (if a < b then b else a) = b
    split_ifs
    · exact .inr rfl
    · exact .inl rfl
  le_max {a b} _ _ := by
    change a ≤ (if a < b then b else a) ∧ b ≤ if a < b then b else a
    split_ifs with h
    · exact ⟨h.le, le_rfl⟩
    · exact ⟨le_rfl, not_lt.mp h⟩

/-- The settings after `normalise`. -/
structure NativeBacktestConfig where
  maximumFrames : Nat
  symbolLimit : Nat
  frameIntervalSeconds : Nat
  one_le_symbolLimit : 1 ≤ symbolLimit
  frameIntervalSeconds_le : frameIntervalSeconds ≤ 86400

def NativeBacktestConfig.normalise (maximumFrames symbolLimit frameIntervalSeconds : Nat) :
    NativeBacktestConfig where
  maximumFrames := clampCount maximumFrames 100 1000000
  symbolLimit := clampCount symbolLimit 1 500
  frameIntervalSeconds := clampCount frameIntervalSeconds 60 86400
  one_le_symbolLimit := le_clampCount (by decide)
  frameIntervalSeconds_le := clampCount_le

structure QuantBacktestFrame (F : Type) where
  timestamp : F
  snapshots : List (MarketSnapshot F)
  historicalFeatures : String → Option (MarketHistoricalFeatures F)

/-- What one market adds to the frame of an interval. -/
structure FrameRow (F : Type) where
  interval : Int
  snapshot : MarketSnapshot F
  features : MarketHistoricalFeatures F

/-- The samples of each market under its key, in the order of the hash map. -/
abbrev SampleHistories (F : Type) [LakeScalar F] := List (String × List (MarketSample F))

section Frames
variable {F : Type} [LakeScalar F]

def FrameRow.key (row : FrameRow F) : String :=
  marketFeatureKey row.snapshot.exchange row.snapshot.symbol

/-- The volume of the newest sample at its price. -/
def liquidity (samples : List (MarketSample F)) : F :=
  ((samples.getLast?.bind fun sample => sample.volume24h.map (· * sample.price)).filter
    Scalar.isFinite).getD 0.0

/-- The more liquid market comes first, then the smaller key. -/
def liquidityOrder (left right : String × List (MarketSample F)) : Prop :=
  liquidity right.2 < liquidity left.2 ∨
    ¬ liquidity left.2 < liquidity right.2 ∧ ¬ right.1 < left.1

instance : DecidableRel (liquidityOrder (F := F)) := fun _ _ => inferInstanceAs (Decidable (_ ∨ _))

def rankedSymbols (histories : SampleHistories F) (config : NativeBacktestConfig) :
    SampleHistories F :=
  (histories.insertionSort liquidityOrder).take config.symbolLimit

def frameRow (bucket : Int) (sample : MarketSample F) (features : MarketHistoricalFeatures F) :
    FrameRow F where
  interval := bucket
  snapshot :=
    { exchange := sample.exchange
      symbol := sample.symbol
      price := sample.price
      priceChangePct1h := features.momentumShortPct
      priceChangePct24h := sample.priceChangePct24h
      volume24h := sample.volume24h
      volumeChangePct := features.volumeRatioShortLong.map fun ratio => (ratio - 1.0) * 100.0
      high24h := sample.high24h
      low24h := sample.low24h
      fetchedAt := sample.capturedTs
      microstructure := sample.microstructure }
  features

/-- The rows of one market: the samples seen so far, the interval of the one before, and what is
left. -/
def frameRows (lake : MarketDataLakeConfig) (interval : Nat) :
    List (MarketSample F) → Option Int → List (MarketSample F) → List (FrameRow F)
  | _, _, [] => []
  | seen, previous, sample :: samples =>
    let bucket := timeBucket sample.capturedTs interval
    if previous = some bucket then frameRows lake interval (seen ++ [sample]) previous samples
    else
      ((computeFeatures (seen ++ [sample]) sample.capturedTs lake).map
        (frameRow bucket sample)).toList ++
          frameRows lake interval (seen ++ [sample]) (some bucket) samples

/-- The entry of an interval takes a row. -/
def addRow (frame : Option (QuantBacktestFrame F)) (row : FrameRow F) : QuantBacktestFrame F :=
  let frame := frame.getD
    { timestamp := row.snapshot.fetchedAt, snapshots := [], historicalFeatures := fun _ => none }
  { timestamp := Scalar.max frame.timestamp row.snapshot.fetchedAt
    historicalFeatures := Function.update frame.historicalFeatures row.key (some row.features)
    snapshots := frame.snapshots ++ [row.snapshot] }

section Build
variable (histories : SampleHistories F) (lake : MarketDataLakeConfig) (config : NativeBacktestConfig)

def NativeBacktestConfig.interval : Nat := max config.frameIntervalSeconds 1

def universeRows : List (FrameRow F) :=
  (rankedSymbols histories config).flatMap fun history =>
    frameRows lake config.interval [] none history.2

/-- The frames under their intervals, before the cut. -/
def framesByInterval : List (Int × QuantBacktestFrame F) :=
  gather FrameRow.interval addRow (universeRows histories lake config)

def buildNativeBacktestFrames : List (QuantBacktestFrame F) :=
  let frames := (framesByInterval histories lake config).map Prod.snd
  if config.maximumFrames < frames.length then frames.drop (frames.length - config.maximumFrames)
  else frames

end Build

/-- The samples that a map holds of a market. -/
def samplesOf (histories : SampleHistories F) (key : String) : List (MarketSample F) :=
  ((histories.find? fun history => history.1 == key).map Prod.snd).getD []

def observedBy (time : F) (samples : List (MarketSample F)) : List (MarketSample F) :=
  samples.filter fun sample => decide (sample.capturedTs ≤ time)

/-- A map of histories: one for each market, of its own samples, in the order of their times. -/
structure InTime (histories : SampleHistories F) : Prop where
  keys : (histories.map Prod.fst).Nodup
  named : ∀ history ∈ histories, ∀ sample ∈ history.2, sample.key = history.1
  ordered : ∀ history ∈ histories,
    history.2.Pairwise fun sample other => sample.capturedTs ≤ other.capturedTs

/-- Up to that time the same samples were captured. -/
def AgreeUpTo (time : F) (left right : SampleHistories F) : Prop :=
  ∀ history ∈ left ++ right,
    observedBy time (samplesOf left history.1) = observedBy time (samplesOf right history.1)

/-- Of the markets observed by then the same ones are ranked high enough. -/
def SelectAlike (time : F) (config : NativeBacktestConfig) (left right : SampleHistories F) : Prop :=
  ∀ history ∈ left ++ right, observedBy time (samplesOf left history.1) ≠ [] →
    (history.1 ∈ (rankedSymbols left config).map Prod.fst ↔
      history.1 ∈ (rankedSymbols right config).map Prod.fst)

namespace QuantBacktestFrame

/-- Two frames of the same observations. -/
structure Same (frame other : QuantBacktestFrame F) : Prop where
  snapshots : frame.snapshots.Perm other.snapshots
  features : frame.historicalFeatures = other.historicalFeatures
  before : frame.timestamp ≤ other.timestamp
  after : other.timestamp ≤ frame.timestamp

/-- The other frame has what this one has, and later observations of the same interval. -/
structure CompletedBy (time : F) (frame other : QuantBacktestFrame F) : Prop where
  snapshots : frame.snapshots.Perm
    (other.snapshots.filter fun snapshot => decide (snapshot.fetchedAt ≤ time))
  features : ∀ snapshot ∈ frame.snapshots,
    frame.historicalFeatures (marketFeatureKey snapshot.exchange snapshot.symbol) =
      other.historicalFeatures (marketFeatureKey snapshot.exchange snapshot.symbol)
  later : ¬ other.timestamp ≤ time

end QuantBacktestFrame

/-- What every list of frames is like. -/
structure FramesInOrder (frames : List (QuantBacktestFrame F)) : Prop where
  increasing : frames.Pairwise fun frame other => frame.timestamp < other.timestamp
  oneEach : ∀ frame ∈ frames, (frame.snapshots.map fun snapshot =>
    marketFeatureKey snapshot.exchange snapshot.symbol).Nodup
  contained : ∀ frame ∈ frames, ∀ snapshot ∈ frame.snapshots, snapshot.fetchedAt ≤ frame.timestamp

end Frames

section Rows
variable {F : Type} [LakeScalar F] {lake : MarketDataLakeConfig} {interval : Nat}
  {seen samples later : List (MarketSample F)} {previous : Option Int} {row : FrameRow F}

/-- A row tells of a sample. -/
theorem mem_frameRows (h : row ∈ frameRows lake interval seen previous samples) :
    ∃ sample ∈ samples, row.snapshot.fetchedAt = sample.capturedTs ∧ row.key = sample.key ∧
      row.interval = timeBucket sample.capturedTs interval := by
  induction samples generalizing seen previous with
  | nil => cases h
  | cons sample samples ih =>
    rw [frameRows] at h
    split_ifs at h
    · obtain ⟨other, hm, hrow⟩ := ih h
      exact ⟨other, List.mem_cons_of_mem _ hm, hrow⟩
    · rcases List.mem_append.mp h with h | h
      · obtain ⟨features, -, rfl⟩ := Option.map_eq_some_iff.mp (Option.mem_toList.mp h)
        exact ⟨sample, List.mem_cons_self, rfl, rfl, rfl⟩
      · obtain ⟨other, hm, hrow⟩ := ih h
        exact ⟨other, List.mem_cons_of_mem _ hm, hrow⟩

/-- Later samples only add rows. -/
theorem frameRows_append :
    ∃ last, frameRows lake interval seen previous (samples ++ later) =
      frameRows lake interval seen previous samples ++
        frameRows lake interval (seen ++ samples) last later := by
  induction samples generalizing seen previous with
  | nil => exact ⟨previous, by rw [List.append_nil]; rfl⟩
  | cons sample samples ih =>
    have hseen : seen ++ sample :: samples = seen ++ [sample] ++ samples := by
      rw [List.append_assoc, List.singleton_append]
    rw [List.cons_append, frameRows, frameRows, hseen]
    split_ifs
    · exact ih
    · obtain ⟨last, hl⟩ := @ih (seen ++ [sample])
        (some (timeBucket sample.capturedTs interval))
      refine ⟨last, ?_⟩
      rw [hl]
      exact (List.append_assoc ..).symm

/-- In order of time a market has one row for an interval. -/
theorem frameRows_increasing
    (ho : samples.Pairwise fun sample other =>
      timeBucket sample.capturedTs interval ≤ timeBucket other.capturedTs interval)
    (hp : ∀ bucket ∈ previous, ∀ sample ∈ samples, bucket ≤ timeBucket sample.capturedTs interval) :
    (∀ bucket ∈ previous, ∀ row ∈ frameRows lake interval seen previous samples,
      bucket < row.interval) ∧
    (frameRows lake interval seen previous samples).Pairwise fun row other =>
      row.interval < other.interval := by
  induction samples generalizing seen previous with
  | nil => exact ⟨fun _ _ _ h => (List.not_mem_nil h).elim, List.Pairwise.nil⟩
  | cons sample samples ih =>
    obtain ⟨hfirst, hrest⟩ := List.pairwise_cons.mp ho
    rw [frameRows]
    split_ifs with hbucket
    · exact ih hrest fun bucket hb other hm => hp bucket hb other (List.mem_cons_of_mem _ hm)
    · obtain ⟨hlater, hpairs⟩ := @ih (seen ++ [sample])
        (some (timeBucket sample.capturedTs interval)) hrest fun bucket hb other hm => by
          rw [← Option.mem_some_iff.mp hb]
          exact hfirst other hm
      have hown : ∀ row ∈ ((computeFeatures (seen ++ [sample]) sample.capturedTs lake).map
          (frameRow (timeBucket sample.capturedTs interval) sample)).toList,
          row.interval = timeBucket sample.capturedTs interval := by
        intro row hm
        obtain ⟨features, -, rfl⟩ := Option.map_eq_some_iff.mp (Option.mem_toList.mp hm)
        rfl
      constructor
      · intro bucket hb row hm
        have hle := hp bucket hb sample List.mem_cons_self
        have hne : bucket ≠ timeBucket sample.capturedTs interval := fun he => by
          rw [he] at hb
          exact hbucket (Option.mem_def.mp hb)
        rcases List.mem_append.mp hm with hm | hm
        · rw [hown row hm]
          exact lt_of_le_of_ne hle hne
        · exact hle.trans_lt (hlater _ rfl row hm)
      · refine List.pairwise_append.mpr ⟨?_, hpairs, fun row hr other ho => ?_⟩
        · cases computeFeatures (seen ++ [sample]) sample.capturedTs lake with
          | none => exact List.Pairwise.nil
          | some features => exact List.pairwise_singleton _ _
        · rw [hown row hr]
          exact hlater _ rfl other ho

variable [LawfulTimes F]

/-- In order of time the samples observed by some time are the first ones. -/
theorem observedBy_append (time : F)
    (ho : samples.Pairwise fun sample other => sample.capturedTs ≤ other.capturedTs) :
    ∃ later, samples = observedBy time samples ++ later ∧
      ∀ sample ∈ later, ¬ sample.capturedTs ≤ time := by
  induction samples with
  | nil => exact ⟨[], rfl, fun _ h => (List.not_mem_nil h).elim⟩
  | cons sample samples ih =>
    obtain ⟨hfirst, hrest⟩ := List.pairwise_cons.mp ho
    by_cases ht : sample.capturedTs ≤ time
    · obtain ⟨later, hs, hl⟩ := ih hrest
      refine ⟨later, ?_, hl⟩
      rw [observedBy, List.filter_cons_of_pos (by simpa using ht), List.cons_append]
      exact congrArg (sample :: ·) hs
    · have hnone : observedBy time (sample :: samples) = [] := by
        refine List.filter_eq_nil_iff.mpr fun other hm => ?_
        rw [decide_eq_true_eq]
        rcases List.mem_cons.mp hm with rfl | hm
        · exact ht
        · exact fun hle => ht (LawfulTimes.trans (hfirst other hm) hle)
      refine ⟨sample :: samples, by rw [hnone, List.nil_append], fun other hm hle => ?_⟩
      exact List.filter_eq_nil_iff.mp hnone other hm (decide_eq_true hle)

/-- The rows up to some time are those of the samples observed by then. -/
theorem mem_frameRows_observedBy {time : F}
    (ho : samples.Pairwise fun sample other => sample.capturedTs ≤ other.capturedTs) :
    row ∈ frameRows lake interval [] none (observedBy time samples) ↔
      row ∈ frameRows lake interval [] none samples ∧ row.snapshot.fetchedAt ≤ time := by
  obtain ⟨later, hs, hl⟩ := observedBy_append time ho
  obtain ⟨last, hrows⟩ : ∃ last, frameRows lake interval [] none (observedBy time samples ++ later) =
      frameRows lake interval [] none (observedBy time samples) ++
        frameRows lake interval ([] ++ observedBy time samples) last later := frameRows_append
  rw [← hs] at hrows
  rw [hrows, List.mem_append]
  constructor
  · intro h
    obtain ⟨sample, hm, hts, -⟩ := mem_frameRows h
    refine ⟨.inl h, ?_⟩
    rw [hts]
    exact of_decide_eq_true (List.mem_filter.mp hm).2
  · rintro ⟨h | h, ht⟩
    · exact h
    · obtain ⟨sample, hm, hts, -⟩ := mem_frameRows h
      rw [hts] at ht
      exact absurd ht (hl sample hm)

end Rows

section Universe
variable {F : Type} [LakeScalar F] {histories left right : SampleHistories F}
  {lake : MarketDataLakeConfig} {config : NativeBacktestConfig} {row other : FrameRow F} {time : F}

theorem config_interval_pos (config : NativeBacktestConfig) : 0 < config.interval :=
  Nat.lt_of_lt_of_le Nat.zero_lt_one (le_max_right _ _)

theorem mem_of_mem_rankedSymbols {history : String × List (MarketSample F)}
    (h : history ∈ rankedSymbols histories config) : history ∈ histories :=
  (List.mem_insertionSort _).mp (List.mem_of_mem_take h)

theorem samplesOf_mem (hk : (histories.map Prod.fst).Nodup) {history : String × List (MarketSample F)}
    (h : history ∈ histories) : samplesOf histories history.1 = history.2 := by
  have hfind : histories.find? (fun other => other.1 == history.1) = some history := by
    cases hf : histories.find? fun other => other.1 == history.1 with
    | none => exact absurd (List.find?_eq_none.mp hf history h) (by simp)
    | some found =>
      have hfound := List.find?_some hf
      have hkey : found.1 = history.1 := eq_of_beq hfound
      rw [List.inj_on_of_nodup_map hk (List.mem_of_find?_eq_some hf) h hkey]
  rw [samplesOf, hfind]
  rfl

theorem mem_universeRows (ht : InTime histories) : row ∈ universeRows histories lake config ↔
    ∃ key ∈ (rankedSymbols histories config).map Prod.fst,
      row ∈ frameRows lake config.interval [] none (samplesOf histories key) := by
  rw [universeRows, List.mem_flatMap]
  constructor
  · rintro ⟨history, hm, hrow⟩
    refine ⟨history.1, List.mem_map_of_mem hm, ?_⟩
    rw [samplesOf_mem ht.keys (mem_of_mem_rankedSymbols hm)]
    exact hrow
  · rintro ⟨key, hk, hrow⟩
    obtain ⟨history, hm, rfl⟩ := List.mem_map.mp hk
    rw [samplesOf_mem ht.keys (mem_of_mem_rankedSymbols hm)] at hrow
    exact ⟨history, hm, hrow⟩

theorem universeRows_sample (h : row ∈ universeRows histories lake config) :
    Scalar.isFinite row.snapshot.fetchedAt = true ∧
      row.interval = timeBucket row.snapshot.fetchedAt config.interval := by
  obtain ⟨history, -, hrow⟩ := List.mem_flatMap.mp h
  obtain ⟨sample, -, hts, -, hb⟩ := mem_frameRows hrow
  rw [hts]
  exact ⟨sample.finite, hb⟩

theorem AgreeUpTo.symm (h : AgreeUpTo time left right) : AgreeUpTo time right left :=
  fun history hm => (h history (List.mem_append.mpr (List.mem_append.mp hm).symm)).symm

theorem SelectAlike.symm (ha : AgreeUpTo time left right) (h : SelectAlike time config left right) :
    SelectAlike time config right left := by
  intro history hm hne
  have hboth : history ∈ left ++ right := List.mem_append.mpr (List.mem_append.mp hm).symm
  rw [← ha history hboth] at hne
  exact (h history hboth hne).symm

variable [LawfulTimes F]

/-- An interval has one row of each market. -/
theorem universeRows_distinct (ht : InTime histories) :
    (universeRows histories lake config).Pairwise fun row other =>
      row.interval = other.interval → row.key ≠ other.key := by
  rw [universeRows, List.pairwise_flatMap]
  have hsorted : (rankedSymbols histories config).Pairwise fun history other =>
      history.1 ≠ other.1 := by
    have hperm := (List.perm_insertionSort liquidityOrder histories).map Prod.fst
    exact (List.pairwise_map.mp (hperm.nodup_iff.mpr ht.keys)).sublist (List.take_sublist _ _)
  refine ⟨fun history hm => ?_, hsorted.imp_of_mem fun {history other} hm ho hne => ?_⟩
  · have hmem := mem_of_mem_rankedSymbols hm
    have hbuckets := (ht.ordered history hmem).imp fun hle =>
      timeBucket_mono (config_interval_pos config) hle
    have hpairs : (frameRows lake config.interval [] none history.2).Pairwise fun row other =>
        row.interval < other.interval := (frameRows_increasing hbuckets fun _ hb => by cases hb).2
    exact hpairs.imp fun hlt he => absurd he hlt.ne
  · intro row hr other hor _
    obtain ⟨sample, hs, -, hk, -⟩ := mem_frameRows hr
    obtain ⟨sample', hs', -, hk', -⟩ := mem_frameRows hor
    rw [hk, hk', ht.named _ (mem_of_mem_rankedSymbols hm) sample hs,
      ht.named _ (mem_of_mem_rankedSymbols ho) sample' hs']
    exact hne

/-- Markets that are selected alike have the same rows up to that time. -/
theorem universeRows_agree (hl : InTime left) (hr : InTime right) (ha : AgreeUpTo time left right)
    (hs : SelectAlike time config left right) (ht : row.snapshot.fetchedAt ≤ time)
    (h : row ∈ universeRows left lake config) : row ∈ universeRows right lake config := by
  obtain ⟨key, hk, hrow⟩ := (mem_universeRows hl).mp h
  obtain ⟨history, hm, rfl⟩ := List.mem_map.mp hk
  have hmem := mem_of_mem_rankedSymbols hm
  have hboth : history ∈ left ++ right := List.mem_append_left _ hmem
  have hordered : (samplesOf left history.1).Pairwise fun sample other =>
      sample.capturedTs ≤ other.capturedTs := by
    rw [samplesOf_mem hl.keys hmem]
    exact hl.ordered history hmem
  have hobserved := (mem_frameRows_observedBy hordered).mpr ⟨hrow, ht⟩
  have hne : observedBy time (samplesOf left history.1) ≠ [] := by
    intro hnil
    rw [hnil] at hobserved
    cases hobserved
  have hselected := (hs history hboth hne).mp hk
  obtain ⟨twin, htwin, hkey⟩ := List.mem_map.mp hselected
  have htmem := mem_of_mem_rankedSymbols htwin
  rw [ha history hboth, ← hkey, samplesOf_mem hr.keys htmem] at hobserved
  refine (mem_universeRows hr).mpr ⟨twin.1, List.mem_map_of_mem htwin, ?_⟩
  rw [samplesOf_mem hr.keys htmem]
  exact ((mem_frameRows_observedBy (hr.ordered twin htmem)).mp hobserved).1

end Universe

section Gathering
variable {F : Type} [LakeScalar F] {rows : List (FrameRow F)} {row : FrameRow F}
  {frame other : QuantBacktestFrame F} {time : F}

/-- What the frame of some rows is: a time of one of them that is not before any, all snapshots, and
the features of each market. -/
structure FrameOf (rows : List (FrameRow F)) (frame : QuantBacktestFrame F) : Prop where
  snapshots : frame.snapshots = rows.map FrameRow.snapshot
  latest : ∃ row ∈ rows, frame.timestamp = row.snapshot.fetchedAt
  bound : ∀ row ∈ rows, row.snapshot.fetchedAt ≤ frame.timestamp
  features : ∀ row ∈ rows, (rows.map FrameRow.key).Nodup →
    frame.historicalFeatures row.key = some row.features
  absent : ∀ key, key ∉ rows.map FrameRow.key → frame.historicalFeatures key = none

theorem addRow_none : addRow none row =
    { timestamp := Scalar.max row.snapshot.fetchedAt row.snapshot.fetchedAt
      snapshots := [row.snapshot]
      historicalFeatures := Function.update (fun _ => none) row.key (some row.features) } := rfl

theorem addRow_some : addRow (some frame) row =
    { timestamp := Scalar.max frame.timestamp row.snapshot.fetchedAt
      snapshots := frame.snapshots ++ [row.snapshot]
      historicalFeatures :=
        Function.update frame.historicalFeatures row.key (some row.features) } := rfl

theorem frameOf_gathered [LawfulMax F] (hf : ∀ row ∈ rows, Scalar.isFinite row.snapshot.fetchedAt = true)
    (h : gathered addRow rows = some frame) : FrameOf rows frame := by
  induction rows using List.reverseRecOn generalizing frame with
  | nil => cases h
  | append_singleton rows row ih =>
    rw [gathered_concat, Option.some.injEq] at h
    have hrow : Scalar.isFinite row.snapshot.fetchedAt = true :=
      hf row (List.mem_append_right _ (List.mem_singleton_self _))
    have hfront : ∀ other ∈ rows, Scalar.isFinite other.snapshot.fetchedAt = true :=
      fun other ho => hf other (List.mem_append_left _ ho)
    cases hg : gathered addRow rows with
    | none =>
      have hnil : rows = [] := by
        cases rows using List.reverseRecOn with
        | nil => rfl
        | append_singleton rows last => rw [gathered_concat] at hg; cases hg
      subst hnil
      rw [hg, addRow_none] at h
      subst h
      have hmax : Scalar.max row.snapshot.fetchedAt row.snapshot.fetchedAt =
          row.snapshot.fetchedAt := (LawfulMax.max_choice _ _).elim id id
      constructor
      · rfl
      · exact ⟨row, List.mem_singleton_self _, hmax⟩
      · intro other ho
        rw [List.mem_singleton.mp ho]
        exact (LawfulMax.le_max hrow hrow).1
      · intro other ho _
        rw [List.mem_singleton.mp ho]
        dsimp only
        rw [Function.update_self]
      · intro key hk
        have hne : key ≠ row.key := fun he => hk (he ▸ List.mem_singleton_self _)
        dsimp only
        rw [Function.update_of_ne hne]
    | some before =>
      rw [hg, addRow_some] at h
      subst h
      have hspec := ih hfront hg
      obtain ⟨late, hlate, hts⟩ := hspec.latest
      have hfinite : Scalar.isFinite before.timestamp = true := hts ▸ hfront late hlate
      have hmax := LawfulMax.le_max hfinite hrow
      constructor
      · rw [List.map_append, List.map_singleton, hspec.snapshots]
      · rcases LawfulMax.max_choice before.timestamp row.snapshot.fetchedAt with hc | hc
        · exact ⟨late, List.mem_append_left _ hlate, hc.trans hts⟩
        · exact ⟨row, List.mem_append_right _ (List.mem_singleton_self _), hc⟩
      · intro other ho
        rcases List.mem_append.mp ho with ho | ho
        · exact LawfulTimes.trans (hspec.bound other ho) hmax.1
        · rw [List.mem_singleton.mp ho]
          exact hmax.2
      · intro other ho hnodup
        rw [List.map_append, List.map_singleton] at hnodup
        obtain ⟨hkeys, -, hdisjoint⟩ := List.nodup_append.mp hnodup
        rcases List.mem_append.mp ho with ho | ho
        · have hne := hdisjoint other.key (List.mem_map_of_mem ho) row.key (List.mem_singleton_self _)
          dsimp only
          rw [Function.update_of_ne hne]
          exact hspec.features other ho hkeys
        · rw [List.mem_singleton.mp ho]
          dsimp only
          rw [Function.update_self]
      · intro key hk
        rw [List.map_append, List.map_singleton, List.mem_append, not_or, List.mem_singleton] at hk
        dsimp only
        rw [Function.update_of_ne hk.2]
        exact hspec.absent key hk.1

theorem exists_gathered (h : rows ≠ []) : ∃ frame, gathered addRow rows = some frame := by
  obtain ⟨front, last, rfl⟩ := (List.eq_nil_or_concat' rows).resolve_left h
  exact ⟨_, gathered_concat⟩

/-- Frames of the same rows are the same. -/
theorem FrameOf.same {others : List (FrameRow F)} (h : FrameOf rows frame) (ho : FrameOf others other)
    (hp : rows.Perm others) (hn : (rows.map FrameRow.key).Nodup) : frame.Same other where
  snapshots := by
    rw [h.snapshots, ho.snapshots]
    exact hp.map _
  features := by
    have hkeys := hp.map FrameRow.key
    funext key
    by_cases hk : key ∈ rows.map FrameRow.key
    · obtain ⟨row, hm, rfl⟩ := List.mem_map.mp hk
      rw [h.features row hm hn, ho.features row (hp.mem_iff.mp hm) (hkeys.nodup_iff.mp hn)]
    · rw [h.absent key hk, ho.absent key fun hm => hk (hkeys.mem_iff.mpr hm)]
  before := by
    obtain ⟨row, hm, hts⟩ := h.latest
    rw [hts]
    exact ho.bound row (hp.mem_iff.mp hm)
  after := by
    obtain ⟨row, hm, hts⟩ := ho.latest
    rw [hts]
    exact h.bound row (hp.mem_iff.mpr hm)

/-- A frame that has rows of a later time beside the same ones completes the other. -/
theorem FrameOf.completedBy {others : List (FrameRow F)} (h : FrameOf rows frame)
    (ho : FrameOf others other)
    (hp : rows.Perm (others.filter fun row => decide (row.snapshot.fetchedAt ≤ time)))
    (hn : (rows.map FrameRow.key).Nodup) (hno : (others.map FrameRow.key).Nodup)
    (hlater : ¬ other.timestamp ≤ time) : frame.CompletedBy time other where
  snapshots := by
    rw [h.snapshots, ho.snapshots, List.filter_map]
    exact hp.map _
  features := by
    intro snapshot hm
    rw [h.snapshots] at hm
    obtain ⟨row, hrow, rfl⟩ := List.mem_map.mp hm
    have hother := (List.mem_filter.mp (hp.mem_iff.mp hrow)).1
    exact (h.features row hrow hn).trans (ho.features row hother hno).symm
  later := hlater

end Gathering

section Main
variable {F : Type} [LakeScalar F] {histories left right : SampleHistories F}
  {lake : MarketDataLakeConfig} {config : NativeBacktestConfig} {interval : Int}
  {frame : QuantBacktestFrame F} {time : F}

theorem FramesInOrder.drop {frames : List (QuantBacktestFrame F)} (h : FramesInOrder frames)
    (n : Nat) : FramesInOrder (frames.drop n) where
  increasing := h.increasing.sublist (List.drop_sublist n frames)
  oneEach frame hm := h.oneEach frame (List.mem_of_mem_drop hm)
  contained frame hm := h.contained frame (List.mem_of_mem_drop hm)

/-- Where no more markets than the limit have a history, all are selected. -/
theorem rankedSymbols_all (h : histories.length ≤ config.symbolLimit) (key : String) :
    key ∈ (rankedSymbols histories config).map Prod.fst ↔ key ∈ histories.map Prod.fst := by
  have hall : rankedSymbols histories config = histories.insertionSort liquidityOrder :=
    List.take_of_length_le (by rwa [List.length_insertionSort])
  rw [hall, ((List.perm_insertionSort _ _).map _).mem_iff]

/-- The rows of an interval. -/
def intervalRows (histories : SampleHistories F) (lake : MarketDataLakeConfig)
    (config : NativeBacktestConfig) (interval : Int) : List (FrameRow F) :=
  (universeRows histories lake config).filter fun row => row.interval = interval

theorem mem_intervalRows {row : FrameRow F} : row ∈ intervalRows histories lake config interval ↔
    row ∈ universeRows histories lake config ∧ row.interval = interval := by
  rw [intervalRows, List.mem_filter, decide_eq_true_eq]

variable [LawfulMax F]

theorem intervalRows_keys (ht : InTime histories) :
    ((intervalRows histories lake config interval).map FrameRow.key).Nodup := by
  refine List.pairwise_map.mpr ?_
  refine ((universeRows_distinct ht).filter _).imp_of_mem fun hm ho hne => hne ?_
  rw [(mem_intervalRows.mp hm).2, (mem_intervalRows.mp ho).2]

theorem frameOf_framesByInterval
    (h : (interval, frame) ∈ framesByInterval histories lake config) :
    FrameOf (intervalRows histories lake config interval) frame :=
  frameOf_gathered (fun _ hm => (universeRows_sample (mem_intervalRows.mp hm).1).1) (mem_gather.mp h)

/-- The time of a frame falls in its interval. -/
theorem framesByInterval_timestamp
    (h : (interval, frame) ∈ framesByInterval histories lake config) :
    Scalar.isFinite frame.timestamp = true ∧ timeBucket frame.timestamp config.interval = interval := by
  obtain ⟨row, hm, hts⟩ := (frameOf_framesByInterval h).latest
  obtain ⟨hrow, hinterval⟩ := mem_intervalRows.mp hm
  obtain ⟨hfinite, hbucket⟩ := universeRows_sample hrow
  rw [hts, ← hinterval, hbucket]
  exact ⟨hfinite, rfl⟩

theorem framesByInterval_inOrder (ht : InTime histories) :
    FramesInOrder ((framesByInterval histories lake config).map Prod.snd) := by
  constructor
  · refine List.pairwise_map.mpr ?_
    have hranked : Ranked Prod.fst (framesByInterval histories lake config) := gather_ranked
    refine hranked.imp_of_mem fun {entry other} hm ho hlt => ?_
    obtain ⟨hfinite, hbucket⟩ := framesByInterval_timestamp hm
    obtain ⟨hfinite', hbucket'⟩ := framesByInterval_timestamp ho
    refine LawfulMax.lt_of_not_le hfinite hfinite' fun hle => ?_
    have hmono := timeBucket_mono (config_interval_pos config) hle
    rw [hbucket, hbucket'] at hmono
    exact absurd hmono (not_le.mpr hlt)
  · intro frame hm
    obtain ⟨⟨interval, frame⟩, hentry, rfl⟩ := List.mem_map.mp hm
    rw [(frameOf_framesByInterval hentry).snapshots, List.map_map]
    exact intervalRows_keys ht
  · intro frame hm snapshot hs
    obtain ⟨⟨interval, frame⟩, hentry, rfl⟩ := List.mem_map.mp hm
    have hspec := frameOf_framesByInterval hentry
    rw [hspec.snapshots] at hs
    obtain ⟨row, hrow, rfl⟩ := List.mem_map.mp hs
    exact hspec.bound row hrow

/-- A frame up to some time is a frame of the other histories that agree until then, or is completed
there by later observations of the interval that the time falls in. -/
theorem framesByInterval_agree (hfinite : Scalar.isFinite time = true) (hl : InTime left)
    (hr : InTime right) (ha : AgreeUpTo time left right) (hs : SelectAlike time config left right)
    (h : (interval, frame) ∈ framesByInterval left lake config) (ht : frame.timestamp ≤ time) :
    ∃ other, (interval, other) ∈ framesByInterval right lake config ∧
      (frame.Same other ∨
        frame.CompletedBy time other ∧ interval = timeBucket time config.interval) := by
  have hframe := frameOf_framesByInterval h
  have hkeys : ((intervalRows left lake config interval).map FrameRow.key).Nodup :=
    intervalRows_keys hl
  have hkeys' : ((intervalRows right lake config interval).map FrameRow.key).Nodup :=
    intervalRows_keys hr
  have hearly : ∀ row ∈ intervalRows left lake config interval, row.snapshot.fetchedAt ≤ time :=
    fun row hm => LawfulTimes.trans (hframe.bound row hm) ht
  have hsub : ∀ row ∈ intervalRows left lake config interval,
      row ∈ intervalRows right lake config interval := by
    intro row hm
    obtain ⟨hrow, hi⟩ := mem_intervalRows.mp hm
    exact mem_intervalRows.mpr ⟨universeRows_agree hl hr ha hs (hearly row hm) hrow, hi⟩
  have hback : ∀ row ∈ intervalRows right lake config interval, row.snapshot.fetchedAt ≤ time →
      row ∈ intervalRows left lake config interval := by
    intro row hm hle
    obtain ⟨hrow, hi⟩ := mem_intervalRows.mp hm
    exact mem_intervalRows.mpr ⟨universeRows_agree hr hl ha.symm (hs.symm ha) hle hrow, hi⟩
  obtain ⟨first, hfirst, -⟩ := hframe.latest
  obtain ⟨other, hg⟩ := exists_gathered (List.ne_nil_of_mem (hsub first hfirst))
  have hother : (interval, other) ∈ framesByInterval right lake config := mem_gather.mpr hg
  have hspec := frameOf_framesByInterval hother
  refine ⟨other, hother, ?_⟩
  by_cases hlate : other.timestamp ≤ time
  · left
    refine hframe.same hspec ?_ hkeys
    refine (List.perm_ext_iff_of_nodup hkeys.of_map hkeys'.of_map).mpr fun row => ?_
    exact ⟨hsub row, fun hm => hback row hm (LawfulTimes.trans (hspec.bound row hm) hlate)⟩
  · right
    constructor
    · refine hframe.completedBy hspec ?_ hkeys hkeys' hlate
      refine (List.perm_ext_iff_of_nodup hkeys.of_map (hkeys'.of_map.filter _)).mpr fun row => ?_
      rw [List.mem_filter, decide_eq_true_eq]
      exact ⟨fun hm => ⟨hsub row hm, hearly row hm⟩, fun hm => hback row hm.1 hm.2⟩
    · have hpos := config_interval_pos config
      obtain ⟨hts, hbucket⟩ := framesByInterval_timestamp hother
      have hle : time ≤ other.timestamp := (LawfulTimes.total hts hfinite).resolve_left hlate
      have hlower := timeBucket_mono hpos ht
      have hupper := timeBucket_mono hpos hle
      rw [(framesByInterval_timestamp h).2] at hlower
      rw [hbucket] at hupper
      exact le_antisymm hlower hupper

end Main

section Replay

/-- A price and a volume of some market. -/
def observation (symbol : String) (ts volume : ℚ) : MarketSample ℚ where
  observationTimeContract := 3
  exchange := "binance"
  symbol := symbol
  capturedTs := ts
  capturedBucket := timeBucket ts 60
  price := 100
  volume24h := some volume
  finite := isFinite_rat ts

def btcHistory (times : List ℚ) : String × List (MarketSample ℚ) :=
  ("binance|BTC/USDT", times.map fun ts => observation "BTC/USDT" ts 100)

/-- The volume of this market is its time. -/
def ethHistory (times : List ℚ) : String × List (MarketSample ℚ) :=
  ("binance|ETH/USDT", times.map fun ts => observation "ETH/USDT" ts ts)

def replayLake : MarketDataLakeConfig := .fromTradingConfig 30 60 1 1 30 2

/-- The times of the frames up to some time, and their markets. -/
def framesUpTo (time : ℚ) (histories : SampleHistories ℚ) (config : NativeBacktestConfig) :
    List (ℚ × List String) :=
  ((framesByInterval histories replayLake config).map fun entry =>
    (entry.2.timestamp, entry.2.snapshots.map MarketSnapshot.symbol)).filter fun frame =>
      frame.1 ≤ time

theorem inTime_pair {btc eth : List ℚ} (hb : btc.Pairwise (· ≤ ·)) (he : eth.Pairwise (· ≤ ·)) :
    InTime [btcHistory btc, ethHistory eth] where
  keys := by simp [btcHistory, ethHistory]
  named history hm sample hs := by
    have hbtc : marketFeatureKey "binance" "BTC/USDT" = "binance|BTC/USDT" := by decide +kernel
    have heth : marketFeatureKey "binance" "ETH/USDT" = "binance|ETH/USDT" := by decide +kernel
    rcases List.mem_pair.mp hm with rfl | rfl
    · obtain ⟨ts, -, rfl⟩ := List.mem_map.mp hs
      exact hbtc
    · obtain ⟨ts, -, rfl⟩ := List.mem_map.mp hs
      exact heth
  ordered history hm := by
    rcases List.mem_pair.mp hm with rfl | rfl
    · exact List.pairwise_map.mpr hb
    · exact List.pairwise_map.mpr he

end Replay

end Gail.Datalake
