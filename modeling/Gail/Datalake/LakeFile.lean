import Gail.Datalake.MarketSample
import Gail.Library.LatestByKey
import Mathlib.Data.List.Sort

/-! How the history of some markets is read back from the file of the lake, one sample for each
bucket. -/
namespace Gail.Datalake
open Gail.Library Gail.Trading
variable {F : Type} [LakeScalar F]

/-- The file as a reader finds it: lines, of which one may fail to be read. -/
inductive LakeFile where
  | notFound
  | failed (error : String)
  | opened (lines : List (Except String String))

namespace MarketSample

/-- The sample is kept when the other one comes for its place. -/
def settles (previous sample : MarketSample F) : Bool := decide (sample.capturedTs ≤ previous.capturedTs)

/-- The comparison `partial_cmp(..).unwrap_or(Equal)` of the times, with what it says on a tie of the
parts before it. -/
def noLater (left right : MarketSample F) : Prop := ¬ right.capturedTs < left.capturedTs

def bucketOrder (left right : MarketSample F) : Prop :=
  left.capturedBucket < right.capturedBucket ∨
    left.capturedBucket = right.capturedBucket ∧ left.noLater right

def symbolOrder (left right : MarketSample F) : Prop :=
  left.key < right.key ∨ left.key = right.key ∧ left.bucketOrder right

instance : DecidableRel (noLater (F := F)) := fun _ _ => inferInstanceAs (Decidable (¬ _))

instance : DecidableRel (bucketOrder (F := F)) := fun _ _ => inferInstanceAs (Decidable (_ ∨ _))

instance : DecidableRel (symbolOrder (F := F)) := fun _ _ => inferInstanceAs (Decidable (_ ∨ _))

end MarketSample

def dedupeSamples (samples : List (MarketSample F)) : List (MarketSample F) :=
  (latestByKey MarketSample.capturedBucket MarketSample.settles samples).insertionSort
    MarketSample.bucketOrder

def dedupeSamplesBySymbol (samples : List (MarketSample F)) : List (MarketSample F) :=
  (latestByKey (fun sample => (sample.key, sample.capturedBucket)) MarketSample.settles
    samples).insertionSort MarketSample.symbolOrder

section Loading
variable (decode : String → Option (MarketSample F)) (path : String) (targetKeys : List String)
  (sinceTs : F)

/-- The sample of a line that holds one which is recent enough, under its normalised names. The JSON
decoder is that of the file. -/
def sampleOfLine (line : String) : Option (MarketSample F) :=
  if (trim line).isEmpty then none
  else
    match decode line with
    | none => none
    | some sample =>
      if sample.observationTimeContract ≠ marketDatalakeSchemaVersion then none
      else
        let sample : MarketSample F :=
          { sample with
            exchange := normalizeExchange sample.exchange
            symbol := normalizeSymbol sample.symbol }
        if sample.capturedTs + Scalar.epsilon < sinceTs then none else some sample

/-- The loop over the lines. -/
def loadLines : List (Except String String) → Except String (List (MarketSample F))
  | [] => .ok []
  | .error error :: _ => .error ("failed reading market datalake file " ++ path ++ ": " ++ error)
  | .ok line :: lines =>
    match sampleOfLine decode sinceTs line with
    | none => loadLines lines
    | some sample =>
      if targetKeys.contains sample.key then (loadLines lines).map (sample :: ·) else loadLines lines

def loadSamplesFromFile : LakeFile → Except String (List (MarketSample F))
  | .notFound => .ok []
  | .failed error => .error ("failed to open market datalake file " ++ path ++ ": " ++ error)
  | .opened lines => (loadLines decode path targetKeys sinceTs lines).map dedupeSamples

/-- What `ensure_symbols_loaded` puts in the cache: nothing if the load fails. -/
def loaded (file : LakeFile) : List (MarketSample F) :=
  (loadSamplesFromFile decode path targetKeys sinceTs file).toOption.getD []

/-- The lines of a file that can be read to its end. -/
def LakeFile.texts : LakeFile → List String
  | .opened lines => (lines.mapM id).toOption.getD []
  | _ => []

/-- The samples in the file that are recent enough, of all markets. -/
def LakeFile.observed (file : LakeFile) : List (MarketSample F) :=
  file.texts.filterMap (sampleOfLine decode sinceTs)

/-- The markets are loaded together as each would be alone, and with the latest sample of each
bucket. -/
structure LoadsEachSymbol (file : LakeFile) : Prop where
  union : ∀ sample, sample ∈ loaded decode path targetKeys sinceTs file ↔
    ∃ key ∈ targetKeys, sample ∈ loaded decode path [key] sinceTs file
  latest : ∀ sample ∈ file.observed decode sinceTs, sample.key ∈ targetKeys →
    ∃ kept ∈ loaded decode path targetKeys sinceTs file,
      kept.exchange = sample.exchange ∧ kept.symbol = sample.symbol ∧
        kept.capturedBucket = sample.capturedBucket ∧ sample.capturedTs ≤ kept.capturedTs

/-- Two of the markets have a sample in one bucket. -/
def SharesBucket (file : LakeFile) : Prop :=
  ∃ sample ∈ file.observed decode sinceTs, ∃ other ∈ file.observed decode sinceTs,
    sample.key ∈ targetKeys ∧ other.key ∈ targetKeys ∧ sample.key ≠ other.key ∧
      sample.capturedBucket = other.capturedBucket

end Loading

section Lemmas
variable {decode : String → Option (MarketSample F)} {path : String} {targetKeys : List String}
  {sinceTs : F} {file : LakeFile} {sample other : MarketSample F}

/-- The loop stops at an error, and otherwise leaves out what is not asked for. -/
theorem loadLines_eq (lines : List (Except String String)) :
    (loadLines decode path targetKeys sinceTs lines).toOption =
      (lines.mapM id).toOption.map fun texts =>
        (texts.filterMap (sampleOfLine decode sinceTs)).filter fun sample =>
          targetKeys.contains sample.key := by
  induction lines with
  | nil => rfl
  | cons line lines ih =>
    rw [List.mapM_cons]
    cases line with
    | error error => rfl
    | ok line =>
      have hrest : (do
          let text ← id (Except.ok line : Except String String)
          let texts ← lines.mapM id
          pure (text :: texts)).toOption = (lines.mapM id).toOption.map (line :: ·) := by
        cases lines.mapM id <;> rfl
      rw [hrest, loadLines, Option.map_map]
      cases hs : sampleOfLine decode sinceTs line with
      | none =>
        rw [ih]
        refine Option.map_congr fun texts _ => ?_
        simp [hs]
      | some sample =>
        by_cases hc : targetKeys.contains sample.key = true
        · have hmap : ((loadLines decode path targetKeys sinceTs lines).map (sample :: ·)).toOption =
              (loadLines decode path targetKeys sinceTs lines).toOption.map (sample :: ·) := by
            cases loadLines decode path targetKeys sinceTs lines <;> rfl
          simp only [if_pos hc, hmap, ih, Option.map_map]
          refine Option.map_congr fun texts _ => ?_
          simp only [Function.comp, List.filterMap_cons, hs, List.filter_cons, if_pos hc]
        · simp only [if_neg hc, ih]
          refine Option.map_congr fun texts _ => ?_
          simp only [Function.comp, List.filterMap_cons, hs, List.filter_cons, if_neg hc]

theorem loaded_eq : loaded decode path targetKeys sinceTs file =
    dedupeSamples ((file.observed decode sinceTs).filter fun sample =>
      targetKeys.contains sample.key) := by
  cases file with
  | notFound => rfl
  | failed error => rfl
  | opened lines =>
    have hmap : ((loadLines decode path targetKeys sinceTs lines).map dedupeSamples).toOption =
        (loadLines decode path targetKeys sinceTs lines).toOption.map dedupeSamples := by
      cases loadLines decode path targetKeys sinceTs lines <;> rfl
    rw [loaded, loadSamplesFromFile, hmap, loadLines_eq, LakeFile.observed, LakeFile.texts]
    cases (lines.mapM id).toOption <;> rfl

theorem mem_dedupeSamples {samples : List (MarketSample F)} :
    sample ∈ dedupeSamples samples ↔
      sample ∈ latestByKey MarketSample.capturedBucket MarketSample.settles samples :=
  (List.perm_insertionSort _ _).mem_iff

theorem mem_loaded (h : sample ∈ loaded decode path targetKeys sinceTs file) :
    sample ∈ file.observed decode sinceTs ∧ sample.key ∈ targetKeys := by
  rw [loaded_eq, mem_dedupeSamples] at h
  obtain ⟨hm, hk⟩ := List.mem_filter.mp (mem_latestByKey h)
  exact ⟨hm, List.contains_iff_mem.mp hk⟩

/-- A load keeps one sample of a bucket. -/
theorem loaded_bucket_inj (h : sample ∈ loaded decode path targetKeys sinceTs file)
    (ho : other ∈ loaded decode path targetKeys sinceTs file)
    (hb : sample.capturedBucket = other.capturedBucket) : sample = other := by
  rw [loaded_eq, mem_dedupeSamples] at h ho
  exact List.inj_on_of_nodup_map (nodup_latestByKey _) h ho hb

theorem observed_names (h : sample ∈ file.observed decode sinceTs) :
    ∃ exchange symbol, sample.exchange = normalizeExchange exchange ∧
      sample.symbol = normalizeSymbol symbol := by
  obtain ⟨line, -, hl⟩ := List.mem_filterMap.mp h
  unfold sampleOfLine at hl
  split_ifs at hl
  split at hl
  · cases hl
  · next raw _ =>
    dsimp only at hl
    split_ifs at hl
    injection hl with hl
    subst hl
    refine ⟨raw.exchange, raw.symbol, ?_, ?_⟩ <;> dsimp only

/-- Samples of the file with one key are of one market. -/
theorem observed_key_inj (h : sample ∈ file.observed decode sinceTs)
    (ho : other ∈ file.observed decode sinceTs) (hk : sample.key = other.key) :
    sample.exchange = other.exchange ∧ sample.symbol = other.symbol := by
  obtain ⟨exchange, symbol, he, hs⟩ := observed_names h
  obtain ⟨another, name, hae, has⟩ := observed_names ho
  rw [MarketSample.key, MarketSample.key, he, hs, hae, has] at hk
  rw [he, hs, hae, has]
  exact marketFeatureKey_inj hk

/-- Markets that share no bucket are loaded together as they are alone. -/
theorem loaded_of_not_sharesBucket
    (h : ¬ SharesBucket decode targetKeys sinceTs file) (hk : sample.key ∈ targetKeys) :
    sample ∈ loaded decode path targetKeys sinceTs file ↔
      sample ∈ loaded decode path [sample.key] sinceTs file := by
  have hunshared : ∀ a ∈ (file.observed decode sinceTs).filter fun sample =>
        targetKeys.contains sample.key,
      ∀ b ∈ (file.observed decode sinceTs).filter fun sample => targetKeys.contains sample.key,
      a.capturedBucket = b.capturedBucket →
        [sample.key].contains a.key = [sample.key].contains b.key := by
    intro a ha b hb hab
    obtain ⟨ha, hak⟩ := List.mem_filter.mp ha
    obtain ⟨hb, hbk⟩ := List.mem_filter.mp hb
    have hkey : a.key = b.key := by
      by_contra hne
      exact h ⟨a, ha, b, hb, List.contains_iff_mem.mp hak, List.contains_iff_mem.mp hbk, hne, hab⟩
    rw [hkey]
  have hpart : ((file.observed decode sinceTs).filter fun sample =>
        targetKeys.contains sample.key).filter (fun other => [sample.key].contains other.key) =
      (file.observed decode sinceTs).filter fun other => [sample.key].contains other.key := by
    rw [List.filter_filter]
    apply List.filter_congr
    intro other _
    by_cases ho : other.key = sample.key
    · simp [ho, hk]
    · simp [ho]
  have hfilter := filter_latestByKey MarketSample.capturedBucket MarketSample.settles hunshared
  rw [hpart] at hfilter
  rw [loaded_eq, loaded_eq, mem_dedupeSamples, mem_dedupeSamples, ← hfilter, List.mem_filter]
  simp

section Order
variable [LawfulTimes F]

theorem settles_total (sample other : MarketSample F) :
    sample.settles other = true ∨ other.settles sample = true := by
  simp only [MarketSample.settles, decide_eq_true_eq]
  exact (sample.ts_total other).symm

theorem settles_trans (sample other another : MarketSample F) (h : sample.settles other = true)
    (ho : other.settles another = true) : sample.settles another = true := by
  simp only [MarketSample.settles, decide_eq_true_eq] at h ho ⊢
  exact LawfulTimes.trans ho h

/-- A load has a sample of each bucket of the file that it asks for, and none of it is later. -/
theorem exists_loaded (path : String) (h : sample ∈ file.observed decode sinceTs) (hk : sample.key ∈ targetKeys) :
    ∃ kept ∈ loaded decode path targetKeys sinceTs file,
      kept.capturedBucket = sample.capturedBucket ∧ sample.capturedTs ≤ kept.capturedTs := by
  rw [loaded_eq]
  have hm : sample ∈ (file.observed decode sinceTs).filter fun sample =>
      targetKeys.contains sample.key :=
    List.mem_filter.mpr ⟨h, List.contains_iff_mem.mpr hk⟩
  obtain ⟨kept, hkept, hb, hs⟩ : ∃ kept ∈ latestByKey MarketSample.capturedBucket
      MarketSample.settles ((file.observed decode sinceTs).filter fun sample =>
        targetKeys.contains sample.key),
      kept.capturedBucket = sample.capturedBucket ∧ kept.settles sample = true :=
    settles_latestByKey settles_total settles_trans hm
  exact ⟨kept, mem_dedupeSamples.mpr hkept, hb, of_decide_eq_true hs⟩

end Order

end Lemmas

section Sample

/-- A sample with a bucket of a minute. -/
def sampleAt (symbol : String) (ts : ℚ) : MarketSample ℚ where
  observationTimeContract := 3
  exchange := "binance"
  symbol := symbol
  capturedTs := ts
  capturedBucket := timeBucket ts 60
  price := 100
  finite := isFinite_rat ts

def btcLine : String :=
  "\x7b\"observation_time_contract\":3,\"exchange\":\"binance\",\"symbol\":\"BTC/USDT\",\"captured_ts\":61.0,\"captured_bucket\":1,\"price\":100.0\x7d"

def ethLine : String :=
  "\x7b\"observation_time_contract\":3,\"exchange\":\"binance\",\"symbol\":\"ETH/USDT\",\"captured_ts\":62.0,\"captured_bucket\":1,\"price\":100.0\x7d"

def laterEthLine : String :=
  "\x7b\"observation_time_contract\":3,\"exchange\":\"binance\",\"symbol\":\"ETH/USDT\",\"captured_ts\":122.0,\"captured_bucket\":2,\"price\":100.0\x7d"

def decodeSample (line : String) : Option (MarketSample ℚ) :=
  if line = btcLine then some (sampleAt "BTC/USDT" 61)
  else if line = ethLine then some (sampleAt "ETH/USDT" 62)
  else if line = laterEthLine then some (sampleAt "ETH/USDT" 122)
  else none

theorem names_normalized : normalizeSymbol "BTC/USDT" = "BTC/USDT" ∧
    normalizeSymbol "ETH/USDT" = "ETH/USDT" ∧ normalizeExchange "binance" = "binance" := by decide +kernel

/-- A line of the file is loaded as the sample that it was written for. -/
theorem sampleOfLine_sampleAt {decode : String → Option (MarketSample ℚ)} {line symbol : String}
    {ts : ℚ} (hl : ∃ chars, line = String.ofList ('\x7b' :: chars)) (hd : decode line = some (sampleAt symbol ts))
    (hn : normalizeSymbol symbol = symbol) (ht : 0 ≤ ts) :
    sampleOfLine decode 0 line = some (sampleAt symbol ts) := by
  obtain ⟨-, -, hex⟩ := names_normalized
  have hrecent : ¬ ts + Scalar.epsilon < 0 := by
    have hpos : (0 : ℚ) < Scalar.epsilon := by decide +kernel
    exact not_lt.mpr (add_nonneg ht hpos.le)
  have hm : '\x7b' ∈ line.toList := by
    obtain ⟨chars, rfl⟩ := hl
    rw [String.toList_ofList]
    exact List.mem_cons_self
  rw [sampleOfLine, trim_not_isEmpty hm (by decide), if_neg Bool.false_ne_true, hd]
  simp only [sampleAt, hex, hn, if_neg hrecent]
  rfl

set_option maxRecDepth 2048 in
theorem sampleOfLine_btc : sampleOfLine decodeSample 0 btcLine = some (sampleAt "BTC/USDT" 61) :=
  sampleOfLine_sampleAt ⟨_, rfl⟩ (by simp [decodeSample]) names_normalized.1 (by norm_num)

set_option maxRecDepth 2048 in
theorem sampleOfLine_eth : sampleOfLine decodeSample 0 ethLine = some (sampleAt "ETH/USDT" 62) :=
  sampleOfLine_sampleAt ⟨_, rfl⟩ (by simp [decodeSample, btcLine, ethLine]) names_normalized.2.1
    (by norm_num)

set_option maxRecDepth 2048 in
theorem sampleOfLine_laterEth :
    sampleOfLine decodeSample 0 laterEthLine = some (sampleAt "ETH/USDT" 122) :=
  sampleOfLine_sampleAt ⟨_, rfl⟩ (by simp [decodeSample, btcLine, ethLine, laterEthLine]) names_normalized.2.1
    (by norm_num)

end Sample

end Gail.Datalake
