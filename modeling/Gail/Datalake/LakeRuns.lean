import Gail.Datalake.SampleCache
import Gail.Library.Run

/-! Runs of the lake: live samples, loads from the file and from the mirror, and restarts with other
settings. -/
namespace Gail.Datalake
open Gail.Library Gail.Trading

/-- The tasks of the mirror worker that move samples. -/
inductive PostgresMirrorTask (F : Type) [LakeScalar F] where
  | persist (samples : List (MarketSample F))
  | loadSymbols (symbols : List (String × String)) (sinceTs : F)

/-- What a load has read and not yet merged. -/
structure PendingLoad (F : Type) [LakeScalar F] where
  fromMirror : Bool
  samples : List (MarketSample F)

/-- The lake of one process, with the file and the mirror that outlive it. -/
structure LakeWorld (F : Type) [LakeScalar F] where
  config : MarketDataLakeConfig
  file : LakeFile
  mirror : List (MarketSample F)
  samplesBySymbol : SampleCache F
  loadedSymbols : List String
  tasks : List (PostgresMirrorTask F)
  pending : List (PendingLoad F)

inductive LakeEvent (F : Type) where
  /-- `ingest_snapshots`, each snapshot with the time at which it is looked at. -/
  | ingest (snapshots : List (MarketSnapshot F × F)) (appended : Bool) (queuedBatches : Nat)
  /-- `ensure_symbols_loaded` up to the end of its reading. -/
  | ensureSymbolsLoaded (symbols : List (String × String)) (now : F) (queued : Bool)
  /-- The worker takes a task: how many samples it could write, and which queries were answered. -/
  | mirrorTask (persisted : Nat) (answered : String × String → Bool)
  /-- A load that has been read gets the lock. -/
  | merge (index : Nat)
  | prune (cutoff : F)
  /-- The file becomes another one, torn lines and all. -/
  | disk (file : LakeFile)
  | restart (config : MarketDataLakeConfig)

/-- An append creates the file and fails on one that cannot be opened. -/
def LakeFile.append (lines : List String) : LakeFile → LakeFile
  | .notFound => .opened (lines.map .ok)
  | .failed error => .failed error
  | .opened before => .opened (before ++ lines.map .ok)

section Steps
variable {F : Type} [LakeScalar F]

/-- `MARKET_DATALAKE_POSTGRES_MIRROR_BATCH_SIZE`. -/
def postgresMirrorBatchSize : Nat := 500

/-- The order of `ingest_snapshots`. -/
def MarketSample.ingestOrder (left right : MarketSample F) : Prop :=
  left.key < right.key ∨ left.key = right.key ∧ left.capturedBucket ≤ right.capturedBucket

instance : DecidableRel (MarketSample.ingestOrder (F := F)) := fun _ _ =>
  inferInstanceAs (Decidable (_ ∨ _))

/-- The samples of some snapshots, one for each market and bucket. -/
def ingestedSamples (bucketSeconds : Nat) (snapshots : List (MarketSnapshot F × F)) :
    List (MarketSample F) :=
  (latestByKey (fun sample => (sample.key, sample.capturedBucket)) MarketSample.settles
    (snapshots.filterMap fun (snapshot, now) =>
      sampleFromSnapshot snapshot bucketSeconds now)).insertionSort MarketSample.ingestOrder

/-- The upsert of `persist_samples_postgres`. -/
def upsertSample (rows : List (MarketSample F)) (sample : MarketSample F) : List (MarketSample F) :=
  rows.filter (fun row => !(row.exchange == sample.exchange && row.symbol == sample.symbol &&
    row.capturedBucket == sample.capturedBucket)) ++ [sample]

def loadSamplesFromPostgres (rows : List (MarketSample F)) (exchange symbol : String) (sinceTs : F) :
    List (MarketSample F) :=
  (((rows.filter fun row => row.symbol == normalizeSymbol symbol &&
      decide (sinceTs ≤ row.capturedTs) &&
        row.observationTimeContract == (marketDatalakeSchemaVersion : Int)).insertionSort
      fun left right => left.capturedBucket ≤ right.capturedBucket).map fun row =>
        { row with
          exchange := normalizeExchange row.exchange
          symbol := normalizeSymbol row.symbol }).filter fun sample =>
      sample.exchange == normalizeExchange exchange

/-- The markets that were not loaded before, under their keys. -/
def newTargets : List String → List (String × String) → List (String × String × String)
  | _, [] => []
  | loaded, (exchange, symbol) :: symbols =>
    let exchange := normalizeExchange exchange
    let symbol := normalizeSymbol symbol
    let key := marketFeatureKey exchange symbol
    if key ∈ loaded then newTargets loaded symbols
    else (key, exchange, symbol) :: newTargets (key :: loaded) symbols

namespace LakeWorld
variable (decode : String → Option (MarketSample F)) (encode : MarketSample F → String) (path : String)

def start (config : MarketDataLakeConfig) (file : LakeFile) (mirror : List (MarketSample F)) :
    LakeWorld F where
  config
  file
  mirror
  samplesBySymbol := fun _ => []
  loadedSymbols := []
  tasks := []
  pending := []

def merged (w : LakeWorld F) (replaceExistingBucket : Bool) (samples : List (MarketSample F)) :
    SampleCache F :=
  mergeSamplesWithPrecedence (w.config.cacheHorizonSeconds F) replaceExistingBucket w.samplesBySymbol
    samples

def ingestSnapshots (w : LakeWorld F) (snapshots : List (MarketSnapshot F × F)) (appended : Bool)
    (queuedBatches : Nat) : LakeWorld F :=
  let samples := ingestedSamples w.config.bucketSeconds snapshots
  if samples.isEmpty then w
  else
    let w := { w with samplesBySymbol := w.merged true samples }
    if appended then
      { w with
        file := w.file.append (samples.map encode)
        tasks := w.tasks ++
          ((samples.toChunks postgresMirrorBatchSize).take queuedBatches).map .persist }
    else w

/-- What `ensure_symbols_loaded` reads of the file. -/
def fileLoad (w : LakeWorld F) (symbols : List (String × String)) (now : F) : List (MarketSample F) :=
  let targets := newTargets w.loadedSymbols symbols
  if targets.isEmpty then []
  else
    loaded decode path (targets.map Prod.fst) (now - w.config.retentionSeconds F) w.file

def ensureSymbolsLoaded (w : LakeWorld F) (symbols : List (String × String)) (now : F)
    (queued : Bool) : LakeWorld F :=
  let targets := newTargets w.loadedSymbols symbols
  if targets.isEmpty then w
  else
    { w with
      loadedSymbols := targets.map Prod.fst ++ w.loadedSymbols
      pending := w.pending ++ [{ fromMirror := false, samples := w.fileLoad decode path symbols now }]
      tasks :=
        if queued then
          w.tasks ++ [.loadSymbols (targets.map Prod.snd) (now - w.config.retentionSeconds F)]
        else w.tasks }

/-- What the worker reads of the mirror for the task that it takes. -/
def mirrorLoad (w : LakeWorld F) (answered : String × String → Bool) : List (MarketSample F) :=
  match w.tasks with
  | .loadSymbols symbols sinceTs :: _ =>
    dedupeSamplesBySymbol (symbols.flatMap fun symbol =>
      if answered symbol then loadSamplesFromPostgres w.mirror symbol.1 symbol.2 sinceTs else [])
  | _ => []

def mirrorTask (w : LakeWorld F) (persisted : Nat) (answered : String × String → Bool) : LakeWorld F :=
  match w.tasks with
  | [] => w
  | .persist samples :: tasks =>
    { w with mirror := (samples.take persisted).foldl upsertSample w.mirror, tasks }
  | .loadSymbols _ _ :: tasks =>
    { w with
      pending := w.pending ++ [{ fromMirror := true, samples := w.mirrorLoad answered }]
      tasks }

def merge (w : LakeWorld F) (index : Nat) : LakeWorld F :=
  match w.pending[index]? with
  | none => w
  | some load =>
    { w with
      samplesBySymbol := w.merged (!load.fromMirror) load.samples
      pending := w.pending.eraseIdx index }

def next (w : LakeWorld F) : LakeEvent F → LakeWorld F
  | .ingest snapshots appended queuedBatches =>
    w.ingestSnapshots encode snapshots appended queuedBatches
  | .ensureSymbolsLoaded symbols now queued => w.ensureSymbolsLoaded decode path symbols now queued
  | .mirrorTask persisted answered => w.mirrorTask persisted answered
  | .merge index => w.merge index
  | .prune cutoff => { w with mirror := w.mirror.filter fun row => !decide (row.capturedTs < cutoff) }
  | .disk file => { w with file }
  | .restart config => start config w.file w.mirror

/-- What an event reads was put in buckets of the length that the process has. -/
def Consistent (w : LakeWorld F) : LakeEvent F → Prop
  | .ensureSymbolsLoaded symbols now _ =>
    ∀ sample ∈ w.fileLoad decode path symbols now, sample.Bucketed w.config.bucketSeconds
  | .mirrorTask _ answered => ∀ sample ∈ w.mirrorLoad answered, sample.Bucketed w.config.bucketSeconds
  | _ => True

/-- If the event merges a mirror load, no sample that it finds gives way to another of its bucket. -/
def MirrorKeeps (w : LakeWorld F) (event : LakeEvent F) : Prop :=
  ∀ index load, event = .merge index → w.pending[index]? = some load → load.fromMirror = true →
    ∀ key, ∀ old ∈ w.samplesBySymbol key, ∀ new ∈ (w.merge index).samplesBySymbol key,
      new.capturedBucket = old.capturedBucket → new = old

end LakeWorld

/-- The samples of a market as their readers take them to be. -/
structure InOrder (deque : List (MarketSample F)) : Prop where
  times : deque.Pairwise fun sample other => sample.capturedTs ≤ other.capturedTs
  buckets : (deque.map MarketSample.capturedBucket).Nodup
  newest : ∀ last ∈ deque.getLast?, ∀ sample ∈ deque, sample.capturedTs ≤ last.capturedTs

end Steps

section Invariant
variable {F : Type} [LakeScalar F]

theorem ingestedSamples_bucketed {bucketSeconds : Nat} {snapshots : List (MarketSnapshot F × F)}
    {sample : MarketSample F} (h : sample ∈ ingestedSamples bucketSeconds snapshots) :
    sample.Bucketed bucketSeconds := by
  have hm := mem_latestByKey ((List.perm_insertionSort _ _).mem_iff.mp h)
  obtain ⟨⟨snapshot, now⟩, -, hs⟩ := List.mem_filterMap.mp hm
  exact sampleFromSnapshot_bucketed hs

/-- What the lake holds and is about to merge was put in buckets of the length that it has. -/
structure LakeWorld.Bucketed (w : LakeWorld F) : Prop where
  cached : ∀ key, ∀ sample ∈ w.samplesBySymbol key, sample.Bucketed w.config.bucketSeconds
  ranked : ∀ key, InBuckets (w.samplesBySymbol key)
  pending : ∀ load ∈ w.pending, ∀ sample ∈ load.samples, sample.Bucketed w.config.bucketSeconds
  mirror : ∀ load ∈ w.pending, load.fromMirror = true → MirrorOrder load.samples

namespace LakeWorld
variable {decode : String → Option (MarketSample F)} {encode : MarketSample F → String}
  {path : String} {w : LakeWorld F}

theorem start_bucketed (config : MarketDataLakeConfig) (file : LakeFile)
    (mirror : List (MarketSample F)) : (start config file mirror).Bucketed where
  cached _ _ h := by cases h
  ranked _ := List.Pairwise.nil
  pending _ h := by cases h
  mirror _ h := by cases h

/-- Samples in the buckets of the lake may be merged into it. -/
theorem Bucketed.merged (h : w.Bucketed) (replaceExisting : Bool) {samples : List (MarketSample F)}
    (hs : ∀ sample ∈ samples, sample.Bucketed w.config.bucketSeconds) :
    { w with samplesBySymbol := w.merged replaceExisting samples }.Bucketed where
  cached key sample hm := by
    rcases mem_mergeSamplesWithPrecedence hm with hm | hm
    · exact h.cached key sample hm
    · exact hs sample hm
  ranked := mergeSamplesWithPrecedence_inBuckets h.ranked
  pending := h.pending
  mirror := h.mirror

/-- A load that was read in the buckets of the lake may wait to be merged. -/
theorem Bucketed.wait (h : w.Bucketed) (load : PendingLoad F)
    (hs : ∀ sample ∈ load.samples, sample.Bucketed w.config.bucketSeconds)
    (ho : load.fromMirror = true → MirrorOrder load.samples) :
    { w with pending := w.pending ++ [load] }.Bucketed where
  cached := h.cached
  ranked := h.ranked
  pending other hm := by
    rcases List.mem_append.mp hm with hm | hm
    · exact h.pending other hm
    · rw [List.mem_singleton.mp hm]
      exact hs
  mirror other hm := by
    rcases List.mem_append.mp hm with hm | hm
    · exact h.mirror other hm
    · rw [List.mem_singleton.mp hm]
      exact ho

/-- Files, rows, tasks and the list of loaded markets are of no matter to what is held. -/
theorem Bucketed.outside (h : w.Bucketed) (file : LakeFile) (mirror : List (MarketSample F))
    (loadedSymbols : List String) (tasks : List (PostgresMirrorTask F)) :
    { w with file, mirror, loadedSymbols, tasks }.Bucketed := ⟨h.cached, h.ranked, h.pending, h.mirror⟩

theorem Bucketed.merge (h : w.Bucketed) (index : Nat) : (w.merge index).Bucketed := by
  unfold LakeWorld.merge
  cases hl : w.pending[index]? with
  | none => exact h
  | some load =>
    have hm := List.mem_of_getElem? hl
    have hmerged := h.merged (!load.fromMirror) (h.pending load hm)
    exact ⟨hmerged.cached, hmerged.ranked, fun other ho => h.pending other (List.mem_of_mem_eraseIdx ho),
      fun other ho => h.mirror other (List.mem_of_mem_eraseIdx ho)⟩

/-- Every event that reads consistent buckets keeps the lake in them. -/
theorem Bucketed.next (h : w.Bucketed) {event : LakeEvent F} (hc : w.Consistent decode path event) :
    (w.next decode encode path event).Bucketed := by
  cases event with
  | ingest snapshots appended queuedBatches =>
    simp only [LakeWorld.next, ingestSnapshots]
    have hs : ∀ sample ∈ ingestedSamples w.config.bucketSeconds snapshots,
        sample.Bucketed w.config.bucketSeconds := fun _ => ingestedSamples_bucketed
    have hm := h.merged true hs
    split_ifs
    · exact h
    · exact hm.outside _ _ _ _
    · exact hm
  | ensureSymbolsLoaded symbols now queued =>
    simp only [LakeWorld.next, LakeWorld.ensureSymbolsLoaded]
    by_cases ht : (newTargets w.loadedSymbols symbols).isEmpty = true
    · rw [if_pos ht]
      exact h
    · rw [if_neg ht]
      have hwait := h.wait ⟨false, w.fileLoad decode path symbols now⟩ hc (by simp)
      exact hwait.outside w.file w.mirror _ _
  | mirrorTask persisted answered =>
    simp only [LakeWorld.next, LakeWorld.mirrorTask]
    split
    · exact h
    · exact h.outside _ _ _ _
    · next symbols sinceTs tasks ht =>
      have ho : MirrorOrder (w.mirrorLoad answered) := by
        rw [mirrorLoad, ht]
        exact dedupeSamplesBySymbol_mirrorOrder _
      have hwait := h.wait ⟨true, w.mirrorLoad answered⟩ hc fun _ => ho
      exact hwait.outside w.file w.mirror _ _
  | merge index => exact h.merge index
  | prune cutoff => exact h.outside _ _ _ _
  | disk file => exact h.outside _ _ _ _
  | restart config => exact start_bucketed config w.file w.mirror

variable [LawfulTimes F]

/-- Buckets of one length tell the order of the times. -/
theorem Bucketed.inOrder (h : w.Bucketed) (key : String) : InOrder (w.samplesBySymbol key) := by
  have hpos : 0 < w.config.bucketSeconds := w.config.bucketSeconds_pos
  have hcached := h.cached key
  have hranked := h.ranked key
  refine ⟨hranked.imp_of_mem fun ha hb hlt => ?_, hranked.nodup, fun last hl sample hm => ?_⟩
  · exact MarketSample.ts_le_of_bucket_lt hpos (hcached _ ha) (hcached _ hb) hlt
  · have hlast : last ∈ w.samplesBySymbol key := List.mem_of_getLast? hl
    rcases (hranked.le_getLast hl hm).lt_or_eq with hlt | heq
    · exact MarketSample.ts_le_of_bucket_lt hpos (hcached _ hm) (hcached _ hlast) hlt
    · rw [hranked.inj hm hlast heq]
      exact last.ts_refl

theorem Bucketed.mirrorKeeps (h : w.Bucketed) (event : LakeEvent F) : w.MirrorKeeps event := by
  rintro index load - hl hmirror key old hold new hnew hb
  have hm := List.mem_of_getElem? hl
  have hmerge : (w.merge index).samplesBySymbol = w.merged false load.samples := by
    rw [LakeWorld.merge, hl]
    simp only [hmirror, Bool.not_true]
  rw [hmerge] at hnew
  exact (mirror_keeps_found w.config.bucketSeconds_pos w.config.cacheHorizonSeconds_nonneg h.cached
    h.ranked (h.pending load hm) (h.mirror load hm hmirror) hold).2 new hnew hb

end LakeWorld

end Invariant

section Restart

/-- A sample that a run with buckets of a minute has written. -/
def minuteLine : String :=
  "\x7b\"observation_time_contract\":3,\"exchange\":\"binance\",\"symbol\":\"BTC/USDT\",\"captured_ts\":86340.0,\"captured_bucket\":1439,\"price\":100.0\x7d"

def decodeMinute (line : String) : Option (MarketSample ℚ) :=
  if line = minuteLine then some (sampleAt "BTC/USDT" 86340) else none

def encodeMinute (_ : MarketSample ℚ) : String := minuteLine

/-- A day of history, and windows of one minute, one hour and a month. -/
def lakeWithBuckets (bucketSeconds : Nat) : MarketDataLakeConfig :=
  .fromTradingConfig 1 bucketSeconds 1 1 30 2

def liveSnapshot : MarketSnapshot ℚ where
  exchange := "binance"
  symbol := "BTC/USDT"
  price := 101
  fetchedAt := 86460

/-- The market is loaded from the file, and then comes a live observation of it. -/
def reloadEvents : List (LakeEvent ℚ) :=
  [.ensureSymbolsLoaded [("binance", "BTC/USDT")] 86400 false, .merge 0,
    .ingest [(liveSnapshot, 86460)] true 0]

def reloaded (bucketSeconds : Nat) : LakeWorld ℚ :=
  .start (lakeWithBuckets bucketSeconds) (.opened [.ok minuteLine]) []

set_option maxRecDepth 2048 in
theorem reloaded_fileLoad (bucketSeconds : Nat) :
    (reloaded bucketSeconds).fileLoad decodeMinute "lake.jsonl" [("binance", "BTC/USDT")] 86400 =
      [sampleAt "BTC/USDT" 86340] := by
  have htargets : newTargets (reloaded bucketSeconds).loadedSymbols [("binance", "BTC/USDT")] =
      [("binance|BTC/USDT", "binance", "BTC/USDT")] := by
    change newTargets [] _ = _
    decide +kernel
  have hsince : (86400 : ℚ) - (reloaded bucketSeconds).config.retentionSeconds ℚ = 0 := by
    change (86400 : ℚ) - (1 : Nat) * 86400.0 = 0
    norm_num
  have hline : sampleOfLine decodeMinute 0 minuteLine = some (sampleAt "BTC/USDT" 86340) :=
    sampleOfLine_sampleAt ⟨_, rfl⟩ (by simp [decodeMinute]) names_normalized.1 (by norm_num)
  have hobserved : (LakeFile.opened [.ok minuteLine]).observed decodeMinute 0 =
      [sampleAt "BTC/USDT" 86340] := by
    change [minuteLine].filterMap (sampleOfLine decodeMinute 0) = _
    rw [List.filterMap_cons, hline]
    rfl
  rw [LakeWorld.fileLoad, htargets, hsince]
  change loaded decodeMinute "lake.jsonl" ["binance|BTC/USDT"] 0 (.opened [.ok minuteLine]) = _
  rw [loaded_eq, hobserved]
  decide +kernel

end Restart

end Gail.Datalake
