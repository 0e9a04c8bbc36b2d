import Gail.Library.Saturating
import Gail.Library.Text
import Gail.Trading.Scalar
import Std.Data.TreeMap

/-! What the metrics store keeps, and the changes that its recording operations make. -/
namespace Gail.Metrics
open Gail.Library Gail.Trading

structure RequestFlowMetrics where
  received : Nat := 0
  queued : Nat := 0
  inProgress : Nat := 0
  replied : Nat := 0
  failed : Nat := 0
  timedOut : Nat := 0
  deriving DecidableEq

structure OrchestrationEventMetrics where
  candidateSelections : Nat := 0
  capacityRaces : Nat := 0
  queueWaits : Nat := 0
  queueWaitTotalMs : Nat := 0
  queueWaitTimeouts : Nat := 0
  timeouts : Nat := 0
  fallbacks : Nat := 0
  emptyPlans : Nat := 0
  deriving DecidableEq

structure TradingSemanticMetrics where
  responses : Nat := 0
  parsedValid : Nat := 0
  invalidJson : Nat := 0
  invalidShape : Nat := 0
  incomplete : Nat := 0
  providerFailures : Nat := 0
  deriving DecidableEq

/-- A total with its average, extremes and moving average. -/
structure LatencyStats (F : Type) where
  totalMs : Nat := 0
  averageMs : Option F := none
  minMs : Option Nat := none
  maxMs : Option Nat := none
  ewmaMs : Option F := none
  deriving DecidableEq

structure AiResponseTimeStats (F : Type) where
  requests : Nat := 0
  successes : Nat := 0
  failures : Nat := 0
  /-- The fields `total_latency_ms` to `ewma_latency_ms`, over all requests. -/
  latency : LatencyStats F := {}
  successfulLatencySamples : Nat := 0
  successfulLatency : LatencyStats F := {}
  failedLatencySamples : Nat := 0
  failedLatency : LatencyStats F := {}
  lastLatencyMs : Option Nat := none
  totalPromptTokens : Nat := 0
  averagePromptTokens : Option F := none
  ewmaPromptTokens : Option F := none
  updatedAt : Option F := none
  deriving DecidableEq

structure StatsBucket (F : Type) [Scalar F] where
  successes : Nat := 0
  failures : Nat := 0
  total : Nat := 0
  /-- The fields `total_latency_ms` to `ewma_latency_ms`, aliases of the successful ones. -/
  latency : LatencyStats F := {}
  successfulLatencySamples : Nat := 0
  successfulLatency : LatencyStats F := {}
  failedLatencySamples : Nat := 0
  failedLatency : LatencyStats F := {}
  staleFailures : Nat := 0
  queueWaitSamples : Nat := 0
  /-- The fields `queue_wait_total_ms` to `queue_wait_max_ms` and `ewma_queue_wait_ms`. -/
  queueWait : LatencyStats F := {}
  ewmaInferenceMs : Option F := none
  ewmaPromptTokens : Option F := none
  ewmaTokensEstimate : Option F := none
  ewmaCompletionTokens : Option F := none
  generationTokensPerSecondSamples : Nat := 0
  generationTokensPerSecondTotal : F := 0.0
  generationTokensPerSecondAverage : Option F := none
  generationTokensPerSecondMin : Option F := none
  generationTokensPerSecondMax : Option F := none
  generationTokensPerSecondEwma : Option F := none
  ewmaQuality : F := 0.0
  lastStatus : Option String := none
  lastError : Option String := none
  updatedAt : Option F := none

structure HealthBucket (F : Type) where
  ok : Option Bool := none
  mode : Option String := none
  checkedAt : Option F := none
  latencyMs : Option Nat := none
  message : Option String := none

structure CandidateBucket (F : Type) [Scalar F] where
  provider : Option String := none
  model : Option String := none
  configuredModel : Option String := none
  resolvedModel : Option String := none
  hostId : Option String := none
  specialties : List String := []
  stats : StatsBucket F := {}
  roles : Std.TreeMap String (StatsBucket F) := ∅
  health : HealthBucket F := {}

structure MetricsData (F : Type) [Scalar F] where
  candidates : Std.TreeMap String (CandidateBucket F) := ∅
  aiResponseTimes : Std.TreeMap String (AiResponseTimeStats F) := ∅
  apiResponseTimes : Std.TreeMap String (AiResponseTimeStats F) := ∅
  orchestrationEvents : OrchestrationEventMetrics := {}
  requestFlow : RequestFlowMetrics := {}
  tradingSemantic : TradingSemanticMetrics := {}
  updatedAt : F := 0.0

/-- The part of a candidate summary that the store copies. -/
structure CandidateSummary where
  candidateId : String
  provider : String
  model : String
  configuredModel : String
  resolvedModel : String
  hostId : Option String
  specialties : List String

structure LocalUsageTelemetry where
  promptTokensEstimate : Option Nat := none
  queueWaitMs : Option Nat := none
  inferenceMs : Option Nat := none
  totalTokensEstimate : Option Nat := none
  completionTokensEstimate : Option Nat := none

section Changes
variable {F : Type} [Scalar F]

/-- `entry(key).or_default()` followed by a change in place. -/
def entryOrDefault {α : Type} (map : Std.TreeMap String α) (key : String) (default : α) (change : α → α) :
    Std.TreeMap String α :=
  map.insert key (change (map[key]?.getD default))

/-- The moving average with a quarter of weight on the new value. -/
def ewma (previous : Option F) (value : F) : F :=
  match previous with
  | some previous => previous * 0.75 + value * 0.25
  | none => value

/-- A value enters its statistics as the given number of samples' last one. -/
def LatencyStats.merge (stats : LatencyStats F) (samples value : Nat) : LatencyStats F :=
  let totalMs := saturatingAdd stats.totalMs value
  { totalMs
    averageMs := some (Scalar.ofCount totalMs / Scalar.ofCount samples)
    minMs := some ((stats.minMs.map fun least => min least value).getD value)
    maxMs := some ((stats.maxMs.map fun most => max most value).getD value)
    ewmaMs := some (ewma stats.ewmaMs (Scalar.ofCount value)) }

/-- `merge_ai_response_time` at the time of its one clock reading. -/
def mergeAiResponseTime (now : F) (bucket : AiResponseTimeStats F) (latencyMs : Nat) (success : Bool)
    (promptTokensEstimate : Option Nat) : AiResponseTimeStats F :=
  let requests := saturatingSucc bucket.requests
  let bucket :=
    if success then
      let samples := saturatingSucc bucket.successfulLatencySamples
      { bucket with
        successes := saturatingSucc bucket.successes
        successfulLatencySamples := samples
        successfulLatency := bucket.successfulLatency.merge samples latencyMs }
    else
      let samples := saturatingSucc bucket.failedLatencySamples
      { bucket with
        failures := saturatingSucc bucket.failures
        failedLatencySamples := samples
        failedLatency := bucket.failedLatency.merge samples latencyMs }
  let bucket :=
    { bucket with requests, latency := bucket.latency.merge (max requests 1) latencyMs }
  let bucket :=
    match promptTokensEstimate with
    | none => bucket
    | some promptTokens =>
      let totalPromptTokens := saturatingAdd bucket.totalPromptTokens promptTokens
      { bucket with
        totalPromptTokens
        averagePromptTokens := some (Scalar.ofCount totalPromptTokens / Scalar.ofCount (max requests 1))
        ewmaPromptTokens := some (ewma bucket.ewmaPromptTokens (Scalar.ofCount promptTokens)) }
  { bucket with lastLatencyMs := some latencyMs, updatedAt := some now }

def reportsModelNotFound (error : String) : Bool :=
  let error := toAsciiLowercase error
  let namedModelNotFound :=
    (containsText error "model '" && containsText error "' not found") ||
      (containsText error "model \"" && containsText error "\" not found")
  containsText error "model not found" || namedModelNotFound || containsText error "no such model"

def decayStaleModelFailures (bucket : StatsBucket F) : StatsBucket F :=
  match bucket.lastError with
  | none => bucket
  | some error =>
    if reportsModelNotFound error then
      { bucket with
        staleFailures := saturatingAdd bucket.staleFailures bucket.failures
        failures := 0
        total := bucket.successes
        lastError := none
        lastStatus := some "health_recovered" }
    else bucket

/-- The latency of one result, of a success also under the names from before the split. -/
def StatsBucket.mergeLatency (bucket : StatsBucket F) (success : Bool) (latencyMs : Nat) : StatsBucket F :=
  if success then
    let samples := saturatingSucc bucket.successfulLatencySamples
    let successfulLatency := bucket.successfulLatency.merge samples latencyMs
    { bucket with successfulLatencySamples := samples, successfulLatency, latency := successfulLatency }
  else
    let samples := saturatingSucc bucket.failedLatencySamples
    { bucket with
      failedLatencySamples := samples
      failedLatency := bucket.failedLatency.merge samples latencyMs }

/-- `f64::min` and `f64::max` of a stored value with a finite one. -/
def leastOf (stored : Option F) (value : F) : F :=
  match stored with
  | some stored => if value < stored then value else stored
  | none => value

def mostOf (stored : Option F) (value : F) : F :=
  match stored with
  | some stored => if stored < value then value else stored
  | none => value

def StatsBucket.mergeTokenRate (bucket : StatsBucket F) (tokensPerSecond : F) : StatsBucket F :=
  let samples := saturatingSucc bucket.generationTokensPerSecondSamples
  let total := bucket.generationTokensPerSecondTotal + tokensPerSecond
  { bucket with
    generationTokensPerSecondSamples := samples
    generationTokensPerSecondTotal := total
    generationTokensPerSecondAverage := some (total / Scalar.ofCount (max samples 1))
    generationTokensPerSecondMin := some (leastOf bucket.generationTokensPerSecondMin tokensPerSecond)
    generationTokensPerSecondMax := some (mostOf bucket.generationTokensPerSecondMax tokensPerSecond)
    generationTokensPerSecondEwma := some (ewma bucket.generationTokensPerSecondEwma tokensPerSecond) }

/-- The moving average of an estimate that may be missing. -/
def ewmaEstimate (previous : Option F) (estimate : Option Nat) : Option F :=
  match estimate with
  | some estimate => some (ewma previous (Scalar.ofCount estimate))
  | none => previous

def StatsBucket.mergeTelemetry (bucket : StatsBucket F) (success : Bool) (latencyMs : Option Nat)
    (telemetry : LocalUsageTelemetry) : StatsBucket F :=
  let bucket :=
    match telemetry.queueWaitMs with
    | none => bucket
    | some queueWaitMs =>
      let samples := saturatingSucc bucket.queueWaitSamples
      { bucket with
        queueWaitSamples := samples
        queueWait := bucket.queueWait.merge (max samples 1) queueWaitMs }
  let bucket :=
    { bucket with
      ewmaPromptTokens := ewmaEstimate bucket.ewmaPromptTokens telemetry.promptTokensEstimate
      ewmaInferenceMs := ewmaEstimate bucket.ewmaInferenceMs telemetry.inferenceMs
      ewmaTokensEstimate := ewmaEstimate bucket.ewmaTokensEstimate telemetry.totalTokensEstimate
      ewmaCompletionTokens :=
        ewmaEstimate bucket.ewmaCompletionTokens telemetry.completionTokensEstimate }
  -- A node that reports no inference time is rated by its latency.
  match telemetry.completionTokensEstimate, telemetry.inferenceMs.or latencyMs with
  | some completionTokens, some durationMs =>
    if success && 0 < completionTokens && 0 < durationMs then
      bucket.mergeTokenRate
        (Scalar.ofCount completionTokens * 1000.0 / Scalar.ofCount durationMs)
    else bucket
  | _, _ => bucket

def mergeStats (now : F) (bucket : StatsBucket F) (success : Bool) (latencyMs : Option Nat)
    (telemetry : Option LocalUsageTelemetry) (quality : F) (error : Option String) : StatsBucket F :=
  let successes := if success then bucket.successes + 1 else bucket.successes
  let failures := if success then bucket.failures else bucket.failures + 1
  let bucket := { bucket with successes, failures, total := successes + failures }
  let bucket := (latencyMs.map (bucket.mergeLatency success)).getD bucket
  let bucket := (telemetry.map (bucket.mergeTelemetry success latencyMs)).getD bucket
  { bucket with
    ewmaQuality := bucket.ewmaQuality * 0.75 + quality * 0.25
    lastStatus := some (if success then "success" else "failure")
    lastError := error
    updatedAt := some now }

def normalizeAiSource (source : String) : String :=
  match toAsciiLowercase (trim source) with
  | "snn" | "aarnn" | "neuromorphic" => "snn"
  | "llm" | "language_model" | "language-model" => "llm"
  | _ => "all"

def apiSourceKey (source : String) : String :=
  let key := (toAsciiLowercase (trim source)).map
    fun c => if c.isAlphanum || c == '_' || c == '-' then c else '_'
  if key.isEmpty then "unknown" else key

/-- `clean` of `routing_profile_key`. -/
def cleanKeyPart (value : String) : String :=
  let mapped := (trim value).toList.map
    fun c => if c.isAlphanum || c == '-' || c == '_' || c == '.' then c.toLower else '_'
  String.ofList (((mapped.dropWhile (· == '_')).rdropWhile (· == '_')).take 96)

def routingProfileKey (source requestProfile workflow role : String) (requestCategory : Option String) :
    String :=
  "source=" ++ cleanKeyPart source ++ ";profile=" ++ cleanKeyPart requestProfile ++
    ";workflow=" ++ cleanKeyPart workflow ++ ";role=" ++ cleanKeyPart role ++
    ";category=" ++ cleanKeyPart (requestCategory.getD "")

/-- The identity that a summary gives to the bucket of its candidate. -/
def CandidateBucket.describe (bucket : CandidateBucket F) (summary : CandidateSummary) :
    CandidateBucket F :=
  { bucket with
    provider := some summary.provider
    model := some summary.model
    configuredModel := some summary.configuredModel
    resolvedModel := some summary.resolvedModel
    hostId := summary.hostId
    specialties := summary.specialties }

/-- The part of a candidate's bucket that a recorded health sets. -/
def CandidateBucket.setHealth (now : F) (bucket : CandidateBucket F) (health : HealthBucket F) :
    CandidateBucket F :=
  let bucket :=
    if health.ok = some true then
      { bucket with
        stats := decayStaleModelFailures bucket.stats
        roles := bucket.roles.map fun _ stats => decayStaleModelFailures stats }
    else bucket
  { bucket with health := { health with checkedAt := some now } }

end Changes

end Gail.Metrics
