import Gail.Library.Run
import Gail.Orchestration.Selection

/-! The waves of a completion: each one is picked from the candidates that are left, and its results decide what
is left after it, and which provider types are in backoff. -/
namespace Gail.Orchestration
open Gail.Library Gail.Trading

section Backoff
variable {F : Type}

/-- The candidate is not healthy, in one of the given modes. -/
def RankedCandidate.failsWith (item : RankedCandidate F) (modes : List String) : Bool :=
  !item.healthOk && item.healthMode.any fun mode => modes.any fun other => eqIgnoreAsciiCase mode other

def rankedCandidateIsInQuotaBackoff (item : RankedCandidate F) : Bool := item.failsWith ["quota"]

def rankedCandidateIsInProviderBackoff (item : RankedCandidate F) : Bool :=
  rankedCandidateIsInQuotaBackoff item ||
    item.failsWith ["upstream", "timeout", "error", "runtime_error", "ollama_saturated",
      "resource_saturated", "nmc_constrained", "provider_backoff", "unconfigured", "missing_endpoint"]

def rankedCandidateIsTransientBackoff (item : RankedCandidate F) : Bool :=
  item.failsWith ["upstream", "timeout", "ollama_saturated", "resource_saturated", "provider_backoff",
    "nmc_constrained"]

/-- `transient_backoff_probe_target_with_config`. -/
def transientBackoffProbeTarget (waveSize candidateCount configured : Nat) : Nat :=
  min (max (max configured (max waveSize 1)) 1) (max candidateCount 1)

/-- The message has one of the texts, whatever its case. -/
def mentions (message : String) (texts : List String) : Bool :=
  texts.any fun text => containsText (toAsciiLowercase message) text

/-- ASCII white space, of which `is_ascii_whitespace` leaves the vertical tab out. -/
def isAsciiWhitespace (c : Char) : Bool := c.toNat ∈ [0x20, 0x9, 0xA, 0xC, 0xD]

def messageIndicatesQuota (message : String) : Bool :=
  let compact := String.ofList ((toAsciiLowercase message).toList.filter fun c => !isAsciiWhitespace c)
  mentions message ["quota", "rate limit", "rate_limit", "too many requests", "status 429", "http 429"] ||
    containsText compact "status\":429" || containsText compact "status:429"

def messageIndicatesOllamaSaturation (message : String) : Bool :=
  mentions message ["local ollama request queue is saturated", "local model service is saturated"]

def messageIndicatesResourceSaturation (message : String) : Bool :=
  mentions message ["configured concurrency/resource budget is exhausted", "resource budget exhausted",
    "workload pool is saturated"]

def messageIndicatesNmcConstrained (message : String) : Bool :=
  mentions message ["nmc/tracey telemetry reports constrained capacity",
    "nmc telemetry reports constrained capacity", "nmc_constrained"]

def messageIndicatesProviderAuthFailure (message : String) : Bool :=
  mentions message ["authentication failed", "unauthorized", "forbidden", "invalid api key",
    "status\":401", "status\":403", "status 401", "status 403", "http 401", "http 403"]

def messageIndicatesPermanentModelFailure (message : String) : Bool :=
  mentions message ["end of life", "no longer available", "not found for account", "status\":404",
    "status\":410", "status 404", "status 410", "http 404", "http 410", "\"title\":\"gone\"",
    "\"title\":\"not found\""]

def messageIndicatesTransientProviderFailure (message : String) : Bool :=
  !messageIndicatesProviderAuthFailure message && !messageIndicatesPermanentModelFailure message &&
    mentions message ["upstream error", "bad gateway", "gateway timeout", "error sending request",
      "connection reset", "connection closed", "http 502", "http 503", "http 504", "status 502",
      "status 503", "status 504", " 502 ", " 503 ", " 504 "]

def messageIndicatesProviderBackoff (message : String) : Bool :=
  messageIndicatesQuota message || messageIndicatesOllamaSaturation message ||
    messageIndicatesResourceSaturation message || messageIndicatesNmcConstrained message ||
    messageIndicatesProviderAuthFailure message || messageIndicatesTransientProviderFailure message

namespace ProviderCandidate

def hasExplicitEndpoint (candidate : ProviderCandidate F) : Bool :=
  candidate.baseUrl.any fun value => !(trim value).isEmpty

def usesProviderFamilyBackoff (candidate : ProviderCandidate F) : Bool :=
  !candidate.isOllama && !candidate.hasExplicitEndpoint

end ProviderCandidate

def errorShouldBackoffProviderFamily (candidate : ProviderCandidate F) (message : String) : Bool :=
  if candidate.usesProviderFamilyBackoff then messageIndicatesProviderBackoff message
  else messageIndicatesQuota message || messageIndicatesProviderAuthFailure message

/-- What comes of one candidate of a wave. -/
structure InvocationResult (F : Type) where
  candidate : ProviderCandidate F
  /-- `response.is_some()`. -/
  hasResponse : Bool
  error : Option String
  quality : F

/-- The result puts the provider type of its candidate into backoff. -/
def InvocationResult.throttles (result : InvocationResult F) : Bool :=
  !result.hasResponse && result.error.any fun error =>
    errorShouldBackoffProviderFamily result.candidate error

end Backoff

inductive SelectionMode where
  | fastest
  | best
  | roundRobin
  deriving DecidableEq

def dedupeCandidates {F : Type} (candidates : List (ProviderCandidate F)) : List (ProviderCandidate F) :=
  (candidates.foldl (fun (seen, deduped) candidate =>
    if seen.contains candidate.attemptKey then (seen, deduped)
    else (candidate.attemptKey :: seen, deduped ++ [candidate])) (([] : List String), [])).2

/-- What `complete_inner` has at hand when the waves begin. Filters only take candidates away, and a
ranking task may fail, so what is ranked are some of the candidates that were built, in any order. -/
structure WaveRequest (F : Type) where
  built : List (ProviderCandidate F)
  ranked : List (RankedCandidate F)
  admitted : (ranked.map (·.candidate)).Subperm (dedupeCandidates built)
  dispatchEstimates : DispatchEstimates F
  timeoutCap : Option Nat
  maxCandidates : Nat
  selectionMode : SelectionMode
  /-- The configuration and the environment. -/
  deduplicateModelCandidates : Bool
  settings : AdaptiveSettings F
  transientBackoffProbeCandidates : Nat
  workflow : String
  role : String
  earlySuccessMinQuality : F
  /-- `should_probe_transient_backoff_candidates` and `should_return_degraded_fallback` of the request. -/
  probesTransientBackoff : Bool
  returnsDegradedFallback : Bool

/-- What the loop has tried and learned. -/
structure WaveState (F : Type) where
  attemptedKeys : List String
  throttledProviderTypes : List String
  results : List (InvocationResult F)

/-- How the loop ends; after `success` and `exhausted` the results are evaluated. -/
inductive Ending where
  | success
  | exhausted
  | degraded
  | unavailable (message : String)
  | badRequest (message : String)
  deriving DecidableEq

/-- One turn of the loop up to the dispatch. A forced probe has its target. -/
inductive Pass (F : Type) where
  | stop (ending : Ending)
  | dispatch (probeTarget : Option Nat) (selected : List (ProviderCandidate F))

inductive LoopState (F : Type) where
  | running (state : WaveState F)
  | ended (state : WaveState F) (ending : Ending)

/-- What the outside brings to a turn: the cursor of the round robin group and what becomes of the
wave. -/
structure WaveEvent (F : Type) where
  cursor : Nat
  results : List (InvocationResult F)

/-- A wave that was dispatched. -/
structure Wave (F : Type) where
  probeTarget : Option Nat
  selected : List (ProviderCandidate F)

def backoffMessage : String :=
  "all suitable providers are currently in adaptive backoff; retry after the recorded mitigation window"

namespace WaveRequest
variable {F : Type} [RoundScalar F] (request : WaveRequest F)

def waveSize : Nat := max request.maxCandidates 1

/-- `fastest` races the replicas of one model. -/
def deduplicateWaveModels : Bool :=
  request.deduplicateModelCandidates && request.selectionMode != .fastest

def unattempted (state : WaveState F) : List (RankedCandidate F) :=
  request.ranked.filter fun item =>
    !state.attemptedKeys.contains item.candidate.attemptKey &&
      !state.throttledProviderTypes.contains item.candidate.providerType

/-- `(seconds.saturating_mul(1_000)) as f64`. -/
def budgetMs (seconds : Nat) : F := Scalar.ofCount (min (seconds * 1000) (2 ^ 64 - 1))

/-- A candidate without an estimate is within the budget, and so is every one without a cap. -/
def withinBudget (item : RankedCandidate F) : Bool :=
  request.timeoutCap.all fun seconds =>
    (usefulEta request.dispatchEstimates item).all fun eta => decide (eta ≤ budgetMs seconds)

def budgetedUnattempted (state : WaveState F) : List (RankedCandidate F) :=
  (request.unattempted state).filter request.withinBudget

def allCandidatesOverBudget (state : WaveState F) : Bool :=
  request.timeoutCap.isSome && !(request.unattempted state).isEmpty &&
    (request.budgetedUnattempted state).isEmpty

def selectionPool (state : WaveState F) : List (RankedCandidate F) :=
  if request.allCandidatesOverBudget state then request.unattempted state
  else request.budgetedUnattempted state

def remaining (state : WaveState F) : List (RankedCandidate F) :=
  (request.selectionPool state).filter fun item => !rankedCandidateIsInProviderBackoff item

def transientBackoff (state : WaveState F) : List (RankedCandidate F) :=
  (request.unattempted state).filter rankedCandidateIsTransientBackoff

/-- Nothing that is left is out of backoff, though something is left. -/
def allInBackoff (state : WaveState F) : Bool :=
  (request.remaining state).isEmpty && !(request.unattempted state).isEmpty

def probeTarget (state : WaveState F) : Nat :=
  transientBackoffProbeTarget request.waveSize (request.transientBackoff state).length
    request.transientBackoffProbeCandidates

/-- `forced_selected`. -/
def forcedSelected (state : WaveState F) : Option (List (ProviderCandidate F)) :=
  if request.allInBackoff state && state.results.isEmpty && request.probesTransientBackoff &&
      !(request.transientBackoff state).isEmpty then
    some (selectRankedCandidates (request.transientBackoff state) (request.probeTarget state)
      request.deduplicateWaveModels)
  else none

def select (state : WaveState F) (cursor : Nat) : List (ProviderCandidate F) :=
  if request.allCandidatesOverBudget state then
    selectRankedCandidates (request.remaining state) (min request.waveSize 1) request.deduplicateWaveModels
  else if request.selectionMode = .roundRobin then
    selectRoundRobinCandidates request.settings (request.remaining state) request.waveSize
      request.workflow request.role request.deduplicateModelCandidates request.dispatchEstimates cursor
  else
    selectAdaptiveCandidates request.settings (request.remaining state) request.waveSize
      request.deduplicateWaveModels request.dispatchEstimates

/-- The wave, or the end when nothing is selected. -/
def dispatch (state : WaveState F) (probeTarget : Option Nat) (selected : List (ProviderCandidate F)) :
    Pass F :=
  if selected.isEmpty then
    if state.results.isEmpty then .stop (.badRequest "no provider candidates were selected")
    else .stop .exhausted
  else .dispatch probeTarget selected

def pass (state : WaveState F) (cursor : Nat) : Pass F :=
  let forced := request.forcedSelected state
  if request.allInBackoff state && state.results.isEmpty && forced.all List.isEmpty then
    .stop (if request.returnsDegradedFallback then .degraded else .unavailable backoffMessage)
  else
    match forced with
    | some selected => dispatch state (some (request.probeTarget state)) selected
    | none => dispatch state none (request.select state cursor)

/-- `response.is_some()` at a useful quality. -/
def succeeds (result : InvocationResult F) : Bool :=
  result.hasResponse && decide (request.earlySuccessMinQuality ≤ result.quality)

/-- The bookkeeping of a wave. -/
def absorb (state : WaveState F) (selected : List (ProviderCandidate F))
    (results : List (InvocationResult F)) : WaveState F :=
  { attemptedKeys := state.attemptedKeys ++ selected.map ProviderCandidate.attemptKey
    throttledProviderTypes := state.throttledProviderTypes ++
      (results.filter InvocationResult.throttles).map (·.candidate.providerType)
    results := state.results ++ results }

def start : LoopState F := .running { attemptedKeys := [], throttledProviderTypes := [], results := [] }

def next : LoopState F → WaveEvent F → LoopState F
  | .ended state ending, _ => .ended state ending
  | .running state, event =>
    match request.pass state event.cursor with
    | .stop ending => .ended state ending
    | .dispatch _ selected =>
      let after := absorb state selected event.results
      if event.results.any request.succeeds then .ended after .success else .running after

/-- The wave that a turn dispatches. -/
def dispatched : LoopState F → WaveEvent F → Option (Wave F)
  | .ended _ _, _ => none
  | .running state, event =>
    match request.pass state event.cursor with
    | .stop _ => none
    | .dispatch probeTarget selected => some { probeTarget, selected }

end WaveRequest

end Gail.Orchestration
