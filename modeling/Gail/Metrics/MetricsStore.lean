import Gail.Library.SnapshotStore
import Gail.Metrics.MetricsData

/-! Recording operations on one metrics store, and what they leave in its file. -/
namespace Gail.Metrics
open Gail.Library Gail.Trading

inductive MetricsOperation (F : Type) where
  | recordAiResponseTimeWithPrompt (source : String) (latencyMs : Nat) (success : Bool)
    (promptTokensEstimate : Option Nat)
  | recordApiSourceResponseTime (source : String) (latencyMs : Nat) (success : Bool)
    (promptTokensEstimate : Option Nat)
  | recordRequestReceived
  | recordRequestTerminal (success timedOut : Bool)
  | recordTradingSemantic (outcome : String)
  | recordOrchestrationEvent (event : String) (durationMs : Option Nat)
  | recordHealth (summary : CandidateSummary) (health : HealthBucket F)
  | recordResultWithContext (summary : CandidateSummary) (source requestProfile workflow role : String)
    (requestCategory : Option String) (success : Bool) (latencyMs : Option Nat)
    (telemetry : Option LocalUsageTelemetry) (quality : F) (error : Option String)

section Operations
variable {F : Type} [Scalar F]

def TradingSemanticMetrics.record (metrics : TradingSemanticMetrics) (outcome : String) :
    TradingSemanticMetrics :=
  let metrics := { metrics with responses := saturatingSucc metrics.responses }
  match outcome with
  | "parsed_valid" => { metrics with parsedValid := saturatingSucc metrics.parsedValid }
  | "invalid_json" => { metrics with invalidJson := saturatingSucc metrics.invalidJson }
  | "invalid_shape" => { metrics with invalidShape := saturatingSucc metrics.invalidShape }
  | "incomplete_json" => { metrics with incomplete := saturatingSucc metrics.incomplete }
  | "provider_failure" => { metrics with providerFailures := saturatingSucc metrics.providerFailures }
  | _ => metrics

/-- An event without a counter of its own is not recorded. -/
def OrchestrationEventMetrics.record (events : OrchestrationEventMetrics) (event : String)
    (durationMs : Option Nat) : Option OrchestrationEventMetrics :=
  match event with
  | "candidate_selection" =>
    some { events with candidateSelections := saturatingSucc events.candidateSelections }
  | "capacity_race" => some { events with capacityRaces := saturatingSucc events.capacityRaces }
  | "queue_wait" =>
    some { events with
      queueWaits := saturatingSucc events.queueWaits
      queueWaitTotalMs := saturatingAdd events.queueWaitTotalMs (durationMs.getD 0) }
  | "queue_wait_timeout" =>
    some { events with queueWaitTimeouts := saturatingSucc events.queueWaitTimeouts }
  | "timeout" => some { events with timeouts := saturatingSucc events.timeouts }
  | "fallback" => some { events with fallbacks := saturatingSucc events.fallbacks }
  | "empty_plan" => some { events with emptyPlans := saturatingSucc events.emptyPlans }
  | _ => none

def RequestFlowMetrics.recordReceived (flow : RequestFlowMetrics) : RequestFlowMetrics :=
  { flow with
    received := saturatingSucc flow.received
    queued := saturatingSucc flow.queued
    inProgress := saturatingSucc flow.inProgress }

def RequestFlowMetrics.recordTerminal (flow : RequestFlowMetrics) (success timedOut : Bool) :
    RequestFlowMetrics :=
  let flow := { flow with queued := flow.queued - 1 }
  let flow :=
    if success then { flow with replied := saturatingSucc flow.replied }
    else
      { flow with
        failed := saturatingSucc flow.failed
        timedOut := if timedOut then saturatingSucc flow.timedOut else flow.timedOut }
  { flow with inProgress := flow.inProgress - 1 }

def recordAiResponseTime (now : F) (source : String) (latencyMs : Nat) (success : Bool)
    (promptTokensEstimate : Option Nat) (times : Std.TreeMap String (AiResponseTimeStats F)) :
    Std.TreeMap String (AiResponseTimeStats F) :=
  let merge := fun bucket => mergeAiResponseTime now bucket latencyMs success promptTokensEstimate
  let source := normalizeAiSource source
  let times := entryOrDefault times source {} merge
  if source ≠ "all" then entryOrDefault times "all" {} merge else times

def CandidateBucket.recordHealth (now : F) (bucket : CandidateBucket F) (summary : CandidateSummary)
    (health : HealthBucket F) : CandidateBucket F :=
  (bucket.describe summary).setHealth now health

/-- What an operation makes of the data while it has the lock `inner`, given its clock readings (of
the buckets it touches, and the last one); `none` where it returns before it takes a snapshot. -/
def MetricsOperation.apply (operation : MetricsOperation F) (bucketNow now : F) (data : MetricsData F) :
    Option (MetricsData F) :=
  match operation with
  | .recordAiResponseTimeWithPrompt source latencyMs success promptTokensEstimate =>
    some { data with
      aiResponseTimes :=
        recordAiResponseTime bucketNow source latencyMs success promptTokensEstimate
          data.aiResponseTimes
      updatedAt := now }
  | .recordApiSourceResponseTime source latencyMs success promptTokensEstimate =>
    some { data with
      apiResponseTimes := entryOrDefault data.apiResponseTimes (apiSourceKey source) {} fun bucket =>
        mergeAiResponseTime bucketNow bucket latencyMs success promptTokensEstimate
      updatedAt := now }
  | .recordRequestReceived =>
    some { data with requestFlow := data.requestFlow.recordReceived, updatedAt := now }
  | .recordRequestTerminal success timedOut =>
    some { data with
      requestFlow := data.requestFlow.recordTerminal success timedOut
      updatedAt := now }
  | .recordTradingSemantic outcome =>
    some { data with
      tradingSemantic := data.tradingSemantic.record outcome
      updatedAt := now }
  | .recordOrchestrationEvent event durationMs =>
    (data.orchestrationEvents.record event durationMs).map fun events =>
      { data with orchestrationEvents := events, updatedAt := now }
  | .recordHealth summary health =>
    some { data with
      candidates := entryOrDefault data.candidates summary.candidateId {} fun bucket =>
        bucket.recordHealth bucketNow summary health
      updatedAt := now }
  | .recordResultWithContext summary source requestProfile workflow role requestCategory success
      latencyMs telemetry quality error =>
    let merge := fun stats => mergeStats bucketNow stats success latencyMs telemetry quality error
    let roleKey := routingProfileKey source requestProfile workflow role requestCategory
    some { data with
      candidates := entryOrDefault data.candidates summary.candidateId {} fun bucket =>
        let bucket := bucket.describe summary
        { bucket with
          stats := merge bucket.stats
          roles := entryOrDefault bucket.roles roleKey {} merge }
      updatedAt := now }

end Operations

/-- The steps of the recording calls, each under its number. A call changes and copies the data under
`inner`, and writes its copy under `persist_lock`. -/
inductive MetricsStep (F : Type) where
  | record (call : Nat) (operation : MetricsOperation F) (bucketNow now : F)
  | persistLock (call : Nat)
  /-- The temporary file is renamed, the guard dropped. -/
  | rename (call : Nat)

abbrev MetricsStore (F : Type) [Scalar F] := SnapshotStore (MetricsData F)

namespace MetricsStore
variable {F : Type} [Scalar F]

def action : MetricsStep F → SaveAction (MetricsData F)
  | .record call operation bucketNow now => .record call (operation.apply bucketNow now)
  | .persistLock call => .acquire call
  | .rename call => .replace call

def step (store : MetricsStore F) (input : MetricsStep F) : MetricsStore F := store.next (action input)

/-- The lock goes to a call only when no call with an older copy still waits for it. -/
def InTurn (store : MetricsStore F) (input : MetricsStep F) : Prop :=
  SnapshotStore.InTurn store (action input)

/-- The data that the file was last given. -/
def persisted (store : MetricsStore F) : Option (MetricsData F) := store.file.map Prod.snd

def inMemory (store : MetricsStore F) : MetricsData F := store.memory.2

/-- No step would put an older copy over a newer one, and if the calls have finished, the file has the
data in memory; it is untouched when they recorded nothing. -/
def Current (data : MetricsData F) (store : MetricsStore F) : Prop :=
  (∀ input, ¬ store.Reverts (action input)) ∧
    (store.Quiet → store.persisted = some store.inMemory ∨
      store.persisted = none ∧ store.inMemory = data)

/-- The file follows the data as long as the lock of the file is taken in the order of the copies. -/
theorem current_in_turn {data : MetricsData F} {inputs : List (MetricsStep F)}
    (h : Along step InTurn (SnapshotStore.start data) inputs) :
    Current data (run step (SnapshotStore.start data) inputs) := by
  obtain ⟨hordered, hfresh⟩ := run_invariant step
    (I := fun store => store.Ordered ∧ store.Fresh data)
    (fun _ _ hs ht => ⟨hs.1.next ht, hs.2.next⟩)
    ⟨SnapshotStore.start_ordered, SnapshotStore.start_fresh⟩ h
  refine ⟨fun input => hordered.not_reverts, ?_⟩
  intro hquiet
  rcases hordered.settled hfresh hquiet with hf | ⟨hf, hvalue⟩
  · exact .inl (congrArg (Option.map Prod.snd) hf)
  · exact .inr ⟨congrArg (Option.map Prod.snd) hf, hvalue⟩

section Sample

/-- Two requests are received, and the lock goes to the calls in the given order. -/
def receivedThenSaved (first second : Nat) : List (MetricsStep ℚ) :=
  [.record 0 .recordRequestReceived 1 1, .record 1 .recordRequestReceived 2 2,
    .persistLock first, .rename first, .persistLock second, .rename second]

def receivedStore (first second : Nat) : MetricsStore ℚ :=
  run step (SnapshotStore.start {}) (receivedThenSaved first second)

theorem received_in_turn : Current {} (receivedStore 0 1) := by
  apply current_in_turn
  refine ⟨?_, ?_, ?_, ?_, ?_, ?_, trivial⟩ <;> intro call copy ha hp other earlier ho <;> cases ha
  · cases hp
    match other with
    | 0 => cases ho; exact Nat.le_refl _
    | 1 => cases ho; decide
    | n + 2 => cases ho
  · cases hp
    match other with
    | 0 => cases ho
    | 1 => cases ho; exact Nat.le_refl _
    | n + 2 => cases ho

/-- The call that copied first writes last, and the file loses a request. -/
theorem received_out_of_turn : ¬ Current {} (receivedStore 1 0) := by
  rintro ⟨-, hsettled⟩
  have hquiet : (receivedStore 1 0).Quiet := by
    intro call
    match call with
    | 0 | 1 => rfl
    | n + 2 => rfl
  have hfile : (receivedStore 1 0).persisted.map (·.requestFlow.received) = some 1 := rfl
  rcases hsettled hquiet with h | ⟨h, -⟩
  · rw [h] at hfile
    cases hfile
  · rw [h] at hfile
    cases hfile

end Sample

end MetricsStore

end Gail.Metrics
