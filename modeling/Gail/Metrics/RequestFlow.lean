import Gail.Metrics.MetricsStore
import Mathlib.Data.List.Nodup

/-! The counters of requests that are received, replied to, failed and in progress, over all orders of
concurrent calls that may be dropped wherever they wait. -/
namespace Gail.Metrics
open Gail.Library Gail.Trading

/-- How far a call of `complete_unguarded` or `direct_complete_unguarded` is. -/
inductive CallPhase where
  /-- It waits to be counted as received. -/
  | entered
  /-- From there until its terminal count: it saves, works and waits for the counters. -/
  | live
  /-- It is counted as replied or failed, and records its times. -/
  | finished
  /-- Its future is dropped. -/
  | dropped
  deriving DecidableEq

inductive FlowEvent (F : Type) [Scalar F] where
  | enter
  /-- `record_request_received`, at the change under the lock. -/
  | receive (call : Nat) (now : F)
  /-- `record_request_terminal`, at the change under the lock. -/
  | finish (call : Nat) (success timedOut : Bool) (now : F)
  | drop (call : Nat)
  /-- Any other change of the metrics. -/
  | record (operation : MetricsOperation F) (bucketNow now : F)
  /-- A new process starts with what it loads, where the counter is a `u64`. -/
  | restart (loaded : { data : MetricsData F // data.requestFlow.received ≤ u64Max })
    (resetRouting : Bool)

/-- The counters with the calls, and the calls that were counted as finished in this order. -/
structure FlowWorld (F : Type) [Scalar F] where
  data : MetricsData F
  calls : List CallPhase
  finishes : List Nat

/-- What `MetricsStore::new` makes of the counters that it loads. -/
def RequestFlowMetrics.onStartup (flow : RequestFlowMetrics) (resetRouting : Bool) : RequestFlowMetrics :=
  if resetRouting then {} else { flow with queued := 0, inProgress := 0 }

section Definitions
variable {F : Type} [Scalar F]

/-- The operations that only a call makes. -/
def MetricsOperation.ofCall : MetricsOperation F → Bool
  | .recordRequestReceived => true
  | .recordRequestTerminal .. => true
  | _ => false

namespace FlowWorld

def start : FlowWorld F := { data := {}, calls := [], finishes := [] }

/-- A call goes on with an operation. -/
def proceed (w : FlowWorld F) (call : Nat) (phase : CallPhase) (operation : MetricsOperation F) (now : F) :
    FlowWorld F :=
  { w with data := (operation.apply now now w.data).getD w.data, calls := w.calls.set call phase }

def step (w : FlowWorld F) : FlowEvent F → FlowWorld F
  | .enter => { w with calls := w.calls ++ [.entered] }
  | .receive call now =>
    if w.calls[call]? = some .entered then w.proceed call .live .recordRequestReceived now else w
  | .finish call success timedOut now =>
    if w.calls[call]? = some .live then
      { w.proceed call .finished (.recordRequestTerminal success timedOut) now with
        finishes := w.finishes ++ [call] }
    else w
  | .drop call => { w with calls := w.calls.set call .dropped }
  | .record operation bucketNow now =>
    if operation.ofCall then w
    else { w with data := (operation.apply bucketNow now w.data).getD w.data }
  | .restart loaded resetRouting =>
    { w with
      data := { loaded.val with requestFlow := loaded.val.requestFlow.onStartup resetRouting }
      calls := w.calls.map fun _ => .dropped }

def liveCalls (w : FlowWorld F) : Nat := w.calls.countP (· = .live)

/-- The law of the counters. -/
structure Conserved (w : FlowWorld F) : Prop where
  received : w.data.requestFlow.received =
    w.data.requestFlow.replied + w.data.requestFlow.failed + w.data.requestFlow.inProgress
  inProgress : w.data.requestFlow.inProgress = w.liveCalls
  once : w.finishes.Nodup

/-- No call is dropped while it is live, the counter of calls is not at its end, and what a process
loads has all calls accounted for. -/
def Accounted (w : FlowWorld F) : FlowEvent F → Prop
  | .receive call _ => w.calls[call]? = some .entered → w.data.requestFlow.received < u64Max
  | .drop call => w.calls[call]? ≠ some .live
  | .restart loaded resetRouting => resetRouting = true ∨
      loaded.val.requestFlow.received = loaded.val.requestFlow.replied + loaded.val.requestFlow.failed
  | _ => True

end FlowWorld

end Definitions

section Steps
variable {F : Type} [Scalar F] {w : FlowWorld F} {call : Nat} {phase : CallPhase}

theorem requestFlow_of_other {operation : MetricsOperation F} (h : operation.ofCall = false)
    (bucketNow now : F) (data : MetricsData F) :
    ((operation.apply bucketNow now data).getD data).requestFlow = data.requestFlow := by
  cases operation with
  | recordRequestReceived => cases h
  | recordRequestTerminal => cases h
  | recordOrchestrationEvent event durationMs =>
    simp only [MetricsOperation.apply]
    cases data.orchestrationEvents.record event durationMs <;> rfl
  | _ => simp only [MetricsOperation.apply, Option.getD_some]

theorem liveCalls_set (h : w.calls[call]? = some phase) (next : CallPhase) :
    (w.calls.set call next).countP (· = .live) + (if phase = .live then 1 else 0) =
      w.liveCalls + if next = .live then 1 else 0 := by
  obtain ⟨hlt, hphase⟩ := List.getElem?_eq_some_iff.mp h
  have hpos : (if phase = .live then 1 else 0) ≤ w.liveCalls := by
    split_ifs with hl
    · exact List.countP_pos_iff.mpr ⟨w.calls[call], List.getElem_mem hlt, by simp [hphase, hl]⟩
    · exact Nat.zero_le _
  rw [List.countP_set hlt, hphase]
  simp only [decide_eq_true_eq]
  unfold FlowWorld.liveCalls at hpos ⊢
  omega

/-- What a world keeps besides the law: the calls that were counted as finished stay so. -/
structure FlowWorld.Kept (w : FlowWorld F) : Prop extends w.Conserved where
  bounded : w.data.requestFlow.received ≤ u64Max
  ended : ∀ call ∈ w.finishes, w.calls[call]? = some .finished ∨ w.calls[call]? = some .dropped

namespace FlowWorld.Kept
variable (h : w.Kept)
include h

theorem ended_set (hphase : w.calls[call]? = some phase) (hlive : phase = .entered ∨ phase = .live)
    (next : CallPhase) : ∀ other ∈ w.finishes,
      (w.calls.set call next)[other]? = some .finished ∨ (w.calls.set call next)[other]? = some .dropped := by
  intro other ho
  have hne : call ≠ other := by
    rintro rfl
    have hended := h.ended call ho
    rw [hphase] at hended
    rcases hlive with rfl | rfl <;> simp at hended
  rw [List.getElem?_set_ne hne]
  exact h.ended other ho

theorem receive (hphase : w.calls[call]? = some .entered)
    (hlt : w.data.requestFlow.received < u64Max) (now : F) :
    (w.proceed call .live .recordRequestReceived now).Kept := by
  have hlive : (w.calls.set call .live).countP (· = .live) = w.liveCalls + 1 := liveCalls_set hphase .live
  have hprogress : w.data.requestFlow.inProgress < u64Max := by
    have hreceived := h.received
    omega
  refine ⟨⟨?_, ?_, h.once⟩, ?_, h.ended_set hphase (.inl rfl) .live⟩
  · calc saturatingSucc w.data.requestFlow.received
        = w.data.requestFlow.received + 1 := saturatingSucc_of_lt hlt
      _ = w.data.requestFlow.replied + w.data.requestFlow.failed
            + (w.data.requestFlow.inProgress + 1) := by rw [h.received]; omega
      _ = w.data.requestFlow.replied + w.data.requestFlow.failed
            + saturatingSucc w.data.requestFlow.inProgress := by rw [saturatingSucc_of_lt hprogress]
  · calc saturatingSucc w.data.requestFlow.inProgress
        = w.data.requestFlow.inProgress + 1 := saturatingSucc_of_lt hprogress
      _ = w.liveCalls + 1 := by rw [h.inProgress]
      _ = (w.calls.set call .live).countP (· = .live) := hlive.symm
  · exact (saturatingSucc_of_lt hlt).trans_le hlt

theorem recordTerminal_eq (hpos : 0 < w.data.requestFlow.inProgress) (success timedOut : Bool) :
    (w.data.requestFlow.recordTerminal success timedOut).replied +
        (w.data.requestFlow.recordTerminal success timedOut).failed =
      w.data.requestFlow.replied + w.data.requestFlow.failed + 1 := by
  have hreceived := h.received
  have hbounded := h.bounded
  cases success with
  | true =>
    change saturatingSucc w.data.requestFlow.replied + w.data.requestFlow.failed = _
    rw [saturatingSucc_of_lt (by omega)]
    omega
  | false =>
    change w.data.requestFlow.replied + saturatingSucc w.data.requestFlow.failed = _
    rw [saturatingSucc_of_lt (by omega)]
    omega

theorem finish (hphase : w.calls[call]? = some .live) (success timedOut : Bool) (now : F) :
    FlowWorld.Kept { w.proceed call .finished (.recordRequestTerminal success timedOut) now with
      finishes := w.finishes ++ [call] } := by
  have hlive : (w.calls.set call .finished).countP (· = .live) + 1 = w.liveCalls :=
    liveCalls_set hphase .finished
  have hprogress := h.inProgress
  have hpos : 0 < w.data.requestFlow.inProgress := by omega
  have hterminal := h.recordTerminal_eq hpos success timedOut
  have hkept : (w.data.requestFlow.recordTerminal success timedOut).received =
        w.data.requestFlow.received ∧
      (w.data.requestFlow.recordTerminal success timedOut).inProgress =
        w.data.requestFlow.inProgress - 1 := by
    cases success <;> exact ⟨rfl, rfl⟩
  have hnew : call ∉ w.finishes := by
    intro hm
    have hended := h.ended call hm
    rw [hphase] at hended
    simp at hended
  refine ⟨⟨?_, ?_, ?_⟩, ?_, ?_⟩
  · change (w.data.requestFlow.recordTerminal success timedOut).received =
      (w.data.requestFlow.recordTerminal success timedOut).replied +
        (w.data.requestFlow.recordTerminal success timedOut).failed +
        (w.data.requestFlow.recordTerminal success timedOut).inProgress
    rw [hkept.1, hkept.2, hterminal, h.received]
    omega
  · change (w.data.requestFlow.recordTerminal success timedOut).inProgress =
      (w.calls.set call .finished).countP (· = .live)
    rw [hkept.2]
    omega
  · exact List.nodup_append.mpr ⟨h.once, List.nodup_singleton _, by
      intro other ho last hl he
      rw [he, List.mem_singleton.mp hl] at ho
      exact hnew ho⟩
  · change (w.data.requestFlow.recordTerminal success timedOut).received ≤ u64Max
    rw [hkept.1]
    exact h.bounded
  · intro other ho
    rcases List.mem_append.mp ho with ho | ho
    · exact h.ended_set hphase (.inr rfl) .finished other ho
    · obtain rfl := List.mem_singleton.mp ho
      left
      exact List.getElem?_set_self (List.getElem?_eq_some_iff.mp hphase).1

theorem drop (hphase : w.calls[call]? ≠ some .live) : (w.step (.drop call)).Kept := by
  have hlive : (w.calls.set call .dropped).countP (· = .live) = w.liveCalls := by
    cases hc : w.calls[call]? with
    | none =>
      rw [List.set_eq_of_length_le (List.getElem?_eq_none_iff.mp hc)]
      rfl
    | some phase =>
      have hset := liveCalls_set hc .dropped
      rw [if_neg (by rintro rfl; exact hphase hc)] at hset
      exact hset
  refine ⟨⟨h.received, h.inProgress.trans hlive.symm, h.once⟩, h.bounded, fun other ho => ?_⟩
  by_cases he : call = other
  · subst he
    have hlt : call < w.calls.length := by
      rcases h.ended call ho with hc | hc <;> exact (List.getElem?_eq_some_iff.mp hc).1
    exact .inr (List.getElem?_set_self hlt)
  · change (w.calls.set call .dropped)[other]? = _ ∨ (w.calls.set call .dropped)[other]? = _
    rw [List.getElem?_set_ne he]
    exact h.ended other ho

theorem restart (loaded : { data : MetricsData F // data.requestFlow.received ≤ u64Max })
    (resetRouting : Bool) (hr : w.Accounted (.restart loaded resetRouting)) :
    (w.step (.restart loaded resetRouting)).Kept := by
  have hlive : (w.calls.map fun _ => CallPhase.dropped).countP (· = .live) = 0 := by
    rw [List.countP_eq_zero]
    intro phase hp
    obtain ⟨-, -, rfl⟩ := List.mem_map.mp hp
    decide
  have hended : ∀ call ∈ w.finishes, (w.calls.map fun _ => CallPhase.dropped)[call]? = some .finished ∨
      (w.calls.map fun _ => CallPhase.dropped)[call]? = some .dropped := by
    intro call hc
    right
    rw [List.getElem?_map]
    rcases h.ended call hc with hp | hp <;> rw [hp] <;> rfl
  cases resetRouting with
  | true => exact ⟨⟨rfl, hlive.symm, h.once⟩, Nat.zero_le _, hended⟩
  | false =>
    have hflow : loaded.val.requestFlow.received =
        loaded.val.requestFlow.replied + loaded.val.requestFlow.failed :=
      hr.resolve_left (by decide)
    exact ⟨⟨hflow, hlive.symm, h.once⟩, loaded.property, hended⟩

theorem step {event : FlowEvent F} (hg : w.Accounted event) : (w.step event).Kept := by
  cases event with
  | enter =>
    refine ⟨⟨h.received, h.inProgress.trans ?_, h.once⟩, h.bounded, fun call hc => ?_⟩
    · change w.liveCalls = (w.calls ++ [CallPhase.entered]).countP (· = .live)
      rw [List.countP_append]
      rfl
    · change (w.calls ++ [.entered])[call]? = _ ∨ (w.calls ++ [.entered])[call]? = _
      have hlt : call < w.calls.length := by
        rcases h.ended call hc with hp | hp <;> exact (List.getElem?_eq_some_iff.mp hp).1
      rw [List.getElem?_append_left hlt]
      exact h.ended call hc
  | receive call now =>
    by_cases hp : w.calls[call]? = some .entered
    · rw [FlowWorld.step, if_pos hp]
      exact h.receive hp (hg hp) now
    · rw [FlowWorld.step, if_neg hp]
      exact h
  | finish call success timedOut now =>
    by_cases hp : w.calls[call]? = some .live
    · rw [FlowWorld.step, if_pos hp]
      exact h.finish hp success timedOut now
    · rw [FlowWorld.step, if_neg hp]
      exact h
  | drop call => exact h.drop hg
  | record operation bucketNow now =>
    rw [FlowWorld.step]
    cases ho : operation.ofCall with
    | true =>
      rw [if_pos rfl]
      exact h
    | false =>
      rw [if_neg (by decide)]
      have hflow := requestFlow_of_other ho bucketNow now w.data
      exact ⟨⟨by rw [hflow]; exact h.received, by rw [hflow]; exact h.inProgress, h.once⟩,
        by rw [hflow]; exact h.bounded, h.ended⟩
  | restart loaded resetRouting => exact h.restart loaded resetRouting hg

/-- A step that is not accounted for is seen in the counters at once. -/
theorem not_conserved {event : FlowEvent F} (hg : ¬ w.Accounted event) :
    ¬ (w.step event).Conserved := by
  intro hc
  cases event with
  | receive call now =>
    obtain ⟨hp, hfull⟩ := Classical.not_imp.mp hg
    have hfull : w.data.requestFlow.received = u64Max := le_antisymm h.bounded (not_lt.mp hfull)
    have hlive : (w.calls.set call .live).countP (· = .live) = w.liveCalls + 1 := liveCalls_set hp .live
    rw [FlowWorld.step, if_pos hp] at hc
    have hprogress : saturatingSucc w.data.requestFlow.inProgress = w.liveCalls + 1 :=
      hc.inProgress.trans hlive
    have hreceived : saturatingSucc w.data.requestFlow.received = w.data.requestFlow.replied +
      w.data.requestFlow.failed + saturatingSucc w.data.requestFlow.inProgress := hc.received
    have hstays : saturatingSucc w.data.requestFlow.received = w.data.requestFlow.received := by
      rw [hfull, saturatingSucc, Nat.min_eq_right (Nat.le_succ _)]
    rw [hstays, h.received, hprogress, h.inProgress] at hreceived
    omega
  | drop call =>
    have hp : w.calls[call]? = some .live := not_not.mp hg
    have hlive : (w.calls.set call .dropped).countP (· = .live) + 1 = w.liveCalls :=
      liveCalls_set hp .dropped
    have hprogress : w.data.requestFlow.inProgress = (w.calls.set call .dropped).countP (· = .live) :=
      hc.inProgress
    rw [h.inProgress] at hprogress
    omega
  | restart loaded resetRouting =>
    obtain ⟨hreset, hflow⟩ := not_or.mp hg
    rw [Bool.not_eq_true] at hreset
    subst hreset
    exact hflow hc.received
  | enter => exact hg trivial
  | finish => exact hg trivial
  | record => exact hg trivial

end FlowWorld.Kept

/-- The counters agree with the calls in every state of a run exactly when no live call is dropped
and what a process loads is accounted for. -/
theorem request_flow_conserved_iff (events : List (FlowEvent F)) :
    Along FlowWorld.step FlowWorld.Accounted .start events ↔
      ∀ before, before <+: events → (run FlowWorld.step .start before).Conserved := by
  have hstart : (FlowWorld.start : FlowWorld F).Kept :=
    ⟨⟨rfl, rfl, List.nodup_nil⟩, Nat.zero_le _, fun call hc => by cases hc⟩
  exact along_iff_prefixes FlowWorld.step (I := FlowWorld.Kept) (fun _ _ h hg => h.step hg)
    (fun _ h => h.toConserved) (fun _ _ h hg => h.not_conserved hg) hstart

/-- A client that disconnects leaves a call in progress for ever. -/
theorem dropped_call_in_progress :
    let w := run FlowWorld.step (.start : FlowWorld ℚ) [.enter, .receive 0 0, .drop 0]
    w.liveCalls = 0 ∧ w.data.requestFlow.inProgress = 1 ∧ ¬ w.Conserved := by
  intro w
  have hlive : w.liveCalls = 0 := by decide
  have hprogress : w.data.requestFlow.inProgress = 1 := by decide
  refine ⟨hlive, hprogress, fun h => ?_⟩
  have hsame := h.inProgress
  rw [hlive, hprogress] at hsame
  cases hsame

end Steps

end Gail.Metrics
