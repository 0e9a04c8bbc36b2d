import Gail.Trading.TradingLoop

/-! What a pause does not stop. The owner looks whether the bridge is paused when a cycle begins and when
a finished review is taken, and not again before the order. -/
namespace Gail.Trading.TradingLoop
open Gail.Library
variable {F : Type} [Scalar F] [NumberText F]

/-- No order of the engine has been placed while the bridge was paused. -/
def PausesOrders (w : TradingLoop F) : Prop :=
  ∀ submission ∈ w.sent, submission.execution.automatic = true → submission.paused = false

/-- A pause falls after the owner has looked, and is not lifted before an order of the engine. -/
def PauseMissed (w : TradingLoop F) (events : List (LoopEvent F)) : Prop :=
  ∃ before between after, events = before ++ .pause :: between ++ .activation true :: after ∧
    (run step w before).phase.checked = true ∧ LoopEvent.resume ∉ between ∧
    ∃ execution key, (run step w (before ++ .pause :: between)).phase = .claimed execution key ∧
      execution.automatic = true

section Steps
variable {w : TradingLoop F} {event : LoopEvent F}

/-- A submission is added when the pair of a claimed order is active, and at no other step. -/
theorem step_sent (w : TradingLoop F) (event : LoopEvent F) :
    (w.step event).sent = w.sent ∨
      ∃ execution key, event = .activation true ∧ w.phase = .claimed execution key ∧
        w.step event = w.submit execution key := by
  have ht := w.step_transition event
  generalize w.step event = stepped at ht
  cases ht with
  | submit execution key hphase => exact Or.inr ⟨execution, key, rfl, hphase, rfl⟩
  | _ => exact Or.inl rfl

theorem sent_mono (w : TradingLoop F) (events : List (LoopEvent F)) :
    w.sent <+: (run step w events).sent := by
  apply run_keeps step (I := fun reached => w.sent <+: reached.sent)
  · intro reached event h
    rcases reached.step_sent event with hs | ⟨execution, key, -, -, hs⟩
    · rw [hs]
      exact h
    · rw [hs]
      exact h.trans (List.prefix_append _ _)
  · exact List.prefix_rfl

/-- Only a resume lifts a pause. -/
theorem step_paused (h : w.paused = true) (he : event ≠ .resume) : (w.step event).paused = true := by
  have ht := w.step_transition event
  generalize w.step event = stepped at ht
  cases ht with
  | resume => exact absurd rfl he
  | pause => rfl
  | _ => exact h

theorem run_paused {events : List (LoopEvent F)} (h : w.paused = true)
    (he : LoopEvent.resume ∉ events) : (run step w events).paused = true := by
  induction events generalizing w with
  | nil => exact h
  | cons event events ih =>
    obtain ⟨hne, hrest⟩ := not_or.mp fun hm => he (List.mem_cons.mpr hm)
    exact ih (step_paused h (Ne.symm hne)) hrest

/-- Where a pause is set past the check, it is new, or it was set past the check before. -/
theorem step_pausedPast (hc : (w.step event).phase.checked = true) (hp : (w.step event).paused = true) :
    w.phase.checked = true ∧ (event = .pause ∨ event ≠ .resume ∧ w.paused = true) := by
  have hne : event ≠ .resume := by
    rintro rfl
    cases hp
  have ht := w.step_transition event
  generalize w.step event = stepped at ht hc hp
  cases ht with
  | pause => exact ⟨hc, Or.inl rfl⟩
  | resume => exact absurd rfl hne
  | begin _ hpaused => exact absurd hp (Bool.not_eq_true _ ▸ hpaused)
  | holdBack | endCycle => cases hc
  | execute _ _ _ _ hchosen =>
    cases hchosen with
    | main hphase => exact ⟨by rw [hphase]; rfl, Or.inr ⟨hne, hp⟩⟩
    | review _ _ hpaused => exact absurd hp (Bool.not_eq_true _ ▸ hpaused)
  | passOver | cancel | finish | accept => exact absurd hc (by simp [acknowledge])
  | decide _ hphase | gates _ _ _ _ hphase | claim _ _ _ hphase | submit _ _ hphase =>
    exact ⟨by rw [hphase]; rfl, Or.inr ⟨hne, hp⟩⟩
  | stay | tick | post | limit | hold | importTrades | plan | review =>
    exact ⟨hc, Or.inr ⟨hne, hp⟩⟩

/-- A pause that is set past the check of the owner was set past that check. -/
theorem run_pausedPast (hw : w.phase.checked = false) (events : List (LoopEvent F))
    (hc : (run step w events).phase.checked = true) (hp : (run step w events).paused = true) :
    ∃ before between, events = before ++ .pause :: between ∧
      (run step w before).phase.checked = true ∧ LoopEvent.resume ∉ between := by
  induction events using List.reverseRecOn with
  | nil => exact absurd hc (by simp [hw])
  | append_singleton events event ih =>
    rw [run_append] at hc hp
    obtain ⟨hc, rfl | ⟨hne, hp⟩⟩ := step_pausedPast hc hp
    · exact ⟨events, [], rfl, hc, List.not_mem_nil⟩
    · obtain ⟨before, between, rfl, hb, hr⟩ := ih hc hp
      refine ⟨before, between ++ [event], by simp, hb, ?_⟩
      simp only [List.mem_append, List.mem_singleton, not_or]
      exact ⟨hr, Ne.symm hne⟩

end Steps

section Runs
variable {w : TradingLoop F}

theorem PauseMissed.append {events : List (LoopEvent F)} (h : w.PauseMissed events)
    (more : List (LoopEvent F)) : w.PauseMissed (events ++ more) := by
  obtain ⟨before, between, after, rfl, h⟩ := h
  exact ⟨before, between, after ++ more, by simp, h⟩

/-- An order of the engine that has been placed while the bridge was paused missed a pause. -/
theorem missed_of_sent (hw : w.phase.checked = false) (hnone : w.sent = [])
    (events : List (LoopEvent F)) {submission : LoopSubmission F}
    (hs : submission ∈ (run step w events).sent) (ha : submission.execution.automatic = true)
    (hp : submission.paused = true) : w.PauseMissed events := by
  induction events using List.reverseRecOn with
  | nil =>
    rw [run_nil, hnone] at hs
    cases hs
  | append_singleton events event ih =>
    rw [run_append, run_cons, run_nil] at hs
    rcases (run step w events).step_sent event with hsent | ⟨execution, key, rfl, hphase, hsent⟩
    · rw [hsent] at hs
      exact (ih hs).append [event]
    · rw [hsent] at hs
      rcases List.mem_append.mp hs with hs | hs
      · exact (ih hs).append [_]
      · obtain rfl := List.mem_singleton.mp hs
        have hc : (run step w events).phase.checked = true := by rw [hphase]; rfl
        obtain ⟨before, between, rfl, hb, hr⟩ := run_pausedPast hw events hc hp
        exact ⟨before, between, [], rfl, hb, hr, execution, key, hphase, ha⟩

theorem not_pausesOrders_of_missed {events : List (LoopEvent F)} (h : w.PauseMissed events) :
    ¬ (run step w events).PausesOrders := by
  obtain ⟨before, between, after, rfl, -, hr, execution, key, hphase, ha⟩ := h
  intro hall
  rw [run_append, run_cons] at hall
  have hpaused : (run step w (before ++ .pause :: between)).paused = true := by
    rw [run_append, run_cons]
    exact run_paused rfl hr
  have hstep : (run step w (before ++ .pause :: between)).step (.activation true) =
      (run step w (before ++ .pause :: between)).submit execution key := by
    simp only [step, hphase, if_true]
  rw [hstep] at hall
  have hmem : { execution, paused := true } ∈ (run step
      ((run step w (before ++ .pause :: between)).submit execution key) after).sent := by
    apply (sent_mono _ after).subset
    rw [← hpaused]
    exact List.mem_append_right _ (List.mem_singleton.mpr rfl)
  cases hall _ hmem ha

end Runs

/-- In a run from any start, no order of the engine is placed while the bridge is paused, exactly when no
pause falls between a check of the owner and an order that follows it without a resume in between. -/
theorem pausesOrders_iff (now : F) (config : LoopConfig F) (paused : Bool) (trading : TradingState F)
    (openPositions : Nat) (maxOpenPositionsOverride : Option Nat) (events : List (LoopEvent F)) :
    (run step (start now config paused trading openPositions maxOpenPositionsOverride) events).PausesOrders ↔
      ¬ (start now config paused trading openPositions maxOpenPositionsOverride).PauseMissed events := by
  constructor
  · intro h hm
    exact not_pausesOrders_of_missed hm h
  · intro h submission hs ha
    by_contra hp
    exact h (missed_of_sent rfl rfl events hs ha (Bool.not_eq_false _ ▸ hp))

section Sample

def loopConfig : LoopConfig ℚ :=
  { execution :=
      { executionAuthority := "gail", executionLeaseSeconds := 180, minTradeIntervalSeconds := 120
        tradeRingSize := 200 }
    maxOpenPositions := 1
    microTradeMinUsd := 5
    microTradeMaxUsd := 50 }

def loopStart : TradingLoop ℚ := start 0 loopConfig false (.new 200) 0 none

def buySignal : DecisionInput ℚ :=
  { blendedSignal := 1 / 2, confident := true, market := some ("binance", "BTC/USDT"), worthwhile := true
    amountUsd := 10, withheld := false }

/-- From a decision to its order. -/
def ordered : List (LoopEvent ℚ) :=
  [.execute, .gates "binance" 10 (some 50000), .claim, .activation true]

/-- The operator pauses the bridge while the cycle waits for its advisers. -/
theorem paused_cycle_orders :
    ¬ (run step loopStart ([.beginCycle, .pause, .decide buySignal] ++ ordered)).PausesOrders := by
  intro h
  have hsent : (run step loopStart ([.beginCycle, .pause, .decide buySignal] ++ ordered)).sent.map
      (fun submission => (submission.execution.automatic, submission.paused)) = [(true, true)] := by
    decide +kernel
  obtain ⟨submission, rest, hs, hf, -⟩ := List.map_eq_cons_iff.mp hsent
  obtain ⟨ha, hp⟩ := Prod.mk.inj hf
  have hnot := h submission (hs ▸ List.mem_cons_self) ha
  cases hnot.symm.trans hp

end Sample

end Gail.Trading.TradingLoop
