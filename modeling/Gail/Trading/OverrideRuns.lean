import Gail.Trading.LoopLimits

/-! What becomes of the overrides that an operator posts. The evaluation reads the pending one when it
decides; a review that decides meanwhile reads it too, and any order that is accepted clears it. -/
namespace Gail.Trading
open Gail.Library

section Definitions
variable {F : Type}

/-- What the override names is named. -/
def NamedBy (asked : Option String) (name : String) : Prop :=
  ∀ text ∈ asked, (trim text).isEmpty = false → name = text

instance (asked : Option String) (name : String) : Decidable (NamedBy asked name) :=
  inferInstanceAs (Decidable (∀ _ ∈ asked, _))

namespace PostedOverride

/-- The amount that it asks for; without one, the least amount. -/
def amountUsd (posted : PostedOverride F) (config : LoopConfig F) : F :=
  posted.request.amountUsd.getD config.microTradeMinUsd

/-- The order that the override asks for. -/
structure Asks (posted : PostedOverride F) (config : LoopConfig F) (order : ExecutionOrder F) :
    Prop where
  action : order.action = posted.request.action
  exchange : NamedBy posted.request.exchange order.exchange
  symbol : NamedBy posted.request.symbol order.symbol
  amountUsd : order.amountUsd = posted.amountUsd config

end PostedOverride

/-- It was replaced or cancelled, or its own order was accepted. -/
def OverrideRemoval.Rightful (removal : OverrideRemoval) : Prop :=
  removal.cause = .replaced ∨ removal.cause = .cancelled ∨
    removal.cause = .orderAccepted (some removal.number)

instance (removal : OverrideRemoval) : Decidable removal.Rightful := inferInstanceAs (Decidable (_ ∨ _))

/-- The override that an execution applies. -/
def PlanExecution.override (execution : PlanExecution F) : Option (PostedOverride F) :=
  execution.plan.decision.overrideApplied

/-- The numbers of the overrides that orders were placed for. -/
def submittedOverrides (sent : List (LoopSubmission F)) : List Nat :=
  sent.filterMap fun submission => submission.execution.override.map PostedOverride.number

/-- No override is submitted twice, each as it was asked for and none by a review. None is lost: it is
pending, or was removed rightfully. -/
structure OverridesKept (config : LoopConfig F) (sent : List (LoopSubmission F))
    (removed : List OverrideRemoval) (pending : Option (PostedOverride F)) (posted : Nat) : Prop where
  once : (submittedOverrides sent).Nodup
  own : ∀ submission ∈ sent, ∀ posted ∈ submission.execution.override,
    posted.Asks config submission.execution.order
  evaluated : ∀ submission ∈ sent, submission.execution.fromReview = true →
    submission.execution.override = none
  rightful : ∀ removal ∈ removed, removal.Rightful
  accounted : ∀ number < posted, (∃ override ∈ pending, override.number = number) ∨
    ∃ removal ∈ removed, removal.number = number

namespace LoopPhase

def gated : LoopPhase F → Option (PlanExecution F)
  | executing execution => some execution
  | _ => none

def claiming : LoopPhase F → Option (PlanExecution F)
  | cleared execution => some execution
  | _ => none

def awaiting : LoopPhase F → Option (PlanExecution F)
  | submitting execution _ => some execution
  | _ => none

end LoopPhase

namespace TradingLoop

def OverridesKept (w : TradingLoop F) : Prop :=
  Trading.OverridesKept w.config w.sent w.removed w.pendingOverride w.posted

/-- The plan of a finished review that the owner takes up. -/
def takenPlan (w : TradingLoop F) (modelsUnchanged : Bool) : Option (TradePlan F) :=
  match w.phase, w.review with
  | .idle, some (.planned plan) =>
    if !w.paused && w.pendingOverride.isNone && modelsUnchanged then plan else none
  | _, _ => none

variable [Scalar F]

/-- The owner does not take up a review that has decided by an override; an override passes the gates as
it was asked for; one that has been submitted before is still leased; and when an order is accepted, no
override is pending but its own. -/
def Heeds (w : TradingLoop F) : LoopEvent F → Prop
  | .completeReview modelsUnchanged =>
    ∀ plan ∈ w.takenPlan modelsUnchanged, plan.decision.overrideApplied.isNone = true
  | .gates exchange amountUsd _ =>
    ∀ execution ∈ w.phase.gated, ∀ posted ∈ execution.override,
      NamedBy posted.request.exchange exchange ∧ amountUsd = posted.amountUsd w.config
  | .claim =>
    ∀ execution ∈ w.phase.claiming, ∀ posted ∈ execution.override,
      posted.number ∈ submittedOverrides w.sent → ∀ key ∈ execution.order.intentKey,
        ((w.trading.retainClaims w.now).inFlightOrderIntents key).isSome = true
  | .reply (some _) =>
    ∀ execution ∈ w.phase.awaiting, ∀ posted ∈ w.pendingOverride,
      execution.override.map PostedOverride.number = some posted.number
  | _ => True

instance [DecidableEq F] (w : TradingLoop F) : (event : LoopEvent F) → Decidable (w.Heeds event)
  | .completeReview _ => inferInstanceAs (Decidable (∀ _ ∈ _, _))
  | .gates _ _ _ => inferInstanceAs (Decidable (∀ _ ∈ _, ∀ _ ∈ _, _ ∧ _))
  | .claim => inferInstanceAs (Decidable (∀ _ ∈ _, ∀ _ ∈ _, _ → ∀ _ ∈ _, _))
  | .reply (some _) => inferInstanceAs (Decidable (∀ _ ∈ _, ∀ _ ∈ _, _))
  | .reply none | .tick _ | .pause | .resume | .postOverride _ | .overrideMaxOpenPositions _
  | .portfolio _ | .importTrades _ | .beginCycle | .decide _ | .abandonCycle | .execute | .endCycle _
  | .checkReview | .decideReview _ _ | .abandonReview | .refuse | .activation _ => isTrue trivial

end TradingLoop

end Definitions

section Kept
variable {F : Type} {config : LoopConfig F} {sent : List (LoopSubmission F)}
  {removed : List OverrideRemoval} {pending : Option (PostedOverride F)} {posted : Nat}

/-- What is pending is removed for a rightful cause. -/
theorem OverridesKept.remove (h : OverridesKept config sent removed pending posted)
    (next : Option (PostedOverride F)) (cause : RemovalCause)
    (hc : ∀ override ∈ pending, ({ number := override.number, cause } : OverrideRemoval).Rightful) :
    OverridesKept config sent
      (removed ++ pending.toList.map fun override => { number := override.number, cause }) next posted where
  once := h.once
  own := h.own
  evaluated := h.evaluated
  rightful removal hr := by
    rcases List.mem_append.mp hr with hr | hr
    · exact h.rightful removal hr
    · obtain ⟨override, ho, rfl⟩ := List.mem_map.mp hr
      exact hc override (Option.mem_toList.mp ho)
  accounted number hn := by
    refine Or.inr ?_
    rcases h.accounted number hn with ⟨override, ho, rfl⟩ | ⟨removal, hr, rfl⟩
    · refine ⟨{ number := override.number, cause }, List.mem_append_right _ ?_, rfl⟩
      exact List.mem_map.mpr ⟨override, Option.mem_toList.mpr ho, rfl⟩
    · exact ⟨removal, List.mem_append_left _ hr, rfl⟩

theorem OverridesKept.post (h : OverridesKept config sent removed pending posted)
    (request : TradeOverride F) :
    OverridesKept config sent
      (removed ++ pending.toList.map fun override => { number := override.number, cause := .replaced })
      (some { number := posted, request }) (posted + 1) := by
  have hr := h.remove (some { number := posted, request }) .replaced fun _ _ => Or.inl rfl
  refine ⟨hr.once, hr.own, hr.evaluated, hr.rightful, fun number hn => ?_⟩
  rcases Nat.lt_succ_iff_lt_or_eq.mp hn with hlt | rfl
  · exact hr.accounted number hlt
  · exact Or.inl ⟨_, rfl, rfl⟩

/-- An order is placed: of the engine, or of an override that is submitted for the first time. -/
theorem OverridesKept.submit (h : OverridesKept config sent removed pending posted)
    {submission : LoopSubmission F}
    (ho : ∀ override ∈ submission.execution.override,
      override.Asks config submission.execution.order ∧ submission.execution.fromReview = false ∧
        override.number ∉ submittedOverrides sent) :
    OverridesKept config (sent ++ [submission]) removed pending posted where
  once := by
    unfold submittedOverrides
    rw [List.filterMap_append]
    refine List.nodup_append.mpr ⟨h.once, ?_, ?_⟩
    · cases hs : submission.execution.override <;> simp [hs]
    · intro number hn other hm
      rw [List.mem_filterMap] at hm
      obtain ⟨added, ha, he⟩ := hm
      obtain rfl := List.mem_singleton.mp ha
      obtain ⟨override, hov, rfl⟩ := Option.map_eq_some_iff.mp he
      rintro rfl
      exact (ho override hov).2.2 hn
  own added ha override hov := by
    rcases List.mem_append.mp ha with ha | ha
    · exact h.own added ha override hov
    · obtain rfl := List.mem_singleton.mp ha
      exact (ho override hov).1
  evaluated added ha hr := by
    rcases List.mem_append.mp ha with ha | ha
    · exact h.evaluated added ha hr
    · obtain rfl := List.mem_singleton.mp ha
      cases hov : added.execution.override with
      | none => rfl
      | some override => cases hr.symm.trans (ho override hov).2.1
  rightful := h.rightful
  accounted := h.accounted

end Kept

section Decisions
variable {F : Type}

/-- What a decision names, the target market does not change. -/
theorem TradeDecision.fillTarget_symbol {decision : TradeDecision F}
    {market : Option (String × String)} (h : (trim decision.symbol).isEmpty = false) :
    (decision.fillTarget market).symbol = decision.symbol := by
  unfold fillTarget
  split
  · rfl
  · dsimp only
    rw [h, if_neg Bool.false_ne_true]

variable [Scalar F]

theorem DecisionInput.decide_none (input : DecisionInput F) (view : LimitView F)
    (config : LoopConfig F) : (input.decide none view config).overrideApplied = none := by
  unfold DecisionInput.decide
  dsimp only
  repeat' split
  all_goals rfl

theorem TradeDecision.withhold_overrideApplied (decision : TradeDecision F) (withheld : Bool) :
    (decision.withhold withheld).overrideApplied = decision.overrideApplied := by
  unfold withhold
  split <;> rfl

/-- A decision by an override is that of the override, withheld or not. -/
theorem DecisionInput.decide_override {input : DecisionInput F} {pending : Option (PostedOverride F)}
    {view : LimitView F} {config : LoopConfig F} {posted : PostedOverride F}
    (h : (input.decide pending view config).overrideApplied = some posted) :
    (input.decide pending view config).withhold input.withheld = posted.applyOverride config := by
  cases pending with
  | none => cases (input.decide_none view config).symm.trans h
  | some override =>
    cases h
    unfold TradeDecision.withhold
    rw [if_neg]
    · rfl
    · simp [DecisionInput.decide, PostedOverride.applyOverride]

/-- A decision by an override does what the override names. -/
theorem DecisionInput.decide_names {input : DecisionInput F} {pending : Option (PostedOverride F)}
    {view : LimitView F} {config : LoopConfig F} {posted : PostedOverride F} {decision : TradeDecision F}
    (hd : decision = ((input.decide pending view config).withhold input.withheld).fillTarget input.market)
    (ho : decision.overrideApplied = some posted) :
    decision.action = posted.request.action ∧ NamedBy posted.request.symbol decision.symbol := by
  subst hd
  rw [TradeDecision.fillTarget_overrideApplied, TradeDecision.withhold_overrideApplied] at ho
  rw [decide_override ho]
  refine ⟨TradeDecision.fillTarget_action _ _, ?_⟩
  intro text ht hblank
  have hsymbol : (posted.applyOverride config).symbol = text := by
    rw [PostedOverride.applyOverride, Option.mem_def.mp ht, Option.getD_some]
  rw [TradeDecision.fillTarget_symbol (by rw [hsymbol]; exact hblank), hsymbol]

/-- A leased intent is not claimed. -/
theorem claimExecutionIntent_leased {state : TradingState F} {key : String} {config : ExecutionConfig F}
    {operatorOverride : Bool} {now : F}
    (h : ((state.retainClaims now).inFlightOrderIntents key).isSome = true) :
    (claimExecutionIntent state key config operatorOverride now).2 ≠ .ok () := by
  obtain ⟨existing, he⟩ := Option.isSome_iff_exists.mp h
  unfold claimExecutionIntent
  dsimp only
  rw [he]
  exact fun hc => nomatch hc

end Decisions

namespace TradingLoop
variable {F : Type} {w : TradingLoop F}

/-- The overrides on their way to an order. -/
structure OverridesTracked (w : TradingLoop F) : Prop where
  kept : w.OverridesKept
  decided : ∀ plan, w.phase = .decided plan → ∀ posted, plan.decision.overrideApplied = some posted →
    plan.decision.action = posted.request.action ∧ NamedBy posted.request.symbol plan.decision.symbol
  executing : ∀ execution, w.phase.execution = some execution → ∀ posted ∈ execution.override,
    execution.order.action = posted.request.action ∧
      NamedBy posted.request.symbol execution.order.symbol ∧ execution.fromReview = false
  cleared : ∀ execution, w.phase = .cleared execution → ∀ posted ∈ execution.override,
    posted.Asks w.config execution.order
  claimed : ∀ execution key, w.phase = .claimed execution key → ∀ posted ∈ execution.override,
    posted.Asks w.config execution.order ∧ posted.number ∉ submittedOverrides w.sent

/-- The owner is not on its way to an order. -/
theorem overridesTracked_of_none (hkept : w.OverridesKept) (hd : ∀ plan, w.phase ≠ .decided plan)
    (he : w.phase.execution = none) : w.OverridesTracked where
  kept := hkept
  decided plan hp := absurd hp (hd plan)
  executing _ hp := nomatch he.symm.trans hp
  cleared _ hp := by rw [hp] at he; cases he
  claimed _ _ hp := by rw [hp] at he; cases he

theorem OverridesTracked.finished (hkept : w.OverridesKept) {execution : PlanExecution F}
    (hp : w.phase = execution.next) : w.OverridesTracked := by
  apply overridesTracked_of_none hkept
  · rw [hp]
    exact execution.next_ne_decided
  · rw [hp]
    exact execution.next_execution

theorem start_overridesTracked (now : F) (config : LoopConfig F) (paused : Bool)
    (trading : TradingState F) (openPositions : Nat) (maxOpenPositionsOverride : Option Nat) :
    (start now config paused trading openPositions maxOpenPositionsOverride).OverridesTracked := by
  refine overridesTracked_of_none ?_ (fun _ hp => nomatch hp) rfl
  exact ⟨.nil, fun _ hs => (nomatch hs), fun _ hs => (nomatch hs), fun _ hr => (nomatch hr),
    fun _ hn => absurd hn (Nat.not_lt_zero _)⟩

variable [Scalar F]

/-- An execution that applies an override is of the evaluation, and does what the override names. -/
theorem Chosen.names {plan : TradePlan F} {event : LoopEvent F} {fromReview : Bool}
    {review : Option (MaintenanceReview F)} (hc : w.Chosen plan event fromReview review)
    (h : w.OverridesTracked) (hg : w.Heeds event) (posted : PostedOverride F)
    (ho : plan.decision.overrideApplied = some posted) :
    plan.decision.action = posted.request.action ∧
      NamedBy posted.request.symbol plan.decision.symbol ∧ fromReview = false := by
  cases hc with
  | main hphase =>
    obtain ⟨ha, hs⟩ := h.decided plan hphase posted ho
    exact ⟨ha, hs, rfl⟩
  | review hphase hreview hpaused hpending =>
    have htaken : plan ∈ w.takenPlan true := by
      simp [takenPlan, hphase, hreview, hpaused, hpending]
    have hnone := hg plan htaken
    rw [ho] at hnone
    cases hnone

variable [NumberText F]

/-- Every step that heeds the overrides keeps track of them. -/
theorem OverridesTracked.step (h : w.OverridesTracked) {event : LoopEvent F} (hg : w.Heeds event) :
    (w.step event).OverridesTracked := by
  have ht := w.step_transition event
  generalize w.step event = stepped at ht
  cases ht with
  | stay => exact h
  | tick | pause | resume | limit | hold | importTrades | plan | review =>
    exact ⟨h.kept, h.decided, h.executing, h.cleared, h.claimed⟩
  | post request =>
    exact ⟨h.kept.post request, h.decided, h.executing, h.cleared, h.claimed⟩
  | begin | holdBack | endCycle =>
    exact overridesTracked_of_none h.kept (fun _ hp => nomatch hp) rfl
  | decide input _ decision hdecision =>
    refine ⟨h.kept, ?_, fun _ hp => (nomatch hp), fun _ hp => (nomatch hp), fun _ _ hp => (nomatch hp)⟩
    rintro plan ⟨⟩ posted ho
    exact DecisionInput.decide_names hdecision ho
  | execute _ plan fromReview review hchosen =>
    refine ⟨h.kept, fun _ hp => (nomatch hp), ?_, fun _ hp => (nomatch hp), fun _ _ hp => (nomatch hp)⟩
    rintro execution ⟨⟩ posted ho
    exact hchosen.names h hg posted ho
  | passOver => exact .finished h.kept rfl
  | cancel =>
    have hkept := h.kept.remove none .cancelled fun _ _ => Or.inr (Or.inl rfl)
    exact .finished hkept rfl
  | gates execution exchange amountUsd referencePrice hphase =>
    have hold := h.executing execution (by rw [hphase]; rfl)
    refine ⟨h.kept, fun _ hp => (nomatch hp), ?_, ?_, fun _ _ hp => (nomatch hp)⟩
    · rintro other ⟨⟩
      exact hold
    · rintro other ⟨⟩ posted ho
      obtain ⟨hexchange, hamount⟩ := hg execution (by rw [hphase]; rfl) posted ho
      exact ⟨(hold posted ho).1, hexchange, (hold posted ho).2.1, hamount⟩
  | finish => exact .finished h.kept rfl
  | claim execution key trading hphase _ hkey hclaim =>
    refine ⟨h.kept, fun _ hp => (nomatch hp), ?_, fun _ hp => (nomatch hp), ?_⟩
    · rintro other ⟨⟩
      exact h.executing execution (by rw [hphase]; rfl)
    · rintro other _ ⟨⟩ posted ho
      refine ⟨h.cleared execution hphase posted ho, fun hs => ?_⟩
      have hleased := hg execution (by rw [hphase]; rfl) posted ho hs key hkey
      exact claimExecutionIntent_leased hleased hclaim
  | submit execution key hphase =>
    have hold := h.executing execution (by rw [hphase]; rfl)
    refine ⟨?_, fun _ hp => (nomatch hp), ?_, fun _ hp => (nomatch hp), fun _ _ hp => (nomatch hp)⟩
    · apply h.kept.submit
      intro posted ho
      obtain ⟨hasks, hnew⟩ := h.claimed execution key hphase posted ho
      exact ⟨hasks, (hold posted ho).2.2, hnew⟩
    · rintro other ⟨⟩
      exact hold
  | accept execution key result hphase =>
    have hown := hg execution (by rw [hphase]; rfl)
    have hkept := h.kept.remove none (.orderAccepted (execution.override.map PostedOverride.number))
      fun posted hp => Or.inr (Or.inr (congrArg RemovalCause.orderAccepted (hown posted hp)))
    exact .finished hkept rfl

/-- In every run that heeds the overrides, each leads to one order at most, as it was asked for and of the
evaluation, and is pending until it is replaced, cancelled or executed. -/
theorem overrides_kept (now : F) (config : LoopConfig F) (paused : Bool) (trading : TradingState F)
    (openPositions : Nat) (maxOpenPositionsOverride : Option Nat) (events : List (LoopEvent F))
    (h : Along TradingLoop.step Heeds
      (start now config paused trading openPositions maxOpenPositionsOverride) events) :
    (run TradingLoop.step (start now config paused trading openPositions maxOpenPositionsOverride)
      events).OverridesKept := by
  have hstep (s : TradingLoop F) (event : LoopEvent F) (hs : s.OverridesTracked) (hg : s.Heeds event) :
      (s.step event).OverridesTracked := hs.step hg
  exact (run_invariant TradingLoop.step hstep (start_overridesTracked _ _ _ _ _ _) h).kept

section Sample

def sellEther : TradeOverride ℚ :=
  { action := .sell, exchange := some "kraken", symbol := some "ETH/USDT", amountUsd := some 20 }

/-- The evaluation submits the override, and its order is accepted. -/
def executed : List (LoopEvent ℚ) :=
  [.beginCycle, .decide buySignal, .execute, .gates "kraken" 20 none, .claim, .activation true,
    .reply (some filled), .endCycle none]

/-- An override is posted while an order of the engine is on its way. -/
def postedLate : List (LoopEvent ℚ) :=
  [.beginCycle, .decide buySignal] ++ ordered ++ [.postOverride sellEther, .reply (some filled)]

/-- An override is posted after a pruning review has begun, and before it decides. -/
def postedDuringReview : List (LoopEvent ℚ) :=
  [.beginCycle, .abandonCycle, .endCycle (some .pruning), .checkReview, .postOverride sellEther,
    .decideReview buySignal (some 300)]

/-- The owner takes up the plan of the review, once nothing is pending. -/
def takenAgain : List (LoopEvent ℚ) :=
  [.completeReview true, .gates "kraken" 300 none, .claim, .activation true]

theorem executed_override_kept :
    (run TradingLoop.step loopStart (.postOverride sellEther :: executed)).OverridesKept :=
  overrides_kept 0 loopConfig false (.new 200) 0 none (.postOverride sellEther :: executed)
    (by decide +kernel)

/-- The order of the engine clears the override; and the review submits an override that has been
executed, for a larger amount. -/
theorem overrides_lost_and_repeated :
    ¬ (run TradingLoop.step loopStart postedLate).OverridesKept ∧
      ¬ (run TradingLoop.step loopStart (postedDuringReview ++ executed ++ takenAgain)).OverridesKept := by
  constructor
  · intro h
    have hremoved : ¬ ∀ removal ∈ (run TradingLoop.step loopStart postedLate).removed,
        removal.Rightful := by
      decide +kernel
    exact hremoved h.rightful
  · intro h
    have htwice : ¬ (submittedOverrides (run TradingLoop.step loopStart
        (postedDuringReview ++ executed ++ takenAgain)).sent).Nodup := by
      decide +kernel
    exact htwice h.once

end Sample

end TradingLoop

end Gail.Trading
