import Gail.Trading.LoopPauses
import Mathlib.Tactic.Linarith

/-! The limits that a plan is decided under and the limits that it is executed under. The gates for open
positions and for the cooldown are in `decide`; a review decides long before its plan is executed. -/
namespace Gail.Trading
open Gail.Library

/-- What the gates rest on. It is true of doubles, a NaN included. -/
class LawfulCooldown (F : Type) [Scalar F] : Prop where
  le_trans {a b c : F} : a ≤ b → b ≤ c → a ≤ c
  lt_of_lt_of_le {a b c : F} : a < b → b ≤ c → a < c
  /-- What is too early for the later of two times is so for the earlier one. -/
  sub_lt {a b c d : F} : a ≤ b → b - c < d → a - c < d
  zero_lt_buy : (0.0 : F) < 0.2
  zero_lt_strongBuy : (0.0 : F) < 0.65

instance : LawfulCooldown ℚ where
  le_trans h h' := h.trans h'
  lt_of_lt_of_le h h' := h.trans_le h'
  sub_lt h hlt := by linarith
  zero_lt_buy := by norm_num
  zero_lt_strongBuy := by norm_num

section Definitions
variable {F : Type} [Scalar F]

/-- The clock has not gone back. -/
def Since (earlier later : F) : Prop := earlier = later ∨ earlier ≤ later

/-- A plan of the engine has passed both gates when it was decided. -/
structure TradePlan.Permitted (plan : TradePlan F) (config : LoopConfig F) : Prop where
  cooldown : plan.decision.overrideApplied = none → plan.decidedAt.CooldownOver config
  room : plan.decision.overrideApplied = none → plan.decision.action.side = some .buy →
    plan.decidedAt.Room

namespace PlanExecution

/-- The limits hold when the execution starts. -/
def WithinLimits (execution : PlanExecution F) (config : LoopConfig F) : Prop :=
  execution.startedAt.CooldownOver config ∧
    (execution.plan.decision.action.side = some .buy → execution.startedAt.Room)

/-- The plan is not overtaken: a trade that was recorded after a review had decided is old enough, and
there is room for a buy if the positions or their maximum have changed since the decision. -/
def Current (execution : PlanExecution F) (config : LoopConfig F) : Prop :=
  (execution.fromReview = true →
      execution.startedAt.lastTradeAt ≠ execution.plan.decidedAt.lastTradeAt →
        execution.startedAt.CooldownOver config) ∧
    (execution.plan.decision.action.side = some .buy →
      execution.startedAt.openPositions ≠ execution.plan.decidedAt.openPositions ∨
        execution.startedAt.maxOpenPositions ≠ execution.plan.decidedAt.maxOpenPositions →
          execution.startedAt.Room)

instance (execution : PlanExecution F) (config : LoopConfig F) :
    Decidable (execution.WithinLimits config) := inferInstanceAs (Decidable (_ ∧ _))

instance [DecidableEq F] (execution : PlanExecution F) (config : LoopConfig F) :
    Decidable (execution.Current config) := inferInstanceAs (Decidable (_ ∧ _))

/-- What is known of an execution of the loop. -/
structure Timely (execution : PlanExecution F) (config : LoopConfig F) : Prop where
  permitted : execution.plan.Permitted config
  since : Since execution.plan.decidedAt.now execution.startedAt.now
  undisturbed : execution.fromReview = false →
    execution.startedAt.lastTradeAt = execution.plan.decidedAt.lastTradeAt

end PlanExecution

namespace TradingLoop

/-- Every order of the engine was started within the limits. -/
def WithinLimits (w : TradingLoop F) : Prop :=
  ∀ submission ∈ w.sent, submission.execution.automatic = true →
    submission.execution.WithinLimits w.config

/-- No order of the engine was made of an overtaken plan. -/
def Current (w : TradingLoop F) : Prop :=
  ∀ submission ∈ w.sent, submission.execution.automatic = true → submission.execution.Current w.config

instance (w : TradingLoop F) : Decidable w.WithinLimits := inferInstanceAs (Decidable (∀ _ ∈ _, _))

instance [DecidableEq F] (w : TradingLoop F) : Decidable w.Current :=
  inferInstanceAs (Decidable (∀ _ ∈ _, _))

/-- Plans and executions, those that are made and those that have led to an order. -/
structure LimitsKept (w : TradingLoop F) : Prop where
  decided : ∀ plan, w.phase = .decided plan → plan.Permitted w.config ∧
    Since plan.decidedAt.now w.now ∧ plan.decidedAt.lastTradeAt = w.trading.ledger.lastTradeAt
  planned : ∀ plan, w.review = some (.planned (some plan)) → plan.Permitted w.config ∧
    Since plan.decidedAt.now w.now
  executing : ∀ execution, w.phase.execution = some execution → execution.Timely w.config
  sent : ∀ submission ∈ w.sent, submission.execution.Timely w.config

end TradingLoop

end Definitions

section Decisions
variable {F : Type}

@[simp] theorem TradeDecision.fillTarget_action (decision : TradeDecision F)
    (market : Option (String × String)) : (decision.fillTarget market).action = decision.action := by
  unfold fillTarget
  split <;> rfl

@[simp] theorem TradeDecision.fillTarget_overrideApplied (decision : TradeDecision F)
    (market : Option (String × String)) :
    (decision.fillTarget market).overrideApplied = decision.overrideApplied := by
  unfold fillTarget
  split <;> rfl

end Decisions

section Limits
variable {F : Type} [Scalar F] [LawfulCooldown F]

theorem Since.trans {earlier later latest : F} (h : Since earlier later) (hle : later ≤ latest) :
    Since earlier latest := by
  rcases h with rfl | h
  · exact Or.inr hle
  · exact Or.inr (LawfulCooldown.le_trans h hle)

/-- A cooldown that is over stays over until the next trade. -/
theorem LimitView.CooldownOver.later {config : LoopConfig F} {view later : LimitView F}
    (h : view.CooldownOver config) (hsince : Since view.now later.now)
    (hlast : later.lastTradeAt = view.lastTradeAt) : later.CooldownOver config := by
  intro last hl hlt
  rw [hlast] at hl
  apply h last hl
  rcases hsince with he | hle
  · rw [he]
    exact hlt
  · exact LawfulCooldown.sub_lt hle hlt

theorem TradeAction.pos_of_buy {signal : F} (h : (signalToAction signal).side = some .buy) :
    0.0 < signal := by
  unfold signalToAction at h
  split at h
  · next hs => exact LawfulCooldown.lt_of_lt_of_le LawfulCooldown.zero_lt_strongBuy hs
  split at h
  · next hs => exact LawfulCooldown.lt_of_lt_of_le LawfulCooldown.zero_lt_buy hs
  split at h
  · cases h
  split at h <;> cases h

omit [LawfulCooldown F] in
/-- The engine holds, or both gates let its signal pass. -/
theorem DecisionInput.decide_cases (input : DecisionInput F) (view : LimitView F)
    (config : LoopConfig F) :
    (input.decide none view config).action = .hold ∨
      (input.decide none view config).action = TradeAction.signalToAction input.blendedSignal ∧
        view.CooldownOver config ∧ (0.0 < input.blendedSignal → view.Room) := by
  unfold DecisionInput.decide
  dsimp only
  split
  · exact Or.inl rfl
  split
  · exact Or.inl rfl
  next hroom =>
  split
  · exact Or.inl rfl
  next hcool =>
  split
  · exact Or.inl rfl
  split
  · exact Or.inl rfl
  refine Or.inr ⟨rfl, not_not.mp hcool, ?_⟩
  intro hpos
  exact lt_of_not_ge fun hle => hroom ⟨hle, hpos⟩

/-- A decision of the engine to trade has passed the gates. -/
theorem DecisionInput.decide_permitted {input : DecisionInput F} {pending : Option (PostedOverride F)}
    {view : LimitView F} {config : LoopConfig F} {decision : TradeDecision F}
    (hd : decision.overrideApplied = (input.decide pending view config).overrideApplied)
    (ha : decision.action = (input.decide pending view config).action)
    (hside : decision.action.side.isSome) :
    ({ decision, decidedAt := view } : TradePlan F).Permitted config := by
  have hgates (hnone : decision.overrideApplied = none) : view.CooldownOver config ∧
      (decision.action.side = some .buy → view.Room) := by
    cases pending with
    | some posted => cases hd.symm.trans hnone
    | none =>
      rcases input.decide_cases view config with hhold | ⟨hsignal, hcool, hroom⟩
      · rw [ha, hhold] at hside
        cases hside
      · refine ⟨hcool, fun hbuy => hroom ?_⟩
        rw [ha, hsignal] at hbuy
        exact TradeAction.pos_of_buy hbuy
  exact ⟨fun hnone => (hgates hnone).1, fun hnone => (hgates hnone).2⟩

omit [LawfulCooldown F] in
/-- A decision that still is a trade was not withheld. -/
theorem TradeDecision.withhold_of_side {decision : TradeDecision F} {withheld : Bool}
    (h : (decision.withhold withheld).action.side.isSome) : decision.withhold withheld = decision := by
  unfold withhold at h ⊢
  split
  · next hw =>
    rw [if_pos hw] at h
    cases h
  · rfl

/-- For an order of the engine, the limits hold at its start exactly when its plan is not overtaken. -/
theorem PlanExecution.Timely.within_iff {execution : PlanExecution F} {config : LoopConfig F}
    (h : execution.Timely config) (ha : execution.automatic = true) :
    execution.WithinLimits config ↔ execution.Current config := by
  have hnone : execution.plan.decision.overrideApplied = none := Option.isNone_iff_eq_none.mp ha
  constructor
  · rintro ⟨hcool, hroom⟩
    exact ⟨fun _ _ => hcool, fun hbuy _ => hroom hbuy⟩
  · rintro ⟨hcool, hroom⟩
    constructor
    · by_cases hlast : execution.startedAt.lastTradeAt = execution.plan.decidedAt.lastTradeAt
      · exact (h.permitted.cooldown hnone).later h.since hlast
      · cases hr : execution.fromReview with
        | true => exact hcool hr hlast
        | false => exact absurd (h.undisturbed hr) hlast
    · intro hbuy
      by_cases hsame : execution.startedAt.openPositions = execution.plan.decidedAt.openPositions ∧
          execution.startedAt.maxOpenPositions = execution.plan.decidedAt.maxOpenPositions
      · have hthen := h.permitted.room hnone hbuy
        unfold LimitView.Room at hthen ⊢
        rw [hsame.1, hsame.2]
        exact hthen
      · exact hroom hbuy (not_and_or.mp hsame)

end Limits

namespace TradingLoop
variable {F : Type} [Scalar F] {w : TradingLoop F}

theorem Chosen.timely {plan : TradePlan F} {event : LoopEvent F} {fromReview : Bool}
    {review : Option (MaintenanceReview F)} (hc : w.Chosen plan event fromReview review)
    (h : w.LimitsKept) : (w.executionOf plan fromReview).Timely w.config := by
  cases hc with
  | main hphase =>
    obtain ⟨hp, hs, hl⟩ := h.decided plan hphase
    exact ⟨hp, hs, fun _ => hl.symm⟩
  | review _ hreview =>
    obtain ⟨hp, hs⟩ := h.planned plan hreview
    exact ⟨hp, hs, fun hc => nomatch hc⟩

theorem start_limitsKept (now : F) (config : LoopConfig F) (paused : Bool) (trading : TradingState F)
    (openPositions : Nat) (maxOpenPositionsOverride : Option Nat) :
    (start now config paused trading openPositions maxOpenPositionsOverride).LimitsKept :=
  ⟨fun _ h => (nomatch h), fun _ h => (nomatch h), fun _ h => (nomatch h), fun _ h => (nomatch h)⟩

variable [LawfulCooldown F] [NumberText F]

/-- Every step keeps what is known of the plans. -/
theorem LimitsKept.step (h : w.LimitsKept) (event : LoopEvent F) : (w.step event).LimitsKept := by
  have ht := w.step_transition event
  generalize w.step event = stepped at ht
  have hplanned {plan fromReview review} (hc : w.Chosen plan event fromReview review) (kept : TradePlan F)
      (hr : review = some (.planned (some kept))) : w.review = some (.planned (some kept)) := by
    cases hc with
    | main => exact hr
    | review => cases hr
  cases ht with
  | stay => exact h
  | tick later hle =>
    constructor
    · intro plan hp
      obtain ⟨hperm, hs, hl⟩ := h.decided plan hp
      exact ⟨hperm, hs.trans hle, hl⟩
    · intro plan hp
      obtain ⟨hperm, hs⟩ := h.planned plan hp
      exact ⟨hperm, hs.trans hle⟩
    · exact h.executing
    · exact h.sent
  | pause | resume | post | limit | hold => exact ⟨h.decided, h.planned, h.executing, h.sent⟩
  | importTrades trades =>
    refine ⟨fun plan hp => ?_, h.planned, h.executing, h.sent⟩
    rw [TradeLedger.importTradeHistory_lastTradeAt]
    exact h.decided plan hp
  | begin | holdBack =>
    exact ⟨fun _ hp => (nomatch hp), h.planned, fun _ hp => (nomatch hp), h.sent⟩
  | endCycle kind =>
    refine ⟨fun _ hp => (nomatch hp), fun plan hp => h.planned plan ?_, fun _ hp => (nomatch hp), h.sent⟩
    cases hr : w.review with
    | none => cases kind <;> simp [hr] at hp
    | some review => simpa [hr] using hp
  | decide input _ decision hdecision hside =>
    refine ⟨?_, h.planned, fun _ hp => (nomatch hp), h.sent⟩
    rintro plan ⟨⟩
    refine ⟨?_, Or.inl rfl, rfl⟩
    have haction : decision.action = _ := hdecision ▸ TradeDecision.fillTarget_action _ _
    have hoverride : decision.overrideApplied = _ :=
      hdecision ▸ TradeDecision.fillTarget_overrideApplied _ _
    have hkeep := TradeDecision.withhold_of_side (haction ▸ hside)
    rw [hkeep] at haction hoverride
    exact DecisionInput.decide_permitted hoverride haction hside
  | plan input holdingUsd kind _ decision hdecision hside =>
    refine ⟨h.decided, ?_, h.executing, h.sent⟩
    rintro plan ⟨⟩
    refine ⟨?_, Or.inl rfl⟩
    subst hdecision
    have hsome := Option.isSome_of_eq_some hside
    have hkeep := TradeDecision.withhold_of_side hsome
    have hoverride := congrArg TradeDecision.overrideApplied hkeep
    have haction := congrArg TradeDecision.action hkeep
    exact DecisionInput.decide_permitted hoverride haction hsome
  | review _ review hne => exact ⟨h.decided, fun plan hp => absurd hp (hne plan), h.executing, h.sent⟩
  | execute _ plan fromReview review hchosen =>
    refine ⟨fun _ hp => (nomatch hp), fun kept hp => h.planned kept (hplanned hchosen kept hp), ?_, h.sent⟩
    rintro execution ⟨⟩
    exact hchosen.timely h
  | passOver _ plan fromReview review hchosen | cancel _ plan fromReview review hchosen =>
    refine ⟨fun _ hp => absurd hp (PlanExecution.next_ne_decided _ _),
      fun kept hp => h.planned kept (hplanned hchosen kept hp), fun _ hp => ?_, h.sent⟩
    cases (PlanExecution.next_execution _).symm.trans hp
  | gates execution exchange amountUsd referencePrice hphase =>
    refine ⟨fun _ hp => (nomatch hp), h.planned, ?_, h.sent⟩
    rintro other ⟨⟩
    have hold := h.executing execution (by rw [hphase]; rfl)
    exact ⟨hold.permitted, hold.since, hold.undisturbed⟩
  | finish _ execution =>
    refine ⟨fun _ hp => absurd hp (PlanExecution.next_ne_decided _ _), h.planned, fun _ hp => ?_, h.sent⟩
    cases (PlanExecution.next_execution _).symm.trans hp
  | claim execution key trading hphase =>
    refine ⟨fun _ hp => (nomatch hp), h.planned, ?_, h.sent⟩
    rintro other ⟨⟩
    exact h.executing execution (by rw [hphase]; rfl)
  | submit execution key hphase =>
    have hold := h.executing execution (by rw [hphase]; rfl)
    refine ⟨fun _ hp => (nomatch hp), h.planned, ?_, ?_⟩
    · rintro other ⟨⟩
      exact hold
    · intro submission hs
      rcases List.mem_append.mp hs with hs | hs
      · exact h.sent submission hs
      · rw [List.mem_singleton.mp hs]
        exact hold
  | accept execution =>
    refine ⟨fun _ hp => absurd hp (PlanExecution.next_ne_decided _ _), h.planned, fun _ hp => ?_, h.sent⟩
    cases (PlanExecution.next_execution _).symm.trans hp

/-- In a run from any start, every order of the engine is started within the cooldown and the position
limit, exactly when none is made of a plan that was overtaken: a review's by a trade too recent, or a
buy by positions or a maximum that leave no room. -/
theorem withinLimits_iff (now : F) (config : LoopConfig F) (paused : Bool) (trading : TradingState F)
    (openPositions : Nat) (maxOpenPositionsOverride : Option Nat) (events : List (LoopEvent F)) :
    (run TradingLoop.step (start now config paused trading openPositions maxOpenPositionsOverride)
        events).WithinLimits ↔
      (run TradingLoop.step (start now config paused trading openPositions maxOpenPositionsOverride)
        events).Current := by
  have hkept := run_keeps TradingLoop.step (I := LimitsKept) (fun _ event h => LimitsKept.step h event) events
    (start_limitsKept now config paused trading openPositions maxOpenPositionsOverride)
  constructor
  · intro h submission hs ha
    exact ((hkept.sent submission hs).within_iff ha).mp (h submission hs ha)
  · intro h submission hs ha
    exact ((hkept.sent submission hs).within_iff ha).mpr (h submission hs ha)

section Sample

def etherSignal : DecisionInput ℚ := { buySignal with market := some ("kraken", "ETH/USDT") }

def filled : OctobotOrderResult ℚ :=
  { orderId := .given "a1", symbol := "BTC/USDT", side := "buy", amount := 10, price := some 50000
    status := "open" }

/-- A discovery review selects ether, and waits. -/
def discovered : List (LoopEvent ℚ) :=
  [.beginCycle, .abandonCycle, .endCycle (some .discovery), .checkReview, .decideReview etherSignal none]

/-- The evaluation buys bitcoin, which then is the one open position. -/
def bought : List (LoopEvent ℚ) :=
  [.beginCycle, .decide buySignal] ++ ordered ++ [.reply (some filled), .portfolio 1, .endCycle none]

/-- The plan of the review becomes an order. -/
def taken : List (LoopEvent ℚ) :=
  [.tick 10, .completeReview true, .gates "kraken" 10 (some 3000), .claim, .activation true]

theorem review_alone_withinLimits : (run TradingLoop.step loopStart (discovered ++ taken)).WithinLimits :=
  (withinLimits_iff 0 loopConfig false (.new 200) 0 none (discovered ++ taken)).mpr (by decide +kernel)

/-- Ten seconds after the first order, with the only position taken, the second order is placed. -/
theorem overtaken_review_orders :
    ¬ (run TradingLoop.step loopStart (discovered ++ bought ++ taken)).WithinLimits := by
  decide +kernel

end Sample

end TradingLoop

end Gail.Trading
