import Gail.Trading.SnapshotLedgers

/-! The ledger of outcomes: an accepted order waits for its horizon, is resolved at an observed price, and
calibrates what is expected of later orders. -/
namespace Gail.Trading.Snapshot
open Gail.Library

section Definitions
variable {F : Type} [Scalar F]

namespace TradeMarkout
variable (item : TradeMarkout F)

def isResolved : Bool := item.resolvedAt.isSome

def isBuying : Bool := item.action = .buy ∨ item.action = .strongBuy

def isDue (now : F) : Bool :=
  item.resolvedAt.isNone && decide (item.dueAt ≤ now) && decide (0.0 < item.entryPrice)

/-- The exact market of the order, at a price that can be used. -/
def observed (snapshots : List (MarketSnapshot F)) : Option (MarketSnapshot F) :=
  snapshots.find? fun snapshot =>
    eqIgnoreAsciiCase snapshot.exchange item.exchange && eqIgnoreAsciiCase snapshot.symbol item.symbol &&
      Scalar.isFinite snapshot.price && decide (0.0 < snapshot.price)

def resolve (snapshots : List (MarketSnapshot F)) (now roundTripCostBps : F) : TradeMarkout F :=
  match if item.isDue now then item.observed snapshots else none with
  | none => item
  | some snapshot =>
    let marketReturnBps := (snapshot.price - item.entryPrice) / item.entryPrice * 10000.0
    let gross := marketReturnBps * if item.isBuying then 1.0 else -1.0
    { item with
      observedPrice := some snapshot.price
      grossDirectionalReturnBps := some gross
      netDirectionalReturnBps := some (gross - Scalar.max roundTripCostBps 0.0)
      resolvedAt := some now }

end TradeMarkout

structure OutcomePerformance (F : Type) where
  samples : Nat
  averageNetReturnBps : F
  winRate : F

structure OutcomeCalibration (F : Type) where
  multiplier : F
  performance : OutcomePerformance F

def OutcomePerformance.default : OutcomePerformance F :=
  { samples := 0, averageNetReturnBps := 0.0, winRate := 0.0 }

def OutcomeCalibration.default : OutcomeCalibration F :=
  { multiplier := 1.0, performance := .default }

def summarize (values : List F) : OutcomePerformance F :=
  if values.isEmpty then .default
  else
    { samples := values.length
      averageNetReturnBps := mean values
      winRate :=
        Scalar.ofCount (values.countP fun value => decide (0.0 < value)) / Scalar.ofCount values.length }

namespace OutcomeLedger
variable (ledger : OutcomeLedger F)

def empty : OutcomeLedger F := { observations := [] }

/-- `record` takes the order in: it has a price, and no other one has its id. -/
def accepts (markout : TradeMarkout F) : Bool :=
  decide (¬ markout.entryPrice ≤ 0.0) && Scalar.isFinite markout.entryPrice &&
    !ledger.observations.any fun item => !markout.orderId.isEmpty && item.orderId == markout.orderId

def record (markout : TradeMarkout F) (capacity : Nat) : OutcomeLedger F :=
  if ledger.accepts markout then
    { observations :=
        ledger.observations.drop (ledger.observations.length + 1 - max capacity 1) ++ [markout] }
  else ledger

/-- With how many were resolved. -/
def resolveDue (snapshots : List (MarketSnapshot F)) (now roundTripCostBps : F) : OutcomeLedger F × Nat :=
  ({ observations := ledger.observations.map fun item => item.resolve snapshots now roundTripCostBps },
    ledger.observations.countP fun item => item.isDue now && (item.observed snapshots).isSome)

/-- The newest net returns of one side, on every market or on one. -/
def directionalPerformance (symbol : Option String) (buying : Bool) (lookback : Nat) : OutcomePerformance F :=
  let matching := ledger.observations.reverse.filter fun item =>
    item.isBuying == buying && symbol.all fun symbol => eqIgnoreAsciiCase item.symbol symbol
  summarize ((matching.filterMap TradeMarkout.netDirectionalReturnBps).take (max lookback 1))

/-- The newest net returns of the orders that match. -/
def recentReturns (keep : TradeMarkout F → Bool) : List F :=
  ((ledger.observations.reverse.filter fun item => item.netDirectionalReturnBps.isSome && keep item).filterMap
    TradeMarkout.netDirectionalReturnBps).take 250

/-- Of the symbol with its providers and regime, of the symbol, or of all, whichever comes first with
enough samples. -/
def calibrationFor (symbol : String) (providers : List String) (regime : String) (minSamples : Nat) :
    OutcomeCalibration F :=
  let ofSymbol := fun item : TradeMarkout F => eqIgnoreAsciiCase item.symbol symbol
  let ofProvider := fun item : TradeMarkout F => providers.isEmpty ||
    providers.any fun provider => item.providers.any fun seen => eqIgnoreAsciiCase seen provider
  let exact := ledger.recentReturns fun item =>
    ofSymbol item && ofProvider item && eqIgnoreAsciiCase item.regime regime
  let symbolOnly := ledger.recentReturns ofSymbol
  let everywhere := ledger.recentReturns fun _ => true
  match [exact, symbolOnly, everywhere].find? fun values => minSamples ≤ values.length with
  | none => .default
  | some values =>
    let performance := summarize values
    let returnScore := clamp (performance.averageNetReturnBps / 100.0) (-1.0) 1.0
    let winScore := clamp ((performance.winRate - 0.5) * 2.0) (-1.0) 1.0
    let score := returnScore * 0.7 + winScore * 0.3
    { multiplier := clamp (1.0 + score * 0.35) 0.55 1.25, performance }

end OutcomeLedger

inductive OutcomeEvent (F : Type) where
  | record (markout : TradeMarkout F) (capacity : Nat)
  | resolveDue (snapshots : List (MarketSnapshot F)) (now roundTripCostBps : F)

def OutcomeEvent.capacity : OutcomeEvent F → Nat
  | record _ capacity => capacity
  | resolveDue _ _ _ => 0

/-- The largest capacity of a run. -/
def largestCapacity (events : List (OutcomeEvent F)) : Nat :=
  events.foldl (fun largest event => max largest event.capacity) 1

namespace OutcomeLedger
variable (ledger : OutcomeLedger F)

def step : OutcomeEvent F → OutcomeLedger F
  | .record markout capacity => ledger.record markout capacity
  | .resolveDue snapshots now roundTripCostBps => (ledger.resolveDue snapshots now roundTripCostBps).1

/-- What makes room for the event. -/
def evicts : OutcomeEvent F → List (TradeMarkout F)
  | .record markout capacity =>
    if ledger.accepts markout then
      ledger.observations.take (ledger.observations.length + 1 - max capacity 1)
    else []
  | .resolveDue _ _ _ => []

/-- The order ids that are not empty. -/
def orderIds : List String := (ledger.observations.map TradeMarkout.orderId).filter fun id => !id.isEmpty

end OutcomeLedger

end Definitions

section Steps
variable {F : Type} [Scalar F] {item markout : TradeMarkout F} {ledger : OutcomeLedger F} {capacity : Nat}

theorem resolve_orderId (item : TradeMarkout F) (snapshots : List (MarketSnapshot F)) (now cost : F) :
    (item.resolve snapshots now cost).orderId = item.orderId := by
  unfold TradeMarkout.resolve
  split <;> rfl

/-- An outcome that is resolved is left as it is. -/
theorem resolve_of_resolved (h : item.isResolved = true) (snapshots : List (MarketSnapshot F)) (now cost : F) :
    item.resolve snapshots now cost = item := by
  have hdue : item.isDue now = false := by
    unfold TradeMarkout.isDue
    rw [TradeMarkout.isResolved, ← Option.not_isNone, Bool.not_eq_true'] at h
    rw [h, Bool.false_and, Bool.false_and]
  unfold TradeMarkout.resolve
  rw [hdue]
  rfl

/-- Only an outcome that is due is resolved. -/
theorem dueAt_le_of_resolve {snapshots : List (MarketSnapshot F)} {now cost : F}
    (hopen : item.isResolved = false) (h : (item.resolve snapshots now cost).isResolved = true) :
    item.dueAt ≤ now := by
  by_cases hdue : item.isDue now = true
  · unfold TradeMarkout.isDue at hdue
    rw [Bool.and_eq_true, Bool.and_eq_true] at hdue
    exact of_decide_eq_true hdue.1.2
  · unfold TradeMarkout.resolve at h
    rw [if_neg hdue] at h
    exact absurd (hopen.symm.trans h) Bool.false_ne_true

/-- Recording changes nothing, or takes the outcome in at the end. -/
theorem record_cases (ledger : OutcomeLedger F) (markout : TradeMarkout F) (capacity : Nat) :
    (ledger.accepts markout = false ∧ ledger.record markout capacity = ledger) ∨
      ledger.accepts markout = true ∧ (ledger.record markout capacity).observations =
        ledger.observations.drop (ledger.observations.length + 1 - max capacity 1) ++ [markout] := by
  unfold OutcomeLedger.record
  cases ledger.accepts markout with
  | false => exact .inl ⟨rfl, if_neg Bool.false_ne_true⟩
  | true =>
    rw [if_pos rfl]
    exact .inr ⟨rfl, rfl⟩

theorem orderId_fresh (h : ledger.accepts markout = true) (hid : markout.orderId.isEmpty = false) :
    markout.orderId ∉ ledger.observations.map TradeMarkout.orderId := by
  intro hmem
  obtain ⟨item, hitem, heq⟩ := List.mem_map.mp hmem
  unfold OutcomeLedger.accepts at h
  rw [Bool.and_eq_true, Bool.not_eq_true', List.any_eq_false] at h
  have hdiffers := h.2 item hitem
  rw [hid, heq, beq_self_eq_true] at hdiffers
  exact hdiffers rfl

theorem nodup_orderIds_step (h : ledger.orderIds.Nodup) (event : OutcomeEvent F) :
    (ledger.step event).orderIds.Nodup := by
  cases event with
  | resolveDue snapshots now cost =>
    have hsame : (ledger.step (.resolveDue snapshots now cost)).orderIds = ledger.orderIds := by
      unfold OutcomeLedger.step OutcomeLedger.resolveDue OutcomeLedger.orderIds
      rw [List.map_map]
      congr 1
      exact List.map_congr_left fun item _ => resolve_orderId item snapshots now cost
    rw [hsame]
    exact h
  | record markout capacity =>
    rcases record_cases ledger markout capacity with ⟨-, hsame⟩ | ⟨haccepts, hnext⟩
    · rw [OutcomeLedger.step, hsame]
      exact h
    · have hkept : (((ledger.observations.drop
          (ledger.observations.length + 1 - max capacity 1)).map TradeMarkout.orderId).filter
            fun id => !id.isEmpty).Nodup :=
        h.sublist (((List.drop_sublist _ _).map _).filter _)
      rw [OutcomeLedger.step, OutcomeLedger.orderIds, hnext, List.map_append, List.filter_append,
        List.map_singleton]
      cases hid : markout.orderId.isEmpty with
      | true =>
        rw [List.filter_singleton, hid]
        simpa using hkept
      | false =>
        rw [List.filter_singleton, hid]
        refine hkept.append (List.nodup_singleton _) ?_
        intro id hold hnew
        have hlisted := (List.mem_filter.mp hold).1
        rw [List.mem_singleton.mp hnew] at hlisted
        exact orderId_fresh haccepts hid (((List.drop_sublist _ _).map _).subset hlisted)

theorem length_step_le (ledger : OutcomeLedger F) (event : OutcomeEvent F) :
    (ledger.step event).observations.length ≤ max ledger.observations.length (max event.capacity 1) := by
  cases event with
  | resolveDue snapshots now cost =>
    rw [OutcomeLedger.step, OutcomeLedger.resolveDue, List.length_map]
    exact le_max_left _ _
  | record markout capacity =>
    rcases record_cases ledger markout capacity with ⟨-, hsame⟩ | ⟨-, hnext⟩
    · rw [OutcomeLedger.step, hsame]
      exact le_max_left _ _
    · rw [OutcomeLedger.step, hnext, List.length_append, List.length_drop, List.length_singleton,
        OutcomeEvent.capacity]
      omega

end Steps

end Gail.Trading.Snapshot
