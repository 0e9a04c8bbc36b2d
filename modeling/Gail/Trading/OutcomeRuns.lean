import Gail.Library.GrowingList
import Gail.Trading.ScalarOrder
import Gail.Trading.OutcomeLedger

/-! Runs of the ledger of outcomes. What it evicts is kept beside it here, so that every outcome has the
number it was taken in with for as long as the run goes on. -/
namespace Gail.Trading.Snapshot
open Gail.Library

section Definitions
variable {F : Type} [Scalar F]

/-- The ledger, and what it has evicted since it was empty, the oldest first. -/
structure OutcomeBook (F : Type) where
  evicted : List (TradeMarkout F)
  ledger : OutcomeLedger F

namespace OutcomeBook

def empty : OutcomeBook F := { evicted := [], ledger := .empty }

/-- Every outcome that was ever taken in, in that order. -/
def outcomes (book : OutcomeBook F) : List (TradeMarkout F) := book.evicted ++ book.ledger.observations

def step (book : OutcomeBook F) (event : OutcomeEvent F) : OutcomeBook F :=
  { evicted := book.evicted ++ book.ledger.evicts event
    ledger := book.ledger.step event }

/-- The event resolves the outcome that was taken in as number `number`. -/
def resolves (number : Nat) (book : OutcomeBook F) (event : OutcomeEvent F) : Bool :=
  book.outcomes[number]?.any (fun item => !item.isResolved) &&
    (book.step event).outcomes[number]?.any TradeMarkout.isResolved

/-- Whatever the event resolves was due at its time. -/
def ResolvesDue (book : OutcomeBook F) (event : OutcomeEvent F) : Prop :=
  ∀ number, resolves number book event = true → ∃ item snapshots now roundTripCostBps,
    event = .resolveDue snapshots now roundTripCostBps ∧ book.outcomes[number]? = some item ∧
      item.dueAt ≤ now

end OutcomeBook

end Definitions

section Book
variable {F : Type} [Scalar F] {book : OutcomeBook F} {event : OutcomeEvent F}

theorem run_ledger (events : List (OutcomeEvent F)) (book : OutcomeBook F) :
    (run OutcomeBook.step book events).ledger = run OutcomeLedger.step book.ledger events := by
  induction events generalizing book with
  | nil => rfl
  | cons event events ih => exact ih (book.step event)

/-- A resolved outcome stays what it is. -/
def Stays (old new : TradeMarkout F) : Prop := old.isResolved = true → new = old

theorem outcomes_record (book : OutcomeBook F) (markout : TradeMarkout F) (capacity : Nat) :
    (book.step (.record markout capacity)).outcomes =
      book.outcomes ++ if book.ledger.accepts markout then [markout] else [] := by
  unfold OutcomeBook.step OutcomeBook.outcomes OutcomeLedger.step OutcomeLedger.evicts
  dsimp only
  rcases record_cases book.ledger markout capacity with ⟨hrefused, hsame⟩ | ⟨haccepts, hnext⟩
  · rw [hsame, hrefused, if_neg Bool.false_ne_true, if_neg Bool.false_ne_true, List.append_nil,
      List.append_nil]
  · rw [hnext, haccepts, if_pos rfl, if_pos rfl, List.append_assoc, List.append_assoc,
      ← List.append_assoc (List.take _ _), List.take_append_drop]

theorem outcomes_resolveDue (book : OutcomeBook F) (snapshots : List (MarketSnapshot F)) (now cost : F) :
    (book.step (.resolveDue snapshots now cost)).outcomes =
      book.evicted ++ book.ledger.observations.map fun item => item.resolve snapshots now cost := by
  unfold OutcomeBook.step OutcomeBook.outcomes OutcomeLedger.step OutcomeLedger.evicts
  rw [List.append_nil]
  rfl

/-- What is resolved at a number is what was there, or came of it when it was due. -/
theorem getElem?_resolveDue {number : Nat} {item : TradeMarkout F} (hitem : book.outcomes[number]? = some item)
    (snapshots : List (MarketSnapshot F)) (now cost : F) :
    (book.step (.resolveDue snapshots now cost)).outcomes[number]? = some item ∨
      (book.step (.resolveDue snapshots now cost)).outcomes[number]? =
        some (item.resolve snapshots now cost) := by
  rw [outcomes_resolveDue]
  unfold OutcomeBook.outcomes at hitem
  rcases Nat.lt_or_ge number book.evicted.length with hlt | hge
  · rw [List.getElem?_append_left hlt] at hitem ⊢
    exact .inl hitem
  · rw [List.getElem?_append_right hge] at hitem ⊢
    rw [List.getElem?_map, hitem]
    exact .inr rfl

theorem outcomes_step_grows (book : OutcomeBook F) (event : OutcomeEvent F) :
    Grows Stays book.outcomes (book.step event).outcomes := by
  have hrefl : ∀ item : TradeMarkout F, Stays item item := fun _ _ => rfl
  cases event with
  | record markout capacity =>
    rw [outcomes_record]
    exact grows_append hrefl _ _
  | resolveDue snapshots now cost =>
    intro number item hitem
    rcases getElem?_resolveDue hitem snapshots now cost with hsame | hnext
    · exact ⟨item, hsame, hrefl item⟩
    · exact ⟨_, hnext, fun hresolved => resolve_of_resolved hresolved snapshots now cost⟩

theorem outcomes_run_grows (book : OutcomeBook F) (events : List (OutcomeEvent F)) :
    Grows Stays book.outcomes (run OutcomeBook.step book events).outcomes := by
  have hkeep : ∀ (later : OutcomeBook F) (event : OutcomeEvent F),
      Grows Stays book.outcomes later.outcomes → Grows Stays book.outcomes (later.step event).outcomes := by
    intro later event h
    refine h.trans ?_ (outcomes_step_grows later event)
    intro a b c hab hbc hresolved
    have hb := hab hresolved
    rw [← hb] at hresolved
    rw [hbc hresolved, hb]
  exact run_keeps OutcomeBook.step hkeep events (Grows.refl (fun _ _ => rfl) _)

theorem resolves_iff {number : Nat} : OutcomeBook.resolves number book event = true ↔
    (∃ item, book.outcomes[number]? = some item ∧ item.isResolved = false) ∧
      ∃ next, (book.step event).outcomes[number]? = some next ∧ next.isResolved = true := by
  unfold OutcomeBook.resolves
  rw [Bool.and_eq_true, Option.any_eq_true, Option.any_eq_true]
  simp only [Bool.not_eq_true']

theorem resolvesDue (book : OutcomeBook F) (event : OutcomeEvent F) : book.ResolvesDue event := by
  intro number h
  obtain ⟨⟨item, hitem, hopen⟩, next, hnext, hresolved⟩ := resolves_iff.mp h
  have hchanged : next ≠ item := by
    rintro rfl
    exact absurd (hopen.symm.trans hresolved) Bool.false_ne_true
  cases event with
  | record markout capacity =>
    rw [outcomes_record] at hnext
    obtain ⟨hlt, -⟩ := List.getElem?_eq_some_iff.mp hitem
    rw [List.getElem?_append_left hlt, hitem] at hnext
    exact absurd (Option.some.inj hnext).symm hchanged
  | resolveDue snapshots now cost =>
    refine ⟨item, snapshots, now, cost, rfl, hitem, ?_⟩
    rcases getElem?_resolveDue hitem snapshots now cost with hsame | hmade
    · rw [hsame] at hnext
      exact absurd (Option.some.inj hnext).symm hchanged
    · rw [hmade] at hnext
      rw [← Option.some.inj hnext] at hresolved
      exact dueAt_le_of_resolve hopen hresolved

/-- One where the outcome of a number is resolved, and nothing before. -/
def settledLevel (number : Nat) (book : OutcomeBook F) : Nat :=
  if book.outcomes[number]?.any TradeMarkout.isResolved then 1 else 0

theorem settledLevel_mono (number : Nat) (book : OutcomeBook F) (event : OutcomeEvent F) :
    settledLevel number book ≤ settledLevel number (book.step event) := by
  unfold settledLevel
  by_cases h : book.outcomes[number]?.any TradeMarkout.isResolved = true
  · obtain ⟨item, hitem, hresolved⟩ := (Option.any_eq_true _ _).mp h
    obtain ⟨next, hnext, hstays⟩ := outcomes_step_grows book event number item hitem
    rw [hstays hresolved] at hnext
    rw [if_pos h, hnext, Option.any_some, hresolved, if_pos rfl]
  · rw [if_neg h]
    exact Nat.zero_le _

theorem settledLevel_resolves {number : Nat} (h : OutcomeBook.resolves number book event = true) :
    settledLevel number book < 1 ∧
      settledLevel number (book.step event) = settledLevel number book + 1 := by
  obtain ⟨⟨item, hitem, hopen⟩, next, hnext, hresolved⟩ := resolves_iff.mp h
  have hbefore : settledLevel number book = 0 := by
    unfold settledLevel
    rw [hitem, Option.any_some, hopen]
    rfl
  have hafter : settledLevel number (book.step event) = 1 := by
    unfold settledLevel
    rw [hnext, Option.any_some, hresolved]
    rfl
  rw [hbefore, hafter]
  exact ⟨Nat.one_pos, rfl⟩

theorem countAlong_resolves_le (number : Nat) (events : List (OutcomeEvent F)) :
    countAlong OutcomeBook.step (OutcomeBook.resolves number) .empty events ≤ 1 := by
  have hresolve : ∀ (book : OutcomeBook F) (event : OutcomeEvent F), True → True →
      OutcomeBook.resolves number book event = true →
        settledLevel number book < 1 ∧
          settledLevel number (book.step event) = settledLevel number book + 1 :=
    fun _ _ _ _ h => settledLevel_resolves h
  have halong : Along OutcomeBook.step (fun _ _ => True) (.empty : OutcomeBook F) events :=
    along_of_forall OutcomeBook.step fun _ _ _ => trivial
  have hbound := (countAlong_bounded OutcomeBook.step (I := fun _ => True) (fun _ _ _ _ => trivial)
    (fun book event _ _ => settledLevel_mono number book event) hresolve trivial halong).1
  have hstart : settledLevel number (OutcomeBook.empty : OutcomeBook F) = 0 := rfl
  rw [hstart] at hbound
  omega

theorem length_run_le (events : List (OutcomeEvent F)) {ledger : OutcomeLedger F} {bound : Nat}
    (hone : 1 ≤ bound) (h : ledger.observations.length ≤ bound) :
    (run OutcomeLedger.step ledger events).observations.length ≤
      events.foldl (fun largest event => max largest event.capacity) bound := by
  induction events generalizing ledger bound with
  | nil => exact h
  | cons event events ih =>
    rw [run_cons, List.foldl_cons]
    apply ih (hone.trans (le_max_left _ _))
    have hstep := length_step_le ledger event
    omega

end Book

section Calibration

/-- Whatever the ledger has seen, it scales what is expected by a factor within these bounds. -/
theorem calibrationFor_multiplier (ledger : OutcomeLedger ℚ) (symbol : String) (providers : List String)
    (regime : String) (minSamples : Nat) :
    0.55 ≤ (ledger.calibrationFor symbol providers regime minSamples).multiplier ∧
      (ledger.calibrationFor symbol providers regime minSamples).multiplier ≤ 1.25 := by
  have hbounds : (0.55 : ℚ) ≤ 1.25 := by norm_num
  unfold OutcomeLedger.calibrationFor
  dsimp only
  split
  · constructor <;> norm_num [OutcomeCalibration.default]
  · exact ⟨low_le_clamp hbounds, clamp_le_high hbounds⟩

end Calibration

/-- Over every run of the ledger the ids of its orders are unique and its length keeps to the capacity;
an outcome that is resolved stays as it is, evicted or not, and is resolved once, when it is due. Any
ledger calibrates within its bounds. -/
theorem outcomes_stand {F : Type} [Scalar F] (before after : List (OutcomeEvent F)) :
    (run OutcomeBook.step .empty (before ++ after)).ledger = run OutcomeLedger.step .empty (before ++ after) ∧
    (run OutcomeLedger.step .empty (before ++ after)).orderIds.Nodup ∧
    (run OutcomeLedger.step .empty (before ++ after)).observations.length ≤
      largestCapacity (before ++ after) ∧
    (∀ (number : Nat) (item : TradeMarkout F),
      (run OutcomeBook.step .empty before).outcomes[number]? = some item → item.isResolved = true →
        (run OutcomeBook.step .empty (before ++ after)).outcomes[number]? = some item) ∧
    (∀ number, countAlong OutcomeBook.step (OutcomeBook.resolves number) .empty (before ++ after) ≤ 1) ∧
    Along OutcomeBook.step OutcomeBook.ResolvesDue .empty (before ++ after) ∧
    ∀ (ledger : OutcomeLedger ℚ) (symbol : String) (providers : List String) (regime : String)
      (minSamples : Nat),
      0.55 ≤ (ledger.calibrationFor symbol providers regime minSamples).multiplier ∧
        (ledger.calibrationFor symbol providers regime minSamples).multiplier ≤ 1.25 := by
  refine ⟨run_ledger _ _, ?_, length_run_le _ le_rfl (Nat.zero_le _), ?_, fun number => countAlong_resolves_le number _,
    along_of_forall OutcomeBook.step fun event _ book => resolvesDue book event, calibrationFor_multiplier⟩
  · exact run_keeps (I := fun ledger : OutcomeLedger F => ledger.orderIds.Nodup) OutcomeLedger.step
      (fun _ event h => nodup_orderIds_step h event) (before ++ after) List.nodup_nil
  · intro number item hitem hresolved
    obtain ⟨later, hlater, hstays⟩ :=
      outcomes_run_grows (run OutcomeBook.step .empty before) after number item hitem
    rw [run_append, hlater, hstays hresolved]

end Gail.Trading.Snapshot
