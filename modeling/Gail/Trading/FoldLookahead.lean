import Gail.Trading.FoldWindows

/-! Whether the arm of a fold depends on what comes after its training: two replays of frames that agree up
to the validation window. -/
namespace Gail.Trading
open Gail.Library Datalake

section Definitions
variable {F : Type} [Scalar F]

/-- A time falls in a window, as near as the comparison tells. -/
def InWindow (start stop time : F) : Prop := start ≤ time + Scalar.epsilon ∧ time ≤ stop + Scalar.epsilon

/-- The replay of an arm over some frames. -/
def NativeQuantBacktester.replayed (backtester : NativeQuantBacktester F) (parameters : QuantParameters F)
    (frames : List (QuantBacktestFrame F)) : ReplayState F :=
  frames.foldl (backtester.replayFrame parameters) (.start backtester.config)

def NativeQuantBacktester.replays (backtester : NativeQuantBacktester F)
    (frames : List (QuantBacktestFrame F)) (parameterSets : List (QuantParameters F)) :
    List (CandidateBacktestReport F) :=
  parameterSets.map (backtester.replayCandidate frames)

/-- Before the frame at which validation starts the training of a fold is over: no arm still holds a position
that it entered in training, and no later frame is counted to it. -/
structure TrainingOver (backtester : NativeQuantBacktester F) (frames : List (QuantBacktestFrame F))
    (parameterSets : List (QuantParameters F)) (fold : WalkForwardFoldReport F) (start : Nat) : Prop where
  closed : ∀ parameters ∈ parameterSets,
    ∀ position ∈ (backtester.replayed parameters (frames.take start)).positions,
      ¬ InWindow fold.trainingStart fold.trainingEnd position.enteredAt
  later : ∀ frame ∈ frames.drop start, ¬ InWindow fold.trainingStart fold.trainingEnd frame.timestamp

/-- The trades of a state in a window are those, and none of its positions, or of some more, is of it. -/
structure Quiet (start stop : F) (counted : List (NativeBacktestTrade F)) (state : ReplayState F)
    (rest : List (PendingPosition F)) : Prop where
  trades : tradesBetween start stop state.trades = counted
  positions : ∀ position ∈ state.positions ++ rest, ¬ InWindow start stop position.enteredAt

end Definitions

section Replay
variable {F : Type} [Scalar F] {start stop : F} {counted : List (NativeBacktestTrade F)} {state : ReplayState F}
  {position : PendingPosition F} {rest : List (PendingPosition F)} {frame : QuantBacktestFrame F}
  {config : NativeBacktestConfig F} {parameters : QuantParameters F}

/-- A trade from outside a window does not change the trades within it. -/
theorem tradesBetween_concat {trade : NativeBacktestTrade F} (h : ¬ InWindow start stop trade.enteredAt) :
    tradesBetween start stop (counted ++ [trade]) = tradesBetween start stop counted := by
  have hout : (decide (start ≤ trade.enteredAt + Scalar.epsilon) &&
      decide (trade.enteredAt ≤ stop + Scalar.epsilon)) = false := by
    rw [Bool.and_eq_false_iff, decide_eq_false_iff_not, decide_eq_false_iff_not]
    exact not_and_or.mp h
  unfold tradesBetween
  rw [List.filter_append, List.filter_singleton, hout]
  exact List.append_nil _

theorem closePosition_quiet (h : Quiet start stop counted state (position :: rest)) :
    Quiet start stop counted (state.closePosition config parameters frame position) rest := by
  have hposition : ¬ InWindow start stop position.enteredAt :=
    h.positions position (List.mem_append_right _ List.mem_cons_self)
  have hkept : Quiet start stop counted { state with positions := state.positions ++ [position] } rest := by
    refine ⟨h.trades, ?_⟩
    rw [List.append_assoc]
    exact h.positions
  unfold ReplayState.closePosition
  split
  · exact hkept
  · split
    · exact hkept
    · refine ⟨(tradesBetween_concat hposition).trans h.trades, fun other hother => h.positions other ?_⟩
      rcases List.mem_append.mp hother with hold | hrest
      · exact List.mem_append_left _ hold
      · exact List.mem_append_right _ (List.mem_cons_of_mem _ hrest)

theorem closeDue_quiet (h : Quiet start stop counted state []) :
    Quiet start stop counted (state.closeDue config parameters frame) [] := by
  apply closeDue_invariant (I := Quiet start stop counted)
  · exact fun state position rest h => closePosition_quiet h
  · refine ⟨h.trades, ?_⟩
    have hpositions := h.positions
    rw [List.append_nil] at hpositions
    exact hpositions

/-- A position that is opened in a frame outside the window is not of it. -/
theorem openPosition_quiet (hframe : ¬ InWindow start stop frame.timestamp)
    (h : Quiet start stop counted state []) (signal : QuantSignal F) :
    Quiet start stop counted (state.openPosition config frame signal) [] := by
  unfold ReplayState.openPosition
  split
  · exact h
  · split
    · exact h
    · split
      · exact h
      · refine ⟨h.trades, fun other hother => ?_⟩
        rw [List.append_nil] at hother
        rcases List.mem_append.mp hother with hold | hnew
        · exact h.positions other (List.mem_append_left _ hold)
        · rw [List.mem_singleton.mp hnew]
          exact hframe

theorem replay_quiet (backtester : NativeQuantBacktester F) {after : List (QuantBacktestFrame F)}
    (hafter : ∀ frame ∈ after, ¬ InWindow start stop frame.timestamp)
    (h : Quiet start stop counted state []) :
    Quiet start stop counted (after.foldl (backtester.replayFrame parameters) state) [] := by
  induction after generalizing state with
  | nil => exact h
  | cons frame after ih =>
    apply ih fun later hlater => hafter later (List.mem_cons_of_mem frame hlater)
    exact openPosition_quiet (hafter frame List.mem_cons_self) (closeDue_quiet h) _

/-- When training is over, an arm has made all of its trades. -/
theorem TrainingOver.trades_eq {backtester : NativeQuantBacktester F} {frames : List (QuantBacktestFrame F)}
    {parameterSets : List (QuantParameters F)} {fold : WalkForwardFoldReport F} {start : Nat}
    (h : TrainingOver backtester frames parameterSets fold start) (hparameters : parameters ∈ parameterSets) :
    tradesBetween fold.trainingStart fold.trainingEnd
        (backtester.replayCandidate frames parameters).tradeLedger =
      tradesBetween fold.trainingStart fold.trainingEnd
        (backtester.replayed parameters (frames.take start)).trades := by
  have hbefore : Quiet fold.trainingStart fold.trainingEnd _
      (backtester.replayed parameters (frames.take start)) [] :=
    ⟨rfl, fun position hposition => h.closed parameters hparameters position (by simpa using hposition)⟩
  have hafter : Quiet fold.trainingStart fold.trainingEnd _
      ((frames.drop start).foldl (backtester.replayFrame parameters) _) [] :=
    replay_quiet backtester h.later hbefore
  unfold NativeQuantBacktester.replayed at hafter
  rw [← List.foldl_append, List.take_append_drop] at hafter
  exact hafter.trades

end Replay

section Selection
variable {α β : Type}

theorem maxByOrder_map (order : β → β → Ordering) (f : α → β) (items : List α) :
    maxByOrder order (items.map f) = (maxByOrder (fun left right => order (f left) (f right)) items).map f := by
  cases items with
  | nil => rfl
  | cons item items =>
    simp only [List.map_cons, maxByOrder, Option.map_some, Option.some.injEq]
    induction items generalizing item with
    | nil => rfl
    | cons next items ih =>
      rw [List.map_cons, List.foldl_cons, List.foldl_cons, ← ih]
      congr 1
      split <;> rfl

/-- The choice depends on the order of the items alone. -/
theorem maxByOrder_congr {order other : α → α → Ordering} {items : List α}
    (h : ∀ left ∈ items, ∀ right ∈ items, order left right = other left right) :
    maxByOrder order items = maxByOrder other items := by
  have hrun : ∀ (rest : List α) (best : α), (∀ item ∈ best :: rest, item ∈ items) →
      rest.foldl (fun best next => if order best next = .gt then best else next) best =
        rest.foldl (fun best next => if other best next = .gt then best else next) best := by
    intro rest
    induction rest with
    | nil => exact fun best _ => rfl
    | cons next rest ih =>
      intro best hmem
      have hbest := hmem best List.mem_cons_self
      have hnext := hmem next (List.mem_cons_of_mem _ List.mem_cons_self)
      rw [List.foldl_cons, List.foldl_cons, h best hbest next hnext]
      apply ih
      intro item hitem
      rcases List.mem_cons.mp hitem with rfl | hrest
      · split
        · exact hbest
        · exact hnext
      · exact hmem item (List.mem_cons_of_mem _ (List.mem_cons_of_mem _ hrest))
  cases items with
  | nil => rfl
  | cons item items => exact congrArg some (hrun items item fun _ hmem => hmem)

end Selection

section Folds
variable {F : Type} [Scalar F] {backtester : NativeQuantBacktester F} {frames : List (QuantBacktestFrame F)}
  {candidates : List (CandidateBacktestReport F)} {fold : WalkForwardFoldReport F}

/-- The arm of a fold is the best one in the order of its training window. -/
theorem walkForward_selected (h : fold ∈ backtester.walkForward frames candidates) :
    (maxByOrder (backtester.trainingOrder fold.trainingStart fold.trainingEnd) candidates).map
      CandidateBacktestReport.parameterId = some fold.selectedParameterId := by
  unfold NativeQuantBacktester.walkForward at h
  split at h
  · cases h
  · obtain ⟨window, -, hfold⟩ := List.mem_filterMap.mp h
    unfold NativeQuantBacktester.fold at hfold
    simp only [Option.bind_eq_bind, Option.bind_eq_some_iff] at hfold
    obtain ⟨first, -, last, -, next, -, final, -, selected, hselected, hsame⟩ := hfold
    rw [← Option.some.inj hsame, hselected]
    rfl

/-- The order of two arms in a window depends on their trades in it. -/
theorem trainingOrder_congr (backtester : NativeQuantBacktester F) {start stop : F} {left right other another : CandidateBacktestReport F}
    (hleft : tradesBetween start stop left.tradeLedger = tradesBetween start stop other.tradeLedger)
    (hright : tradesBetween start stop right.tradeLedger = tradesBetween start stop another.tradeLedger)
    (hid : left.parameterId = other.parameterId) (hid' : right.parameterId = another.parameterId) :
    backtester.trainingOrder start stop left right = backtester.trainingOrder start stop other another := by
  unfold NativeQuantBacktester.trainingOrder statisticsBetween
  simp only [hleft, hright, hid, hid']

/-- The arm that a fold selects among the replays of its frames. -/
theorem selected_eq {parameterSets : List (QuantParameters F)}
    (h : fold ∈ backtester.walkForward frames (backtester.replays frames parameterSets)) :
    (maxByOrder (fun left right => backtester.trainingOrder fold.trainingStart fold.trainingEnd
      (backtester.replayCandidate frames left) (backtester.replayCandidate frames right)) parameterSets).map
        QuantParameters.id = some fold.selectedParameterId := by
  have hselected := walkForward_selected h
  rw [NativeQuantBacktester.replays, maxByOrder_map, Option.map_map] at hselected
  exact hselected

/-- The folds of one number over frames that agree up to the validation window train between the same
times. -/
theorem training_times_agree {config : NativeBacktestConfig F}
    {evaluate : QuantParameters F → QuantBacktestFrame F → QuantSignal F}
    {frames others : List (QuantBacktestFrame F)} {candidates contenders : List (CandidateBacktestReport F)}
    {index : Nat} {fold other : WalkForwardFoldReport F}
    (hfold : ((NativeQuantBacktester.new config evaluate).walkForward frames candidates)[index]? = some fold)
    (hother : ((NativeQuantBacktester.new config evaluate).walkForward others contenders)[index]? = some other)
    (hagree : frames.take ((NativeQuantBacktester.new config evaluate).validationStart index) =
      others.take ((NativeQuantBacktester.new config evaluate).validationStart index)) :
    fold.trainingStart = other.trainingStart ∧ fold.trainingEnd = other.trainingEnd := by
  obtain ⟨ht, -⟩ := new_frames config evaluate
  have hframes : ∀ position, position < (NativeQuantBacktester.new config evaluate).validationStart index →
      frames[position]? = others[position]? := by
    intro position hlt
    rw [← List.getElem?_take_of_lt hlt, hagree, List.getElem?_take_of_lt hlt]
  obtain ⟨planned, hplanned⟩ := walkForward_plans config evaluate frames candidates
  obtain ⟨replanned, hreplanned⟩ := walkForward_plans config evaluate others contenders
  rw [← hplanned.folds, List.getElem?_map, Option.map_eq_some_iff] at hfold
  rw [← hreplanned.folds, List.getElem?_map, Option.map_eq_some_iff] at hother
  obtain ⟨item, hitem, rfl⟩ := hfold
  obtain ⟨peer, hpeer, rfl⟩ := hother
  have hmem := List.mem_of_getElem? hitem
  have hmem' := List.mem_of_getElem? hpeer
  obtain ⟨htraining, hembargo, -, -⟩ := hplanned.shaped item hmem
  obtain ⟨htraining', hembargo', -, -⟩ := hreplanned.shaped peer hmem'
  have hplaced := hplanned.placed index item hitem
  have hplaced' := hreplanned.placed index peer hpeer
  have hends : item.window.trainingEnd = peer.window.trainingEnd := by omega
  have hstarts : item.window.trainingStart = peer.window.trainingStart := by omega
  have hdates := hplanned.dated item hmem
  have hdates' := hreplanned.dated peer hmem'
  constructor
  · have hsame := hdates.trainingStart
    rw [hstarts, hframes _ (by omega), hdates'.trainingStart] at hsame
    exact (Option.some.inj hsame).symm
  · have hsame := hdates.trainingEnd
    rw [hends, hframes _ (by omega), hdates'.trainingEnd] at hsame
    exact (Option.some.inj hsame).symm

end Folds

section Sample

/-- Twenty frames a minute. Short momentum shows in the last frame of training, and the market is quoted again
when validation starts, or already during the embargo. -/
def returningFrames (quotedFrom : Nat) (exitPrice : ℚ) : List (QuantBacktestFrame ℚ) :=
  (List.range 20).map fun (minute : Nat) =>
    { timestamp := 60 * minute
      snapshots :=
        if 10 ≤ minute ∧ minute < quotedFrom then []
        else
          [{ exchange := "binance"
             symbol := "BTC/USDT"
             price := if minute < 15 then 100 else exitPrice
             volume24h := some 100000
             fetchedAt := 60 * minute }]
      historicalFeatures := fun _ => some
        { samples := 100
          firstTs := none
          lastTs := none
          freshnessSeconds := none
          momentumShortPct := some (if minute = 9 then 2 else 0)
          momentumMidPct := some 0
          momentumLongPct := none
          volatilityPct := some 1
          drawdownPct := none
          volumeRatioShortLong := none } }

theorem returningFrames_take (quotedFrom : Nat) (exitPrice other : ℚ) :
    (returningFrames quotedFrom exitPrice).take 15 = (returningFrames quotedFrom other).take 15 := by
  unfold returningFrames
  rw [← List.map_take, ← List.map_take]
  apply List.map_congr_left
  intro minute hminute
  have hlt : minute < 15 := by
    have hrange : (List.range 20).take 15 = List.range 15 := by decide
    rw [hrange] at hminute
    exact List.mem_range.mp hminute
  simp only [if_pos hlt]

/-- The arm of the fold, for some frames. -/
def sampleArms (frames : List (QuantBacktestFrame ℚ)) : List String :=
  (sampleBacktester.walkForward frames (sampleBacktester.replays frames shortAndMiddleArms)).map
    WalkForwardFoldReport.selectedParameterId

private theorem quoted_trainingOver {exitPrice : ℚ} (h : exitPrice = 110 ∨ exitPrice = 90) :
    ∃ fold, (sampleBacktester.walkForward (returningFrames 10 exitPrice)
        (sampleBacktester.replays (returningFrames 10 exitPrice) shortAndMiddleArms))[0]? = some fold ∧
      TrainingOver sampleBacktester (returningFrames 10 exitPrice) shortAndMiddleArms fold 15 := by
  have htimes : (sampleBacktester.walkForward (returningFrames 10 exitPrice)
      (sampleBacktester.replays (returningFrames 10 exitPrice) shortAndMiddleArms))[0]?.map
        (fun fold => (fold.trainingStart, fold.trainingEnd)) = some (0, 540) := by
    rcases h with rfl | rfl <;> decide +kernel
  have hpositions : ∀ parameters ∈ shortAndMiddleArms,
      (sampleBacktester.replayed parameters ((returningFrames 10 exitPrice).take 15)).positions.length = 0 := by
    rcases h with rfl | rfl <;> decide +kernel
  have hlater : ∀ frame ∈ (returningFrames 10 exitPrice).drop 15, 541 < frame.timestamp := by
    rcases h with rfl | rfl <;> decide +kernel
  obtain ⟨fold, hfold, htime⟩ := Option.map_eq_some_iff.mp htimes
  obtain ⟨hstart, hend⟩ := Prod.mk.inj htime
  refine ⟨fold, hfold, ?_, ?_⟩
  · intro parameters hparameters position hposition
    rw [List.length_eq_zero_iff.mp (hpositions parameters hparameters)] at hposition
    cases hposition
  · rintro frame hframe ⟨-, hle⟩
    rw [hend] at hle
    have hepsilon : (540 : ℚ) + Scalar.epsilon < 541 := by decide +kernel
    exact absurd (hle.trans_lt hepsilon) (not_lt.mpr (hlater frame hframe).le)

end Sample

end Gail.Trading
