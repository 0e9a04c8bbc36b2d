import Gail.Trading.NativeBacktest
import Gail.Trading.ReplayLedger

/-! The geometry of the folds: the arithmetic of the loop on unsigned indices, the lengths of the windows,
and which trades they count. -/
namespace Gail.Trading
open Gail.Library Datalake

section Definitions
variable {F : Type} [Scalar F]

/-- An addition of `usize`, where an overflow is no result. -/
def checkedAdd (left right : Nat) : Option Nat := if left + right ≤ u64Max then some (left + right) else none

/-- A subtraction of `usize`, where an underflow is no result. -/
def checkedSub (left right : Nat) : Option Nat := if right ≤ left then some (left - right) else none

namespace NativeQuantBacktester
variable (backtester : NativeQuantBacktester F)

/-- The indices of one round of the loop. -/
def checkedWindow (validationEnd : Nat) : Option FoldWindow := do
  let validationStart ← checkedSub (← checkedAdd validationEnd 1) backtester.config.validationFrames
  let trainingEnd := validationStart - (← checkedAdd backtester.config.embargoFrames 1)
  let trained ← checkedAdd trainingEnd 1
  let trainingStart ← checkedSub trained (min backtester.config.minimumTrainingFrames trained)
  some { trainingStart, trainingEnd, validationStart, validationEnd }

/-- The loop over the ends of the validation windows. No result stands for an arithmetic error, an index
outside the frames, or rounds that run out. -/
def walkForwardLoop (frames : List (QuantBacktestFrame F)) (candidates : List (CandidateBacktestReport F)) :
    Nat → Nat → List (WalkForwardFoldReport F) → Option (List (WalkForwardFoldReport F))
  | 0, _, _ => none
  | rounds + 1, validationEnd, folds =>
    if validationEnd < frames.length then do
      let window ← backtester.checkedWindow validationEnd
      let fold ← backtester.fold frames candidates window
      walkForwardLoop frames candidates rounds
        (saturatingAdd validationEnd backtester.config.validationFrames) (folds ++ [fold])
    else some folds

/-- `walk_forward` with its arithmetic, in so many rounds at most. -/
def walkForwardChecked (frames : List (QuantBacktestFrame F)) (candidates : List (CandidateBacktestReport F))
    (rounds : Nat) : Option (List (WalkForwardFoldReport F)) := do
  let unvalidated ← checkedAdd backtester.config.minimumTrainingFrames backtester.config.embargoFrames
  let needed ← checkedAdd unvalidated backtester.config.validationFrames
  if frames.length < needed || candidates.isEmpty then some []
  else backtester.walkForwardLoop frames candidates rounds (← checkedSub needed 1) []

/-- Where the validation window of a fold starts. -/
def validationStart (fold : Nat) : Nat :=
  backtester.config.minimumTrainingFrames + backtester.config.embargoFrames +
    fold * backtester.config.validationFrames

/-- The window of a fold that validates up to a frame. -/
def windowEnding (validationEnd : Nat) : FoldWindow :=
  let validationStart := validationEnd + 1 - backtester.config.validationFrames
  let trainingEnd := validationStart - (backtester.config.embargoFrames + 1)
  { trainingStart := trainingEnd + 1 - min backtester.config.minimumTrainingFrames (trainingEnd + 1)
    trainingEnd
    validationStart
    validationEnd }

end NativeQuantBacktester

/-- A fold trains on so many frames, leaves so many out, and validates on so many, all within the frames. -/
structure FoldWindow.Shaped (window : FoldWindow) (config : NativeBacktestConfig F) (count : Nat) : Prop where
  training : window.trainingEnd + 1 = window.trainingStart + config.minimumTrainingFrames
  embargo : window.validationStart = window.trainingEnd + 1 + config.embargoFrames
  validation : window.validationEnd + 1 = window.validationStart + config.validationFrames
  within : window.validationEnd < count

/-- The times of a fold are those of the frames of its window. -/
structure FoldWindow.Dates (window : FoldWindow) (frames : List (QuantBacktestFrame F))
    (fold : WalkForwardFoldReport F) : Prop where
  trainingStart : frames[window.trainingStart]?.map QuantBacktestFrame.timestamp = some fold.trainingStart
  trainingEnd : frames[window.trainingEnd]?.map QuantBacktestFrame.timestamp = some fold.trainingEnd
  validationStart : frames[window.validationStart]?.map QuantBacktestFrame.timestamp =
    some fold.validationStart
  validationEnd : frames[window.validationEnd]?.map QuantBacktestFrame.timestamp = some fold.validationEnd

structure PlannedFold (F : Type) where
  window : FoldWindow
  fold : WalkForwardFoldReport F

/-- The folds of a walk over some frames, with their windows: each validation window follows on the one
before it. -/
structure Plans (backtester : NativeQuantBacktester F) (frames : List (QuantBacktestFrame F))
    (candidates : List (CandidateBacktestReport F)) (planned : List (PlannedFold F)) : Prop where
  folds : planned.map PlannedFold.fold = backtester.walkForward frames candidates
  dated : ∀ item ∈ planned, item.window.Dates frames item.fold
  shaped : ∀ item ∈ planned, item.window.Shaped backtester.config frames.length
  adjacent : planned.IsChain fun earlier later =>
    later.window.validationStart = earlier.window.validationEnd + 1
  placed : ∀ (fold : Nat) item, planned[fold]? = some item →
    item.window.validationStart = backtester.validationStart fold

end Definitions

section Windows
variable {F : Type} [Scalar F] {backtester : NativeQuantBacktester F} {frames : List (QuantBacktestFrame F)}
  {candidates : List (CandidateBacktestReport F)} {window : FoldWindow} {count validationEnd : Nat}

/-- The bounds that normalising puts the lengths of the windows in. -/
theorem new_frames (config : NativeBacktestConfig F)
    (evaluate : QuantParameters F → QuantBacktestFrame F → QuantSignal F) :
    let config := (NativeQuantBacktester.new config evaluate).config
    0 < config.minimumTrainingFrames ∧ 0 < config.validationFrames ∧
      config.minimumTrainingFrames ≤ 1000000 ∧ config.validationFrames ≤ 1000000 ∧
      config.embargoFrames ≤ 1000000 := by
  intro normalised
  have htraining : 10 ≤ normalised.minimumTrainingFrames := le_clampCount (by decide)
  have hvalidation : 5 ≤ normalised.validationFrames := le_clampCount (by decide)
  have hmost : normalised.validationFrames ≤ 1000000 := clampCount_le
  have hembargo : normalised.embargoFrames ≤ normalised.validationFrames := min_le_right _ _
  exact ⟨by omega, by omega, clampCount_le, hmost, hembargo.trans hmost⟩

omit [Scalar F] in
/-- The arithmetic of a round does what it says as long as the last frame is far enough on. -/
theorem checkedWindow_eq (hv : 0 < backtester.config.validationFrames)
    (hstart : backtester.config.minimumTrainingFrames + backtester.config.embargoFrames +
      backtester.config.validationFrames ≤ validationEnd + 1) (hend : validationEnd < u64Max) :
    backtester.checkedWindow validationEnd = some (backtester.windowEnding validationEnd) := by
  have hnext : checkedAdd validationEnd 1 = some (validationEnd + 1) := if_pos hend
  have hvalidation : checkedSub (validationEnd + 1) backtester.config.validationFrames =
      some (validationEnd + 1 - backtester.config.validationFrames) := if_pos (by omega)
  have hembargo : checkedAdd backtester.config.embargoFrames 1 = some (backtester.config.embargoFrames + 1) :=
    if_pos (by omega)
  set trainingEnd := validationEnd + 1 - backtester.config.validationFrames -
    (backtester.config.embargoFrames + 1) with htrainingEnd
  have htrained : checkedAdd trainingEnd 1 = some (trainingEnd + 1) := if_pos (by omega)
  have hstarts : checkedSub (trainingEnd + 1) (min backtester.config.minimumTrainingFrames (trainingEnd + 1)) =
      some (trainingEnd + 1 - min backtester.config.minimumTrainingFrames (trainingEnd + 1)) :=
    if_pos (min_le_right _ _)
  unfold NativeQuantBacktester.checkedWindow
  simp only [hnext, hvalidation, hembargo, Option.bind_eq_bind, Option.bind_some, ← htrainingEnd, htrained,
    hstarts]
  rfl

omit [Scalar F] in
theorem windowEnding_shaped (ht : 0 < backtester.config.minimumTrainingFrames)
    (hstart : backtester.config.minimumTrainingFrames + backtester.config.embargoFrames +
      backtester.config.validationFrames ≤ validationEnd + 1) (hend : validationEnd < count) :
    (backtester.windowEnding validationEnd).Shaped backtester.config count := by
  unfold NativeQuantBacktester.windowEnding
  refine ⟨?_, ?_, ?_, hend⟩
  all_goals
    dsimp only
    omega

/-- Where the window is within the frames there is a fold, with the times of its frames. -/
theorem fold_dates (hc : candidates ≠ []) (h : window.Shaped backtester.config frames.length)
    (hv : 0 < backtester.config.validationFrames) :
    ∃ fold, backtester.fold frames candidates window = some fold ∧ window.Dates frames fold := by
  obtain ⟨htraining, hembargo, hvalidation, hwithin⟩ := h
  obtain ⟨first, rest, rfl⟩ := List.exists_cons_of_ne_nil hc
  have h1 := List.getElem?_eq_getElem (show window.trainingStart < frames.length by omega)
  have h2 := List.getElem?_eq_getElem (show window.trainingEnd < frames.length by omega)
  have h3 := List.getElem?_eq_getElem (show window.validationStart < frames.length by omega)
  have h4 := List.getElem?_eq_getElem hwithin
  rw [NativeQuantBacktester.fold, h1, h2, h3, h4]
  refine ⟨_, rfl, ?_⟩
  constructor
  · rw [h1]
    rfl
  · rw [h2]
    rfl
  · rw [h3]
    rfl
  · rw [h4]
    rfl

/-- The ends of the validation windows, from one on. -/
def endsFrom (backtester : NativeQuantBacktester F) (count validationEnd steps : Nat) : List Nat :=
  (List.range' validationEnd steps backtester.config.validationFrames).filter (· < count)

omit [Scalar F] in
theorem foldWindows_eq (hcount : backtester.config.minimumTrainingFrames + backtester.config.embargoFrames +
      backtester.config.validationFrames ≤ count) :
    backtester.foldWindows count = (endsFrom backtester count (backtester.config.minimumTrainingFrames +
      backtester.config.embargoFrames + backtester.config.validationFrames - 1) count).map
        backtester.windowEnding :=
  if_neg (not_lt.mpr hcount)

omit [Scalar F] in
theorem endsFrom_of_le (h : count ≤ validationEnd) (steps : Nat) :
    endsFrom backtester count validationEnd steps = [] := by
  rw [endsFrom, List.filter_eq_nil_iff]
  intro stop hstop
  obtain ⟨rounds, -, rfl⟩ := List.mem_range'.mp hstop
  have hbeyond : count ≤ validationEnd + backtester.config.validationFrames * rounds :=
    h.trans (Nat.le_add_right _ _)
  simpa using hbeyond

omit [Scalar F] in
theorem endsFrom_succ (h : validationEnd < count) (steps : Nat) :
    endsFrom backtester count validationEnd (steps + 1) = validationEnd ::
      endsFrom backtester count (validationEnd + backtester.config.validationFrames) steps := by
  rw [endsFrom, List.range'_succ, List.filter_cons, if_pos (decide_eq_true h)]
  rfl

omit [Scalar F] in
/-- The ends are a stretch of an arithmetic sequence. -/
theorem endsFrom_eq_range' (backtester : NativeQuantBacktester F) (count validationEnd steps : Nat) : ∃ rounds,
    endsFrom backtester count validationEnd steps =
      List.range' validationEnd rounds backtester.config.validationFrames := by
  induction steps generalizing validationEnd with
  | zero => exact ⟨0, rfl⟩
  | succ steps ih =>
    rcases lt_or_ge validationEnd count with hlt | hge
    · obtain ⟨rounds, hrounds⟩ := ih (validationEnd + backtester.config.validationFrames)
      exact ⟨rounds + 1, by rw [endsFrom_succ hlt, hrounds, List.range'_succ]⟩
    · exact ⟨0, endsFrom_of_le hge _⟩

/-- With rounds enough the loop goes through the ends. -/
theorem walkForwardLoop_eq (hlength : frames.length ≤ u64Max) (hv : 0 < backtester.config.validationFrames)
    (ht : 0 < backtester.config.minimumTrainingFrames) (hc : candidates ≠ [])
    (hneeded : backtester.config.minimumTrainingFrames + backtester.config.embargoFrames +
      backtester.config.validationFrames ≤ validationEnd + 1)
    {steps rounds : Nat} (hsteps : frames.length ≤ validationEnd + steps) (hrounds : steps < rounds)
    (folds : List (WalkForwardFoldReport F)) :
    backtester.walkForwardLoop frames candidates rounds validationEnd folds =
      some (folds ++ ((endsFrom backtester frames.length validationEnd steps).map
        backtester.windowEnding).filterMap (backtester.fold frames candidates)) := by
  have hdone : ∀ (rounds validationEnd : Nat) (folds : List (WalkForwardFoldReport F)),
      0 < rounds → frames.length ≤ validationEnd →
      backtester.walkForwardLoop frames candidates rounds validationEnd folds = some folds := by
    intro rounds validationEnd folds hpos hge
    obtain ⟨rounds, rfl⟩ := Nat.exists_eq_succ_of_ne_zero hpos.ne'
    exact if_neg (not_lt.mpr hge)
  induction steps generalizing validationEnd rounds folds with
  | zero =>
    have hbeyond : frames.length ≤ validationEnd := hsteps
    rw [hdone rounds validationEnd folds hrounds hbeyond, endsFrom_of_le hbeyond]
    exact congrArg some (List.append_nil folds).symm
  | succ steps ih =>
    rcases lt_or_ge validationEnd frames.length with hlt | hge
    · obtain ⟨rounds, rfl⟩ := Nat.exists_eq_succ_of_ne_zero (Nat.ne_of_gt (Nat.zero_lt_of_lt hrounds))
      have hwindow : backtester.checkedWindow validationEnd = some (backtester.windowEnding validationEnd) :=
        checkedWindow_eq hv hneeded (hlt.trans_le hlength)
      obtain ⟨fold, hfold, -⟩ := fold_dates hc (windowEnding_shaped ht hneeded hlt) hv
      rw [NativeQuantBacktester.walkForwardLoop, if_pos hlt, hwindow]
      simp only [Option.bind_eq_bind, Option.bind_some, hfold]
      rw [endsFrom_succ hlt, List.map_cons, List.filterMap_cons, hfold]
      -- An end that saturates is beyond the frames, as the sum is.
      rcases le_or_gt (validationEnd + backtester.config.validationFrames) u64Max with hfits | hover
      · rw [saturatingAdd, min_eq_left hfits]
        have hnext : backtester.config.minimumTrainingFrames + backtester.config.embargoFrames +
            backtester.config.validationFrames ≤ validationEnd + backtester.config.validationFrames + 1 := by
          omega
        have hleft : steps < rounds := by omega
        rw [ih hnext (by omega) hleft (folds ++ [fold]), List.append_assoc]
        rfl
      · rw [saturatingAdd, min_eq_right hover.le, hdone rounds u64Max _ (by omega) hlength,
          endsFrom_of_le (by omega)]
        rfl
    · rw [hdone rounds validationEnd folds (by omega) hge, endsFrom_of_le hge]
      exact congrArg some (List.append_nil folds).symm

/-- Whatever the number of frames, the arithmetic is sound and the loop ends with the folds. -/
theorem walkForwardChecked_eq (config : NativeBacktestConfig F)
    (evaluate : QuantParameters F → QuantBacktestFrame F → QuantSignal F)
    (candidates : List (CandidateBacktestReport F)) (hlength : frames.length ≤ u64Max) {rounds : Nat}
    (hrounds : frames.length < rounds) :
    (NativeQuantBacktester.new config evaluate).walkForwardChecked frames candidates rounds =
      some ((NativeQuantBacktester.new config evaluate).walkForward frames candidates) := by
  obtain ⟨ht, hv, htmost, hvmost, hemost⟩ := new_frames config evaluate
  set backtester := NativeQuantBacktester.new config evaluate with hbacktester
  have hmax : 3000000 < u64Max := by decide
  have hunvalidated : checkedAdd backtester.config.minimumTrainingFrames backtester.config.embargoFrames =
      some (backtester.config.minimumTrainingFrames + backtester.config.embargoFrames) :=
    if_pos (by omega)
  have hneeded : checkedAdd (backtester.config.minimumTrainingFrames + backtester.config.embargoFrames)
      backtester.config.validationFrames = some (backtester.config.minimumTrainingFrames +
        backtester.config.embargoFrames + backtester.config.validationFrames) :=
    if_pos (by omega)
  set needed := backtester.config.minimumTrainingFrames + backtester.config.embargoFrames +
    backtester.config.validationFrames with hn
  have hfirst : checkedSub needed 1 = some (needed - 1) := if_pos (by omega)
  unfold NativeQuantBacktester.walkForwardChecked NativeQuantBacktester.walkForward
  simp only [hunvalidated, hneeded, hfirst, Option.bind_eq_bind, Option.bind_some]
  cases candidates with
  | nil => simp
  | cons candidate candidates =>
    rcases lt_or_ge frames.length needed with hfew | henough
    · have hnone : backtester.foldWindows frames.length = [] := if_pos hfew
      simp [hfew, hnone]
    · rw [foldWindows_eq henough, if_neg (by simp [henough])]
      have hloop := walkForwardLoop_eq hlength hv ht (List.cons_ne_nil candidate candidates)
        (show needed ≤ needed - 1 + 1 by omega) (show frames.length ≤ needed - 1 + frames.length by omega)
        hrounds []
      exact hloop

omit [Scalar F] in
theorem foldWindows_shaped (ht : 0 < backtester.config.minimumTrainingFrames)
    (h : window ∈ backtester.foldWindows count) : window.Shaped backtester.config count := by
  rcases lt_or_ge count (backtester.config.minimumTrainingFrames + backtester.config.embargoFrames +
    backtester.config.validationFrames) with hfew | henough
  · have hnone : backtester.foldWindows count = [] := if_pos hfew
    rw [hnone] at h
    cases h
  · rw [foldWindows_eq henough] at h
    obtain ⟨validationEnd, hend, rfl⟩ := List.mem_map.mp h
    obtain ⟨hrange, hlt⟩ := List.mem_filter.mp hend
    obtain ⟨steps, -, rfl⟩ := List.mem_range'.mp hrange
    exact windowEnding_shaped ht (by omega) (of_decide_eq_true hlt)

omit [Scalar F] in
theorem foldWindows_adjacent (backtester : NativeQuantBacktester F) (count : Nat) :
    (backtester.foldWindows count).IsChain fun earlier later =>
      later.validationStart = earlier.validationEnd + 1 := by
  rcases lt_or_ge count (backtester.config.minimumTrainingFrames + backtester.config.embargoFrames +
    backtester.config.validationFrames) with hfew | henough
  · have hnone : backtester.foldWindows count = [] := if_pos hfew
    rw [hnone]
    exact .nil
  · obtain ⟨rounds, hrounds⟩ := endsFrom_eq_range' backtester count _ count
    rw [foldWindows_eq henough, hrounds, List.isChain_map]
    refine (List.isChain_range' _ _ _).imp fun earlier later hnext => ?_
    unfold NativeQuantBacktester.windowEnding
    dsimp only
    omega

omit [Scalar F] in
theorem foldWindows_placed (ht : 0 < backtester.config.minimumTrainingFrames) {fold : Nat}
    (h : (backtester.foldWindows count)[fold]? = some window) :
    window.validationStart = backtester.validationStart fold := by
  rcases lt_or_ge count (backtester.config.minimumTrainingFrames + backtester.config.embargoFrames +
    backtester.config.validationFrames) with hfew | henough
  · have hnone : backtester.foldWindows count = [] := if_pos hfew
    rw [hnone] at h
    cases h
  · obtain ⟨rounds, hrounds⟩ := endsFrom_eq_range' backtester count _ count
    rw [foldWindows_eq henough, hrounds, List.getElem?_map, Option.map_eq_some_iff] at h
    obtain ⟨validationEnd, hend, rfl⟩ := h
    obtain ⟨hlt, rfl⟩ := List.getElem?_eq_some_iff.mp hend
    rw [List.getElem_range', Nat.mul_comm]
    unfold NativeQuantBacktester.windowEnding NativeQuantBacktester.validationStart
    dsimp only
    omega

/-- A plan for every number of frames. -/
theorem walkForward_plans (config : NativeBacktestConfig F)
    (evaluate : QuantParameters F → QuantBacktestFrame F → QuantSignal F)
    (frames : List (QuantBacktestFrame F)) (candidates : List (CandidateBacktestReport F)) :
    ∃ planned, Plans (.new config evaluate) frames candidates planned := by
  obtain ⟨ht, hv, -⟩ := new_frames config evaluate
  set backtester := NativeQuantBacktester.new config evaluate with hbacktester
  by_cases hc : candidates = []
  · refine ⟨[], ?_, nofun, nofun, .nil, nofun⟩
    rw [hc]
    rfl
  -- Every window has its fold, so the folds pair up with the windows.
  have hpairs : ∀ windows : List FoldWindow,
      (∀ window ∈ windows, window.Shaped backtester.config frames.length) →
      ∃ planned : List (PlannedFold F), planned.map PlannedFold.window = windows ∧
        planned.map PlannedFold.fold = windows.filterMap (backtester.fold frames candidates) ∧
        ∀ item ∈ planned, item.window.Dates frames item.fold := by
    intro windows hshaped
    induction windows with
    | nil => exact ⟨[], rfl, rfl, nofun⟩
    | cons window windows ih =>
      obtain ⟨planned, hwindows, hfolds, hdated⟩ := ih fun later hlater =>
        hshaped later (List.mem_cons_of_mem window hlater)
      obtain ⟨fold, hfold, hdates⟩ := fold_dates hc (hshaped window List.mem_cons_self) hv
      refine ⟨⟨window, fold⟩ :: planned, ?_, ?_, List.forall_mem_cons.mpr ⟨hdates, hdated⟩⟩
      · rw [List.map_cons, hwindows]
      · rw [List.map_cons, hfolds, List.filterMap_cons, hfold]
  have hshaped : ∀ window ∈ backtester.foldWindows frames.length,
      window.Shaped backtester.config frames.length := fun window h => foldWindows_shaped ht h
  obtain ⟨planned, hwindows, hfolds, hdated⟩ := hpairs _ hshaped
  refine ⟨planned, ?_, hdated, fun item hitem => ?_, ?_, fun fold item hitem => ?_⟩
  · rw [hfolds, NativeQuantBacktester.walkForward, if_neg]
    rw [List.isEmpty_iff]
    exact hc
  · exact hshaped item.window (hwindows ▸ List.mem_map_of_mem hitem)
  · have hchain := foldWindows_adjacent backtester frames.length
    rw [← hwindows, List.isChain_map] at hchain
    exact hchain
  · apply foldWindows_placed ht
    rw [← hwindows, List.getElem?_map, hitem]
    rfl

end Windows

/-! Which trades the windows count, when the frames are further apart than the tolerance of the comparison. -/

section Counting
variable {backtester : NativeQuantBacktester ℚ} {frames : List (QuantBacktestFrame ℚ)}
  {parameterSets : List (QuantParameters ℚ)} {trade : NativeBacktestTrade ℚ}
  {trades : List (NativeBacktestTrade ℚ)}

/-- Every frame is later than the one before it, by more than the tolerance. -/
def Spaced (frames : List (QuantBacktestFrame ℚ)) : Prop :=
  frames.Pairwise fun earlier later => earlier.timestamp + Scalar.epsilon < later.timestamp

/-- The trade was entered in a frame. -/
def EnteredIn (frames : List (QuantBacktestFrame ℚ)) (trade : NativeBacktestTrade ℚ) (index : Nat) : Prop :=
  frames[index]?.map QuantBacktestFrame.timestamp = some trade.enteredAt

/-- No trade is counted by the validation windows of two folds, or by both windows of one. -/
structure CountsOnce (folds : List (WalkForwardFoldReport ℚ)) (candidates : List (CandidateBacktestReport ℚ)) :
    Prop where
  validated : folds.Pairwise fun earlier later => ∀ candidate ∈ candidates,
    List.Disjoint (tradesBetween earlier.validationStart earlier.validationEnd candidate.tradeLedger)
      (tradesBetween later.validationStart later.validationEnd candidate.tradeLedger)
  trained : ∀ fold ∈ folds, ∀ candidate ∈ candidates,
    List.Disjoint (tradesBetween fold.trainingStart fold.trainingEnd candidate.tradeLedger)
      (tradesBetween fold.validationStart fold.validationEnd candidate.tradeLedger)

theorem replayCandidate_entered (backtester : NativeQuantBacktester ℚ) (frames : List (QuantBacktestFrame ℚ))
    (parameters : QuantParameters ℚ)
    (h : trade ∈ (backtester.replayCandidate frames parameters).tradeLedger) :
    ∃ index, EnteredIn frames trade index := by
  obtain ⟨timed, htrades, hplaced, -⟩ := replayCandidate_timed backtester frames parameters
  rw [← htrades] at h
  obtain ⟨item, hitem, rfl⟩ := List.mem_map.mp h
  exact ⟨item.entry, (hplaced item hitem).enteredAt⟩

theorem Spaced.time_lt (h : Spaced frames) {i j : Nat} (hij : i < j) {earlier later : ℚ}
    (hi : frames[i]?.map QuantBacktestFrame.timestamp = some earlier)
    (hj : frames[j]?.map QuantBacktestFrame.timestamp = some later) : earlier + Scalar.epsilon < later := by
  obtain ⟨first, hfirst, rfl⟩ := Option.map_eq_some_iff.mp hi
  obtain ⟨second, hsecond, rfl⟩ := Option.map_eq_some_iff.mp hj
  obtain ⟨hlt, rfl⟩ := List.getElem?_eq_some_iff.mp hfirst
  obtain ⟨hlt', rfl⟩ := List.getElem?_eq_some_iff.mp hsecond
  exact List.pairwise_iff_getElem.mp h i j hlt hlt' hij

/-- A trade that is counted between two frames was entered in one of those from the first to the second. -/
theorem Spaced.counted (h : Spaced frames) {index first last : Nat} {start stop : ℚ}
    (hindex : EnteredIn frames trade index)
    (hfirst : frames[first]?.map QuantBacktestFrame.timestamp = some start)
    (hlast : frames[last]?.map QuantBacktestFrame.timestamp = some stop)
    (hcounted : trade ∈ tradesBetween start stop trades) : first ≤ index ∧ index ≤ last := by
  obtain ⟨-, hbetween⟩ := List.mem_filter.mp hcounted
  rw [Bool.and_eq_true, decide_eq_true_eq, decide_eq_true_eq] at hbetween
  constructor
  · by_contra hlate
    exact absurd hbetween.1 (not_le.mpr (h.time_lt (not_le.mp hlate) hindex hfirst))
  · by_contra hearly
    exact absurd hbetween.2 (not_le.mpr (h.time_lt (not_le.mp hearly) hlast hindex))

/-- Windows one after the other count different trades. -/
theorem Spaced.disjoint (h : Spaced frames) {first last next final : Nat} (hapart : last < next)
    {start stop restart finish : ℚ}
    (hfirst : frames[first]?.map QuantBacktestFrame.timestamp = some start)
    (hlast : frames[last]?.map QuantBacktestFrame.timestamp = some stop)
    (hnext : frames[next]?.map QuantBacktestFrame.timestamp = some restart)
    (hfinal : frames[final]?.map QuantBacktestFrame.timestamp = some finish)
    (hentered : ∀ trade ∈ trades, ∃ index, EnteredIn frames trade index) :
    List.Disjoint (tradesBetween start stop trades) (tradesBetween restart finish trades) := by
  intro trade hearlier hlater
  obtain ⟨index, hindex⟩ := hentered trade (List.mem_filter.mp hearlier).1
  have hle := (h.counted hindex hfirst hlast hearlier).2
  have hge := (h.counted hindex hnext hfinal hlater).1
  omega

/-- The validation windows of a plan follow on each other. -/
theorem Plans.apart {candidates : List (CandidateBacktestReport ℚ)} {planned : List (PlannedFold ℚ)}
    (h : Plans backtester frames candidates planned) (hv : 0 < backtester.config.validationFrames) :
    planned.Pairwise fun earlier later => earlier.window.validationEnd < later.window.validationStart := by
  have hlong : ∀ item ∈ planned, item.window.validationStart ≤ item.window.validationEnd := by
    intro item hitem
    have hvalidation := (h.shaped item hitem).validation
    omega
  have hchain : planned.IsChain fun earlier later =>
      earlier.window.validationEnd < later.window.validationStart ∧
        later.window.validationStart ≤ later.window.validationEnd := by
    refine List.IsChain.imp_of_mem_imp (fun earlier later _ hmem hnext => ⟨?_, hlong later hmem⟩) h.adjacent
    omega
  have htrans : IsTrans (PlannedFold ℚ) fun earlier later =>
      earlier.window.validationEnd < later.window.validationStart ∧
        later.window.validationStart ≤ later.window.validationEnd := by
    constructor
    rintro first second third ⟨hfirst, hsecond⟩ ⟨hnext, hthird⟩
    exact ⟨hfirst.trans_le (hsecond.trans hnext.le), hthird⟩
  exact (List.isChain_iff_pairwise.mp hchain).imp fun h => h.1

/-- What the loop of `walk_forward` does for every number of frames and all settings. -/
structure SoundFolds (backtester : NativeQuantBacktester ℚ) (frames : List (QuantBacktestFrame ℚ))
    (candidates : List (CandidateBacktestReport ℚ)) : Prop where
  ends : ∀ rounds, frames.length < rounds → backtester.walkForwardChecked frames candidates rounds =
    some (backtester.walkForward frames candidates)
  planned : ∃ planned, Plans backtester frames candidates planned
  counted : Spaced frames → CountsOnce (backtester.walkForward frames candidates) candidates

theorem walkForward_sound (config : NativeBacktestConfig ℚ)
    (evaluate : QuantParameters ℚ → QuantBacktestFrame ℚ → QuantSignal ℚ)
    (frames : List (QuantBacktestFrame ℚ)) (parameterSets : List (QuantParameters ℚ))
    (hlength : frames.length ≤ u64Max) :
    SoundFolds (.new config evaluate) frames
      (parameterSets.map ((NativeQuantBacktester.new config evaluate).replayCandidate frames)) := by
  obtain ⟨ht, hv, -⟩ := new_frames config evaluate
  set backtester := NativeQuantBacktester.new config evaluate with hbacktester
  set candidates := parameterSets.map (backtester.replayCandidate frames) with hcandidates
  obtain ⟨planned, hplanned⟩ := walkForward_plans config evaluate frames candidates
  have hentered : ∀ candidate ∈ candidates, ∀ trade ∈ candidate.tradeLedger,
      ∃ index, EnteredIn frames trade index := by
    intro candidate hcandidate trade htrade
    obtain ⟨parameters, -, rfl⟩ := List.mem_map.mp hcandidate
    exact replayCandidate_entered backtester frames parameters htrade
  refine ⟨fun rounds hrounds => walkForwardChecked_eq config evaluate candidates hlength hrounds,
    ⟨planned, hplanned⟩, fun hspaced => ⟨?_, ?_⟩⟩
  · rw [← hplanned.folds, List.pairwise_map]
    refine (hplanned.apart hv).imp_of_mem fun {earlier later} hearlier hlater hapart candidate hcandidate => ?_
    have hbefore := hplanned.dated earlier hearlier
    have hafter := hplanned.dated later hlater
    exact hspaced.disjoint hapart hbefore.validationStart hbefore.validationEnd hafter.validationStart
      hafter.validationEnd (hentered candidate hcandidate)
  · rw [← hplanned.folds]
    intro fold hfold candidate hcandidate
    obtain ⟨item, hitem, rfl⟩ := List.mem_map.mp hfold
    have hdates := hplanned.dated item hitem
    have hembargo := (hplanned.shaped item hitem).embargo
    have hapart : item.window.trainingEnd < item.window.validationStart := by omega
    exact hspaced.disjoint hapart hdates.trainingStart hdates.trainingEnd hdates.validationStart
      hdates.validationEnd (hentered candidate hcandidate)

end Counting

section Sample

theorem walkForward_sound_rising :
    risingFrames.length ≤ u64Max ∧ SoundFolds sampleBacktester risingFrames
      (shortAndMiddleArms.map (sampleBacktester.replayCandidate risingFrames)) :=
  ⟨by decide, walkForward_sound shortWindows (evaluateUniverse .exact .default (15 / 100)) risingFrames
    shortAndMiddleArms (by decide)⟩

/-- Frames of strictly increasing times that are nearer to each other than the tolerance, but for the last
one. Short momentum shows in the first frame of the second validation window. -/
def denseFrames : List (QuantBacktestFrame ℚ) :=
  (List.range 26).map fun (index : Nat) =>
    { timestamp := if index = 25 then 120 else index / 2 ^ 60
      snapshots :=
        [{ exchange := "binance"
           symbol := "BTC/USDT"
           price := 100
           volume24h := some 100000
           fetchedAt := 0 }]
      historicalFeatures := fun _ => some
        { samples := 100
          firstTs := none
          lastTs := none
          freshnessSeconds := none
          momentumShortPct := some (if index = 20 then 2 else 0)
          momentumMidPct := some 0
          momentumLongPct := none
          volatilityPct := some 1
          drawdownPct := none
          volumeRatioShortLong := none } }

/-- The one trade is counted by the validation windows of both folds. -/
theorem dense_trade_validated_twice :
    let candidate := sampleBacktester.replayCandidate denseFrames (shortAndMiddleArms.head (by decide))
    (denseFrames.Pairwise fun earlier later => earlier.timestamp < later.timestamp) ∧
      ¬ CountsOnce (sampleBacktester.walkForward denseFrames [candidate]) [candidate] := by
  intro candidate
  have hordered : denseFrames.Pairwise fun earlier later => earlier.timestamp < later.timestamp := by
    decide +kernel
  have hledger : candidate.tradeLedger.length = 1 := by
    decide +kernel
  have hcounts : (sampleBacktester.walkForward denseFrames [candidate]).map (fun fold =>
      (tradesBetween fold.validationStart fold.validationEnd candidate.tradeLedger).length) = [1, 1] := by
    decide +kernel
  refine ⟨hordered, fun h => ?_⟩
  obtain ⟨trade, htrade⟩ := List.length_eq_one_iff.mp hledger
  obtain ⟨first, rest, hfolds, hfirst, hrest⟩ := List.map_eq_cons_iff.mp hcounts
  obtain ⟨second, others, rfl, hsecond, -⟩ := List.map_eq_cons_iff.mp hrest
  have hcounted : ∀ start stop : ℚ, (tradesBetween start stop candidate.tradeLedger).length = 1 →
      trade ∈ tradesBetween start stop candidate.tradeLedger := by
    intro start stop hone
    obtain ⟨counted, hcounted⟩ := List.length_eq_one_iff.mp hone
    have hmem : counted ∈ tradesBetween start stop candidate.tradeLedger := by
      rw [hcounted]
      exact List.mem_cons_self
    have hsame := (List.mem_filter.mp hmem).1
    rw [htrade, List.mem_singleton] at hsame
    exact hsame ▸ hmem
  have hvalidated := h.validated
  rw [hfolds] at hvalidated
  have hdisjoint := (List.pairwise_cons.mp hvalidated).1 second List.mem_cons_self candidate
    List.mem_cons_self
  exact hdisjoint (hcounted _ _ hfirst) (hcounted _ _ hsecond)

end Sample

end Gail.Trading
