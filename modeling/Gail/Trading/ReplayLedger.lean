import Gail.Trading.NativeReplay
import Mathlib.Tactic.Ring

/-! The ledger of a replay: it grows with the frames, it accounts for the equity, and no market is held
twice at a time. -/
namespace Gail.Trading
open Gail.Library Datalake

section Definitions
variable {F : Type}

/-- A market, as the replay tells markets apart. -/
def marketOf (exchange symbol : String) : List Char × List Char :=
  (exchange.toList.map Char.toLower, symbol.toList.map Char.toLower)

def PendingPosition.market (position : PendingPosition F) : List Char × List Char :=
  marketOf position.exchange position.symbol

def NativeBacktestTrade.market (trade : NativeBacktestTrade F) : List Char × List Char :=
  marketOf trade.exchange trade.symbol

/-- A trade with the positions of the frames in which it was entered and left. -/
structure TimedTrade (F : Type) where
  trade : NativeBacktestTrade F
  entry : Nat
  exit : Nat

/-- The trade was entered in one frame and left in a later one. -/
structure TimedTrade.In (timed : TimedTrade F) (frames : List (QuantBacktestFrame F)) : Prop where
  order : timed.entry < timed.exit
  enteredAt : frames[timed.entry]?.map QuantBacktestFrame.timestamp = some timed.trade.enteredAt
  exitedAt : frames[timed.exit]?.map QuantBacktestFrame.timestamp = some timed.trade.exitedAt

/-- Of two trades in the same market, the later one is entered when the earlier one has been left. -/
def Apart (timed : List (TimedTrade F)) : Prop :=
  timed.Pairwise fun earlier later => earlier.trade.market = later.trade.market → earlier.exit ≤ later.entry

/-- The trades and positions of a replay after so many of the frames. -/
structure Timed (frames : List (QuantBacktestFrame F)) (count : Nat) (timed : List (TimedTrade F))
    (positions : List (PendingPosition F)) : Prop where
  placed : ∀ item ∈ timed, item.In frames ∧ item.exit ≤ count
  apart : Apart timed
  opened : ∀ position ∈ positions, ∃ entry < count,
    frames[entry]?.map QuantBacktestFrame.timestamp = some position.enteredAt ∧
      ∀ item ∈ timed, item.trade.market = position.market → item.exit ≤ entry
  alone : positions.Pairwise fun earlier later => earlier.market ≠ later.market

end Definitions

section Replay
variable {F : Type} [Scalar F] {backtester : NativeQuantBacktester F} {parameters : QuantParameters F}
  {config : NativeBacktestConfig F} {frame : QuantBacktestFrame F} {state : ReplayState F}

theorem replay_prefix (frames : List (QuantBacktestFrame F)) (state : ReplayState F) :
    state.trades <+: (frames.foldl (backtester.replayFrame parameters) state).trades := by
  apply replay_invariant backtester parameters (I := fun next => state.trades <+: next.trades)
  · exact fun _ _ h => h
  · exact fun _ _ _ _ h => h.trans (List.prefix_append _ _)
  · exact List.prefix_rfl

/-- More frames only add to the ledger. -/
theorem replayCandidate_prefix (before after : List (QuantBacktestFrame F)) :
    (backtester.replayCandidate before parameters).tradeLedger <+:
      (backtester.replayCandidate (before ++ after) parameters).tradeLedger := by
  unfold NativeQuantBacktester.replayCandidate
  rw [List.foldl_append]
  exact replay_prefix after _

/-! The frames of the trades. While the positions of one frame are closed, those that are kept and those
that are still to be looked at are the positions of the invariant. -/

variable {frames : List (QuantBacktestFrame F)} {count : Nat} {timed : List (TimedTrade F)}
  {position : PendingPosition F} {before after : List (PendingPosition F)}

/-- A position that is closed in a later frame than it was opened in becomes a trade. -/
theorem Timed.close (config : NativeBacktestConfig F) (parameters : QuantParameters F)
    (h : Timed frames count timed (before ++ position :: after))
    (hframe : frames[count]? = some frame) (exit : Datalake.MarketSnapshot F) :
    ∃ entry, Timed frames count
      (timed ++ [⟨ReplayState.closedTrade config parameters frame position exit, entry, count⟩])
      (before ++ after) := by
  obtain ⟨entry, hentry, hentered, hapart⟩ := h.opened position (List.mem_append_right _ List.mem_cons_self)
  have hsub : (before ++ after).Sublist (before ++ position :: after) :=
    (List.Sublist.refl before).append (List.sublist_cons_self position after)
  -- The other positions are in other markets.
  have hother : ∀ other ∈ before ++ after, other.market ≠ position.market := by
    intro other hmem
    obtain ⟨-, hrest, hcross⟩ := List.pairwise_append.mp h.alone
    rcases List.mem_append.mp hmem with hb | ha
    · exact hcross other hb position List.mem_cons_self
    · exact ((List.pairwise_cons.mp hrest).1 other ha).symm
  refine ⟨entry, ?_, ?_, ?_, h.alone.sublist hsub⟩
  · intro item hitem
    rcases List.mem_append.mp hitem with hold | hnew
    · exact h.placed item hold
    · rw [List.mem_singleton.mp hnew]
      refine ⟨⟨hentry, hentered, ?_⟩, le_rfl⟩
      rw [hframe]
      rfl
  · refine List.pairwise_append.mpr ⟨h.apart, List.pairwise_singleton _ _, ?_⟩
    intro item hitem new hnew
    rw [List.mem_singleton.mp hnew]
    exact hapart item hitem
  · intro other hmem
    obtain ⟨opened, hopened, htime, hlater⟩ := h.opened other (hsub.subset hmem)
    refine ⟨opened, hopened, htime, fun item hitem hmarket => ?_⟩
    rcases List.mem_append.mp hitem with hold | hnew
    · exact hlater item hold hmarket
    · rw [List.mem_singleton.mp hnew] at hmarket
      exact absurd hmarket.symm (hother other hmem)

/-- The trades of a state are timed in the frames, next to some more positions. -/
def TimedIn (frames : List (QuantBacktestFrame F)) (count : Nat) (state : ReplayState F)
    (rest : List (PendingPosition F)) : Prop :=
  ∃ timed, timed.map TimedTrade.trade = state.trades ∧ Timed frames count timed (state.positions ++ rest)

theorem closePosition_timed (h : TimedIn frames count state (position :: after))
    (hframe : frames[count]? = some frame) :
    TimedIn frames count (state.closePosition config parameters frame position) after := by
  obtain ⟨timed, htrades, htimed⟩ := h
  have hkept : TimedIn frames count { state with positions := state.positions ++ [position] } after := by
    refine ⟨timed, htrades, ?_⟩
    rw [List.append_assoc]
    exact htimed
  unfold ReplayState.closePosition
  split
  · exact hkept
  · split
    · exact hkept
    · rename_i exit hexit
      obtain ⟨entry, hclosed⟩ := htimed.close config parameters hframe exit
      refine ⟨_, ?_, hclosed⟩
      rw [List.map_append, htrades]
      rfl

theorem closeDue_timed (config : NativeBacktestConfig F) (parameters : QuantParameters F)
    (h : TimedIn frames count state []) (hframe : frames[count]? = some frame) :
    TimedIn frames count (state.closeDue config parameters frame) [] := by
  apply closeDue_invariant (I := TimedIn frames count)
  · exact fun state position rest h => closePosition_timed h hframe
  · obtain ⟨timed, htrades, htimed⟩ := h
    rw [List.append_nil] at htimed
    exact ⟨timed, htrades, htimed⟩

theorem eqIgnoreAsciiCase_iff {left right : String} : eqIgnoreAsciiCase left right = true ↔
    left.toList.map Char.toLower = right.toList.map Char.toLower := beq_iff_eq

/-- A frame leaves the trades timed, with one frame more behind them. -/
theorem openPosition_timed (config : NativeBacktestConfig F) (h : TimedIn frames count state [])
    (hframe : frames[count]? = some frame) (signal : QuantSignal F) : TimedIn frames (count + 1) (state.openPosition config frame signal) [] := by
  obtain ⟨timed, htrades, htimed⟩ := h
  rw [List.append_nil] at htimed
  have hplaced : ∀ item ∈ timed, item.In frames ∧ item.exit ≤ count + 1 := by
    intro item hitem
    exact ⟨(htimed.placed item hitem).1, (htimed.placed item hitem).2.trans (Nat.le_succ count)⟩
  have hopened : ∀ position ∈ state.positions, ∃ entry < count + 1,
      frames[entry]?.map QuantBacktestFrame.timestamp = some position.enteredAt ∧
        ∀ item ∈ timed, item.trade.market = position.market → item.exit ≤ entry := by
    intro position hposition
    obtain ⟨entry, hentry, hrest⟩ := htimed.opened position hposition
    exact ⟨entry, hentry.trans (Nat.lt_succ_self count), hrest⟩
  have hkept : TimedIn frames (count + 1) state [] := by
    refine ⟨timed, htrades, ?_⟩
    rw [List.append_nil]
    exact ⟨hplaced, htimed.apart, hopened, htimed.alone⟩
  unfold ReplayState.openPosition
  split
  · exact hkept
  · split
    · exact hkept
    · rename_i hfree
      split
      · exact hkept
      · refine ⟨timed, htrades, ?_⟩
        rw [List.append_nil]
        refine ⟨hplaced, htimed.apart, ?_, ?_⟩
        · intro position hposition
          rcases List.mem_append.mp hposition with hold | hnew
          · exact hopened position hold
          · rw [List.mem_singleton.mp hnew]
            refine ⟨count, Nat.lt_succ_self count, ?_, fun item hitem _ => (htimed.placed item hitem).2⟩
            rw [hframe]
            rfl
        · refine List.pairwise_append.mpr ⟨htimed.alone, List.pairwise_singleton _ _, ?_⟩
          intro position hposition new hnew hmarket
          rw [List.mem_singleton.mp hnew] at hmarket
          obtain ⟨hexchange, hsymbol⟩ := Prod.mk.inj hmarket
          apply hfree
          refine List.any_eq_true.mpr ⟨position, hposition, ?_⟩
          rw [Bool.and_eq_true]
          exact ⟨eqIgnoreAsciiCase_iff.mpr hexchange, eqIgnoreAsciiCase_iff.mpr hsymbol⟩

theorem replay_timed (backtester : NativeQuantBacktester F) (parameters : QuantParameters F) {rest : List (QuantBacktestFrame F)} (h : TimedIn frames count state [])
    (hrest : frames.drop count = rest) :
    TimedIn frames (count + rest.length) (rest.foldl (backtester.replayFrame parameters) state) [] := by
  induction rest generalizing count state with
  | nil => exact h
  | cons frame rest ih =>
    have hframe : frames[count]? = some frame := by
      rw [← List.head?_drop, hrest, List.head?_cons]
    have hdrop : frames.drop (count + 1) = rest := by
      rw [← List.tail_drop, hrest, List.tail_cons]
    have hclosed := closeDue_timed backtester.config parameters h hframe
    have hnext := openPosition_timed backtester.config hclosed hframe (backtester.evaluate parameters frame)
    have hfinal := ih hnext hdrop
    rw [List.length_cons, Nat.add_comm rest.length, ← Nat.add_assoc]
    exact hfinal

/-- The trades of a ledger are apart in the frames. -/
theorem replayCandidate_timed (backtester : NativeQuantBacktester F) (frames : List (QuantBacktestFrame F))
    (parameters : QuantParameters F) : ∃ timed : List (TimedTrade F),
      timed.map TimedTrade.trade = (backtester.replayCandidate frames parameters).tradeLedger ∧
        (∀ item ∈ timed, item.In frames) ∧ Apart timed := by
  have hstart : TimedIn frames 0 (ReplayState.start backtester.config) [] :=
    ⟨[], rfl, ⟨nofun, List.Pairwise.nil, nofun, List.Pairwise.nil⟩⟩
  obtain ⟨timed, htrades, htimed⟩ := replay_timed backtester parameters hstart List.drop_zero
  exact ⟨timed, htrades, fun item hitem => (htimed.placed item hitem).1, htimed.apart⟩

end Replay

theorem replayCandidate_equity (backtester : NativeQuantBacktester ℚ) (frames : List (QuantBacktestFrame ℚ))
    (parameters : QuantParameters ℚ) :
    (backtester.replayCandidate frames parameters).endingEquityUsd = backtester.config.initialEquityUsd +
      ((backtester.replayCandidate frames parameters).tradeLedger.map NativeBacktestTrade.pnlUsd).sum := by
  apply replay_invariant backtester parameters (I := fun state => state.equity =
    backtester.config.initialEquityUsd + (state.trades.map NativeBacktestTrade.pnlUsd).sum)
  · exact fun _ _ h => h
  · intro state frame position exit h
    unfold ReplayState.record
    dsimp only
    rw [h, List.map_append, List.sum_append, List.map_singleton, List.sum_singleton, ← add_assoc]
  · exact (add_zero _).symm

/-- In frames in the order of their times, trades that are apart in the frames are apart in time. -/
theorem Apart.inTime {frames : List (QuantBacktestFrame ℚ)} {timed : List (TimedTrade ℚ)}
    (hordered : frames.Pairwise fun earlier later => earlier.timestamp ≤ later.timestamp)
    (hplaced : ∀ item ∈ timed, item.In frames) (h : Apart timed) :
    (timed.map TimedTrade.trade).Pairwise fun earlier later =>
      earlier.market = later.market → earlier.exitedAt ≤ later.enteredAt := by
  rw [List.pairwise_map]
  refine h.imp_of_mem fun {earlier later} hearlier hlater happ hmarket => ?_
  obtain ⟨left, hleft, hexited⟩ := Option.map_eq_some_iff.mp (hplaced earlier hearlier).exitedAt
  obtain ⟨entered, hentered, henteredAt⟩ := Option.map_eq_some_iff.mp (hplaced later hlater).enteredAt
  obtain ⟨hexit, rfl⟩ := List.getElem?_eq_some_iff.mp hleft
  obtain ⟨hentry, rfl⟩ := List.getElem?_eq_some_iff.mp hentered
  rw [← hexited, ← henteredAt]
  rcases (happ hmarket).lt_or_eq with hlt | heq
  · exact List.pairwise_iff_getElem.mp hordered _ _ hexit hentry hlt
  · simp only [heq, le_refl]

/-- A replay does not look ahead, loses no money, and holds no market twice at a time. -/
structure SoundReplay (backtester : NativeQuantBacktester ℚ) (frames : List (QuantBacktestFrame ℚ))
    (parameters : QuantParameters ℚ) : Prop where
  causal : ∀ before after, frames = before ++ after →
    (backtester.replayCandidate before parameters).tradeLedger <+:
      (backtester.replayCandidate frames parameters).tradeLedger
  conserved : (backtester.replayCandidate frames parameters).endingEquityUsd =
    backtester.config.initialEquityUsd +
      ((backtester.replayCandidate frames parameters).tradeLedger.map NativeBacktestTrade.pnlUsd).sum
  apart : ∃ timed : List (TimedTrade ℚ),
    timed.map TimedTrade.trade = (backtester.replayCandidate frames parameters).tradeLedger ∧
      (∀ item ∈ timed, item.In frames) ∧ Apart timed
  /-- The frames of a run are in the order of their times. -/
  apartInTime : frames.Pairwise (fun earlier later => earlier.timestamp ≤ later.timestamp) →
    (backtester.replayCandidate frames parameters).tradeLedger.Pairwise fun earlier later =>
      earlier.market = later.market → earlier.exitedAt ≤ later.enteredAt

theorem replayCandidate_sound (backtester : NativeQuantBacktester ℚ) (frames : List (QuantBacktestFrame ℚ))
    (parameters : QuantParameters ℚ) : SoundReplay backtester frames parameters := by
  obtain ⟨timed, htrades, hplaced, happ⟩ := replayCandidate_timed backtester frames parameters
  refine ⟨?_, replayCandidate_equity backtester frames parameters, ⟨timed, htrades, hplaced, happ⟩, ?_⟩
  · rintro before after rfl
    exact replayCandidate_prefix before after
  · intro hordered
    rw [← htrades]
    exact happ.inTime hordered hplaced

end Gail.Trading
