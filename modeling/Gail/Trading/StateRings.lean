import Gail.Trading.StateFileRuns

/-! The rings of the trading state over its operations and restarts. An insertion drops one entry at most, and
a restore installs the rings of the file as they are. -/
namespace Gail.Trading.Snapshot
open Gail.Library Codec

section Operations
variable {F : Type} [Scalar F]

namespace TradingState

def log (state : TradingState F) (now : F) (level category message : String) (context : Library.Json F) :
    TradingState F :=
  { state with
    activityLog := pushRing state.logRingSize state.activityLog { ts := now, level, category, message, context } }

def appendRecentTrade (state : TradingState F) (trade : ExecutedTrade F) : TradingState F :=
  { state with recentTrades := pushRing state.tradeRingSize state.recentTrades trade }

/-- Keeps up to twenty runs. -/
def recordBacktest (state : TradingState F) (summary : BacktestSummary F) : TradingState F :=
  { state with
    backtestHistory := pushRing 20 state.backtestHistory summary
    lastBacktest := some summary
    backtestInProgress := false }

def rememberExternalLog (state : TradingState F) (fingerprint : String) : TradingState F × Bool :=
  if fingerprint ∈ state.observedExternalLogFingerprints then (state, false)
  else
    ({ state with
        observedExternalLogFingerprints := pushRing 500 state.observedExternalLogFingerprints fingerprint }, true)

end TradingState

variable [NumberText F]

/-- `trade_identity`. -/
def ExecutedTrade.identity (trade : ExecutedTrade F) : String :=
  tradeIdentity
    { ts := trade.ts
      exchange := trade.exchange
      symbol := trade.symbol
      action := trade.action
      amountUsd := trade.amountUsd
      price := trade.price
      orderId := trade.orderId
      source := trade.source }

namespace TradingState

def appendTradeHistory (state : TradingState F) (trade : ExecutedTrade F) : TradingState F :=
  match state.tradeHistory.findIdx? fun existing => existing.identity == trade.identity with
  | some index =>
    let imported := state.tradeHistory[index]?.any fun existing => existing.source = .octobotImported
    if imported && decide (trade.source = .gail) then
      { state with tradeHistory := state.tradeHistory.set index trade }
    else state
  | none => { state with tradeHistory := state.tradeHistory ++ [trade] }

def recordTrade (state : TradingState F) (trade : ExecutedTrade F) : TradingState F :=
  let counted := { state with lastTradeAt := some trade.ts, tradeCount := state.tradeCount + 1 }
  (counted.appendTradeHistory trade).appendRecentTrade trade

/-- The trades whose identity is neither in `seen` nor that of an earlier one. -/
def unseenTrades : List String → List (ExecutedTrade F) → List (ExecutedTrade F)
  | _, [] => []
  | seen, trade :: trades =>
    if trade.identity ∈ seen then unseenTrades seen trades
    else trade :: unseenTrades (trade.identity :: seen) trades

def importTradeHistory (state : TradingState F) (trades : List (ExecutedTrade F)) : TradingState F × Nat :=
  let unseen := unseenTrades (state.tradeHistory.map ExecutedTrade.identity) trades
  if unseen.isEmpty then (state, 0)
  else
    let ordered := (state.tradeHistory ++ unseen).mergeSort fun left right => decide (left.ts ≤ right.ts)
    ({ state with tradeHistory := ordered }.rebuildRecentTrades, unseen.length)

/-- The state that another operation leaves, which touches none of the rings. -/
def elsewhere (state other : TradingState F) : TradingState F :=
  { other with
    recentTrades := state.recentTrades
    tradeHistory := state.tradeHistory
    activityLog := state.activityLog
    backtestHistory := state.backtestHistory
    observedExternalLogFingerprints := state.observedExternalLogFingerprints
    logRingSize := state.logRingSize
    tradeRingSize := state.tradeRingSize }

/-- Every ring is within its own bound. -/
structure RingsBounded (state : TradingState F) : Prop where
  activityLog : state.activityLog.length ≤ max 1 state.logRingSize
  recentTrades : state.recentTrades.length ≤ state.tradeRingSize
  backtestHistory : state.backtestHistory.length ≤ 20
  externalLogs : state.observedExternalLogFingerprints.length ≤ 500

end TradingState

inductive RingAction (F : Type) [Scalar F] where
  | log (now : F) (level category message : String) (context : Library.Json F)
  | recordTrade (trade : ExecutedTrade F)
  | importTradeHistory (trades : List (ExecutedTrade F))
  | recordBacktest (summary : BacktestSummary F)
  | rememberExternalLog (fingerprint : String)
  | elsewhere (other : TradingState F)
  | persist
  /-- The file is gone, or cut short and not read again. -/
  | loseFile
  /-- A new process with its own sizes restores the state. `repairs` says whether it gets to write back what it
  has repaired. -/
  | restart (sizes : RingSizes) (now : F) (repairs : Bool)

structure RingWorld (F Bytes : Type) [Scalar F] where
  state : TradingState F
  file : Option Bytes

namespace RingWorld
variable {Bytes : Type} (serde : SerdeText F Bytes)

def start (sizes : RingSizes) : RingWorld F Bytes :=
  { state := .new sizes.logRingSize sizes.tradeRingSize, file := none }

def step (w : RingWorld F Bytes) : RingAction F → RingWorld F Bytes
  | .log now level category message context => { w with state := w.state.log now level category message context }
  | .recordTrade trade => { w with state := w.state.recordTrade trade }
  | .importTradeHistory trades => { w with state := (w.state.importTradeHistory trades).1 }
  | .recordBacktest summary => { w with state := w.state.recordBacktest summary }
  | .rememberExternalLog fingerprint => { w with state := (w.state.rememberExternalLog fingerprint).1 }
  | .elsewhere other => { w with state := w.state.elsewhere other }
  | .persist => { w with file := some (serde.toStringPretty (tradingState.encode w.state)) }
  | .loseFile => { w with file := none }
  | .restart sizes now repairs =>
    let restored := serde.restore (.new sizes.logRingSize sizes.tradeRingSize) now w.file
    { state := restored.1, file := if repairs then restored.2.or w.file else w.file }

/-- A trade finds room in its ring, and a restore finds no longer log than its process has room for. -/
def Fits (w : RingWorld F Bytes) : RingAction F → Prop
  | .recordTrade _ => 0 < w.state.tradeRingSize
  | .restart sizes _ _ => ∀ snapshot ∈ w.file.bind serde.parse,
      snapshot.1.activityLog.length ≤ max 1 sizes.logRingSize
  | _ => True

/-- The rings of the process are bounded, and the file is of a state whose rings of fixed size are. -/
structure Kept (w : RingWorld F Bytes) : Prop where
  rings : w.state.RingsBounded
  file : ∀ bytes ∈ w.file, ∃ state : TradingState F, bytes = serde.toStringPretty (tradingState.encode state) ∧
    state.backtestHistory.length ≤ 20 ∧ state.observedExternalLogFingerprints.length ≤ 500

end RingWorld
end Operations

section Rings
variable {F Bytes : Type} [Scalar F] {state : TradingState F}

theorem rebuildRecentTrades_length (state : TradingState F) :
    state.rebuildRecentTrades.recentTrades.length ≤ state.tradeRingSize := by
  unfold TradingState.rebuildRecentTrades
  rw [List.length_drop]
  omega

theorem ringsBounded_new (logRingSize tradeRingSize : Nat) :
    (TradingState.new logRingSize tradeRingSize : TradingState F).RingsBounded :=
  ⟨Nat.zero_le _, Nat.zero_le _, Nat.zero_le _, Nat.zero_le _⟩

theorem length_le_of_pushRing {α : Type} {bound : Nat} {items : List α} (item : α) (hbound : 0 < bound)
    (h : items.length ≤ bound) : (pushRing bound items item).length ≤ bound := by
  have hone : max 1 bound = bound := max_eq_right hbound
  exact ((length_pushRing_le item).mpr (h.trans_eq hone.symm)).trans_eq hone

theorem log_ringsBounded (h : state.RingsBounded) (now : F) (level category message : String)
    (context : Library.Json F) : (state.log now level category message context).RingsBounded :=
  { h with activityLog := (length_pushRing_le _).mpr h.activityLog }

theorem recordBacktest_ringsBounded (h : state.RingsBounded) (summary : BacktestSummary F) :
    (state.recordBacktest summary).RingsBounded :=
  { h with backtestHistory := length_le_of_pushRing summary (by decide) h.backtestHistory }

theorem rememberExternalLog_ringsBounded (h : state.RingsBounded) (fingerprint : String) :
    (state.rememberExternalLog fingerprint).1.RingsBounded := by
  unfold TradingState.rememberExternalLog
  split
  · exact h
  · exact { h with externalLogs := length_le_of_pushRing fingerprint (by decide) h.externalLogs }

/-- A log that is restored keeps its length from then on, if it is more than the process has room for. -/
theorem adopt_ringsBounded_iff (logRingSize tradeRingSize : Nat) (restored : TradingState F) (now : F)
    (hbacktests : restored.backtestHistory.length ≤ 20)
    (hexternal : restored.observedExternalLogFingerprints.length ≤ 500) :
    ((TradingState.new logRingSize tradeRingSize).adopt restored now).RingsBounded ↔
      restored.activityLog.length ≤ max 1 logRingSize := by
  have hlog : ((TradingState.new logRingSize tradeRingSize).adopt restored now).activityLog =
      pushRing logRingSize restored.activityLog
        { ts := now, level := "info", category := "startup", message := "Restored trading state from disk",
          context := .null } := by
    unfold pushRing
    rw [← List.drop_one]
    rfl
  constructor
  · intro h
    have hlength := h.activityLog
    rw [hlog] at hlength
    exact (length_pushRing_le _).mp hlength
  · intro h
    refine ⟨?_, rebuildRecentTrades_length _, hbacktests, hexternal⟩
    rw [hlog]
    exact (length_pushRing_le _).mpr h

variable [NumberText F]

theorem appendTradeHistory_rings (state : TradingState F) (trade : ExecutedTrade F) :
    ∃ tradeHistory, state.appendTradeHistory trade = { state with tradeHistory } := by
  unfold TradingState.appendTradeHistory
  split
  · dsimp only
    split
    · exact ⟨_, rfl⟩
    · exact ⟨state.tradeHistory, rfl⟩
  · exact ⟨_, rfl⟩

theorem recordTrade_ringsBounded_iff (h : state.RingsBounded) (trade : ExecutedTrade F) :
    (state.recordTrade trade).RingsBounded ↔ 0 < state.tradeRingSize := by
  obtain ⟨tradeHistory, hhistory⟩ := appendTradeHistory_rings
    { state with lastTradeAt := some trade.ts, tradeCount := state.tradeCount + 1 } trade
  unfold TradingState.recordTrade
  dsimp only
  rw [hhistory]
  constructor
  · intro hafter
    have hlength : 0 < (pushRing state.tradeRingSize state.recentTrades trade).length := by
      unfold pushRing
      rw [List.length_append, List.length_singleton]
      exact Nat.succ_pos _
    exact hlength.trans_le hafter.recentTrades
  · intro hroom
    exact ⟨h.activityLog, length_le_of_pushRing trade hroom h.recentTrades, h.backtestHistory, h.externalLogs⟩

theorem importTradeHistory_ringsBounded (h : state.RingsBounded) (trades : List (ExecutedTrade F)) :
    (state.importTradeHistory trades).1.RingsBounded := by
  unfold TradingState.importTradeHistory
  dsimp only
  split
  · exact h
  · exact ⟨h.activityLog, rebuildRecentTrades_length _, h.backtestHistory, h.externalLogs⟩

end Rings

namespace RingWorld
variable {F Bytes : Type} [Scalar F] {serde : SerdeText F Bytes}

/-- What is read of a file that holds a state: its rings, and itself once more where it is repaired. -/
theorem parse_written {state : TradingState F} {snapshot : TradingState F × Option (Library.Json F)}
    (h : snapshot ∈ serde.parse (serde.toStringPretty (tradingState.encode state))) :
    snapshot.1.backtestHistory.length = state.backtestHistory.length ∧
      snapshot.1.observedExternalLogFingerprints.length = state.observedExternalLogFingerprints.length ∧
      ∀ payload ∈ snapshot.2, ∃ apiSchema, payload = tradingState.encode { state with apiSchema } := by
  rw [SerdeText.parse_encode, parsePersistedState_encode] at h
  split at h
  · split at h
    · obtain rfl := Option.some.inj h
      refine ⟨?_, ?_, ?_⟩
      · exact List.length_map _
      · exact List.length_map _
      · intro payload hpayload
        dsimp only at hpayload
        split at hpayload
        · exact ⟨_, (Option.some.inj hpayload).symm⟩
        · cases hpayload
    · cases h
  · cases h

variable {w : RingWorld F Bytes}

/-- What a restart finds in the file of a kept world. -/
theorem Kept.found (h : w.Kept serde) {snapshot : TradingState F × Option (Library.Json F)}
    (hfound : w.file.bind serde.parse = some snapshot) :
    snapshot.1.backtestHistory.length ≤ 20 ∧ snapshot.1.observedExternalLogFingerprints.length ≤ 500 ∧
      ∀ payload ∈ snapshot.2, ∃ state : TradingState F,
        serde.toStringPretty payload = serde.toStringPretty (tradingState.encode state) ∧
          state.backtestHistory.length ≤ 20 ∧ state.observedExternalLogFingerprints.length ≤ 500 := by
  obtain ⟨bytes, hbytes, hparse⟩ := Option.bind_eq_some_iff.mp hfound
  obtain ⟨state, rfl, hbacktests, hexternal⟩ := h.file bytes hbytes
  obtain ⟨hlength, hlength', hpayload⟩ := parse_written hparse
  refine ⟨hlength.trans_le hbacktests, hlength'.trans_le hexternal, ?_⟩
  intro payload hmem
  obtain ⟨apiSchema, rfl⟩ := hpayload payload hmem
  exact ⟨{ state with apiSchema }, rfl, hbacktests, hexternal⟩

/-- A restart leaves the rings bounded exactly where the log that it finds has room. -/
theorem Kept.restart_iff (h : w.Kept serde) (sizes : RingSizes) (now : F) :
    (serde.restore (.new sizes.logRingSize sizes.tradeRingSize) now w.file).1.RingsBounded ↔
      ∀ snapshot ∈ w.file.bind serde.parse, snapshot.1.activityLog.length ≤ max 1 sizes.logRingSize := by
  unfold SerdeText.restore
  cases hfound : w.file.bind serde.parse with
  | none =>
    dsimp only
    exact iff_of_true (ringsBounded_new sizes.logRingSize sizes.tradeRingSize) fun _ hmem => nomatch hmem
  | some snapshot =>
    obtain ⟨hbacktests, hexternal, -⟩ := h.found hfound
    obtain ⟨restored, repaired⟩ := snapshot
    dsimp only
    rw [adopt_ringsBounded_iff _ _ restored now hbacktests hexternal]
    exact ⟨fun hlength snapshot hmem => Option.some.inj hmem ▸ hlength, fun hall => hall _ rfl⟩

theorem Kept.restart_file (h : w.Kept serde) (sizes : RingSizes) (now : F) :
    ∀ bytes ∈ (serde.restore (.new sizes.logRingSize sizes.tradeRingSize) now w.file).2,
      ∃ state : TradingState F, bytes = serde.toStringPretty (tradingState.encode state) ∧
        state.backtestHistory.length ≤ 20 ∧ state.observedExternalLogFingerprints.length ≤ 500 := by
  unfold SerdeText.restore
  cases hfound : w.file.bind serde.parse with
  | none => nofun
  | some snapshot =>
    obtain ⟨-, -, hpayload⟩ := h.found hfound
    obtain ⟨restored, repaired⟩ := snapshot
    intro bytes hbytes
    obtain ⟨payload, hmem, rfl⟩ := Option.mem_map.mp hbytes
    exact hpayload payload hmem

variable [NumberText F]

theorem Kept.step (h : w.Kept serde) (action : RingAction F) (hfits : w.Fits serde action) :
    (w.step serde action).Kept serde := by
  cases action with
  | log now level category message context => exact ⟨log_ringsBounded h.rings .., h.file⟩
  | recordTrade trade => exact ⟨(recordTrade_ringsBounded_iff h.rings trade).mpr hfits, h.file⟩
  | importTradeHistory trades => exact ⟨importTradeHistory_ringsBounded h.rings trades, h.file⟩
  | recordBacktest summary => exact ⟨recordBacktest_ringsBounded h.rings summary, h.file⟩
  | rememberExternalLog fingerprint => exact ⟨rememberExternalLog_ringsBounded h.rings fingerprint, h.file⟩
  | elsewhere other =>
    exact ⟨⟨h.rings.activityLog, h.rings.recentTrades, h.rings.backtestHistory, h.rings.externalLogs⟩, h.file⟩
  | persist =>
    refine ⟨h.rings, fun bytes hbytes => ?_⟩
    exact ⟨w.state, (Option.some.inj hbytes).symm, h.rings.backtestHistory, h.rings.externalLogs⟩
  | loseFile => exact ⟨h.rings, nofun⟩
  | restart sizes now repairs =>
    refine ⟨(h.restart_iff sizes now).mpr hfits, fun bytes hbytes => ?_⟩
    cases repairs with
    | false => exact h.file bytes hbytes
    | true =>
      rcases Option.or_eq_some_iff.mp hbytes with hbytes | ⟨-, hbytes⟩
      · exact h.restart_file sizes now bytes hbytes
      · exact h.file bytes hbytes

/-- A step that does not fit leaves a ring above its bound. -/
theorem Kept.step_unbounded (h : w.Kept serde) (action : RingAction F) (hnot : ¬ w.Fits serde action) :
    ¬ (w.step serde action).state.RingsBounded := by
  cases action with
  | recordTrade trade => exact fun hafter => hnot ((recordTrade_ringsBounded_iff h.rings trade).mp hafter)
  | restart sizes now repairs => exact fun hafter => hnot ((h.restart_iff sizes now).mp hafter)
  | log => exact absurd trivial hnot
  | importTradeHistory => exact absurd trivial hnot
  | recordBacktest => exact absurd trivial hnot
  | rememberExternalLog => exact absurd trivial hnot
  | elsewhere => exact absurd trivial hnot
  | persist => exact absurd trivial hnot
  | loseFile => exact absurd trivial hnot

/-- The rings stay within their bounds over a run exactly if every trade finds room in its ring and no restart
finds a longer log than it has room for. -/
theorem rings_bounded_iff (serde : SerdeText F Bytes) (sizes : RingSizes) (actions : List (RingAction F)) :
    (∀ before, before <+: actions → (run (step serde) (start sizes) before).state.RingsBounded) ↔
      Along (step serde) (Fits serde) (start sizes) actions := by
  have hstart : (start sizes : RingWorld F Bytes).Kept serde := ⟨ringsBounded_new _ _, nofun⟩
  exact (along_iff_prefixes (step serde) (I := fun w => w.Kept serde) (P := fun w => w.state.RingsBounded)
    (fun w action h hfits => h.step action hfits) (fun w h => h.rings)
    (fun w action h hnot => h.step_unbounded action hnot) hstart).symm

section Sample

/-- Twelve entries are logged, and the process starts again with room for ten. -/
def shrunkRun : List (RingAction NumberOrNaN) :=
  List.replicate 12 (.log (.number 1) "info" "cycle" "Evaluated" .null) ++
    [.persist, .restart { logRingSize := 10, tradeRingSize := 10 } (.number 2) true]

/-- The log keeps its twelve entries, and every new one takes the place of the oldest. -/
theorem shrunk_log_stays_long :
    ¬ ∀ before, before <+: shrunkRun ++ [.log (.number 3) "info" "cycle" "Evaluated" .null] →
      (run (step StateWorld.plainText) (start { logRingSize := 1000, tradeRingSize := 10 })
        before).state.RingsBounded := by
  intro h
  exact absurd (h _ List.prefix_rfl).activityLog (by decide +kernel)

end Sample

end RingWorld
end Gail.Trading.Snapshot
