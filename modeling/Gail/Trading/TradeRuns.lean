import Gail.Library.BoundedQueue
import Gail.Library.Run
import Gail.Trading.TradeHistory
import Mathlib.Data.List.Perm.Basic

/-! Runs of the trades on record: trades are recorded and imported, and the ledger is written to a file that a later process
reads. The recent trades as a window on the trade history: imports and restores rebuild the window, and a trade that is
recorded is pushed into it whether or not the history takes it. -/
namespace Gail.Trading
open Gail.Library


section Definitions
variable {F : Type} [Scalar F]

/-- The numbers of the trade can be written as JSON. -/
def ExecutedTrade.finite (trade : ExecutedTrade F) : Bool :=
  Scalar.isFinite trade.ts && Scalar.isFinite trade.amountUsd && trade.price.all Scalar.isFinite

/-- A number that is not finite is written as `null`, which is read as no price and not as a number. -/
def ExecutedTrade.readBack (trade : ExecutedTrade F) : Option (ExecutedTrade F) :=
  if Scalar.isFinite trade.ts && Scalar.isFinite trade.amountUsd then
    some { trade with price := trade.price.filter Scalar.isFinite }
  else none

/-- A ledger as it is read from its own snapshot. -/
def TradeLedger.readBack (ledger : TradeLedger F) : Option (TradeLedger F) := do
  let recentTrades ← ledger.recentTrades.mapM ExecutedTrade.readBack
  let tradeHistory ← ledger.tradeHistory.mapM ExecutedTrade.readBack
  return { ledger with lastTradeAt := ledger.lastTradeAt.filter Scalar.isFinite, recentTrades, tradeHistory }

inductive TradeEvent (F : Type) where
  | record (trade : ExecutedTrade F)
  | importHistory (trades : List (ExecutedTrade F))
  | persist
  /-- A new process restores the state. `readable` says whether the rest of the file can be read. -/
  | restart (tradeRingSize : Nat) (readable : Bool)

/-- A ledger, with the trades whose identities were fresh when they were added to it. -/
structure KnownLedger (F : Type) where
  ledger : TradeLedger F
  added : List (ExecutedTrade F)

structure TradeWorld (F : Type) where
  memory : KnownLedger F
  file : Option (KnownLedger F)

variable [NumberText F]

def TradeLedger.identities (ledger : TradeLedger F) : List String := ledger.tradeHistory.map tradeIdentity

def TradeWorld.start (tradeRingSize : Nat) : TradeWorld F :=
  { memory := { ledger := .empty tradeRingSize, added := [] }, file := none }

def KnownLedger.record (known : KnownLedger F) (trade : ExecutedTrade F) : KnownLedger F :=
  { ledger := known.ledger.recordTrade trade
    added :=
      if tradeIdentity trade ∈ known.ledger.identities then known.added else known.added ++ [trade] }

def KnownLedger.importHistory (known : KnownLedger F) (trades : List (ExecutedTrade F)) : KnownLedger F :=
  { ledger := (known.ledger.importTradeHistory trades).1
    added := known.added ++ TradeLedger.unseenTrades known.ledger.identities trades }

/-- A snapshot that cannot be read leaves the process with nothing. -/
def KnownLedger.reopen (snapshot : KnownLedger F) (tradeRingSize : Nat) (readable : Bool) :
    KnownLedger F :=
  { snapshot with
    ledger :=
      match snapshot.ledger.readBack, readable with
      | some restored, true => restored.restore tradeRingSize
      | _, _ => .empty tradeRingSize }

def TradeWorld.step (w : TradeWorld F) : TradeEvent F → TradeWorld F
  | .record trade => { w with memory := w.memory.record trade }
  | .importHistory trades => { w with memory := w.memory.importHistory trades }
  | .persist => { w with file := some w.memory }
  | .restart tradeRingSize readable =>
    { w with
      memory :=
        match w.file with
        | none => { ledger := .empty tradeRingSize, added := [] }
        | some snapshot => snapshot.reopen tradeRingSize readable }

/-- What is restored can be read and has only finite numbers. -/
def TradeWorld.Readable (w : TradeWorld F) : TradeEvent F → Prop
  | .restart _ readable => ∀ snapshot ∈ w.file, readable = true ∧
      (∀ trade ∈ snapshot.ledger.tradeHistory, trade.finite = true) ∧
        ∀ trade ∈ snapshot.ledger.recentTrades, trade.finite = true
  | _ => True

/-- The trade, or Gail's own record of what was imported. -/
def ExecutedTrade.Stands (trade entry : ExecutedTrade F) : Prop :=
  tradeIdentity entry = tradeIdentity trade ∧
    (entry = trade ∨ trade.source = .octobotImported ∧ entry.source = .gail)

/-- The history has one entry for each identity and still has everything that was added to it, and what it
has changes nothing when it is imported again. -/
structure KnownLedger.Sound (known : KnownLedger F) : Prop where
  distinct : known.ledger.identities.Nodup
  present : ∀ trade ∈ known.added, ∃ entry ∈ known.ledger.tradeHistory, trade.Stands entry
  repeated : ∀ trades, (∀ trade ∈ trades, tradeIdentity trade ∈ known.ledger.identities) →
    known.ledger.importTradeHistory trades = (known.ledger, 0)

end Definitions

section ReadBack
variable {F : Type} [Scalar F]

theorem readBack_of_finite {trade : ExecutedTrade F} (h : trade.finite = true) :
    trade.readBack = some trade := by
  rw [ExecutedTrade.finite, Bool.and_eq_true] at h
  have hprice : trade.price.filter Scalar.isFinite = trade.price := by
    cases hp : trade.price with
    | none => rfl
    | some price =>
      have hf := h.2
      rw [hp, Option.all_some] at hf
      rw [Option.filter_some, if_pos hf]
  rw [ExecutedTrade.readBack, if_pos h.1, hprice]

theorem mapM_readBack {trades : List (ExecutedTrade F)} (h : ∀ trade ∈ trades, trade.finite = true) :
    trades.mapM ExecutedTrade.readBack = some trades := by
  induction trades with
  | nil => rfl
  | cons trade trades ih =>
    obtain ⟨htrade, hrest⟩ := List.forall_mem_cons.mp h
    rw [List.mapM_cons, readBack_of_finite htrade, ih hrest]
    rfl

end ReadBack

section Import
variable {F : Type} [Scalar F] [NumberText F] {ledger : TradeLedger F} {trade : ExecutedTrade F}
  {trades : List (ExecutedTrade F)} {seen : List String}

theorem unseenTrades_eq_nil (h : ∀ trade ∈ trades, tradeIdentity trade ∈ seen) :
    TradeLedger.unseenTrades seen trades = [] := by
  induction trades with
  | nil => rfl
  | cons trade trades ih =>
    obtain ⟨htrade, hrest⟩ := List.forall_mem_cons.mp h
    rw [TradeLedger.unseenTrades, if_pos htrade]
    exact ih hrest

theorem importTradeHistory_repeated (h : ∀ trade ∈ trades, tradeIdentity trade ∈ ledger.identities) :
    ledger.importTradeHistory trades = (ledger, 0) := by
  unfold TradeLedger.importTradeHistory
  rw [show ledger.tradeHistory.map tradeIdentity = ledger.identities from rfl, unseenTrades_eq_nil h]
  rfl

/-- What is new to the history is new once. -/
theorem unseenTrades_nodup (seen : List String) (trades : List (ExecutedTrade F)) :
    ((TradeLedger.unseenTrades seen trades).map tradeIdentity).Nodup ∧
    ∀ trade ∈ TradeLedger.unseenTrades seen trades, tradeIdentity trade ∉ seen := by
  induction trades generalizing seen with
  | nil => exact ⟨List.nodup_nil, fun trade h => by cases h⟩
  | cons trade trades ih =>
    rw [TradeLedger.unseenTrades]
    split_ifs with hs
    · exact ih seen
    · obtain ⟨hnodup, hnew⟩ := ih (tradeIdentity trade :: seen)
      refine ⟨?_, ?_⟩
      · rw [List.map_cons, List.nodup_cons]
        refine ⟨fun hm => ?_, hnodup⟩
        obtain ⟨other, ho, he⟩ := List.mem_map.mp hm
        exact hnew other ho (he ▸ List.mem_cons_self)
      · intro other ho
        rcases List.mem_cons.mp ho with rfl | ho
        · exact hs
        · exact fun hm => hnew other ho (List.mem_cons_of_mem _ hm)

omit [Scalar F] [NumberText F] in
theorem mem_rebuildRecentTrades (h : trade ∈ ledger.rebuildRecentTrades.recentTrades) :
    trade ∈ ledger.tradeHistory :=
  List.mem_reverse.mp (List.mem_of_mem_take (List.mem_reverse.mp h))

/-- An import adds what is new, in some order. -/
theorem importTradeHistory_perm (ledger : TradeLedger F) (trades : List (ExecutedTrade F)) :
    (ledger.importTradeHistory trades).1.tradeHistory.Perm (ledger.tradeHistory ++ TradeLedger.unseenTrades ledger.identities trades) := by
  unfold TradeLedger.importTradeHistory
  rw [show ledger.tradeHistory.map tradeIdentity = ledger.identities from rfl]
  cases hu : TradeLedger.unseenTrades ledger.identities trades with
  | nil => simp
  | cons trade rest => exact List.mergeSort_perm _ _

end Import

section Record
variable {F : Type} [Scalar F] [NumberText F] {ledger : TradeLedger F} {trade : ExecutedTrade F}
  {known : KnownLedger F}

/-- A trade joins the history, or leaves it as it is, or takes the place of an imported one. -/
theorem recordTrade_cases (ledger : TradeLedger F) (trade : ExecutedTrade F) :
    (tradeIdentity trade ∉ ledger.identities ∧
      (ledger.recordTrade trade).tradeHistory = ledger.tradeHistory ++ [trade]) ∨
    ∃ before old after, ledger.tradeHistory = before ++ old :: after ∧
      tradeIdentity old = tradeIdentity trade ∧
      ((ledger.recordTrade trade).tradeHistory = ledger.tradeHistory ∨
        old.source = .octobotImported ∧ trade.source = .gail ∧
          (ledger.recordTrade trade).tradeHistory = before ++ trade :: after) := by
  have hhistory : (ledger.recordTrade trade).tradeHistory =
      (ledger.appendTradeHistory trade).tradeHistory := by
    unfold TradeLedger.recordTrade TradeLedger.appendTradeHistory TradeLedger.appendRecentTrade
    simp only
    split
    · split_ifs <;> rfl
    · rfl
  rw [hhistory, TradeLedger.appendTradeHistory]
  cases hf : ledger.tradeHistory.findIdx? fun existing =>
      tradeIdentity existing == tradeIdentity trade with
  | none =>
    left
    refine ⟨fun hm => ?_, rfl⟩
    obtain ⟨other, ho, he⟩ := List.mem_map.mp hm
    have hne := List.findIdx?_eq_none_iff.mp hf other ho
    simp [he] at hne
  | some index =>
    right
    obtain ⟨hlt, hsame, -⟩ := List.findIdx?_eq_some_iff_getElem.mp hf
    refine ⟨ledger.tradeHistory.take index, ledger.tradeHistory[index],
      ledger.tradeHistory.drop (index + 1), ?_, eq_of_beq hsame, ?_⟩
    · rw [← List.drop_eq_getElem_cons hlt, List.take_append_drop]
    · simp only [List.getElem?_eq_getElem hlt, Option.any_some, Bool.and_eq_true, decide_eq_true_eq]
      split_ifs with hi
      · exact .inr ⟨hi.1, hi.2, List.set_eq_take_append_cons_drop.trans (if_pos hlt)⟩
      · exact .inl rfl

theorem recordTrade_identities : (ledger.recordTrade trade).identities =
    if tradeIdentity trade ∈ ledger.identities then ledger.identities
    else ledger.identities ++ [tradeIdentity trade] := by
  rcases recordTrade_cases ledger trade with
    ⟨hnew, hh⟩ | ⟨before, old, after, hsplit, hsame, hh⟩
  · rw [if_neg hnew, TradeLedger.identities, hh, List.map_append]
    rfl
  · have hold : tradeIdentity trade ∈ ledger.identities := by
      rw [TradeLedger.identities, hsplit, ← hsame]
      simp
    rw [if_pos hold]
    rcases hh with hh | ⟨-, -, hh⟩
    · rw [TradeLedger.identities, hh]
      rfl
    · rw [TradeLedger.identities, TradeLedger.identities, hh, hsplit]
      simp [hsame]

/-- The recent trades after one more: the trade, and earlier ones. -/
theorem mem_recordTrade_recentTrades {other : ExecutedTrade F}
    (h : other ∈ (ledger.recordTrade trade).recentTrades) : other ∈ ledger.recentTrades ∨ other = trade := by
  have hrecent : (ledger.recordTrade trade).recentTrades =
      (if ledger.tradeRingSize ≤ ledger.recentTrades.length then ledger.recentTrades.tail
        else ledger.recentTrades) ++ [trade] := by
    unfold TradeLedger.recordTrade TradeLedger.appendTradeHistory TradeLedger.appendRecentTrade
    simp only
    split
    · split_ifs <;> rfl
    · rfl
  rw [hrecent] at h
  rcases List.mem_append.mp h with h | h
  · left
    split_ifs at h
    · exact List.mem_of_mem_tail h
    · exact h
  · exact .inr (List.mem_singleton.mp h)

end Record

section Invariant
variable {F : Type} [Scalar F] [NumberText F] {known : KnownLedger F} {trade : ExecutedTrade F}
  {trades : List (ExecutedTrade F)}

structure KnownLedger.Kept (known : KnownLedger F) : Prop where
  distinct : known.ledger.identities.Nodup
  present : ∀ trade ∈ known.added, ∃ entry ∈ known.ledger.tradeHistory, trade.Stands entry
  recent : ∀ trade ∈ known.ledger.recentTrades, tradeIdentity trade ∈ known.ledger.identities

theorem KnownLedger.Kept.sound (h : known.Kept) : known.Sound :=
  ⟨h.distinct, h.present, fun _ => importTradeHistory_repeated⟩

theorem kept_empty (tradeRingSize : Nat) :
    ({ ledger := .empty tradeRingSize, added := [] } : KnownLedger F).Kept where
  distinct := List.nodup_nil
  present trade h := by cases h
  recent trade h := by cases h

/-- What stood in the history stands in it after a trade is recorded. -/
theorem recordTrade_stands {ledger : TradeLedger F} {entry other : ExecutedTrade F}
    (he : entry ∈ ledger.tradeHistory) (h : other.Stands entry) :
    ∃ entry ∈ (ledger.recordTrade trade).tradeHistory, other.Stands entry := by
  rcases recordTrade_cases ledger trade with
    ⟨-, hh⟩ | ⟨before, old, after, hsplit, hsame, hh | ⟨himported, hgail, hh⟩⟩
  · exact ⟨entry, hh ▸ List.mem_append_left _ he, h⟩
  · exact ⟨entry, hh ▸ he, h⟩
  · rw [hsplit] at he
    rcases List.mem_append.mp he with he | he
    · exact ⟨entry, hh ▸ List.mem_append_left _ he, h⟩
    rcases List.mem_cons.mp he with rfl | he
    · refine ⟨trade, by rw [hh]; simp, hsame.symm.trans h.1, .inr ⟨?_, hgail⟩⟩
      rcases h.2 with rfl | ⟨-, hsource⟩
      · exact himported
      · rw [himported] at hsource
        cases hsource
    · exact ⟨entry, by rw [hh]; simp [he], h⟩

theorem KnownLedger.Kept.record (h : known.Kept) (trade : ExecutedTrade F) : (known.record trade).Kept where
  distinct := by
    change (known.ledger.recordTrade trade).identities.Nodup
    rw [recordTrade_identities]
    split_ifs with hm
    · exact h.distinct
    · exact List.nodup_append'.mpr ⟨h.distinct, List.nodup_singleton _, by simpa using hm⟩
  present := by
    intro other ho
    have hold : ∀ other ∈ known.added, ∃ entry ∈ (known.ledger.recordTrade trade).tradeHistory,
        other.Stands entry := fun other ho => by
      obtain ⟨entry, he, hs⟩ := h.present other ho
      exact recordTrade_stands he hs
    by_cases hm : tradeIdentity trade ∈ known.ledger.identities
    · rw [KnownLedger.record, if_pos hm] at ho
      exact hold other ho
    · rw [KnownLedger.record, if_neg hm] at ho
      rcases List.mem_append.mp ho with ho | ho
      · exact hold other ho
      · obtain rfl := List.mem_singleton.mp ho
        rcases recordTrade_cases known.ledger other with
          ⟨-, hh⟩ | ⟨before, old, after, hsplit, hsame, -⟩
        · refine ⟨other, ?_, rfl, .inl rfl⟩
          change other ∈ (known.ledger.recordTrade other).tradeHistory
          rw [hh]
          simp
        · refine absurd ?_ hm
          rw [TradeLedger.identities, hsplit, ← hsame]
          simp
  recent := by
    intro other ho
    change tradeIdentity other ∈ (known.ledger.recordTrade trade).identities
    rw [recordTrade_identities]
    rcases mem_recordTrade_recentTrades ho with ho | rfl
    · have hm := h.recent other ho
      split_ifs
      · exact hm
      · exact List.mem_append_left _ hm
    · split_ifs with hm
      · exact hm
      · simp

theorem KnownLedger.Kept.importHistory (h : known.Kept) (trades : List (ExecutedTrade F)) :
    (known.importHistory trades).Kept := by
  have hperm := importTradeHistory_perm known.ledger trades
  obtain ⟨hnodup, hnew⟩ := unseenTrades_nodup known.ledger.identities trades
  have hmem : ∀ trade ∈ known.ledger.tradeHistory, trade ∈ (known.importHistory trades).ledger.tradeHistory :=
    fun trade ht => hperm.mem_iff.mpr (List.mem_append_left _ ht)
  refine ⟨?_, ?_, ?_⟩
  · apply (hperm.map tradeIdentity).nodup_iff.mpr
    rw [List.map_append]
    refine List.nodup_append'.mpr ⟨h.distinct, hnodup, fun identity ho hn => ?_⟩
    obtain ⟨trade, ht, rfl⟩ := List.mem_map.mp hn
    exact hnew trade ht ho
  · intro trade ht
    rcases List.mem_append.mp ht with ht | ht
    · obtain ⟨entry, he, hs⟩ := h.present trade ht
      exact ⟨entry, hmem entry he, hs⟩
    · exact ⟨trade, hperm.mem_iff.mpr (List.mem_append_right _ ht), rfl, .inl rfl⟩
  · intro trade ht
    change trade ∈ (known.ledger.importTradeHistory trades).1.recentTrades at ht
    unfold TradeLedger.importTradeHistory at ht
    simp only at ht
    split_ifs at ht with hu
    · obtain ⟨entry, he, hs⟩ := List.mem_map.mp (h.recent trade ht)
      exact List.mem_map.mpr ⟨entry, hmem entry he, hs⟩
    · refine List.mem_map_of_mem (f := tradeIdentity) (hperm.mem_iff.mpr ?_)
      exact (List.mergeSort_perm _ _).mem_iff.mp (mem_rebuildRecentTrades ht)

/-- A ledger of finite numbers is restored with its whole history. -/
theorem KnownLedger.Kept.reopen (h : known.Kept) (tradeRingSize : Nat)
    (hhistory : ∀ trade ∈ known.ledger.tradeHistory, trade.finite = true)
    (hrecent : ∀ trade ∈ known.ledger.recentTrades, trade.finite = true) :
    (known.reopen tradeRingSize true).Kept := by
  have hread : known.ledger.readBack = some
      { known.ledger with lastTradeAt := known.ledger.lastTradeAt.filter Scalar.isFinite } := by
    rw [TradeLedger.readBack, mapM_readBack hhistory, mapM_readBack hrecent]
    rfl
  have hledger : (known.reopen tradeRingSize true).ledger = TradeLedger.restore
      { known.ledger with lastTradeAt := known.ledger.lastTradeAt.filter Scalar.isFinite }
      tradeRingSize := by
    unfold KnownLedger.reopen
    rw [hread]
  have hsame : (known.reopen tradeRingSize true).ledger.tradeHistory = known.ledger.tradeHistory := by
    rw [hledger]
    change (if known.ledger.tradeHistory.isEmpty then known.ledger.recentTrades
      else known.ledger.tradeHistory) = known.ledger.tradeHistory
    split_ifs with hempty
    · rw [List.isEmpty_iff] at hempty
      rw [hempty]
      cases hr : known.ledger.recentTrades with
      | nil => rfl
      | cons trade rest =>
        have hm := h.recent trade (hr ▸ List.mem_cons_self)
        rw [TradeLedger.identities, hempty] at hm
        cases hm
    · rfl
  refine ⟨?_, ?_, ?_⟩
  · rw [TradeLedger.identities, hsame]
    exact h.distinct
  · rw [hsame]
    exact h.present
  · intro trade ht
    refine List.mem_map_of_mem (f := tradeIdentity) ?_
    rw [hledger] at ht ⊢
    exact mem_rebuildRecentTrades ht

/-- Both the memory and the file of a world are kept. -/
def TradeWorld.Kept (w : TradeWorld F) : Prop := w.memory.Kept ∧ ∀ snapshot ∈ w.file, snapshot.Kept

theorem TradeWorld.Kept.step {w : TradeWorld F} {event : TradeEvent F} (h : w.Kept)
    (hr : w.Readable event) : (w.step event).Kept := by
  cases event with
  | record trade => exact ⟨h.1.record trade, h.2⟩
  | importHistory trades => exact ⟨h.1.importHistory trades, h.2⟩
  | persist =>
    refine ⟨h.1, fun snapshot hs => ?_⟩
    cases hs
    exact h.1
  | restart tradeRingSize readable =>
    refine ⟨?_, h.2⟩
    change KnownLedger.Kept (match w.file with
      | none => { ledger := .empty tradeRingSize, added := [] }
      | some snapshot => snapshot.reopen tradeRingSize readable)
    cases hf : w.file with
    | none => exact kept_empty tradeRingSize
    | some snapshot =>
      obtain ⟨rfl, hhistory, hrecent⟩ := hr snapshot hf
      exact (h.2 snapshot hf).reopen tradeRingSize hhistory hrecent

/-- Over every run that restores only finite numbers the history has one entry for each identity, and
all that was added to it. -/
theorem trade_history_sound (tradeRingSize : Nat) (events : List (TradeEvent F))
    (h : Along TradeWorld.step TradeWorld.Readable (.start tradeRingSize) events) :
    ∀ before, before <+: events →
      (run TradeWorld.step (.start tradeRingSize) before).memory.Sound := by
  rintro before ⟨after, rfl⟩
  have hstart : (TradeWorld.start tradeRingSize : TradeWorld F).Kept :=
    ⟨kept_empty tradeRingSize, fun snapshot hs => by cases hs⟩
  have hkept := run_invariant TradeWorld.step (fun _ _ hk hg => TradeWorld.Kept.step hk hg) hstart
    ((along_append _).mp h).1
  exact hkept.1.sound

end Invariant

/-- Exact numbers, and the one that is none. -/
inductive NumberOrNaN where
  | number (value : ℚ)
  | nan
  deriving DecidableEq

namespace NumberOrNaN

def map (f : ℚ → ℚ) : NumberOrNaN → NumberOrNaN
  | number x => number (f x)
  | nan => nan

def map₂ (f : ℚ → ℚ → ℚ) : NumberOrNaN → NumberOrNaN → NumberOrNaN
  | number x, number y => number (f x y)
  | _, _ => nan

/-- No comparison with what is no number holds. -/
def compares (r : ℚ → ℚ → Bool) : NumberOrNaN → NumberOrNaN → Bool
  | number x, number y => r x y
  | _, _ => false

instance : Scalar NumberOrNaN where
  add := map₂ (· + ·)
  sub := map₂ (· - ·)
  mul := map₂ (· * ·)
  div := map₂ (· / ·)
  neg := map (- ·)
  lt x y := compares (· < ·) x y = true
  le x y := compares (· ≤ ·) x y = true
  ofScientific mantissa negative exponent := number (OfScientific.ofScientific mantissa negative exponent)
  ltDecidable x y := inferInstanceAs (Decidable (compares (· < ·) x y = true))
  leDecidable x y := inferInstanceAs (Decidable (compares (· ≤ ·) x y = true))
  ofCount n := number n
  abs := map Scalar.abs
  sqrt := map Scalar.sqrt
  signum := map Scalar.signum
  max x y :=
    match x, y with
    | nan, y => y
    | x, nan => x
    | number x, number y => number (Scalar.max x y)
  isFinite x := decide (x ≠ nan)
  epsilon := number (1 / 2 ^ 52)

instance : NumberText NumberOrNaN where
  fixed digits
    | number value => NumberText.fixed digits value
    | nan => "NaN"

end NumberOrNaN

section Sample

def ExecutedTrade.sample (orderId : Option String) (price : Option NumberOrNaN)
    (source : TradeRecordSource) : ExecutedTrade NumberOrNaN :=
  { ts := .number 1000
    exchange := "binance"
    symbol := "BTC/USDT"
    action := .buy
    amountUsd := .number 10
    price
    orderId
    source }

theorem trade_history_sound_imported :
    (run TradeWorld.step (.start 50) [.importHistory [.sample (some "7") none .octobotImported],
      .record (.sample (some "7") (some (.number 50000)) .gail), .persist,
      .restart 50 true]).memory.Sound :=
  trade_history_sound 50 _ (by
    refine ⟨trivial, trivial, trivial, fun snapshot hs => ?_, trivial⟩
    cases hs
    exact ⟨rfl, by decide +kernel, by decide +kernel⟩) _ List.prefix_rfl

/-- A price that is no number is read as none, and the trade gets another identity. -/
theorem trade_identity_lost :
    let w := run TradeWorld.step (.start 50) [.record (.sample (some "") (some .nan) .gail),
      .record (.sample (some "") none .gail), .persist, .restart 50 true]
    ¬ w.memory.Sound ∧ ¬ w.memory.ledger.identities.Nodup := by
  intro w
  have hrepeated : ¬ w.memory.ledger.identities.Nodup := by
    decide +kernel
  exact ⟨fun h => hrepeated h.distinct, hrepeated⟩

end Sample


section Window
variable {F : Type}

/-- The recent trades are the last ones of the history, as many as the ring holds. -/
def TradeLedger.InStep (ledger : TradeLedger F) : Prop :=
  ledger.recentTrades = ledger.tradeHistory.rtake ledger.tradeRingSize

variable {ledger : TradeLedger F}

theorem inStep_empty (tradeRingSize : Nat) : (TradeLedger.empty tradeRingSize : TradeLedger F).InStep :=
  (List.rtake_nil _).symm

theorem rebuildRecentTrades_inStep (ledger : TradeLedger F) : ledger.rebuildRecentTrades.InStep :=
  (List.rtake_eq_reverse_take_reverse _ _).symm

variable [Scalar F] [NumberText F] {trade : ExecutedTrade F}

theorem importTradeHistory_inStep (h : ledger.InStep) (trades : List (ExecutedTrade F)) :
    (ledger.importTradeHistory trades).1.InStep := by
  unfold TradeLedger.importTradeHistory
  dsimp only
  split
  · exact h
  · exact rebuildRecentTrades_inStep _

theorem appendTradeHistory_fields (ledger : TradeLedger F) (trade : ExecutedTrade F) :
    (ledger.appendTradeHistory trade).recentTrades = ledger.recentTrades ∧
      (ledger.appendTradeHistory trade).tradeRingSize = ledger.tradeRingSize := by
  unfold TradeLedger.appendTradeHistory
  split
  · dsimp only
    split <;> exact ⟨rfl, rfl⟩
  · exact ⟨rfl, rfl⟩

theorem recordTrade_pushes (ledger : TradeLedger F) (trade : ExecutedTrade F) :
    (ledger.recordTrade trade).recentTrades = pushRing ledger.tradeRingSize ledger.recentTrades trade ∧
      (ledger.recordTrade trade).tradeRingSize = ledger.tradeRingSize := by
  obtain ⟨hrecent, hsize⟩ := appendTradeHistory_fields
    { ledger with lastTradeAt := some trade.ts, tradeCount := ledger.tradeCount + 1 } trade
  refine ⟨?_, hsize⟩
  unfold TradeLedger.recordTrade TradeLedger.appendRecentTrade
  dsimp only at hrecent hsize ⊢
  rw [hrecent, hsize]
  rfl

/-- A trade that is new to the history moves the window on by one. -/
theorem recordTrade_inStep (h : ledger.InStep) (hring : 0 < ledger.tradeRingSize)
    (hnew : tradeIdentity trade ∉ ledger.identities) : (ledger.recordTrade trade).InStep := by
  obtain ⟨hrecent, hsize⟩ := recordTrade_pushes ledger trade
  have hhistory : (ledger.recordTrade trade).tradeHistory = ledger.tradeHistory ++ [trade] := by
    rcases recordTrade_cases ledger trade with ⟨-, hhistory⟩ | ⟨before, old, after, hsplit, hsame, -⟩
    · exact hhistory
    · refine absurd ?_ hnew
      rw [TradeLedger.identities, hsplit, ← hsame]
      exact List.mem_map_of_mem (List.mem_append_right _ List.mem_cons_self)
  unfold TradeLedger.InStep
  rw [hrecent, hsize, hhistory, h]
  exact pushRing_rtake hring ledger.tradeHistory trade

/-- The window loses step with a trade that the history has already, where no two entries of the history are
alike and the ring is that of a normalised configuration. -/
theorem recordTrade_out_of_step (h : ledger.InStep) (hring : 2 ≤ ledger.tradeRingSize)
    (hdistinct : ledger.identities.Nodup) (hknown : tradeIdentity trade ∈ ledger.identities) :
    ¬ (ledger.recordTrade trade).InStep := by
  obtain ⟨hrecent, hsize⟩ := recordTrade_pushes ledger trade
  have hidentities : (ledger.recordTrade trade).identities = ledger.identities := by
    rw [recordTrade_identities, if_pos hknown]
  intro hafter
  unfold TradeLedger.InStep at h hafter
  rw [hrecent, hsize, h] at hafter
  -- Both windows show the same identities, but the pushed one is a place further on.
  have hwindow := congrArg (List.map tradeIdentity) hafter
  rw [map_pushRing, map_rtake, map_rtake,
    show (ledger.recordTrade trade).tradeHistory.map tradeIdentity = ledger.identities from hidentities] at hwindow
  exact pushRing_rtake_ne hring hdistinct (tradeIdentity trade) hwindow

end Window

section Runs
variable {F : Type} [Scalar F] [NumberText F] {w : TradeWorld F}

/-- What is recorded is new to the history, and the ring holds something. -/
def TradeWorld.RecordsNew (w : TradeWorld F) : TradeEvent F → Prop
  | .record trade => 0 < w.memory.ledger.tradeRingSize ∧ tradeIdentity trade ∉ w.memory.ledger.identities
  | _ => True

theorem TradeWorld.step_inStep {event : TradeEvent F} (h : w.memory.ledger.InStep) (hnew : w.RecordsNew event) :
    (w.step event).memory.ledger.InStep := by
  cases event with
  | record trade => exact recordTrade_inStep h hnew.1 hnew.2
  | importHistory trades => exact importTradeHistory_inStep h trades
  | persist => exact h
  | restart tradeRingSize readable =>
    unfold TradeWorld.step
    dsimp only
    cases w.file with
    | none => exact inStep_empty tradeRingSize
    | some snapshot =>
      unfold KnownLedger.reopen
      dsimp only
      split
      · exact rebuildRecentTrades_inStep _
      · exact inStep_empty tradeRingSize

/-- Where only new trades are recorded, the recent trades are in step with the history at every moment. -/
theorem recent_trades_in_step (tradeRingSize : Nat) (events : List (TradeEvent F))
    (h : Along TradeWorld.step TradeWorld.RecordsNew (.start tradeRingSize) events) :
    ∀ before, before <+: events →
      (run TradeWorld.step (.start tradeRingSize) before).memory.ledger.InStep := by
  rintro before ⟨after, rfl⟩
  have hstart : (TradeWorld.start tradeRingSize : TradeWorld F).memory.ledger.InStep :=
    inStep_empty tradeRingSize
  exact run_invariant TradeWorld.step (I := fun w => w.memory.ledger.InStep) (fun _ _ hstep hnew => TradeWorld.step_inStep hstep hnew) hstart
    ((along_append _).mp h).1

theorem recent_trades_in_step_imported :
    (run TradeWorld.step (.start 200) [TradeEvent.importHistory [.sample (some "7") none .octobotImported],
      .record (.sample (some "8") (some (.number 50000)) .gail), .persist, .restart 10 true]).memory.ledger.InStep :=
  recent_trades_in_step 200
    [.importHistory [.sample (some "7") none .octobotImported],
      .record (.sample (some "8") (some (.number 50000)) .gail), .persist, .restart 10 true]
    ⟨trivial, ⟨by decide +kernel, by decide +kernel⟩, trivial, trivial, trivial⟩ _ List.prefix_rfl

/-- A fill that was imported before Gail records it takes one place in the history and two in the ring. -/
theorem imported_fill_twice_recent :
    ¬ (run TradeWorld.step (.start 200)
        [TradeEvent.importHistory [.sample (some "7") (some (.number 50000)) .octobotImported],
          .record (.sample (some "7") (some (.number 50000)) .gail)]).memory.ledger.InStep := by
  intro h
  exact absurd (congrArg List.length h) (by decide +kernel)

end Runs

end Gail.Trading
