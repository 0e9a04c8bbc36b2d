import Gail.Datalake.MarketSample
import Gail.Library.FloatSum
import Gail.Library.Outcome
import Gail.Library.Saturating
import Gail.Library.TextLines
import Gail.Trading.OrderReplies
import Gail.Trading.ScalarOrder

/-! The history of a market as a price graph gives it: columns of candles with their opening times, of which each row
that can be used becomes one observation. What panics is none. -/
namespace Gail.Trading
open Gail.Library

/-- What doubles and exact numbers have in common when times are added to. -/
class Scalar.Times (F : Type) [Scalar F] : Prop extends Scalar.Comparable F where
  count_number : ∀ n : Nat, (Scalar.ofCount n : F) ≤ Scalar.ofCount n
  le_add : ∀ {a b : F}, 0.0 < a → 0.0 < b → a ≤ a + b

instance : Scalar.Times ℚ where
  count_number _ := le_rfl
  le_add := by
    intro a b _ hb
    norm_num at hb
    exact le_add_of_nonneg_right hb.le

instance : Scalar.Times Float where
  count_number := FloatOrder.number_ofNat
  le_add := FloatOrder.le_add

end Gail.Trading

namespace Gail.Trading.GraphHistory
open Gail.Library
open Gail.Datalake (MarketSnapshot)

section Times
variable {F : Type} [AmountScalar F]

/-- Milliseconds are known by their size. -/
def normaliseUnixTimestamp (value : F) : F := if 10000000000.0 < value then value / 1000.0 else value

/-- The conversion `as f64` of an integer. -/
def ofInt : Int → F
  | .ofNat value => Scalar.ofCount value
  | .negSucc value => -Scalar.ofCount (value + 1)

/-- `str::parse` of an unsigned integer. -/
def parseUnsigned (largest : Nat) (text : List Char) : Option Nat :=
  let digits :=
    match text with
    | '+' :: digits => digits
    | digits => digits
  (parseDigits digits).filter (· ≤ largest)

/-- `str::parse::<i64>`. -/
def parseSigned (text : List Char) : Option Int :=
  let (negative, digits) := splitSign text
  ((parseDigits digits).map fun value => if negative then -(value : Int) else value).filter fun value =>
    -2 ^ 63 ≤ value ∧ value < 2 ^ 63

def daysInMonth (year : Int) (month : Nat) : Nat :=
  match month with
  | 2 => if year.tmod 4 = 0 ∧ (year.tmod 100 ≠ 0 ∨ year.tmod 400 = 0) then 29 else 28
  | 4 | 6 | 9 | 11 => 30
  | 1 | 3 | 5 | 7 | 8 | 10 | 12 => 31
  | _ => 0

def unixTimestampFromYmdHms (year : Int) (month day hour minute second : Nat) : Option F :=
  if ¬(1970 ≤ year ∧ year ≤ 9999) ∨ day = 0 ∨ daysInMonth year month < day ∨ 23 < hour ∨ 59 < minute ∨ 59 < second then
    none
  else
    let y := year - if month ≤ 2 then 1 else 0
    let era := (if 0 ≤ y then y else y - 399).tdiv 400
    let yoe := y - era * 400
    let doy := (153 * ((month : Int) + if 2 < month then -3 else 9) + 2).tdiv 5 + day - 1
    let doe := yoe * 365 + yoe.tdiv 4 - yoe.tdiv 100 + doy
    let daysSinceEpoch := era * 146097 + doe - 719468
    let secondsOfDay : Int := hour * 3600 + minute * 60 + second
    some (ofInt (daysSinceEpoch * 86400 + secondsOfDay))

def parseDashboardTimeToTs (value : String) : Option F :=
  let trimmed := trim value
  if trimmed.isEmpty then none
  else
    match AmountScalar.parse trimmed with
    | some timestamp => some (normaliseUnixTimestamp timestamp)
    | none =>
      match trimmed.toList.splitOn ' ' with
      | [date, time] =>
        match date.splitOn '-', time.splitOn ':' with
        | [year, month, day], [hour, minute, second] => do
          let yearShort ← parseSigned year
          let year := if yearShort < 100 then 2000 + yearShort else yearShort
          unixTimestampFromYmdHms year (← parseUnsigned (2 ^ 32 - 1) month) (← parseUnsigned (2 ^ 32 - 1) day)
            (← parseUnsigned (2 ^ 32 - 1) hour) (← parseUnsigned (2 ^ 32 - 1) minute)
            (← parseUnsigned (2 ^ 32 - 1) second)
        | _, _ => none
      | _ => none

/-- The seconds of a number of minutes, hours, days or weeks. -/
def timeFrameToSeconds (timeFrame : String) : Option Nat :=
  let trimmed := (trim timeFrame).toList
  if byteLength trimmed < 2 then some 0
  else do
    let (value, unit) ← splitAtByte (byteLength trimmed - 1) trimmed
    match (parseUnsigned u64Max value).filter (0 < ·) with
    | none => some 0
    | some amount =>
      some <| match unit with
        | ['m'] => saturatingMul amount 60
        | ['h'] => saturatingMul amount 3600
        | ['d'] => saturatingMul amount 86400
        | ['w'] => saturatingMul amount (7 * 86400)
        | _ => 0

/-- The cut is inside the last character if that is of several bytes. -/
theorem timeFrameToSeconds_isSome_iff (timeFrame : String) :
    (timeFrameToSeconds timeFrame).isSome = true ↔
      ∀ c, (trim timeFrame).toList.getLast? = some c → c.utf8Size = 1 := by
  unfold timeFrameToSeconds
  dsimp only
  rcases List.eq_nil_or_concat (trim timeFrame).toList with hempty | ⟨text, last, htext⟩
  · rw [hempty]
    exact iff_of_true rfl fun c h => by cases h
  · rw [htext, List.concat_eq_append, List.getLast?_concat, splitAtByte_last, byteLength_concat]
    simp only [Option.some.injEq, forall_eq']
    have hpos := last.utf8Size_pos
    split_ifs with hshort hone
    · exact iff_of_true rfl (by omega)
    · refine iff_of_true ?_ hone
      rw [Option.bind_eq_bind, Option.bind_some]
      dsimp only
      split <;> rfl
    · exact iff_of_false Bool.false_ne_true hone

end Times

section Rows
variable {F : Type} [AmountScalar F]

/-- `Value::get`. -/
def member (body : Json F) (name : String) : Option (Json F) :=
  match body with
  | .object members => members.lookup name
  | _ => none

def asArray : Json F → Option (List (Json F))
  | .array items => some items
  | _ => none

def asStr : Json F → Option String
  | .string text => some text
  | _ => none

/-- A number that is finite, or the text of one. -/
def number (value : Json F) : Option F :=
  Option.filter (Scalar.isFinite ·) <|
    match value with
    | .number value => some value
    | .string text => AmountScalar.parse text
    | _ => none

/-- When a candle was opened. -/
def openedAt (time : Json F) : Option F :=
  (((number time).map normaliseUnixTimestamp).or ((asStr time).bind parseDashboardTimeToTs)).filter fun value =>
    Scalar.isFinite value && decide (0.0 < value)

/-- The columns of a payload. -/
structure Candles (F : Type) where
  closes : List (Json F)
  times : List (Json F)
  highs : Option (List (Json F))
  lows : Option (List (Json F))
  volumes : Option (List (Json F))

/-- The columns, unless the prices are simulated, there are no prices or times, or a column is longer or shorter. -/
def Candles.ofBody (body : Json F) : Option (Candles F) :=
  let candles := (member body "candles").getD .null
  if (member body "simulated").any fun | .bool value => value | _ => false then none
  else do
    let closes ← (member candles "close").bind asArray
    let times ← (member candles "time").bind asArray
    let highs := (member candles "high").bind asArray
    let lows := (member candles "low").bind asArray
    let volumes := ((member candles "volume").or (member candles "vol")).bind asArray
    if times.length ≠ closes.length ∨
        [highs, lows, volumes].any (·.any fun values => values.length != closes.length) then none
    else some { closes, times, highs, lows, volumes }

/-- The number in a row of a column that may be missing. -/
def numberAt (column : Option (List (Json F))) (row : Nat) : Option (Option F) :=
  match column with
  | none => some none
  | some values => values[row]?.map number

/-- The variables of the loop over the rows; no observation has been made at minus infinity. -/
structure HistoryLoop (F : Type) where
  snapshots : List (MarketSnapshot F)
  lastTimestamp : Option F

/-- One round of the loop. -/
def addRow (exchange symbol : String) (candles : Candles F) (step now : F) (loop : HistoryLoop F)
    (row : Json F × Nat) : Option (HistoryLoop F) :=
  match (number row.1).filter (0.0 < ·) with
  | none => some loop
  | some close => do
    match openedAt (← candles.times[row.2]?) with
    | none => some loop
    | some openedAt =>
      let fetchedAt := openedAt + step
      if now < fetchedAt ∨ loop.lastTimestamp.any (fetchedAt ≤ ·) then some loop
      else
        let high ← numberAt candles.highs row.2
        let low ← numberAt candles.lows row.2
        let volume ← numberAt candles.volumes row.2
        if (candles.highs.isSome && high.all (· < close)) ||
            (candles.lows.isSome && low.all fun value => value ≤ 0.0 || close < value) ||
            (candles.volumes.isSome && volume.all (· < 0.0)) then some loop
        else
          let earlier := loop.snapshots.reverse.find? (·.fetchedAt ≤ fetchedAt - 86400.0)
          some {
            snapshots := loop.snapshots ++ [{
              exchange
              symbol
              price := close
              priceChangePct24h := earlier.map fun snapshot => (close - snapshot.price) / snapshot.price * 100.0
              volume24h := volume
              high24h := high
              low24h := low
              fetchedAt }]
            lastTimestamp := some fetchedAt }

def parseGraphHistorySnapshots (exchange symbol timeFrame : String) (body : Json F) (now : F) :
    Option (List (MarketSnapshot F)) :=
  match Candles.ofBody body with
  | none => some []
  | some candles => do
    let step : F := Scalar.ofCount (← timeFrameToSeconds timeFrame)
    if step ≤ 0.0 ∨ timeFrame = "1M" ∨ timeFrame = "1y" then some []
    else
      let loop ← candles.closes.zipIdx.foldlM (addRow exchange symbol candles step now)
        { snapshots := [], lastTimestamp := none }
      some loop.snapshots

/-- The observation is that of one row, made when its candle was closed. -/
structure OfRow (candles : Candles F) (step now : F) (snapshot : MarketSnapshot F) (row : Nat) : Prop where
  price : candles.closes[row]?.bind number = some snapshot.price
  high : candles.highs.bind (·[row]?.bind number) = snapshot.high24h
  low : candles.lows.bind (·[row]?.bind number) = snapshot.low24h
  volume : candles.volumes.bind (·[row]?.bind number) = snapshot.volume24h
  stamped : (candles.times[row]?.bind openedAt).map (· + step) = some snapshot.fetchedAt
  past : snapshot.fetchedAt ≤ now

/-- A change over a day is the change since an observation of the history that is a day older at least. -/
def DayChange (history : List (MarketSnapshot F)) (snapshot : MarketSnapshot F) : Prop :=
  ∀ change, snapshot.priceChangePct24h = some change →
    ∃ earlier ∈ history, earlier.fetchedAt ≤ snapshot.fetchedAt - 86400.0 ∧
      change = (snapshot.price - earlier.price) / earlier.price * 100.0

/-- Observations of rows of the columns, each row at most once and in order. -/
structure FaithfulHistory (candles : Candles F) (step now : F) (snapshots : List (MarketSnapshot F)) : Prop where
  rows : ∃ rows : List Nat, rows.Pairwise (· < ·) ∧ List.Forall₂ (OfRow candles step now) snapshots rows
  increasing : snapshots.Pairwise fun earlier later => earlier.fetchedAt < later.fetchedAt
  dayChange : ∀ history snapshot, history ++ [snapshot] <+: snapshots → DayChange history snapshot

end Rows

section Running
variable {F : Type} [AmountScalar F] {candles : Candles F} {step now : F} {loop : HistoryLoop F} {row : Nat}

/-- The columns are of one length. -/
structure Candles.Aligned (candles : Candles F) : Prop where
  times : candles.times.length = candles.closes.length
  columns : ∀ column ∈ [candles.highs, candles.lows, candles.volumes], ∀ values, column = some values →
    values.length = candles.closes.length

omit [AmountScalar F] in
theorem Candles.aligned_of_ofBody {body : Json F} (h : Candles.ofBody body = some candles) : candles.Aligned := by
  unfold Candles.ofBody at h
  dsimp only at h
  split_ifs at h
  obtain ⟨closes, -, h⟩ := Option.bind_eq_some_iff.mp h
  obtain ⟨times, -, h⟩ := Option.bind_eq_some_iff.mp h
  split_ifs at h with hlengths
  obtain ⟨htimes, hcolumns⟩ := not_or.mp hlengths
  rw [← Option.some.inj h]
  refine ⟨not_not.mp htimes, ?_⟩
  rintro column hcolumn values rfl
  by_contra hlength
  refine hcolumns (List.any_eq_true.mpr ⟨some values, hcolumn, ?_⟩)
  rwa [Option.any_some, bne_iff_ne]

theorem numberAt_eq {column : Option (List (Json F))}
    (h : ∀ values, column = some values → row < values.length) :
    numberAt column row = some (column.bind (·[row]?.bind number)) := by
  cases column with
  | none => rfl
  | some values =>
    rw [numberAt, List.getElem?_eq_getElem (h values rfl), Option.bind_some, List.getElem?_eq_getElem (h values rfl)]
    rfl

/-- A row is left out, or becomes the last observation. -/
theorem addRow_cases [Scalar.Times F] (exchange symbol : String) (haligned : candles.Aligned) (hstep : 0.0 < step)
    (hnow : now ≤ now) {close : Json F} (hrow : candles.closes[row]? = some close) (loop : HistoryLoop F) :
    ∃ next, addRow exchange symbol candles step now loop (close, row) = some next ∧
      (next = loop ∨ ∃ snapshot, OfRow candles step now snapshot row ∧ DayChange loop.snapshots snapshot ∧
        (∀ last, loop.lastTimestamp = some last → ¬snapshot.fetchedAt ≤ last) ∧
        next = { snapshots := loop.snapshots ++ [snapshot], lastTimestamp := some snapshot.fetchedAt }) := by
  obtain ⟨hlength, -⟩ := List.getElem?_eq_some_iff.mp hrow
  obtain ⟨time, htime⟩ : ∃ time, candles.times[row]? = some time :=
    ⟨_, List.getElem?_eq_getElem (haligned.times.symm ▸ hlength)⟩
  have hcolumn {column : Option (List (Json F))} (h : column ∈ [candles.highs, candles.lows, candles.volumes]) :=
    numberAt_eq fun values hvalues => (haligned.columns column h values hvalues).symm ▸ hlength
  unfold addRow
  cases hclose : (number close).filter (0.0 < ·) with
  | none => exact ⟨loop, rfl, .inl rfl⟩
  | some price =>
    obtain ⟨hprice, -⟩ := Option.filter_eq_some_iff.mp hclose
    simp only [htime, Option.bind_eq_bind, Option.bind_some]
    cases hopened : openedAt time with
    | none => exact ⟨loop, rfl, .inl rfl⟩
    | some opened =>
      have hpositive : 0.0 < opened := by
        have hpasses := (Option.filter_eq_some_iff.mp hopened).2
        exact of_decide_eq_true (Bool.and_eq_true_iff.mp hpasses).2
      have hstamp : opened + step ≤ opened + step :=
        (Scalar.Comparable.numbers (Scalar.Times.le_add hpositive hstep)).2
      dsimp only
      by_cases hskipped : now < opened + step ∨ loop.lastTimestamp.any (opened + step ≤ ·) = true
      · exact ⟨loop, if_pos hskipped, .inl rfl⟩
      obtain ⟨hpast, hlast⟩ := not_or.mp hskipped
      rw [if_neg hskipped, hcolumn (by simp), hcolumn (by simp), hcolumn (by simp)]
      simp only [Option.bind_some]
      split_ifs
      · exact ⟨loop, rfl, .inl rfl⟩
      · refine ⟨_, rfl, .inr ⟨_, ⟨?_, rfl, rfl, rfl, ?_, ?_⟩, ?_, ?_, rfl⟩⟩
        · rw [hrow, Option.bind_some, hprice]
        · rw [htime, Option.bind_some, hopened, Option.map_some]
        · exact Scalar.le_of_not_lt hnow hstamp hpast
        · intro change hchange
          obtain ⟨earlier, hfound, rfl⟩ := Option.map_eq_some_iff.mp hchange
          have hold := List.find?_some hfound
          exact ⟨earlier, List.mem_reverse.mp (List.mem_of_find?_eq_some hfound), of_decide_eq_true hold, rfl⟩
        · intro last hloop hle
          rw [hloop, Option.any_some, decide_eq_true_eq] at hlast
          exact hlast hle

/-- The loop before a row. -/
structure HistoryLoop.Valid (candles : Candles F) (step now : F) (row : Nat) (loop : HistoryLoop F) : Prop where
  rows : ∃ rows : List Nat, rows.Pairwise (· < ·) ∧ (∀ earlier ∈ rows, earlier < row) ∧
    List.Forall₂ (OfRow candles step now) loop.snapshots rows
  increasing : loop.snapshots.Pairwise fun earlier later => earlier.fetchedAt < later.fetchedAt
  dayChange : ∀ history snapshot, history ++ [snapshot] <+: loop.snapshots → DayChange history snapshot
  last : ∀ snapshot ∈ loop.snapshots, ∃ last, loop.lastTimestamp = some last ∧ snapshot.fetchedAt ≤ last

theorem HistoryLoop.Valid.skip (h : loop.Valid candles step now row) : loop.Valid candles step now (row + 1) := by
  obtain ⟨rows, horder, hbelow, hrows⟩ := h.rows
  exact ⟨⟨rows, horder, fun earlier he => Nat.lt_succ_of_lt (hbelow earlier he), hrows⟩, h.increasing, h.dayChange,
    h.last⟩

theorem HistoryLoop.Valid.push [Scalar.Comparable F] (h : loop.Valid candles step now row)
    {snapshot : MarketSnapshot F} (hrow : OfRow candles step now snapshot row)
    (hchange : DayChange loop.snapshots snapshot)
    (hlast : ∀ last, loop.lastTimestamp = some last → ¬snapshot.fetchedAt ≤ last) :
    HistoryLoop.Valid candles step now (row + 1)
      { snapshots := loop.snapshots ++ [snapshot], lastTimestamp := some snapshot.fetchedAt } := by
  obtain ⟨rows, horder, hbelow, hrows⟩ := h.rows
  have hnumber := (Scalar.Comparable.numbers hrow.past).1
  have hlater : ∀ earlier ∈ loop.snapshots, earlier.fetchedAt < snapshot.fetchedAt := by
    intro earlier hearlier
    obtain ⟨last, hloop, hle⟩ := h.last earlier hearlier
    have hnot := hlast last hloop
    have hbefore := (Scalar.Comparable.total (Scalar.Comparable.numbers hle).2 hnumber).resolve_right hnot
    have hlt := Scalar.Comparable.lt_iff.mpr ⟨hbefore, hnot⟩
    refine Scalar.Comparable.lt_iff.mpr ⟨Scalar.Comparable.le_trans hle hbefore, fun hback => hnot ?_⟩
    exact Scalar.Comparable.le_trans hback hle
  refine ⟨⟨rows ++ [row], ?_, ?_, ?_⟩, ?_, ?_, ?_⟩
  · rw [List.pairwise_append]
    refine ⟨horder, List.pairwise_singleton _ _, ?_⟩
    intro earlier hearlier later hlater
    rw [List.mem_singleton.mp hlater]
    exact hbelow earlier hearlier
  · intro earlier hearlier
    rcases List.mem_append.mp hearlier with hearlier | hearlier
    · exact Nat.lt_succ_of_lt (hbelow earlier hearlier)
    · rw [List.mem_singleton.mp hearlier]
      exact Nat.lt_succ_self row
  · exact List.rel_append hrows (.cons hrow .nil)
  · rw [List.pairwise_append]
    refine ⟨h.increasing, List.pairwise_singleton _ _, ?_⟩
    intro earlier hearlier later hsnapshot
    rw [List.mem_singleton.mp hsnapshot]
    exact hlater earlier hearlier
  · intro history other hprefix
    rcases List.prefix_concat_iff.mp hprefix with he | hprefix
    · obtain ⟨rfl, hsame⟩ := List.append_inj' he rfl
      rw [List.singleton_inj.mp hsame]
      exact hchange
    · exact h.dayChange history other hprefix
  · intro other hother
    rcases List.mem_append.mp hother with hother | hother
    · exact ⟨_, rfl, (Scalar.Comparable.lt_iff.mp (hlater other hother)).1⟩
    · rw [List.mem_singleton.mp hother]
      exact ⟨_, rfl, hnumber⟩

/-- What is read of aligned columns is faithful to them. -/
theorem foldlM_addRow [Scalar.Times F] (haligned : candles.Aligned) (hstep : 0.0 < step) (hnow : now ≤ now)
    (exchange symbol : String) :
    ∃ loop, candles.closes.zipIdx.foldlM (addRow exchange symbol candles step now)
        { snapshots := [], lastTimestamp := none } = some loop ∧ FaithfulHistory candles step now loop.snapshots := by
  have hstart : HistoryLoop.Valid candles step now 0 { snapshots := [], lastTimestamp := none } := by
    refine ⟨⟨[], .nil, fun row h => (by cases h), .nil⟩, .nil, ?_, fun snapshot h => (by cases h)⟩
    intro history snapshot hprefix
    exact absurd (List.prefix_nil.mp hprefix) (by simp)
  obtain ⟨loop, hloop, hvalid⟩ := foldlM_zipIdx (HistoryLoop.Valid candles step now)
    (fun close row loop hrow hvalid => by
      obtain ⟨next, hnext, rfl | ⟨snapshot, hsnapshot, hchange, hlast, rfl⟩⟩ :=
        addRow_cases exchange symbol haligned hstep hnow hrow loop
      · exact ⟨next, hnext, hvalid.skip⟩
      · exact ⟨_, hnext, hvalid.push hsnapshot hchange hlast⟩) hstart
  obtain ⟨rows, horder, -, hrows⟩ := hvalid.rows
  exact ⟨loop, hloop, ⟨rows, horder, hrows⟩, hvalid.increasing, hvalid.dayChange⟩

end Running

section History
variable {F : Type} [AmountScalar F]

/-- No history that is not faithful to the payload, in frames of the length that the time frame says. -/
def HistoryFaithful (timeFrame : String) (body : Json F) (now : F) (snapshots : List (MarketSnapshot F)) : Prop :=
  snapshots = [] ∨ ∃ candles seconds, Candles.ofBody body = some candles ∧
    timeFrameToSeconds timeFrame = some seconds ∧ FaithfulHistory candles (Scalar.ofCount seconds) now snapshots

/-- The history is read, and faithful, exactly if the payload has no columns to read or the time frame does not end in
a character of several bytes. -/
theorem parseGraphHistorySnapshots_faithful_iff [Scalar.Times F] (exchange symbol timeFrame : String) (body : Json F)
    {now : F} (hnow : now ≤ now) :
    (∃ snapshots, parseGraphHistorySnapshots exchange symbol timeFrame body now = some snapshots ∧
        HistoryFaithful timeFrame body now snapshots) ↔
      Candles.ofBody body = none ∨ ∀ c, (trim timeFrame).toList.getLast? = some c → c.utf8Size = 1 := by
  rw [← timeFrameToSeconds_isSome_iff]
  unfold parseGraphHistorySnapshots HistoryFaithful
  cases hcandles : Candles.ofBody body with
  | none => exact iff_of_true ⟨[], rfl, .inl rfl⟩ (.inl rfl)
  | some candles =>
    cases hseconds : timeFrameToSeconds timeFrame with
    | none => simp
    | some seconds =>
      refine iff_of_true ?_ (.inr rfl)
      simp only [Option.bind_eq_bind, Option.bind_some]
      split_ifs with hunknown
      · exact ⟨[], rfl, .inl rfl⟩
      · have hzero := (Scalar.Comparable.numbers (Scalar.Comparable.zero_le_one (F := F))).1
        have hnot := fun hle => hunknown (.inl hle)
        have hstep := Scalar.Comparable.lt_iff.mpr
          ⟨(Scalar.Comparable.total hzero (Scalar.Times.count_number seconds)).resolve_right hnot, hnot⟩
        obtain ⟨loop, hloop, hfaithful⟩ :=
          foldlM_addRow (Candles.aligned_of_ofBody hcandles) hstep hnow exchange symbol
        rw [hloop]
        exact ⟨loop.snapshots, rfl, .inr ⟨candles, seconds, rfl, rfl, hfaithful⟩⟩

/-- One candle, of a price and a time. -/
def oneCandle : Json ℚ :=
  .object [("candles", .object [("close", .array [.number 100]), ("time", .array [.string "1700000000"])])]

theorem parseGraphHistorySnapshots_faithful_hour :
    ∃ snapshots, parseGraphHistorySnapshots "binance" "BTC/USDT" "1h" oneCandle 1800000000 = some snapshots ∧
      HistoryFaithful "1h" oneCandle 1800000000 snapshots :=
  (parseGraphHistorySnapshots_faithful_iff "binance" "BTC/USDT" "1h" oneCandle (le_refl 1800000000)).mpr <|
    .inr fun c h => by
      have hunit : (trim "1h").toList.getLast? = some 'h' := by decide
      rw [hunit] at h
      rw [← Option.some.inj h]
      rfl

/-- A time frame that is cut inside its last character panics. -/
theorem wide_unit_panics :
    ¬∃ snapshots, parseGraphHistorySnapshots "binance" "BTC/USDT" "1分" oneCandle 1800000000 = some snapshots ∧
      HistoryFaithful "1分" oneCandle 1800000000 snapshots := by
  have hcut : timeFrameToSeconds "1分" = none := by decide
  rintro ⟨snapshots, hparsed, -⟩
  have hpanics : parseGraphHistorySnapshots "binance" "BTC/USDT" "1分" oneCandle 1800000000 = none := by
    have hcandles : Candles.ofBody oneCandle = some
        { closes := [.number 100], times := [.string "1700000000"], highs := none, lows := none, volumes := none } := rfl
    rw [parseGraphHistorySnapshots, hcandles]
    dsimp only
    rw [hcut]
    rfl
  rw [hpanics] at hparsed
  cases hparsed

end History

end Gail.Trading.GraphHistory
