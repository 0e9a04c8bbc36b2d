import Gail.Library.Calendar
import Gail.Library.TextBytes
import Mathlib.Data.Bool.AllAny

/-! The timestamps of requests: the parser of ISO 8601, against the form that it is for. -/
namespace Gail.Alexa.Timestamps
open Gail.Library Gail.Library.Calendar

section Parser

/-- The number between two bytes, where all of them are digits. -/
def num (text : List Char) (start stop : Nat) : Option ℤ := do
  let part ← slice start stop text
  if (bytes part).all isAsciiDigit then parseI64 part else none

structure Fields where
  year : ℤ
  month : ℤ
  day : ℤ
  hour : ℤ
  minute : ℤ
  second : ℤ

/-- The fields of a text, in its bytes before the byte 19. -/
def readFields (text : List Char) : Option Fields :=
  let at_ (place : Nat) (c : Char) : Bool := (bytes text)[place]? == some c.toUInt8
  if (bytes text).length < 20 || !at_ 4 '-' || !at_ 7 '-' || !at_ 13 ':' then none
  else if !(at_ 10 'T' || at_ 10 't' || at_ 10 ' ') || !at_ 16 ':' then none
  else do
    let (year, month, day) := (← num text 0 4, ← num text 5 7, ← num text 8 10)
    let (hour, minute, second) := (← num text 11 13, ← num text 14 16, ← num text 17 19)
    if ¬(1 ≤ month ∧ month ≤ 12) ∨ ¬(1 ≤ day ∧ day ≤ 31) ∨ 23 < hour ∨ 59 < minute ∨ 60 < second then none
    else some ⟨year, month, day, hour, minute, second⟩

/-- The text behind the fraction of a second. As in what follows, the outer option is missing at a slice that panics,
and the inner one is what the source returns. -/
def dropFraction (rest : List Char) : Option (Option (List Char)) :=
  match rest with
  | '.' :: fraction =>
    let digits := ((bytes fraction).takeWhile isAsciiDigit).length
    if digits = 0 then some none else (splitAtByte digits fraction).map fun (_, rest) => some rest
  | rest => some (some rest)

def readSign (sign : List Char) : Option ℤ :=
  match sign with
  | ['+'] => some 1
  | ['-'] => some (-1)
  | _ => none

/-- The seconds that the zone is ahead. -/
def readOffset (rest : List Char) : Option (Option ℤ) :=
  if rest = ['Z'] ∨ rest = ['z'] then some (some 0)
  else if byteLength rest ≠ 6 then some none
  else do
    if (← slice 3 4 rest) ≠ [':'] then some none
    else
      match readSign (← slice 0 1 rest) with
      | none => some none
      | some sign =>
        match parseI64 (← slice 1 3 rest) with
        | none => some none
        | some hours =>
          match parseI64 (← slice 4 6 rest) with
          | none => some none
          | some minutes => some (some (sign * (hours * 3600 + minutes * 60)))

def parseIso8601 (text : List Char) : Option (Option ℤ) :=
  match readFields text with
  | none => some none
  | some fields => do
    let (_, rest) ← splitAtByte 19 text
    match ← dropFraction rest with
    | none => some none
    | some rest =>
      match ← readOffset rest with
      | none => some none
      | some offset =>
        some (some (daysFromCivil fields.year fields.month fields.day * 86400 + fields.hour * 3600 +
          fields.minute * 60 + fields.second - offset))

end Parser

section Form

/-- A date and a time of day, each of the fields in its range. -/
structure Stamp where
  year : Digits 4
  month : Digits 2
  day : Digits 2
  separator : Char
  hour : Digits 2
  minute : Digits 2
  second : Digits 2
  monthRange : 1 ≤ month.value ∧ month.value ≤ 12
  dayRange : 1 ≤ day.value ∧ day.value ≤ 31
  separatorRange : separator ∈ ['T', 't', ' ']
  timeRange : hour.value ≤ 23 ∧ minute.value ≤ 59 ∧ second.value ≤ 60

def Stamp.text (stamp : Stamp) : List Char :=
  stamp.year.chars ++ '-' :: (stamp.month.chars ++ '-' :: (stamp.day.chars ++ stamp.separator ::
    (stamp.hour.chars ++ ':' :: (stamp.minute.chars ++ ':' :: stamp.second.chars))))

/-- The calendar has the day. -/
def Stamp.OnCalendar (stamp : Stamp) : Prop := IsDate stamp.year.value stamp.month.value stamp.day.value

/-- The seconds from the epoch where the clock shows the stamp. -/
def Stamp.seconds (stamp : Stamp) : ℤ :=
  daysSinceEpoch stamp.year.value stamp.month.value stamp.day.value * 86400 + stamp.hour.value * 3600 +
    stamp.minute.value * 60 + stamp.second.value

def IsFraction (text : List Char) : Prop :=
  text = [] ∨ ∃ digits, digits ≠ [] ∧ (∀ c ∈ digits, c.isDigit = true) ∧ text = '.' :: digits

inductive Zone where
  | utc (letter : Char) (h : letter ∈ ['Z', 'z'])
  | offset (ahead : Bool) (hours minutes : Digits 2)

def Zone.text : Zone → List Char
  | .utc letter _ => [letter]
  | .offset ahead hours minutes => (if ahead then '+' else '-') :: (hours.chars ++ ':' :: minutes.chars)

def Zone.seconds : Zone → ℤ
  | .utc _ _ => 0
  | .offset ahead hours minutes => (if ahead then 1 else -1) * (hours.value * 3600 + minutes.value * 60)

/-- The largest hours and minutes of an offset. -/
structure OffsetRange where
  hours : Nat
  minutes : Nat

def Zone.InRange (range : OffsetRange) : Zone → Prop
  | .utc _ _ => True
  | .offset _ hours minutes => hours.value ≤ range.hours ∧ minutes.value ≤ range.minutes

/-- The text is of the form, and the stamp and the zone are what it says. -/
def Spells (range : OffsetRange) (text : List Char) (stamp : Stamp) (zone : Zone) : Prop :=
  zone.InRange range ∧ ∃ fraction, IsFraction fraction ∧ text = stamp.text ++ (fraction ++ zone.text)

/-- The parser returns, accepts the form alone, and counts the seconds of a day of the calendar. -/
def ReadsExactly (range : OffsetRange) (text : List Char) : Prop :=
  ∃ result, parseIso8601 text = some result ∧ (result.isSome = true ↔ ∃ stamp zone, Spells range text stamp zone) ∧
    ∀ stamp zone, Spells range text stamp zone → stamp.OnCalendar → result = some (stamp.seconds - zone.seconds)

/-- Nothing of what follows belongs to the fraction. -/
def EndsAt (fraction rest : List Char) : Prop :=
  (fraction = [] → rest.head? ≠ some '.') ∧ (fraction ≠ [] → ∀ c, rest.head? = some c → c.isDigit = false)

/-- Two characters that are read as a number, the first of them a sign or a digit. -/
def IsLoose (number : List Char) : Prop :=
  ∃ first second, number = [first, second] ∧ (first = '+' ∨ first = '-' ∨ first.isDigit = true) ∧
    second.isDigit = true

/-- Six bytes that are cut inside of a character, or taken for an offset without the form of one. -/
inductive Misread (range : OffsetRange) : List Char → Prop
  | inside {rest : List Char} (hlength : byteLength rest = 6)
      (h : splitAtByte 3 rest = none ∨ splitAtByte 4 rest = none) : Misread range rest
  | wide {first : Char} {before after : List Char} (hfirst : 1 < first.utf8Size)
      (hbefore : byteLength (first :: before) = 3) (hafter : byteLength after = 2) :
      Misread range (first :: (before ++ ':' :: after))
  | loose {sign : Char} {hours minutes : List Char} (hsign : sign = '+' ∨ sign = '-') (hhours : IsLoose hours)
      (hminutes : IsLoose minutes)
      (h : ¬ ∃ zone : Zone, zone.InRange range ∧ zone.text = sign :: (hours ++ ':' :: minutes)) :
      Misread range (sign :: (hours ++ ':' :: minutes))

end Form

section Fields
variable {text done rest : List Char} {start stop : Nat}

/-- At the place where some text begins, a byte is that of a character of one byte where the text begins with it. -/
theorem byte_iff (hdone : byteLength done = start) {c : Char} (hc : c.toNat < 128) :
    (bytes (done ++ rest))[start]? = some c.toUInt8 ↔ ∃ after, rest = c :: after := by
  rw [bytes_append, List.getElem?_append_right (by rw [length_bytes, hdone]), length_bytes, hdone, Nat.sub_self,
    ← List.head?_eq_getElem?, head?_bytes_iff hc]

theorem num_iff (width : Nat) (hdone : byteLength done = start) (hpos : 0 < width) (hwidth : width ≤ 18) {value : ℤ} :
    num (done ++ rest) start (start + width) = some value ↔
      ∃ (digits : Digits width) (after : List Char), rest = digits.chars ++ after ∧ value = digits.value := by
  rw [num, Option.bind_eq_bind, Option.bind_eq_some_iff]
  simp only [slice_eq_some_iff hdone, all_bytes_isAsciiDigit]
  constructor
  · rintro ⟨part, ⟨after, rfl, hlength⟩, hvalue⟩
    split_ifs at hvalue with hall
    have hdigits := List.all_eq_true.mp hall
    have hwide : part.length = width := by rw [← hlength, byteLength_of_isDigit hdigits]
    have hread := Digits.parseI64_chars ⟨part, hwide, hdigits⟩ hpos hwidth
    exact ⟨⟨part, hwide, hdigits⟩, after, rfl, Option.some.inj (hvalue.symm.trans hread)⟩
  · rintro ⟨digits, after, rfl, rfl⟩
    refine ⟨digits.chars, ⟨after, rfl, digits.byteLength_chars⟩, ?_⟩
    rw [if_pos (List.all_eq_true.mpr digits.isDigit), digits.parseI64_chars hpos hwidth]

/-- A field and the character behind it. -/
theorem field_iff (stop width : Nat) (htext : text = done ++ rest) (hdone : byteLength done = start)
    (hstop : start + width = stop) (hwidth : 0 < width ∧ width ≤ 18) {c : Char} (hc : c.toNat < 128) {value : ℤ} :
    num text start stop = some value ∧ (bytes text)[stop]? = some c.toUInt8 ↔
      ∃ (digits : Digits width) (after : List Char), rest = digits.chars ++ c :: after ∧ value = digits.value := by
  subst htext hstop
  rw [num_iff width hdone hwidth.1 hwidth.2]
  constructor
  · rintro ⟨⟨digits, after, rfl, rfl⟩, hbyte⟩
    rw [← List.append_assoc, byte_iff (by rw [byteLength_append, hdone, digits.byteLength_chars]) hc] at hbyte
    obtain ⟨after, rfl⟩ := hbyte
    exact ⟨digits, after, rfl, rfl⟩
  · rintro ⟨digits, after, rfl, rfl⟩
    refine ⟨⟨digits, _, rfl, rfl⟩, ?_⟩
    rw [← List.append_assoc, byte_iff (by rw [byteLength_append, hdone, digits.byteLength_chars]) hc]
    exact ⟨after, rfl⟩

theorem behind_field (place : Nat) {width : Nat} {digits : Digits width} {c : Char}
    (htext : text = done ++ (digits.chars ++ c :: rest)) (hdone : byteLength done = start) (hc : c.toNat < 128)
    (hplace : start + width + 1 = place) :
    text = (done ++ (digits.chars ++ [c])) ++ rest ∧ byteLength (done ++ (digits.chars ++ [c])) = place := by
  constructor
  · rw [htext, List.append_assoc, List.append_assoc]
    rfl
  · rw [byteLength_append, byteLength_concat, hdone, digits.byteLength_chars, utf8Size_eq_one hc, ← hplace,
      Nat.add_assoc]

def Stamp.fields (stamp : Stamp) : Fields :=
  ⟨stamp.year.value, stamp.month.value, stamp.day.value, stamp.hour.value, stamp.minute.value, stamp.second.value⟩

/-- The seconds of a stamp by the formula. -/
def Stamp.civilSeconds (stamp : Stamp) : ℤ :=
  daysFromCivil stamp.year.value stamp.month.value stamp.day.value * 86400 + stamp.hour.value * 3600 +
    stamp.minute.value * 60 + stamp.second.value

theorem toNat_of_separator {separator : Char} (h : separator ∈ ['T', 't', ' ']) : separator.toNat < 128 := by
  simp only [List.mem_cons, List.not_mem_nil, or_false] at h
  rcases h with rfl | rfl | rfl <;> decide

theorem Stamp.byteLength_text (stamp : Stamp) : byteLength stamp.text = 19 := by
  have hseparator := utf8Size_eq_one (toNat_of_separator stamp.separatorRange)
  have hdash : '-'.utf8Size = 1 := rfl
  have hcolon : ':'.utf8Size = 1 := rfl
  simp only [Stamp.text, byteLength_append, byteLength_cons, Digits.byteLength_chars, hseparator, hdash, hcolon]

/-- The fields are read of a stamp that something follows. -/
theorem readFields_eq_some_iff {fields : Fields} :
    readFields text = some fields ↔
      ∃ (stamp : Stamp) (after : List Char), text = stamp.text ++ after ∧ after ≠ [] ∧ fields = stamp.fields := by
  constructor
  · intro h
    unfold readFields at h
    dsimp only at h
    split_ifs at h with hdate htime
    simp only [Bool.or_eq_true, Bool.not_eq_true', decide_eq_true_eq, not_or, not_lt, Bool.not_eq_false,
      beq_iff_eq] at hdate htime
    obtain ⟨⟨⟨hlength, hdash⟩, hdash'⟩, hcolon⟩ := hdate
    obtain ⟨hseparator, hcolon'⟩ := htime
    obtain ⟨separator, hmem, hseparator⟩ :
        ∃ separator, separator ∈ ['T', 't', ' '] ∧ (bytes text)[10]? = some separator.toUInt8 := by
      rcases hseparator with (h | h) | h
      · exact ⟨'T', by decide, h⟩
      · exact ⟨'t', by decide, h⟩
      · exact ⟨' ', by decide, h⟩
    simp only [Option.bind_eq_bind, Option.bind_eq_some_iff] at h
    obtain ⟨_, hyear, _, hmonth, _, hday, _, hhour, _, hminute, _, hsecond, h⟩ := h
    split_ifs at h with hrange
    have hascii := toNat_of_separator hmem
    obtain ⟨year, rest, hrest, rfl⟩ :=
      (field_iff 4 4 (List.nil_append text).symm rfl rfl (by decide) (by decide)).mp ⟨hyear, hdash⟩
    obtain ⟨htext, hdone⟩ := behind_field 5 (show text = [] ++ _ from hrest) rfl (by decide) rfl
    obtain ⟨month, rest, rfl, rfl⟩ := (field_iff 7 2 htext hdone rfl (by decide) (by decide)).mp ⟨hmonth, hdash'⟩
    obtain ⟨htext, hdone⟩ := behind_field 8 htext hdone (by decide) rfl
    obtain ⟨day, rest, rfl, rfl⟩ := (field_iff 10 2 htext hdone rfl (by decide) hascii).mp ⟨hday, hseparator⟩
    obtain ⟨htext, hdone⟩ := behind_field 11 htext hdone hascii rfl
    obtain ⟨hour, rest, rfl, rfl⟩ := (field_iff 13 2 htext hdone rfl (by decide) (by decide)).mp ⟨hhour, hcolon⟩
    obtain ⟨htext, hdone⟩ := behind_field 14 htext hdone (by decide) rfl
    obtain ⟨minute, rest, rfl, rfl⟩ := (field_iff 16 2 htext hdone rfl (by decide) (by decide)).mp ⟨hminute, hcolon'⟩
    obtain ⟨htext, hdone⟩ := behind_field 17 htext hdone (by decide) rfl
    rw [htext] at hsecond
    obtain ⟨second, after, rfl, rfl⟩ := (num_iff 2 hdone (by decide) (by decide)).mp hsecond
    simp only [not_or, not_not, not_lt] at hrange
    obtain ⟨hmonths, hdays, hhours, hminutes, hseconds⟩ := hrange
    have hstamp : text = Stamp.text ⟨year, month, day, separator, hour, minute, second, by omega, by omega, hmem,
        by omega⟩ ++ after := by
      rw [hrest, Stamp.text]
      simp only [List.append_assoc, List.cons_append]
    refine ⟨_, after, hstamp, ?_, (Option.some.inj h).symm⟩
    rintro rfl
    rw [length_bytes, hstamp, List.append_nil, Stamp.byteLength_text] at hlength
    exact absurd hlength (by decide)
  · rintro ⟨stamp, after, rfl, hafter, rfl⟩
    have hascii := toNat_of_separator stamp.separatorRange
    have htext : stamp.text ++ after = [] ++ (stamp.year.chars ++ '-' :: (stamp.month.chars ++ '-' ::
        (stamp.day.chars ++ stamp.separator :: (stamp.hour.chars ++ ':' :: (stamp.minute.chars ++ ':' ::
          (stamp.second.chars ++ after)))))) := by
      simp only [Stamp.text, List.append_assoc, List.cons_append, List.nil_append]
    have hlength : 20 ≤ (bytes (stamp.text ++ after)).length := by
      have hpos := byteLength_pos hafter
      rw [length_bytes, byteLength_append, Stamp.byteLength_text]
      omega
    generalize stamp.text ++ after = text at htext hlength ⊢
    have hstart : byteLength [] = 0 := rfl
    obtain ⟨hyear, hdash⟩ := (field_iff 4 4 htext hstart rfl (by decide) (by decide)).mpr ⟨stamp.year, _, rfl, rfl⟩
    obtain ⟨htext, hdone⟩ := behind_field 5 htext rfl (by decide) rfl
    obtain ⟨hmonth, hdash'⟩ := (field_iff 7 2 htext hdone rfl (by decide) (by decide)).mpr ⟨stamp.month, _, rfl, rfl⟩
    obtain ⟨htext, hdone⟩ := behind_field 8 htext hdone (by decide) rfl
    obtain ⟨hday, hseparator⟩ := (field_iff 10 2 htext hdone rfl (by decide) hascii).mpr ⟨stamp.day, _, rfl, rfl⟩
    obtain ⟨htext, hdone⟩ := behind_field 11 htext hdone hascii rfl
    obtain ⟨hhour, hcolon⟩ := (field_iff 13 2 htext hdone rfl (by decide) (by decide)).mpr ⟨stamp.hour, _, rfl, rfl⟩
    obtain ⟨htext, hdone⟩ := behind_field 14 htext hdone (by decide) rfl
    obtain ⟨hminute, hcolon'⟩ :=
      (field_iff 16 2 htext hdone rfl (by decide) (by decide)).mpr ⟨stamp.minute, _, rfl, rfl⟩
    obtain ⟨htext, hdone⟩ := behind_field 17 htext hdone (by decide) rfl
    have hsecond : num text 17 19 = some (stamp.second.value : ℤ) := by
      rw [htext]
      exact (num_iff 2 hdone (by decide) (by decide)).mpr ⟨stamp.second, after, rfl, rfl⟩
    have hkind : ((bytes text)[10]? == some 'T'.toUInt8 || (bytes text)[10]? == some 't'.toUInt8 ||
        (bytes text)[10]? == some ' '.toUInt8) = true := by
      have hmem := stamp.separatorRange
      simp only [List.mem_cons, List.not_mem_nil, or_false] at hmem
      rw [hseparator]
      rcases hmem with h | h | h <;> rw [h] <;> decide
    obtain ⟨hhours, hminutes, hseconds⟩ := stamp.timeRange
    have hmonths := stamp.monthRange
    have hdays := stamp.dayRange
    have hrange : ¬(¬(1 ≤ (stamp.month.value : ℤ) ∧ (stamp.month.value : ℤ) ≤ 12) ∨
        ¬(1 ≤ (stamp.day.value : ℤ) ∧ (stamp.day.value : ℤ) ≤ 31) ∨ 23 < (stamp.hour.value : ℤ) ∨
          59 < (stamp.minute.value : ℤ) ∨ 60 < (stamp.second.value : ℤ)) := by omega
    unfold readFields
    dsimp only
    rw [if_neg, if_neg, hyear, hmonth, hday, hhour, hminute, hsecond]
    · simp only [Option.bind_eq_bind, Option.bind_some]
      exact if_neg hrange
    · rw [hkind, hcolon', beq_self_eq_true]
      decide
    · rw [hdash, hdash', hcolon, decide_eq_false (not_lt.mpr hlength)]
      simp only [beq_self_eq_true]
      decide

end Fields

section Fraction
variable {fraction rest : List Char}

theorem dropFraction_append (hfraction : IsFraction fraction) (hend : EndsAt fraction rest) :
    dropFraction (fraction ++ rest) = some (some rest) := by
  rcases hfraction with rfl | ⟨digits, hne, hdigits, rfl⟩
  · have hhead := hend.1 rfl
    rw [List.nil_append]
    unfold dropFraction
    split
    · exact absurd rfl hhead
    · rfl
  · have hstop : rest.takeWhile Char.isDigit = [] := by
      cases rest with
      | nil => rfl
      | cons c rest =>
        have hc := hend.2 (List.cons_ne_nil _ _) c rfl
        exact List.takeWhile_cons_of_neg (by rw [hc]; exact Bool.false_ne_true)
    have hcount : ((bytes (digits ++ rest)).takeWhile isAsciiDigit).length = byteLength digits := by
      rw [length_takeWhile_bytes, List.takeWhile_append_of_pos hdigits, hstop, List.append_nil]
    rw [List.cons_append, dropFraction, hcount]
    dsimp only
    rw [if_neg (byteLength_pos hne).ne', splitAtByte_eq_some_iff.mpr ⟨rfl, rfl⟩, Option.map_some]

theorem dropFraction_cases (text : List Char) :
    dropFraction text = some none ∨
      ∃ fraction rest, IsFraction fraction ∧ EndsAt fraction rest ∧ text = fraction ++ rest := by
  by_cases hdot : text.head? = some '.'
  · obtain ⟨after, rfl⟩ := List.head?_eq_some_iff.mp hdot
    by_cases hdigits : after.takeWhile Char.isDigit = []
    · left
      rw [dropFraction, length_takeWhile_bytes, hdigits]
      rfl
    · right
      refine ⟨'.' :: after.takeWhile Char.isDigit, after.dropWhile Char.isDigit,
        .inr ⟨_, hdigits, fun c hc => List.mem_takeWhile_imp hc, rfl⟩, ⟨fun h => (List.cons_ne_nil _ _ h).elim, ?_⟩, ?_⟩
      · intro _ c hc
        have hnot := List.head?_dropWhile_not Char.isDigit after
        rw [hc] at hnot
        exact hnot
      · rw [List.cons_append, List.takeWhile_append_dropWhile]
  · exact .inr ⟨[], text, .inl rfl, ⟨fun _ => hdot, fun h => (h rfl).elim⟩, rfl⟩

end Fraction

section Offsets
variable {range : OffsetRange} {sign : Char} {hours minutes rest : List Char}

/-- What stands at the places of an offset. -/
theorem readOffset_places (hsign : sign.utf8Size = 1) (hhours : byteLength hours = 2)
    (hminutes : byteLength minutes = 2) :
    readOffset (sign :: (hours ++ ':' :: minutes)) =
      some ((readSign [sign]).bind fun sign => (parseI64 hours).bind fun hours => (parseI64 minutes).map fun minutes =>
        sign * (hours * 3600 + minutes * 60)) := by
  have hcolon : ':'.utf8Size = 1 := rfl
  have hlength : byteLength (sign :: (hours ++ ':' :: minutes)) = 6 := by
    rw [byteLength_cons, byteLength_append, byteLength_cons, hsign, hhours, hminutes, hcolon]
  have hshort : ¬(sign :: (hours ++ ':' :: minutes) = ['Z'] ∨ sign :: (hours ++ ':' :: minutes) = ['z']) := by
    rintro (h | h) <;> rw [h] at hlength <;> cases hlength
  have hthree : slice 3 4 (sign :: (hours ++ ':' :: minutes)) = some [':'] :=
    slice_middle (sign :: hours) [':'] minutes (by rw [byteLength_cons, hsign, hhours]) rfl
  have hzero : slice 0 1 (sign :: (hours ++ ':' :: minutes)) = some [sign] :=
    slice_middle [] [sign] _ rfl (by rw [byteLength_cons, hsign]; rfl)
  have hone : slice 1 3 (sign :: (hours ++ ':' :: minutes)) = some hours :=
    slice_middle [sign] hours _ (by rw [byteLength_cons, hsign]; rfl) (by rw [hhours])
  have hfour : slice 4 6 (sign :: (hours ++ ':' :: minutes)) = some minutes := by
    have h := slice_middle (sign :: (hours ++ [':'])) minutes []
      (show _ = 4 by rw [byteLength_cons, byteLength_concat, hsign, hhours, hcolon]) (show _ = 6 by rw [hminutes])
    rwa [List.append_nil, List.cons_append, List.append_assoc] at h
  unfold readOffset
  rw [if_neg hshort, if_neg (not_not.mpr hlength), hthree, hzero, hone, hfour]
  simp only [Option.bind_eq_bind, Option.bind_some, ne_eq, not_true_eq_false, if_false]
  cases readSign [sign] with
  | none => rfl
  | some sign =>
    cases parseI64 hours with
    | none => rfl
    | some hours => cases parseI64 minutes <;> rfl

theorem readOffset_zone (zone : Zone) : readOffset zone.text = some (some zone.seconds) := by
  cases zone with
  | utc letter h =>
    simp only [List.mem_cons, List.not_mem_nil, or_false] at h
    rcases h with rfl | rfl <;> rfl
  | offset ahead hours minutes =>
    have hsign : (if ahead then '+' else '-').utf8Size = 1 := by cases ahead <;> rfl
    rw [Zone.text, readOffset_places hsign hours.byteLength_chars minutes.byteLength_chars,
      hours.parseI64_chars (by decide) (by decide), minutes.parseI64_chars (by decide) (by decide)]
    cases ahead <;> rfl

theorem Zone.head?_text (zone : Zone) : ∃ c, zone.text.head? = some c ∧ c ∈ ['Z', 'z', '+', '-'] := by
  cases zone with
  | utc letter h => exact ⟨letter, rfl, List.mem_append_left ['+', '-'] h⟩
  | offset ahead hours minutes => cases ahead <;> exact ⟨_, rfl, by decide⟩

theorem Zone.text_ne_nil (zone : Zone) : zone.text ≠ [] := by
  cases zone <;> exact List.cons_ne_nil _ _

/-- A zone begins with no character of a fraction. -/
theorem Zone.endsAt (zone : Zone) (fraction : List Char) : EndsAt fraction zone.text := by
  have hkinds : ∀ c ∈ ['Z', 'z', '+', '-'], c ≠ '.' ∧ c.isDigit = false :=
    List.all_iff_forall_prop.mp (by decide)
  obtain ⟨c, hhead, hmem⟩ := zone.head?_text
  obtain ⟨hdot, hdigit⟩ := hkinds c hmem
  rw [EndsAt, hhead]
  refine ⟨fun _ hc => hdot (Option.some.inj hc), fun _ other hother => ?_⟩
  rwa [← Option.some.inj hother]

theorem isLoose_of_parseI64 {number : List Char} {value : ℤ} (hlength : byteLength number = 2)
    (h : parseI64 number = some value) : IsLoose number := by
  obtain ⟨sign, digits, rfl, hsign, hne, hdigits⟩ := digits_of_parseI64 h
  rw [byteLength_append, byteLength_of_isDigit hdigits] at hlength
  simp only [List.mem_cons, List.not_mem_nil, or_false] at hsign
  rcases hsign with rfl | hsign
  · obtain ⟨first, second, rfl⟩ := List.length_eq_two.mp ((Nat.zero_add _).symm.trans hlength)
    obtain ⟨hfirst, hsecond⟩ := List.forall_mem_cons.mp hdigits
    exact ⟨first, second, rfl, .inr (.inr hfirst), hsecond second List.mem_cons_self⟩
  · have hone : byteLength sign = 1 := by rcases hsign with rfl | rfl <;> rfl
    obtain ⟨digit, rfl⟩ := List.length_eq_one_iff.mp (show digits.length = 1 by omega)
    have hdigit := List.forall_mem_singleton.mp hdigits
    rcases hsign with rfl | rfl
    · exact ⟨'+', digit, rfl, .inl rfl, hdigit⟩
    · exact ⟨'-', digit, rfl, .inr (.inl rfl), hdigit⟩

theorem IsLoose.byteLength_eq {number : List Char} (h : IsLoose number) : byteLength number = 2 := by
  obtain ⟨first, second, rfl, hfirst, hsecond⟩ := h
  have hone : first.utf8Size = 1 := by
    rcases hfirst with rfl | rfl | hdigit
    · rfl
    · rfl
    · exact utf8Size_of_isDigit hdigit
  rw [byteLength_cons, byteLength_cons, hone, utf8Size_of_isDigit hsecond]
  rfl

theorem IsLoose.parseI64 {number : List Char} (h : IsLoose number) : ∃ value, parseI64 number = some value := by
  obtain ⟨first, second, rfl, hfirst, hsecond⟩ := h
  have hlast : ∀ c ∈ [second], c.isDigit = true := fun c hc => by rwa [List.mem_singleton.mp hc]
  rw [← Option.isSome_iff_exists]
  rcases or_assoc.mpr hfirst with hsign | hdigit
  · exact parseI64_signed hsign (List.cons_ne_nil _ _) hlast (show 1 ≤ 18 by decide)
  · have hdigits : ∀ c ∈ [first, second], c.isDigit = true := List.forall_mem_cons.mpr ⟨hdigit, hlast⟩
    rw [parseI64_of_digits (List.cons_ne_nil _ _) hdigits (show 2 ≤ 18 by decide)]
    rfl

theorem readSign_eq_some_iff {value : ℤ} :
    readSign [sign] = some value ↔ (sign = '+' ∧ value = 1) ∨ (sign = '-' ∧ value = -1) := by
  unfold readSign
  split <;> simp_all [eq_comm]

theorem ne_utc_of_byteLength (h : byteLength rest = 6) : ¬(rest = ['Z'] ∨ rest = ['z']) := by
  rintro (rfl | rfl) <;> cases h

theorem slice_three_none (h : splitAtByte 3 rest = none ∨ splitAtByte 4 rest = none) : slice 3 4 rest = none := by
  cases hthree : splitAtByte 3 rest with
  | none =>
    rw [slice, hthree]
    rfl
  | some halves =>
    obtain ⟨before, after⟩ := halves
    obtain ⟨rfl, hbefore⟩ := splitAtByte_eq_some_iff.mp hthree
    rcases h with h | h
    · rw [hthree] at h
      cases h
    · have hcut := splitAtByte_append before after 1
      rw [hbefore, h] at hcut
      have hone := Option.map_eq_none_iff.mp hcut.symm
      rw [slice, hthree, Option.bind_eq_bind, Option.bind_some]
      dsimp only
      rw [hone]
      rfl

/-- What is misread makes a slice panic or is taken for an offset that it has not the form of. -/
theorem readOffset_of_misread (h : Misread range rest) :
    readOffset rest = none ∨
      (∃ value, readOffset rest = some (some value)) ∧ ¬ ∃ zone : Zone, zone.InRange range ∧ zone.text = rest := by
  cases h with
  | inside hlength h =>
    left
    rw [readOffset, if_neg (ne_utc_of_byteLength hlength), if_neg (not_not.mpr hlength), slice_three_none h]
    rfl
  | @wide first before after hfirst hbefore hafter =>
    left
    have hlength : byteLength (first :: (before ++ ':' :: after)) = 6 := by
      rw [byteLength_cons] at hbefore
      rw [byteLength_cons, byteLength_append, byteLength_cons, hafter, ← Nat.add_assoc, hbefore]
      rfl
    have hthree : slice 3 4 (first :: (before ++ ':' :: after)) = some [':'] :=
      slice_middle (first :: before) [':'] after hbefore rfl
    have hzero : slice 0 1 (first :: (before ++ ':' :: after)) = none := by
      rw [slice, splitAtByte, Option.bind_eq_bind, Option.bind_some]
      dsimp only
      rw [splitAtByte, if_pos hfirst]
      rfl
    rw [readOffset, if_neg (ne_utc_of_byteLength hlength), if_neg (not_not.mpr hlength), hthree, hzero]
    rfl
  | @loose sign hours minutes hsign hhours hminutes h =>
    right
    refine ⟨?_, h⟩
    obtain ⟨hour, hhour⟩ := hhours.parseI64
    obtain ⟨minute, hminute⟩ := hminutes.parseI64
    have hone : sign.utf8Size = 1 := by rcases hsign with rfl | rfl <;> rfl
    rw [readOffset_places hone hhours.byteLength_eq hminutes.byteLength_eq, hhour, hminute]
    rcases hsign with rfl | rfl <;> exact ⟨_, rfl⟩

theorem Misread.ne_nil (h : Misread range rest) : rest ≠ [] := by
  cases h with
  | inside hlength _ =>
    rintro rfl
    cases hlength
  | wide => exact List.cons_ne_nil _ _
  | loose => exact List.cons_ne_nil _ _

theorem zone_or_misread_of_colon {before after : List Char} (hbefore : byteLength before = 3)
    (hafter : byteLength after = 2) (h : readOffset (before ++ ':' :: after) ≠ some none) :
    (∃ zone : Zone, zone.InRange range ∧ zone.text = before ++ ':' :: after) ∨
      Misread range (before ++ ':' :: after) := by
  obtain ⟨sign, hours, rfl⟩ : ∃ sign hours, before = sign :: hours :=
    List.exists_cons_of_ne_nil fun hnil => by rw [hnil] at hbefore; cases hbefore
  rw [List.cons_append] at h ⊢
  by_cases hwide : 1 < sign.utf8Size
  · exact .inr (.wide hwide hbefore hafter)
  · have hone : sign.utf8Size = 1 := Nat.le_antisymm (not_lt.mp hwide) sign.utf8Size_pos
    have hhours : byteLength hours = 2 := by
      rw [byteLength_cons, hone] at hbefore
      omega
    rw [readOffset_places hone hhours hafter] at h
    cases hsign : readSign [sign] with
    | none => rw [hsign] at h; exact absurd rfl h
    | some value =>
      cases hhour : parseI64 hours with
      | none => rw [hsign, hhour] at h; exact absurd rfl h
      | some hour =>
        cases hminute : parseI64 after with
        | none => rw [hsign, hhour, hminute] at h; exact absurd rfl h
        | some minute =>
          have hsigns : sign = '+' ∨ sign = '-' := (readSign_eq_some_iff.mp hsign).imp And.left And.left
          rw [or_iff_not_imp_left]
          exact .loose hsigns (isLoose_of_parseI64 hhours hhour) (isLoose_of_parseI64 hafter hminute)

/-- What is not rejected is a zone or misread. -/
theorem zone_or_misread (h : readOffset rest ≠ some none) :
    (∃ zone : Zone, zone.InRange range ∧ zone.text = rest) ∨ Misread range rest := by
  by_cases hutc : rest = ['Z'] ∨ rest = ['z']
  · left
    rcases hutc with rfl | rfl
    · exact ⟨.utc 'Z' (by decide), trivial, rfl⟩
    · exact ⟨.utc 'z' (by decide), trivial, rfl⟩
  by_cases hlength : byteLength rest = 6
  · by_cases hcut : splitAtByte 3 rest = none ∨ splitAtByte 4 rest = none
    · exact .inr (.inside hlength hcut)
    obtain ⟨hthree, hfour⟩ := not_or.mp hcut
    obtain ⟨⟨before, behind⟩, hbefore⟩ := Option.ne_none_iff_exists'.mp hthree
    obtain ⟨rfl, hstart⟩ := splitAtByte_eq_some_iff.mp hbefore
    have hnext := splitAtByte_append before behind 1
    rw [hstart] at hnext
    rw [hnext, Option.map_eq_none_iff] at hfour
    obtain ⟨⟨colon, after⟩, hcolon⟩ := Option.ne_none_iff_exists'.mp hfour
    obtain ⟨rfl, hwidth⟩ := splitAtByte_eq_some_iff.mp hcolon
    by_cases hother : colon = [':']
    · subst hother
      rw [byteLength_append, byteLength_append, hstart, hwidth] at hlength
      have hafter : byteLength after = 2 := by omega
      exact zone_or_misread_of_colon hstart hafter h
    · have hmiddle := slice_middle before colon after hstart (show _ = 4 by rw [hwidth])
      rw [readOffset, if_neg hutc, if_neg (not_not.mpr (by assumption)), hmiddle, Option.bind_eq_bind, Option.bind_some,
        if_pos hother] at h
      exact absurd rfl h
  · rw [readOffset, if_neg hutc, if_pos hlength] at h
    exact absurd rfl h

end Offsets

section Texts
variable {range : OffsetRange} {text : List Char}

/-- A stamp, a fraction and six bytes behind them that are misread. -/
def Slips (range : OffsetRange) (text : List Char) : Prop :=
  ∃ (stamp : Stamp) (fraction rest : List Char), IsFraction fraction ∧ EndsAt fraction rest ∧
    text = stamp.text ++ (fraction ++ rest) ∧ Misread range rest

theorem readFields_stamp (stamp : Stamp) {after : List Char} (h : after ≠ []) :
    readFields (stamp.text ++ after) = some stamp.fields :=
  readFields_eq_some_iff.mpr ⟨stamp, after, rfl, h, rfl⟩

theorem parseIso8601_stamp (stamp : Stamp) {after : List Char} (h : after ≠ []) :
    parseIso8601 (stamp.text ++ after) = (dropFraction after).bind fun rest =>
      match rest with
      | none => some none
      | some rest => (readOffset rest).map (Option.map (stamp.civilSeconds - ·)) := by
  have hcut : splitAtByte 19 (stamp.text ++ after) = some (stamp.text, after) :=
    splitAtByte_eq_some_iff.mpr ⟨rfl, stamp.byteLength_text⟩
  rw [parseIso8601, readFields_stamp stamp h]
  dsimp only
  rw [hcut]
  simp only [Option.bind_eq_bind, Option.bind_some]
  congr 1
  funext rest
  cases rest with
  | none => rfl
  | some rest =>
    dsimp only
    cases readOffset rest with
    | none => rfl
    | some offset => cases offset <;> rfl

/-- The form is accepted, with the seconds by the formula. -/
theorem parseIso8601_of_spells {stamp : Stamp} {zone : Zone} (h : Spells range text stamp zone) :
    parseIso8601 text = some (some (stamp.civilSeconds - zone.seconds)) := by
  obtain ⟨-, fraction, hfraction, rfl⟩ := h
  have hne : fraction ++ zone.text ≠ [] := fun hnil => zone.text_ne_nil (List.append_eq_nil_iff.mp hnil).2
  rw [parseIso8601_stamp stamp hne, dropFraction_append hfraction (zone.endsAt fraction), Option.bind_some]
  dsimp only
  rw [readOffset_zone]
  rfl

/-- Where the form is not accepted as such, something is misread. -/
theorem spells_or_slips (h : parseIso8601 text ≠ some none) :
    (∃ stamp zone, Spells range text stamp zone) ∨ Slips range text := by
  cases hfields : readFields text with
  | none =>
    rw [parseIso8601, hfields] at h
    exact absurd rfl h
  | some fields =>
    obtain ⟨stamp, after, rfl, hafter, -⟩ := readFields_eq_some_iff.mp hfields
    rw [parseIso8601_stamp stamp hafter] at h
    rcases dropFraction_cases after with hnone | ⟨fraction, rest, hfraction, hend, rfl⟩
    · rw [hnone] at h
      exact absurd rfl h
    · rw [dropFraction_append hfraction hend, Option.bind_some] at h
      have hread : readOffset rest ≠ some none := by
        intro hnone
        dsimp only at h
        rw [hnone] at h
        exact h rfl
      rcases zone_or_misread hread with ⟨zone, hrange, rfl⟩ | hmisread
      · exact .inl ⟨stamp, zone, hrange, fraction, hfraction, rfl⟩
      · exact .inr ⟨stamp, fraction, rest, hfraction, hend, rfl, hmisread⟩

theorem not_readsExactly_of_slips (h : Slips range text) : ¬ ReadsExactly range text := by
  rintro ⟨result, hresult, haccepts, -⟩
  obtain ⟨stamp, fraction, rest, hfraction, hend, rfl, hmisread⟩ := h
  have hne : fraction ++ rest ≠ [] := fun hnil => hmisread.ne_nil (List.append_eq_nil_iff.mp hnil).2
  have hparse := parseIso8601_stamp stamp hne
  rw [dropFraction_append hfraction hend, Option.bind_some] at hparse
  dsimp only at hparse
  rcases readOffset_of_misread hmisread with hpanic | ⟨⟨value, hvalue⟩, hform⟩
  · rw [hpanic, hresult] at hparse
    cases hparse
  · rw [hvalue, hresult] at hparse
    obtain rfl := Option.some.inj hparse
    obtain ⟨other, zone, hrange, digits, hdigits, htext⟩ := haccepts.mp rfl
    have hcut : splitAtByte 19 (stamp.text ++ (fraction ++ rest)) = some (other.text, digits ++ zone.text) :=
      splitAtByte_eq_some_iff.mpr ⟨htext, other.byteLength_text⟩
    rw [splitAtByte_eq_some_iff.mpr ⟨rfl, stamp.byteLength_text⟩] at hcut
    have hafter := (Prod.mk.inj (Option.some.inj hcut)).2
    have hsame := dropFraction_append hfraction hend
    rw [hafter, dropFraction_append hdigits (zone.endsAt digits)] at hsame
    exact hform ⟨zone, hrange, Option.some.inj (Option.some.inj hsame)⟩

/-- The parser is exact on every text but those whose zone is misread. -/
theorem readsExactly_iff (range : OffsetRange) (text : List Char) : ReadsExactly range text ↔ ¬ Slips range text := by
  refine ⟨fun h hslips => not_readsExactly_of_slips hslips h, fun h => ?_⟩
  by_cases hspells : ∃ stamp zone, Spells range text stamp zone
  · obtain ⟨stamp, zone, hstamp⟩ := hspells
    refine ⟨_, parseIso8601_of_spells hstamp, iff_of_true rfl ⟨stamp, zone, hstamp⟩, ?_⟩
    intro other shift hother hcalendar
    have hsame := (parseIso8601_of_spells hstamp).symm.trans (parseIso8601_of_spells hother)
    rw [Option.some.inj hsame, Stamp.civilSeconds, daysFromCivil_eq hcalendar, Stamp.seconds]
  · have hrejects : parseIso8601 text = some none := by
      by_contra hnot
      exact (spells_or_slips hnot).elim hspells h
    exact ⟨none, hrejects, iff_of_false Bool.false_ne_true hspells,
      fun stamp zone hother _ => absurd ⟨stamp, zone, hother⟩ hspells⟩

/-- A character of three bytes where the colon of an offset would be, and an offset of minus one hour ahead. -/
theorem offsets_misread :
    parseIso8601 "2026-10-04T12:00:00€€".toList = none ∧
      parseIso8601 "2026-10-04T12:00:00+-1:00".toList = some (some 1791118800) := by
  decide +kernel

end Texts

end Gail.Alexa.Timestamps
