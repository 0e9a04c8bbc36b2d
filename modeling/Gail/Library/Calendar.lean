import Mathlib.Tactic.IntervalCases
import Mathlib.Tactic.Linarith

/-! The days of the Gregorian calendar, counted by years and months, and the formula that gives their number at once. -/
namespace Gail.Library.Calendar

def isLeap (year : Nat) : Bool := year % 4 == 0 && (year % 100 != 0 || year % 400 == 0)

def daysInYear (year : Nat) : Nat := if isLeap year then 366 else 365

def daysInMonth (year month : Nat) : Nat :=
  match month with
  | 2 => if isLeap year then 29 else 28
  | 4 | 6 | 9 | 11 => 30
  | 1 | 3 | 5 | 7 | 8 | 10 | 12 => 31
  | _ => 0

/-- The days of the years before this one. -/
def daysBeforeYear : Nat → Nat
  | 0 => 0
  | year + 1 => daysBeforeYear year + daysInYear year

/-- The days of the year before the month. -/
def daysBeforeMonth (year : Nat) : Nat → Nat
  | 0 => 0
  | month + 1 => daysBeforeMonth year month + daysInMonth year month

structure IsDate (year month day : Nat) : Prop where
  inYear : 1 ≤ month ∧ month ≤ 12
  inMonth : 1 ≤ day ∧ day ≤ daysInMonth year month

instance (year month day : Nat) : Decidable (IsDate year month day) :=
  decidable_of_iff ((1 ≤ month ∧ month ≤ 12) ∧ 1 ≤ day ∧ day ≤ daysInMonth year month)
    ⟨fun ⟨hmonth, hday⟩ => ⟨hmonth, hday⟩, fun ⟨hmonth, hday⟩ => ⟨hmonth, hday⟩⟩

/-- The number of a date, from that of the first day of the year 0. -/
def dayNumber (year month day : Nat) : Nat := daysBeforeYear year + daysBeforeMonth year month + (day - 1)

/-- The days from the first one of 1970. -/
def daysSinceEpoch (year month day : Nat) : ℤ := dayNumber year month day - dayNumber 1970 1 1

/-- The number of days by whole cycles of 400 years, of years that begin in March. -/
def daysFromCivil (year month day : ℤ) : ℤ :=
  let year := if month ≤ 2 then year - 1 else year
  let era := year / 400
  let yoe := year - era * 400
  let mp := (month + 9) % 12
  let doy := (153 * mp + 2) / 5 + day - 1
  let doe := yoe * 365 + yoe / 4 - yoe / 100 + doy
  era * 146097 + doe - 719468

theorem daysBeforeYear_eq (year : Nat) :
    (daysBeforeYear year : ℤ) = 365 * year + (year - 1) / 4 - (year - 1) / 100 + (year - 1) / 400 + 1 := by
  induction year with
  | zero => rfl
  | succ year ih =>
    rw [daysBeforeYear, daysInYear, isLeap]
    push_cast
    rw [ih]
    simp only [Bool.and_eq_true, Bool.or_eq_true, beq_iff_eq, bne_iff_ne]
    split_ifs <;> omega

/-- A leap year is the one whose end has one leap day more before it than its beginning. -/
theorem leapDays_isLeap (year : Nat) :
    (year / 4 - year / 100 + year / 400 : ℤ) =
      (year - 1) / 4 - (year - 1) / 100 + (year - 1) / 400 + if isLeap year then 1 else 0 := by
  simp only [isLeap, Bool.and_eq_true, Bool.or_eq_true, beq_iff_eq, bne_iff_ne]
  split_ifs <;> omega

/-- The leap days of the years of a cycle are those of the years before it besides the ones of the whole cycles. -/
theorem leapDays_cycles (year : ℤ) :
    year / 400 * 146097 + (year - year / 400 * 400) * 365 + (year - year / 400 * 400) / 4 -
        (year - year / 400 * 400) / 100 =
      365 * year + (year / 4 - year / 100 + year / 400) := by
  have hfour : (year - year / 400 * 400) / 4 = year / 4 - year / 400 * 100 := by omega
  have hhundred : (year - year / 400 * 400) / 100 = year / 100 - year / 400 * 4 := by omega
  rw [hfour, hhundred]
  omega

/-- January and February end the year that begins in March, and the months after them follow its first day. -/
theorem daysBeforeMonth_eq (year : Nat) {month : Nat} (h : 1 ≤ month ∧ month ≤ 12) :
    (daysBeforeMonth year month : ℤ) = (153 * ((month + 9) % 12) + 2) / 5 +
      if month ≤ 2 then -306 else if isLeap year then 60 else 59 := by
  obtain ⟨hlow, hhigh⟩ := h
  interval_cases month <;> simp only [daysBeforeMonth, daysInMonth] <;> split_ifs <;> omega

/-- The formula counts the days. -/
theorem daysFromCivil_eq {year month day : Nat} (h : IsDate year month day) :
    daysFromCivil year month day = daysSinceEpoch year month day := by
  have hepoch : (dayNumber 1970 1 1 : ℤ) = 719528 := by
    rw [dayNumber]
    push_cast
    rw [daysBeforeYear_eq]
    rfl
  have hday := h.inMonth.1
  have hcycles := leapDays_cycles year
  have hbefore := leapDays_cycles (year - 1)
  have hleap := leapDays_isLeap year
  rw [daysSinceEpoch, hepoch, dayNumber]
  push_cast [hday]
  rw [daysBeforeYear_eq, daysBeforeMonth_eq year h.inYear, daysFromCivil]
  generalize (153 * (((month : ℤ) + 9) % 12) + 2) / 5 = days
  by_cases hmonth : month ≤ 2
  · have hcast : (month : ℤ) ≤ 2 := by exact_mod_cast hmonth
    rw [if_pos hcast, if_pos hmonth]
    linarith only [hbefore]
  · have hcast : ¬ (month : ℤ) ≤ 2 := by exact_mod_cast hmonth
    rw [if_neg hcast, if_neg hmonth]
    split_ifs at hleap ⊢ <;> linarith only [hcycles, hleap]

end Gail.Library.Calendar
