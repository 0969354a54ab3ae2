import Recurrence.Calendar.Gregorian

/-!
# Dates

A date is the **number of its day**, counted from the first day of year 0, so that dates add,
compare and fall into weeks as integers do.  Its year, month and day of the month are read off the
number.  The calendar ends: years run from -262143 to 262142, and an operation that would leave
them has no result.  Months are counted from 0, days of a month and of a year from 1.

## Main Definitions

* `Date`: a day of the calendar
* `Date.ofNumber?`, `Date.ofYearDay?`, `Date.ofCivil?`: the date with a day number, with a year and
  a day of it, with a year, a month and a day of it
* `Date.year`, `Date.month`, `Date.dayOfMonth`, `Date.dayOfYear`, `Date.weekday`
* `Date.addDays?`, `Date.addMonths?`
-/

namespace Recurrence

/-- The number of the first day of year -262143. -/
def firstDayNumber : Int := daysBeforeYear (-262143)

/-- The number of the last day of year 262142. -/
def lastDayNumber : Int := daysBeforeYear 262143 - 1

/-- A day of the calendar. -/
structure Date where
  /-- The number of days from the first day of year 0. -/
  number : Int
  first_le : firstDayNumber ≤ number
  le_last : number ≤ lastDayNumber
deriving DecidableEq

namespace Date

@[ext] theorem ext {a b : Date} (h : a.number = b.number) : a = b := by
  cases a
  cases b
  cases h
  rfl

instance : LT Date := ⟨fun a b => a.number < b.number⟩

instance : LE Date := ⟨fun a b => a.number ≤ b.number⟩

theorem lt_iff {a b : Date} : a < b ↔ a.number < b.number := Iff.rfl

theorem le_iff {a b : Date} : a ≤ b ↔ a.number ≤ b.number := Iff.rfl

instance (a b : Date) : Decidable (a < b) := inferInstanceAs (Decidable (a.number < b.number))

instance (a b : Date) : Decidable (a ≤ b) := inferInstanceAs (Decidable (a.number ≤ b.number))

/-- The date of the day with number `number`, if the calendar has it. -/
def ofNumber? (number : Int) : Option Date :=
  if h : firstDayNumber ≤ number ∧ number ≤ lastDayNumber then some ⟨number, h.1, h.2⟩ else none

/-- The day `day` of `year`, counted from 1. -/
def ofYearDay? (year day : Int) : Option Date :=
  if 1 ≤ day ∧ day ≤ daysInYear year then ofNumber? (daysBeforeYear year + (day - 1)) else none

/-- The day `day` of the month `month` of `year`. -/
def ofCivil? (year : Int) (month : Nat) (day : Int) : Option Date :=
  if month < 12 ∧ 1 ≤ day ∧ day ≤ daysInMonth year month then
    ofNumber? (daysBeforeYear year + daysBeforeMonth year month + (day - 1))
  else none

/-- The year of a date. -/
def year (d : Date) : Int := yearOfDay d.number

/-- The days of its year before a date. -/
def daysElapsed (d : Date) : Nat := (d.number - daysBeforeYear d.year).toNat

/-- The day of the year, from 1. -/
def dayOfYear (d : Date) : Int := d.number - daysBeforeYear d.year + 1

/-- The month of a date, January being 0. -/
def month (d : Date) : Nat := monthOfDay d.year d.daysElapsed

/-- The day of the month, from 1. -/
def dayOfMonth (d : Date) : Int := d.dayOfYear - daysBeforeMonth d.year d.month

/-- The day of the week, Sunday being 0.  Day 0 is a Saturday. -/
def weekday (d : Date) : Int := (d.number + 6) % 7

/-- The number of months from the first month of year 0 to the month of a date. -/
def monthIndex (d : Date) : Int := 12 * d.year + d.month

/-- The day `day` of the month that `index` months after the first month of year 0. -/
def ofMonthIndex? (index day : Int) : Option Date :=
  ofCivil? (index / 12) (index % 12).toNat day

/-- The first day of a year. -/
def startOfYear? (year : Int) : Option Date := ofYearDay? year 1

/-- The date `days` days later. -/
def addDays? (d : Date) (days : Int) : Option Date := ofNumber? (d.number + days)

/-- The same day of the month `months` months later, or the last day of that month if it is
shorter. -/
def addMonths? (d : Date) (months : Int) : Option Date :=
  let index := d.monthIndex + months
  ofMonthIndex? index (min d.dayOfMonth (daysInMonth (index / 12) (index % 12).toNat))

@[simp] theorem ofNumber?_number (d : Date) : ofNumber? d.number = some d := by
  simp [ofNumber?, d.first_le, d.le_last]

theorem ofNumber?_eq_some {n : Int} {d : Date} : ofNumber? n = some d ↔ d.number = n := by
  constructor
  · intro h
    unfold ofNumber? at h
    split at h
    · cases h
      rfl
    · exact absurd h (by simp)
  · rintro rfl
    exact ofNumber?_number d

theorem dayOfYear_pos (d : Date) : 1 ≤ d.dayOfYear := by
  have h := (yearOfDay_bounds d.number).1
  unfold dayOfYear year
  omega

theorem dayOfYear_le (d : Date) : d.dayOfYear ≤ daysInYear d.year := by
  have h := (yearOfDay_bounds d.number).2
  rw [daysBeforeYear_succ] at h
  unfold dayOfYear year
  omega

theorem weekday_nonneg (d : Date) : 0 ≤ d.weekday := Int.emod_nonneg _ (by decide)

theorem weekday_lt (d : Date) : d.weekday < 7 := Int.emod_lt_of_pos _ (by decide)

end Date

end Recurrence
