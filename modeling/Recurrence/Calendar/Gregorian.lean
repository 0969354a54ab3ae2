/-!
# The Gregorian rule

Leap years and month lengths of the proleptic Gregorian calendar, with a year 0, and the days that
precede a year or a month.  Days are counted from the first day of year 0, which has number 0.
Months are counted from 0.

The functions of a year repeat every 400 years, after `daysIn400Years` days.

## Main Definitions

* `isLeapYear`, `daysInYear`, `daysInMonth`
* `daysBeforeYear`: the number of the first day of a year
* `daysBeforeMonth`: the days of a year before one of its months
* `yearOfDay`, `monthOfDay`: the year and the month that hold a day
-/

namespace Recurrence

/-- A year is a leap year if 400 divides it, or if 4 does and 100 does not. -/
def isLeapYear (year : Int) : Bool := year % 400 = 0 || (year % 4 = 0 && year % 100 ≠ 0)

/-- The number of days of a year. -/
def daysInYear (year : Int) : Nat := if isLeapYear year then 366 else 365

/-- The number of days of the month `month` of `year`, counted from 0.  A number above 11 names no
month and has 31 days. -/
def daysInMonth (year : Int) (month : Nat) : Nat :=
  match month with
  | 1 => if isLeapYear year then 29 else 28
  | 3 | 5 | 8 | 10 => 30
  | _ => 31

/-- The number of days from the first day of year 0 to the first day of `year`: 365 for each year,
and one for each leap year on the way. -/
def daysBeforeYear (year : Int) : Int :=
  365 * year + (year + 3) / 4 - (year + 99) / 100 + (year + 399) / 400

/-- The number of days of `year` before its month `month`. -/
def daysBeforeMonth (year : Int) : Nat → Nat
  | 0 => 0
  | month + 1 => daysBeforeMonth year month + daysInMonth year month

/-- The number of days after which the calendar repeats. -/
def daysIn400Years : Int := 146097

/-- The year that holds the day with number `day`.  The average length of a year gives a year that
is right or one too early. -/
def yearOfDay (day : Int) : Int :=
  let cycle := day / daysIn400Years
  let guess := 400 * cycle + 400 * (day % daysIn400Years) / daysIn400Years
  if day < daysBeforeYear guess then guess - 1
  else if daysBeforeYear (guess + 1) ≤ day then guess + 1
  else guess

/-- The last of the months `0 … last` of `year` that has begun on the day with `elapsed` days of
the year before it. -/
def lastMonthBegun (year : Int) (elapsed : Nat) : Nat → Nat
  | 0 => 0
  | last + 1 =>
    if daysBeforeMonth year (last + 1) ≤ elapsed then last + 1
    else lastMonthBegun year elapsed last

/-- The month of `year` that holds the day with `elapsed` days of the year before it. -/
def monthOfDay (year : Int) (elapsed : Nat) : Nat := lastMonthBegun year elapsed 11

theorem daysBeforeYear_succ (year : Int) :
    daysBeforeYear (year + 1) = daysBeforeYear year + daysInYear year := by
  by_cases h : isLeapYear year = true
  · simp only [daysInYear, h, if_true]
    simp [isLeapYear] at h
    unfold daysBeforeYear
    omega
  · simp only [daysInYear, h]
    simp [isLeapYear] at h
    unfold daysBeforeYear
    simp
    omega

theorem daysBeforeYear_add_400 (year : Int) :
    daysBeforeYear (year + 400) = daysBeforeYear year + daysIn400Years := by
  unfold daysBeforeYear daysIn400Years
  omega

/-- The first day of a year is never two days away from where the average length of a year puts
it. -/
theorem daysBeforeYear_near (year : Int) :
    daysIn400Years * year - 396 ≤ 400 * daysBeforeYear year ∧
      400 * daysBeforeYear year ≤ daysIn400Years * year + 699 := by
  unfold daysBeforeYear daysIn400Years
  omega

/-- A day lies in its year. -/
theorem yearOfDay_bounds (day : Int) :
    daysBeforeYear (yearOfDay day) ≤ day ∧ day < daysBeforeYear (yearOfDay day + 1) := by
  unfold yearOfDay
  simp only
  generalize hg : 400 * (day / daysIn400Years) +
    400 * (day % daysIn400Years) / daysIn400Years = guess
  have hlow : daysIn400Years * guess ≤ 400 * day := by
    unfold daysIn400Years at *
    omega
  have hhigh : 400 * day < daysIn400Years * (guess + 1) := by
    unfold daysIn400Years at *
    omega
  have hbefore := daysBeforeYear_near (guess - 1)
  have hafter := daysBeforeYear_near (guess + 1 + 1)
  unfold daysIn400Years at *
  split
  · rw [Int.sub_add_cancel]
    omega
  · split <;> omega

theorem daysBeforeMonth_twelve (year : Int) : daysBeforeMonth year 12 = daysInYear year := by
  by_cases h : isLeapYear year = true <;> simp [daysBeforeMonth, daysInMonth, daysInYear, h]

end Recurrence
