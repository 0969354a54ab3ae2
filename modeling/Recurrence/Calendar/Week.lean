import Recurrence.Calendar.Date
import Recurrence.Calendar.Options
import Recurrence.Value

/-!
# Week numbers

The days of a year, and those of a month, fall into weeks numbered upwards.  Everything that tells
one numbering from another is the **boundary** of the year or month: day `n` of it lies in week
`(n + boundary) / 7`, rounded down.  A numbering is thus a rule for the boundary, and the first day
of a week is found by solving for `n`.

## Main Definitions

* `weekdayOffset`: the days from the last start of a week to a date
* `WeekNumbering`, `WeekNumbering.boundary`: the three numberings
* `weekNumber`, `weekStartOrdinal`: the week of a day, and the first day of a week
* `WeekScope`: a year or a month, as the stretch that weeks are counted in
* `WeekScope.weekOf`, `WeekScope.weekStart?`: the same for dates
-/

namespace Recurrence

/-- The number of days of a week. -/
def daysPerWeek : Int := 7

/-- The days from the last start of a week to `d`, 0 when a week starts on `d`. -/
def weekdayOffset (d : Date) (weekStart : Int) : Int := (d.weekday - weekStart) % daysPerWeek

/-- A convention for the first week of a year or a month, which may be a part of a week. -/
inductive WeekNumbering where
  /-- The week with day `firstWeekDate` is week 1.  Days before it are in week 0. -/
  | majority
  /-- Week 1 is the first whole week.  Days before it are in week 0. -/
  | full
  /-- A week is a block of seven days from the first day on, whatever the weekday. -/
  | fromFirst
deriving DecidableEq, Repr

/-- The boundary of the year or month that begins on `start`. -/
def WeekNumbering.boundary (numbering : WeekNumbering) (start : Date) (o : CalendarOptions) :
    Int :=
  let offset := weekdayOffset start o.weekStart
  match numbering with
  | .majority =>
    offset - 1 + if (o.firstWeekDate : Int) - 1 + offset < daysPerWeek then daysPerWeek else 0
  | .full => offset - 1 + if offset = 0 then daysPerWeek else 0
  | .fromFirst => daysPerWeek - 1

/-- The week of day `ordinal`, counted from 1, of a year or month with this boundary. -/
def weekNumber (ordinal boundary : Int) : Int := (ordinal + boundary) / daysPerWeek

/-- The first day of week `week`, or day 1 if the week begins before it.  The arithmetic stays in
the value range. -/
def weekStartOrdinal (week boundary : Int) : Int :=
  max 1 (saturate (saturate (week * daysPerWeek) - boundary))

/-- The stretch of days that weeks are counted in. -/
inductive WeekScope where
  | year
  | month
deriving DecidableEq, Repr

namespace WeekScope

/-- The first day of the year or month of `d`. -/
def startOf : WeekScope → Date → Date
  | .year, d => (Date.ofYearDay? d.year 1).getD d
  | .month, d => (Date.ofCivil? d.year d.month 1).getD d

/-- The number of days of the year or month of `d`. -/
def length : WeekScope → Date → Int
  | .year, d => daysInYear d.year
  | .month, d => daysInMonth d.year d.month

/-- The date a year or a month after `d`.  It is the start of the following year or month if `d`
is the start of one. -/
def following? : WeekScope → Date → Option Date
  | .year, d => d.addMonths? 12
  | .month, d => d.addMonths? 1

/-- The week of `d` in its year or month. -/
def weekOf (scope : WeekScope) (d : Date) (numbering : WeekNumbering) (o : CalendarOptions) : Int :=
  let start := scope.startOf d
  weekNumber (d.number - start.number + 1) (numbering.boundary start o)

/-- The first day of week `week` in the year or month that begins on `start`, if it has such a
week. -/
def weekStart? (scope : WeekScope) (start : Date) (week : Int) (numbering : WeekNumbering)
    (o : CalendarOptions) : Option Date :=
  let boundary := numbering.boundary start o
  let ordinal := weekStartOrdinal week boundary
  if ordinal ≤ scope.length start ∧ weekNumber ordinal boundary = week then
    start.addDays? (ordinal - 1)
  else none

end WeekScope

end Recurrence
