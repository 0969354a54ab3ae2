import Recurrence.Calendar.Instant
import Recurrence.Period.Basic

/-!
# Fields of an instant

The value of each period at an instant.  Centuries count from 1: the first one has the years 1 to
100.  Decades count from the years that ten divides.  Quarters and months count from 0, as hours,
minutes, seconds and milliseconds do; weekdays count from Sunday; days of a month and of a year
count from 1, and the last day of a month is its first from the end.

## Main Definitions

* `Period.valueAt`: the value of a period at an instant
-/

namespace Recurrence

/-- The century of a year.  The years 1 to 100 are in century 1. -/
def centuryOf (year : Int) : Int := (year + 99) / 100

/-- The decade of a year.  The years 0 to 9 are in decade 0. -/
def decadeOf (year : Int) : Int := year / 10

/-- The number of days from a date to the end of its month, counting both. -/
def Date.dayOfMonthFromEnd (d : Date) : Int := daysInMonth d.year d.month - d.dayOfMonth + 1

/-- The value of a period at an instant. -/
def Period.valueAt (p : Period) (o : CalendarOptions) (t : Instant) : Int :=
  match p with
  | .century => centuryOf t.date.year
  | .decade => decadeOf t.date.year
  | .year => t.date.year
  | .quarter => (t.date.month / 3 : Nat)
  | .month => t.date.month
  | .week scope numbering => scope.weekOf t.date numbering o
  | .dayOfYear => t.date.dayOfYear
  | .dayOfWeek => t.date.weekday
  | .dayOfMonth => t.date.dayOfMonth
  | .dayOfMonthFromEnd => t.date.dayOfMonthFromEnd
  | .hour => t.time.hour
  | .minute => t.time.minute
  | .second => t.time.second
  | .millisecond => t.time.millisecond

end Recurrence
