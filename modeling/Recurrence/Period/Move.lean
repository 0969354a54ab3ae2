import Recurrence.Period.Field

/-!
# Moves

`Period.moveTo` takes an instant to a start of a given value of a period, with everything finer at
its least.

A period that comes round in cycles always moves forward: to the value in the current cycle if it
is still ahead, and else to the next cycle that has it.  Which cycles have a value is plain for the
time of day, for weekdays, months and quarters, where a value outside the cycle is taken modulo its
length.  A day or a week number may be missing from a month or a year, so the following ones are
searched up to a **horizon** long enough for every value that occurs again.  The century, the decade
and the year move to the start of the value wherever it is.

A time of day moves on from its **floor**, the time that is formed from its parts down to the unit in
question.  That there is one is not a matter of course: the whole milliseconds of a leap second that
does not end a minute form no time.

An instant stays where it is when the calendar ends before the move does, and when its floor is no
time.

## Main Definitions

* `cyclicDistance`: the way forward on a cycle
* `Scan`, `scanFollowing`: the search through the following stretches of days
* `advanceToDay`, `advanceToYearDay`: moves to a day that not every month or year has
* `Period.moveTo`
-/

namespace Recurrence

/-- The distance forward from `current` to `target` on a cycle of `cycle` values, a whole cycle
when they agree. -/
def cyclicDistance (current target cycle : Int) : Int :=
  let distance := (target - current) % cycle
  if distance = 0 then cycle else distance

/-- What the search through the following stretches of days finds. -/
inductive Scan where
  /-- The first day that is wanted. -/
  | found (day : Date)
  /-- None of the stretches within the horizon has such a day. -/
  | missing
  /-- The calendar ends before the horizon. -/
  | calendarEnd
deriving DecidableEq

/-- Looks for the first wanted day in the `horizon` stretches after the one that begins on
`start`. -/
def scanFollowing (following? dayIn? : Date → Option Date) : Nat → Date → Scan
  | 0, _ => .missing
  | horizon + 1, start =>
    match following? start with
    | none => .calendarEnd
    | some next =>
      match dayIn? next with
      | some day => .found day
      | none => scanFollowing following? dayIn? horizon next

/-- Moves to the midnight that begins `day`, or stays at `t`. -/
def startOfDayOr (t : Instant) (day : Option Date) : Instant := (day.map Instant.startOfDay).getD t

/-- The wanted day of the current stretch, if it is still ahead. -/
def dayAhead? (scope : WeekScope) (dayIn? : Date → Option Date) (d : Date) : Option Date :=
  (dayIn? (scope.startOf d)).filter fun day => d < day

/-- Moves to the wanted day of the current month or year if it is ahead, else to the first one in
the following months or years, and to the start of the following one if the horizon shows none. -/
def advanceToDay (scope : WeekScope) (horizon : Nat) (dayIn? : Date → Option Date) (t : Instant) :
    Instant :=
  match dayAhead? scope dayIn? t.date with
  | some day => Instant.startOfDay day
  | none =>
    match scanFollowing scope.following? dayIn? horizon (scope.startOf t.date) with
    | .found day => Instant.startOfDay day
    | _ => startOfDayOr t (scope.following? (scope.startOf t.date))

/-- The number of years searched for a week of the year.  Week 53 is rare. -/
def weekOfYearHorizon : Nat := 28

/-- The number of months searched for a week of the month. -/
def weekOfMonthHorizon : Nat := 24

/-- The number of months searched for a day that only the longer months have. -/
def dayOfMonthHorizon : Nat := 12

/-- The number of years searched for the day that only leap years have. -/
def dayOfYearHorizon : Nat := 8

/-- The number of years or months searched for a week. -/
def WeekScope.horizon : WeekScope → Nat
  | .year => weekOfYearHorizon
  | .month => weekOfMonthHorizon

/-- Day `value` of the year that begins on `start`. -/
def yearDayIn? (value : Int) (start : Date) : Option Date := Date.ofYearDay? start.year value

/-- Day `value` of the month that begins on `start`. -/
def monthDayIn? (value : Int) (start : Date) : Option Date :=
  Date.ofCivil? start.year start.month value

/-- Day `value` from the end of the month that begins on `start`. -/
def monthDayFromEndIn? (value : Int) (start : Date) : Option Date :=
  Date.ofCivil? start.year start.month (daysInMonth start.year start.month - value + 1)

/-- Moves to day `value` of a year.  Unlike the other moves to a day, it stays at `t` when the
calendar ends within the horizon. -/
def advanceToYearDay (value : Int) (t : Instant) : Instant :=
  match dayAhead? .year (yearDayIn? value) t.date with
  | some day => Instant.startOfDay day
  | none =>
    match scanFollowing WeekScope.year.following? (yearDayIn? value) dayOfYearHorizon
        (WeekScope.year.startOf t.date) with
    | .found day => Instant.startOfDay day
    | .missing => startOfDayOr t (Date.startOfYear? (t.date.year + 1))
    | .calendarEnd => t

/-- Moves from `floor?`, the time of `t` without what is finer than a unit, `distance` units of
`unit` milliseconds forward, or stays at `t` if there is no such time. -/
def advanceTime (t : Instant) (floor? : Option TimeOfDay) (unit distance : Int) : Instant :=
  (floor?.bind fun floor => Instant.addMillis? ⟨t.date, floor⟩ (distance * unit).toNat).getD t

/-- The first year of a century. -/
def centuryStart (century : Int) : Int := century * 100 - 99

/-- The first year of a decade. -/
def decadeStart (decade : Int) : Int := decade * 10

/-- Moves `t` to a start of the value `value` of a period. -/
def Period.moveTo (p : Period) (o : CalendarOptions) (value : Int) (t : Instant) : Instant :=
  match p with
  | .century => startOfDayOr t (Date.startOfYear? (centuryStart value))
  | .decade => startOfDayOr t (Date.startOfYear? (decadeStart value))
  | .year => startOfDayOr t (Date.startOfYear? value)
  | .quarter =>
    let quarter : Int := (t.date.month / 3 : Nat)
    startOfDayOr t (Date.ofMonthIndex?
      (12 * t.date.year + 3 * quarter + 3 * cyclicDistance quarter value 4) 1)
  | .month =>
    startOfDayOr t (Date.ofMonthIndex?
      (t.date.monthIndex + cyclicDistance t.date.month value 12) 1)
  | .week scope numbering =>
    advanceToDay scope scope.horizon (fun start => scope.weekStart? start value numbering o) t
  | .dayOfYear => advanceToYearDay value t
  | .dayOfWeek =>
    startOfDayOr t (t.date.addDays? (cyclicDistance t.date.weekday value daysPerWeek))
  | .dayOfMonth => advanceToDay .month dayOfMonthHorizon (monthDayIn? value) t
  | .dayOfMonthFromEnd => advanceToDay .month dayOfMonthHorizon (monthDayFromEndIn? value) t
  | .hour =>
    advanceTime t (TimeOfDay.ofParts? t.time.hour 0 0 0) 3600000
      (cyclicDistance t.time.hour value 24)
  | .minute =>
    advanceTime t (TimeOfDay.ofParts? t.time.hour t.time.minute 0 0) 60000
      (cyclicDistance t.time.minute value 60)
  | .second =>
    advanceTime t (TimeOfDay.ofParts? t.time.hour t.time.minute t.time.second 0) 1000
      (cyclicDistance t.time.second value 60)
  | .millisecond =>
    advanceTime t
      (TimeOfDay.ofParts? t.time.hour t.time.minute t.time.second
        (t.time.millisecond * nanosPerMilli)) 1
      (cyclicDistance t.time.millisecond value 1000)

end Recurrence
