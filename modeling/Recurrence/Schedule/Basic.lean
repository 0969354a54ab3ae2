import Recurrence.Pattern.Basic

/-!
# Schedules

A schedule has patterns that include instants and patterns that exclude them.  An instant occurs on
it when some pattern of the first kind covers it and none of the second kind does.

## Main Definitions

* `ScheduleInput`: the rules of a schedule
* `Schedule`, `Schedule.compile`
* `Schedule.includes`, `Schedule.excludes`, `Schedule.occurs`
-/

namespace Recurrence

/-- The rules of a schedule. -/
structure ScheduleInput where
  /-- The rules for what is included. -/
  on : List PatternInput
  /-- The rules for what is excluded. -/
  off : List PatternInput := []

/-- A union of patterns less another one. -/
structure Schedule where
  included : List Pattern
  excluded : List Pattern
deriving DecidableEq

namespace Schedule

/-- Compiles the rules of a schedule, those for what is included first.  The first rule that does
not compile is reported. -/
def compile (input : ScheduleInput) (options : CalendarOptions) : Except FieldError Schedule := do
  let included ← input.on.mapM fun rule => Pattern.compile rule options
  let excluded ← input.off.mapM fun rule => Pattern.compile rule options
  return ⟨included, excluded⟩

/-- Does some pattern include `t`? -/
def includes (s : Schedule) (t : Instant) : Bool := s.included.any fun p => p.covers t

/-- Does some pattern exclude `t`? -/
def excludes (s : Schedule) (t : Instant) : Bool := s.excluded.any fun p => p.covers t

/-- Is `t` included and not excluded? -/
def occurs (s : Schedule) (t : Instant) : Bool := s.includes t && !s.excludes t

end Schedule

end Recurrence
