import Recurrence.Pattern.Basic
import Recurrence.Period.Move

/-!
# Searching a pattern

`Pattern.next` looks for the first instant after a given one that a pattern covers.  A search makes
**passes** over the bound fields, the coarsest first.  A field whose value is not accepted moves to
the earliest later instant at which it has an accepted value, and every instant skipped on the way
fails that field.  `Pattern.after` looks for the first instant at or after a given one that the
pattern does not cover, by moving to the earliest later instant at which some field has a value that
is not accepted.

Fields that come round in cycles do not reach their values in numeric order: days counted from the
end of the month run backwards, and a day or a week may be missing from the coming month or year.
So each value of the domain is tried.  The century, the decade and the year only grow, and the next
accepted value is enough.

A **budget** bounds the passes of a search: budget `n` allows `n + 1` of them.

## Main Definitions

* `acceptedValues`, `rejectedValues`: the values to move to
* `earliestMove?`, `Pattern.earliestExit?`: the earliest of the moves that lead forward
* `Pattern.correct`: a pass
* `Pattern.search`, `Pattern.next`
* `Pattern.searchExit`, `Pattern.after`
-/

namespace Recurrence

/-- How many values of a century, decade or year are looked through for one that is not
accepted. -/
def exitHorizon : Nat := 1000

/-- The values accepted by a frequency that a period can move to from the value `current`. -/
def acceptedValues (p : Period) (f : Frequency) (current : Int) : List Int :=
  match p.domainValues? with
  | some values => values.filter f.accepts
  | none => [f.next current]

/-- The values not accepted by a frequency that a period can move to from the value `current`. -/
def rejectedValues (p : Period) (f : Frequency) (current : Int) : List Int :=
  if f.isAlways then []
  else match p.domainValues? with
    | some values => values.filter fun v => !f.accepts v
    | none =>
      (((List.range exitHorizon).map fun i : Nat => saturate (current + (i + 1))).find?
        fun v => !f.accepts v).toList

/-- The earliest instant after `t` to which a period moves for one of the values. -/
def earliestMove? (o : CalendarOptions) (t : Instant) (p : Period) (values : List Int) :
    Option Instant :=
  ((values.map fun v => p.moveTo o v t).filter fun c => t < c).min?

/-- The earliest instant after `t` at which a period has a value that its frequency accepts. -/
def earliestEntry? (o : CalendarOptions) (t : Instant) (p : Period) (f : Frequency) :
    Option Instant :=
  earliestMove? o t p (acceptedValues p f (p.valueAt o t))

/-- What comes of a search. -/
inductive Outcome where
  /-- The instant looked for. -/
  | found (t : Instant)
  /-- A field cannot move forward from an instant that the search has reached. -/
  | stuck (p : Period) (t : Instant)
  /-- There is no way to leave the start. -/
  | confined
  /-- The budget is used up. -/
  | exhausted
deriving DecidableEq

/-- The instant that a search has found. -/
def Outcome.instant? : Outcome → Option Instant
  | .found t => some t
  | _ => none

namespace Pattern

/-- One pass: every field that does not hold is moved to its earliest accepted value, from the
coarsest on.  A field that cannot move ends the pass, with the instant reached. -/
def correct (o : CalendarOptions) :
    List (Period × Frequency) → Instant → Except (Period × Instant) Instant
  | [], t => .ok t
  | binding :: rest, t =>
    if fieldHolds o t binding then correct o rest t
    else match earliestEntry? o t binding.1 binding.2 with
      | none => .error (binding.1, t)
      | some t' => correct o rest t'

/-- At most `passes` passes from `t`, until the pattern covers the instant reached. -/
def settle (p : Pattern) : Nat → Instant → Outcome
  | 0, t => if p.covers t then .found t else .exhausted
  | passes + 1, t =>
    if p.covers t then .found t
    else match correct p.options p.bindings.entries t with
      | .error (period, t') => .stuck period t'
      | .ok t' => settle p passes t'

/-- The smallest move from an instant that the pattern covers: the finest bound field moves to the
next start of an accepted value.  Without a bound field it is a millisecond. -/
def stepPast? (p : Pattern) (t : Instant) : Option Instant :=
  match p.bindings.entries.getLast? with
  | some (period, frequency) => earliestEntry? p.options t period frequency
  | none => t.addMillis? 1

/-- The search for the first instant after `t` that the pattern covers. -/
def search (p : Pattern) (t : Instant) (budget : Nat) : Outcome :=
  if p.covers t then
    match p.stepPast? t with
    | none => .confined
    | some t' => p.settle (budget + 1) t'
  else p.settle (budget + 1) t

/-- The first instant after `t` that the pattern covers, if the budget suffices to find it. -/
def next (p : Pattern) (t : Instant) (budget : Nat) : Option Instant :=
  (p.search t budget).instant?

/-- The earliest instant after `t` at which some bound field has a value that its frequency does
not accept. -/
def earliestExit? (p : Pattern) (t : Instant) : Option Instant :=
  (p.bindings.entries.filterMap fun binding =>
    earliestMove? p.options t binding.1
      (rejectedValues binding.1 binding.2 (binding.1.valueAt p.options t))).min?

/-- At most `moves` moves from `t`, until the pattern does not cover the instant reached. -/
def leave (p : Pattern) : Nat → Instant → Outcome
  | 0, t => if p.covers t then .exhausted else .found t
  | moves + 1, t =>
    if p.covers t then
      match p.earliestExit? t with
      | none => .confined
      | some t' => leave p moves t'
    else .found t

/-- The search for the first instant at or after `t` that the pattern does not cover. -/
def searchExit (p : Pattern) (t : Instant) (budget : Nat) : Outcome := p.leave (budget + 1) t

/-- The first instant at or after `t` that the pattern does not cover, if the budget suffices to
find it. -/
def after (p : Pattern) (t : Instant) (budget : Nat) : Option Instant :=
  (p.searchExit t budget).instant?

end Pattern

end Recurrence
