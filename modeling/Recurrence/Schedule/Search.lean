import Recurrence.Pattern.Search
import Recurrence.Schedule.Basic

/-!
# Searching a schedule

`Schedule.next` looks for the first instant after a given one that occurs on a schedule.  It goes in
**rounds**: a round moves to the earliest next instant of a pattern that includes, and from there
past the patterns that exclude it, by **hops** to the end of one exclusion after the other.  A
budget bounds the rounds, the hops of a round, and each search of a pattern.

The occurrences of a schedule form a stream that ends at the first search without a result.

## Main Definitions

* `Schedule.earliestInclude?`, `Schedule.skipExcluded`: the two halves of a round
* `Schedule.next`
* `Occurrences`: the stream, with `Occurrences.take` and `Occurrences.answers`
-/

namespace Recurrence

namespace Schedule

/-- The earliest of the next instants of the patterns that include. -/
def earliestInclude? (s : Schedule) (t : Instant) (budget : Nat) : Option Instant :=
  (s.included.filterMap fun p => p.next t budget).min?

/-- The first of the patterns that exclude `t`. -/
def excluder? (s : Schedule) (t : Instant) : Option Pattern := s.excluded.find? fun p => p.covers t

/-- At most `hops` hops from `t`, each to the end of the first pattern that excludes the instant
reached. -/
def hop (s : Schedule) (budget : Nat) : Nat → Instant → Option Instant
  | 0, t => some t
  | hops + 1, t =>
    match s.excluder? t with
    | none => some t
    | some p =>
      match p.after t budget with
      | none => none
      | some t' => hop s budget hops t'

/-- The first instant at or after `t` that no pattern excludes, as far as the budget leads. -/
def skipExcluded (s : Schedule) (t : Instant) (budget : Nat) : Option Instant :=
  s.hop budget (budget + 1) t

/-- One round: the earliest included instant after `t`, past the exclusions. -/
def round? (s : Schedule) (t : Instant) (budget : Nat) : Option Instant :=
  (s.earliestInclude? t budget).bind fun t' => s.skipExcluded t' budget

/-- At most `rounds` rounds from `t`, until the instant reached occurs. -/
def search (s : Schedule) (budget : Nat) : Nat → Instant → Option Instant
  | 0, _ => none
  | rounds + 1, t =>
    match s.round? t budget with
    | none => none
    | some t' => if s.occurs t' then some t' else search s budget rounds t'

/-- The first instant after `t` that occurs on the schedule, if the budget suffices to find it. -/
def next (s : Schedule) (t : Instant) (budget : Nat) : Option Instant :=
  s.search budget (budget + 1) t

end Schedule

/-- The stream of the occurrences of a schedule after an instant. -/
structure Occurrences where
  schedule : Schedule
  /-- The last occurrence given, at first the start.  There is none once a search has failed. -/
  cursor : Option Instant
  budget : Nat

/-- The occurrences of a schedule after `start`. -/
def Schedule.occurrences (s : Schedule) (start : Instant) (budget : Nat) : Occurrences :=
  ⟨s, some start, budget⟩

namespace Occurrences

/-- The next occurrence of the stream. -/
def next? (o : Occurrences) : Option Instant := o.cursor.bind fun t => o.schedule.next t o.budget

/-- The stream after an answer was given. -/
def advance (o : Occurrences) (answer : Option Instant) : Occurrences := { o with cursor := answer }

/-- The answers to the first `count` requests. -/
def answers : Nat → Occurrences → List (Option Instant)
  | 0, _ => []
  | count + 1, o =>
    let answer := o.next?
    answer :: answers count (o.advance answer)

/-- The occurrences of the stream, up to `count` of them. -/
def take : Nat → Occurrences → List Instant
  | 0, _ => []
  | count + 1, o =>
    match o.next? with
    | none => []
    | some t => t :: take count (o.advance (some t))

end Occurrences

end Recurrence
