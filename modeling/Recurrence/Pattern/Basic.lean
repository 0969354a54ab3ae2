import Recurrence.Pattern.Input
import Recurrence.Period.Field

/-!
# Patterns

A pattern is a compiled rule: a frequency for each period that the rule binds, and the calendar
options that give its week numbers a meaning.  It covers the instants whose bound fields all have a
value that their frequency accepts.  A pattern that binds nothing covers every instant.

## Main Definitions

* `Pattern`, `Pattern.covers`
* `Pattern.compileWith`, `Pattern.compile`: a pattern from a rule, with given names for values or
  with those that every rule may use
* `FieldError`: the frequency that failed
-/

namespace Recurrence

/-- A field whose frequency is none. -/
structure FieldError where
  period : Period
  cause : FrequencyError
deriving DecidableEq, Repr

/-- The error as it is reported. -/
def FieldError.message (e : FieldError) : String :=
  "Invalid frequency for " ++ e.period.name ++ ": " ++ e.cause.message

/-- Frequencies bound to periods and evaluated together. -/
structure Pattern where
  /-- The bound frequencies, in the order in which a search corrects them. -/
  bindings : Bindings Frequency
  options : CalendarOptions
deriving DecidableEq

namespace Pattern

/-- Compiles a rule, with the names that `aliases` gives for the values of each period.  The first
period whose frequency does not compile is reported. -/
def compileWith (input : PatternInput) (options : CalendarOptions) (aliases : Period → Aliases) :
    Except FieldError Pattern := do
  let compiled ← input.traverse fun p frequency =>
    (frequency.compile (aliases p)).mapError fun cause => ⟨p, cause⟩
  return ⟨compiled.byPriority, options⟩

/-- Compiles a rule, with the names that every rule may use. -/
def compile (input : PatternInput) (options : CalendarOptions) : Except FieldError Pattern :=
  compileWith input options Period.aliases

/-- The bound periods, the coarsest first. -/
def periods (p : Pattern) : List Period := p.bindings.periods

/-- Does the pattern bind nothing? -/
def isEmpty (p : Pattern) : Bool := p.bindings.isEmpty

/-- Does a frequency accept the value of its period at an instant? -/
def fieldHolds (o : CalendarOptions) (t : Instant) (binding : Period × Frequency) : Bool :=
  binding.2.accepts (binding.1.valueAt o t)

/-- Does every bound field of an instant have a value that its frequency accepts? -/
def covers (p : Pattern) (t : Instant) : Bool := p.bindings.entries.all (fieldHolds p.options t)

end Pattern

end Recurrence
