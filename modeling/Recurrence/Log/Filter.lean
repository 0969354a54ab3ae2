import Recurrence.Log.Directive

/-!
# Log filters

A filter is a set of directives, the most specific first, of which the first one that is about a
record decides.  A directive takes the place of an earlier one that differs from it in its limit
only.

Records can lie in spans, and what is asked of a span or of a field's value is known only where one
is open.  A filter keeps the directives with a condition on their own.  Those that ask for no more
than a field count among the others too, as that much is known of every record; as **the program
opens no spans**, they are all that such directives come to.

A filter is chosen from three sources: the flags that ask for verbosity, a filter written in the
environment variable `RUST_LOG`, and the level in the settings, applied to the program's own
targets.

## Main Definitions

* `LogFilter`, `LogFilter.ofText?`, `LogFilter.toText`, `LogFilter.enables`
* `verbosityLevel?`, `directivesFor`, `chooseFilter`
-/

namespace Recurrence

open Text

namespace LogDirective

/-- Directives with one more in its place. -/
def insertInto (d : LogDirective) : List LogDirective → List LogDirective
  | [] => [d]
  | e :: rest =>
    match order d e with
    | .eq => d :: rest
    | .gt => d :: e :: rest
    | .lt => e :: insertInto d rest

/-- Directives that are given in turn, the most specific first. -/
def arrange (directives : List LogDirective) : List LogDirective :=
  directives.foldl (fun arranged d => insertInto d arranged) []

/-- Can a directive decide about a record that lies in no span? -/
def isPlain (d : LogDirective) : Bool :=
  d.span.isNone && d.field.all fun field => field.value.isNone

end LogDirective

/-- Directives in order. -/
structure LogFilter where
  /-- Those that decide about a record as it is. -/
  plain : List LogDirective
  /-- Those with a condition. -/
  conditional : List LogDirective

namespace LogFilter

/-- The filter of directives that are given in turn.  Without any, nothing is logged. -/
def ofDirectives (directives : List LogDirective) : LogFilter :=
  let conditional := directives.filter LogDirective.isConditional
  let plain := (directives.filter fun d => !d.isConditional) ++
    conditional.filter LogDirective.isPlain
  ⟨LogDirective.arrange plain, LogDirective.arrange conditional⟩

/-- The filter written as directives with commas between them, if all of them are directives. -/
def ofText? (s : String) : Option LogFilter :=
  (((splitAll ',' s.toList).filter fun part => !part.isEmpty).mapM LogDirective.ofText?).map
    ofDirectives

/-- A filter as it is printed. -/
def toText (filter : LogFilter) : String :=
  ",".intercalate ((filter.plain ++ filter.conditional).map LogDirective.toText)

/-- Is a record of a target and a level that tells these fields logged? -/
def enables (filter : LogFilter) (target : String) (fields : List String) (level : LogLevel) :
    Bool :=
  (filter.plain.find? fun d => d.rules target fields).any fun d => d.limit.admits level

end LogFilter

/-- The level that a number of verbosity flags asks for. -/
def verbosityLevel? : Nat → Option LogLevel
  | 0 => none
  | 1 => some .info
  | 2 => some .debug
  | _ => some .trace

/-- The program's own targets. -/
def ownTargets : List String := ["cadence", "cadence_app", "cadence_core", "cadence_rule"]

/-- The directives that apply a level, as it is written, to the program's own targets. -/
def directivesFor (level : String) : String :=
  ",".intercalate (ownTargets.map fun target => target ++ "=" ++ level)

/-- The filter that applies a level to the program's own targets. -/
def ownFilter (level : LogLevel) : LogFilter :=
  LogFilter.ofDirectives
    (ownTargets.map fun target => { target := some target, limit := some level })

/-- The filter that is used: the one the flags ask for, else the one that is written, if it is
well formed, else the one of the configured level, and warnings if that is no level. -/
def chooseFilter (verbosity : Nat) (written : Option String) (configured : String) : LogFilter :=
  match verbosityLevel? verbosity with
  | some level => ownFilter level
  | none =>
    ((written.bind LogFilter.ofText?).or (LogFilter.ofText? (directivesFor configured))).getD
      (ownFilter .warn)

end Recurrence
