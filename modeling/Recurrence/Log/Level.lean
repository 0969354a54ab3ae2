import Recurrence.Text.Number

/-!
# Log levels

A log record has a level, from errors to traces, and a limit lets through the records up to a level
or none at all.  Limits are written by name, in any case, or by number, which counts from 0 for no
records.

## Main Definitions

* `LogLevel`: a level, with its name and its place
* `LogLimit`: the most verbose level that is logged, if any is
* `LogLimit.ofText?`, `LogLimit.toText`
-/

namespace Recurrence

open Text

/-- The levels of log records, the most serious first. -/
inductive LogLevel where
  | error
  | warn
  | info
  | debug
  | trace
deriving DecidableEq, Repr

namespace LogLevel

/-- The levels in order, the most serious first. -/
def all : List LogLevel := [.error, .warn, .info, .debug, .trace]

/-- The place of a level, from 1. -/
def rank : LogLevel → Nat
  | error => 1
  | warn => 2
  | info => 3
  | debug => 4
  | trace => 5

/-- The name of a level in a filter. -/
def name : LogLevel → String
  | error => "error"
  | warn => "warn"
  | info => "info"
  | debug => "debug"
  | trace => "trace"

/-- The name of a level in a record. -/
def label : LogLevel → String
  | error => "ERROR"
  | warn => "WARN"
  | info => "INFO"
  | debug => "DEBUG"
  | trace => "TRACE"

end LogLevel

/-- The most verbose level that is logged.  `none` turns logging off. -/
abbrev LogLimit := Option LogLevel

namespace LogLimit

/-- A limit as it is printed. -/
def toText : LogLimit → String
  | some level => level.name
  | none => "off"

/-- Is a record of this level logged? -/
def admits (limit : LogLimit) (level : LogLevel) : Bool :=
  limit.any fun most => level.rank ≤ most.rank

/-- The limit with a name, in any case, or with a number from 0 to 5. -/
def ofText? (s : List Char) : Option LogLimit :=
  match uint64? s with
  | some n => if n = 0 then some none else (LogLevel.all.find? fun l => l.rank = n).map some
  | none =>
    let lower := s.map Char.toLower
    if lower = "off".toList then some none
    else (LogLevel.all.find? fun l => l.name.toList = lower).map some

end LogLimit

end Recurrence
