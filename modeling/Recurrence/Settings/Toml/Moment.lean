import Recurrence.Calendar.Gregorian
import Recurrence.Text.Decimal
import Recurrence.Text.Split

/-!
# Dates and times of TOML documents

A date, a time of day, or a date with a time of day and perhaps an offset from universal time.  A
date has to be a day of the Gregorian calendar; a time may leave out its seconds, and may have the
second 60.  A `T`, in either case, or one blank stands between a date and a time.

What is read is written again in one form: with a `T`, with decimals of the second up to the last
one that is not zero, nine at most, and with the offset as `Z` or in hours and minutes.

## Main Definitions

* `Day`, `Clock`, `Offset`, `Moment`
* `Moment.ofText?`, `Moment.toText`
-/

namespace Recurrence.Toml

open Text

/-- A day of a year with four digits, the month counted from 1. -/
structure Day where
  year : Nat
  month : Nat
  day : Nat
deriving DecidableEq, Repr

/-- A time of day as it is written. -/
structure Clock where
  hour : Nat
  minute : Nat
  second : Option Nat
  /-- The decimals of the second, in nanoseconds. -/
  nano : Option Nat
deriving DecidableEq, Repr

/-- An offset from universal time. -/
inductive Offset where
  /-- None. -/
  | zero
  /-- Minutes to the east. -/
  | minutes (east : Int)
deriving DecidableEq, Repr

/-- A date, a time of day, or both. -/
inductive Moment where
  | day (d : Day)
  | clock (c : Clock)
  | both (d : Day) (c : Clock) (offset : Option Offset)
deriving DecidableEq, Repr

/-- Exactly `width` digits as a number from `low` to `high`. -/
def field? (width low high : Nat) (s : List Char) : Option Nat :=
  if s.length = width then (natural? s).filter fun n => low ≤ n && n ≤ high else none

/-- A day of the calendar, as year, month and day. -/
def readDay? (s : List Char) : Option Day :=
  match splitAll '-' s with
  | [year, month, day] => do
    let year ← field? 4 0 9999 year
    let month ← field? 2 1 12 month
    let day ← field? 2 1 (daysInMonth year (month - 1)) day
    return ⟨year, month, day⟩
  | _ => none

/-- The decimals of a second, in nanoseconds.  Those after the ninth do not count. -/
def readDecimals? (s : List Char) : Option Nat :=
  let shown := s.take 9
  if s.all isDigit then (natural? shown).map fun n => withZeros n (9 - shown.length) else none

/-- A time of day, with or without seconds and decimals. -/
def readClock? (s : List Char) : Option Clock :=
  let (whole, decimals) := match cut? '.' s with
    | some (whole, decimals) => (whole, some decimals)
    | none => (s, none)
  match splitAll ':' whole, decimals with
  | [hour, minute], none => do
    return ⟨← field? 2 0 23 hour, ← field? 2 0 59 minute, none, none⟩
  | [hour, minute, second], none => do
    return ⟨← field? 2 0 23 hour, ← field? 2 0 59 minute, some (← field? 2 0 60 second), none⟩
  | [hour, minute, second], some decimals => do
    return ⟨← field? 2 0 23 hour, ← field? 2 0 59 minute, some (← field? 2 0 60 second),
      some (← readDecimals? decimals)⟩
  | _, _ => none

/-- An offset from universal time, after its sign. -/
def readOffset? (sign : Int) (s : List Char) : Option Offset :=
  match splitAll ':' s with
  | [hour, minute] => do
    let hour ← field? 2 0 23 hour
    let minute ← field? 2 0 59 minute
    return .minutes (sign * (60 * hour + minute))
  | _ => none

/-- A time of day, with or without an offset. -/
def readClockAndOffset? (s : List Char) : Option (Clock × Option Offset) :=
  if s.getLast? = some 'Z' ∨ s.getLast? = some 'z' then
    (readClock? s.dropLast).map fun c => (c, some .zero)
  else match cut? '+' s, cut? '-' s with
    | some (time, offset), _ => do return (← readClock? time, some (← readOffset? 1 offset))
    | none, some (time, offset) => do return (← readClock? time, some (← readOffset? (-1) offset))
    | none, none => (readClock? s).map fun c => (c, none)

namespace Moment

/-- The number of characters of a date. -/
def dayWidth : Nat := 10

/-- A date, a time of day, or both. -/
def ofText? (s : List Char) : Option Moment :=
  match readDay? s, readClock? s, s.drop dayWidth with
  | some d, _, _ => some (.day d)
  | none, some c, _ => some (.clock c)
  | none, none, mark :: time =>
    if mark = 'T' ∨ mark = 't' ∨ mark = ' ' then do
      let d ← readDay? (s.take dayWidth)
      let (c, offset) ← readClockAndOffset? time
      return .both d c offset
    else none
  | none, none, [] => none

end Moment

/-- A date as year, month and day. -/
def Day.toText (d : Day) : String :=
  padded 4 d.year ++ "-" ++ padded 2 d.month ++ "-" ++ padded 2 d.day

/-- Decimals of a second up to the last one that is not zero, or one. -/
def decimalsText (nano : Nat) : String :=
  match (padded 9 nano).toList.reverse.dropWhile fun c => c = '0' with
  | [] => "0"
  | shown => String.ofList shown.reverse

/-- A time of day, as far as it is written. -/
def Clock.toText (c : Clock) : String :=
  padded 2 c.hour ++ ":" ++ padded 2 c.minute ++
    ((c.second.map fun s => ":" ++ padded 2 s).getD "") ++
    ((c.nano.map fun n => "." ++ decimalsText n).getD "")

/-- An offset, in hours and minutes with a sign. -/
def Offset.toText : Offset → String
  | .zero => "Z"
  | .minutes east =>
    (if east < 0 then "-" else "+") ++ padded 2 (east.natAbs / 60) ++ ":" ++
      padded 2 (east.natAbs % 60)

/-- A date, a time of day, or both, in the form that all of them are written in. -/
def Moment.toText : Moment → String
  | .day d => d.toText
  | .clock c => c.toText
  | .both d c offset =>
    d.toText ++ "T" ++ c.toText ++ ((offset.map Offset.toText).getD "")

end Recurrence.Toml
