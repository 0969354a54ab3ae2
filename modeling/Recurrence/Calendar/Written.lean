import Recurrence.Calendar.Instant
import Recurrence.Text.Decimal

/-!
# Instants written

Instants are written as results, to the millisecond with a `T` in the middle, and in log records,
with a blank in the middle and the fewest groups of three decimals that lose nothing.  Both give a
leap second the number after that of the second it prolongs, 60 at the end of a minute, and write a
year outside 0 to 9999 with its sign.

## Main Definitions

* `Date.toText`
* `Instant.toText`: an instant as a result
* `Instant.toRecordText`: an instant in a log record
* `renderLines`, `renderArray`: a list of results, one to a line or as a JSON array of strings
-/

namespace Recurrence

/-- A year in four digits at least, with its sign if it has more or is negative. -/
def yearText (year : Int) : String :=
  if year < 0 then "-" ++ Text.padded 4 year.natAbs
  else if year ≤ 9999 then Text.padded 4 year.natAbs
  else "+" ++ Text.padded 4 year.natAbs

/-- A date as year, month and day. -/
def Date.toText (d : Date) : String :=
  yearText d.year ++ "-" ++ Text.padded 2 (d.month + 1) ++ "-" ++ Text.padded 2 d.dayOfMonth.toNat

namespace TimeOfDay

/-- The number of the second as it is written, for a leap second the one after that of the second it
prolongs. -/
def writtenSecond (t : TimeOfDay) : Nat := if t.IsLeap then t.second + 1 else t.second

/-- The nanoseconds since the written second began. -/
def writtenNano (t : TimeOfDay) : Nat := t.nano % nanosPerSecond

/-- A time of day as hour, minute and second. -/
def toText (t : TimeOfDay) : String :=
  Text.padded 2 t.hour ++ ":" ++ Text.padded 2 t.minute ++ ":" ++ Text.padded 2 t.writtenSecond

/-- The decimals of a second: none, or three, six or nine digits after a point. -/
def fractionText (nano : Nat) : String :=
  if nano = 0 then ""
  else if nano % 1000000 = 0 then "." ++ Text.padded 3 (nano / 1000000)
  else if nano % 1000 = 0 then "." ++ Text.padded 6 (nano / 1000)
  else "." ++ Text.padded 9 nano

end TimeOfDay

namespace Instant

/-- An instant as a result, to the millisecond. -/
def toText (t : Instant) : String :=
  t.date.toText ++ "T" ++ t.time.toText ++ "." ++
    Text.padded 3 (t.time.writtenNano / nanosPerMilli)

/-- An instant in a log record. -/
def toRecordText (t : Instant) : String :=
  t.date.toText ++ " " ++ t.time.toText ++ TimeOfDay.fractionText t.time.writtenNano

end Instant

/-- The instants as results, one to a line. -/
def renderLines (instants : List Instant) : String :=
  "\n".intercalate (instants.map Instant.toText)

/-- The instants as results in a JSON array, one to a line.  Nothing in a result has to be
escaped. -/
def renderArray (instants : List Instant) : String :=
  if instants.isEmpty then "[]"
  else
    "[\n" ++ ",\n".intercalate (instants.map fun t => "  \"" ++ t.toText ++ "\"") ++ "\n]"

end Recurrence
