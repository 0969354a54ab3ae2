import Recurrence.Calendar.Instant
import Recurrence.Text.Blank
import Recurrence.Text.Decimal

/-!
# Instants read

A **layout** is a sequence of items: numbers for the parts of an instant, characters that have to
stand where they stand, and gaps for blanks.  Reading goes through the items and takes each from the
front of the text.  The items check the range of their own number; whether the parts make up a day
of the calendar is checked when all of the text is read.

A number takes as many digits as its item allows, one at least, after any blanks.  Only a year has a
sign, and only with a sign has it more than four digits.  Second 60 is the leap second at the end of
second 59.  A fraction has up to nine digits that count; more are read over.

An instant may be written with seconds or without, with a `T` or blanks in the middle, or as a bare
date, which means midnight.  The layouts are tried in turn; a text that fits none has the fault that
the last one, the bare date, finds in it.

## Main Definitions

* `LayoutItem`, `InstantParts`, `InstantError`
* `readNumber`, `LayoutItem.read`, `readItems`: the readers
* `Instant.ofText`
-/

namespace Recurrence

/-- Why a text is no instant. -/
inductive InstantError where
  /-- Another character is needed here. -/
  | invalid
  /-- The text ends too early. -/
  | tooShort
  /-- The text goes on after the last item. -/
  | tooLong
  /-- A number is out of its range, or there is no such date. -/
  | outOfRange
deriving DecidableEq, Repr

/-- The error as it is reported. -/
def InstantError.message : InstantError → String
  | .invalid => "input contains invalid characters"
  | .tooShort => "premature end of input"
  | .tooLong => "trailing input"
  | .outOfRange => "input is out of range"

/-- The items of a layout. -/
inductive LayoutItem where
  | year
  | month
  | day
  | hour
  | minute
  | second
  /-- A point and digits, or nothing. -/
  | fraction
  /-- This character. -/
  | literal (c : Char)
  /-- Any number of blanks. -/
  | gap
deriving DecidableEq, Repr

/-- The parts of an instant as they are written, the month counted from 1.  Parts that a layout does
not have are those of midnight. -/
structure InstantParts where
  year : Int := 0
  month : Nat := 1
  day : Nat := 1
  hour : Nat := 0
  minute : Nat := 0
  /-- The second, 60 for a leap second. -/
  second : Nat := 0
  nano : Nat := 0
deriving DecidableEq, Repr

/-- The instant with these parts, if there is one. -/
def InstantParts.instant? (parts : InstantParts) : Option Instant := do
  let date ← Date.ofCivil? parts.year (parts.month - 1) parts.day
  let time ←
    if parts.second = 60 then
      TimeOfDay.ofParts? parts.hour parts.minute 59 (nanosPerSecond + parts.nano)
    else TimeOfDay.ofParts? parts.hour parts.minute parts.second parts.nano
  return ⟨date, time⟩

/-- The digits at the front of a text, at most `limit` of them, and what follows. -/
def takeDigits : Nat → List Char → List Char × List Char
  | 0, s => ([], s)
  | _ + 1, [] => ([], [])
  | limit + 1, c :: s =>
    if Text.isDigit c then
      let taken := takeDigits limit s
      (c :: taken.1, taken.2)
    else ([], c :: s)

/-- A number of at least one and at most `limit` digits, and what follows. -/
def readNumber (limit : Nat) (s : List Char) : Except InstantError (List Char × Nat × List Char) :=
  let taken := takeDigits limit s
  match Text.natural? taken.1 with
  | some n => .ok (taken.1, n, taken.2)
  | none => .error (if s = [] then .tooShort else .invalid)

/-- A number after any blanks, within its range. -/
def readBounded (low high : Nat) (s : List Char) : Except InstantError (Nat × List Char) := do
  let (_, n, rest) ← readNumber 2 (Text.trimLeft s)
  if low ≤ n ∧ n ≤ high then .ok (n, rest) else .error .outOfRange

/-- A year after any blanks: up to four digits, or a sign and any number of them. -/
def readYear (s : List Char) : Except InstantError (Int × List Char) := do
  let (n, rest) ← (match Text.trimLeft s with
    | '-' :: s => (readNumber s.length s).map fun r => (-(r.2.1 : Int), r.2.2)
    | '+' :: s => (readNumber s.length s).map fun r => ((r.2.1 : Int), r.2.2)
    | s => (readNumber 4 s).map fun r => ((r.2.1 : Int), r.2.2))
  if InValueRange n then .ok (n, rest) else .error .outOfRange

/-- The nanoseconds of a fraction of a second: a point and at least one digit, or nothing. -/
def readFraction : List Char → Except InstantError (Nat × List Char)
  | '.' :: s => do
    let (digits, n, rest) ← readNumber 9 s
    return (Text.withZeros n (9 - digits.length), rest.dropWhile Text.isDigit)
  | s => .ok (0, s)

/-- Takes an item from the front of a text. -/
def LayoutItem.read (item : LayoutItem) (parts : InstantParts) (s : List Char) :
    Except InstantError (InstantParts × List Char) :=
  match item with
  | .year => (readYear s).map fun r => ({ parts with year := r.1 }, r.2)
  | .month => (readBounded 1 12 s).map fun r => ({ parts with month := r.1 }, r.2)
  | .day => (readBounded 1 31 s).map fun r => ({ parts with day := r.1 }, r.2)
  | .hour => (readBounded 0 23 s).map fun r => ({ parts with hour := r.1 }, r.2)
  | .minute => (readBounded 0 59 s).map fun r => ({ parts with minute := r.1 }, r.2)
  | .second => (readBounded 0 60 s).map fun r => ({ parts with second := r.1 }, r.2)
  | .fraction => (readFraction s).map fun r => ({ parts with nano := r.1 }, r.2)
  | .literal c =>
    match s with
    | [] => .error .tooShort
    | d :: rest => if d = c then .ok (parts, rest) else .error .invalid
  | .gap => .ok (parts, Text.trimLeft s)

/-- Takes the items of a layout from the front of a text, in turn. -/
def readItems : List LayoutItem → InstantParts → List Char →
    Except InstantError (InstantParts × List Char)
  | [], parts, s => .ok (parts, s)
  | item :: items, parts, s =>
    match item.read parts s with
    | .error e => .error e
    | .ok (parts, rest) => readItems items parts rest

/-- The instant that all of a text is, in a layout. -/
def readLayout (layout : List LayoutItem) (s : List Char) : Except InstantError Instant :=
  match readItems layout {} s with
  | .error e => .error e
  | .ok (parts, rest) =>
    if rest ≠ [] then .error .tooLong
    else match parts.instant? with
      | some t => .ok t
      | none => .error .outOfRange

/-- The layout of a bare date. -/
def dateLayout : List LayoutItem :=
  [.year, .literal '-', .month, .literal '-', .day]

/-- The layouts of a date and a time, in the order in which they are tried. -/
def timeLayouts : List (List LayoutItem) :=
  [dateLayout ++ [.literal 'T', .hour, .literal ':', .minute, .literal ':', .second, .fraction],
    dateLayout ++ [.gap, .hour, .literal ':', .minute, .literal ':', .second, .fraction],
    dateLayout ++ [.literal 'T', .hour, .literal ':', .minute],
    dateLayout ++ [.gap, .hour, .literal ':', .minute]]

/-- The instant written as `text`, without the blanks around it. -/
def Instant.ofText (text : String) : Except InstantError Instant :=
  let s := Text.trim text.toList
  match timeLayouts.findSome? fun layout => (readLayout layout s).toOption with
  | some t => .ok t
  | none => readLayout dateLayout s

end Recurrence
