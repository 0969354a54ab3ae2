import Recurrence.Settings.Toml.Moment
import Recurrence.Settings.Toml.Text
import Recurrence.Settings.Value

/-!
# Words of TOML documents

A value without quotes and without structure is a word: a flag, a date or time, or a number.  In a
number an underscore may stand between two digits, and no zero stands in front of another digit.
An integer has 64 bits; a number with decimals or an exponent is a double, and one that is too great
for a double is none.

A date or time becomes a text.

## Main Definitions

* `readInteger?`, `readNumber?`
* `readScalar?`: a word as a value
-/

namespace Recurrence.Toml

open Text

/-- Digits in which an underscore may stand between each two. -/
def joinDigits? (isDigit : Char → Bool) (s : List Char) : Option (List Char) :=
  let parts := splitAll '_' s
  if parts.all fun part => !part.isEmpty && part.all isDigit then some parts.flatten else none

/-- A decimal integer: no zero stands in front of another digit. -/
def decimalDigits? (s : List Char) : Option (List Char) :=
  (joinDigits? isDigit s).bind fun digits =>
    if digits.length ≤ 1 ∨ digits.head? ≠ some '0' then some digits else none

/-- The value of a digit of a base. -/
def digitOf? (base : Nat) (c : Char) : Option Nat :=
  (hexValue? c).bind fun n => if n < base then some n else none

/-- An integer in another base, after the letter that names the base. -/
def inOtherBase? (base : Nat) (s : List Char) : Option Int :=
  (joinDigits? (fun c => (digitOf? base c).isSome) s).bind fun digits =>
    (inBase? (digitOf? base) base digits).map fun n => (n : Int)

/-- A 64-bit integer. -/
def readInteger? (s : List Char) : Option SettingValue :=
  let value := match s with
    | '0' :: 'x' :: digits => inOtherBase? 16 digits
    | '0' :: 'o' :: digits => inOtherBase? 8 digits
    | '0' :: 'b' :: digits => inOtherBase? 2 digits
    | '-' :: digits => (decimalDigits? digits).bind fun d => integer? ('-' :: d)
    | '+' :: digits => (decimalDigits? digits).bind integer?
    | digits => (decimalDigits? digits).bind integer?
  value.bind fun n => if Text.IsInt64 n then some (.integer n) else none

/-- The exponent of a number: nothing, or a letter, a sign if need be, and digits. -/
def exponentPart? : List Char → Option (List Char)
  | [] => some []
  | c :: s =>
    if c = 'e' ∨ c = 'E' then
      match s with
      | '-' :: digits => (joinDigits? isDigit digits).map fun d => 'e' :: '-' :: d
      | '+' :: digits => (joinDigits? isDigit digits).map fun d => 'e' :: d
      | digits => (joinDigits? isDigit digits).map fun d => 'e' :: d
    else none

/-- A number with decimals or an exponent or both, without its sign. -/
def unsignedNumber? (s : List Char) : Option (List Char) := do
  let isPart := fun c : Char => isDigit c || c == '_'
  let whole ← decimalDigits? (s.takeWhile isPart)
  match s.dropWhile isPart with
  | [] => none
  | '.' :: rest =>
    let decimals ← joinDigits? isDigit (rest.takeWhile isPart)
    let exponent ← exponentPart? (rest.dropWhile isPart)
    return whole ++ '.' :: decimals ++ exponent
  | rest =>
    let exponent ← exponentPart? rest
    return whole ++ exponent

/-- A number with decimals or an exponent that is not too great for a double. -/
def readFinite? (negative : Bool) (s : List Char) : Option Double :=
  ((unsignedNumber? s).bind (Double.unsigned? negative)).filter fun n => !n.isInfinite

/-- A number with decimals or an exponent, an infinite one, or none. -/
def readNumber? (s : List Char) : Option SettingValue :=
  let (negative, body) := match s with
    | '-' :: body => (true, body)
    | '+' :: body => (false, body)
    | body => (false, body)
  let number :=
    if body = "inf".toList then some (Double.infinite negative)
    else if body = "nan".toList then some .notANumber
    else readFinite? negative body
  number.map .number

/-- May `c` stand in a value without quotes? -/
def isWordChar (c : Char) : Bool := c.isAlphanum || c == '_' || c == '-' || c == '+' ||
  c == '.' || c == ':'

/-- The word at the front of a text.  One blank may stand between a date and a time. -/
def readWord (s : List Char) : List Char × List Char :=
  let word := s.takeWhile isWordChar
  let rest := s.dropWhile isWordChar
  match rest with
  | ' ' :: time =>
    let joined := word ++ ' ' :: time.takeWhile isWordChar
    if (readDay? word).isSome && (Moment.ofText? joined).isSome then
      (joined, time.dropWhile isWordChar)
    else (word, rest)
  | _ => (word, rest)

/-- A value that is neither quoted nor has a structure. -/
def readScalar? (s : List Char) : Option (SettingValue × List Char) :=
  let (word, rest) := readWord s
  let value :=
    if word = "true".toList then some (.flag true)
    else if word = "false".toList then some (.flag false)
    else match Moment.ofText? word with
      | some moment => some (.text moment.toText)
      | none => (readInteger? word).or (readNumber? word)
  value.map fun v => (v, rest)

end Recurrence.Toml
