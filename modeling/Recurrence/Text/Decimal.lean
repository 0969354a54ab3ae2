import Recurrence.Value

/-!
# Decimal numbers

Decimal digits here are the ten ASCII digits.

## Main Definitions

* `digitValue?`, `natural?`: a digit and an unsigned number read, `none` if the text is not one
* `integer?`: a number with at most one sign
* `value?`: an integer of the value range
* `withZeros`: a number with zeros after its digits
* `padded`: a number printed with leading zeros up to a width
-/

namespace Recurrence.Text

/-- The value of an ASCII digit. -/
def digitValue? (c : Char) : Option Nat :=
  if '0' ≤ c ∧ c ≤ '9' then some (c.toNat - '0'.toNat) else none

/-- Is `c` an ASCII digit? -/
def isDigit (c : Char) : Bool := (digitValue? c).isSome

/-- The number whose digits continue those of `acc`. -/
def naturalFrom? (acc : Nat) : List Char → Option Nat
  | [] => some acc
  | c :: s => (digitValue? c).bind fun d => naturalFrom? (10 * acc + d) s

/-- A number written with one digit or more. -/
def natural? : List Char → Option Nat
  | [] => none
  | c :: s => naturalFrom? 0 (c :: s)

/-- A number written with one digit or more after at most one sign. -/
def integer? : List Char → Option Int
  | '-' :: s => (natural? s).map fun n => -(n : Int)
  | '+' :: s => (natural? s).map fun n => (n : Int)
  | s => (natural? s).map fun n => (n : Int)

/-- An integer of the value range, as it is written in a rule. -/
def value? (s : List Char) : Option Int :=
  (integer? s).bind fun n => if InValueRange n then some n else none

/-- The number with the digits of `n` and `zeros` zeros after them. -/
def withZeros (n : Nat) : Nat → Nat
  | 0 => n
  | zeros + 1 => 10 * withZeros n zeros

/-- The decimal digits of `n`, with zeros in front up to `width` characters. -/
def padded (width n : Nat) : String :=
  let digits := (Nat.repr n).toList
  String.ofList (List.replicate (width - digits.length) '0' ++ digits)

end Recurrence.Text
