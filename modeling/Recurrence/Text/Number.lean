import Recurrence.Text.Decimal

/-!
# Whole numbers of 64 bits

Numbers on the command line and in settings are whole numbers of 64 bits, signed or not, in decimal
digits.

## Main Definitions

* `IsInt64`, `maxSize`: the ranges
* `int64?`, `uint64?`: the numbers read, `none` if the text is not one
-/

namespace Recurrence.Text

/-- The greatest unsigned 64-bit integer. -/
def maxSize : Nat := 18446744073709551615

/-- Is this a signed 64-bit integer? -/
def IsInt64 (n : Int) : Prop := -9223372036854775808 ≤ n ∧ n ≤ 9223372036854775807

instance (n : Int) : Decidable (IsInt64 n) :=
  inferInstanceAs (Decidable (-9223372036854775808 ≤ n ∧ n ≤ 9223372036854775807))

/-- A signed 64-bit integer. -/
def int64? (s : List Char) : Option Int :=
  (integer? s).bind fun n => if IsInt64 n then some n else none

/-- An unsigned 64-bit integer, which may have a plus sign. -/
def uint64? (s : List Char) : Option Nat :=
  (match s with
    | '+' :: digits => natural? digits
    | digits => natural? digits).bind fun n => if n ≤ maxSize then some n else none

end Recurrence.Text
