/-!
# Doubles

A double is a significand of up to 53 bits times a power of two, or infinite, or no number.  A
decimal is read as the **nearest** double; a decimal halfway between two goes to the one with the
even significand.  All of it is exact arithmetic of natural numbers.

A nonzero double has the least exponent at which its significand has no more than 53 bits, down to
`minExponent`, so that a value is written in one way.

## Main Definitions

* `Double`
* `Double.ofFraction`, `Double.ofDecimal`: the nearest double
* `Double.toNatural`: the nearest natural number up to a greatest one
* `Double.order`: the order by size
-/

namespace Recurrence

/-- A number with a sign and 53 significant bits. -/
inductive Double where
  /-- The significand times two to the power of the exponent. -/
  | finite (negative : Bool) (significand : Nat) (exponent : Int)
  | infinite (negative : Bool)
  | notANumber
deriving DecidableEq, Repr

/-- A fraction of two natural numbers. -/
structure Fraction where
  numerator : Nat
  denominator : Nat
deriving DecidableEq, Repr

/-- A fraction times `base` to the power of `k`. -/
def Fraction.scale (r : Fraction) (base : Nat) (k : Int) : Fraction :=
  if 0 ≤ k then { r with numerator := r.numerator * Nat.pow base k.natAbs }
  else { r with denominator := r.denominator * Nat.pow base k.natAbs }

/-- The whole number nearest to a fraction.  A half goes to the even one. -/
def Fraction.roundHalfEven (r : Fraction) : Nat :=
  let whole := r.numerator / r.denominator
  let rest := r.numerator % r.denominator
  if 2 * rest < r.denominator then whole
  else if r.denominator < 2 * rest then whole + 1
  else whole + whole % 2

namespace Double

/-- Every significand is less than this. -/
def significandLimit : Nat := 9007199254740992

/-- A significand has 53 bits from here on. -/
def fullSignificand : Nat := 4503599627370496

/-- The least exponent. -/
def minExponent : Int := -1074

/-- The greatest exponent. -/
def maxExponent : Int := 971

/-- Zero. -/
def zero (negative : Bool) : Double := .finite negative 0 minExponent

/-- A fraction as a significand with an exponent, rounded. -/
def significandAt (r : Fraction) (exponent : Int) : Nat := (r.scale 2 (-exponent)).roundHalfEven

/-- An exponent at which the fraction has a significand of 53 bits or 54, unless it is
`minExponent`. -/
def leastExponent (r : Fraction) : Int :=
  max minExponent ((r.numerator.log2 : Int) - r.denominator.log2 - 53)

/-- The double nearest to a fraction that is not zero.  Rounding may add a bit to the significand,
and it may be estimated with one bit too many, so one of three exponents fits. -/
def ofFraction (negative : Bool) (r : Fraction) : Double :=
  let least := leastExponent r
  match [least, least + 1, least + 2].find? fun e => significandAt r e < significandLimit with
  | some e => if e ≤ maxExponent then .finite negative (significandAt r e) e else .infinite negative
  | none => .infinite negative

/-- The number of places in front of the point of a decimal. -/
def places (digits : Nat) (exponent : Int) : Int := (Nat.repr digits).length + exponent

/-- A decimal with fewer places is nearer to zero than to any other double. -/
def minPlaces : Int := -323

/-- A decimal with more places is greater than every double. -/
def maxPlaces : Int := 309

/-- The double nearest to `digits` times ten to the power of `exponent`. -/
def ofDecimal (negative : Bool) (digits : Nat) (exponent : Int) : Double :=
  if digits = 0 ∨ places digits exponent < minPlaces then zero negative
  else if maxPlaces < places digits exponent then .infinite negative
  else ofFraction negative (Fraction.scale ⟨digits, 1⟩ 10 exponent)

/-- The natural number nearest to a double, up to `greatest`.  A half goes up; there is none below
zero, and no number counts as zero. -/
def toNatural (greatest : Nat) : Double → Nat
  | .finite negative significand exponent =>
    if negative then 0
    else
      let r := Fraction.scale ⟨significand, 1⟩ 2 exponent
      min greatest ((2 * r.numerator + r.denominator) / (2 * r.denominator))
  | .infinite negative => if negative then 0 else greatest
  | .notANumber => 0

/-- Where a double stands: below all finite ones, among them, or above.  The finite ones are counted
in units of the least that is not zero. -/
def size : Double → Int × Int
  | .finite negative significand exponent =>
    let units : Int := significand * Nat.pow 2 (exponent - minExponent).natAbs
    (0, if negative then -units else units)
  | .infinite negative => (if negative then -1 else 1, 0)
  | .notANumber => (2, 0)

/-- The order by size.  Both zeros are equal, and no number is above all numbers. -/
def order (a b : Double) : Ordering :=
  (compareOfLessAndEq a.size.1 b.size.1).then (compareOfLessAndEq a.size.2 b.size.2)

/-- Is this an infinite number? -/
def isInfinite : Double → Bool
  | .infinite _ => true
  | _ => false

end Double

end Recurrence
