import Recurrence.Double.Basic
import Recurrence.Text.Decimal

/-!
# Doubles in decimal notation

A double is written with **the fewest digits that read back** as the same double, of several such
decimals the nearest, and the greater of two that are equally near.  It is written positionally,
however many zeros that takes.

The decimals that read back as a double fill an interval, from halfway to the double below to
halfway to the double above; the two ends belong to it if the significand is even.  The multiples of
ten to the power of `k` form a grid.  The coarsest grid with a point in the interval gives the
fewest digits, and a point of it next to the double is in the interval if any is.

## Main Definitions

* `Double.shortest`: the fewest digits that read back
* `Double.toText`
* `Double.ofText?`
-/

namespace Recurrence

open Text

namespace Double

/-- Is the double below half as far away as the double above? -/
def narrowBelow (significand : Nat) (exponent : Int) : Bool :=
  significand = fullSignificand && minExponent < exponent

/-- The lower end of what reads back as a double, in quarters of its last bit. -/
def lowerEnd (significand : Nat) (exponent : Int) : Nat :=
  if narrowBelow significand exponent then 4 * significand - 1 else 4 * significand - 2

/-- The upper end of what reads back as a double, in quarters of its last bit. -/
def upperEnd (significand : Nat) : Nat := 4 * significand + 2

/-- A quarter of the last bit of a double, as a fraction of ten to the power of `k`. -/
def quarterUnit (exponent k : Int) : Fraction :=
  (Fraction.scale ⟨1, 1⟩ 2 (exponent - 2)).scale 10 (-k)

/-- Does `point` times ten to the power of `k` read back as the double? -/
def readsBack (significand : Nat) (exponent : Int) (point : Nat) (k : Int) : Bool :=
  let unit := quarterUnit exponent k
  let low := lowerEnd significand exponent * unit.numerator
  let high := upperEnd significand * unit.numerator
  let place := point * unit.denominator
  if significand % 2 = 0 then low ≤ place && place ≤ high else low < place && place < high

/-- The point of the grid of ten to the power of `k` that reads back as the double, and is the
nearest of those.  Of two equally near it is the greater. -/
def gridPoint? (significand : Nat) (exponent k : Int) : Option Nat :=
  let unit := quarterUnit exponent k
  let place := 4 * significand * unit.numerator
  let below := place / unit.denominator
  let readable := readsBack significand exponent
  let aboveIsNearer := (2 * below + 1) * unit.denominator ≤ 2 * place
  if readable below k then
    if readable (below + 1) k && aboveIsNearer then some (below + 1) else some below
  else if readable (below + 1) k then some (below + 1)
  else none

/-- The coarsest grid on which a double can be written. -/
def coarsestGrid : Int := 308

/-- The number of grids down to one that is finer than any two neighbouring doubles. -/
def gridCount : Nat := 633

/-- The fewest digits that read back as a double, with the power of ten they are multiplied with. -/
def shortest (significand : Nat) (exponent : Int) : Nat × Int :=
  ((List.range gridCount).findSome? fun i : Nat =>
    (gridPoint? significand exponent (coarsestGrid - i)).map fun point =>
      (point, coarsestGrid - i)).getD (0, 0)

/-- A decimal in positional notation: `digits` times ten to the power of `exponent`. -/
def positional (digits : Nat) (exponent : Int) : String :=
  if 0 ≤ exponent then Nat.repr (withZeros digits exponent.natAbs)
  else
    let shown := (padded (exponent.natAbs + 1) digits).toList
    let split := shown.length - exponent.natAbs
    String.ofList (shown.take split ++ '.' :: shown.drop split)

/-- A double in positional notation, with the fewest digits that read back. -/
def toText : Double → String
  | .finite negative significand exponent =>
    let sign := if negative then "-" else ""
    if significand = 0 then sign ++ "0"
    else
      let (digits, power) := shortest significand exponent
      sign ++ positional digits power
  | .infinite negative => if negative then "-inf" else "inf"
  | .notANumber => "NaN"

/-- The exponent at the end of a number: nothing, or a letter and an integer. -/
def exponent? : List Char → Option Int
  | [] => some 0
  | c :: s => if c = 'e' ∨ c = 'E' then integer? s else none

/-- The double written without a sign. -/
def unsigned? (negative : Bool) (s : List Char) : Option Double :=
  let lower := s.map Char.toLower
  if lower = "inf".toList ∨ lower = "infinity".toList then some (.infinite negative)
  else if lower = "nan".toList then some .notANumber
  else
    let whole := s.takeWhile isDigit
    let rest := s.dropWhile isDigit
    let decimals := match rest with
      | '.' :: t => t.takeWhile isDigit
      | _ => []
    let rest := match rest with
      | '.' :: t => t.dropWhile isDigit
      | t => t
    match natural? (whole ++ decimals), exponent? rest with
    | some digits, some exponent => some (ofDecimal negative digits (exponent - decimals.length))
    | _, _ => none

/-- The double nearest to what is written, with at most one sign: digits with or without a point,
and an exponent if need be. -/
def ofText? : List Char → Option Double
  | '-' :: s => unsigned? true s
  | '+' :: s => unsigned? false s
  | s => unsigned? false s

end Double

end Recurrence
