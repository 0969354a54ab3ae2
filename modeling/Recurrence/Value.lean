/-!
# Field values

A field of an instant (its hour, its month, its week number) has an integer value, and so has
everything a rule says about a field: the values it lists, the step it repeats with, the bounds of
its ranges.  Values are unbounded integers in this library.  The **value range** is the signed
32-bit range; two places show it.  A value written in a rule text has to lie in it, and the
operations that would leave it stay at its ends instead (`saturate`).

## Main Definitions

* `minValue`, `maxValue`: the ends of the value range
* `InValueRange`: the range as a predicate
* `saturate`: the nearest value of the range
-/

namespace Recurrence

/-- The least value of a field, a step or a bound. -/
def minValue : Int := -2147483648

/-- The greatest value of a field, a step or a bound. -/
def maxValue : Int := 2147483647

/-- The integers that can be written as a value in a rule. -/
def InValueRange (n : Int) : Prop := minValue ≤ n ∧ n ≤ maxValue

instance (n : Int) : Decidable (InValueRange n) :=
  inferInstanceAs (Decidable (minValue ≤ n ∧ n ≤ maxValue))

/-- The member of the value range nearest to `n`. -/
def saturate (n : Int) : Int := max minValue (min maxValue n)

theorem saturate_of_inValueRange {n : Int} (h : InValueRange n) : saturate n = n := by
  unfold InValueRange at h
  unfold saturate
  omega

theorem inValueRange_saturate (n : Int) : InValueRange (saturate n) := by
  unfold InValueRange saturate minValue maxValue
  omega

end Recurrence
