import Recurrence.Frequency.Basic

/-!
# Descriptions of frequencies

A frequency is described by the values a person would name: in any order, repeated, with a negative
offset or with the bounds of a range the wrong way round.  A description is compiled into the
frequency it stands for, unless its step is not positive or it names no value.

## Main Definitions

* `FrequencySpec`: a description
* `FrequencySpec.compile`: the frequency it stands for
-/

namespace Recurrence

/-- A description of a frequency by its values, as they were given. -/
inductive FrequencySpec where
  /-- Every value. -/
  | always
  /-- One value. -/
  | single (value : Int)
  /-- The listed values. -/
  | multiple (values : List Int)
  /-- Every `step`-th value counted from `offset`. -/
  | every (step offset : Int)
  /-- The values of the ranges.  A range without an upper bound has one value. -/
  | ranges (bounds : List (Int × Option Int))
deriving DecidableEq, Repr

/-- The frequency a description stands for. -/
def FrequencySpec.compile : FrequencySpec → Except FrequencyError Frequency
  | .always => .ok Frequency.always
  | .single value => .ok (Frequency.single value)
  | .multiple values => Frequency.multiple? values
  | .every step offset => Frequency.every? step offset
  | .ranges bounds => Frequency.ranges? bounds

end Recurrence
