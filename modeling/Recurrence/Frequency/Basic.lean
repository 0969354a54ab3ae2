import Recurrence.Value

/-!
# Frequencies

A frequency says which values of a field recur.  It answers two questions: does a value occur on it
(`accepts`), and which value comes after a given one (`next`).  The shapes with several values wrap
to the first one.

**Normal form.**  A frequency keeps its values in the form in which these questions are easy: lists
are sorted without repetition, an offset lies below its step, the bounds of a range are in order and
the ranges are sorted by their lower bounds.  The form is a part of the type, so that frequencies
built from the same values in another order are equal.

## Main Definitions

* `Frequency.Shape`, `Frequency.Shape.Normal`, `Frequency`
* `Frequency.always`, `Frequency.single`, `Frequency.multiple?`, `Frequency.every?`,
  `Frequency.ranges?`
* `Frequency.accepts`, `Frequency.next`
* `FrequencyError`
-/

namespace Recurrence

/-- Why a description is no frequency. -/
inductive FrequencyError where
  /-- A piece of an expression is neither an integer of the value range nor an alias. -/
  | invalidValue (token expression : String)
  /-- An expression or one of its items is blank. -/
  | invalidExpression (expression : String)
  /-- A step that is not positive. -/
  | invalidStep (step : Int)
  /-- A list without values. -/
  | noValues
  /-- A list without ranges. -/
  | noRanges
deriving DecidableEq, Repr

/-- The error as it is reported. -/
def FrequencyError.message : FrequencyError → String
  | .invalidValue token expression =>
    "`" ++ token ++ "` is not a valid value in `" ++ expression ++ "`"
  | .invalidExpression expression => "Invalid frequency expression: `" ++ expression ++ "`"
  | .invalidStep step => "Step must be a positive integer, got " ++ toString step
  | .noValues => "A multiple frequency needs at least one value"
  | .noRanges => "A ranges frequency needs at least one value"

namespace Frequency

/-- The shapes of a frequency. -/
inductive Shape where
  /-- Every value occurs. -/
  | always
  /-- One value occurs. -/
  | single (value : Int)
  /-- The listed values occur. -/
  | multiple (values : List Int)
  /-- The values that leave the remainder `offset` occur. -/
  | every (step offset : Int)
  /-- The values within the bounds occur. -/
  | ranges (bounds : List (Int × Int))
deriving DecidableEq, Repr

/-- The form a shape is kept in. -/
def Shape.Normal : Shape → Prop
  | .always => True
  | .single _ => True
  | .multiple values => values ≠ [] ∧ values.Pairwise (· < ·)
  | .every step offset => 0 < step ∧ 0 ≤ offset ∧ offset < step
  | .ranges bounds =>
    bounds ≠ [] ∧ (∀ b ∈ bounds, b.1 ≤ b.2) ∧ bounds.Pairwise fun a b => a.1 ≤ b.1

end Frequency

/-- The values of a field that recur. -/
structure Frequency where
  shape : Frequency.Shape
  normal : shape.Normal
deriving DecidableEq

namespace Frequency

/-- Every value occurs. -/
def always : Frequency := ⟨.always, trivial⟩

/-- One value occurs.  It also follows every value, in the next cycle if need be. -/
def single (value : Int) : Frequency := ⟨.single value, trivial⟩

instance : Inhabited Frequency := ⟨always⟩

/-- Adds a value to an increasing list that may hold it already. -/
def insertValue (value : Int) : List Int → List Int
  | [] => [value]
  | head :: rest =>
    if value < head then value :: head :: rest
    else if value = head then head :: rest
    else head :: insertValue value rest

/-- The values in increasing order, each once. -/
def sortValues (values : List Int) : List Int := values.foldr insertValue []

/-- Adds a range to a list sorted by lower bounds, before the ranges with the same one. -/
def insertRange (range : Int × Int) : List (Int × Int) → List (Int × Int)
  | [] => [range]
  | head :: rest =>
    if range.1 ≤ head.1 then range :: head :: rest else head :: insertRange range rest

/-- The ranges in the order of their lower bounds.  Ranges with the same one keep their order. -/
def sortRanges (ranges : List (Int × Int)) : List (Int × Int) := ranges.foldr insertRange []

/-- The bounds of a range in order.  A range without an upper bound has one value. -/
def orderedBounds (range : Int × Option Int) : Int × Int :=
  let other := range.2.getD range.1
  (min range.1 other, max range.1 other)

theorem mem_insertValue {value x : Int} {values : List Int} :
    x ∈ insertValue value values ↔ x = value ∨ x ∈ values := by
  induction values with
  | nil => simp [insertValue]
  | cons head rest ih =>
    unfold insertValue
    split
    · simp
    · split
      · next h => simp [h]
      · simp [ih, or_left_comm]

theorem pairwise_insertValue {value : Int} {values : List Int} (h : values.Pairwise (· < ·)) :
    (insertValue value values).Pairwise (· < ·) := by
  induction values with
  | nil => simp [insertValue]
  | cons head rest ih =>
    obtain ⟨hhead, hrest⟩ := List.pairwise_cons.1 h
    unfold insertValue
    split
    · next hlt =>
      refine List.pairwise_cons.2 ⟨fun x hx => ?_, h⟩
      rcases List.mem_cons.1 hx with rfl | hx
      · exact hlt
      · exact Int.lt_trans hlt (hhead x hx)
    · split
      · exact h
      · refine List.pairwise_cons.2 ⟨fun x hx => ?_, ih hrest⟩
        rcases mem_insertValue.1 hx with rfl | hx
        · omega
        · exact hhead x hx

/-- Sorting keeps the values that there are. -/
theorem mem_sortValues {x : Int} {values : List Int} : x ∈ sortValues values ↔ x ∈ values := by
  induction values with
  | nil => simp [sortValues]
  | cons head rest ih => exact mem_insertValue.trans (by rw [List.mem_cons, ← ih]; rfl)

theorem pairwise_sortValues (values : List Int) : (sortValues values).Pairwise (· < ·) := by
  induction values with
  | nil => simp [sortValues]
  | cons head rest ih => exact pairwise_insertValue ih

theorem mem_insertRange {range x : Int × Int} {ranges : List (Int × Int)} :
    x ∈ insertRange range ranges ↔ x = range ∨ x ∈ ranges := by
  induction ranges with
  | nil => simp [insertRange]
  | cons head rest ih =>
    unfold insertRange
    split
    · simp
    · simp [ih, or_left_comm]

theorem pairwise_insertRange {range : Int × Int} {ranges : List (Int × Int)}
    (h : ranges.Pairwise fun a b => a.1 ≤ b.1) :
    (insertRange range ranges).Pairwise fun a b => a.1 ≤ b.1 := by
  induction ranges with
  | nil => simp [insertRange]
  | cons head rest ih =>
    obtain ⟨hhead, hrest⟩ := List.pairwise_cons.1 h
    unfold insertRange
    split
    · next hle =>
      refine List.pairwise_cons.2 ⟨fun x hx => ?_, h⟩
      rcases List.mem_cons.1 hx with rfl | hx
      · exact hle
      · exact Int.le_trans hle (hhead x hx)
    · refine List.pairwise_cons.2 ⟨fun x hx => ?_, ih hrest⟩
      rcases mem_insertRange.1 hx with rfl | hx
      · omega
      · exact hhead x hx

/-- Sorting keeps the ranges that there are. -/
theorem mem_sortRanges {x : Int × Int} {ranges : List (Int × Int)} :
    x ∈ sortRanges ranges ↔ x ∈ ranges := by
  induction ranges with
  | nil => simp [sortRanges]
  | cons head rest ih => exact mem_insertRange.trans (by rw [List.mem_cons, ← ih]; rfl)

theorem pairwise_sortRanges (ranges : List (Int × Int)) :
    (sortRanges ranges).Pairwise fun a b => a.1 ≤ b.1 := by
  induction ranges with
  | nil => simp [sortRanges]
  | cons head rest ih => exact pairwise_insertRange ih

theorem orderedBounds_le (range : Int × Option Int) :
    (orderedBounds range).1 ≤ (orderedBounds range).2 := by
  unfold orderedBounds
  simp only
  omega

theorem sortValues_ne_nil {values : List Int} (h : values ≠ []) : sortValues values ≠ [] := by
  obtain ⟨x, rest, rfl⟩ := List.exists_cons_of_ne_nil h
  exact List.ne_nil_of_mem (mem_sortValues.2 (List.mem_cons_self : x ∈ x :: rest))

theorem sortRanges_ne_nil {ranges : List (Int × Int)} (h : ranges ≠ []) :
    sortRanges ranges ≠ [] := by
  obtain ⟨x, rest, rfl⟩ := List.exists_cons_of_ne_nil h
  exact List.ne_nil_of_mem (mem_sortRanges.2 (List.mem_cons_self : x ∈ x :: rest))

/-- The listed values occur, in whatever order and however often they are listed. -/
def multiple? (values : List Int) : Except FrequencyError Frequency :=
  if h : values = [] then .error .noValues
  else .ok ⟨.multiple (sortValues values), sortValues_ne_nil h, pairwise_sortValues values⟩

/-- Every `step`-th value occurs, counted from `offset` in both directions. -/
def every? (step offset : Int) : Except FrequencyError Frequency :=
  if h : 0 < step then
    .ok ⟨.every step (offset % step), h, Int.emod_nonneg _ (Int.ne_of_gt h),
      Int.emod_lt_of_pos _ h⟩
  else .error (.invalidStep step)

/-- The values of the ranges occur.  The bounds of a range may be given in either order. -/
def ranges? (ranges : List (Int × Option Int)) : Except FrequencyError Frequency :=
  if h : ranges = [] then .error .noRanges
  else
    .ok ⟨.ranges (sortRanges (ranges.map orderedBounds)),
      sortRanges_ne_nil (by simpa using h),
      fun b hb => by
        obtain ⟨r, _, rfl⟩ := List.mem_map.1 (mem_sortRanges.1 hb)
        exact orderedBounds_le r,
      pairwise_sortRanges _⟩

/-- Does `n` occur? -/
def accepts (f : Frequency) (n : Int) : Bool :=
  match f.shape with
  | .always => true
  | .single value => n == value
  | .multiple values => values.contains n
  | .every step offset => n % step == offset
  | .ranges bounds => bounds.any fun b => b.1 ≤ n && n ≤ b.2

/-- The first value within the bounds above `n`, looking at the ranges in turn. -/
def nextInRanges? (n : Int) : List (Int × Int) → Option Int
  | [] => none
  | b :: rest =>
    if n < b.1 then some b.1
    else if n < b.2 then some (n + 1)
    else nextInRanges? n rest

/-- The value that comes after `n`.  A list of values or ranges wraps to its least value, a single
value follows everything, and the two shapes without end stay in the value range. -/
def next (f : Frequency) (n : Int) : Int :=
  match f.shape with
  | .always => saturate (n + 1)
  | .single value => value
  | .multiple values => ((values.find? fun v => n < v).or values.head?).getD n
  | .every step offset => min maxValue (n + 1 + (offset - (n + 1)) % step)
  | .ranges bounds => ((nextInRanges? n bounds).or (bounds.head?.map Prod.fst)).getD n

/-- Is this the frequency that was made for every value?  Others may accept every value too. -/
def isAlways (f : Frequency) : Bool := f.shape == .always

end Frequency

end Recurrence
