import Recurrence.Frequency.Input
import Recurrence.Period.Alias
import Recurrence.Text.Decimal

/-!
# Frequency expressions

The grammar in which a frequency is written in a rule.

| Form         | Meaning                                    |
|--------------|--------------------------------------------|
| `*`          | every value                                |
| `N/M`, `*/M` | every `M`-th value, counted from `N` or 0  |
| `A-B,C,...`  | ranges with both bounds, and single values |
| `A,B,...`    | several values                             |
| `A`          | one value                                  |

A value is an alias or an integer.  Blanks may surround every part.  A dash that begins an item is
the sign of its first value, so `-4--1` is the range from -4 to -1.

## Main Definitions

* `readValue`: an alias or an integer
* `splitRange?`: the two values of a range
* `Item`, `readItem`: an item of a list
* `FrequencySpec.ofExpression`: the description an expression stands for
* `FrequencyInput`: a description or an expression, with `resolve` and `compile`
-/

namespace Recurrence

namespace FrequencySpec

/-- The value a token of `expression` stands for.  An alias wins over a number. -/
def readValue (table : Aliases) (expression : String) (token : List Char) :
    Except FrequencyError Int :=
  let token := Text.trim token
  match (table.value? token).or (Text.value? token) with
  | some value => .ok value
  | none => .error (.invalidValue (String.ofList token) expression)

/-- The parts of an item around its first dash that is not its first character. -/
def splitRange? : List Char → Option (List Char × List Char)
  | [] => none
  | c :: item => (Text.cut? '-' item).map fun parts => (c :: parts.1, parts.2)

/-- An item of a list, as a range whose upper bound may be missing. -/
def readItem (table : Aliases) (expression : String) (item : List Char) :
    Except FrequencyError (Int × Option Int) :=
  match splitRange? item with
  | some (low, high) => do
    let low ← readValue table expression low
    let high ← readValue table expression high
    return (low, some high)
  | none => do
    let value ← readValue table expression item
    return (value, none)

/-- The description that a list of items stands for: ranges if one of them has two bounds, else one
value or several. -/
def ofItems (items : List (Int × Option Int)) : FrequencySpec :=
  if items.any fun item => item.2.isSome then .ranges items
  else match items with
    | [item] => .single item.1
    | _ => .multiple (items.map Prod.fst)

/-- The offset of an expression with a step.  A star counts from 0. -/
def readOffset (table : Aliases) (expression : String) (token : List Char) :
    Except FrequencyError Int :=
  if Text.trim token = ['*'] then .ok 0 else readValue table expression token

/-- The description an expression stands for.  The step is read before the offset, and blank items
are reported before values. -/
def ofExpression (table : Aliases) (expression : String) : Except FrequencyError FrequencySpec :=
  let text := Text.trim expression.toList
  if text = [] then .error (.invalidExpression expression)
  else if text = ['*'] then .ok .always
  else match Text.cut? '/' text with
    | some (offset, step) => do
      let step ← readValue table expression step
      let offset ← readOffset table expression offset
      return .every step offset
    | none =>
      let items := (Text.splitAll ',' text).map Text.trim
      if items.any List.isEmpty then .error (.invalidExpression expression)
      else do
        let items ← items.mapM (readItem table expression)
        return ofItems items

end FrequencySpec

/-- A frequency as it is given for a field of a rule. -/
inductive FrequencyInput where
  /-- A description by values. -/
  | spec (description : FrequencySpec)
  /-- An expression, read when the aliases of its field are known. -/
  | text (expression : String)
deriving DecidableEq, Repr

namespace FrequencyInput

/-- The description an input stands for, with the names of `table`. -/
def resolve (table : Aliases) : FrequencyInput → Except FrequencyError FrequencySpec
  | .spec description => .ok description
  | .text expression => FrequencySpec.ofExpression table expression

/-- The frequency an input stands for, with the names of `table`. -/
def compile (table : Aliases) (input : FrequencyInput) : Except FrequencyError Frequency := do
  let description ← input.resolve table
  description.compile

end FrequencyInput

end Recurrence
