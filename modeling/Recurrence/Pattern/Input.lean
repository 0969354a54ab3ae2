import Recurrence.Frequency.Expression
import Recurrence.Pattern.Fields

/-!
# Rules as they are written

A rule binds frequencies to periods.  It is written as fields `period=expression`, separated by
semicolons: `day_of_week=MON-FRI;hour=9;minute=0`.  Blanks may surround every part, empty fields do
not count, and of two fields of one period the last one holds.  Expressions are kept as they are
written, until the rule is compiled.

## Main Definitions

* `PatternInput`: the frequencies a rule binds, before they are compiled
* `PatternInput.ofText`: a rule read
* `RuleTextError`
-/

namespace Recurrence

/-- The frequencies that a rule binds to periods, before they are compiled. -/
abbrev PatternInput := FieldMap FrequencyInput

/-- Why a text is no rule. -/
inductive RuleTextError where
  /-- A field without an equals sign. -/
  | noExpression (field : String)
  /-- A field of something that is no period. -/
  | unknownPeriod (name : String)
deriving DecidableEq, Repr

/-- The error as it is reported. -/
def RuleTextError.message : RuleTextError → String
  | .noExpression field => (FrequencyError.invalidExpression field).message
  | .unknownPeriod name => "Unknown period: " ++ name

namespace PatternInput

/-- The binding that a field of a rule makes. -/
def readField (field : List Char) : Except RuleTextError (Period × FrequencyInput) :=
  match Text.cut? '=' field with
  | none => .error (.noExpression (String.ofList field))
  | some (name, expression) =>
    match Period.ofName? name with
    | none => .error (.unknownPeriod (String.ofList name))
    | some p => .ok (p, .text (String.ofList (Text.trim expression)))

/-- The fields of a rule, without the blanks around them and without the empty ones. -/
def fieldsOf (text : List Char) : List (List Char) :=
  ((Text.splitAll ';' text).map Text.trim).filter fun field => !field.isEmpty

/-- The rule written as `text`.  The first field that is not one is reported. -/
def ofText (text : String) : Except RuleTextError PatternInput := do
  let bindings ← (fieldsOf text.toList).mapM readField
  return FieldMap.ofList bindings

end PatternInput

end Recurrence
