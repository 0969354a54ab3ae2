import Recurrence.Double.Notation
import Recurrence.Log.ValuePattern
import Recurrence.Text.Number
import Recurrence.Text.Order
import Recurrence.Text.Split

/-!
# Conditions on fields

A log directive may ask for a field of a record, and for the value that it has.  A value is **the
first of these kinds that its text can be read as**: a truth value, a whole number without a sign, a
whole number, a decimal number, and else a pattern.

Values are ordered by kind and then within it, numbers by size and patterns as texts.

## Main Definitions

* `FieldValue`, `FieldValue.ofText?`, `FieldValue.toText`, `FieldValue.order`
* `FieldCondition`, `FieldCondition.ofText?`, `FieldCondition.toText`, `FieldCondition.order`
-/

namespace Recurrence

open Text

/-- A value that a directive asks for. -/
inductive FieldValue where
  | truth (value : Bool)
  | decimal (x : Double)
  | natural (n : Nat)
  | integer (n : Int)
  | pattern (text : String)
deriving DecidableEq

namespace FieldValue

/-- The value that a text stands for, unless it is a pattern that is not well formed. -/
def ofText? (s : List Char) : Option FieldValue :=
  if s = "true".toList then some (.truth true)
  else if s = "false".toList then some (.truth false)
  else match uint64? s, int64? s, Double.ofText? s with
    | some n, _, _ => some (.natural n)
    | none, some n, _ => some (.integer n)
    | none, none, some x => some (.decimal x)
    | none, none, none =>
      if ValuePattern.isPattern s then some (.pattern (String.ofList s)) else none

/-- A value as it is printed. -/
def toText : FieldValue → String
  | truth value => if value then "true" else "false"
  | decimal x => x.toText
  | natural n => Nat.repr n
  | integer n => Int.repr n
  | pattern text => text

/-- The place of the kind of a value. -/
def kind : FieldValue → Nat
  | truth _ => 0
  | decimal x => if x = .notANumber then 2 else 1
  | natural _ => 3
  | integer _ => 4
  | pattern _ => 5

/-- The order of values: by kind, and then within it. -/
def order (a b : FieldValue) : Ordering :=
  match a, b with
  | truth a, truth b => compareOfLessAndEq a.toNat b.toNat
  | decimal a, decimal b => a.order b
  | natural a, natural b => compareOfLessAndEq a b
  | integer a, integer b => compareOfLessAndEq a b
  | pattern a, pattern b => textOrder a b
  | a, b => compareOfLessAndEq a.kind b.kind

end FieldValue

/-- A field that a record has to tell, with its value if that matters too. -/
structure FieldCondition where
  name : String
  value : Option FieldValue
deriving DecidableEq

namespace FieldCondition

/-- A condition as it stands between braces: a name, and a value after an equals sign.  What comes
after a second equals sign does not count. -/
def ofText? (s : List Char) : Option FieldCondition :=
  match splitAll '=' s with
  | name :: value :: _ =>
    (FieldValue.ofText? value).map fun value => ⟨String.ofList name, some value⟩
  | _ => some ⟨String.ofList s, none⟩

/-- A condition as it is printed. -/
def toText (field : FieldCondition) : String :=
  match field.value with
  | some value => field.name ++ "=" ++ value.toText
  | none => field.name

/-- The order of conditions: those on a value last, then by name and by value. -/
def order (a b : FieldCondition) : Ordering :=
  (presenceOrder a.value b.value).then <|
    (textOrder a.name b.name).then (optionOrder FieldValue.order a.value b.value)

end FieldCondition

end Recurrence
