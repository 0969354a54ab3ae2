import Recurrence.Log.Condition
import Recurrence.Log.Level
import Recurrence.Text.Alphanumeric
import Recurrence.Text.Blank
import Recurrence.Text.Order
import Recurrence.Text.Split

/-!
# Log directives

A log record comes from a target, has a level and tells fields.  A directive sets the most verbose
level for the targets that begin with its own, or for all targets.  It may have a condition in
brackets: a span that the record lies in, a field that it tells, or both.

More than one directive may be about a record, and **the most specific one decides**: the one with
the longest target, then one with a span, then one with a field.  `LogDirective.order` is that
order, with the order of texts for directives that are equally specific.

## Main Definitions

* `LogDirective`
* `LogDirective.ofText?`, `LogDirective.toText`
* `LogDirective.order`: less specific to more specific
* `LogDirective.rules`: the records that a directive is about
-/

namespace Recurrence

open Text

/-- The most verbose level for the targets that begin with a text, or for all targets. -/
structure LogDirective where
  target : Option String
  /-- The name of the span that a record has to lie in. -/
  span : Option String := none
  /-- The field that a record has to tell. -/
  field : Option FieldCondition := none
  limit : LogLimit
deriving DecidableEq

namespace LogDirective

/-! ## Reading and printing -/

/-- May a target begin with `c`? -/
def startsTarget (c : Char) : Bool := isAlphanumeric c || c == '-' || c == ':' || c == '_'

/-- Does the target of a directive end before `c`? -/
def endsTarget (c : Char) : Bool := c == '=' || c == '['

/-- The limit after the equals sign of a directive.  Nothing stands for the most verbose one. -/
def limit? (s : List Char) : Option LogLimit :=
  if s = [] then some (some LogLevel.trace) else LogLimit.ofText? s

/-- A condition in brackets: a span, a field, or both. -/
structure DirectiveCondition where
  span : Option String
  field : Option FieldCondition

/-- Reads a condition of a directive, of which `rest` is what follows the opening bracket, and
`place` the place where that begins.  Parts are cut from `text`.  What is left is told in the same
way. -/
def readCondition (text : List Char) (place : Nat) (rest : List Char) :
    Option (DirectiveCondition × Nat × List Char) :=
  let inName := fun c : Char => c != ']' && c != '\x7b'
  let nameEnd := place + byteCount (rest.takeWhile inName)
  let name := String.ofList (slice place nameEnd text)
  match rest.dropWhile inName with
  | ']' :: rest => some (⟨some name, none⟩, nameEnd + 1, rest)
  | '\x7b' :: rest =>
    match cut? '\x7d' rest with
    | some (c :: field, ']' :: rest) =>
      let fieldEnd := nameEnd + 1 + byteCount (c :: field)
      (FieldCondition.ofText? (slice (nameEnd + 1) fieldEnd text)).map fun field =>
        (⟨if name = "" then none else some name, some field⟩, fieldEnd + 2, rest)
    | _ => none
  | _ => none

/-- The directive that a text is: a target, a condition and a limit, a limit alone, or a target
alone, which has the most verbose limit.

Its parts are found in the text without the blanks at its ends.  They are cut from the whole text at
the same places, so that blanks at the end belong to the last part, and blanks in front make every
part begin too early. -/
def ofText? (text : List Char) : Option LogDirective :=
  let trimmed := trim text
  if !trimmed.head?.any (fun c => startsTarget c || c == '[') then none
  else
    let targetEnd := byteCount (trimmed.takeWhile fun c => !endsTarget c)
    let target := String.ofList (slice 0 targetEnd text)
    match trimmed.dropWhile fun c => !endsTarget c with
    | [] => match LogLimit.ofText? text with
      | some limit => some { target := none, limit }
      | none => some { target := some (String.ofList text), limit := some .trace }
    | '=' :: _ =>
      (limit? (dropBytes (targetEnd + 1) text)).map fun limit => { target := some target, limit }
    | _ :: rest => do
      let (condition, place, rest) ← readCondition text (targetEnd + 1) rest
      let limit ← match rest with
        | [] => some (some LogLevel.trace)
        | '=' :: _ => limit? (dropBytes (place + 1) text)
        | _ => none
      return {
        target := if target = "" then none else some target
        span := condition.span
        field := condition.field
        limit }

/-- Does a directive have a condition? -/
def isConditional (d : LogDirective) : Bool := d.span.isSome || d.field.isSome

/-- The condition of a directive as it is printed. -/
def conditionText (d : LogDirective) : String :=
  let field := match d.field with
    | some field => "\x7b" ++ field.toText ++ "\x7d"
    | none => ""
  if d.isConditional then "[" ++ d.span.getD "" ++ field ++ "]" else ""

/-- A directive as it is printed. -/
def toText (d : LogDirective) : String :=
  if d.target.isSome || d.isConditional then
    d.target.getD "" ++ d.conditionText ++ "=" ++ d.limit.toText
  else d.limit.toText

/-! ## Precedence -/

/-- The order of directives, the less specific ones first. -/
def order (a b : LogDirective) : Ordering :=
  let sizes := fun s t : String => compareOfLessAndEq s.utf8ByteSize t.utf8ByteSize
  (optionOrder sizes a.target b.target).then <|
    (presenceOrder a.span b.span).then <|
    (presenceOrder a.field b.field).then <|
    (optionOrder textOrder a.target b.target).then <|
    (optionOrder textOrder a.span b.span).then (optionOrder FieldCondition.order a.field b.field)

/-! ## Records -/

/-- Is a directive about the records from a target that tell these fields?  Its span is not asked
for. -/
def rules (d : LogDirective) (target : String) (fields : List String) : Bool :=
  (d.target.all fun start => start.toList.isPrefixOf target.toList) &&
    d.field.all fun field => fields.contains field.name

end LogDirective

end Recurrence
