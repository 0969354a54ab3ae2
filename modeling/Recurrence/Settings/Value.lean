import Recurrence.Double.Notation
import Recurrence.Settings.Path
import Recurrence.Text.Number

/-!
# Values of settings

Settings come as a tree: tables, whose entries are found by keys, down to flags, numbers, texts and
lists.  A tree is **laid over** another one entry by entry, so that it replaces only what it says.

A value is put at the end of a path.  What the path needs is made on the way: a step to a key makes
a table, and a step to a place makes a list that is long enough, whatever was there before.

A setting that has to be a number or a text accepts whatever can be understood as one: a flag is 1
or 0, and a text may be a number or a word for a flag.

## Main Definitions

* `SettingValue`, `SettingValue.merge`, `SettingValue.put`
* `SettingValue.member?`: a member of a group of settings
* `SettingValue.size?`, `SettingValue.text?`
* `SettingValue.ofVariable`: the value that an environment variable stands for
-/

namespace Recurrence

open Text

/-- A tree of values. -/
inductive SettingValue where
  /-- An item of a list that was never put there. -/
  | missing
  | flag (on : Bool)
  | integer (n : Int)
  | number (n : Double)
  | text (s : String)
  | list (items : List SettingValue)
  | table (entries : List (String × SettingValue))

namespace SettingValue

instance : Inhabited SettingValue := ⟨.table []⟩

/-- The entries of a table, none for any other value. -/
def entries : SettingValue → List (String × SettingValue)
  | .table entries => entries
  | _ => []

/-- The items of a list, none for any other value. -/
def items : SettingValue → List SettingValue
  | .list items => items
  | _ => []

/-- The entries with `value` under `key`, instead of what was there. -/
def replaceEntry (key : String) (value : SettingValue) :
    List (String × SettingValue) → List (String × SettingValue)
  | [] => [(key, value)]
  | e :: rest => if e.1 = key then (key, value) :: rest else e :: replaceEntry key value rest

mutual

/-- The value `new` laid over an old one.  Tables are joined, entry by entry; any other value takes
the place of the old one. -/
def merge : SettingValue → Option SettingValue → SettingValue
  | .table new, old => .table (mergeEntries new ((old.map entries).getD []))
  | new, _ => new

/-- The entries `new` laid over old ones, in turn. -/
def mergeEntries : List (String × SettingValue) → List (String × SettingValue) →
    List (String × SettingValue)
  | [], old => old
  | (key, value) :: rest, old =>
    mergeEntries rest (replaceEntry key (merge value (old.lookup key)) old)

end

/-- A list with missing items in front until a place below zero, counted from the end, lies in
it. -/
def extendFront (items : List SettingValue) (place : Int) : List SettingValue :=
  List.replicate (-(place + items.length)).toNat .missing ++ items

/-- A list with missing items at the end until it has the item with number `place`. -/
def extendBack (items : List SettingValue) (place : Nat) : List SettingValue :=
  items ++ List.replicate (place + 1 - items.length) .missing

/-- A list that is long enough for a place, and the number of the item there. -/
def withPlace (items : List SettingValue) (place : Int) : List SettingValue × Nat :=
  if 0 ≤ place then (extendBack items place.toNat, place.toNat)
  else
    let items := extendFront items place
    (items, (place + items.length).toNat)

/-- The tree with `value` laid over what is at the end of `path`. -/
def put : SettingValue → SettingPath → SettingValue → SettingValue
  | tree, [], value => merge value (some tree)
  | tree, .key name :: path, value =>
    let old := (tree.entries.lookup name).getD .missing
    .table (replaceEntry name (put old path value) tree.entries)
  | tree, .place n :: path, value =>
    let (items, i) := withPlace tree.items n
    .list (items.set i (put (items[i]?.getD .missing) path value))

/-- A member of a group of settings.  A group is a table, or a list of its members in their
order. -/
def member? (group : SettingValue) (place : Nat) (key : String) : Option SettingValue :=
  match group with
  | .table entries => entries.lookup key
  | .list items => items[place]?
  | _ => none

/-- The value as an unsigned 64-bit integer. -/
def size? : SettingValue → Option Nat
  | .flag on => some (if on then 1 else 0)
  | .integer n => if 0 ≤ n then some n.toNat else none
  | .number n => some (n.toNatural maxSize)
  | .text s =>
    let lower := s.toList.map Char.toLower
    if ["true", "on", "yes"].any fun word => word.toList == lower then some 1
    else if ["false", "off", "no"].any fun word => word.toList == lower then some 0
    else uint64? s.toList
  | .missing | .list _ | .table _ => none

/-- The value as a text. -/
def text? : SettingValue → Option String
  | .flag on => some (if on then "true" else "false")
  | .integer n => some (toString n)
  | .number n => some n.toText
  | .text s => some s
  | .missing | .list _ | .table _ => none

/-- The value of an environment variable: a flag, an integer or a number if it is written as one,
else a text. -/
def ofVariable (s : String) : SettingValue :=
  let lower := s.toList.map Char.toLower
  if lower = "true".toList then .flag true
  else if lower = "false".toList then .flag false
  else match int64? s.toList with
    | some n => .integer n
    | none => match Double.ofText? s.toList with
      | some n => .number n
      | none => .text s

end SettingValue

end Recurrence
