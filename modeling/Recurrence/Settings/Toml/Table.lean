import Recurrence.Settings.Value

/-!
# Tables of TOML documents

**A table is defined once.**  A header may come after tables that it holds, and dotted keys may add
to a table that has no header, but nothing is written twice.  So each table is kept with the way in
which it came about until the document ends.

## Main Definitions

* `Node`: what a document has built so far, with `Node.toValue`
* `bindKey?`: a value put under a key
* `openTable?`, `appendTable?`: the headers
-/

namespace Recurrence.Toml

/-- How a table came about. -/
inductive Origin where
  /-- It holds a table with a header of its own. -/
  | implied
  /-- Dotted keys have made it. -/
  | dotted
  /-- It has a header. -/
  | header
deriving DecidableEq

/-- What a document has built at a key. -/
inductive Node where
  | value (v : SettingValue)
  | table (origin : Origin) (entries : List (String × Node))
  /-- Tables with one repeated header.  The last one is open. -/
  | tables (items : List (List (String × Node)))

/-- The entries of a table. -/
abbrev Entries := List (String × Node)

mutual

/-- The value at a key when the document has ended. -/
def Node.toValue : Node → SettingValue
  | .value v => v
  | .table _ entries => .table (toValues entries)
  | .tables items => .list (toTables items)

/-- The values of the entries of a table. -/
def toValues : List (String × Node) → List (String × SettingValue)
  | [] => []
  | (key, node) :: rest => (key, node.toValue) :: toValues rest

/-- The tables with one repeated header. -/
def toTables : List (List (String × Node)) → List SettingValue
  | [] => []
  | entries :: rest => .table (toValues entries) :: toTables rest

end

/-- The entries with `node` under `key`, instead of what was there. -/
def setNode (key : String) (node : Node) : Entries → Entries
  | [] => [(key, node)]
  | e :: rest => if e.1 = key then (key, node) :: rest else e :: setNode key node rest

/-- Puts a value under a key that has no value yet.  The table that the last part of a dotted key
goes into has no header; dotted keys have made it from then on.  On the way there, dotted keys lead
through tables without headers and into the last of the tables with one repeated header. -/
def bindKey? : List String → SettingValue → Entries → Option Entries
  | [], _, _ => none
  | [key], v, entries =>
    if (entries.lookup key).isSome then none else some (entries ++ [(key, .value v)])
  | key :: path, v, entries =>
    match entries.lookup key with
    | none => (bindKey? path v []).map fun t => entries ++ [(key, .table .dotted t)]
    | some (.table .header _) => none
    | some (.table origin t) =>
      let origin := if path.length = 1 then .dotted else origin
      (bindKey? path v t).map fun t => setNode key (.table origin t) entries
    | some (.tables items) =>
      if path.length = 1 then none
      else (items.getLast?.bind (bindKey? path v)).map fun t =>
        setNode key (.tables (items.dropLast ++ [t])) entries
    | some (.value _) => none

/-- Applies `f` to the table that a header has opened. -/
def withinTable? (f : Entries → Option Entries) : List String → Entries → Option Entries
  | [], entries => f entries
  | key :: path, entries =>
    match entries.lookup key with
    | some (.table origin t) =>
      (withinTable? f path t).map fun t => setNode key (.table origin t) entries
    | some (.tables items) =>
      (items.getLast?.bind (withinTable? f path)).map fun t =>
        setNode key (.tables (items.dropLast ++ [t])) entries
    | _ => none

/-- Goes along the path of a header, making the tables that are missing, and applies `last` at its
end. -/
def alongHeader? (last : String → Entries → Option Entries) : List String → Entries → Option Entries
  | [], _ => none
  | [key], entries => last key entries
  | key :: path, entries =>
    match entries.lookup key with
    | none => (alongHeader? last path []).map fun t => entries ++ [(key, .table .implied t)]
    | some (.table origin t) =>
      (alongHeader? last path t).map fun t => setNode key (.table origin t) entries
    | some (.tables items) =>
      (items.getLast?.bind (alongHeader? last path)).map fun t =>
        setNode key (.tables (items.dropLast ++ [t])) entries
    | some (.value _) => none

/-- Opens the table with a header. -/
def openTable? : List String → Entries → Option Entries :=
  alongHeader? fun key entries =>
    match entries.lookup key with
    | none => some (entries ++ [(key, .table .header [])])
    | some (.table .implied t) => some (setNode key (.table .header t) entries)
    | some _ => none

/-- Opens one more table with a repeated header. -/
def appendTable? : List String → Entries → Option Entries :=
  alongHeader? fun key entries =>
    match entries.lookup key with
    | none => some (entries ++ [(key, .tables [[]])])
    | some (.tables items) => some (setNode key (.tables (items ++ [[]])) entries)
    | some _ => none

end Recurrence.Toml
