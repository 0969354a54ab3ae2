import Recurrence.Settings.Toml.Scalar
import Recurrence.Settings.Toml.Table

/-!
# TOML documents

Reads a TOML document into a tree of values.  A document is a list of lines: a header opens the
table that the following entries belong to, and an entry puts a value under a key.  Keys may be
dotted, and then name a table within the open one.

## Main Definitions

* `readValue?`, `readLines?`: the readers
* `Toml.read?`: a document
-/

namespace Recurrence.Toml

mutual

/-- A value: quoted, a list, a table in braces, or a word.  Lists and tables stand within each other
down to a depth. -/
def readValue? : Nat → Nat → List Char → Option (SettingValue × List Char)
  | 0, _, _ => none
  | fuel + 1, depth, s =>
    match s, depth with
    | '[' :: _, 0 => none
    | '[' :: rest, depth + 1 => (readItems? fuel depth rest).map fun r => (.list r.1, r.2)
    | '\x7b' :: _, 0 => none
    | '\x7b' :: rest, depth + 1 =>
      (readPairs? fuel depth [] rest).map fun r => (.table (toValues r.1), r.2)
    | '"' :: _, _ => (readText? s).map fun r => (.text (String.ofList r.1), r.2)
    | '\'' :: _, _ => (readText? s).map fun r => (.text (String.ofList r.1), r.2)
    | _, _ => readScalar? s

/-- The items of a list up to its closing bracket. -/
def readItems? : Nat → Nat → List Char → Option (List SettingValue × List Char)
  | 0, _, _ => none
  | fuel + 1, depth, s => do
    let s ← skipLines? s.length s
    match s with
    | ']' :: rest => return ([], rest)
    | _ =>
      let (v, s) ← readValue? fuel depth s
      let s ← skipLines? s.length s
      match s with
      | ',' :: rest =>
        let (items, rest) ← readItems? fuel depth rest
        return (v :: items, rest)
      | ']' :: rest => return ([v], rest)
      | _ => none

/-- The entries of a table up to its closing brace. -/
def readPairs? : Nat → Nat → Entries → List Char → Option (Entries × List Char)
  | 0, _, _, _ => none
  | fuel + 1, depth, entries, s => do
    let s ← skipLines? s.length s
    match s with
    | '\x7d' :: rest => return (entries, rest)
    | _ =>
      let (key, s) ← readKey? s
      match s with
      | '=' :: s =>
        let (v, s) ← readValue? fuel depth (skipSpaces s)
        let entries ← bindKey? key v entries
        let s ← skipLines? s.length s
        match s with
        | ',' :: rest => readPairs? fuel depth entries rest
        | '\x7d' :: rest => return (entries, rest)
        | _ => none
      | _ => none

end

/-- Lists and tables in braces stand within each other down to this depth. -/
def maxDepth : Nat := 80

/-- The text after the end of a line, on which nothing but a comment may still stand. -/
def endLine? (s : List Char) : Option (List Char) := do
  let s ← skipComment? (skipSpaces s)
  if s = [] then return [] else lineEnd? s

/-- The lines of a document, added to what it has built.  `path` is the header of the open
table. -/
def readLines? : Nat → List String → Entries → List Char → Option Entries
  | 0, _, _, _ => none
  | fuel + 1, path, entries, s => do
    let s ← skipLines? s.length s
    match s with
    | [] => return entries
    | '[' :: '[' :: rest =>
      let (path, rest) ← readKey? rest
      match rest with
      | ']' :: ']' :: rest =>
        let entries ← appendTable? path entries
        readLines? fuel path entries (← endLine? rest)
      | _ => none
    | '[' :: rest =>
      let (path, rest) ← readKey? rest
      match rest with
      | ']' :: rest =>
        let entries ← openTable? path entries
        readLines? fuel path entries (← endLine? rest)
      | _ => none
    | _ =>
      let (key, rest) ← readKey? s
      match rest with
      | '=' :: rest =>
        let (v, rest) ← readValue? (rest.length + 1) maxDepth (skipSpaces rest)
        let entries ← withinTable? (bindKey? key v) path entries
        readLines? fuel path entries (← endLine? rest)
      | _ => none

/-- The text without the byte-order mark that it may begin with. -/
def skipMark : List Char → List Char
  | '\ufeff' :: s => s
  | s => s

/-- The tree of values that a document is. -/
def read? (document : String) : Option SettingValue :=
  let s := skipMark document.toList
  (readLines? (s.length + 1) [] [] s).map fun entries => .table (toValues entries)

end Recurrence.Toml
