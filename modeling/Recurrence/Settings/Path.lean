import Recurrence.Text.Number
import Recurrence.Text.Split

/-!
# Paths of settings

A path leads from the top of a tree of settings to one of its values, along the keys of tables and
the places of lists: `search.count`, `search[1]`.  A place below zero counts from the end of its
list.  A text that is no path is a key of its own.

## Main Definitions

* `PathStep`, `SettingPath`
* `SettingPath.ofText`: the path, or the key, that a text is
-/

namespace Recurrence

open Text

/-- A step on the way to a setting. -/
inductive PathStep where
  | key (name : String)
  | place (n : Int)
deriving DecidableEq, Repr

/-- The way to a setting. -/
abbrev SettingPath := List PathStep

namespace SettingPath

/-- May `c` stand in a key of a path? -/
def isKeyChar (c : Char) : Bool := c.isAlphanum || c == '_' || c == '-'

/-- Is `c` a space or a tab? -/
def isSpace (c : Char) : Bool := c == ' ' || c == '\t'

/-- A place: digits after at most a minus sign, with spaces around them. -/
def readPlace? (s : List Char) : Option Int :=
  let s := ((s.dropWhile isSpace).reverse.dropWhile isSpace).reverse
  if s.head? = some '+' then none else int64? s

/-- A place with the bracket that closes it. -/
def readSubscript? (s : List Char) : Option PathStep :=
  if s.getLast? = some ']' then (readPlace? s.dropLast).map .place else none

/-- The steps of a part between two points: a key and the places after it, in brackets. -/
def readPart? (s : List Char) : Option SettingPath :=
  let name := s.takeWhile isKeyChar
  match name, splitAll '[' (s.dropWhile isKeyChar) with
  | _ :: _, [] :: places =>
    (places.mapM readSubscript?).map fun steps => .key (String.ofList name) :: steps
  | _, _ => none

/-- The path that a text is, else the text as a key. -/
def ofText (s : List Char) : SettingPath :=
  match (splitAll '.' s).mapM readPart? with
  | some parts => parts.flatten
  | none => [.key (String.ofList s)]

end SettingPath

end Recurrence
