import Recurrence.Text.Alphanumeric
import Recurrence.Text.Blank
import Recurrence.Text.Split

/-!
# Variable files

A variable file gives environment variables that are not set yet, one `NAME=value` to an entry.  An
entry is a line, or several when a quote, a backslash or a blank at the end of the text keeps it
open.  A value may be quoted, may have escapes, and may use the value of another variable after a
dollar sign; a comment begins with `#` after a blank.

Entries are read in turn.  The first one that is not well formed ends the reading, and the entries
before it count.

## Main Definitions

* `entriesOf`: the entries of a file
* `readEntry`: the variable that an entry sets
* `loadVariables`: the variables after a file has been read
-/

namespace Recurrence.VariableFile

open Text

/-- Environment variables, by name. -/
abbrev Variables := List (String × String)

/-! ## Entries -/

/-- What keeps an entry open at some point of it. -/
inductive Opening where
  /-- Nothing. -/
  | closed
  /-- A backslash outside quotes. -/
  | escape
  /-- A blank outside quotes, after which a comment may begin. -/
  | blank
  /-- An open quote. -/
  | quote (q : Char)
  /-- A backslash within quotes. -/
  | quoteEscape (q : Char)
deriving DecidableEq

/-- What keeps an entry open after one more character, if no comment begins with it. -/
def Opening.step (state : Opening) (c : Char) : Option Opening :=
  match state with
  | .escape => some .closed
  | .quote q => some (if c = '\\' then .quoteEscape q else if c = q then .closed else .quote q)
  | .quoteEscape q => some (.quote q)
  | .blank =>
    if c = '#' then none
    else if c = '\\' then some .escape
    else if c = '"' ∨ c = '\'' then some (.quote c)
    else some .closed
  | .closed =>
    if isBlank c ∧ c ≠ '\n' ∧ c ≠ '\r' then some .blank
    else if c = '\\' then some .escape
    else if c = '"' ∨ c = '\'' then some (.quote c)
    else some .closed

/-- What a line leaves of an entry. -/
inductive LineResult where
  /-- The entry goes on. -/
  | goesOn (state : Opening)
  /-- A comment begins after this much of the line. -/
  | comment (before : List Char)

/-- Goes through a line, from what keeps its entry open. -/
def scanLine : Opening → List Char → List Char → LineResult
  | state, _, [] => .goesOn state
  | state, before, c :: s =>
    match state.step c with
    | none => .comment before.reverse
    | some state => scanLine state (c :: before) s

/-- The lines of a text, with their ends. -/
def linesOf : List Char → List (List Char)
  | [] => []
  | c :: s =>
    if c = '\n' then [c] :: linesOf s
    else match linesOf s with
      | [] => [[c]]
      | line :: lines => (c :: line) :: lines

/-- A text without the line end that it may have. -/
def dropLineEnd (s : List Char) : List Char :=
  match s.reverse with
  | '\n' :: '\r' :: rest => rest.reverse
  | '\n' :: rest => rest.reverse
  | _ => s

/-- The entries of the lines of a file, from the part `sofar` of an entry that is still open.  An
entry that the file leaves open is not well formed, and stands as `none`. -/
def entriesFrom : Opening → List Char → List (List Char) → List (Option (List Char))
  | state, _, [] => if state = .closed then [] else [none]
  | state, sofar, line :: lines =>
    let text := sofar ++ line
    if (trimLeft text).head? = some '#' then some [] :: entriesFrom .closed [] lines
    else match scanLine state [] line with
      | .comment before => some (sofar ++ before) :: entriesFrom .closed [] lines
      | .goesOn .closed => some (dropLineEnd text) :: entriesFrom .closed [] lines
      | .goesOn state => entriesFrom state text lines

/-- The entries of a file. -/
def entriesOf (text : List Char) : List (Option (List Char)) :=
  entriesFrom .closed [] (linesOf text)

/-! ## Values -/

/-- How far the reading of a value has come. -/
inductive ValueState where
  /-- Outside quotes. -/
  | plain
  /-- After a blank that ends the value. -/
  | ended
  /-- Between single quotes, which keep everything as it is. -/
  | single
  /-- Between double quotes. -/
  | double
deriving DecidableEq

/-- The value of a variable, the empty text if it has none.  A variable that was set before the file
was read wins over one that the file has set. -/
def valueOf (env before : Variables) (name : String) : String :=
  ((env.lookup name).or (before.lookup name)).getD ""

/-- Reads a value.  `use` gives the values of other variables.  After a dollar sign a name ends
before the first character that is no letter or digit, and that character is kept as it is; in
braces any name may stand. -/
def readValue (use : String → String) : Nat → ValueState → List Char → Option (List Char)
  | 0, _, _ => none
  | _ + 1, state, [] => if state = .single ∨ state = .double then none else some []
  | fuel + 1, state, c :: s =>
    let keep (c : Char) (state : ValueState) (s : List Char) : Option (List Char) :=
      (readValue use fuel state s).map (c :: ·)
    match state with
    | .ended =>
      if c = ' ' ∨ c = '\t' then readValue use fuel .ended s
      else if c = '#' then some []
      else none
    | .single => if c = '\'' then readValue use fuel .plain s else keep c .single s
    | _ =>
      if c = '$' then
        match s with
        | '\x7b' :: t =>
          match cut? '\x7d' t with
          | none => none
          | some (name, rest) =>
            (readValue use fuel state rest).map ((use (String.ofList name)).toList ++ ·)
        | _ =>
          let value := (use (String.ofList (s.takeWhile isAlphanumeric))).toList
          (match s.dropWhile isAlphanumeric with
            | '$' :: rest => readValue use fuel state ('$' :: rest)
            | d :: rest => keep d state rest
            | [] => readValue use fuel state []).map (value ++ ·)
      else if c = '\\' then
        match s with
        | [] => if state = .double then none else some []
        | d :: rest =>
          if d = 'n' then keep '\n' state rest
          else if ['\\', '\'', '"', '$', ' '].contains d then keep d state rest
          else none
      else if state = .double then
        if c = '"' then readValue use fuel .plain s else keep c .double s
      else if c = '\'' then readValue use fuel .single s
      else if c = '"' then readValue use fuel .double s
      else if c = ' ' ∨ c = '\t' then readValue use fuel .ended s
      else keep c .plain s

/-- A name: a letter or an underscore, then letters, digits, underscores and points. -/
def readName (s : List Char) : Option (List Char × List Char) :=
  match s with
  | [] => none
  | c :: _ =>
    if c.isAlpha || c == '_' then
      let isPart := fun c : Char => c.isAlphanum || c == '_' || c == '.'
      some (s.takeWhile isPart, s.dropWhile isPart)
    else none

/-- The text after an equals sign. -/
def afterEquals : List Char → Option (List Char)
  | '=' :: s => some s
  | _ => none

/-- The variable that an entry sets.  There is none in an empty entry and in a comment; an entry
that is not well formed is refused. -/
def readEntry (use : String → String) (entry : List Char) : Option (Option (String × String)) :=
  let s := trim entry
  if s = [] ∨ s.head? = some '#' then some none
  else do
    let (name, rest) ← readName s
    let rest := trimLeft rest
    let (name, rest) ← (match afterEquals rest with
      | some rest => some (name, rest)
      | none =>
        if name = "export".toList then do
          let (name, rest) ← readName rest
          return (name, ← afterEquals (trimLeft rest))
        else none)
    let rest := trimLeft rest
    let value ← if rest = [] ∨ rest.head? = some '#' then some []
      else readValue use (rest.length + 1) .plain rest
    return some (String.ofList name, String.ofList value)

/-- The variables after the entries were read in turn.  A variable that is set is left as it is.
`before` holds what the entries read so far give, set or not. -/
def loadEntries : List (Option (List Char)) → Variables → Variables → Variables
  | [], _, env => env
  | none :: _, _, env => env
  | some entry :: entries, before, env =>
    match readEntry (valueOf env before) entry with
    | none => env
    | some none => loadEntries entries before env
    | some (some (name, value)) =>
      loadEntries entries ((name, value) :: before)
        (if (env.lookup name).isSome then env else env ++ [(name, value)])

/-- The variables after a file was read. -/
def loadVariables (text : String) (env : Variables) : Variables :=
  let s := match text.toList with
    | '\ufeff' :: s => s
    | s => s
  loadEntries (entriesOf s) [] env

end Recurrence.VariableFile
