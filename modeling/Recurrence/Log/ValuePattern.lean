import Recurrence.Text.Alphanumeric
import Recurrence.Text.Blank

/-!
# Patterns for values of fields

A log directive may ask for a value of a field by a regular expression.  No record is ever held
against one, as the program opens no spans, but **a directive counts only if its pattern is well
formed**, and that is all that is decided here.

A pattern stands between braces and ends at the first that closes, so no brace closes within it.
Hence a brace that opens cannot begin a counted repetition.

Without the flag `u` a pattern is about bytes, and what it matches has to be ASCII.  With the flag,
which is set at first, it is about characters, but no properties of characters are known.  So
patterns cannot ask for digits, blanks, words or the boundaries of words then, and the flag `i`,
under which the case of letters does not count, leaves no character that may be asked for.

## Main Definitions

* `PatternFlags`: the flags that decide how a pattern is read
* `readEscape`, `readClass`, `readGroup`: the parts of patterns
* `isPattern`: is a text a well formed pattern?
-/

namespace Recurrence.ValuePattern

open Text

/-- The flags that decide how a pattern is read. -/
structure PatternFlags where
  /-- Is it about characters, and not about bytes?  The flag `u`. -/
  unicode : Bool := true
  /-- Does the case of letters not count?  The flag `i`. -/
  anyCase : Bool := false
  /-- Do blanks and comments not count?  The flag `x`. -/
  spaced : Bool := false
deriving DecidableEq

namespace PatternFlags

/-- May single characters be asked for? -/
def allowsCharacters (flags : PatternFlags) : Bool := !(flags.anyCase && flags.unicode)

/-- The text after blanks and comments, which go from `#` to the end of the line. -/
def afterComments (inComment : Bool) : List Char → List Char
  | [] => []
  | c :: s =>
    if inComment then afterComments (c != '\n') s
    else if isBlank c then afterComments false s
    else if c = '#' then afterComments true s
    else c :: s

/-- The text after what does not count. -/
def skip (flags : PatternFlags) (s : List Char) : List Char :=
  if flags.spaced then afterComments false s else s

/-- The flags with one of them set or taken away.  Those that decide only what is matched leave them
as they are. -/
def set? (flags : PatternFlags) (on : Bool) (c : Char) : Option PatternFlags :=
  if c = 'u' then some { flags with unicode := on }
  else if c = 'i' then some { flags with anyCase := on }
  else if c = 'x' then some { flags with spaced := on }
  else if ['m', 's', 'U', 'R'].contains c then some flags
  else none

end PatternFlags

/-! ## Escapes -/

/-- What an escape stands for. -/
inductive EscapeMeaning where
  | character (c : Char)
  | characterClass
  | boundary
deriving DecidableEq

/-- The value of a hexadecimal digit. -/
def hexValue? (c : Char) : Option Nat :=
  if '0' ≤ c ∧ c ≤ '9' then some (c.toNat - '0'.toNat)
  else if 'a' ≤ c ∧ c ≤ 'f' then some (c.toNat - 'a'.toNat + 10)
  else if 'A' ≤ c ∧ c ≤ 'F' then some (c.toNat - 'A'.toNat + 10)
  else none

/-- Reads hexadecimal digits after those of `n`. -/
def readHex (flags : PatternFlags) : Nat → Nat → List Char → Option (Nat × List Char)
  | 0, n, s => some (n, s)
  | digits + 1, n, s =>
    match flags.skip s with
    | [] => none
    | c :: rest => (hexValue? c).bind fun d => readHex flags digits (16 * n + d) rest

/-- The character with a code point.  One that is written as a byte is ASCII unless the pattern is
about characters. -/
def character? (flags : PatternFlags) (isByte : Bool) (n : Nat) : Option EscapeMeaning :=
  if n.isValidChar && (flags.unicode || !isByte || n < 0x80) then some (.character (Char.ofNat n))
  else none

/-- Reads an escape after its backslash. -/
def readEscape (flags : PatternFlags) : List Char → Option (EscapeMeaning × List Char)
  | [] => none
  | c :: s =>
    let hex (digits : Nat) : Option (EscapeMeaning × List Char) :=
      (readHex flags digits 0 s).bind fun r =>
        (character? flags (digits == 2) r.1).map fun meaning => (meaning, r.2)
    if c = 'x' then hex 2
    else if c = 'u' then hex 4
    else if c = 'U' then hex 8
    else if ['d', 's', 'w'].contains c then
      if flags.unicode then none else some (.characterClass, s)
    else if ['b', '<', '>'].contains c then
      if flags.unicode then none else some (.boundary, s)
    else if c = 'A' ∨ c = 'z' then some (.boundary, s)
    else if c = 'a' then some (.character '\x07', s)
    else if c = 'f' then some (.character '\x0c', s)
    else if c = 'n' then some (.character '\n', s)
    else if c = 'r' then some (.character '\r', s)
    else if c = 't' then some (.character '\t', s)
    else if c = 'v' then some (.character '\x0b', s)
    else if c.toNat < 0x80 ∧ !c.isAlphanum then some (.character c, s)
    else none

/-! ## Classes -/

/-- The names of the classes of ASCII characters. -/
def asciiClasses : List String :=
  ["alnum", "alpha", "ascii", "blank", "cntrl", "digit", "graph", "lower", "print", "punct",
    "space", "upper", "word", "xdigit"]

/-- The text after a class of ASCII characters, of which the opening bracket has been read. -/
def afterAsciiClass? : List Char → Option (List Char)
  | ':' :: s =>
    let s := match s with
      | '^' :: t => t
      | t => t
    match s.dropWhile (· != ':') with
    | ':' :: ']' :: rest =>
      if asciiClasses.contains (String.ofList (s.takeWhile (· != ':'))) then some rest else none
    | _ => none
  | _ => none

/-- The text after the hyphens at the beginning of a class. -/
def afterHyphens (flags : PatternFlags) : Nat → List Char → List Char
  | fuel + 1, '-' :: s => afterHyphens flags fuel (flags.skip s)
  | _, s => s

/-- The text after the beginning of a class, of which the opening bracket has been read: a caret,
and hyphens or a closing bracket, which are members there.  The complement of a class is not
ASCII. -/
def openClass? (flags : PatternFlags) (s : List Char) : Option (List Char) :=
  let s := flags.skip s
  let members : List Char → List Char := fun s =>
    match s with
    | ']' :: rest => flags.skip rest
    | s => afterHyphens flags s.length s
  match s with
  | '^' :: rest => if flags.unicode then some (members (flags.skip rest)) else none
  | s => some (members s)

/-- Reads a member of a class, or the end of a range. -/
def readMember (flags : PatternFlags) : List Char → Option (EscapeMeaning × List Char)
  | [] => none
  | '\\' :: s => readEscape flags s
  | c :: s => some (.character c, s)

/-- May this be a member of a class? -/
def isMember (flags : PatternFlags) : EscapeMeaning → Bool
  | .character c => flags.unicode || c.toNat < 0x80
  | .characterClass => true
  | .boundary => false

/-- The text after a member of a class, or after a range. -/
def afterRange? (flags : PatternFlags) (s : List Char) : Option (List Char) := do
  let (first, s) ← readMember flags s
  let s := flags.skip s
  let alone := if isMember flags first then some s else none
  match s with
  | '-' :: rest =>
    let rest := flags.skip rest
    if rest.head? = some ']' ∨ rest.head? = some '-' then alone
    else
      let (last, rest) ← readMember flags rest
      match first, last with
      | .character a, .character b =>
        if isMember flags first && isMember flags last && a ≤ b then some rest else none
      | _, _ => none
  | _ => alone

/-- The text after a class that stands in `depth` more of them, from one of its members. -/
def afterMembers? (flags : PatternFlags) : Nat → Nat → List Char → Option (List Char)
  | 0, _, _ => none
  | fuel + 1, depth, s =>
    match flags.skip s with
    | [] => none
    | '[' :: rest =>
      match afterAsciiClass? rest with
      | some rest => afterMembers? flags fuel depth rest
      | none => (openClass? flags rest).bind (afterMembers? flags fuel (depth + 1))
    | ']' :: rest =>
      match depth with
      | 0 => some rest
      | depth + 1 => afterMembers? flags fuel depth rest
    | '&' :: '&' :: rest => afterMembers? flags fuel depth rest
    | '-' :: '-' :: rest => afterMembers? flags fuel depth rest
    | '~' :: '~' :: rest => afterMembers? flags fuel depth rest
    | s => (afterRange? flags s).bind (afterMembers? flags fuel depth)

/-- The text after a class, of which the opening bracket has been read. -/
def afterClass? (flags : PatternFlags) (s : List Char) : Option (List Char) :=
  if flags.allowsCharacters then
    (openClass? flags s).bind (afterMembers? flags (s.length + 1) 0)
  else none

/-! ## Groups -/

/-- What follows an opening parenthesis. -/
inductive GroupStart where
  /-- A group with flags of its own, and the name it may have. -/
  | group (flags : PatternFlags) (name : Option (List Char))
  /-- Flags for the rest of the group around. -/
  | flags (flags : PatternFlags)

/-- Reads flags up to the colon or the parenthesis after them.  `used` are those that have been
read, and `on` tells whether the next ones are set. -/
def readFlags (used : List Char) (on : Bool) (flags : PatternFlags) :
    List Char → Option (GroupStart × List Char)
  | [] => none
  | c :: s =>
    if c = ':' ∨ c = ')' then
      if used.head? = some '-' then none
      else if c = ':' then some (.group flags none, s)
      else if used = [] then none
      else some (.flags flags, s)
    else if used.contains c then none
    else if c = '-' then readFlags (c :: used) false flags s
    else (flags.set? on c).bind fun flags => readFlags (c :: used) on flags s

/-- May `c` stand in the name of a group? -/
def isNameChar (c : Char) : Bool := isAlphanumeric c || ['_', '.', '[', ']'].contains c

/-- Reads the name of a group up to the bracket after it. -/
def readName (flags : PatternFlags) (s : List Char) : Option (GroupStart × List Char) :=
  let name := s.takeWhile isNameChar
  match name, s.dropWhile isNameChar with
  | c :: _, '>' :: rest =>
    let begins := isAlphanumeric c && !c.isDigit || c == '_'
    if begins then some (.group flags (some name), rest) else none
  | _, _ => none

/-- Reads the start of a group after its opening parenthesis. -/
def readGroup (flags : PatternFlags) (s : List Char) : Option (GroupStart × List Char) :=
  match flags.skip s with
  | '?' :: 'P' :: '<' :: rest => readName flags rest
  | '?' :: '<' :: rest => readName flags rest
  | '?' :: rest => readFlags [] true flags rest
  | rest => some (.group flags none, rest)

/-! ## Patterns -/

/-- Where the reading of a pattern is. -/
structure PatternState where
  flags : PatternFlags := {}
  /-- The flags of the groups around, which hold again when a group closes. -/
  around : List PatternFlags := []
  names : List (List Char) := []
  /-- Is there something in front that may be repeated? -/
  repeatable : Bool := false

/-- Is the rest of a pattern well formed? -/
def isRest : Nat → PatternState → List Char → Bool
  | 0, _, _ => false
  | fuel + 1, state, s =>
    let goOn (s : List Char) : Bool := isRest fuel { state with repeatable := true } s
    match state.flags.skip s with
    | [] => state.around.isEmpty
    | '(' :: rest =>
      match readGroup state.flags rest with
      | some (.group flags name, rest) =>
        if name.any state.names.contains then false
        else isRest fuel
          { flags, around := state.flags :: state.around, names := name.toList ++ state.names } rest
      | some (.flags flags, rest) => isRest fuel { state with flags, repeatable := false } rest
      | none => false
    | ')' :: rest =>
      match state.around with
      | flags :: around => isRest fuel { state with flags, around, repeatable := true } rest
      | [] => false
    | '|' :: rest => isRest fuel { state with repeatable := false } rest
    | '[' :: rest => (afterClass? state.flags rest).any goOn
    | '\x7b' :: _ => false
    | '.' :: rest => state.flags.unicode && goOn rest
    | '^' :: rest => goOn rest
    | '$' :: rest => goOn rest
    | '\\' :: rest =>
      match readEscape state.flags rest with
      | some (.character _, rest) => state.flags.allowsCharacters && goOn rest
      | some (_, rest) => goOn rest
      | none => false
    | c :: rest =>
      if ['?', '*', '+'].contains c then
        state.repeatable &&
          match rest with
          | '?' :: rest => goOn rest
          | rest => goOn rest
      else state.flags.allowsCharacters && goOn rest

/-- Is a text a well formed pattern? -/
def isPattern (s : List Char) : Bool := isRest (s.length + 1) {} s

end Recurrence.ValuePattern
