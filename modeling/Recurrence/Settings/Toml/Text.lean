import Recurrence.Text.Split

/-!
# Texts and keys of TOML documents

The smallest parts of a TOML document: spaces, line ends and comments, quoted texts, and keys.  A
line ends with a line feed, which a carriage return may precede; a text over several lines keeps its
line ends as they are.

A text is quoted with double quotes, and then has escapes, or with apostrophes.  Three of them
begin and end a text over several lines, and up to two more may stand before the last three.

## Main Definitions

* `skipSpaces`, `skipComment?`, `skipLines?`: what is between the parts of a document
* `readText?`: a quoted text
* `readKey?`: a key, in parts
-/

namespace Recurrence.Toml

open Text

/-- Is `c` a space or a tab? -/
def isSpace (c : Char) : Bool := c == ' ' || c == '\t'

/-- The text after its spaces and tabs. -/
def skipSpaces (s : List Char) : List Char := s.dropWhile isSpace

/-- May `c` stand in a comment or in a quoted text?  A tab may; other control characters may not. -/
def isPlain (c : Char) : Bool := c == '\t' || (0x20 ≤ c.toNat && c.toNat != 0x7F)

/-- The text after a line end, if it begins with one. -/
def lineEnd? : List Char → Option (List Char)
  | '\n' :: s => some s
  | '\r' :: '\n' :: s => some s
  | _ => none

/-- The text from the end of the comment that it may begin with. -/
def skipComment? : List Char → Option (List Char)
  | '#' :: s =>
    let body := s.takeWhile fun c => c ≠ '\n'
    let rest := s.dropWhile fun c => c ≠ '\n'
    let body := if rest ≠ [] ∧ body.getLast? = some '\r' then body.dropLast else body
    if body.all isPlain then some rest else none
  | s => some s

/-- The text after the spaces, comments and line ends it begins with.  There are at most as many
line ends as characters. -/
def skipLines? : Nat → List Char → Option (List Char)
  | 0, s => some s
  | fuel + 1, s =>
    match skipComment? (skipSpaces s) with
    | none => none
    | some s => match lineEnd? s with
      | some rest => skipLines? fuel rest
      | none => some s

/-- The value of a hexadecimal digit. -/
def hexValue? (c : Char) : Option Nat :=
  if '0' ≤ c ∧ c ≤ '9' then some (c.toNat - '0'.toNat)
  else if 'a' ≤ c ∧ c ≤ 'f' then some (c.toNat - 'a'.toNat + 10)
  else if 'A' ≤ c ∧ c ≤ 'F' then some (c.toNat - 'A'.toNat + 10)
  else none

/-- The digits of a base as a number. -/
def inBase? (digit? : Char → Option Nat) (base : Nat) (s : List Char) : Option Nat :=
  s.foldl (fun acc c => acc.bind fun n => (digit? c).map fun d => base * n + d) (some 0)

/-- The character with a hexadecimal code, if it is one. -/
def codePoint? (digits : List Char) : Option Char :=
  (inBase? hexValue? 16 digits).bind fun n => if n.isValidChar then some (Char.ofNat n) else none

/-- The character that a letter after a backslash stands for. -/
def escaped? : Char → Option Char
  | 'b' => some '\x08'
  | 't' => some '\t'
  | 'n' => some '\n'
  | 'f' => some '\x0c'
  | 'r' => some '\r'
  | 'e' => some '\x1b'
  | '"' => some '"'
  | '\\' => some '\\'
  | _ => none

/-- The character that the text after a backslash begins with, and what follows it. -/
def readEscape? : List Char → Option (Char × List Char)
  | 'x' :: s => (codePoint? (s.take 2)).bind fun c =>
    if s.length < 2 then none else some (c, s.drop 2)
  | 'u' :: s => (codePoint? (s.take 4)).bind fun c =>
    if s.length < 4 then none else some (c, s.drop 4)
  | 'U' :: s => (codePoint? (s.take 8)).bind fun c =>
    if s.length < 8 then none else some (c, s.drop 8)
  | c :: s => (escaped? c).map fun d => (d, s)
  | [] => none

/-- The text up to the closing quote, on one line, with escapes. -/
def readBasic? : Nat → List Char → Option (List Char × List Char)
  | 0, _ => none
  | fuel + 1, s =>
    match s with
    | [] => none
    | '"' :: rest => some ([], rest)
    | '\\' :: rest => do
      let (c, rest) ← readEscape? rest
      let (text, rest) ← readBasic? fuel rest
      return (c :: text, rest)
    | c :: rest =>
      if isPlain c then (readBasic? fuel rest).map fun r => (c :: r.1, r.2) else none

/-- The text up to the closing apostrophe, on one line, without escapes. -/
def readLiteral? (s : List Char) : Option (List Char × List Char) :=
  match cut? '\'' s with
  | some (text, rest) => if text.all isPlain then some (text, rest) else none
  | none => none

/-- The text after the spaces and line ends that it begins with. -/
def skipBlankLines : List Char → List Char
  | '\r' :: '\n' :: s => skipBlankLines s
  | c :: s => if isSpace c || c == '\n' then skipBlankLines s else c :: s
  | [] => []

/-- The text after the spaces and line ends that a backslash at the end of a line swallows, if the
backslash ends its line. -/
def skipContinuation? (s : List Char) : Option (List Char) :=
  (lineEnd? (skipSpaces s)).map skipBlankLines

/-- Does the text begin with three of this quote? -/
def startsTriple (quote : Char) (s : List Char) : Bool := s.take 3 == [quote, quote, quote]

/-- The quotes that may stand before the three closing ones, and what follows all of them. -/
def closeTriple (quote : Char) (s : List Char) : List Char × List Char :=
  let extra := ((s.drop 3).take 2).takeWhile fun c => c = quote
  (extra, s.drop (3 + extra.length))

/-- The text up to three closing quotes, over several lines, with escapes if the quotes are
double. -/
def readMultiline? (quote : Char) : Nat → List Char → Option (List Char × List Char)
  | 0, _ => none
  | fuel + 1, s =>
    if startsTriple quote s then some (closeTriple quote s)
    else match s with
      | [] => none
      | '\r' :: '\n' :: rest =>
        (readMultiline? quote fuel rest).map fun r => ('\r' :: '\n' :: r.1, r.2)
      | c :: rest =>
        if c = '\\' ∧ quote = '"' then
          match skipContinuation? rest with
          | some rest => readMultiline? quote fuel rest
          | none => do
            let (d, rest) ← readEscape? rest
            let (text, rest) ← readMultiline? quote fuel rest
            return (d :: text, rest)
        else if isPlain c || c == '\n' then
          (readMultiline? quote fuel rest).map fun r => (c :: r.1, r.2)
        else none

/-- The text after the line end that may follow three opening quotes. -/
def skipFirstLineEnd (s : List Char) : List Char := (lineEnd? s).getD s

/-- A quoted text, on one line or on several. -/
def readText? (s : List Char) : Option (List Char × List Char) :=
  if startsTriple '"' s then readMultiline? '"' (s.length + 1) (skipFirstLineEnd (s.drop 3))
  else if startsTriple '\'' s then
    readMultiline? '\'' (s.length + 1) (skipFirstLineEnd (s.drop 3))
  else match s with
    | '"' :: rest => readBasic? (s.length + 1) rest
    | '\'' :: rest => readLiteral? rest
    | _ => none

/-- May `c` stand in a key without quotes? -/
def isKeyChar (c : Char) : Bool := c.isAlphanum || c == '_' || c == '-'

/-- One part of a key. -/
def readKeyPart? (s : List Char) : Option (List Char × List Char) :=
  match s with
  | '"' :: rest => readBasic? (s.length + 1) rest
  | '\'' :: rest => readLiteral? rest
  | _ =>
    let part := s.takeWhile isKeyChar
    if part = [] then none else some (part, s.dropWhile isKeyChar)

/-- The parts of a key, with dots between them. -/
def readKeyParts? : Nat → List Char → Option (List String × List Char)
  | 0, _ => none
  | fuel + 1, s => do
    let (part, rest) ← readKeyPart? (skipSpaces s)
    match skipSpaces rest with
    | '.' :: rest =>
      let (parts, rest) ← readKeyParts? fuel rest
      return (String.ofList part :: parts, rest)
    | rest => return ([String.ofList part], rest)

/-- A key has at most this many parts. -/
def maxKeyParts : Nat := 80

/-- A key. -/
def readKey? (s : List Char) : Option (List String × List Char) :=
  (readKeyParts? s.length s).filter fun r => r.1.length ≤ maxKeyParts

end Recurrence.Toml
