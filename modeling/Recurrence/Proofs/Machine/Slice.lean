import Recurrence.Frequency.Expression
import Recurrence.Proofs.Machine.Checked

/-!
# Texts cut at places

A machine keeps a text as bytes and cuts it at places that count bytes, which is only allowed where a
character begins.  A range is cut at its first dash that is not its first character.  The places for
that are found by adding up the bytes of the first character, of what stands before the dash, and of the
dash.  **Each of them is where a character begins**, whatever characters the text has, since a dash is
one byte and all the other counts are those of whole parts of the text.

## Main Definitions

* `Machine.dropBytes`, `Machine.takeBytes`: what follows a place and what precedes it
* `Machine.placeOf?`: the place of a character
* `Machine.splitRange?`: the two values of a range

## Main Statements

* `Machine.dropBytes_append`, `Machine.takeBytes_append`: a text is cut between two of its parts
* `Machine.splitRange?_ok`: a range is cut where characters begin
-/

namespace Recurrence

namespace Text

theorem byteCount_append (a b : List Char) : byteCount (a ++ b) = byteCount a + byteCount b := by
  induction a with
  | nil => rw [List.nil_append, byteCount, Nat.zero_add]
  | cons c a ih => rw [List.cons_append, byteCount, byteCount, ih, Nat.add_assoc]

end Text

namespace Machine

open Text (byteCount byteCount_append)

/-- What follows a place of a text. -/
def dropBytes : Nat → List Char → Checked (List Char)
  | 0, s => return s
  | _ + 1, [] => .error .noBoundary
  | n + 1, c :: s =>
    if c.utf8Size ≤ n + 1 then dropBytes (n + 1 - c.utf8Size) s else .error .noBoundary

/-- What precedes a place of a text. -/
def takeBytes : Nat → List Char → Checked (List Char)
  | 0, _ => return []
  | _ + 1, [] => .error .noBoundary
  | n + 1, c :: s =>
    if c.utf8Size ≤ n + 1 then do
      let rest ← takeBytes (n + 1 - c.utf8Size) s
      return c :: rest
    else .error .noBoundary

/-- The first place of a character. -/
def placeOf? (c : Char) : List Char → Option Nat
  | [] => none
  | d :: s => if d = c then some 0 else (placeOf? c s).map fun place => d.utf8Size + place

/-- The parts of an item around its first dash that is not its first character. -/
def splitRange? (item : List Char) : Checked (Option (List Char × List Char)) :=
  match item with
  | [] => return none
  | first :: _ => do
    let skip := first.utf8Size
    let tail ← dropBytes skip item
    match placeOf? '-' tail with
    | none => return none
    | some place => do
      let dash := place + skip
      let low ← takeBytes dash item
      let high ← dropBytes (dash + 1) item
      return some (low, high)

/-! ## Places between parts -/

theorem dropBytes_append (a b : List Char) : dropBytes (byteCount a) (a ++ b) = .ok b := by
  induction a with
  | nil =>
      rw [byteCount, dropBytes]
      rfl
  | cons c a ih =>
      obtain ⟨n, hn⟩ := Nat.exists_eq_succ_of_ne_zero c.utf8Size_pos.ne'
      have hcount : byteCount (c :: a) = n + byteCount a + 1 := by
        rw [byteCount, hn]
        omega
      have hrest : n + byteCount a + 1 - c.utf8Size = byteCount a := by omega
      rw [hcount, List.cons_append, dropBytes, if_pos (by omega), hrest, ih]

theorem takeBytes_append (a b : List Char) : takeBytes (byteCount a) (a ++ b) = .ok a := by
  induction a with
  | nil =>
      rw [byteCount, takeBytes]
      rfl
  | cons c a ih =>
      obtain ⟨n, hn⟩ := Nat.exists_eq_succ_of_ne_zero c.utf8Size_pos.ne'
      have hcount : byteCount (c :: a) = n + byteCount a + 1 := by
        rw [byteCount, hn]
        omega
      have hrest : n + byteCount a + 1 - c.utf8Size = byteCount a := by omega
      rw [hcount, List.cons_append, takeBytes, if_pos (by omega), hrest, ih]
      rfl

/-- The place of a character counts the bytes before it. -/
theorem placeOf?_eq (c : Char) (s : List Char) :
    placeOf? c s = (Text.cut? c s).map fun parts => byteCount parts.1 := by
  induction s with
  | nil => rfl
  | cons d s ih =>
      rw [placeOf?, Text.cut?]
      split
      · rfl
      · rw [ih, Option.map_map, Option.map_map]
        rfl

/-- **A range is cut where characters begin.** -/
theorem splitRange?_ok (item : List Char) :
    splitRange? item = .ok (FrequencySpec.splitRange? item) := by
  cases item with
  | nil => rfl
  | cons first tail =>
      have hskip : dropBytes first.utf8Size (first :: tail) = .ok tail :=
        dropBytes_append [first] tail
      rw [splitRange?, FrequencySpec.splitRange?, hskip, ok_bind, placeOf?_eq]
      cases hcut : Text.cut? '-' tail with
      | none => rfl
      | some parts =>
          obtain ⟨low, high⟩ := parts
          obtain ⟨rfl, -⟩ := Text.cut?_eq_some hcut
          have hdash : byteCount low + first.utf8Size = byteCount (first :: low) := Nat.add_comm _ _
          have hafter : byteCount (first :: low) + 1 = byteCount (first :: low ++ ['-']) := by
            rw [byteCount_append]
            rfl
          have htake : takeBytes (byteCount (first :: low)) (first :: (low ++ '-' :: high)) =
              .ok (first :: low) := takeBytes_append (first :: low) ('-' :: high)
          have hdrop : dropBytes (byteCount (first :: low ++ ['-'])) (first :: (low ++ '-' :: high)) =
              .ok high := by
            have happend := dropBytes_append (first :: low ++ ['-']) high
            rwa [List.append_assoc, List.singleton_append, List.cons_append] at happend
          simp only [Option.map_some, hdash, hafter, htake, hdrop, ok_bind]
          rfl

end Machine

end Recurrence
