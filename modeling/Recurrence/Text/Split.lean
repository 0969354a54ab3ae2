/-!
# Cutting texts at a separator

Texts are lists of characters while they are read.  `cut?` divides a text at the first separator,
`splitAll` at every one; neither keeps the separators.

## Main Definitions

* `cut?`: the parts before and after the first separator, if there is one
* `splitAll`: the parts between separators, always at least one
* `joinWith`: parts with a separator between each two, the inverse of `splitAll`
* `slice`: the part between two places that count bytes
* `sameLetters`: equality up to the case of ASCII letters
-/

namespace Recurrence.Text

/-- The parts of `s` before and after its first `sep`. -/
def cut? (sep : Char) : List Char → Option (List Char × List Char)
  | [] => none
  | c :: s => if c = sep then some ([], s) else (cut? sep s).map fun p => (c :: p.1, p.2)

/-- The parts of `s` between its separators.  A text without a separator is its only part. -/
def splitAll (sep : Char) : List Char → List (List Char)
  | [] => [[]]
  | c :: s =>
    if c = sep then [] :: splitAll sep s
    else match splitAll sep s with
      | [] => [[c]]
      | part :: parts => (c :: part) :: parts

/-- The parts with `sep` between each two. -/
def joinWith (sep : List Char) : List (List Char) → List Char
  | [] => []
  | [part] => part
  | part :: parts => part ++ sep ++ joinWith sep parts

/-- The number of bytes of a text. -/
def byteCount : List Char → Nat
  | [] => 0
  | c :: s => c.utf8Size + byteCount s

/-- The text without its first `n` bytes. -/
def dropBytes : Nat → List Char → List Char
  | 0, s => s
  | _ + 1, [] => []
  | n + 1, c :: s => dropBytes (n + 1 - c.utf8Size) s

/-- The first `n` bytes of a text. -/
def takeBytes : Nat → List Char → List Char
  | 0, _ => []
  | _ + 1, [] => []
  | n + 1, c :: s => c :: takeBytes (n + 1 - c.utf8Size) s

/-- The part of a text between two places, which count bytes. -/
def slice (start stop : Nat) (s : List Char) : List Char :=
  takeBytes (stop - start) (dropBytes start s)

/-- Equality of texts up to the case of the ASCII letters. -/
def sameLetters (a b : List Char) : Bool := a.map Char.toLower == b.map Char.toLower

/-- The two parts and the separator make up the text, and the first part holds no separator. -/
theorem cut?_eq_some {sep : Char} {s a b : List Char} (h : cut? sep s = some (a, b)) :
    s = a ++ sep :: b ∧ sep ∉ a := by
  induction s generalizing a with
  | nil => simp [cut?] at h
  | cons c s ih =>
    by_cases hc : c = sep
    · simp only [cut?, hc, if_true, Option.some.injEq, Prod.mk.injEq] at h
      obtain ⟨rfl, rfl⟩ := h
      simp [hc]
    · simp only [cut?, hc, if_false, Option.map_eq_some_iff] at h
      obtain ⟨p, hp, he⟩ := h
      simp only [Prod.mk.injEq] at he
      obtain ⟨rfl, rfl⟩ := he
      obtain ⟨rfl, hm⟩ := ih hp
      simp [hm, Ne.symm hc]

theorem cut?_eq_none {sep : Char} {s : List Char} : cut? sep s = none ↔ sep ∉ s := by
  induction s with
  | nil => simp [cut?]
  | cons c s ih =>
    by_cases hc : c = sep
    · simp [cut?, hc]
    · simp [cut?, hc, ih, Ne.symm hc]

theorem splitAll_ne_nil (sep : Char) (s : List Char) : splitAll sep s ≠ [] := by
  cases s with
  | nil => simp [splitAll]
  | cons c s =>
    rw [splitAll]
    split
    · simp
    · split <;> simp

end Recurrence.Text
