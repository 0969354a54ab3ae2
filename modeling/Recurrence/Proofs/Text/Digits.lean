import Mathlib.Data.Nat.Digits.Defs
import Recurrence.Proofs.Text.Token

/-!
# Numbers of a fixed width

The numbers of a date and a time are printed with zeros in front, up to a width.  Zeros in front do not
change the number that digits make up, so **a padded number is read as the number**, and if the number
fits into the width the text has exactly that many characters.

## Main Statements

* `writesNatural_padded`: a padded number is a way to write the number
* `length_padded`: how long it is
-/

namespace Recurrence.Text

variable {n : Nat} {s : List Char}

/-! ## Digits -/

theorem isDigit_eq (c : Char) : isDigit c = c.isDigit := by
  cases h : c.isDigit with
  | true => rw [isDigit, digitValue?_of_isDigit h, Option.isSome_some]
  | false =>
      rw [isDigit, Option.isSome_eq_false_iff, Option.isNone_iff_eq_none,
        Option.eq_none_iff_forall_ne_some]
      intro d hd
      rw [isDigit_of_digitValue? hd] at h
      cases h

theorem isBlank_of_isDigit {c : Char} (h : c.isDigit = true) : isBlank c = false :=
  isBlank_of_isAlphanum (by rw [Char.isAlphanum, h, Bool.or_true])

/-- A written number begins with a digit. -/
theorem WritesNatural.exists_cons (h : WritesNatural n s) :
    ∃ c digits, s = c :: digits ∧ c.isDigit = true := by
  obtain ⟨hne, hdigits, -⟩ := h
  obtain ⟨c, digits, rfl⟩ := List.exists_cons_of_ne_nil hne
  exact ⟨c, digits, rfl, List.all_eq_true.1 hdigits c List.mem_cons_self⟩

/-- Blanks are not looked for in front of a digit. -/
theorem WritesNatural.trimLeft_append (h : WritesNatural n s) (rest : List Char) :
    trimLeft (s ++ rest) = s ++ rest := by
  obtain ⟨c, digits, rfl, hc⟩ := h.exists_cons
  apply trimLeft_eq_self
  intro d hd
  cases hd
  exact isBlank_of_isDigit hc

/-! ### Texts that end with a digit -/

/-- The text ends with a digit. -/
def EndsInDigit (s : List Char) : Prop := ∃ c, s.getLast? = some c ∧ c.isDigit = true

theorem WritesNatural.endsInDigit (h : WritesNatural n s) : EndsInDigit s := by
  obtain ⟨hne, hdigits, -⟩ := h
  exact ⟨s.getLast hne, List.getLast?_eq_some_getLast hne,
    List.all_eq_true.1 hdigits _ (List.getLast_mem hne)⟩

theorem EndsInDigit.append (h : EndsInDigit s) (front : List Char) : EndsInDigit (front ++ s) := by
  obtain ⟨c, hlast, hc⟩ := h
  exact ⟨c, by rw [List.getLast?_append, hlast, Option.some_or], hc⟩

theorem EndsInDigit.append_cons (h : EndsInDigit s) (front : List Char) (c : Char) :
    EndsInDigit (front ++ c :: s) := (h.append [c]).append front

/-! ## Padding with zeros -/

/-- Zeros in front do not count. -/
theorem WritesNatural.zeros_append (h : WritesNatural n s) (zeros : Nat) :
    WritesNatural n (List.replicate zeros '0' ++ s) := by
  induction zeros with
  | zero => exact h
  | succ zeros ih =>
      obtain ⟨-, hdigits, hvalue⟩ := ih
      rw [List.replicate_succ, List.cons_append]
      refine ⟨List.cons_ne_nil _ _, ?_, ?_⟩
      · rw [List.all_cons, hdigits]
        rfl
      · rw [Nat.ofDigitChars_cons]
        exact hvalue

/-- **A padded number is a way to write the number.** -/
theorem writesNatural_padded (width n : Nat) : WritesNatural n (padded width n).toList := by
  rw [padded, String.toList_ofList]
  exact (writesNatural_repr n).zeros_append _

/-- A number that fits into the width is padded to it. -/
theorem length_padded {width : Nat} (hwidth : 0 < width) (hn : n < 10 ^ width) :
    (padded width n).toList.length = width := by
  have hlength : (Nat.repr n).toList.length ≤ width := by
    rw [String.length_toList]
    exact Nat.repr_length n width hwidth hn
  rw [padded, String.toList_ofList, List.length_append, List.length_replicate]
  omega

end Recurrence.Text
