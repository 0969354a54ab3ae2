import Mathlib.Data.List.Basic
import Recurrence.Proofs.Text.Padded
import Recurrence.Text.Decimal

/-!
# Tokens

A value is written as an integer or as a name.  An integer is written with its decimal digits, with
any number of zeros before them and, if it is not positive, with a minus sign; the value of digits is
that of core's `Nat.ofDigitChars`.  A name is written in letters of either case.  Either way a text
comes out that has no blank and no separator in it and **a dash at its beginning at most**, which is
why a dash further on can separate the bounds of a range.

## Main Definitions

* `WritesNatural`, `WritesInteger`: the texts that write a number
* `WritesLiteral`: those with a plus sign too
* `IsToken`: letters and digits with a dash at most before them

## Main Statements

* `writesInteger_toString`: the usual digits of a number are among its texts
* `value?_of_writes`: a written integer of the value range is read
* `value?_eq_some_iff`: nothing else is, but for a plus sign
* `isAlpha_of_sameLetters`: letters are letters in either case
-/

namespace Recurrence.Text

variable {n : Nat} {i : Int} {s a b : List Char}

/-! ## Integers -/

/-- The text consists of digits, at least one, and they make up the number. -/
def WritesNatural (n : Nat) (s : List Char) : Prop :=
  s ≠ [] ∧ s.all Char.isDigit = true ∧ Nat.ofDigitChars 10 s 0 = n

/-- The text writes the number, or a minus sign and its opposite. -/
def WritesInteger (i : Int) (s : List Char) : Prop :=
  (∃ n : Nat, i = n ∧ WritesNatural n s) ∨
    ∃ (n : Nat) (digits : List Char), i = -(n : Int) ∧ s = '-' :: digits ∧ WritesNatural n digits

theorem writesNatural_repr (n : Nat) : WritesNatural n (Nat.repr n).toList := by
  rw [Nat.repr_eq_ofList_toDigits, String.toList_ofList]
  have hdigits : ∀ c ∈ Nat.toDigits 10 n, c.isDigit = true :=
    fun c hc => Nat.isDigit_of_mem_toDigits (by decide) (by decide) hc
  exact ⟨Nat.toDigits_ne_nil, List.all_eq_true.2 hdigits, Nat.ofDigitChars_ten_toDigits⟩

/-- The usual way to write an integer. -/
theorem writesInteger_toString (i : Int) : WritesInteger i (toString i).toList := by
  cases i with
  | ofNat n => exact .inl ⟨n, rfl, writesNatural_repr n⟩
  | negSucc n =>
      refine .inr ⟨n + 1, (Nat.repr (n + 1)).toList, rfl, ?_, writesNatural_repr (n + 1)⟩
      show ("-" ++ Nat.repr (n + 1)).toList = _
      rw [String.toList_append]
      rfl

theorem digitValue?_of_isDigit {c : Char} (h : c.isDigit = true) :
    digitValue? c = some (c.toNat - '0'.toNat) := by
  have hbounds : '0' ≤ c ∧ c ≤ '9' := by
    simpa [Char.isDigit, Char.le_def] using h
  rw [digitValue?, if_pos hbounds]

theorem naturalFrom?_eq (hdigits : ∀ c ∈ s, c.isDigit = true) (acc : Nat) :
    naturalFrom? acc s = some (Nat.ofDigitChars 10 s acc) := by
  induction s generalizing acc with
  | nil => rfl
  | cons c s ih =>
      rw [naturalFrom?, digitValue?_of_isDigit (hdigits c List.mem_cons_self), Option.bind_some,
        ih fun d hd => hdigits d (List.mem_cons_of_mem _ hd), Nat.ofDigitChars_cons]

theorem natural?_of_writes (h : WritesNatural n s) : natural? s = some n := by
  obtain ⟨hne, hdigits, hvalue⟩ := h
  cases s with
  | nil => exact absurd rfl hne
  | cons c s => rw [natural?, naturalFrom?_eq (List.all_eq_true.1 hdigits), hvalue]

theorem integer?_of_writes (h : WritesInteger i s) : integer? s = some i := by
  rcases h with ⟨n, rfl, h⟩ | ⟨n, digits, rfl, rfl, h⟩
  · -- a digit is no sign
    have hread := natural?_of_writes h
    obtain ⟨hne, hdigits, -⟩ := h
    cases s with
    | nil => exact absurd rfl hne
    | cons c s =>
        have hc := List.all_eq_true.1 hdigits c List.mem_cons_self
        rw [integer?, hread]
        · rfl
        · rintro rest heq
          cases heq
          cases hc
        · rintro rest heq
          cases heq
          cases hc
  · rw [integer?, natural?_of_writes h]
    rfl

/-- **A written integer of the value range is read as the integer.** -/
theorem value?_of_writes (h : WritesInteger i s) (hi : InValueRange i) : value? s = some i := by
  rw [value?, integer?_of_writes h, Option.bind_some, if_pos hi]

/-- The text writes the number, if need be with a plus sign. -/
def WritesLiteral (i : Int) (s : List Char) : Prop :=
  WritesInteger i s ∨ ∃ (n : Nat) (digits : List Char), i = n ∧ s = '+' :: digits ∧ WritesNatural n digits

theorem isDigit_of_digitValue? {c : Char} {d : Nat} (h : digitValue? c = some d) : c.isDigit = true := by
  rw [digitValue?] at h
  split at h
  · next hbounds => simpa [Char.isDigit, Char.le_def] using hbounds
  · cases h

theorem all_isDigit_of_naturalFrom? {acc : Nat} (h : naturalFrom? acc s = some n) :
    ∀ c ∈ s, c.isDigit = true := by
  induction s generalizing acc with
  | nil => nofun
  | cons c s ih =>
      rw [naturalFrom?, Option.bind_eq_some_iff] at h
      obtain ⟨d, hd, h⟩ := h
      exact List.forall_mem_cons.2 ⟨isDigit_of_digitValue? hd, ih h⟩

/-- **Nothing but digits is read as a natural number.** -/
theorem natural?_eq_some_iff : natural? s = some n ↔ WritesNatural n s := by
  refine ⟨fun h => ?_, natural?_of_writes⟩
  cases s with
  | nil => cases h
  | cons c s =>
      have hdigits := all_isDigit_of_naturalFrom? h
      have hvalue := naturalFrom?_eq hdigits 0
      rw [natural?, hvalue, Option.some_inj] at h
      exact ⟨List.cons_ne_nil c s, List.all_eq_true.2 hdigits, h⟩

/-- **The texts that are read as an integer** are its digits with one sign at most. -/
theorem integer?_eq_some_iff : integer? s = some i ↔ WritesLiteral i s := by
  constructor
  · intro h
    unfold integer? at h
    split at h
    all_goals
      simp only [Option.map_eq_some_iff, Option.bind_eq_bind, Option.bind_eq_some_iff,
        Option.pure_def, Option.some_inj] at h
      obtain ⟨_, ⟨n, hn, rfl⟩, rfl⟩ := h
      have hwrites := natural?_eq_some_iff.1 hn
    · exact .inl (.inr ⟨n, _, rfl, rfl, hwrites⟩)
    · exact .inr ⟨n, _, rfl, rfl, hwrites⟩
    · exact .inl (.inl ⟨n, rfl, hwrites⟩)
  · rintro (h | ⟨n, digits, rfl, rfl, h⟩)
    · exact integer?_of_writes h
    · rw [integer?, natural?_of_writes h]
      rfl

theorem value?_eq_some_iff : value? s = some i ↔ WritesLiteral i s ∧ InValueRange i := by
  rw [value?, Option.bind_eq_some_iff]
  constructor
  · rintro ⟨j, hj, h⟩
    split at h
    · next hrange =>
        cases h
        exact ⟨integer?_eq_some_iff.1 hj, hrange⟩
    · cases h
  · rintro ⟨h, hrange⟩
    exact ⟨i, integer?_eq_some_iff.2 h, if_pos hrange⟩

/-- The first character of a written integer is a minus sign or a digit, the others are digits. -/
theorem WritesInteger.exists_cons (h : WritesInteger i s) :
    ∃ c rest, s = c :: rest ∧ (c.isDigit = true ∨ c = '-') ∧ ∀ d ∈ rest, d.isDigit = true := by
  rcases h with ⟨n, -, hne, hdigits, -⟩ | ⟨n, digits, -, rfl, -, hdigits, -⟩
  · obtain ⟨c, rest, rfl⟩ := List.exists_cons_of_ne_nil hne
    obtain ⟨hc, hrest⟩ := List.forall_mem_cons.1 (List.all_eq_true.1 hdigits)
    exact ⟨c, rest, rfl, .inl hc, hrest⟩
  · exact ⟨'-', digits, rfl, .inr rfl, List.all_eq_true.1 hdigits⟩

/-! ## Letters -/

theorem isAlpha_iff {c : Char} :
    c.isAlpha = true ↔ 65 ≤ c.toNat ∧ c.toNat ≤ 90 ∨ 97 ≤ c.toNat ∧ c.toNat ≤ 122 := by
  unfold Char.isAlpha Char.isUpper Char.isLower
  simp [UInt32.le_iff_toNat_le]

/-- A letter in lower case is a letter, and nothing else becomes one. -/
theorem isAlpha_toLower_iff {c : Char} : c.toLower.isAlpha = true ↔ c.isAlpha = true := by
  rw [isAlpha_iff, isAlpha_iff]
  unfold Char.toLower
  split
  · next h =>
      obtain ⟨hlow, hhigh⟩ := h
      have hlow : 65 ≤ c.val.toNat := UInt32.le_iff_toNat_le.1 hlow
      have hhigh : c.val.toNat ≤ 90 := UInt32.le_iff_toNat_le.1 hhigh
      have hlower : (c.val + ('a'.val - 'A'.val)).toNat = c.val.toNat + 32 := by
        rw [UInt32.toNat_add]
        exact Nat.mod_eq_of_lt (show c.val.toNat + 32 < 4294967296 by omega)
      simp only [Char.toNat, hlower]
      omega
  · rfl

/-- What is a text of letters up to their case is a text of letters. -/
theorem isAlpha_of_sameLetters (h : sameLetters a b = true) (ha : ∀ c ∈ a, c.isAlpha = true) :
    ∀ c ∈ b, c.isAlpha = true := by
  intro c hc
  have hmem : c.toLower ∈ a.map Char.toLower := by
    rw [eq_of_beq h]
    exact List.mem_map_of_mem hc
  obtain ⟨d, hd, hlower⟩ := List.mem_map.1 hmem
  rw [← isAlpha_toLower_iff, ← hlower, isAlpha_toLower_iff]
  exact ha d hd

/-! ## Tokens -/

/-- A text of letters and digits, the first character being perhaps a dash. -/
def IsToken (s : List Char) : Prop :=
  ∃ c rest, s = c :: rest ∧ (c.isAlphanum = true ∨ c = '-') ∧ ∀ d ∈ rest, d.isAlphanum = true

theorem isBlank_of_isAlphanum {c : Char} (h : c.isAlphanum = true) : isBlank c = false := by
  have hcode : (65 ≤ c.toNat ∧ c.toNat ≤ 90 ∨ 97 ≤ c.toNat ∧ c.toNat ≤ 122) ∨
      48 ≤ c.toNat ∧ c.toNat ≤ 57 := by
    simpa [Char.isAlphanum, isAlpha_iff, Char.isDigit, UInt32.le_iff_toNat_le] using h
  simp only [isBlank, Bool.or_eq_false_iff, Bool.and_eq_false_iff, decide_eq_false_iff_not,
    beq_eq_false_iff_ne]
  omega

theorem WritesInteger.isToken (h : WritesInteger i s) : IsToken s := by
  obtain ⟨c, rest, rfl, hc, hrest⟩ := h.exists_cons
  have halphanum : ∀ d : Char, d.isDigit = true → d.isAlphanum = true := by
    intro d hd
    rw [Char.isAlphanum, hd, Bool.or_true]
  exact ⟨c, rest, rfl, hc.imp_left (halphanum c), fun d hd => halphanum d (hrest d hd)⟩

theorem isToken_of_isAlpha (hne : s ≠ []) (h : ∀ c ∈ s, c.isAlpha = true) : IsToken s := by
  have halphanum : ∀ d ∈ s, d.isAlphanum = true := by
    intro d hd
    rw [Char.isAlphanum, h d hd, Bool.true_or]
  obtain ⟨c, rest, rfl⟩ := List.exists_cons_of_ne_nil hne
  exact ⟨c, rest, rfl, .inl (halphanum c List.mem_cons_self),
    fun d hd => halphanum d (List.mem_cons_of_mem _ hd)⟩

/-- The characters of a token are letters, digits and dashes. -/
theorem IsToken.mem (h : IsToken s) {c : Char} (hc : c ∈ s) : c.isAlphanum = true ∨ c = '-' := by
  obtain ⟨d, rest, rfl, hd, hrest⟩ := h
  rcases List.mem_cons.1 hc with rfl | hc
  · exact hd
  · exact .inl (hrest c hc)

theorem IsToken.not_blank (h : IsToken s) {c : Char} (hc : c ∈ s) : isBlank c = false := by
  rcases h.mem hc with halphanum | rfl
  · exact isBlank_of_isAlphanum halphanum
  · rfl

theorem IsToken.isTrimmed (h : IsToken s) : IsTrimmed s :=
  ⟨fun _ hc => h.not_blank (List.mem_of_head? hc), fun _ hc => h.not_blank (List.mem_of_getLast? hc)⟩

theorem IsToken.ne_nil (h : IsToken s) : s ≠ [] := by
  obtain ⟨c, rest, rfl, -⟩ := h
  exact List.cons_ne_nil c rest

/-- A text that begins and ends with tokens neither begins nor ends with a blank. -/
theorem IsToken.isTrimmed_append (ha : IsToken a) (hb : IsToken b) (between : List Char)
    (h : s = a ++ between ++ b) : IsTrimmed s := by
  subst h
  refine ⟨fun c hc => ha.isTrimmed.1 c ?_, fun c hc => hb.isTrimmed.2 c ?_⟩
  · obtain ⟨d, rest, rfl, -⟩ := ha
    exact hc
  · rwa [List.getLast?_append_of_ne_nil _ hb.ne_nil] at hc

end Recurrence.Text
