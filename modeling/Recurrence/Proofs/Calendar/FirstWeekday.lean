import Recurrence.Proofs.Calendar.Stretch

/-!
# The weekdays on which years and months begin

A week number depends on two things, the weekday on which its year or month begins and the place of
the day in it.  So a week number recurs as soon as a year or a month that is long enough begins on
the same weekday again, and the question how far a search has to look is one about first days.

Two facts answer it.  **In any 24 years one begins on a given weekday, and in any 24 months one of 31
days does.**  A year without a leap day after four (1900, 2100) is the only irregularity, and it is
100 years from the next one: of two windows of twelve years, one has the regular rhythm of 28 years.
Three years in a row have at most one leap day, so as far as months go they look like three of the
years from 2001 on.

## Main Statements

* `exists_year_from`, `exists_longMonth_from`: a year and a month of 31 days that begin on a weekday
* `exists_leapYear`: any eight years have a leap year
-/

namespace Recurrence

theorem isLeapYear_iff {year : Int} :
    isLeapYear year = true ↔ year % 4 = 0 ∧ (year % 100 = 0 → year % 400 = 0) := by
  simp only [isLeapYear, Bool.or_eq_true, Bool.and_eq_true, decide_eq_true_eq, ne_eq]
  omega

/-- An integer below a bound, as a number of the finite type with that many members. -/
theorem exists_fin_eq {n : Int} {bound : Nat} (h : 0 ≤ n ∧ n < bound) :
    ∃ i : Fin bound, ((i : Nat) : Int) = n :=
  ⟨⟨n.toNat, by omega⟩, Int.toNat_of_nonneg h.1⟩

/-! ## Years -/

/-- Any eight consecutive years have a leap year among them. -/
theorem exists_leapYear (year : Int) :
    ∃ later, year < later ∧ later ≤ year + 8 ∧ isLeapYear later = true := by
  -- of two consecutive multiples of 4, one is no multiple of 100
  by_cases hcentury : (year - year % 4 + 4) % 100 = 0
  · exact ⟨year - year % 4 + 8, by omega, by omega, isLeapYear_iff.2 (by omega)⟩
  · exact ⟨year - year % 4 + 4, by omega, by omega, isLeapYear_iff.2 (by omega)⟩

/-- With a leap day every four years, any twelve years have one that begins on a given weekday. -/
theorem exists_regularYear_from (year weekday : Int) (h : 0 ≤ weekday ∧ weekday < 7) :
    ∃ later, year < later ∧ later ≤ year + 12 ∧ (365 * later + (later + 3) / 4) % 7 = weekday := by
  have hcycle : ∀ place : Fin 28, ∀ weekday : Fin 7, ∃ k : Fin 12,
      (365 * ((place : Nat) + (k : Nat) + 1) + ((place : Nat) + (k : Nat) + 4) / 4) % 7 =
        (weekday : Nat) := by decide +kernel
  obtain ⟨place, hplace⟩ := @exists_fin_eq (year % 28) 28 (by omega)
  obtain ⟨target, rfl⟩ := @exists_fin_eq weekday 7 h
  obtain ⟨k, hk⟩ := hcycle place target
  have hleaps : (year + (k : Nat) + 1 + 3) / 4 =
      7 * (year / 28) + (((place : Nat) + (k : Nat) + 4) / 4 : Nat) := by omega
  have hlt := k.isLt
  exact ⟨year + (k : Nat) + 1, by omega, by omega, by omega⟩

/-- **Any 24 years have one that begins on a given weekday.** -/
theorem exists_year_from (year weekday : Int) (h : 0 ≤ weekday ∧ weekday < 7) :
    ∃ later, year < later ∧ later ≤ year + 24 ∧ daysBeforeYear later % 7 = weekday := by
  -- twelve years in which the number of leap days left out so far stays the same
  obtain ⟨start, hfirst, hlast, hsame⟩ : ∃ start, year ≤ start ∧ start ≤ year + 12 ∧
      (start + 100) / 100 = (start + 111) / 100 := by
    by_cases hregular : (year + 100) / 100 = (year + 111) / 100
    · exact ⟨year, by omega, by omega, hregular⟩
    · exact ⟨year + 12, by omega, by omega, by omega⟩
  obtain ⟨later, hlt, hle, hweekday⟩ := exists_regularYear_from start
    ((weekday + (start + 100) / 100 - (start + 400) / 400) % 7) (by omega)
  have hcenturies : (later + 99) / 100 = (start + 100) / 100 := by omega
  have hcycles : (later + 399) / 400 = (start + 400) / 400 := by omega
  refine ⟨later, by omega, by omega, ?_⟩
  unfold daysBeforeYear
  omega

/-! ## Months -/

/-- Three years in a row have their leap day, if any, where three of the years from 2001 on have
theirs. -/
theorem exists_likeYear (year : Int) :
    ∃ k : Fin 4, ∀ j : Nat, j < 3 → isLeapYear (year + j) = isLeapYear (2001 + (k : Nat) + j) := by
  have hcases : ∃ k : Fin 4, ∀ j : Nat, j < 3 →
      (isLeapYear (year + j) = true ↔ (k : Nat) + j = 3) := by
    by_cases hfirst : isLeapYear year = true
    · refine ⟨3, fun j hj => ?_⟩
      rw [isLeapYear_iff] at hfirst ⊢
      show _ ↔ 3 + j = 3
      omega
    by_cases hsecond : isLeapYear (year + 1) = true
    · refine ⟨2, fun j hj => ?_⟩
      rw [isLeapYear_iff] at hfirst hsecond ⊢
      show _ ↔ 2 + j = 3
      omega
    by_cases hthird : isLeapYear (year + 2) = true
    · refine ⟨1, fun j hj => ?_⟩
      rw [isLeapYear_iff] at hfirst hsecond hthird ⊢
      show _ ↔ 1 + j = 3
      omega
    · refine ⟨0, fun j hj => ?_⟩
      rw [isLeapYear_iff] at hfirst hsecond hthird ⊢
      show _ ↔ 0 + j = 3
      omega
  obtain ⟨k, hk⟩ := hcases
  refine ⟨k, fun j hj => ?_⟩
  have hlt := k.isLt
  rw [Bool.eq_iff_iff, hk j hj, isLeapYear_iff]
  omega

theorem daysInMonth_congr {year other : Int} (h : isLeapYear year = isLeapYear other)
    (month : Nat) : daysInMonth year month = daysInMonth other month := by
  unfold daysInMonth
  rw [h]

/-- The first day of a month of three years in a row is fixed by the first day of the first year and
by where the leap days are. -/
theorem firstDayOfMonth_likeYear {year other : Int}
    (h : ∀ j : Nat, j < 3 → isLeapYear (year + j) = isLeapYear (other + j)) {n : Nat} (hn : n < 37) :
    firstDayOfMonth (12 * year + n) - daysBeforeYear year =
      firstDayOfMonth (12 * other + n) - daysBeforeYear other := by
  induction n with
  | zero =>
      have hcast : ∀ year : Int, 12 * year + ((0 : Nat) : Int) = 12 * year := by
        intro year
        omega
      rw [hcast, hcast, firstDayOfMonth_year, firstDayOfMonth_year]
      omega
  | succ n ih =>
      have hlength : daysInMonth ((12 * year + n) / 12) ((12 * year + (n : Int)) % 12).toNat =
          daysInMonth ((12 * other + n) / 12) ((12 * other + (n : Int)) % 12).toNat := by
        have hyear : (12 * year + (n : Int)) / 12 = year + (n / 12 : Nat) := by omega
        have hother : (12 * other + (n : Int)) / 12 = other + (n / 12 : Nat) := by omega
        have hmonth : (12 * year + (n : Int)) % 12 = (12 * other + (n : Int)) % 12 := by omega
        rw [hyear, hother, hmonth, daysInMonth_congr (h (n / 12) (by omega))]
      have hsucc := firstDayOfMonth_succ (12 * year + n)
      have hsucc' := firstDayOfMonth_succ (12 * other + n)
      have hcast : ∀ year : Int, 12 * year + ((n + 1 : Nat) : Int) = 12 * year + n + 1 := by
        intro year
        omega
      have := ih (by omega)
      rw [hcast, hcast]
      omega

/-- A month of 31 days begins on `weekday`. -/
def IsLongMonthFrom (weekday index : Int) : Prop :=
  firstDayOfMonth index % 7 = weekday ∧
    firstDayOfMonth (index + 1) = firstDayOfMonth index + 31

instance (weekday index : Int) : Decidable (IsLongMonthFrom weekday index) :=
  inferInstanceAs (Decidable (firstDayOfMonth index % 7 = weekday ∧
    firstDayOfMonth (index + 1) = firstDayOfMonth index + 31))

/-- **Any 24 months have one of 31 days that begins on a given weekday.** -/
theorem exists_longMonth_from (index weekday : Int) (h : 0 ≤ weekday ∧ weekday < 7) :
    ∃ later, index < later ∧ later ≤ index + 24 ∧ IsLongMonthFrom weekday later := by
  -- in three years, one such month in the first 25 and one at most 24 months after it, beyond the
  -- first year, are enough for every start in that year
  have hcycle : ∀ k : Fin 4, ∀ weekday : Fin 7, ∃ early : Fin 25,
      IsLongMonthFrom (weekday : Nat) (12 * (2001 + (k : Nat)) + (early : Nat)) ∧
        ∃ late : Fin 36, 12 ≤ (late : Nat) ∧ (late : Nat) ≤ early + 24 ∧
          IsLongMonthFrom (weekday : Nat) (12 * (2001 + (k : Nat)) + (late : Nat)) := by
    decide +kernel
  obtain ⟨k, hk⟩ := exists_likeYear (index / 12)
  obtain ⟨target, htarget⟩ := @exists_fin_eq ((weekday + daysBeforeYear (2001 + (k : Nat)) -
    daysBeforeYear (index / 12)) % 7) 7 (by omega)
  have hlike : ∀ n : Nat, n < 36 →
      IsLongMonthFrom (target : Nat) (12 * (2001 + (k : Nat)) + n) →
        IsLongMonthFrom weekday (12 * (index / 12) + n) := by
    intro n hn hlong
    unfold IsLongMonthFrom at hlong ⊢
    have hfirst := @firstDayOfMonth_likeYear _ _ hk n (by omega)
    have hnext := @firstDayOfMonth_likeYear _ _ hk (n + 1) (by omega)
    push_cast at hnext
    rw [← Int.add_assoc, ← Int.add_assoc] at hnext
    omega
  obtain ⟨early, hearly, late, hbeyond, hclose, hlate⟩ := hcycle k target
  have hlt := early.isLt
  by_cases hbefore : index < 12 * (index / 12) + (early : Nat)
  · exact ⟨_, hbefore, by omega, hlike early (by omega) hearly⟩
  · exact ⟨12 * (index / 12) + (late : Nat), by omega, by omega, hlike late late.isLt hlate⟩

end Recurrence
