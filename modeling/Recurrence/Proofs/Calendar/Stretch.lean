import Mathlib.Algebra.Order.Group.Int
import Mathlib.Order.Monotone.Basic
import Recurrence.Calendar.Week

/-!
# Years and months as consecutive stretches of days

Years follow each other without a gap, and so do months.  Both are told by one index, the number of
the year or the number of months from the first month of year 0, and everything the calendar says
about them is one fact: **the stretch `i` is the interval of day numbers from `firstDay i` up to
`firstDay (i + 1)`**.  Dates enter through `indexOf`, which is the stretch they lie in.

## Main Statements

* `WeekScope.indexOf_eq_iff`: a date lies in the stretch whose interval holds its number
* `WeekScope.firstDay_lt`: the first days of the stretches increase
* `WeekScope.number_startOf`, `WeekScope.following?_eq`: the start of a stretch and of the next one
-/

namespace Recurrence

/-! ## Months of a year -/

/-- A month has 28 to 31 days. -/
theorem daysInMonth_bounds (year : Int) (month : Nat) :
    28 ≤ daysInMonth year month ∧ daysInMonth year month ≤ 31 := by
  unfold daysInMonth
  split
  · split <;> omega
  all_goals omega

/-- A year has 365 or 366 days. -/
theorem daysInYear_bounds (year : Int) : 365 ≤ daysInYear year ∧ daysInYear year ≤ 366 := by
  unfold daysInYear
  split <;> omega

theorem lastMonthBegun_le (year : Int) (elapsed last : Nat) :
    lastMonthBegun year elapsed last ≤ last := by
  induction last with
  | zero => rfl
  | succ last ih =>
      unfold lastMonthBegun
      split
      · rfl
      · omega

/-- The month that `lastMonthBegun` gives has begun, and the one after it, if it is asked for, has
not. -/
theorem lastMonthBegun_bounds (year : Int) (elapsed last : Nat) :
    daysBeforeMonth year (lastMonthBegun year elapsed last) ≤ elapsed ∧
      (lastMonthBegun year elapsed last < last →
        elapsed < daysBeforeMonth year (lastMonthBegun year elapsed last + 1)) := by
  induction last with
  | zero => exact ⟨Nat.zero_le _, fun h => absurd h (Nat.lt_irrefl 0)⟩
  | succ last ih =>
      have hle := lastMonthBegun_le year elapsed last
      unfold lastMonthBegun
      split
      · next hbegun => exact ⟨hbegun, fun h => absurd h (Nat.lt_irrefl _)⟩
      · next hnot =>
          refine ⟨ih.1, fun _ => ?_⟩
          rcases Nat.lt_or_eq_of_le hle with hlt | heq
          · exact ih.2 hlt
          · rw [heq]
            omega

namespace Date

theorem month_lt (d : Date) : d.month < 12 :=
  Nat.lt_succ_of_le (lastMonthBegun_le _ _ _)

/-- A date lies in its year. -/
theorem year_bounds (d : Date) :
    daysBeforeYear d.year ≤ d.number ∧ d.number < daysBeforeYear (d.year + 1) :=
  yearOfDay_bounds d.number

/-- A date lies in its month. -/
theorem month_bounds (d : Date) :
    daysBeforeMonth d.year d.month ≤ d.daysElapsed ∧
      d.daysElapsed < daysBeforeMonth d.year (d.month + 1) := by
  have hbounds := lastMonthBegun_bounds d.year d.daysElapsed 11
  have hle := lastMonthBegun_le d.year d.daysElapsed 11
  refine ⟨hbounds.1, ?_⟩
  show d.daysElapsed < daysBeforeMonth d.year (lastMonthBegun d.year d.daysElapsed 11 + 1)
  rcases Nat.lt_or_eq_of_le hle with hlt | heq
  · exact hbounds.2 hlt
  · have hyear := d.year_bounds
    rw [daysBeforeYear_succ] at hyear
    rw [heq, daysBeforeMonth_twelve]
    unfold daysElapsed
    omega

/-- The days of its year before a date, as a difference of day numbers. -/
theorem daysElapsed_eq (d : Date) : (d.daysElapsed : Int) = d.number - daysBeforeYear d.year := by
  have hyear := d.year_bounds
  unfold daysElapsed
  omega

end Date

/-! ## Stretches by their index -/

/-- The number of the first day of the month that `index` months after the first month of
year 0. -/
def firstDayOfMonth (index : Int) : Int :=
  daysBeforeYear (index / 12) + daysBeforeMonth (index / 12) (index % 12).toNat

theorem firstDayOfMonth_succ (index : Int) :
    firstDayOfMonth (index + 1) =
      firstDayOfMonth index + daysInMonth (index / 12) (index % 12).toNat := by
  unfold firstDayOfMonth
  -- December goes over into the next year
  by_cases hlast : index % 12 = 11
  · have hdiv : (index + 1) / 12 = index / 12 + 1 := by omega
    have hmod : (index + 1) % 12 = 0 := by omega
    have htwelve := daysBeforeMonth_twelve (index / 12)
    have heleven : daysBeforeMonth (index / 12) 12 =
        daysBeforeMonth (index / 12) 11 + daysInMonth (index / 12) 11 := rfl
    rw [hdiv, hmod, hlast, daysBeforeYear_succ, ← htwelve, heleven]
    simp [daysBeforeMonth]
    omega
  · have hdiv : (index + 1) / 12 = index / 12 := by omega
    have hmod : ((index + 1) % 12).toNat = (index % 12).toNat + 1 := by omega
    rw [hdiv, hmod, daysBeforeMonth]
    omega

/-- The first day of the month with an index that is given by year and month. -/
theorem firstDayOfMonth_of (year : Int) {month : Nat} (h : month < 12) :
    firstDayOfMonth (12 * year + month) = daysBeforeYear year + daysBeforeMonth year month := by
  have hdiv : (12 * year + (month : Int)) / 12 = year := by omega
  have hmod : ((12 * year + (month : Int)) % 12).toNat = month := by omega
  rw [firstDayOfMonth, hdiv, hmod]

/-- A year begins with its first month. -/
theorem firstDayOfMonth_year (year : Int) : firstDayOfMonth (12 * year) = daysBeforeYear year := by
  simpa [daysBeforeMonth] using @firstDayOfMonth_of year 0 (by decide)

namespace WeekScope

/-- The number of years or months from the first one of year 0 to the one that holds `d`. -/
def indexOf : WeekScope → Date → Int
  | .year, d => d.year
  | .month, d => d.monthIndex

/-- The number of the first day of the year or month with an index. -/
def firstDay : WeekScope → Int → Int
  | .year, index => daysBeforeYear index
  | .month, index => firstDayOfMonth index

/-- The largest number of days of a year or a month. -/
def maxLength : WeekScope → Int
  | .year => 366
  | .month => 31

variable (scope : WeekScope)

/-- A stretch has at least 28 days and at most `maxLength`. -/
theorem firstDay_succ_bounds (index : Int) :
    scope.firstDay index + 28 ≤ scope.firstDay (index + 1) ∧
      scope.firstDay (index + 1) ≤ scope.firstDay index + scope.maxLength := by
  cases scope with
  | year =>
      have hbounds := daysInYear_bounds index
      have hsucc := daysBeforeYear_succ index
      simp only [firstDay, maxLength]
      omega
  | month =>
      have hbounds := daysInMonth_bounds (index / 12) (index % 12).toNat
      have hsucc := firstDayOfMonth_succ index
      simp only [firstDay, maxLength]
      omega

theorem firstDay_lt {i j : Int} : scope.firstDay i < scope.firstDay j ↔ i < j := by
  have hmono : StrictMono scope.firstDay := strictMono_int_of_lt_succ fun index => by
    have := (scope.firstDay_succ_bounds index).1
    omega
  exact hmono.lt_iff_lt

theorem firstDay_le {i j : Int} : scope.firstDay i ≤ scope.firstDay j ↔ i ≤ j := by
  rw [← Int.not_lt, firstDay_lt, Int.not_lt]

/-- A date lies in the stretch with its index. -/
theorem indexOf_bounds (d : Date) :
    scope.firstDay (scope.indexOf d) ≤ d.number ∧
      d.number < scope.firstDay (scope.indexOf d + 1) := by
  cases scope with
  | year => exact d.year_bounds
  | month =>
      have hlt := d.month_lt
      have hmonth := d.month_bounds
      have helapsed := d.daysElapsed_eq
      have hyear := d.year_bounds
      simp only [firstDay, indexOf, Date.monthIndex]
      rw [firstDayOfMonth_succ, firstDayOfMonth_of _ hlt]
      have hdiv : (12 * d.year + (d.month : Int)) / 12 = d.year := by omega
      have hmod : ((12 * d.year + (d.month : Int)) % 12).toNat = d.month := by omega
      rw [hdiv, hmod]
      have hnext : daysBeforeMonth d.year (d.month + 1) =
          daysBeforeMonth d.year d.month + daysInMonth d.year d.month := rfl
      omega

/-- **A date lies in the stretch whose interval holds its number**, and in no other one. -/
theorem indexOf_eq_iff {d : Date} {index : Int} :
    scope.indexOf d = index ↔
      scope.firstDay index ≤ d.number ∧ d.number < scope.firstDay (index + 1) := by
  have hbounds := scope.indexOf_bounds d
  constructor
  · rintro rfl
    exact hbounds
  · rintro ⟨hfirst, hnext⟩
    have hle : index < scope.indexOf d + 1 := scope.firstDay_lt.1 (by omega)
    have hge : scope.indexOf d < index + 1 := scope.firstDay_lt.1 (by omega)
    omega

/-- Later dates do not lie in earlier stretches. -/
theorem indexOf_le {d e : Date} (h : d.number ≤ e.number) : scope.indexOf d ≤ scope.indexOf e := by
  have hd := scope.indexOf_bounds d
  have he := scope.indexOf_bounds e
  have hlt : scope.indexOf d < scope.indexOf e + 1 := scope.firstDay_lt.1 (by omega)
  omega

/-- The dates before the first day of a stretch are those of earlier stretches. -/
theorem indexOf_lt_iff {d : Date} {index : Int} :
    scope.indexOf d < index ↔ d.number < scope.firstDay index := by
  have hd := scope.indexOf_bounds d
  constructor
  · intro h
    have hle : scope.firstDay (scope.indexOf d + 1) ≤ scope.firstDay index :=
      scope.firstDay_le.2 (by omega)
    omega
  · intro h
    exact scope.firstDay_lt.1 (by omega)

theorem firstDay_le_number_iff {d : Date} {index : Int} :
    scope.firstDay index ≤ d.number ↔ index ≤ scope.indexOf d := by
  rw [← Int.not_lt, ← indexOf_lt_iff, Int.not_lt]

end WeekScope

/-! ## Dates of the calendar -/

namespace Date

theorem ofNumber?_eq_none {n : Int} :
    ofNumber? n = none ↔ n < firstDayNumber ∨ lastDayNumber < n := by
  unfold ofNumber?
  split
  · next h => exact iff_of_false (by simp) (by omega)
  · next h => exact iff_of_true rfl (by omega)

/-- Between two days of the calendar there is no gap. -/
theorem exists_number_eq {a b : Date} {n : Int} (ha : a.number ≤ n) (hb : n ≤ b.number) :
    ∃ d : Date, d.number = n :=
  ⟨⟨n, Int.le_trans a.first_le ha, Int.le_trans hb b.le_last⟩, rfl⟩

/-- The day of the month counts from the first day of the month. -/
theorem dayOfMonth_eq (d : Date) :
    d.dayOfMonth = d.number - firstDayOfMonth d.monthIndex + 1 := by
  unfold dayOfMonth dayOfYear monthIndex
  rw [firstDayOfMonth_of _ d.month_lt]
  omega

theorem monthIndex_div (d : Date) : d.monthIndex / 12 = d.year := by
  have := d.month_lt
  unfold monthIndex
  omega

theorem monthIndex_mod (d : Date) : (d.monthIndex % 12).toNat = d.month := by
  have := d.month_lt
  unfold monthIndex
  omega

/-- The length of a date's month, as a difference of first days. -/
theorem daysInMonth_eq (d : Date) :
    (daysInMonth d.year d.month : Int) =
      firstDayOfMonth (d.monthIndex + 1) - firstDayOfMonth d.monthIndex := by
  rw [firstDayOfMonth_succ, d.monthIndex_div, d.monthIndex_mod]
  omega

theorem dayOfMonth_bounds (d : Date) :
    1 ≤ d.dayOfMonth ∧ d.dayOfMonth ≤ daysInMonth d.year d.month := by
  have hbounds := WeekScope.month.indexOf_bounds d
  simp only [WeekScope.firstDay, WeekScope.indexOf] at hbounds
  rw [d.dayOfMonth_eq, d.daysInMonth_eq]
  omega

/-- A day of a month, by the index of the month. -/
theorem ofMonthIndex?_eq (index day : Int) :
    ofMonthIndex? index day =
      if 1 ≤ day ∧ day ≤ firstDayOfMonth (index + 1) - firstDayOfMonth index then
        ofNumber? (firstDayOfMonth index + (day - 1))
      else none := by
  have hlt : (index % 12).toNat < 12 := by omega
  have hlength : firstDayOfMonth (index + 1) - firstDayOfMonth index =
      (daysInMonth (index / 12) (index % 12).toNat : Int) := by
    rw [firstDayOfMonth_succ]
    omega
  rw [hlength, ofMonthIndex?, ofCivil?, firstDayOfMonth]
  by_cases hday : 1 ≤ day ∧ day ≤ (daysInMonth (index / 12) (index % 12).toNat : Int)
  · rw [if_pos ⟨hlt, hday⟩, if_pos hday]
  · rw [if_neg fun h => hday h.2, if_neg hday]

/-- A day of the month of a date. -/
theorem ofCivil?_eq (d : Date) (day : Int) :
    ofCivil? d.year d.month day = ofMonthIndex? d.monthIndex day := by
  rw [ofMonthIndex?, d.monthIndex_div, d.monthIndex_mod]

theorem ofMonthIndex?_one (index : Int) :
    ofMonthIndex? index 1 = ofNumber? (firstDayOfMonth index) := by
  have := (WeekScope.month.firstDay_succ_bounds index).1
  simp only [WeekScope.firstDay] at this
  rw [ofMonthIndex?_eq, if_pos (by omega)]
  simp

theorem ofYearDay?_one (year : Int) : ofYearDay? year 1 = ofNumber? (daysBeforeYear year) := by
  have := daysInYear_bounds year
  rw [ofYearDay?, if_pos (by omega)]
  simp

end Date

namespace WeekScope

variable (scope : WeekScope)

/-- The index of the first stretch of the calendar. -/
def firstIndex : WeekScope → Int
  | .year => -262143
  | .month => 12 * -262143

/-- The calendar begins with a year, and so with a month. -/
theorem firstDay_firstIndex : scope.firstDay scope.firstIndex = firstDayNumber := by
  cases scope with
  | year => rfl
  | month =>
      simp only [firstDay, firstIndex, firstDayNumber]
      exact firstDayOfMonth_year _

theorem firstIndex_le (d : Date) : scope.firstIndex ≤ scope.indexOf d := by
  have hfirst := d.first_le
  rw [← scope.firstDay_firstIndex] at hfirst
  exact scope.firstDay_le_number_iff.1 hfirst

/-- The stretch of a date begins within the calendar. -/
theorem firstDayNumber_le (d : Date) : firstDayNumber ≤ scope.firstDay (scope.indexOf d) := by
  rw [← scope.firstDay_firstIndex]
  exact scope.firstDay_le.2 (scope.firstIndex_le d)

/-- The index of the last stretch of the calendar. -/
def lastIndex : WeekScope → Int
  | .year => 262142
  | .month => 12 * 262142 + 11

/-- The calendar ends with a year, and so with a month. -/
theorem firstDay_lastIndex : scope.firstDay (scope.lastIndex + 1) = lastDayNumber + 1 := by
  cases scope with
  | year => rfl
  | month => exact firstDayOfMonth_year 262143

theorem indexOf_le_lastIndex (d : Date) : scope.indexOf d ≤ scope.lastIndex := by
  have hlast := d.le_last
  have hend := scope.firstDay_lastIndex
  have hlt : scope.indexOf d < scope.lastIndex + 1 := scope.indexOf_lt_iff.2 (by omega)
  omega

/-- The calendar has every day of its stretches. -/
theorem exists_date_of_index {index n : Int} (hfirst : scope.firstIndex ≤ index)
    (hlast : index ≤ scope.lastIndex) (hn : scope.firstDay index ≤ n)
    (hnext : n < scope.firstDay (index + 1)) :
    ∃ d : Date, d.number = n ∧ scope.indexOf d = index := by
  have hbegin := scope.firstDay_le.2 hfirst
  have hend := scope.firstDay_le.2 (Int.add_le_add_right hlast 1)
  rw [scope.firstDay_firstIndex] at hbegin
  rw [scope.firstDay_lastIndex] at hend
  exact ⟨⟨n, by omega, by omega⟩, rfl, scope.indexOf_eq_iff.2 ⟨hn, hnext⟩⟩

/-- The first day of the stretch of a date is a date. -/
theorem ofNumber?_firstDay_indexOf (d : Date) :
    ∃ start, Date.ofNumber? (scope.firstDay (scope.indexOf d)) = some start := by
  have hfirst := scope.firstDayNumber_le d
  have hle := (scope.indexOf_bounds d).1
  have hlast := d.le_last
  cases h : Date.ofNumber? (scope.firstDay (scope.indexOf d)) with
  | some start => exact ⟨start, rfl⟩
  | none =>
      rw [Date.ofNumber?_eq_none] at h
      omega

theorem number_startOf (d : Date) :
    (scope.startOf d).number = scope.firstDay (scope.indexOf d) := by
  obtain ⟨start, hstart⟩ := scope.ofNumber?_firstDay_indexOf d
  have hnumber := Date.ofNumber?_eq_some.1 hstart
  cases scope with
  | year =>
      simp only [firstDay, indexOf] at hstart hnumber ⊢
      rw [startOf, Date.ofYearDay?_one, hstart]
      exact hnumber
  | month =>
      simp only [firstDay, indexOf] at hstart hnumber ⊢
      rw [startOf, Date.ofCivil?_eq, Date.ofMonthIndex?_one, hstart]
      exact hnumber

@[simp] theorem indexOf_startOf (d : Date) : scope.indexOf (scope.startOf d) = scope.indexOf d := by
  have := (scope.firstDay_succ_bounds (scope.indexOf d)).1
  rw [indexOf_eq_iff, number_startOf]
  omega

/-- The number of days of a stretch is the way from its first day to that of the next one. -/
theorem length_eq (d : Date) :
    scope.length d =
      scope.firstDay (scope.indexOf d + 1) - scope.firstDay (scope.indexOf d) := by
  cases scope with
  | year =>
      simp only [length, firstDay, indexOf, daysBeforeYear_succ]
      omega
  | month => exact d.daysInMonth_eq

/-- From the first day of a stretch, the next one is reached. -/
theorem following?_eq {start : Date} (h : start.number = scope.firstDay (scope.indexOf start)) :
    scope.following? start = Date.ofNumber? (scope.firstDay (scope.indexOf start + 1)) := by
  have hpos (index : Int) := (WeekScope.month.firstDay_succ_bounds index).1
  simp only [firstDay] at hpos
  have hone (index : Int) :
      min 1 (daysInMonth (index / 12) (index % 12).toNat : Int) = 1 := by
    have := daysInMonth_bounds (index / 12) (index % 12).toNat
    omega
  cases scope with
  | year =>
      simp only [firstDay, indexOf] at h ⊢
      have hzero := firstDayOfMonth_year start.year
      have hnext := firstDayOfMonth_year (start.year + 1)
      have hindex : start.monthIndex = 12 * start.year := by
        refine (WeekScope.month.indexOf_eq_iff).2 ?_
        have := hpos (12 * start.year)
        simp only [firstDay]
        omega
      have hday : start.dayOfMonth = 1 := by
        rw [start.dayOfMonth_eq, hindex]
        omega
      have hsum : 12 * start.year + 12 = 12 * (start.year + 1) := by omega
      rw [following?, Date.addMonths?, hindex, hday, hone, Date.ofMonthIndex?_one, hsum, hnext]
  | month =>
      simp only [firstDay, indexOf] at h ⊢
      have hday : start.dayOfMonth = 1 := by
        rw [start.dayOfMonth_eq]
        omega
      rw [following?, Date.addMonths?, hday, hone, Date.ofMonthIndex?_one]

end WeekScope

end Recurrence
