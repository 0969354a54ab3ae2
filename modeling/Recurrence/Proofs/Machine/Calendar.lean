import Recurrence.Proofs.Calendar.WeekNumber
import Recurrence.Proofs.Machine.Checked
import Recurrence.Proofs.Pattern.Move

/-!
# Checked calendar arithmetic

Leap years, month lengths and week numbers in checked steps, in the order in which a machine takes
them.  **None of the steps fails on any date, with any options and for any week of the value range.**

Days are counted within a year and weeks within a year or a month, so almost every number here is
small.  The exception is the week that is asked for, which may be any value.  Its first day is found
by saturating steps, which cannot fail, and its number is only formed from that day if the day lies in
the year or month.

## Main Definitions

* `Machine.year`, `Machine.month0`, `Machine.day`, `Machine.ordinal`, `Machine.weekday`: the fields of
  a date as integers of their types
* `Machine.isLeapYear`, `Machine.length`, `Machine.boundary`, `Machine.weekNumber`, `Machine.weekOf`,
  `Machine.weekStart?`

## Main Statements

* `Machine.length_ok`, `Machine.weekOf_ok`, `Machine.weekStart?_ok`
-/

namespace Recurrence

theorem WeekScope.year_startOf (scope : WeekScope) (d : Date) : (scope.startOf d).year = d.year := by
  have hindex := scope.indexOf_startOf d
  cases scope with
  | year => exact hindex
  | month =>
      have hmonth : (WeekScope.month.startOf d).monthIndex = d.monthIndex := hindex
      rw [← Date.monthIndex_div, hmonth, Date.monthIndex_div]

namespace Machine

variable (d start : Date) (scope : WeekScope) (numbering : WeekNumbering) (o : CalendarOptions)

/-! ## The fields of a date -/

/-- The year. -/
def year (d : Date) : Checked Int := fit .i32 d.year

/-- The month, from 0. -/
def month0 (d : Date) : Checked Int := fit .u32 d.month

/-- The day of the month, from 1. -/
def day (d : Date) : Checked Int := fit .u32 d.dayOfMonth

/-- The day of the year, from 1. -/
def ordinal (d : Date) : Checked Int := fit .u32 d.dayOfYear

/-- The day of the year, from 0. -/
def ordinal0 (d : Date) : Checked Int := fit .u32 (d.dayOfYear - 1)

/-- The day of the week, Sunday being 0. -/
def weekday (d : Date) : Checked Int := fit .u32 d.weekday

theorem inValueRange_year : InValueRange d.year := by
  obtain ⟨hlow, hhigh⟩ := d.year_range
  exact inValueRange_of_small (by linarith) (by linarith)

@[simp] theorem year_ok : year d = .ok d.year := fit_ok (inValueRange_year d)

@[simp] theorem month0_ok : month0 d = .ok (d.month : Int) := by
  have hmonth := d.month_lt
  exact fit_ok (Width.holds_of_small .u32 (by linarith) (by linarith))

theorem dayOfYear_bounds : 1 ≤ d.dayOfYear ∧ d.dayOfYear ≤ 366 := by
  have hle := d.dayOfYear_le
  have hmax := (daysInYear_bounds d.year).2
  exact ⟨d.dayOfYear_pos, by omega⟩

@[simp] theorem day_ok : day d = .ok d.dayOfMonth := by
  obtain ⟨hpos, hle⟩ := d.dayOfMonth_bounds
  have hmax := (daysInMonth_bounds d.year d.month).2
  exact fit_ok (Width.holds_of_small .u32 (by omega) (by omega))

@[simp] theorem ordinal_ok : ordinal d = .ok d.dayOfYear := by
  obtain ⟨hpos, hle⟩ := dayOfYear_bounds d
  exact fit_ok (Width.holds_of_small .u32 (by linarith) (by linarith))

@[simp] theorem ordinal0_ok : ordinal0 d = .ok (d.dayOfYear - 1) := by
  obtain ⟨hpos, hle⟩ := dayOfYear_bounds d
  exact fit_ok (Width.holds_of_small .u32 (by linarith) (by linarith))

@[simp] theorem weekday_ok : weekday d = .ok d.weekday := by
  have hlow := d.weekday_nonneg
  have hhigh := d.weekday_lt
  exact fit_ok (Width.holds_of_small .u32 hlow (by linarith))

/-! ## Lengths -/

/-- Is the year a leap year? -/
def isLeapYear (year : Int) : Checked Bool := do
  let by400 ← modTrunc .i32 year 400
  if by400 = 0 then return true
  else do
    let by4 ← modTrunc .i32 year 4
    if by4 = 0 then do
      let by100 ← modTrunc .i32 year 100
      return decide (by100 ≠ 0)
    else return false

/-- The number of days of a year. -/
def daysInYear (year : Int) : Checked Int := do
  if ← isLeapYear year then return 366 else return 365

/-- The number of days of a month, which is counted from 0. -/
def daysInMonth (year : Int) (month : Nat) : Checked Int :=
  match month with
  | 1 => do
    if ← isLeapYear year then return 29 else return 28
  | 3 | 5 | 8 | 10 => return 30
  | _ => return 31

/-- The number of days of the year or month of a date. -/
def length (scope : WeekScope) (start : Date) : Checked Int := do
  let year ← year start
  let days ← match scope with
    | .year => daysInYear year
    | .month => daysInMonth year start.month
  return signed days

variable {n : Int}

theorem isLeapYear_ok (h : InValueRange n) : isLeapYear n = .ok (Recurrence.isLeapYear n) := by
  have hfits : Width.i32.Holds n := h
  have hzero (b : Int) : n.tmod b = 0 ↔ n % b = 0 := by
    rw [← Int.dvd_iff_tmod_eq_zero, Int.dvd_iff_emod_eq_zero]
  rw [isLeapYear, modTrunc_ok hfits (by decide), modTrunc_ok hfits (by decide),
    modTrunc_ok hfits (by decide), Recurrence.isLeapYear]
  simp only [ok_bind, hzero, ne_eq]
  by_cases h400 : n % 400 = 0
  · simp [h400, pure, Except.pure]
  · by_cases h4 : n % 4 = 0
    · simp [h400, h4, pure, Except.pure]
    · simp [h400, h4, pure, Except.pure]

theorem daysInYear_ok (h : InValueRange n) : daysInYear n = .ok (Recurrence.daysInYear n : Int) := by
  rw [daysInYear, isLeapYear_ok h, ok_bind, Recurrence.daysInYear]
  split <;> rfl

theorem daysInMonth_ok (h : InValueRange n) (month : Nat) :
    daysInMonth n month = .ok (Recurrence.daysInMonth n month : Int) := by
  unfold daysInMonth
  split
  · rw [isLeapYear_ok h, ok_bind, Recurrence.daysInMonth]
    split <;> rfl
  · rfl
  · rfl
  · rfl
  · rfl
  · simp only [Recurrence.daysInMonth]
    rfl

/-- **The length of a year or a month is found.** -/
theorem length_ok : length scope start = .ok (scope.length start) := by
  have hyear := inValueRange_year start
  rw [length, year_ok, ok_bind]
  cases scope with
  | year =>
      have hmax := (daysInYear_bounds start.year).2
      simp only [daysInYear_ok hyear, ok_bind]
      rw [signed_of_small (by omega)]
      rfl
  | month =>
      have hmax := (daysInMonth_bounds start.year start.month).2
      simp only [daysInMonth_ok hyear, ok_bind]
      rw [signed_of_small (by omega)]
      rfl

/-! ## Week numbers -/

/-- The days from the last start of a week to a date. -/
def weekdayOffset (d : Date) (weekStart : Int) : Checked Int := do
  let weekday ← weekday d
  let difference ← sub .i32 (signed weekday) weekStart
  modFloor .i32 difference 7

/-- The boundary of the year or month that begins on a date. -/
def boundary (numbering : WeekNumbering) (start : Date) (o : CalendarOptions) : Checked Int := do
  let offset ← weekdayOffset start o.weekStart
  match numbering with
  | .majority => do
    let before ← sub .i32 o.firstWeekDate 1
    let place ← add .i32 before offset
    let week ← divTrunc .i32 place 7
    let low ← sub .i32 offset 1
    add .i32 low (if week = 0 then 7 else 0)
  | .full => do
    let low ← sub .i32 offset 1
    add .i32 low (if offset = 0 then 7 else 0)
  | .fromFirst => sub .i32 7 1

/-- The week of a day, counted from 1, of a year or month with this boundary. -/
def weekNumber (ordinal boundary : Int) : Checked Int := do
  let place ← add .i32 ordinal boundary
  divFloor .i32 place 7

/-- The week of a date in its year or month. -/
def weekOf (scope : WeekScope) (d : Date) (numbering : WeekNumbering) (o : CalendarOptions) :
    Checked Int := do
  let start := scope.startOf d
  let last ← ordinal0 d
  let first ← ordinal0 start
  let days ← sub .u32 last first
  let ordinal ← add .i32 (signed days) 1
  let boundary ← boundary numbering start o
  weekNumber ordinal boundary

/-- The first day of a week in the year or month that begins on a date, if it has such a week. -/
def weekStart? (scope : WeekScope) (start : Date) (week : Int) (numbering : WeekNumbering)
    (o : CalendarOptions) : Checked (Option Date) := do
  let boundary ← boundary numbering start o
  let ordinal := weekStartOrdinal week boundary
  let length ← length scope start
  if length < ordinal then return none
  else do
    let number ← weekNumber ordinal boundary
    if number ≠ week then return none
    else do
      let days ← sub .i32 ordinal 1
      return (Width.u64.convert? days).bind start.addDays?

theorem weekdayOffset_ok :
    weekdayOffset d o.weekStart = .ok (Recurrence.weekdayOffset d o.weekStart) := by
  have hlow := d.weekday_nonneg
  have hhigh := d.weekday_lt
  have hstart := o.weekStart_le
  have hfits : Width.i32.Holds (d.weekday - o.weekStart) :=
    Width.holds_i32_of_small (by omega) (by omega)
  rw [weekdayOffset, weekday_ok, ok_bind, signed_of_small (by omega), sub_ok hfits,
    ok_bind, modFloor_ok hfits (by decide)]
  rfl

/-- **The boundary of a year or a month is found**, from every start and with all options. -/
theorem boundary_ok : boundary numbering start o = .ok (numbering.boundary start o) := by
  obtain ⟨hlow, hhigh⟩ := weekdayOffset_bounds start o.weekStart
  have hpos := o.firstWeekDate_pos
  have hle := o.firstWeekDate_le
  rw [boundary, weekdayOffset_ok, ok_bind]
  -- the offset and the day in the first week are small
  generalize hoffset : Recurrence.weekdayOffset start o.weekStart = offset at hlow hhigh
  have hbefore : Width.i32.Holds (offset - 1) :=
    Width.holds_i32_of_small (by linarith) (by linarith)
  have hsum (first : Prop) [Decidable first] :
      Width.i32.Holds (offset - 1 + if first then 7 else 0) := by
    split
    · exact Width.holds_i32_of_small (by linarith) (by linarith)
    · exact Width.holds_i32_of_small (by linarith) (by linarith)
  unfold WeekNumbering.boundary
  cases numbering with
  | majority =>
      have hfirst : Width.i32.Holds ((o.firstWeekDate : Int) - 1) :=
        Width.holds_i32_of_small (by omega) (by omega)
      have hplace : Width.i32.Holds ((o.firstWeekDate : Int) - 1 + offset) :=
        Width.holds_i32_of_small (by omega) (by omega)
      have hnonneg : 0 ≤ (o.firstWeekDate : Int) - 1 + offset := by omega
      have hweek : ((o.firstWeekDate : Int) - 1 + offset) / 7 = 0 ↔
          (o.firstWeekDate : Int) - 1 + offset < daysPerWeek := by
        unfold daysPerWeek
        omega
      simp only [sub_ok hfirst, add_ok hplace, divTrunc_ok hplace (show (0 : Int) < 7 by decide),
        sub_ok hbefore, ok_bind, Int.tdiv_eq_ediv_of_nonneg hnonneg, hweek, hoffset]
      exact add_ok (hsum _)
  | full =>
      simp only [sub_ok hbefore, ok_bind, hoffset]
      exact add_ok (hsum _)
  | fromFirst => rfl

/-- The week of a day of a year or a month is found. -/
theorem weekNumber_ok {ordinal boundary : Int} (hlow : -1000 ≤ ordinal) (hhigh : ordinal ≤ 1000)
    (hboundary : 0 ≤ boundary ∧ boundary ≤ 12) :
    weekNumber ordinal boundary = .ok (Recurrence.weekNumber ordinal boundary) := by
  have hfits : Width.i32.Holds (ordinal + boundary) :=
    Width.holds_i32_of_small (by linarith) (by linarith)
  rw [weekNumber, add_ok hfits, ok_bind, divFloor_ok hfits (by decide)]
  rfl

/-- The day of the year has to be one. -/
example : weekNumber maxValue 6 = .error (.overflow .i32 2147483653) := rfl

/-- **The week of a date is found.** -/
theorem weekOf_ok : weekOf scope d numbering o = .ok (scope.weekOf d numbering o) := by
  obtain ⟨-, hmax⟩ := dayOfYear_bounds d
  obtain ⟨hpos, -⟩ := dayOfYear_bounds (scope.startOf d)
  have hboundary := numbering.boundary_bounds (scope.startOf d) o
  have hbefore : (scope.startOf d).number ≤ d.number := by
    rw [scope.number_startOf]
    exact (scope.indexOf_bounds d).1
  -- the first day of the stretch is in the same year
  have hdays : d.dayOfYear - 1 - ((scope.startOf d).dayOfYear - 1) =
      d.number - (scope.startOf d).number := by
    unfold Date.dayOfYear
    rw [scope.year_startOf]
    ring
  have hfits : Width.u32.Holds (d.number - (scope.startOf d).number) :=
    Width.holds_of_small .u32 (by linarith) (by linarith)
  have hordinal : Width.i32.Holds (d.number - (scope.startOf d).number + 1) :=
    Width.holds_i32_of_small (by linarith) (by linarith)
  rw [← hdays] at hfits
  simp only [weekOf, ordinal0_ok, ok_bind, sub_ok hfits, hdays, boundary_ok]
  rw [signed_of_small (by linarith), add_ok hordinal, ok_bind,
    weekNumber_ok (by linarith) (by linarith) hboundary]
  rfl

/-- **The first day of a week is found, or that there is none**, for every week of the value range.  The
first day of a week beyond the year or month is not numbered. -/
theorem weekStart?_ok (week : Int) :
    weekStart? scope start week numbering o = .ok (scope.weekStart? start week numbering o) := by
  have hboundary := numbering.boundary_bounds start o
  have hpos : 1 ≤ weekStartOrdinal week (numbering.boundary start o) := le_max_left _ _
  have hlength : scope.length start ≤ 366 := by
    have hsucc := (scope.firstDay_succ_bounds (scope.indexOf start)).2
    have hmax : scope.maxLength ≤ 366 := by cases scope <;> decide
    rw [scope.length_eq]
    linarith
  simp only [weekStart?, boundary_ok, length_ok, ok_bind, WeekScope.weekStart?]
  generalize weekStartOrdinal week (numbering.boundary start o) = ordinal at hpos
  by_cases hbeyond : scope.length start < ordinal
  · rw [if_pos hbeyond, if_neg fun h => absurd h.1 (not_le.2 hbeyond)]
    rfl
  · have hle := not_lt.1 hbeyond
    have hfits : Width.i32.Holds (ordinal - 1) :=
      Width.holds_i32_of_small (by linarith) (by linarith)
    have hdays : Width.u64.Holds (ordinal - 1) :=
      Width.holds_of_small .u64 (by linarith) (by linarith)
    rw [if_neg hbeyond, weekNumber_ok (by linarith) (by linarith) hboundary, ok_bind]
    by_cases hweek : Recurrence.weekNumber ordinal (numbering.boundary start o) = week
    · rw [if_neg (not_not.2 hweek), if_pos ⟨hle, hweek⟩, sub_ok hfits, ok_bind,
        Width.convert?_eq_some hdays]
      rfl
    · rw [if_pos hweek, if_neg fun h => hweek h.2]
      rfl

end Machine

end Recurrence
