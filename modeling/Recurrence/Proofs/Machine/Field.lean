import Recurrence.Period.Field
import Recurrence.Proofs.Machine.Calendar

/-!
# Checked fields

The value of each period at an instant in checked steps.  **No step fails at any instant and with any
options**, and the values are those of the library; all of them lie in the value range.

A field is formed from a year or from a part of one.  The years of the calendar stay far away from the
ends of the value range, and everything else is small, so that each step has room.

## Main Definitions

* `Machine.hour`, `Machine.minute`, `Machine.second`, `Machine.nanosecond`: the parts of a time of day as
  integers of their type
* `Machine.valueAt`: the value of a period

## Main Statements

* `Machine.valueAt_ok`: the value is found
* `Machine.inValueRange_valueAt`: it is in the value range
-/

namespace Recurrence

namespace Machine

variable (d : Date) (o : CalendarOptions) (t : Instant) (p : Period)

/-! ## The fields of an instant -/

/-- The hour. -/
def hour (t : Instant) : Checked Int := fit .u32 t.time.hour

/-- The minute. -/
def minute (t : Instant) : Checked Int := fit .u32 t.time.minute

/-- The second. -/
def second (t : Instant) : Checked Int := fit .u32 t.time.second

/-- The nanoseconds within the second. -/
def nanosecond (t : Instant) : Checked Int := fit .u32 t.time.nano

/-- The century of a date. -/
def centuryOf (d : Date) : Checked Int := do
  let year ← year d
  let later ← add .i32 year 100
  let last ← sub .i32 later 1
  divFloor .i32 last 100

/-- The decade of a date. -/
def decadeOf (d : Date) : Checked Int := do
  let year ← year d
  divFloor .i32 year 10

/-- The quarter of a date, from 0. -/
def quarterOf (d : Date) : Checked Int := do
  let month ← month0 d
  divTrunc .i32 (signed month) 3

/-- The day of the month, counted from its end. -/
def dayOfMonthFromEnd (d : Date) : Checked Int := do
  let year ← year d
  let length ← daysInMonth year d.month
  let day ← day d
  let after ← sub .i32 (signed length) (signed day)
  add .i32 after 1

/-- The whole milliseconds within the second. -/
def millisecond (t : Instant) : Checked Int := do
  let nanos ← nanosecond t
  let millis ← divTrunc .u32 nanos 1000000
  return signed millis

/-- The value of a period at an instant. -/
def valueAt (p : Period) (o : CalendarOptions) (t : Instant) : Checked Int :=
  match p with
  | .century => centuryOf t.date
  | .decade => decadeOf t.date
  | .year => year t.date
  | .quarter => quarterOf t.date
  | .month => return signed (← month0 t.date)
  | .week scope numbering => weekOf scope t.date numbering o
  | .dayOfYear => return signed (← ordinal t.date)
  | .dayOfWeek => return signed (← weekday t.date)
  | .dayOfMonth => return signed (← day t.date)
  | .dayOfMonthFromEnd => dayOfMonthFromEnd t.date
  | .hour => return signed (← hour t)
  | .minute => return signed (← minute t)
  | .second => return signed (← second t)
  | .millisecond => millisecond t

/-! ### Their bounds -/

theorem timeOfDay_bounds : t.time.hour < 24 ∧ t.time.minute < 60 ∧ t.time.second < 60 ∧
    t.time.nano < 2000000000 :=
  ⟨t.time.hour_lt, t.time.minute_lt, t.time.second_lt, t.time.nano_lt⟩

theorem fit_small {n : Nat} (h : n < 2000000000) : fit .u32 (n : Int) = .ok (n : Int) :=
  fit_ok (Width.holds_of_small .u32 (by omega) (by omega))

@[simp] theorem hour_ok : hour t = .ok (t.time.hour : Int) :=
  fit_small (t.time.hour_lt.trans (by decide))

@[simp] theorem minute_ok : minute t = .ok (t.time.minute : Int) :=
  fit_small (t.time.minute_lt.trans (by decide))

@[simp] theorem second_ok : second t = .ok (t.time.second : Int) :=
  fit_small (t.time.second_lt.trans (by decide))

@[simp] theorem nanosecond_ok : nanosecond t = .ok (t.time.nano : Int) :=
  fit_small t.time.nano_lt

/-! ### The fields are found -/

theorem centuryOf_ok : centuryOf d = .ok (Recurrence.centuryOf d.year) := by
  obtain ⟨hlow, hhigh⟩ := d.year_range
  have hlater : Width.i32.Holds (d.year + 100) :=
    Width.holds_i32_of_small (by linarith) (by linarith)
  have hlast : Width.i32.Holds (d.year + 100 - 1) :=
    Width.holds_i32_of_small (by linarith) (by linarith)
  rw [centuryOf, year_ok, ok_bind, add_ok hlater, ok_bind, sub_ok hlast, ok_bind,
    divFloor_ok hlast (by decide), Int.add_sub_assoc]
  rfl

theorem decadeOf_ok : decadeOf d = .ok (Recurrence.decadeOf d.year) := by
  have hyear : Width.i32.Holds d.year := inValueRange_year d
  rw [decadeOf, year_ok, ok_bind, divFloor_ok hyear (by decide)]
  rfl

theorem quarterOf_ok : quarterOf d = .ok ((d.month / 3 : Nat) : Int) := by
  have hmonth := d.month_lt
  have hfits : Width.i32.Holds (d.month : Int) :=
    Width.holds_i32_of_small (by omega) (by omega)
  rw [quarterOf, month0_ok, ok_bind, signed_of_small (by omega), divTrunc_ok hfits (by decide),
    Int.tdiv_eq_ediv_of_nonneg (Int.natCast_nonneg _)]
  rfl

theorem dayOfMonthFromEnd_ok : dayOfMonthFromEnd d = .ok d.dayOfMonthFromEnd := by
  obtain ⟨hpos, hle⟩ := d.dayOfMonth_bounds
  have hmax := (daysInMonth_bounds d.year d.month).2
  have hafter : Width.i32.Holds ((Recurrence.daysInMonth d.year d.month : Int) - d.dayOfMonth) :=
    Width.holds_i32_of_small (by omega) (by omega)
  have hresult : Width.i32.Holds
      ((Recurrence.daysInMonth d.year d.month : Int) - d.dayOfMonth + 1) :=
    Width.holds_i32_of_small (by omega) (by omega)
  rw [dayOfMonthFromEnd, year_ok, ok_bind, daysInMonth_ok (inValueRange_year d), ok_bind, day_ok, ok_bind,
    signed_of_small (by omega), signed_of_small (by omega), sub_ok hafter, ok_bind,
    add_ok hresult]
  rfl

theorem millisecond_ok : millisecond t = .ok (t.time.millisecond : Int) := by
  have hnanos : t.time.nano < 2000000000 := t.time.nano_lt
  have hfits : Width.u32.Holds (t.time.nano : Int) :=
    Width.holds_of_small .u32 (by omega) (by omega)
  have hquotient : (t.time.nano : Int) / 1000000 = (t.time.millisecond : Int) := rfl
  have hsmall : t.time.millisecond < 2000000000 := Nat.lt_of_le_of_lt (Nat.div_le_self _ _) hnanos
  rw [millisecond, nanosecond_ok, ok_bind, divTrunc_ok hfits (by decide), ok_bind,
    Int.tdiv_eq_ediv_of_nonneg (Int.natCast_nonneg _), hquotient, signed_of_small (by omega)]
  rfl

/-- **The value of a period is found**, at every instant and with all options. -/
theorem valueAt_ok : valueAt p o t = .ok (p.valueAt o t) := by
  obtain ⟨hhour, hminute, hsecond, -⟩ := timeOfDay_bounds t
  have hmonth := t.date.month_lt
  have hyearDay := dayOfYear_bounds t.date
  have hday := t.date.dayOfMonth_bounds
  have hdaymax := (daysInMonth_bounds t.date.year t.date.month).2
  have hweekday := t.date.weekday_lt
  cases p with
  | century => exact centuryOf_ok t.date
  | decade => exact decadeOf_ok t.date
  | year => exact year_ok t.date
  | quarter => exact quarterOf_ok t.date
  | month =>
      rw [valueAt, month0_ok, ok_bind, signed_of_small (by omega)]
      rfl
  | week scope numbering => exact weekOf_ok t.date scope numbering o
  | dayOfYear =>
      rw [valueAt, ordinal_ok, ok_bind, signed_of_small (by omega)]
      rfl
  | dayOfWeek =>
      rw [valueAt, weekday_ok, ok_bind, signed_of_small (by omega)]
      rfl
  | dayOfMonth =>
      rw [valueAt, day_ok, ok_bind, signed_of_small (by omega)]
      rfl
  | dayOfMonthFromEnd => exact dayOfMonthFromEnd_ok t.date
  | hour =>
      rw [valueAt, hour_ok, ok_bind, signed_of_small (by omega)]
      rfl
  | minute =>
      rw [valueAt, minute_ok, ok_bind, signed_of_small (by omega)]
      rfl
  | second =>
      rw [valueAt, second_ok, ok_bind, signed_of_small (by omega)]
      rfl
  | millisecond => exact millisecond_ok t

/-- The value of a period is in the value range. -/
theorem inValueRange_valueAt : InValueRange (p.valueAt o t) := by
  obtain ⟨hhour, hminute, hsecond, hnanos⟩ := timeOfDay_bounds t
  have hnatural {n : Nat} (hn : n < 2000000000) : InValueRange n :=
    inValueRange_of_small (by omega) (by omega)
  cases p with
  | century => exact Period.inValueRange_valueAt rfl o t
  | decade => exact Period.inValueRange_valueAt rfl o t
  | year => exact Period.inValueRange_valueAt rfl o t
  | quarter =>
      have hmonth := t.date.month_lt
      exact hnatural (Nat.lt_of_le_of_lt (Nat.div_le_self _ _) (by linarith))
  | month =>
      have hmonth := t.date.month_lt
      exact hnatural (by linarith)
  | week scope numbering =>
      obtain ⟨hlow, hhigh⟩ := scope.weekOf_bounds numbering o t.date
      show InValueRange (scope.weekOf t.date numbering o)
      exact inValueRange_of_small (by linarith) (by linarith)
  | dayOfYear =>
      obtain ⟨hlow, hhigh⟩ := dayOfYear_bounds t.date
      show InValueRange t.date.dayOfYear
      exact inValueRange_of_small (by linarith) (by linarith)
  | dayOfWeek =>
      have hlow := t.date.weekday_nonneg
      have hhigh := t.date.weekday_lt
      show InValueRange t.date.weekday
      exact inValueRange_of_small (by linarith) (by linarith)
  | dayOfMonth =>
      obtain ⟨hlow, hhigh⟩ := t.date.dayOfMonth_bounds
      have hmax := (daysInMonth_bounds t.date.year t.date.month).2
      show InValueRange t.date.dayOfMonth
      exact inValueRange_of_small (by omega) (by omega)
  | dayOfMonthFromEnd =>
      obtain ⟨hlow, hhigh⟩ := t.date.dayOfMonth_bounds
      have hmax := (daysInMonth_bounds t.date.year t.date.month).2
      show InValueRange (Recurrence.daysInMonth t.date.year t.date.month - t.date.dayOfMonth + 1)
      exact inValueRange_of_small (by omega) (by omega)
  | hour => exact hnatural (by linarith)
  | minute => exact hnatural (by linarith)
  | second => exact hnatural (by linarith)
  | millisecond => exact hnatural (Nat.lt_of_le_of_lt (Nat.div_le_self _ _) hnanos)

end Machine

end Recurrence
