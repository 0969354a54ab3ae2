import Recurrence.Proofs.Machine.Field
import Recurrence.Proofs.Period.WeekPartition

/-!
# Checked moves

The move of a period to a value in checked steps.  **No step fails for any target of the value range**,
from any instant and with any options, and the moves are those of the library.

The target may be any value, so what is computed with it is computed in 64 bits: the product with the
length of a century or with a unit of time stays far below their end.  The searches form the number of
the following year or month one at a time and end with the calendar, long before the value range does.

A move within a day goes on from a floor.  The milliseconds of one are converted twice on their way to
nanoseconds, and from an irregular leap second they form no floor: then nothing is added at all.

The move to a week compares week numbers where the library compares days.  Both tell whether the week
begins after the current day: within a year or a month week numbers do not fall, and a week begins on
the first of its days.

## Main Definitions

* `Machine.cyclicDistance`, `Machine.yearStart?`, `Machine.monthStart?`: parts of moves
* `Machine.scanFollowing`, `Machine.scanYears`: the searches through the following stretches
* `Machine.advanceToDay`, `Machine.advanceToYearDay`, `Machine.advanceTime`: moves to a day and within it
* `Machine.floorMilli?`: the floor that whole milliseconds form
* `Machine.moveTo`: the move to a value

## Main Statements

* `Machine.weekAhead?_ok`: week numbers compared instead of days
* `Machine.moveTo_ok`: the move ends where that of the library does
-/

namespace Recurrence

namespace Machine

variable (d start : Date) (scope : WeekScope) (numbering : WeekNumbering) (o : CalendarOptions)
  (t : Instant) (p : Period)

/-! ## Distances and starts -/

/-- The distance forward on a cycle. -/
def cyclicDistance (current target cycle : Int) : Checked Int := do
  let difference ← sub .i64 target current
  let distance ← modFloor .i64 difference cycle
  return if distance = 0 then cycle else distance

/-- The first day of a year, if it is a year of the calendar. -/
def yearStart? (year : Int) : Option Date := (Width.i32.convert? year).bind Date.startOfYear?

/-- The number of months from the first month of year 0. -/
def monthIndex (d : Date) : Checked Int := do
  let year ← year d
  let month ← month0 d
  let months ← mul .i64 year 12
  add .i64 months month

/-- The first day of the month with a number of months from year 0. -/
def monthStart? (index : Int) : Checked (Option Date) := do
  let year ← divFloor .i64 index 12
  match Width.i32.convert? year with
  | none => return none
  | some year => do
    let rest ← modFloor .i64 index 12
    match Width.u32.convert? rest with
    | none => return none
    | some rest => do
      let month ← add .u32 rest 1
      return Date.ofCivil? year (month - 1).toNat 1

variable {n v : Int}

theorem cyclicDistance_ok {current cycle : Int} (hcurrent : InValueRange current)
    (hv : InValueRange v) (hcycle : 0 < cycle) :
    cyclicDistance current v cycle = .ok (Recurrence.cyclicDistance current v cycle) := by
  obtain ⟨hlow, hhigh⟩ := hcurrent
  obtain ⟨hvlow, hvhigh⟩ := hv
  unfold minValue at hlow hvlow
  unfold maxValue at hhigh hvhigh
  have hfits : Width.i64.Holds (v - current) :=
    Width.holds_i64_of_small (by linarith) (by linarith)
  rw [cyclicDistance, sub_ok hfits, ok_bind, modFloor_ok hfits hcycle, ok_bind]
  rfl

theorem cyclicDistance_pos_le {current cycle : Int} (hcycle : 0 < cycle) :
    0 < Recurrence.cyclicDistance current v cycle ∧
      Recurrence.cyclicDistance current v cycle ≤ cycle := by
  have hnonneg := Int.emod_nonneg (v - current) hcycle.ne'
  have hlt := Int.emod_lt_of_pos (v - current) hcycle
  unfold Recurrence.cyclicDistance
  simp only
  split
  · exact ⟨hcycle, le_rfl⟩
  · exact ⟨by omega, hlt.le⟩

/-- The years of the calendar are in the value range. -/
theorem yearStart?_eq (n : Int) : yearStart? n = Date.startOfYear? n := by
  rw [yearStart?]
  refine Width.convert?_bind fun h => ?_
  rw [Option.eq_none_iff_forall_ne_some]
  intro d hd
  rw [Date.startOfYear?, Date.ofYearDay?_one, Date.ofNumber?_eq_some] at hd
  have hyear : d.year = n := by
    have hsucc := (WeekScope.year.firstDay_succ_bounds n).1
    simp only [WeekScope.firstDay] at hsucc
    refine WeekScope.year.indexOf_eq_iff.2 ⟨hd.ge, ?_⟩
    simp only [WeekScope.firstDay]
    linarith
  exact h (hyear ▸ inValueRange_year d)

@[simp] theorem monthIndex_ok : monthIndex d = .ok d.monthIndex := by
  obtain ⟨hlow, hhigh⟩ := d.year_range
  have hmonth := d.month_lt
  have hmonths : Width.i64.Holds (d.year * 12) :=
    Width.holds_i64_of_small (by linarith) (by linarith)
  have hsum : Width.i64.Holds (d.year * 12 + d.month) :=
    Width.holds_i64_of_small (by omega) (by omega)
  rw [monthIndex, year_ok, ok_bind, month0_ok, ok_bind, mul_ok hmonths, ok_bind, add_ok hsum,
    Int.mul_comm]
  rfl

/-- The start of a month is found, or that the calendar has no such month. -/
theorem monthStart?_ok (hlow : -40000000 ≤ n) (hhigh : n ≤ 40000000) :
    monthStart? n = .ok (Date.ofMonthIndex? n 1) := by
  have hfits : Width.i64.Holds n :=
    Width.holds_i64_of_small (by linarith) (by linarith)
  have hyear : Width.i32.Holds (n / 12) :=
    Width.holds_i32_of_small (by omega) (by omega)
  have hrest : Width.u32.Holds (n % 12) :=
    Width.holds_of_small .u32 (by omega) (by omega)
  have hmonth : Width.u32.Holds (n % 12 + 1) :=
    Width.holds_of_small .u32 (by omega) (by omega)
  rw [monthStart?, divFloor_ok hfits (by decide), ok_bind, Width.convert?_eq_some hyear]
  simp only
  rw [modFloor_ok hfits (by decide), ok_bind, Width.convert?_eq_some hrest]
  simp only
  rw [add_ok hmonth, ok_bind, Int.add_sub_cancel]
  rfl

/-! ## Searches through the following stretches -/

/-- The search for the first wanted day in the `horizon` stretches after the one that begins on
`start`. -/
def scanFollowing (following? : Date → Option Date) (dayIn? : Date → Checked (Option Date)) :
    Nat → Date → Checked Scan
  | 0, _ => return .missing
  | horizon + 1, start =>
    match following? start with
    | none => return .calendarEnd
    | some next => do
      match ← dayIn? next with
      | some day => return .found day
      | none => scanFollowing following? dayIn? horizon next

/-- The move to the wanted day that is still ahead in the current year or month, or to the first one in
the following years or months. -/
def advanceToDay (scope : WeekScope) (horizon : Nat) (ahead? : Option Date)
    (dayIn? : Date → Checked (Option Date)) (t : Instant) : Checked Instant :=
  match ahead? with
  | some day => return Instant.startOfDay day
  | none =>
    match scope.following? (scope.startOf t.date) with
    | none => return t
    | some first => do
      match ← scanFollowing scope.following? dayIn? horizon (scope.startOf t.date) with
      | .found day => return Instant.startOfDay day
      | _ => return Instant.startOfDay first

theorem scanFollowing_ok {following? dayIn? : Date → Option Date}
    {dayIn' : Date → Checked (Option Date)} (h : ∀ start, dayIn' start = .ok (dayIn? start))
    (horizon : Nat) (start : Date) : scanFollowing following? dayIn' horizon start =
      .ok (Recurrence.scanFollowing following? dayIn? horizon start) := by
  induction horizon generalizing start with
  | zero => rfl
  | succ horizon ih =>
      rw [scanFollowing, Recurrence.scanFollowing]
      cases following? start with
      | none => rfl
      | some next =>
          simp only [h, ok_bind]
          cases dayIn? next with
          | none => exact ih next
          | some day => rfl

/-- Searches that find the same day in each stretch move to the same day. -/
theorem advanceToDay_ok {dayIn? : Date → Option Date} {dayIn' : Date → Checked (Option Date)}
    (h : ∀ start, dayIn' start = .ok (dayIn? start)) (horizon : Nat) :
    advanceToDay scope horizon (dayAhead? scope dayIn? t.date) dayIn' t =
      .ok (Recurrence.advanceToDay scope horizon dayIn? t) := by
  unfold advanceToDay Recurrence.advanceToDay
  cases dayAhead? scope dayIn? t.date with
  | some day => rfl
  | none =>
      simp only [scanFollowing_ok h]
      cases hfollowing : scope.following? (scope.startOf t.date) with
      | none =>
          -- the search ends at once
          cases horizon with
          | zero => rfl
          | succ horizon =>
              rw [Recurrence.scanFollowing, hfollowing]
              rfl
      | some first =>
          simp only [ok_bind]
          cases Recurrence.scanFollowing scope.following? dayIn? horizon (scope.startOf t.date) with
          | found day => rfl
          | missing => rfl
          | calendarEnd => rfl

/-! ## Moves to a week -/

/-- The first day of a week, if the number of the week is greater than that of the current one. -/
def weekAhead? (scope : WeekScope) (d : Date) (week : Int) (numbering : WeekNumbering)
    (o : CalendarOptions) : Checked (Option Date) := do
  let current ← weekOf scope d numbering o
  if current < week then weekStart? scope (scope.startOf d) week numbering o else return none

/-- A week begins after a day if its number is greater than that of the day. -/
theorem lt_weekStart?_iff {scope : WeekScope} {d day : Date} {week : Int}
    {numbering : WeekNumbering} {o : CalendarOptions}
    (h : scope.weekStart? (scope.startOf d) week numbering o = some day) :
    d < day ↔ scope.weekOf d numbering o < week := by
  obtain ⟨hindex, hweek, hleast⟩ :=
    (scope.weekStart?_eq_some_iff numbering o (scope.isFirst_startOf d)).1 h
  rw [scope.indexOf_startOf] at hindex hleast
  subst hweek
  constructor
  · intro hlt
    have hle := scope.weekOf_le_weekOf numbering o hindex.symm (Date.lt_iff.1 hlt).le
    refine lt_of_le_of_ne hle fun heq => ?_
    -- no day of the week is earlier than its first one
    exact absurd (hleast d rfl heq) (not_le.2 (Date.lt_iff.1 hlt))
  · intro hlt
    by_contra hnot
    have hle : day.number ≤ d.number := not_lt.1 hnot
    exact absurd (scope.weekOf_le_weekOf numbering o hindex hle) (not_le.2 hlt)

/-- **Comparing week numbers finds the week that is ahead.** -/
theorem weekAhead?_ok (week : Int) : weekAhead? scope d week numbering o =
    .ok (dayAhead? scope (fun start => scope.weekStart? start week numbering o) d) := by
  rw [weekAhead?, weekOf_ok, ok_bind, weekStart?_ok, dayAhead?]
  cases hstart : scope.weekStart? (scope.startOf d) week numbering o with
  | none =>
      split
      · rfl
      · rfl
  | some day =>
      have hiff := lt_weekStart?_iff hstart
      by_cases hlt : scope.weekOf d numbering o < week
      · rw [if_pos hlt, Option.filter_some, if_pos (decide_eq_true (hiff.2 hlt))]
      · rw [if_neg hlt, Option.filter_some, if_neg fun h => hlt (hiff.1 (of_decide_eq_true h))]
        rfl

/-! ## Moves to a day of a year or a month -/

/-- A day of the year of a date. -/
def yearDayIn? (value : Int) (d : Date) : Option Date :=
  (Width.u32.convert? value).bind fun day => Date.ofYearDay? d.year day

/-- The search for a day of the year in the `horizon` years after a year. -/
def scanYears (value : Int) : Nat → Int → Checked Scan
  | 0, _ => return .missing
  | horizon + 1, year => do
    let next ← add .i32 year 1
    match Date.startOfYear? next with
    | none => return .calendarEnd
    | some first =>
      match yearDayIn? value first with
      | some day => return .found day
      | none => scanYears value horizon next

/-- The move to a day of a year. -/
def advanceToYearDay (value : Int) (t : Instant) : Checked Instant := do
  let current ← ordinal t.date
  match if signed current < value then yearDayIn? value t.date else none with
  | some day => return Instant.startOfDay day
  | none => do
    let year ← year t.date
    match ← scanYears value dayOfYearHorizon year with
    | .found day => return Instant.startOfDay day
    | .calendarEnd => return t
    | .missing => do
      let next ← add .i64 year 1
      return startOfDayOr t (yearStart? next)

/-- A day of the month that begins on a date. -/
def monthDayIn? (value : Int) (start : Date) : Option Date :=
  (Width.u32.convert? value).bind fun day => Date.ofCivil? start.year start.month day

/-- A day, counted from its end, of the month that begins on a date.  A difference or a sum that does
not fit gives no day. -/
def monthDayFromEndIn? (value : Int) (start : Date) : Checked (Option Date) := do
  let year ← year start
  let length ← daysInMonth year start.month
  return ((Width.i32.convert? (signed length - value)).bind fun before =>
    (Width.i32.convert? (before + 1)).bind fun day =>
      (Width.u32.convert? day).bind fun day => Date.ofCivil? start.year start.month day)

theorem yearDayIn?_eq : yearDayIn? v d = Recurrence.yearDayIn? v d := by
  have hmax := (daysInYear_bounds d.year).2
  rw [yearDayIn?, Recurrence.yearDayIn?]
  refine Width.convert?_bind fun h => ?_
  rw [Date.ofYearDay?, if_neg]
  intro hday
  exact h (Width.holds_of_small .u32 (by omega) (by omega))

/-- No month has more than 31 days. -/
theorem ofCivil?_eq_none {year day : Int} {month : Nat} (h : ¬ (1 ≤ day ∧ day ≤ 31)) :
    Date.ofCivil? year month day = none := by
  have hmax := (daysInMonth_bounds year month).2
  rw [Date.ofCivil?, if_neg]
  omega

/-- Days that are no unsigned integers are no days of a month. -/
theorem convert?_bind_ofCivil? (year day : Int) (month : Nat) :
    (Width.u32.convert? day).bind (fun day => Date.ofCivil? year month day) =
      Date.ofCivil? year month day := by
  refine Width.convert?_bind fun h => ofCivil?_eq_none fun hday => ?_
  exact h (Width.holds_of_small .u32 (by omega) (by omega))

theorem monthDayIn?_eq : monthDayIn? v start = Recurrence.monthDayIn? v start :=
  convert?_bind_ofCivil? start.year v start.month

/-- **A day counted from the end of a month is found, or that there is none.** -/
theorem monthDayFromEndIn?_ok :
    monthDayFromEndIn? v start = .ok (Recurrence.monthDayFromEndIn? v start) := by
  have hmax := (daysInMonth_bounds start.year start.month).2
  rw [monthDayFromEndIn?, year_ok, ok_bind, daysInMonth_ok (inValueRange_year start), ok_bind,
    signed_of_small (by omega), Recurrence.monthDayFromEndIn?]
  generalize (Recurrence.daysInMonth start.year start.month : Int) - v = before
  -- the conversions only refuse what is no day of a month
  have hday : (Width.i32.convert? (before + 1)).bind (fun day =>
      (Width.u32.convert? day).bind fun day => Date.ofCivil? start.year start.month day) =
      Date.ofCivil? start.year start.month (before + 1) := by
    simp only [convert?_bind_ofCivil?]
    refine Width.convert?_bind fun h => ofCivil?_eq_none fun hday => ?_
    exact h (Width.holds_i32_of_small (by omega) (by omega))
  rw [Width.convert?_bind, hday]
  · rfl
  · intro h
    rw [hday]
    refine ofCivil?_eq_none fun hday => ?_
    exact h (Width.holds_i32_of_small (by omega) (by omega))

/-- The years after one are those that the years' first days follow each other on. -/
theorem scanYears_ok (horizon : Nat)
    (hstart : start.number = WeekScope.year.firstDay (WeekScope.year.indexOf start)) :
    scanYears v horizon start.year = .ok (Recurrence.scanFollowing WeekScope.year.following?
      (Recurrence.yearDayIn? v) horizon start) := by
  induction horizon generalizing start with
  | zero => rfl
  | succ horizon ih =>
      obtain ⟨hlow, hhigh⟩ := start.year_range
      have hnext : Width.i32.Holds (start.year + 1) :=
        Width.holds_i32_of_small (by linarith) (by linarith)
      have hfollowing : WeekScope.year.following? start = Date.startOfYear? (start.year + 1) := by
        rw [WeekScope.following?_eq _ hstart, Date.startOfYear?, Date.ofYearDay?_one]
        rfl
      rw [scanYears, add_ok hnext, ok_bind, Recurrence.scanFollowing, hfollowing]
      cases hfirst : Date.startOfYear? (start.year + 1) with
      | none => rfl
      | some first =>
          rw [hfirst] at hfollowing
          obtain ⟨hindex, hfirstDay⟩ := WeekScope.year.following?_eq_some hstart hfollowing
          have hyear : first.year = start.year + 1 := hindex
          simp only [yearDayIn?_eq first]
          cases Recurrence.yearDayIn? v first with
          | some day => rfl
          | none =>
              simp only
              rw [← hyear]
              exact ih first hfirstDay

/-- Comparing days of the year finds the day that is ahead. -/
theorem yearDayAhead_eq :
    (if signed d.dayOfYear < v then yearDayIn? v d else none) =
      dayAhead? .year (Recurrence.yearDayIn? v) d := by
  have hsmall := (dayOfYear_bounds d).2
  have hstart : (WeekScope.year.startOf d).year = d.year := WeekScope.year.year_startOf d
  rw [signed_of_small (by linarith), yearDayIn?_eq d, dayAhead?,
    Recurrence.yearDayIn?, Recurrence.yearDayIn?, hstart]
  cases hday : Date.ofYearDay? d.year v with
  | none =>
      split
      · rfl
      · rfl
  | some day =>
      have hnumber : day.number = daysBeforeYear d.year + (v - 1) := by
        rw [Date.ofYearDay?] at hday
        split at hday
        · exact Date.ofNumber?_eq_some.1 hday
        · cases hday
      have hiff : d.dayOfYear < v ↔ d < day := by
        rw [Date.lt_iff, hnumber]
        unfold Date.dayOfYear
        constructor
        · intro h
          linarith
        · intro h
          linarith
      simp only [Option.filter_some, hiff, decide_eq_true_eq]

/-- **The move to a day of the year is found.** -/
theorem advanceToYearDay_ok :
    advanceToYearDay v t = .ok (Recurrence.advanceToYearDay v t) := by
  obtain ⟨hlow, hhigh⟩ := t.date.year_range
  have hnext : Width.i64.Holds (t.date.year + 1) :=
    Width.holds_i64_of_small (by linarith) (by linarith)
  have hscan := @scanYears_ok (WeekScope.year.startOf t.date) v dayOfYearHorizon
    (WeekScope.year.isFirst_startOf t.date)
  rw [WeekScope.year.year_startOf] at hscan
  rw [advanceToYearDay, ordinal_ok, ok_bind, yearDayAhead_eq t.date, Recurrence.advanceToYearDay]
  cases dayAhead? .year (Recurrence.yearDayIn? v) t.date with
  | some day => rfl
  | none =>
      simp only [year_ok, ok_bind, hscan]
      cases Recurrence.scanFollowing WeekScope.year.following? (Recurrence.yearDayIn? v)
          dayOfYearHorizon (WeekScope.year.startOf t.date) with
      | found day => rfl
      | calendarEnd => rfl
      | missing =>
          simp only [add_ok hnext, ok_bind, yearStart?_eq]
          rfl

/-- **The move to a day of the month is found.** -/
theorem advanceToMonthDay_ok :
    advanceToDay .month dayOfMonthHorizon (dayAhead? .month (monthDayIn? v) t.date)
        (fun start => return monthDayIn? v start) t =
      .ok (Recurrence.advanceToDay .month dayOfMonthHorizon (Recurrence.monthDayIn? v) t) := by
  have hday : monthDayIn? v = Recurrence.monthDayIn? v := by
    funext start
    exact monthDayIn?_eq start
  rw [hday]
  exact advanceToDay_ok .month t (fun start => rfl) dayOfMonthHorizon

/-! ## Moves to a month, a weekday and a unit of time -/

/-- The move to a quarter. -/
def moveToQuarter (value : Int) (t : Instant) : Checked Instant := do
  let quarter ← quarterOf t.date
  let year ← year t.date
  let months ← mul .i64 year 12
  let within ← mul .i32 quarter 3
  let current ← add .i64 months within
  let distance ← cyclicDistance quarter value 4
  let ahead ← mul .i64 distance 3
  let index ← add .i64 current ahead
  let day? ← monthStart? index
  return startOfDayOr t day?

/-- The move to a month. -/
def moveToMonth (value : Int) (t : Instant) : Checked Instant := do
  let month ← month0 t.date
  let distance ← cyclicDistance (signed month) value 12
  let current ← monthIndex t.date
  let index ← add .i64 current distance
  let day? ← monthStart? index
  return startOfDayOr t day?

/-- The move to a day of the week. -/
def moveToDayOfWeek (value : Int) (t : Instant) : Checked Instant := do
  let weekday ← weekday t.date
  let distance ← cyclicDistance (signed weekday) value 7
  return startOfDayOr t ((Width.u64.convert? distance).bind t.date.addDays?)

/-- The move to a day of the month, counted from its end. -/
def moveToDayOfMonthFromEnd (value : Int) (t : Instant) : Checked Instant := do
  let day? ← monthDayFromEndIn? value (WeekScope.month.startOf t.date)
  advanceToDay .month dayOfMonthHorizon (day?.filter fun day => t.date < day)
    (monthDayFromEndIn? value) t

/-- The time formed from whole milliseconds, which count as nanoseconds of the width. -/
def floorMilli? (t : Instant) (millisecond : Int) : Option TimeOfDay :=
  (Width.u32.convert? millisecond).bind fun milli =>
    (Width.u32.convert? (milli * 1000000)).bind fun nanos =>
      TimeOfDay.ofParts? t.time.hour t.time.minute t.time.second nanos.toNat

/-- The move by some units of time from a floor.  Without one nothing is computed. -/
def advanceTime (t : Instant) (floor? : Option TimeOfDay) (unit distance : Int) : Checked Instant :=
  match floor? with
  | none => return t
  | some floor => do
    let millis ← mul .i64 distance unit
    return (Instant.addMillis? ⟨t.date, floor⟩ millis.toNat).getD t

section Within

variable {current : Nat} {cycle unit distance : Int}

theorem moveToQuarter_ok (hv : InValueRange v) :
    moveToQuarter v t = .ok (Period.quarter.moveTo o v t) := by
  obtain ⟨hlow, hhigh⟩ := t.date.year_range
  have hquarter : t.date.month / 3 < 4 := by
    have := t.date.month_lt
    omega
  obtain ⟨hpos, hle⟩ := @cyclicDistance_pos_le v ((t.date.month / 3 : Nat) : Int) 4 (by decide)
  simp only [moveToQuarter, quarterOf_ok, year_ok, ok_bind, Period.moveTo]
  rw [mul_ok (Width.holds_i64_of_small (by linarith) (by linarith)), ok_bind]
  generalize t.date.month / 3 = quarter at hquarter hpos hle ⊢
  have hwithin : Width.i32.Holds ((quarter : Int) * 3) :=
    Width.holds_i32_of_small (by omega) (by omega)
  rw [mul_ok hwithin, ok_bind, add_ok (Width.holds_i64_of_small (by omega) (by omega)), ok_bind,
    cyclicDistance_ok (inValueRange_of_small (by omega) (by omega)) hv (by decide), ok_bind]
  generalize Recurrence.cyclicDistance (quarter : Int) v 4 = distance at hpos hle ⊢
  have hindex : t.date.year * 12 + (quarter : Int) * 3 + distance * 3 =
      12 * t.date.year + 3 * (quarter : Int) + 3 * distance := by ring
  rw [mul_ok (Width.holds_i64_of_small (by linarith) (by linarith)), ok_bind,
    add_ok (Width.holds_i64_of_small (by omega) (by omega)), ok_bind, hindex,
    monthStart?_ok (by omega) (by omega)]
  rfl

theorem moveToMonth_ok (hv : InValueRange v) :
    moveToMonth v t = .ok (Period.month.moveTo o v t) := by
  obtain ⟨hlow, hhigh⟩ := t.date.year_range
  have hmonth := t.date.month_lt
  have hindex : t.date.monthIndex = 12 * t.date.year + t.date.month := rfl
  obtain ⟨hpos, hle⟩ := @cyclicDistance_pos_le v (t.date.month : Int) 12 (by decide)
  simp only [moveToMonth, month0_ok, ok_bind, monthIndex_ok, Period.moveTo]
  rw [signed_of_small (by omega),
    cyclicDistance_ok (inValueRange_of_small (by omega) (by omega)) hv (by decide), ok_bind]
  generalize Recurrence.cyclicDistance (t.date.month : Int) v 12 = distance at hpos hle ⊢
  rw [add_ok (Width.holds_i64_of_small (by omega) (by omega)), ok_bind,
    monthStart?_ok (by omega) (by omega)]
  rfl

theorem moveToDayOfWeek_ok (hv : InValueRange v) :
    moveToDayOfWeek v t = .ok (Period.dayOfWeek.moveTo o v t) := by
  have hlow := t.date.weekday_nonneg
  have hhigh := t.date.weekday_lt
  have hcurrent : InValueRange t.date.weekday := inValueRange_of_small (by linarith) (by linarith)
  obtain ⟨hpos, hle⟩ := @cyclicDistance_pos_le v t.date.weekday 7 (by decide)
  have hdays : Width.u64.Holds (Recurrence.cyclicDistance t.date.weekday v 7) :=
    Width.holds_of_small .u64 hpos.le (by linarith)
  rw [moveToDayOfWeek, weekday_ok, ok_bind, signed_of_small (by linarith),
    cyclicDistance_ok hcurrent hv (by decide), ok_bind, Width.convert?_eq_some hdays]
  rfl

theorem moveToDayOfMonthFromEnd_ok :
    moveToDayOfMonthFromEnd v t = .ok (Period.dayOfMonthFromEnd.moveTo o v t) := by
  have hday (start : Date) := @monthDayFromEndIn?_ok start v
  rw [moveToDayOfMonthFromEnd, hday, ok_bind]
  exact advanceToDay_ok .month t hday dayOfMonthHorizon

theorem advanceTime_ok (floor? : Option TimeOfDay) (hunit : 0 < unit ∧ unit ≤ 3600000)
    (hdistance : 0 < distance ∧ distance ≤ 1000) :
    advanceTime t floor? unit distance = .ok (Recurrence.advanceTime t floor? unit distance) := by
  have hnonneg : 0 ≤ distance * unit := mul_nonneg hdistance.1.le hunit.1.le
  have hle : distance * unit ≤ 1000 * 3600000 :=
    mul_le_mul hdistance.2 hunit.2 hunit.1.le (by decide)
  cases floor? with
  | none => rfl
  | some floor =>
      rw [advanceTime, mul_ok (Width.holds_i64_of_small (by linarith) (by linarith))]
      rfl

/-- The move on a cycle of units of time is found. -/
theorem advanceUnits_ok (hv : InValueRange v) (hcurrent : current < 2000000000)
    (floor? : Option TimeOfDay) (hunit : 0 < unit ∧ unit ≤ 3600000)
    (hcycle : 0 < cycle ∧ cycle ≤ 1000) :
    (do
      let distance ← cyclicDistance (signed current) v cycle
      advanceTime t floor? unit distance) =
      .ok (Recurrence.advanceTime t floor? unit (Recurrence.cyclicDistance current v cycle)) := by
  obtain ⟨hpos, hle⟩ := @cyclicDistance_pos_le v current cycle hcycle.1
  rw [signed_of_small (by omega),
    cyclicDistance_ok (inValueRange_of_small (by omega) (by omega)) hv hcycle.1, ok_bind,
    advanceTime_ok t floor? hunit ⟨hpos, hle.trans hcycle.2⟩]

/-- The whole milliseconds of an instant have room as nanoseconds. -/
theorem floorMilli?_eq :
    floorMilli? t t.time.millisecond =
      TimeOfDay.ofParts? t.time.hour t.time.minute t.time.second
        (t.time.millisecond * nanosPerMilli) := by
  have hnanos := t.time.nano_lt
  have hmillis : t.time.millisecond * 1000000 ≤ t.time.nano := Nat.div_mul_le_self _ _
  unfold nanosPerSecond at hnanos
  rw [floorMilli?, Width.convert?_eq_some (Width.holds_of_small .u32 (by omega) (by omega)),
    Option.bind_some, Width.convert?_eq_some (Width.holds_of_small .u32 (by omega) (by omega))]
  rfl

end Within

/-! ## The move to a value -/

/-- The move to a start of a value of a period. -/
def moveTo (p : Period) (o : CalendarOptions) (value : Int) (t : Instant) : Checked Instant :=
  match p with
  | .century => do
    let years ← mul .i64 value 100
    let before ← sub .i32 100 1
    let first ← sub .i64 years before
    return startOfDayOr t (yearStart? first)
  | .decade => do
    let first ← mul .i64 value 10
    return startOfDayOr t (yearStart? first)
  | .year => return startOfDayOr t (yearStart? value)
  | .quarter => moveToQuarter value t
  | .month => moveToMonth value t
  | .week scope numbering => do
    let ahead? ← weekAhead? scope t.date value numbering o
    advanceToDay scope scope.horizon ahead? (fun start => weekStart? scope start value numbering o) t
  | .dayOfYear => advanceToYearDay value t
  | .dayOfWeek => moveToDayOfWeek value t
  | .dayOfMonth =>
    advanceToDay .month dayOfMonthHorizon (dayAhead? .month (monthDayIn? value) t.date)
      (fun start => return monthDayIn? value start) t
  | .dayOfMonthFromEnd => moveToDayOfMonthFromEnd value t
  | .hour => do
    let hour ← hour t
    let distance ← cyclicDistance (signed hour) value 24
    advanceTime t (TimeOfDay.ofParts? t.time.hour 0 0 0) 3600000 distance
  | .minute => do
    let minute ← minute t
    let distance ← cyclicDistance (signed minute) value 60
    advanceTime t (TimeOfDay.ofParts? t.time.hour t.time.minute 0 0) 60000 distance
  | .second => do
    let second ← second t
    let distance ← cyclicDistance (signed second) value 60
    advanceTime t (TimeOfDay.ofParts? t.time.hour t.time.minute t.time.second 0) 1000 distance
  | .millisecond => do
    let millisecond ← millisecond t
    let distance ← cyclicDistance millisecond value 1000
    advanceTime t (floorMilli? t millisecond) 1 distance

/-- **The move to a start of a value is found**, for every value of the value range. -/
theorem moveTo_ok (hv : InValueRange v) : moveTo p o v t = .ok (p.moveTo o v t) := by
  obtain ⟨hvlow, hvhigh⟩ := id hv
  obtain ⟨hhour, hminute, hsecond, hnanos⟩ := timeOfDay_bounds t
  unfold minValue at hvlow
  unfold maxValue at hvhigh
  cases p with
  | century =>
      have hbefore : sub .i32 100 1 = .ok 99 := rfl
      have hyears : Width.i64.Holds (v * 100) :=
        Width.holds_i64_of_small (by linarith) (by linarith)
      have hfirst : Width.i64.Holds (v * 100 - 99) :=
        Width.holds_i64_of_small (by linarith) (by linarith)
      simp only [moveTo, mul_ok hyears, hbefore, sub_ok hfirst, ok_bind, yearStart?_eq]
      rfl
  | decade =>
      have hfirst : Width.i64.Holds (v * 10) :=
        Width.holds_i64_of_small (by linarith) (by linarith)
      simp only [moveTo, mul_ok hfirst, ok_bind, yearStart?_eq]
      rfl
  | year =>
      simp only [moveTo, yearStart?_eq]
      rfl
  | quarter => exact moveToQuarter_ok o t hv
  | month => exact moveToMonth_ok o t hv
  | week scope numbering =>
      simp only [moveTo, weekAhead?_ok, ok_bind]
      exact advanceToDay_ok scope t (fun start => weekStart?_ok start scope numbering o v) scope.horizon
  | dayOfYear => exact advanceToYearDay_ok t
  | dayOfWeek => exact moveToDayOfWeek_ok o t hv
  | dayOfMonth => exact advanceToMonthDay_ok t
  | dayOfMonthFromEnd => exact moveToDayOfMonthFromEnd_ok o t
  | hour =>
      simp only [moveTo, hour_ok, ok_bind]
      exact advanceUnits_ok t hv (by linarith) _ (by decide) (by decide)
  | minute =>
      simp only [moveTo, minute_ok, ok_bind]
      exact advanceUnits_ok t hv (by linarith) _ (by decide) (by decide)
  | second =>
      simp only [moveTo, second_ok, ok_bind]
      exact advanceUnits_ok t hv (by linarith) _ (by decide) (by decide)
  | millisecond =>
      have hmillis : t.time.millisecond < 2000000000 := Nat.lt_of_le_of_lt (Nat.div_le_self _ _) hnanos
      have hmove := advanceUnits_ok t hv hmillis (floorMilli? t t.time.millisecond)
        (show 0 < 1 ∧ 1 ≤ 3600000 by decide) (show 0 < 1000 ∧ 1000 ≤ 1000 by decide)
      rw [signed_of_small (by omega)] at hmove
      simp only [moveTo, millisecond_ok, ok_bind]
      rw [hmove, floorMilli?_eq]
      rfl

end Machine

end Recurrence
