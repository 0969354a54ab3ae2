import Mathlib.Order.Bounds.Basic
import Recurrence.Proofs.Period.DayField

/-!
# Weeks partition a year or a month

Along the days of a year or a month the week number climbs by one on the days that begin a week, and
on no others.  Which days these are does not depend on the numbering by majority or by whole weeks:
both begin a week on the configured weekday, and they differ in the number of the first one only.
**A boundary leaves the same remainder by seven as the weekday of the first day does**, and so a sum
of ordinal and boundary is a multiple of seven on the days that begin a week.

Numbers and first days are two formulas, a division rounded down and a product cut off at the first
day.  They are inverse to each other: the first day of a week is found for those numbers that some
day has, and it is the first day that has it.

## Main Definitions

* `WeekScope.days`: the days of a year or a month
* `WeekNumbering.BeginsWeek`: the days that begin a week
* `WeekScope.WeekOneAt`: the place of week 1

## Main Statements

* `WeekNumbering.beginsWeek_iff`: a week begins where ordinal and boundary add up to whole weeks
* `WeekScope.weekOf_succ`: from one day to the next
* `WeekScope.weeks_partition`: the numbers of the days, week 1, and the first day of each week
-/

namespace Recurrence

/-! ## The days that begin a week -/

/-- A week begins on `d`, a day of the year or month that begins on `start`: on the configured
weekday, or on the days 1, 8, 15 and so on if weeks are counted from the first day. -/
def WeekNumbering.BeginsWeek (numbering : WeekNumbering) (o : CalendarOptions) (start d : Date) :
    Prop :=
  match numbering with
  | .majority | .full => d.weekday = o.weekStart
  | .fromFirst => (d.number - start.number) % daysPerWeek = 0

instance (numbering : WeekNumbering) (o : CalendarOptions) (start d : Date) :
    Decidable (numbering.BeginsWeek o start d) :=
  match numbering with
  | .majority | .full => inferInstanceAs (Decidable (d.weekday = o.weekStart))
  | .fromFirst => inferInstanceAs (Decidable ((d.number - start.number) % daysPerWeek = 0))

namespace WeekNumbering

variable (numbering : WeekNumbering) (o : CalendarOptions) (start d : Date)

/-- The boundary and the weekday of the first day leave one remainder. -/
theorem boundary_emod (h : numbering ≠ .fromFirst) :
    (numbering.boundary start o + 1) % 7 = weekdayOffset start o.weekStart := by
  have hoffset := weekdayOffset_bounds start o.weekStart
  cases numbering with
  | majority =>
      simp only [boundary, daysPerWeek]
      omega
  | full =>
      simp only [boundary, daysPerWeek]
      omega
  | fromFirst => exact absurd rfl h

/-- **A week begins where ordinal and boundary add up to whole weeks.** -/
theorem beginsWeek_iff :
    numbering.BeginsWeek o start d ↔
      (d.number - start.number + 1 + numbering.boundary start o) % 7 = 0 := by
  have hweekday : (d.number - start.number + 1 + numbering.boundary start o) % 7 = 0 →
      numbering ≠ .fromFirst → d.weekday = o.weekStart := by
    intro hsum hnumbering
    have hboundary := numbering.boundary_emod o start hnumbering
    have hle := o.weekStart_le
    simp only [weekdayOffset, Date.weekday, daysPerWeek] at hboundary ⊢
    omega
  have hsum : d.weekday = o.weekStart → numbering ≠ .fromFirst →
      (d.number - start.number + 1 + numbering.boundary start o) % 7 = 0 := by
    intro hday hnumbering
    have hboundary := numbering.boundary_emod o start hnumbering
    simp only [weekdayOffset, Date.weekday, daysPerWeek] at hboundary hday
    omega
  cases numbering with
  | majority => exact ⟨fun hday => hsum hday (by decide), fun h => hweekday h (by decide)⟩
  | full => exact ⟨fun hday => hsum hday (by decide), fun h => hweekday h (by decide)⟩
  | fromFirst =>
      simp only [BeginsWeek, boundary, daysPerWeek]
      omega

end WeekNumbering

namespace WeekScope

variable (scope : WeekScope) (numbering : WeekNumbering) (o : CalendarOptions) {start d e : Date}

/-! ## The days of a year or a month -/

/-- The days of the year or the month that begins on `start`: as many as it is long. -/
def days (start : Date) : Set Date :=
  {d | start ≤ d ∧ d.number < start.number + scope.length start}

theorem number_eq_firstDay (hstart : scope.startOf start = start) :
    start.number = scope.firstDay (scope.indexOf start) := by
  rw [← scope.number_startOf, hstart]

/-- The days of a year or a month are the dates of one stretch. -/
theorem mem_days_iff (hstart : scope.startOf start = start) :
    d ∈ scope.days start ↔ scope.indexOf d = scope.indexOf start := by
  have hnumber := scope.number_eq_firstDay hstart
  have hlength := scope.length_eq start
  rw [indexOf_eq_iff]
  show start.number ≤ d.number ∧ d.number < start.number + scope.length start ↔ _
  omega

theorem start_mem_days (hstart : scope.startOf start = start) : start ∈ scope.days start :=
  (scope.mem_days_iff hstart).2 rfl

/-- The week of a day of the year or the month that begins on `start`. -/
theorem weekOf_of_mem (hstart : scope.startOf start = start) (hd : d ∈ scope.days start) :
    scope.weekOf d numbering o =
      (d.number - start.number + 1 + numbering.boundary start o) / 7 := by
  have hindex := (scope.mem_days_iff hstart).1 hd
  rw [weekOf, scope.startOf_eq_of_indexOf_eq hindex, hstart]
  rfl

/-- The first seven days of a year or a month are days of the calendar. -/
theorem exists_mem_days (hstart : scope.startOf start = start) {n : Int} (hn : 0 ≤ n ∧ n < 7) :
    ∃ d ∈ scope.days start, d.number = start.number + n := by
  have hnumber := scope.number_eq_firstDay hstart
  have hshort := (scope.firstDay_succ_bounds (scope.indexOf start)).1
  have hlong : 7 ≤ scope.length start := by
    cases scope with
    | year =>
        have := daysInYear_bounds start.year
        simp only [length]
        omega
    | month =>
        have := daysInMonth_bounds start.year start.month
        simp only [length]
        omega
  rw [scope.length_eq] at hlong
  obtain ⟨d, hd, hindex⟩ := scope.exists_date_of_index (scope.firstIndex_le start)
    (scope.indexOf_le_lastIndex start) (n := start.number + n) (by omega) (by omega)
  exact ⟨d, (scope.mem_days_iff hstart).2 hindex, hd⟩

/-! ## Week numbers along the days -/

/-- **From one day to the next the week number grows by one if a week begins, and else stays.** -/
theorem weekOf_succ (hstart : scope.startOf start = start) (hd : d ∈ scope.days start)
    (he : e ∈ scope.days start) (hnext : e.number = d.number + 1) :
    scope.weekOf e numbering o =
      scope.weekOf d numbering o + if numbering.BeginsWeek o start e then 1 else 0 := by
  rw [scope.weekOf_of_mem numbering o hstart hd, scope.weekOf_of_mem numbering o hstart he]
  split
  · next hbegins =>
      rw [numbering.beginsWeek_iff] at hbegins
      omega
  · next hnot =>
      rw [numbering.beginsWeek_iff] at hnot
      omega

/-- A week and a weekday name one day. -/
theorem eq_of_weekOf_eq (hstart : scope.startOf start = start) (hd : d ∈ scope.days start)
    (he : e ∈ scope.days start)
    (hweek : scope.weekOf d numbering o = scope.weekOf e numbering o)
    (hweekday : d.weekday = e.weekday) : d = e := by
  rw [scope.weekOf_of_mem numbering o hstart hd, scope.weekOf_of_mem numbering o hstart he] at hweek
  unfold Date.weekday at hweekday
  exact Date.ext (by omega)

/-! ## Week 1 -/

/-- Where week 1 of the year or the month that begins on `start` lies: it contains a given day, or it
begins on the first of the days that weeks begin on, or on the first day of all. -/
def WeekOneAt (start : Date) : WeekNumbering → Prop
  | .majority => ∃ d ∈ scope.days start, d.number = start.number + (o.firstWeekDate - 1) ∧
      scope.weekOf d .majority o = 1
  | .full => ∃ d, IsLeast {e ∈ scope.days start | e.weekday = o.weekStart} d ∧
      IsLeast {e ∈ scope.days start | scope.weekOf e .full o = 1} d
  | .fromFirst => IsLeast {e ∈ scope.days start | scope.weekOf e .fromFirst o = 1} start

/-- The day that week 1 by majority has to contain lies in it. -/
theorem weekOf_firstWeekDate (hstart : scope.startOf start = start) (hd : d ∈ scope.days start)
    (hday : d.number = start.number + (o.firstWeekDate - 1)) : scope.weekOf d .majority o = 1 := by
  have hoffset := weekdayOffset_bounds start o.weekStart
  have hpos := o.firstWeekDate_pos
  have hle := o.firstWeekDate_le
  rw [scope.weekOf_of_mem .majority o hstart hd]
  simp only [WeekNumbering.boundary, daysPerWeek]
  omega

/-- The first whole week begins after the days of week 0, of which there are fewer than seven. -/
theorem weekOneAt_full (hstart : scope.startOf start = start) : scope.WeekOneAt o start .full := by
  have hoffset := weekdayOffset_bounds start o.weekStart
  have hboundary : WeekNumbering.full.boundary start o = weekdayOffset start o.weekStart - 1 +
      if weekdayOffset start o.weekStart = 0 then 7 else 0 := rfl
  have hsum (e : Date) : e.weekday = o.weekStart ↔
      (e.number - start.number + 1 + WeekNumbering.full.boundary start o) % 7 = 0 :=
    WeekNumbering.full.beginsWeek_iff o start e
  obtain ⟨d, hd, hnumber⟩ :=
    scope.exists_mem_days hstart (n := -weekdayOffset start o.weekStart % 7) (by omega)
  refine ⟨d, ⟨⟨hd, ?_⟩, fun e ⟨he, hday⟩ => ?_⟩, ⟨hd, ?_⟩, fun e ⟨he, hweek⟩ => ?_⟩
  · rw [hsum]
    omega
  · have hfirst := Date.le_iff.1 he.1
    rw [hsum] at hday
    rw [Date.le_iff]
    omega
  · rw [scope.weekOf_of_mem .full o hstart hd]
    omega
  · have hfirst := Date.le_iff.1 he.1
    rw [scope.weekOf_of_mem .full o hstart he] at hweek
    rw [Date.le_iff]
    omega

theorem weekOneAt (hstart : scope.startOf start = start) : scope.WeekOneAt o start numbering := by
  cases numbering with
  | majority =>
      have hpos := o.firstWeekDate_pos
      have hle := o.firstWeekDate_le
      obtain ⟨d, hd, hnumber⟩ :=
        scope.exists_mem_days hstart (n := o.firstWeekDate - 1) (by omega)
      exact ⟨d, hd, hnumber, scope.weekOf_firstWeekDate o hstart hd hnumber⟩
  | full => exact scope.weekOneAt_full o hstart
  | fromFirst =>
      refine ⟨⟨scope.start_mem_days hstart, ?_⟩, fun e he => he.1.1⟩
      rw [scope.weekOf_of_mem .fromFirst o hstart (scope.start_mem_days hstart), Int.sub_self]
      rfl

/-! ## The first day of each week -/

/-- The start of a week is the first day that has its number. -/
theorem isLeast_of_weekStart? (hstart : scope.startOf start = start) {week : Int}
    (h : scope.weekStart? start week numbering o = some d) :
    IsLeast {e ∈ scope.days start | scope.weekOf e numbering o = week} d := by
  obtain ⟨hindex, hweek, hleast⟩ :=
    (scope.weekStart?_eq_some_iff numbering o (scope.number_eq_firstDay hstart)).1 h
  refine ⟨⟨(scope.mem_days_iff hstart).2 hindex, hweek⟩, fun e ⟨he, heweek⟩ => ?_⟩
  exact hleast e ((scope.mem_days_iff hstart).1 he) heweek

/-- **Weeks partition a year or a month.**  Along the days that begin on `start` the week number
starts at 0 or 1, climbs, and grows by one exactly on the days that begin a week, so that a week and a
weekday name one day.  Week 1 lies where the numbering puts it.  The start of a week is found for the
numbers that some day has, and is the first such day. -/
theorem weeks_partition (scope : WeekScope) (numbering : WeekNumbering) (o : CalendarOptions)
    (start : Date) (hstart : scope.startOf start = start) :
    (scope.weekOf start numbering o = 0 ∨ scope.weekOf start numbering o = 1) ∧
    (∀ d ∈ scope.days start, ∀ e ∈ scope.days start, d ≤ e →
      scope.weekOf d numbering o ≤ scope.weekOf e numbering o) ∧
    (∀ d ∈ scope.days start, ∀ e ∈ scope.days start, e.number = d.number + 1 →
      scope.weekOf e numbering o =
        scope.weekOf d numbering o + if numbering.BeginsWeek o start e then 1 else 0) ∧
    (∀ d ∈ scope.days start, ∀ e ∈ scope.days start,
      scope.weekOf d numbering o = scope.weekOf e numbering o → d.weekday = e.weekday → d = e) ∧
    scope.WeekOneAt o start numbering ∧
    ∀ week, ((∃ d, scope.weekStart? start week numbering o = some d) ↔
        ∃ e ∈ scope.days start, scope.weekOf e numbering o = week) ∧
      ∀ d, scope.weekStart? start week numbering o = some d →
        IsLeast {e ∈ scope.days start | scope.weekOf e numbering o = week} d := by
  refine ⟨?_, fun d hd e he hle => ?_, fun d hd e he hnext => ?_, fun d hd e he hweek hday => ?_,
    scope.weekOneAt numbering o hstart, fun week => ⟨⟨?_, ?_⟩, fun d hd => ?_⟩⟩
  · have hboundary := numbering.boundary_bounds start o
    rw [scope.weekOf_of_mem numbering o hstart (scope.start_mem_days hstart), Int.sub_self]
    omega
  · have hindex := ((scope.mem_days_iff hstart).1 hd).trans ((scope.mem_days_iff hstart).1 he).symm
    exact scope.weekOf_le_weekOf numbering o hindex hle
  · exact scope.weekOf_succ numbering o hstart hd he hnext
  · exact scope.eq_of_weekOf_eq numbering o hstart hd he hweek hday
  · rintro ⟨d, hd⟩
    obtain ⟨⟨hmem, hweek⟩, -⟩ := scope.isLeast_of_weekStart? numbering o hstart hd
    exact ⟨d, hmem, hweek⟩
  · rintro ⟨e, he, rfl⟩
    obtain ⟨d, hd, -⟩ := (dayField_week scope numbering o).exists_dayIn?
      (scope.number_eq_firstDay hstart) ((scope.mem_days_iff hstart).1 he)
    exact ⟨d, hd⟩
  · exact scope.isLeast_of_weekStart? numbering o hstart hd

/-- The leap year 2000 began on the last day of a week, and so the last of its days is the first one
of its 53rd whole week. -/
theorem weeks_partition_leapYear :
    IsLeast {e ∈ WeekScope.year.days ((Date.ofCivil? 2000 0 1).get (by decide)) |
        WeekScope.year.weekOf e .full .standard = 53}
      ((Date.ofCivil? 2000 11 31).get (by decide)) := by
  obtain ⟨-, -, -, -, -, hweeks⟩ := weeks_partition .year .full .standard
    ((Date.ofCivil? 2000 0 1).get (by decide)) (by decide)
  exact (hweeks 53).2 _ (by decide)

end WeekScope

end Recurrence
