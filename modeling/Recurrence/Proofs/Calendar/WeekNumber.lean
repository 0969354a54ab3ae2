import Recurrence.Proofs.Calendar.Stretch

/-!
# Week numbers of the days of a stretch

Within a year or a month the boundary does not change, so the week of a day is a division by seven
of its place in the stretch.  Everything follows from where the boundary can lie: it is at least 0,
hence a stretch begins in week 0 or 1, and at most 12, hence a year ends by week 54.  **Week 54 needs
the boundary 12, and only numbering by majority with a week 1 that contains day 1 has it.**

## Main Statements

* `WeekScope.weekOf_le_weekOf`: weeks do not decrease within a stretch
* `WeekScope.weekStart?_eq_some_iff`: the start of a week is the first day of the stretch in it
* `WeekScope.weekOf_year_bounds`, `WeekScope.weekOf_month_bounds`, `WeekScope.weekOf_fromFirst_bounds`:
  the numbers a week of a year or a month can have
-/

namespace Recurrence

theorem weekdayOffset_bounds (d : Date) (weekStart : Int) :
    0 ≤ weekdayOffset d weekStart ∧ weekdayOffset d weekStart < 7 :=
  ⟨Int.emod_nonneg _ (by decide), Int.emod_lt_of_pos _ (by decide)⟩

namespace WeekNumbering

variable (numbering : WeekNumbering) (start : Date) (o : CalendarOptions)

theorem boundary_bounds : 0 ≤ numbering.boundary start o ∧ numbering.boundary start o ≤ 12 := by
  have hoffset := weekdayOffset_bounds start o.weekStart
  have hpos := o.firstWeekDate_pos
  have hle := o.firstWeekDate_le
  cases numbering with
  | majority =>
      simp only [boundary, daysPerWeek]
      omega
  | full =>
      simp only [boundary, daysPerWeek]
      omega
  | fromFirst => simp [boundary, daysPerWeek]

/-- The boundary 12 needs numbering by majority with a week 1 that contains day 1. -/
theorem boundary_le_eleven (h : numbering = .majority → o.firstWeekDate ≠ 1) :
    numbering.boundary start o ≤ 11 := by
  have hoffset := weekdayOffset_bounds start o.weekStart
  have hpos := o.firstWeekDate_pos
  cases numbering with
  | majority =>
      have := h rfl
      simp only [boundary, daysPerWeek]
      omega
  | full =>
      simp only [boundary, daysPerWeek]
      omega
  | fromFirst => simp [boundary, daysPerWeek]

end WeekNumbering

namespace WeekScope

variable (scope : WeekScope) (numbering : WeekNumbering) (o : CalendarOptions)

/-- Two dates of one stretch have one start. -/
theorem startOf_eq_of_indexOf_eq {d e : Date} (h : scope.indexOf d = scope.indexOf e) :
    scope.startOf d = scope.startOf e :=
  Date.ext (by rw [number_startOf, number_startOf, h])

/-- The boundary that the days of the stretch of a date are numbered with. -/
def boundaryAt (d : Date) : Int := numbering.boundary (scope.startOf d) o

theorem boundaryAt_eq_of_indexOf_eq {d e : Date} (h : scope.indexOf d = scope.indexOf e) :
    scope.boundaryAt numbering o d = scope.boundaryAt numbering o e := by
  rw [boundaryAt, boundaryAt, scope.startOf_eq_of_indexOf_eq h]

theorem boundaryAt_bounds (d : Date) :
    0 ≤ scope.boundaryAt numbering o d ∧ scope.boundaryAt numbering o d ≤ 12 :=
  numbering.boundary_bounds _ o

/-- The week of a date, by its place in its stretch. -/
theorem weekOf_eq (d : Date) :
    scope.weekOf d numbering o =
      (d.number - scope.firstDay (scope.indexOf d) + 1 + scope.boundaryAt numbering o d) / 7 := by
  rw [weekOf, number_startOf]
  rfl

/-- Weeks do not decrease within a stretch. -/
theorem weekOf_le_weekOf {d e : Date} (hindex : scope.indexOf d = scope.indexOf e)
    (h : d.number ≤ e.number) : scope.weekOf d numbering o ≤ scope.weekOf e numbering o := by
  rw [weekOf_eq, weekOf_eq, scope.boundaryAt_eq_of_indexOf_eq numbering o hindex, hindex]
  exact Int.ediv_le_ediv (by decide) (by omega)

/-! ## The first day of a week -/

/-- The ordinal that `weekStartOrdinal` gives lies in the week exactly when some day of a stretch of
at most 366 days does, and then it is the first one. -/
theorem weekStartOrdinal_spec {week boundary length : Int} (hpos : 0 ≤ boundary)
    (hle : boundary ≤ 12) (hlength : length ≤ 366) :
    ((weekStartOrdinal week boundary ≤ length ∧
        weekNumber (weekStartOrdinal week boundary) boundary = week) ↔
      ∃ n, 1 ≤ n ∧ n ≤ length ∧ weekNumber n boundary = week) ∧
    ∀ n, 1 ≤ n → n ≤ length → weekNumber n boundary = week →
      1 ≤ weekStartOrdinal week boundary ∧ weekStartOrdinal week boundary ≤ n := by
  unfold weekNumber weekStartOrdinal saturate minValue maxValue daysPerWeek
  refine ⟨⟨fun h => ⟨_, by omega, h⟩, ?_⟩, fun n hn hnl hweek => by omega⟩
  rintro ⟨n, hn, hnl, hweek⟩
  omega

/-- **The start of a week is the first day of the stretch that lies in it.** -/
theorem weekStart?_eq_some_iff {start d : Date} {week : Int}
    (hstart : start.number = scope.firstDay (scope.indexOf start)) :
    scope.weekStart? start week numbering o = some d ↔
      scope.indexOf d = scope.indexOf start ∧ scope.weekOf d numbering o = week ∧
        ∀ x : Date, scope.indexOf x = scope.indexOf start →
          scope.weekOf x numbering o = week → d.number ≤ x.number := by
  have hself : scope.startOf start = start := Date.ext (by rw [number_startOf, hstart])
  have hboundary : scope.boundaryAt numbering o start = numbering.boundary start o := by
    rw [boundaryAt, hself]
  have hrange := numbering.boundary_bounds start o
  have hlength := scope.length_eq start
  have hmax : scope.length start ≤ 366 := by
    have := (scope.firstDay_succ_bounds (scope.indexOf start)).2
    cases scope <;> simp only [maxLength] at this <;> omega
  have hspec := @weekStartOrdinal_spec week _ _ hrange.1 hrange.2 hmax
  -- a day of the stretch, as an ordinal of it
  have hday : ∀ x : Date, scope.indexOf x = scope.indexOf start →
      1 ≤ x.number - start.number + 1 ∧ x.number - start.number + 1 ≤ scope.length start ∧
        scope.weekOf x numbering o =
          weekNumber (x.number - start.number + 1) (numbering.boundary start o) := by
    intro x hx
    have hbounds := scope.indexOf_bounds x
    rw [hx] at hbounds
    refine ⟨by omega, by omega, ?_⟩
    rw [weekOf_eq, scope.boundaryAt_eq_of_indexOf_eq numbering o hx, hboundary, hx, ← hstart]
    rfl
  generalize hordinal : weekStartOrdinal week (numbering.boundary start o) = ordinal at hspec
  simp only [weekStart?, hordinal]
  constructor
  · intro h
    split at h
    case isFalse => cases h
    case isTrue hweek =>
      have hnumber := Date.ofNumber?_eq_some.1 h
      obtain ⟨n, hn, hnl, hnweek⟩ := hspec.1.1 hweek
      have hpos := hspec.2 n hn hnl hnweek
      have hindex : scope.indexOf d = scope.indexOf start := by
        rw [indexOf_eq_iff]
        omega
      refine ⟨hindex, ?_, fun x hx hxweek => ?_⟩
      · rw [(hday d hindex).2.2, hnumber]
        convert hweek.2 using 2
        omega
      · obtain ⟨hx1, hxl, hxw⟩ := hday x hx
        have := (hspec.2 _ hx1 hxl (hxw ▸ hxweek)).2
        omega
  · rintro ⟨hindex, hweek, hleast⟩
    obtain ⟨hd1, hdl, hdw⟩ := hday d hindex
    have hexists := hspec.1.2 ⟨_, hd1, hdl, hdw ▸ hweek⟩
    obtain ⟨hpos, hle⟩ := hspec.2 _ hd1 hdl (hdw ▸ hweek)
    obtain ⟨e, he⟩ : ∃ e : Date, e.number = start.number + (ordinal - 1) :=
      Date.exists_number_eq (a := start) (b := d) (by omega) (by omega)
    have hindexe : scope.indexOf e = scope.indexOf start := by
      have hbounds := scope.indexOf_bounds d
      rw [hindex] at hbounds
      rw [indexOf_eq_iff]
      omega
    have hweeke : scope.weekOf e numbering o = week := by
      rw [(hday e hindexe).2.2, he]
      convert hexists.2 using 2
      omega
    rw [if_pos hexists]
    refine Date.ofNumber?_eq_some.2 ?_
    have := hleast e hindexe hweeke
    omega

/-! ## The range of week numbers -/

/-- No stretch has 60 weeks. -/
theorem weekOf_bounds (d : Date) :
    0 ≤ scope.weekOf d numbering o ∧ scope.weekOf d numbering o < 60 := by
  have hboundary := scope.boundaryAt_bounds numbering o d
  have hindex := scope.indexOf_bounds d
  have hsucc := (scope.firstDay_succ_bounds (scope.indexOf d)).2
  rw [weekOf_eq]
  cases scope <;> simp only [maxLength] at hsucc <;> omega

/-- Two days of one week are at most six days apart. -/
theorem number_le_of_weekOf_eq {d e : Date} (hindex : scope.indexOf d = scope.indexOf e)
    (h : scope.weekOf d numbering o = scope.weekOf e numbering o) : e.number ≤ d.number + 6 := by
  rw [weekOf_eq, weekOf_eq, scope.boundaryAt_eq_of_indexOf_eq numbering o hindex, hindex] at h
  omega

/-- Within a stretch, less than a week on the week is the same or the next one. -/
theorem weekOf_le_add_one {d e : Date} (hindex : scope.indexOf d = scope.indexOf e)
    (h : e.number ≤ d.number + 6) :
    scope.weekOf e numbering o ≤ scope.weekOf d numbering o + 1 := by
  rw [weekOf_eq, weekOf_eq, scope.boundaryAt_eq_of_indexOf_eq numbering o hindex, hindex]
  omega

/-- The week numbers of a year lie in 0 to 53, unless week 1 by majority has to contain day 1. -/
theorem weekOf_year_bounds (h : numbering = .majority → o.firstWeekDate ≠ 1) (d : Date) :
    0 ≤ WeekScope.year.weekOf d numbering o ∧ WeekScope.year.weekOf d numbering o ≤ 53 := by
  have hboundary := WeekScope.year.boundaryAt_bounds numbering o d
  have heleven : WeekScope.year.boundaryAt numbering o d ≤ 11 :=
    numbering.boundary_le_eleven _ o h
  have hbounds := WeekScope.year.indexOf_bounds d
  have hsucc := (WeekScope.year.firstDay_succ_bounds (WeekScope.year.indexOf d)).2
  rw [weekOf_eq]
  simp only [maxLength] at hsucc
  omega

/-- The week numbers of a month lie in 0 to 6, those by whole weeks in 0 to 5. -/
theorem weekOf_month_bounds (d : Date) :
    0 ≤ WeekScope.month.weekOf d numbering o ∧ WeekScope.month.weekOf d numbering o ≤ 6 := by
  have hboundary := WeekScope.month.boundaryAt_bounds numbering o d
  have hbounds := WeekScope.month.indexOf_bounds d
  have hsucc := (WeekScope.month.firstDay_succ_bounds (WeekScope.month.indexOf d)).2
  rw [weekOf_eq]
  simp only [maxLength] at hsucc
  omega

/-- Blocks of seven days are counted from 1, up to 53 in a year and up to 5 in a month. -/
theorem weekOf_fromFirst_bounds (d : Date) :
    1 ≤ scope.weekOf d .fromFirst o ∧
      scope.weekOf d .fromFirst o ≤ (scope.maxLength + 6) / 7 := by
  have hbounds := scope.indexOf_bounds d
  have hsucc := (scope.firstDay_succ_bounds (scope.indexOf d)).2
  have hboundary : scope.boundaryAt .fromFirst o d = 6 := rfl
  rw [weekOf_eq, hboundary]
  omega

/-- The last day of a stretch and the first day of the next one are in different weeks. -/
theorem weekOf_ne_of_indexOf_lt {d e : Date} (hnext : e.number = d.number + 1)
    (hindex : scope.indexOf d < scope.indexOf e) :
    scope.weekOf d numbering o ≠ scope.weekOf e numbering o := by
  have hd := scope.indexOf_bounds d
  have he := scope.indexOf_bounds e
  have hlt := (scope.indexOf_lt_iff).1 hindex
  have hlast : scope.indexOf e = scope.indexOf d + 1 := by
    have : scope.indexOf e ≤ scope.indexOf d + 1 := by
      have := scope.firstDay_lt.1 (Int.lt_of_le_of_lt he.1
        (show e.number < scope.firstDay (scope.indexOf d + 1 + 1) by
          have := (scope.firstDay_succ_bounds (scope.indexOf d + 1)).1
          omega))
      omega
    omega
  have hlength := (scope.firstDay_succ_bounds (scope.indexOf d)).1
  have hboundaryd := scope.boundaryAt_bounds numbering o d
  have hboundarye := scope.boundaryAt_bounds numbering o e
  rw [weekOf_eq, weekOf_eq, hlast]
  rw [hlast] at he hlt
  omega

end WeekScope

end Recurrence
