import Recurrence.Proofs.Calendar.Timeline
import Recurrence.Proofs.Calendar.WeekNumber

/-!
# The cycle of 400 years

The Gregorian rule repeats every 400 years, which are 146097 days, and **146097 days are a whole number
of weeks**.  So what the calendar says about a date within its year, its month and its week, it says
again about the date one cycle later: only the number of the year is another.

A date of the last 400 years has no such repetition, and so the statements here relate two dates or
instants that are given, instead of going from one to the other.

## Main Definitions

* `Date.addCycle?`, `Instant.addCycle?`: the date and the instant 400 years later
* `Date.RepeatsAt`, `Instant.RepeatsAt`: the second one is the first one, 400 years later
* `WeekScope.perCycle`: the number of years or months of a cycle

## Main Statements

* `WeekScope.firstDay_add_perCycle`: the stretches of a cycle are those of the cycle before
* `Date.RepeatsAt.year_eq`, `month_eq`, `dayOfMonth_eq`, `dayOfYear_eq`, `weekday_eq`: the parts of a date
* `WeekScope.weekOf_eq_of_repeatsAt`: its weeks
* `Instant.RepeatsAt.lt_iff`: the order of instants
-/

namespace Recurrence

theorem isLeapYear_add_400 (year : Int) : isLeapYear (year + 400) = isLeapYear year := by
  unfold isLeapYear
  have h4 : (year + 400) % 4 = year % 4 := by omega
  have h100 : (year + 400) % 100 = year % 100 := by omega
  have h400 : (year + 400) % 400 = year % 400 := by omega
  rw [h4, h100, h400]

theorem daysInMonth_add_400 (year : Int) (month : Nat) :
    daysInMonth (year + 400) month = daysInMonth year month := by
  unfold daysInMonth
  rw [isLeapYear_add_400]

theorem daysBeforeMonth_add_400 (year : Int) (month : Nat) :
    daysBeforeMonth (year + 400) month = daysBeforeMonth year month := by
  induction month with
  | zero => rfl
  | succ month ih => rw [daysBeforeMonth, daysBeforeMonth, ih, daysInMonth_add_400]

namespace WeekScope

/-- The number of years or months of a cycle. -/
def perCycle : WeekScope → Int
  | .year => 400
  | .month => 4800

variable (scope : WeekScope)

/-- **The stretches of a cycle begin as many days after those of the cycle before as a cycle has.** -/
theorem firstDay_add_perCycle (index : Int) :
    scope.firstDay (index + scope.perCycle) = scope.firstDay index + daysIn400Years := by
  cases scope with
  | year => exact daysBeforeYear_add_400 index
  | month =>
      have hdiv : (index + 4800) / 12 = index / 12 + 400 := by omega
      have hmod : (index + 4800) % 12 = index % 12 := by omega
      show firstDayOfMonth (index + 4800) = firstDayOfMonth index + daysIn400Years
      unfold firstDayOfMonth
      rw [hdiv, hmod, daysBeforeYear_add_400, daysBeforeMonth_add_400]
      omega

end WeekScope

/-! ## Dates -/

namespace Date

/-- The date 400 years later, if the calendar has it. -/
def addCycle? (d : Date) : Option Date := d.addDays? daysIn400Years

/-- The date `e` is the date `d`, 400 years later. -/
def RepeatsAt (d e : Date) : Prop := e.number = d.number + daysIn400Years

theorem addCycle?_eq_some_iff {d e : Date} : d.addCycle? = some e ↔ d.RepeatsAt e :=
  ofNumber?_eq_some

/-- The dates with two numbers that are a cycle apart, both of them in the calendar or both of them
beyond it. -/
theorem rel_ofNumber? {n : Int} (hfirst : firstDayNumber ≤ n)
    (hlast : n + daysIn400Years ≤ lastDayNumber) :
    Option.Rel RepeatsAt (ofNumber? n) (ofNumber? (n + daysIn400Years)) := by
  have hcycle : 0 < daysIn400Years := by decide
  rw [ofNumber?, dif_pos ⟨hfirst, by omega⟩, ofNumber?, dif_pos ⟨by omega, hlast⟩]
  exact .some rfl

namespace RepeatsAt

variable {d e d' e' : Date}

theorem lt_iff (h : d.RepeatsAt e) (h' : d'.RepeatsAt e') : d < d' ↔ e < e' := by
  unfold RepeatsAt at h h'
  rw [Date.lt_iff, Date.lt_iff]
  omega

theorem indexOf_eq (h : d.RepeatsAt e) (scope : WeekScope) :
    scope.indexOf e = scope.indexOf d + scope.perCycle := by
  have hbounds := scope.indexOf_bounds d
  have hsum : scope.indexOf d + scope.perCycle + 1 = scope.indexOf d + 1 + scope.perCycle := by omega
  unfold RepeatsAt at h
  rw [scope.indexOf_eq_iff, hsum, scope.firstDay_add_perCycle, scope.firstDay_add_perCycle]
  omega

theorem year_eq (h : d.RepeatsAt e) : e.year = d.year + 400 := h.indexOf_eq .year

theorem month_eq (h : d.RepeatsAt e) : e.month = d.month := by
  have hindex : e.monthIndex = d.monthIndex + 4800 := h.indexOf_eq .month
  have hyear := h.year_eq
  unfold monthIndex at hindex
  omega

theorem dayOfMonth_eq (h : d.RepeatsAt e) : e.dayOfMonth = d.dayOfMonth := by
  have hfirst : firstDayOfMonth (d.monthIndex + 4800) =
      firstDayOfMonth d.monthIndex + daysIn400Years :=
    WeekScope.month.firstDay_add_perCycle d.monthIndex
  have hindex : e.monthIndex = d.monthIndex + 4800 := h.indexOf_eq .month
  unfold RepeatsAt at h
  rw [Date.dayOfMonth_eq, Date.dayOfMonth_eq, hindex, hfirst]
  omega

theorem dayOfYear_eq (h : d.RepeatsAt e) : e.dayOfYear = d.dayOfYear := by
  have hyear := h.year_eq
  unfold RepeatsAt at h
  unfold dayOfYear
  rw [hyear, daysBeforeYear_add_400]
  omega

/-- A cycle is a whole number of weeks. -/
theorem weekday_eq (h : d.RepeatsAt e) : e.weekday = d.weekday := by
  unfold RepeatsAt daysIn400Years at h
  unfold weekday
  omega

theorem daysInMonth_eq (h : d.RepeatsAt e) :
    daysInMonth e.year e.month = daysInMonth d.year d.month := by
  rw [h.year_eq, h.month_eq, daysInMonth_add_400]

theorem startOf (h : d.RepeatsAt e) (scope : WeekScope) :
    (scope.startOf d).RepeatsAt (scope.startOf e) := by
  unfold RepeatsAt
  rw [scope.number_startOf, scope.number_startOf, h.indexOf_eq scope, scope.firstDay_add_perCycle]

end RepeatsAt

/-- Every date of a stretch repeats if one of them does. -/
theorem exists_repeatsAt {scope : WeekScope} {d e x : Date} (h : d.RepeatsAt e)
    (hx : scope.indexOf x = scope.indexOf d) : ∃ y, x.RepeatsAt y := by
  have hbounds := scope.indexOf_bounds x
  have hsum : scope.indexOf d + 1 + scope.perCycle = scope.indexOf e + 1 := by
    rw [h.indexOf_eq scope]
    omega
  have hfirst := scope.firstDay_add_perCycle (scope.indexOf d)
  have hnext := scope.firstDay_add_perCycle (scope.indexOf d + 1)
  rw [hsum] at hnext
  rw [← h.indexOf_eq scope] at hfirst
  rw [hx] at hbounds
  obtain ⟨y, hy, -⟩ := scope.exists_date_of_index (n := x.number + daysIn400Years)
    (scope.firstIndex_le e) (scope.indexOf_le_lastIndex e) (by omega) (by omega)
  exact ⟨y, hy⟩

/-- Every date of a stretch is a repetition if one of them is. -/
theorem exists_repeatsAt_of_right {scope : WeekScope} {d e y : Date} (h : d.RepeatsAt e)
    (hy : scope.indexOf y = scope.indexOf e) : ∃ x : Date, x.RepeatsAt y := by
  have hbounds := scope.indexOf_bounds y
  have hsum : scope.indexOf e + 1 = scope.indexOf d + 1 + scope.perCycle := by
    rw [h.indexOf_eq scope]
    omega
  rw [hy, hsum, h.indexOf_eq scope, scope.firstDay_add_perCycle, scope.firstDay_add_perCycle] at hbounds
  obtain ⟨x, hx, -⟩ := scope.exists_date_of_index (n := y.number - daysIn400Years)
    (scope.firstIndex_le d) (scope.indexOf_le_lastIndex d) (by omega) (by omega)
  refine ⟨x, ?_⟩
  unfold RepeatsAt
  omega

end Date

/-! ## Weeks -/

theorem WeekNumbering.boundary_eq_of_repeatsAt {d e : Date} (h : d.RepeatsAt e)
    (numbering : WeekNumbering) (o : CalendarOptions) : numbering.boundary e o = numbering.boundary d o := by
  unfold boundary weekdayOffset
  rw [h.weekday_eq]

/-- **The weeks of a year or a month are those of the one 400 years before.** -/
theorem WeekScope.weekOf_eq_of_repeatsAt {d e : Date} (h : d.RepeatsAt e) (scope : WeekScope)
    (numbering : WeekNumbering) (o : CalendarOptions) :
    scope.weekOf e numbering o = scope.weekOf d numbering o := by
  have hboundary : scope.boundaryAt numbering o e = scope.boundaryAt numbering o d :=
    numbering.boundary_eq_of_repeatsAt (h.startOf scope) o
  have hindex := h.indexOf_eq scope
  unfold Date.RepeatsAt at h
  rw [weekOf_eq, weekOf_eq, hboundary, hindex, scope.firstDay_add_perCycle, h]
  congr 1
  omega

/-! ## Instants -/

namespace Instant

/-- The instant 400 years later at the same time of day, if the calendar has it. -/
def addCycle? (t : Instant) : Option Instant := t.date.addCycle?.map fun date => ⟨date, t.time⟩

/-- The instant `u` is the instant `t`, 400 years later. -/
structure RepeatsAt (t u : Instant) : Prop where
  date : t.date.RepeatsAt u.date
  time : u.time = t.time

variable {t u t' u' : Instant}

theorem addCycle?_eq_some_iff : t.addCycle? = some u ↔ t.RepeatsAt u := by
  rw [addCycle?, Option.map_eq_some_iff]
  constructor
  · rintro ⟨date, hdate, rfl⟩
    exact ⟨Date.addCycle?_eq_some_iff.1 hdate, rfl⟩
  · rintro ⟨hdate, htime⟩
    exact ⟨u.date, Date.addCycle?_eq_some_iff.2 hdate, Instant.ext rfl htime.symm⟩

theorem RepeatsAt.rank_eq (h : t.RepeatsAt u) :
    u.rank = t.rank + daysIn400Years * secondsPerDay * (2 * nanosPerSecond) := by
  obtain ⟨hdate, htime⟩ := h
  unfold Date.RepeatsAt at hdate
  unfold rank
  rw [hdate, htime]
  unfold secondsPerDay nanosPerSecond
  omega

/-- **Repetitions are in the order of what they repeat.** -/
theorem RepeatsAt.lt_iff (h : t.RepeatsAt u) (h' : t'.RepeatsAt u') : t < t' ↔ u < u' := by
  rw [lt_iff_rank_lt, lt_iff_rank_lt, h.rank_eq, h'.rank_eq]
  omega

theorem RepeatsAt.min (h : t.RepeatsAt u) (h' : t'.RepeatsAt u') :
    (min t t').RepeatsAt (min u u') := by
  rcases lt_or_ge t t' with hlt | hge
  · rw [min_eq_left hlt.le, min_eq_left ((h.lt_iff h').1 hlt).le]
    exact h
  · have hge' : u' ≤ u := not_lt.1 fun hlt => absurd ((h.lt_iff h').2 hlt) (not_lt.2 hge)
    rw [min_eq_right hge, min_eq_right hge']
    exact h'

theorem repeatsAt_startOfDay {d e : Date} (h : d.RepeatsAt e) :
    (startOfDay d).RepeatsAt (startOfDay e) := ⟨h, rfl⟩

end Instant

end Recurrence
