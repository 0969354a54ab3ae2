import Recurrence.Proofs.Calendar.FirstWeekday
import Recurrence.Proofs.Period.Laws

/-!
# How far a move looks

A move to a week or a day looks through the following years or months up to a horizon, and goes to
the beginning of the next one when it finds nothing.  **The horizons are long enough**: a value of
the domain that any later year or month has, one within the horizon has too.  So a move ends on the
value it was made for whenever the calendar has it later on.

What is left is a value that never comes again, because no year or month has it under the options or
because the calendar ends before.  A day of the year or of a month does not move then.  A week is
what may go astray: its move leads to the first day of the following year or month.

## Main Definitions

* `RecursWithin`: a value that the following stretches have within a number of them, if at all
* `WeekScope.nextStart`: the beginning of the following year or month
* `Period.GoesAstray`: a move that ends at the beginning of a stretch, its value being gone

## Main Statements

* `recursWithin_week`, `exists_hasDay_dayOfYear`, `recursWithin_dayOfMonth`: the horizons
* `Period.valueAt_moveTo_or`: a move that leads forward ends on its value, or goes astray
* `Period.valueAt_moveTo`: a move ends on its value if the value comes again
-/

namespace Recurrence

/-! ## What a scan comes to -/

namespace DayField

variable {scope : WeekScope} {run value : Date → Int} {dayIn? : Int → Date → Option Date} {v : Int}

/-- What the scan finds has the value. -/
theorem value_of_scanFollowing (h : DayField scope run value dayIn?) {horizon : Nat}
    {start e : Date} (hstart : start.number = scope.firstDay (scope.indexOf start))
    (hscan : scanFollowing scope.following? (dayIn? v) horizon start = .found e) : value e = v := by
  induction horizon generalizing start with
  | zero => cases hscan
  | succ horizon ih =>
      rw [scanFollowing] at hscan
      split at hscan
      · cases hscan
      · next next hnext =>
          have hfirst := (scope.following?_eq_some hstart hnext).2
          split at hscan
          · next day hday =>
              cases hscan
              exact ((h.dayIn?_eq_some_iff hfirst).1 hday).2.1
          · exact ih hfirst hscan

/-- When the scan finds nothing within the horizon, the calendar reaches that far, and no stretch up
to there has a day with the value. -/
theorem scanFollowing_missing (h : DayField scope run value dayIn?) {horizon : Nat} {start : Date}
    (hstart : start.number = scope.firstDay (scope.indexOf start))
    (hscan : scanFollowing scope.following? (dayIn? v) horizon start = .missing) :
    scope.indexOf start + horizon ≤ scope.lastIndex ∧
      ∀ x : Date, scope.indexOf start < scope.indexOf x →
        scope.indexOf x ≤ scope.indexOf start + horizon → value x ≠ v := by
  induction horizon generalizing start with
  | zero =>
      have := scope.indexOf_le_lastIndex start
      exact ⟨by omega, fun x hx hxh => by omega⟩
  | succ horizon ih =>
      rw [scanFollowing] at hscan
      split at hscan
      · cases hscan
      · next next hnext =>
          obtain ⟨hindex, hfirst⟩ := scope.following?_eq_some hstart hnext
          split at hscan
          · cases hscan
          · next hnone =>
              obtain ⟨hlast, hlater⟩ := ih hfirst hscan
              refine ⟨by omega, fun x hx hxh => ?_⟩
              rcases Int.lt_or_eq_of_le (show scope.indexOf next ≤ scope.indexOf x by omega)
                with hlt | heq
              · exact hlater x hlt (by omega)
              · rintro rfl
                obtain ⟨d, hd, -⟩ := h.exists_dayIn? hfirst heq.symm
                rw [hnone] at hd
                cases hd

end DayField

/-! ## Values that come again -/

/-- A value that any later stretch has, one of the `horizon` stretches after each date has. -/
def RecursWithin (scope : WeekScope) (value : Date → Int) (v : Int) (horizon : Nat) : Prop :=
  ∀ a x : Date, scope.indexOf a < scope.indexOf x → value x = v →
    ∃ y, scope.indexOf a < scope.indexOf y ∧ scope.indexOf y ≤ scope.indexOf a + horizon ∧
      value y = v

/-- The beginning of the year or month after that of `t`, or `t` itself if the calendar ends
before. -/
def WeekScope.nextStart (scope : WeekScope) (t : Instant) : Instant :=
  startOfDayOr t (scope.following? (scope.startOf t.date))

namespace DayField

variable {scope : WeekScope} {run value : Date → Int} {dayIn? : Int → Date → Option Date} {v : Int}

/-- A scan up to a horizon that is long enough finds a value that comes again. -/
theorem exists_scanFollowing_found (h : DayField scope run value dayIn?) {horizon : Nat}
    (hrecurs : RecursWithin scope value v horizon) {start x : Date}
    (hstart : start.number = scope.firstDay (scope.indexOf start))
    (hx : scope.indexOf start < scope.indexOf x) (hxv : value x = v) :
    ∃ e, scanFollowing scope.following? (dayIn? v) horizon start = .found e := by
  cases hscan : scanFollowing scope.following? (dayIn? v) horizon start with
  | found e => exact ⟨e, rfl⟩
  | missing =>
      obtain ⟨y, hy, hnear, hyv⟩ := hrecurs start x hx hxv
      exact absurd hyv ((h.scanFollowing_missing hstart hscan).2 y hy hnear)
  | calendarEnd => exact absurd hxv (h.scanFollowing_calendarEnd hstart hscan hx)

/-- **A move to a day ends on the value, or the value is gone** and the move ends at the beginning
of the next stretch. -/
theorem advanceToDay_cases (h : DayField scope run value dayIn?) {horizon : Nat}
    (hrecurs : RecursWithin scope value v horizon) (t : Instant) :
    (∃ d, advanceToDay scope horizon (dayIn? v) t = Instant.startOfDay d ∧ value d = v ∧
        run t.date < run d) ∨
      (advanceToDay scope horizon (dayIn? v) t = scope.nextStart t ∧
        ∀ x : Date, run t.date < run x → value x ≠ v) := by
  have hstart := scope.isFirst_startOf t.date
  unfold advanceToDay
  split
  · next day hday =>
      have hin := (Option.filter_eq_some_iff.1 hday).1
      exact .inl ⟨day, rfl, ((h.dayIn?_eq_some_iff hstart).1 hin).2.1, h.run_lt_of_dayAhead? hday⟩
  · next hnone =>
      split
      · next e hscan =>
          have hlater := (h.scanFollowing_found hstart hscan).1
          exact .inl ⟨e, rfl, h.value_of_scanFollowing hstart hscan, h.run_lt_of_startOf_lt hlater⟩
      · next hnot =>
          refine .inr ⟨rfl, fun x hx hxv => ?_⟩
          obtain ⟨e, he⟩ := h.exists_scanFollowing_found hrecurs hstart
            (h.indexOf_lt_of_dayAhead?_eq_none hnone hx hxv) hxv
          exact hnot e he

end DayField

/-- A move to the beginning of the next stretch that leads forward shows that there is one. -/
theorem WeekScope.exists_of_lt_nextStart (scope : WeekScope) {t : Instant}
    (h : t < scope.nextStart t) :
    ∃ next, scope.nextStart t = Instant.startOfDay next ∧
      scope.indexOf next = scope.indexOf t.date + 1 ∧
        next.number = scope.firstDay (scope.indexOf next) := by
  unfold nextStart at h ⊢
  cases hnext : scope.following? (scope.startOf t.date) with
  | none =>
      rw [hnext] at h
      exact absurd h (lt_irrefl t)
  | some next =>
      obtain ⟨hindex, hfirst⟩ := scope.following?_eq_some (scope.isFirst_startOf t.date) hnext
      rw [scope.indexOf_startOf] at hindex
      exact ⟨next, rfl, hindex, hfirst⟩

/-- Every day with the number `n` in the stretch `index` has the value. -/
def HasDay (scope : WeekScope) (value : Date → Int) (v index : Int) : Prop :=
  ∃ n, scope.firstDay index ≤ n ∧ n < scope.firstDay (index + 1) ∧
    ∀ y : Date, y.number = n → scope.indexOf y = index → value y = v

section Recurring

variable {scope : WeekScope} {value : Date → Int} {v : Int} {horizon : Nat}

/-- A stretch of the calendar that has a day for the value has a date with it. -/
theorem HasDay.exists_date {index : Int} (h : HasDay scope value v index)
    (hfirst : scope.firstIndex ≤ index) (hlast : index ≤ scope.lastIndex) :
    ∃ y, scope.indexOf y = index ∧ value y = v := by
  obtain ⟨n, hn, hnext, hvalue⟩ := h
  obtain ⟨y, hy, hindex⟩ := scope.exists_date_of_index hfirst hlast hn hnext
  exact ⟨y, hindex, hvalue y hy hindex⟩

/-- If among any `horizon` stretches one has a day for the value, the value recurs within that
horizon. -/
theorem recursWithin_of_hasDay
    (h : ∀ index : Int, ∃ later, index < later ∧ later ≤ index + horizon ∧ HasDay scope value v later) :
    RecursWithin scope value v horizon := by
  intro a x hax hxv
  obtain ⟨later, hlt, hle, hday⟩ := h (scope.indexOf a)
  rcases Int.lt_or_le (scope.indexOf a + horizon) (scope.indexOf x) with hfar | hnear
  · have hfirst := scope.firstIndex_le a
    have hlast := scope.indexOf_le_lastIndex x
    obtain ⟨y, hindex, hyv⟩ := hday.exists_date (by omega) (by omega)
    exact ⟨y, by omega, by omega, hyv⟩
  · exact ⟨x, hax, hnear, hxv⟩

end Recurring

/-! ## Weeks -/

namespace WeekNumbering

variable (numbering : WeekNumbering) (o : CalendarOptions)

/-- A boundary is fixed by the weekday on which the year or month begins. -/
theorem boundary_eq_of_weekday {start start' : Date} (h : start.number % 7 = start'.number % 7) :
    numbering.boundary start o = numbering.boundary start' o := by
  have hoffset : weekdayOffset start o.weekStart = weekdayOffset start' o.weekStart := by
    unfold weekdayOffset Date.weekday daysPerWeek
    omega
  unfold boundary
  rw [hoffset]

/-- A year or month that begins with a week has its days numbered from the first whole week on. -/
theorem boundary_of_offset_eq_zero {start : Date} (h : weekdayOffset start o.weekStart = 0) :
    numbering.boundary start o = 6 := by
  have hle := o.firstWeekDate_le
  cases numbering with
  | majority =>
      simp only [boundary, h, daysPerWeek]
      omega
  | full => simp [boundary, h, daysPerWeek]
  | fromFirst => rfl

end WeekNumbering

namespace WeekScope

variable (scope : WeekScope) (numbering : WeekNumbering) (o : CalendarOptions)

/-- A number of days that a stretch within the horizon has, on whatever weekday it is to begin. -/
def reach : WeekScope → Int
  | .year => 365
  | .month => 31

/-- Within the horizon a stretch of enough days begins on a given weekday. -/
theorem exists_stretch_from (index weekday : Int) (h : 0 ≤ weekday ∧ weekday < 7) :
    ∃ later, index < later ∧ later ≤ index + scope.horizon ∧ scope.firstDay later % 7 = weekday ∧
      scope.firstDay later + scope.reach ≤ scope.firstDay (later + 1) := by
  cases scope with
  | year =>
      obtain ⟨later, hlt, hle, hweekday⟩ := exists_year_from index weekday h
      have hlength := daysBeforeYear_succ later
      have hbounds := daysInYear_bounds later
      refine ⟨later, hlt, ?_, hweekday, ?_⟩
      · show later ≤ index + (28 : Nat)
        omega
      · simp only [firstDay, reach]
        omega
  | month =>
      obtain ⟨later, hlt, hle, hweekday, hlength⟩ := exists_longMonth_from index weekday h
      exact ⟨later, hlt, hle, hweekday, Int.le_of_eq hlength.symm⟩

/-- A week number of the domain is that of a place in the stretches that begin on some weekday, a
place that the stretches within the horizon have. -/
theorem exists_place_of_weekOf (x : Date)
    (hx : scope = .year → scope.weekOf x numbering o ≤ 53) :
    ∃ weekday place, (0 ≤ weekday ∧ weekday < 7) ∧ (0 ≤ place ∧ place < scope.reach) ∧
      ∀ y : Date, scope.firstDay (scope.indexOf y) % 7 = weekday →
        y.number = scope.firstDay (scope.indexOf y) + place →
          scope.weekOf y numbering o = scope.weekOf x numbering o := by
  have hbounds := scope.indexOf_bounds x
  have hlength := (scope.firstDay_succ_bounds (scope.indexOf x)).2
  have hrange := scope.boundaryAt_bounds numbering o x
  -- on the weekday on which the stretch of `x` begins, the boundary is the one of `x`
  have hsame : ∀ y : Date, scope.firstDay (scope.indexOf y) % 7 =
      scope.firstDay (scope.indexOf x) % 7 →
        scope.boundaryAt numbering o y = scope.boundaryAt numbering o x := by
    intro y hy
    refine numbering.boundary_eq_of_weekday o ?_
    rw [number_startOf, number_startOf, hy]
  have hweekday : 0 ≤ scope.firstDay (scope.indexOf x) % 7 ∧
      scope.firstDay (scope.indexOf x) % 7 < 7 := by omega
  by_cases hplace : x.number - scope.firstDay (scope.indexOf x) < scope.reach
  · refine ⟨_, x.number - scope.firstDay (scope.indexOf x), hweekday, ⟨by omega, hplace⟩, ?_⟩
    intro y hy hnumber
    rw [weekOf_eq, weekOf_eq, hsame y hy, hnumber]
    congr 1
    omega
  · -- the day 366 of a year: it shares the week of the day before it, or begins a week 53
    cases scope with
    | month =>
        simp only [maxLength, reach] at hlength hplace
        omega
    | year =>
        have hvalue := hx rfl
        rw [weekOf_eq] at hvalue
        simp only [maxLength, reach] at hlength hplace
        by_cases hshared : (366 + WeekScope.year.boundaryAt numbering o x) % 7 = 0
        · -- a year that begins with a week has a week 53 as well
          refine ⟨((o.weekStart : Int) + 1) % 7, 364, by omega, by decide, ?_⟩
          intro y hy hnumber
          have hsix : WeekScope.year.boundaryAt numbering o y = 6 := by
            refine numbering.boundary_of_offset_eq_zero o ?_
            unfold weekdayOffset Date.weekday daysPerWeek
            rw [number_startOf]
            omega
          rw [weekOf_eq, weekOf_eq, hsix]
          omega
        · refine ⟨_, 364, hweekday, by decide, fun y hy hnumber => ?_⟩
          rw [weekOf_eq, weekOf_eq, hsame y hy]
          omega

end WeekScope

/-- **A week number of the domain that any later year or month has recurs within the horizon.** -/
theorem recursWithin_week (scope : WeekScope) (numbering : WeekNumbering) (o : CalendarOptions)
    {v : Int} (hv : scope = .year → v ≤ 53) :
    RecursWithin scope (fun d => scope.weekOf d numbering o) v scope.horizon := by
  intro a x hax hxv
  subst hxv
  obtain ⟨weekday, place, hweekday, hplace, hvalue⟩ := scope.exists_place_of_weekOf numbering o x hv
  refine recursWithin_of_hasDay (fun index => ?_) a x hax rfl
  obtain ⟨later, hlt, hle, hfirst, hlength⟩ := scope.exists_stretch_from index weekday hweekday
  refine ⟨later, hlt, hle, scope.firstDay later + place, by omega, by omega, ?_⟩
  intro y hy hindex
  exact hvalue y (by rw [hindex, hfirst]) (by rw [hindex, hy])

/-! ## Days of a year -/

/-- Of any eight years, one has all the days that a year can have. -/
theorem exists_hasDay_dayOfYear {v : Int} (hv : 1 ≤ v ∧ v ≤ 366) (index : Int) :
    ∃ later, index < later ∧ later ≤ index + dayOfYearHorizon ∧
      HasDay .year Date.dayOfYear v later := by
  obtain ⟨later, hlt, hle, hleap⟩ := exists_leapYear index
  have hlength := daysBeforeYear_succ later
  rw [daysInYear, if_pos hleap] at hlength
  refine ⟨later, hlt, hle, daysBeforeYear later + (v - 1), ?_, ?_, fun y hy hindex => ?_⟩
  · simp only [WeekScope.firstDay]
    omega
  · simp only [WeekScope.firstDay]
    omega
  · simp only [WeekScope.indexOf] at hindex
    rw [Date.dayOfYear, hindex, hy]
    omega

/-- **The move to a day of the year ends on it, or stays.** -/
theorem advanceToYearDay_cases {v : Int} (hv : 1 ≤ v ∧ v ≤ 366) (t : Instant) :
    (∃ d, advanceToYearDay v t = Instant.startOfDay d ∧ d.dayOfYear = v) ∨
      advanceToYearDay v t = t := by
  have h := dayField_dayOfYear
  have hstart := WeekScope.year.isFirst_startOf t.date
  unfold advanceToYearDay
  split
  · next day hday =>
      have hin := (Option.filter_eq_some_iff.1 hday).1
      exact .inl ⟨day, rfl, ((h.dayIn?_eq_some_iff hstart).1 hin).2.1⟩
  · split
    · next e hscan => exact .inl ⟨e, rfl, h.value_of_scanFollowing hstart hscan⟩
    · next hscan =>
        -- one of the eight years is a leap year, so the scan cannot have missed the day
        obtain ⟨hlast, hnot⟩ := h.scanFollowing_missing hstart hscan
        obtain ⟨later, hlt, hle, hday⟩ :=
          exists_hasDay_dayOfYear hv (WeekScope.year.indexOf (WeekScope.year.startOf t.date))
        have hfirst := WeekScope.year.firstIndex_le (WeekScope.year.startOf t.date)
        obtain ⟨y, hindex, hyv⟩ := hday.exists_date (by omega) (by omega)
        exact absurd hyv (hnot y (by omega) (by omega))
    · exact .inr rfl

/-! ## Days of a month -/

/-- A month of 31 days has a day with every number, counted from either end. -/
theorem hasDay_of_longMonth {v index : Int} (hv : 1 ≤ v ∧ v ≤ 31)
    (hlong : firstDayOfMonth (index + 1) = firstDayOfMonth index + 31) :
    HasDay .month Date.dayOfMonth v index ∧ HasDay .month Date.dayOfMonthFromEnd v index := by
  constructor
  · refine ⟨firstDayOfMonth index + (v - 1), ?_, ?_, fun y hy hindex => ?_⟩
    · simp only [WeekScope.firstDay]
      omega
    · simp only [WeekScope.firstDay]
      omega
    · simp only [WeekScope.indexOf] at hindex
      rw [y.dayOfMonth_eq, hindex, hy]
      omega
  · refine ⟨firstDayOfMonth (index + 1) - v, ?_, ?_, fun y hy hindex => ?_⟩
    · simp only [WeekScope.firstDay]
      omega
    · simp only [WeekScope.firstDay]
      omega
    · simp only [WeekScope.indexOf] at hindex
      rw [Date.dayOfMonthFromEnd, y.daysInMonth_eq, y.dayOfMonth_eq, hindex, hy]
      omega

/-- The first month and the last month of every year have 31 days. -/
theorem firstDayOfMonth_succ_of_long {index : Int} (h : index % 12 = 0 ∨ index % 12 = 11) :
    firstDayOfMonth (index + 1) = firstDayOfMonth index + 31 := by
  rw [firstDayOfMonth_succ]
  rcases h with h | h
  · rw [h]
    rfl
  · rw [h]
    rfl

section LongMonths

variable {value : Date → Int} {v : Int}
  (hlong : ∀ index : Int, firstDayOfMonth (index + 1) = firstDayOfMonth index + 31 →
    HasDay .month value v index)

include hlong

/-- A day that all long months have, one of the next twelve months has. -/
theorem recursWithin_dayOfMonth : RecursWithin .month value v dayOfMonthHorizon := by
  refine recursWithin_of_hasDay fun index => ?_
  refine ⟨12 * (index / 12 + 1), by omega, ?_, hlong _ (firstDayOfMonth_succ_of_long ?_)⟩
  · show 12 * (index / 12 + 1) ≤ index + (12 : Nat)
    omega
  · omega

/-- The calendar ends with a long month, so a day that all of them have comes again as long as there
are months ahead. -/
theorem exists_later_dayOfMonth {t : Instant} (h : t < WeekScope.month.nextStart t) :
    ∃ x : Date, WeekScope.month.indexOf t.date < WeekScope.month.indexOf x ∧ value x = v := by
  obtain ⟨next, -, hindex, -⟩ := WeekScope.month.exists_of_lt_nextStart h
  have hlast := WeekScope.month.indexOf_le_lastIndex next
  obtain ⟨x, hx, hxv⟩ := (hlong WeekScope.month.lastIndex
    (firstDayOfMonth_succ_of_long (by decide))).exists_date (by decide) le_rfl
  exact ⟨x, by omega, hxv⟩

/-- **The move to a day of a month ends on it if it leads forward.** -/
theorem value_of_lt_advanceToDay {dayIn? : Int → Date → Option Date}
    (h : DayField .month (fun d => d.number + 6) value dayIn?) {t : Instant}
    (hlt : t < advanceToDay .month dayOfMonthHorizon (dayIn? v) t) :
    value (advanceToDay .month dayOfMonthHorizon (dayIn? v) t).date = v := by
  rcases h.advanceToDay_cases (recursWithin_dayOfMonth hlong) t with
    ⟨d, hd, hvalue, -⟩ | ⟨hd, hgone⟩
  · rw [hd]
    exact hvalue
  · rw [hd] at hlt
    obtain ⟨x, hx, hxv⟩ := exists_later_dayOfMonth hlong hlt
    exact absurd hxv (hgone x (h.run_lt_run hx))

end LongMonths

/-! ## Every period -/

/-- A move of a count that leads forward ends on the number it was made for. -/
theorem Counter.count_getD (c : Counter) {t : Instant} {i : Int} (h : t < (c.start? i).getD t) :
    c.count ((c.start? i).getD t) = i := by
  cases hs : c.start? i with
  | none =>
      rw [hs] at h
      exact absurd h (lt_irrefl t)
  | some s => exact c.count_start hs

/-- The distance on a cycle leads to the target. -/
theorem add_cyclicDistance_emod {a v cycle : Int} (hv : 0 ≤ v ∧ v < cycle) :
    (a + cyclicDistance (a % cycle) v cycle) % cycle = v := by
  have hdistance : cyclicDistance (a % cycle) v cycle % cycle = (v - a % cycle) % cycle := by
    unfold cyclicDistance
    simp only
    split
    · next hzero => rw [Int.emod_self, hzero]
    · exact Int.emod_emod _ _
  calc (a + cyclicDistance (a % cycle) v cycle) % cycle
      = (a % cycle + cyclicDistance (a % cycle) v cycle % cycle) % cycle := by
        rw [Int.add_emod]
    _ = (a % cycle + (v - a % cycle)) % cycle := by
        rw [hdistance, Int.add_emod_emod]
    _ = v := by
        rw [add_sub_cancel, Int.emod_eq_of_lt hv.1 hv.2]

namespace Period

variable {p : Period} {o : CalendarOptions} {v : Int} {t m : Instant}

theorem IsAbsolute.valueAt_moveTo {c : Counter} (h : IsAbsolute p c) (hlt : t < p.moveTo o v t) :
    p.valueAt o (p.moveTo o v t) = v := by
  rw [h.moveTo_eq] at hlt
  rw [h.valueAt_eq, h.moveTo_eq, c.count_getD hlt]

theorem IsCyclic.valueAt_moveTo {c : Counter} {cycle : Int} (h : IsCyclic p c cycle)
    (hdomain : p.domain? = some (0, cycle - 1)) (hv : p.InDomain v) (ht : t.IsOrdinary)
    (hlt : t < p.moveTo o v t) : p.valueAt o (p.moveTo o v t) = v := by
  have hrange := hv _ hdomain
  have hmove := h.moveTo_eq o v t ht
  rw [h.valueAt_eq o t ht] at hmove
  have hordinary := (p.lawful o).isOrdinary_moveTo v ht
  rw [h.valueAt_eq o _ hordinary]
  rw [hmove] at hlt ⊢
  rw [c.count_getD hlt]
  simp only at hrange
  exact add_cyclicDistance_emod (by omega)

/-- The move to a week ends on its first day, or the week is gone. -/
theorem moveTo_week_cases (scope : WeekScope) (numbering : WeekNumbering)
    (hv : (week scope numbering).InDomain v) (t : Instant) :
    (∃ d, (week scope numbering).moveTo o v t = Instant.startOfDay d ∧
        scope.weekOf d numbering o = v ∧
        weekRun scope numbering o t.date < weekRun scope numbering o d) ∨
      ((week scope numbering).moveTo o v t = scope.nextStart t ∧
        ∀ x : Date, weekRun scope numbering o t.date < weekRun scope numbering o x →
          scope.weekOf x numbering o ≠ v) := by
  refine (dayField_week scope numbering o).advanceToDay_cases
    (recursWithin_week scope numbering o ?_) t
  rintro rfl
  cases numbering <;> exact (hv _ rfl).2

/-- The move to the value `v` goes to the beginning of the following year or month, since no later
one has a week with that number. -/
def GoesAstray (p : Period) (o : CalendarOptions) (v : Int) (t : Instant) : Prop :=
  ∃ scope numbering, p = .week scope numbering ∧ p.moveTo o v t = scope.nextStart t ∧
    ∀ x : Instant, x.IsOrdinary → p.run o t < p.run o x → p.valueAt o x ≠ v

/-- **A move that leads forward ends on its value, or goes astray.** -/
theorem valueAt_moveTo_or (hv : p.InDomain v) (ht : t.IsOrdinary) (hlt : t < p.moveTo o v t) :
    p.valueAt o (p.moveTo o v t) = v ∨ p.GoesAstray o v t := by
  cases p with
  | century => exact .inl (isAbsolute_century.valueAt_moveTo hlt)
  | decade => exact .inl (isAbsolute_decade.valueAt_moveTo hlt)
  | year => exact .inl (isAbsolute_year.valueAt_moveTo hlt)
  | quarter => exact .inl (isCyclic_quarter.valueAt_moveTo rfl hv ht hlt)
  | month => exact .inl (isCyclic_month.valueAt_moveTo rfl hv ht hlt)
  | week scope numbering =>
      rcases moveTo_week_cases scope numbering hv t with ⟨d, hd, hvalue, -⟩ | ⟨hd, hgone⟩
      · left
        rw [hd]
        exact hvalue
      · exact .inr ⟨scope, numbering, rfl, hd, fun x _ hx => hgone x.date hx⟩
  | dayOfYear =>
      left
      rcases advanceToYearDay_cases (hv _ rfl) t with ⟨d, hd, hvalue⟩ | hstay
      · rw [moveTo, hd]
        exact hvalue
      · rw [moveTo, hstay] at hlt
        exact absurd hlt (lt_irrefl t)
  | dayOfWeek => exact .inl (isCyclic_dayOfWeek.valueAt_moveTo rfl hv ht hlt)
  | dayOfMonth =>
      exact .inl (value_of_lt_advanceToDay
        (fun _ hlong => (hasDay_of_longMonth (hv _ rfl) hlong).1) dayField_dayOfMonth hlt)
  | dayOfMonthFromEnd =>
      exact .inl (value_of_lt_advanceToDay
        (fun _ hlong => (hasDay_of_longMonth (hv _ rfl) hlong).2) dayField_dayOfMonthFromEnd hlt)
  | hour => exact .inl (isCyclic_hour.valueAt_moveTo rfl hv ht hlt)
  | minute => exact .inl (isCyclic_minute.valueAt_moveTo rfl hv ht hlt)
  | second => exact .inl (isCyclic_second.valueAt_moveTo rfl hv ht hlt)
  | millisecond => exact .inl (isCyclic_millisecond.valueAt_moveTo rfl hv ht hlt)

/-- **A move ends on its value if the value comes again.** -/
theorem valueAt_moveTo (hv : p.InDomain v) (ht : t.IsOrdinary) (hm : m.IsOrdinary)
    (hrun : p.run o t < p.run o m) (hvalue : p.valueAt o m = v) :
    p.valueAt o (p.moveTo o v t) = v := by
  have hlt : t < p.moveTo o v t := by
    rw [← hvalue]
    exact ((p.lawful o).moveTo_bounds ht hm hrun).1
  rcases valueAt_moveTo_or hv ht hlt with hreached | ⟨scope, numbering, -, -, hgone⟩
  · exact hreached
  · exact absurd hvalue (hgone m hm hrun)

end Period

end Recurrence
