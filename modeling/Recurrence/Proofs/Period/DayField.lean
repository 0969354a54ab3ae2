import Mathlib.Data.Int.LeastGreatest
import Recurrence.Proofs.Period.Run

/-!
# Fields of a day

Week numbers and the three ways to number the days of a year or a month begin anew with every
stretch, and a stretch may lack a value that another one has.  What a move needs to know of such a
field is gathered in `DayField`: runs do not decrease, a value is met in one run of a stretch at
most, and a stretch that has a value has a first day with it.

A move looks at the current stretch and then at the following ones, and gives up after a horizon or
at the end of the calendar.  **No day with the value is passed over for all that**: where the scan
gives up, the move ends at the beginning of the next stretch, and every such day lies behind it.

## Main Definitions

* `DayField`: a field that begins anew with every year or month
* `IsDayMove`: a move into a later run that passes over no day with a value

## Main Statements

* `dayField_week`, `dayField_dayOfYear`, `dayField_dayOfMonth`, `dayField_dayOfMonthFromEnd`
* `DayField.isDayMove_advanceToDay`, `isDayMove_advanceToYearDay`: the moves to a day are such moves
-/

namespace Recurrence

/-- Among dates there is a first one with a property, if there is one at all. -/
theorem Date.exists_least {P : Date → Prop} (h : ∃ d, P d) :
    ∃ d, P d ∧ ∀ x, P x → d.number ≤ x.number := by
  obtain ⟨d, hd⟩ := h
  obtain ⟨n, ⟨e, he, rfl⟩, hleast⟩ :=
    @Int.exists_least_of_bdd (fun n => ∃ e : Date, P e ∧ e.number = n)
      ⟨firstDayNumber, fun _ ⟨e, _, he⟩ => he ▸ e.first_le⟩ ⟨d.number, d, hd, rfl⟩
  exact ⟨e, he, fun x hx => hleast _ ⟨x, hx, rfl⟩⟩

/-- A field of a date that begins anew with every year or month: its runs, its value, and the first
day with a value in the stretch that begins on a date. -/
structure DayField (scope : WeekScope) (run value : Date → Int)
    (dayIn? : Int → Date → Option Date) : Prop where
  run_le_run : ∀ {a b : Date}, a.number ≤ b.number → run a ≤ run b
  run_lt_run : ∀ {a b : Date}, scope.indexOf a < scope.indexOf b → run a < run b
  value_eq : ∀ {a b : Date}, run a = run b → value a = value b
  run_eq : ∀ {a b : Date}, scope.indexOf a = scope.indexOf b → value a = value b → run a = run b
  value_ne : ∀ {a b : Date}, b.number = a.number + 1 → scope.indexOf a < scope.indexOf b →
    value a ≠ value b
  dayIn?_eq_some_iff : ∀ {v : Int} {start d : Date},
    start.number = scope.firstDay (scope.indexOf start) →
      (dayIn? v start = some d ↔
        scope.indexOf d = scope.indexOf start ∧ value d = v ∧
          ∀ x : Date, scope.indexOf x = scope.indexOf start → value x = v → d.number ≤ x.number)

/-! ## Weeks -/

theorem dayField_week (scope : WeekScope) (numbering : WeekNumbering) (o : CalendarOptions) :
    DayField scope (Period.weekRun scope numbering o) (fun d => scope.weekOf d numbering o)
      (fun v start => scope.weekStart? start v numbering o) := by
  -- the weeks of a stretch have numbers below 60, so they do not reach those of the next one
  have hrun : ∀ {a b : Date}, scope.indexOf a < scope.indexOf b →
      Period.weekRun scope numbering o a < Period.weekRun scope numbering o b := by
    intro a b h
    have ha := scope.weekOf_bounds numbering o a
    have hb := scope.weekOf_bounds numbering o b
    unfold Period.weekRun
    omega
  refine ⟨fun {a b} h => ?_, hrun, fun {a b} h => ?_, fun {a b} hindex hvalue => ?_,
    fun hnext hindex => scope.weekOf_ne_of_indexOf_lt numbering o hnext hindex,
    fun hstart => scope.weekStart?_eq_some_iff numbering o hstart⟩
  · rcases Int.lt_or_eq_of_le (scope.indexOf_le h) with hlt | heq
    · exact Int.le_of_lt (hrun hlt)
    · have := scope.weekOf_le_weekOf numbering o heq h
      unfold Period.weekRun
      omega
  · exact (Period.weekRun_eq_iff.1 h).2
  · exact Period.weekRun_eq_iff.2 ⟨hindex, hvalue⟩

/-! ## Days of a year or a month -/

/-- A field whose value fixes the day of a stretch is a field of a day, each day being a run. -/
theorem dayField_of_days {scope : WeekScope} {value : Date → Int}
    {dayIn? : Int → Date → Option Date}
    (hinj : ∀ {a b : Date}, scope.indexOf a = scope.indexOf b → value a = value b → a = b)
    (hne : ∀ {a b : Date}, b.number = a.number + 1 → scope.indexOf a < scope.indexOf b →
      value a ≠ value b)
    (hday : ∀ {v : Int} {start d : Date}, start.number = scope.firstDay (scope.indexOf start) →
      (dayIn? v start = some d ↔ scope.indexOf d = scope.indexOf start ∧ value d = v)) :
    DayField scope (fun d => d.number + 6) value dayIn? where
  run_le_run h := by omega
  run_lt_run {a b} h := by
    have ha := scope.indexOf_bounds a
    have hb := (scope.firstDay_le).2 (Int.add_one_le_iff.2 h)
    have := (scope.indexOf_bounds b).1
    omega
  value_eq {a b} h := by
    have hab : a = b := Date.ext (by omega)
    rw [hab]
  run_eq hindex hvalue := by rw [hinj hindex hvalue]
  value_ne := hne
  dayIn?_eq_some_iff {v start d} hstart := by
    rw [hday hstart]
    refine ⟨fun ⟨hindex, hvalue⟩ => ⟨hindex, hvalue, fun x hx hxv => ?_⟩,
      fun ⟨hindex, hvalue, _⟩ => ⟨hindex, hvalue⟩⟩
    have hdx : d = x := hinj (hindex.trans hx.symm) (hvalue.trans hxv.symm)
    rw [hdx]

theorem dayField_dayOfYear :
    DayField .year (fun d => d.number + 6) Date.dayOfYear yearDayIn? := by
  have hvalue : ∀ d : Date, d.dayOfYear = d.number - daysBeforeYear d.year + 1 := fun _ => rfl
  refine dayField_of_days (fun {a b} hindex h => ?_) (fun {a b} hnext hindex => ?_)
    (fun {v start d} hstart => ?_)
  · simp only [WeekScope.indexOf] at hindex
    rw [hvalue, hvalue, hindex] at h
    exact Date.ext (by omega)
  · have hlength := (WeekScope.year.firstDay_succ_bounds a.year).1
    have hlt := WeekScope.year.indexOf_lt_iff.1 hindex
    have hb := WeekScope.year.indexOf_bounds b
    have ha := WeekScope.year.indexOf_bounds a
    have hle := WeekScope.year.firstDay_le.2 (Int.add_one_le_iff.2 hindex)
    simp only [WeekScope.firstDay, WeekScope.indexOf] at *
    rw [hvalue, hvalue]
    omega
  · simp only [WeekScope.firstDay, WeekScope.indexOf] at hstart ⊢
    have hbounds := d.year_bounds
    have hsucc := daysBeforeYear_succ start.year
    rw [yearDayIn?, Date.ofYearDay?]
    constructor
    · intro h
      split at h
      · have hnumber := Date.ofNumber?_eq_some.1 h
        have hyear : d.year = start.year := WeekScope.year.indexOf_eq_iff.2 (by
          simp only [WeekScope.firstDay]
          omega)
        exact ⟨hyear, by rw [hvalue, hyear]; omega⟩
      · cases h
    · rintro ⟨hyear, rfl⟩
      have hd := hvalue d
      rw [hyear] at hd hbounds
      rw [if_pos (by omega), Date.ofNumber?_eq_some]
      omega

/-- Days of a month are numbered from either end: `value` is the place of a date from the first day
of its month, after a reversal that does not depend on the day. -/
theorem dayField_month {value : Date → Int} {dayIn? : Int → Date → Option Date}
    (place : Int → Int → Int)
    (hplace : ∀ index v, place index (place index v) = v)
    (hvalue : ∀ d : Date, value d = place d.monthIndex d.dayOfMonth)
    (hdayIn : ∀ v start, dayIn? v start =
      Date.ofMonthIndex? start.monthIndex (place start.monthIndex v))
    (hne : ∀ {a b : Date}, b.number = a.number + 1 → a.monthIndex < b.monthIndex →
      value a ≠ value b) :
    DayField .month (fun d => d.number + 6) value dayIn? := by
  refine dayField_of_days (fun {a b} hindex h => ?_) hne (fun {v start d} hstart => ?_)
  · simp only [WeekScope.indexOf] at hindex
    rw [hvalue, hvalue, hindex] at h
    have hday : a.dayOfMonth = b.dayOfMonth := by
      rw [← hplace b.monthIndex a.dayOfMonth, h, hplace]
    rw [Date.dayOfMonth_eq, Date.dayOfMonth_eq, hindex] at hday
    exact Date.ext (by omega)
  · have hbounds := WeekScope.month.indexOf_bounds d
    simp only [WeekScope.firstDay, WeekScope.indexOf] at hstart hbounds ⊢
    have hd := d.dayOfMonth_eq
    rw [hdayIn, Date.ofMonthIndex?_eq, hvalue]
    constructor
    · intro h
      split at h
      · have hnumber := Date.ofNumber?_eq_some.1 h
        have hmonth : d.monthIndex = start.monthIndex := WeekScope.month.indexOf_eq_iff.2 (by
          simp only [WeekScope.firstDay]
          omega)
        rw [hmonth] at hd ⊢
        have hday : d.dayOfMonth = place start.monthIndex v := by omega
        exact ⟨rfl, by rw [hday, hplace]⟩
      · cases h
    · rintro ⟨hmonth, rfl⟩
      rw [hmonth] at hd hbounds ⊢
      rw [hplace, if_pos (by omega), Date.ofNumber?_eq_some]
      omega

/-- The last day of a month and the first day of the next one, by their places. -/
theorem Date.monthIndex_edge {a b : Date} (hnext : b.number = a.number + 1)
    (hindex : a.monthIndex < b.monthIndex) :
    a.dayOfMonth = daysInMonth a.year a.month ∧ b.dayOfMonth = 1 ∧ 28 ≤ a.dayOfMonth ∧
      28 ≤ daysInMonth b.year b.month := by
  have ha := WeekScope.month.indexOf_bounds a
  have hb := WeekScope.month.indexOf_bounds b
  have hlt := WeekScope.month.indexOf_lt_iff.1 hindex
  have hle := WeekScope.month.firstDay_le.2 (Int.add_one_le_iff.2 hindex)
  have hlength := (WeekScope.month.firstDay_succ_bounds a.monthIndex).1
  have hda := a.dayOfMonth_eq
  have hdb := b.dayOfMonth_eq
  have hma := a.daysInMonth_eq
  have hmb := (daysInMonth_bounds b.year b.month).1
  simp only [WeekScope.firstDay, WeekScope.indexOf] at *
  omega

theorem dayField_dayOfMonth :
    DayField .month (fun d => d.number + 6) Date.dayOfMonth monthDayIn? := by
  refine dayField_month (fun _ v => v) (fun _ _ => rfl) (fun _ => rfl)
    (fun v start => Date.ofCivil?_eq start v) (fun {a b} hnext hindex => ?_)
  have := Date.monthIndex_edge hnext hindex
  omega

theorem dayField_dayOfMonthFromEnd :
    DayField .month (fun d => d.number + 6) Date.dayOfMonthFromEnd monthDayFromEndIn? := by
  refine dayField_month
    (fun index v => firstDayOfMonth (index + 1) - firstDayOfMonth index - v + 1)
    (fun _ _ => by omega) (fun d => by rw [← Date.daysInMonth_eq]; rfl)
    (fun v start => by rw [← Date.daysInMonth_eq, ← Date.ofCivil?_eq]; rfl)
    (fun {a b} hnext hindex => ?_)
  have := Date.monthIndex_edge hnext hindex
  unfold Date.dayOfMonthFromEnd
  omega

/-! ## The following stretches -/

namespace WeekScope

variable (scope : WeekScope)

/-- The start of the stretch of a date is the first day of its own stretch. -/
theorem isFirst_startOf (d : Date) :
    (scope.startOf d).number = scope.firstDay (scope.indexOf (scope.startOf d)) := by
  rw [scope.number_startOf, scope.indexOf_startOf]

theorem following?_eq_some {start next : Date}
    (hstart : start.number = scope.firstDay (scope.indexOf start))
    (h : scope.following? start = some next) :
    scope.indexOf next = scope.indexOf start + 1 ∧
      next.number = scope.firstDay (scope.indexOf next) := by
  rw [scope.following?_eq hstart, Date.ofNumber?_eq_some] at h
  have hlength := (scope.firstDay_succ_bounds (scope.indexOf start + 1)).1
  have hindex : scope.indexOf next = scope.indexOf start + 1 :=
    scope.indexOf_eq_iff.2 (by omega)
  rw [hindex]
  exact ⟨rfl, h⟩

/-- The stretch that nothing follows is the last one. -/
theorem indexOf_le_of_following?_eq_none {start : Date}
    (hstart : start.number = scope.firstDay (scope.indexOf start))
    (h : scope.following? start = none) (x : Date) : scope.indexOf x ≤ scope.indexOf start := by
  rw [scope.following?_eq hstart, Date.ofNumber?_eq_none] at h
  have hlength := (scope.firstDay_succ_bounds (scope.indexOf start)).1
  have hfirst := start.first_le
  have hlast := x.le_last
  rw [← Int.lt_add_one_iff, scope.indexOf_lt_iff]
  omega

end WeekScope

namespace DayField

variable {scope : WeekScope} {run value : Date → Int} {dayIn? : Int → Date → Option Date}

/-- A stretch that has a value has a first day with it. -/
theorem exists_dayIn? (h : DayField scope run value dayIn?) {start x : Date}
    (hstart : start.number = scope.firstDay (scope.indexOf start))
    (hx : scope.indexOf x = scope.indexOf start) :
    ∃ d, dayIn? (value x) start = some d ∧ d.number ≤ x.number := by
  obtain ⟨d, ⟨hd, hvalue⟩, hleast⟩ := @Date.exists_least
    (fun d => scope.indexOf d = scope.indexOf start ∧ value d = value x) ⟨x, hx, rfl⟩
  refine ⟨d, (h.dayIn?_eq_some_iff hstart).2 ⟨hd, hvalue, fun y hy hyv => ?_⟩, hleast x ⟨hx, rfl⟩⟩
  exact hleast y ⟨hy, hyv⟩

/-- **What the scan finds lies in a later stretch, and no day with the value is passed over.** -/
theorem scanFollowing_found (h : DayField scope run value dayIn?) {v : Int} {horizon : Nat}
    {start e : Date} (hstart : start.number = scope.firstDay (scope.indexOf start))
    (hscan : scanFollowing scope.following? (dayIn? v) horizon start = .found e) :
    scope.indexOf start < scope.indexOf e ∧
      ∀ x : Date, scope.indexOf start < scope.indexOf x → value x = v → e.number ≤ x.number := by
  induction horizon generalizing start with
  | zero => cases hscan
  | succ horizon ih =>
      rw [scanFollowing] at hscan
      split at hscan
      · cases hscan
      · next next hnext =>
          obtain ⟨hindex, hfirst⟩ := scope.following?_eq_some hstart hnext
          split at hscan
          · next day hday =>
              cases hscan
              obtain ⟨hd, -, hleast⟩ := (h.dayIn?_eq_some_iff hfirst).1 hday
              refine ⟨by omega, fun x hx hxv => ?_⟩
              rcases Int.lt_or_eq_of_le (show scope.indexOf next ≤ scope.indexOf x by omega)
                with hlt | heq
              · have hbefore := scope.indexOf_lt_iff.1 (hd ▸ hlt)
                have := (scope.indexOf_bounds x).1
                omega
              · exact hleast x heq.symm hxv
          · next hnone =>
              -- the stretch `next` has no wanted day, so every later one lies in a later stretch
              obtain ⟨he, hleast⟩ := ih hfirst hscan
              refine ⟨by omega, fun x hx hxv => ?_⟩
              rcases Int.lt_or_eq_of_le (show scope.indexOf next ≤ scope.indexOf x by omega)
                with hlt | heq
              · exact hleast x hlt hxv
              · obtain ⟨d, hd, -⟩ := h.exists_dayIn? hfirst heq.symm
                rw [hxv, hnone] at hd
                cases hd

/-- When the scan meets the end of the calendar, no later stretch has a day with the value. -/
theorem scanFollowing_calendarEnd (h : DayField scope run value dayIn?) {v : Int} {horizon : Nat}
    {start x : Date} (hstart : start.number = scope.firstDay (scope.indexOf start))
    (hscan : scanFollowing scope.following? (dayIn? v) horizon start = .calendarEnd)
    (hx : scope.indexOf start < scope.indexOf x) : value x ≠ v := by
  induction horizon generalizing start with
  | zero => cases hscan
  | succ horizon ih =>
      rw [scanFollowing] at hscan
      split at hscan
      · next hnone =>
          have := scope.indexOf_le_of_following?_eq_none hstart hnone x
          omega
      · next next hnext =>
          obtain ⟨hindex, hfirst⟩ := scope.following?_eq_some hstart hnext
          split at hscan
          · cases hscan
          · next hnone =>
              rcases Int.lt_or_eq_of_le (show scope.indexOf next ≤ scope.indexOf x by omega)
                with hlt | heq
              · exact ih hfirst hscan hlt
              · rintro rfl
                obtain ⟨d, hd, -⟩ := h.exists_dayIn? hfirst heq.symm
                rw [hnone] at hd
                cases hd

end DayField

/-! ## Moves to a day -/

/-- A move from `t` to `u` that stays or goes to the midnight of a day of a later run, and passes
over no day with the value `v`. -/
def IsDayMove (run value : Date → Int) (v : Int) (t u : Instant) : Prop :=
  ∃ day : Option Date, u = startOfDayOr t day ∧ (∀ d, day = some d → run t.date < run d) ∧
    ∀ x : Date, run t.date < run x → value x = v → ∃ d, day = some d ∧ d.number ≤ x.number

namespace DayField

variable {scope : WeekScope} {run value : Date → Int} {dayIn? : Int → Date → Option Date}
  {v : Int} {t : Instant}

/-- The wanted day that is ahead in the current stretch is in a later run. -/
theorem run_lt_of_dayAhead? (h : DayField scope run value dayIn?) {day : Date}
    (hday : dayAhead? scope (dayIn? v) t.date = some day) : run t.date < run day := by
  obtain ⟨hin, hlt⟩ := Option.filter_eq_some_iff.1 hday
  have hlt : t.date.number < day.number := by simpa [Date.lt_iff] using hlt
  obtain ⟨hd, hvalue, hleast⟩ := (h.dayIn?_eq_some_iff (scope.isFirst_startOf t.date)).1 hin
  rw [scope.indexOf_startOf] at hd hleast
  -- in its run it is the first day of its stretch, and `t` comes before it
  refine lt_of_le_of_ne (h.run_le_run (Int.le_of_lt hlt)) fun heq => ?_
  have := hleast t.date rfl ((h.value_eq heq).trans hvalue)
  omega

theorem isDayMove_ahead (h : DayField scope run value dayIn?) {day : Date}
    (hday : dayAhead? scope (dayIn? v) t.date = some day) :
    IsDayMove run value v t (Instant.startOfDay day) := by
  obtain ⟨hin, -⟩ := Option.filter_eq_some_iff.1 hday
  obtain ⟨hd, -, hleast⟩ := (h.dayIn?_eq_some_iff (scope.isFirst_startOf t.date)).1 hin
  rw [scope.indexOf_startOf] at hd hleast
  refine ⟨some day, rfl, fun d hdd => ?_, fun x hx hxv => ⟨day, rfl, ?_⟩⟩
  · cases hdd
    exact h.run_lt_of_dayAhead? hday
  · rcases Int.lt_or_le (scope.indexOf day) (scope.indexOf x) with hless | hge
    · have := scope.indexOf_lt_iff.1 hless
      have := (scope.indexOf_bounds x).1
      omega
    · have htx : t.date.number ≤ x.number := by
        by_contra hlt
        have := h.run_le_run (Int.le_of_lt (Int.not_le.1 hlt))
        omega
      have := scope.indexOf_le htx
      exact hleast x (by omega) hxv

/-- When the wanted day is not ahead in the current stretch, every day with the value in a later run
lies in a later stretch. -/
theorem indexOf_lt_of_dayAhead?_eq_none (h : DayField scope run value dayIn?)
    (hnone : dayAhead? scope (dayIn? v) t.date = none) {x : Date} (hx : run t.date < run x)
    (hxv : value x = v) : scope.indexOf (scope.startOf t.date) < scope.indexOf x := by
  have hstart := scope.isFirst_startOf t.date
  have htx : t.date.number ≤ x.number := by
    by_contra hlt
    have := h.run_le_run (Int.le_of_lt (Int.not_le.1 hlt))
    omega
  have hle := scope.indexOf_le htx
  rw [← scope.indexOf_startOf] at hle
  refine lt_of_le_of_ne hle fun heq => ?_
  -- in the stretch of `t` the first day with the value would be in the run of `x`, hence ahead
  obtain ⟨d, hd, -⟩ := h.exists_dayIn? hstart heq.symm
  rw [hxv] at hd
  obtain ⟨hindex, hvalue, -⟩ := (h.dayIn?_eq_some_iff hstart).1 hd
  have hrun : run d = run x := h.run_eq (hindex.trans heq) (hvalue.trans hxv.symm)
  have hlt : t.date < d := by
    rw [Date.lt_iff]
    by_contra hge
    have := h.run_le_run (Int.not_lt.1 hge)
    omega
  rw [dayAhead?, hd, Option.filter_some, if_pos (decide_eq_true hlt)] at hnone
  cases hnone

/-- A later stretch has later runs only. -/
theorem run_lt_of_startOf_lt (h : DayField scope run value dayIn?) {e : Date}
    (he : scope.indexOf (scope.startOf t.date) < scope.indexOf e) : run t.date < run e :=
  h.run_lt_run (by rwa [scope.indexOf_startOf] at he)

theorem isDayMove_found (h : DayField scope run value dayIn?) {horizon : Nat} {e : Date}
    (hnone : dayAhead? scope (dayIn? v) t.date = none)
    (hscan : scanFollowing scope.following? (dayIn? v) horizon (scope.startOf t.date) = .found e) :
    IsDayMove run value v t (Instant.startOfDay e) := by
  have hstart := scope.isFirst_startOf t.date
  obtain ⟨he, hleast⟩ := h.scanFollowing_found hstart hscan
  refine ⟨some e, rfl, fun d hd => ?_, fun x hx hxv => ⟨e, rfl, ?_⟩⟩
  · cases hd
    exact h.run_lt_of_startOf_lt he
  · exact hleast x (h.indexOf_lt_of_dayAhead?_eq_none hnone hx hxv) hxv

/-- The beginning of the next stretch is a move that passes over nothing when the wanted day is not
ahead in the current one. -/
theorem isDayMove_following (h : DayField scope run value dayIn?)
    (hnone : dayAhead? scope (dayIn? v) t.date = none) :
    IsDayMove run value v t (startOfDayOr t (scope.following? (scope.startOf t.date))) := by
  have hstart := scope.isFirst_startOf t.date
  refine ⟨_, rfl, fun d hd => ?_, fun x hx hxv => ?_⟩
  · obtain ⟨hindex, -⟩ := scope.following?_eq_some hstart hd
    exact h.run_lt_of_startOf_lt (by omega)
  · have hlater := h.indexOf_lt_of_dayAhead?_eq_none hnone hx hxv
    cases hnext : scope.following? (scope.startOf t.date) with
    | none =>
        have := scope.indexOf_le_of_following?_eq_none hstart hnext x
        omega
    | some d =>
        obtain ⟨hindex, hfirst⟩ := scope.following?_eq_some hstart hnext
        refine ⟨d, rfl, ?_⟩
        rw [hfirst, scope.firstDay_le_number_iff]
        omega

/-- **The move to a day of a year or a month passes over no day with the value.** -/
theorem isDayMove_advanceToDay (h : DayField scope run value dayIn?) (v : Int) (horizon : Nat)
    (t : Instant) : IsDayMove run value v t (advanceToDay scope horizon (dayIn? v) t) := by
  unfold advanceToDay
  split
  · next hday => exact h.isDayMove_ahead hday
  · next hnone =>
      split
      · next hscan => exact h.isDayMove_found hnone hscan
      · exact h.isDayMove_following hnone

end DayField

/-- **The move to a day of the year passes over no day with the number.** -/
theorem isDayMove_advanceToYearDay (v : Int) (t : Instant) :
    IsDayMove (fun d => d.number + 6) Date.dayOfYear v t (advanceToYearDay v t) := by
  have h := dayField_dayOfYear
  unfold advanceToYearDay
  split
  · next hday => exact h.isDayMove_ahead hday
  · next hnone =>
      have hstart := WeekScope.year.isFirst_startOf t.date
      split
      · next hscan => exact h.isDayMove_found hnone hscan
      · have hnext : Date.startOfYear? (t.date.year + 1) =
            WeekScope.year.following? (WeekScope.year.startOf t.date) := by
          rw [WeekScope.following?_eq _ hstart, WeekScope.indexOf_startOf, Date.startOfYear?,
            Date.ofYearDay?_one]
          rfl
        rw [hnext]
        exact h.isDayMove_following hnone
      · next hscan =>
          refine ⟨none, rfl, fun d hd => (by cases hd), fun x hx hxv => absurd hxv ?_⟩
          exact h.scanFollowing_calendarEnd hstart hscan
            (h.indexOf_lt_of_dayAhead?_eq_none hnone hx hxv)

end Recurrence
