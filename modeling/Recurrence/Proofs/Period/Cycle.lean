import Recurrence.Proofs.Calendar.Cycle
import Recurrence.Proofs.Period.Forward

/-!
# Fields and moves in the next cycle

Of the nineteen periods only the century, the decade and the year tell one cycle of 400 years from the
next.  **The others have the same value a cycle later, and a move of theirs goes to the same place of the
next cycle**, whether it finds its value, gives up at its horizon or goes on by a distance.

The calendar ends, and a move that would lead beyond its end does not.  A move looks at most 28 years
ahead, so up to `lastRepeatedYear` a move and its repetition both stay within the calendar.

## Main Definitions

* `lastRepeatedYear`: the last year from which every move can be repeated
* `Scan.RepeatsAt`: scans that end alike

## Main Statements

* `Period.valueAt_eq_of_repeatsAt`: the value a cycle later
* `DayField.dayIn?_repeatsAt`, `DayField.advanceToDay_repeatsAt`: the days that a move looks for
* `Period.moveTo_repeatsAt`: the move a cycle later
-/

namespace Recurrence

/-- The last year from which a move by up to 30 years stays within the calendar a cycle later. -/
def lastRepeatedYear : Int := 262142 - 430

variable {t u : Instant}

/-! ## Fields -/

theorem Date.RepeatsAt.dayOfMonthFromEnd_eq {d e : Date} (h : d.RepeatsAt e) :
    e.dayOfMonthFromEnd = d.dayOfMonthFromEnd := by
  unfold dayOfMonthFromEnd
  rw [h.daysInMonth_eq, h.dayOfMonth_eq]

/-- **A field that comes round in cycles has the same value 400 years later.** -/
theorem Period.valueAt_eq_of_repeatsAt {p : Period} (hp : p.domain?.isSome = true)
    (o : CalendarOptions) (h : t.RepeatsAt u) : p.valueAt o u = p.valueAt o t := by
  obtain ⟨hdate, htime⟩ := h
  cases p with
  | century => cases hp
  | decade => cases hp
  | year => cases hp
  | quarter => simp only [valueAt, hdate.month_eq]
  | month => simp only [valueAt, hdate.month_eq]
  | week scope numbering => exact scope.weekOf_eq_of_repeatsAt hdate numbering o
  | dayOfYear => exact hdate.dayOfYear_eq
  | dayOfWeek => exact hdate.weekday_eq
  | dayOfMonth => exact hdate.dayOfMonth_eq
  | dayOfMonthFromEnd => exact hdate.dayOfMonthFromEnd_eq
  | _ => simp only [valueAt, htime]

/-! ## The room for a repetition -/

/-- From a year with a repetition, the next 27 years have one too. -/
theorem number_add_cycle_le {d : Date} (h : d.year ≤ lastRepeatedYear) :
    d.number + 10000 + daysIn400Years ≤ lastDayNumber := by
  have hlater : d.number < daysBeforeYear (lastRepeatedYear + 1) :=
    WeekScope.year.indexOf_lt_iff.1 (Int.lt_add_one_of_le h)
  have hend : daysBeforeYear (lastRepeatedYear + 1) + 10000 + daysIn400Years ≤ lastDayNumber := by
    decide
  omega

/-- The stretch that comes as many stretches later as a scan looks ahead, and one more, is one of the
calendar. -/
theorem indexOf_add_horizon_le (scope : WeekScope) {d e : Date} (h : d.RepeatsAt e)
    (hyear : d.year ≤ lastRepeatedYear) : scope.indexOf e + 28 ≤ scope.lastIndex := by
  have hlater := h.year_eq
  have hmonth := e.month_lt
  unfold lastRepeatedYear at hyear
  cases scope with
  | year =>
      simp only [WeekScope.indexOf, WeekScope.lastIndex]
      omega
  | month =>
      simp only [WeekScope.indexOf, WeekScope.lastIndex, Date.monthIndex]
      omega

namespace Instant

/-- A move to a day and its repetition. -/
theorem repeatsAt_startOfDayOr (h : t.RepeatsAt u) {day day' : Option Date}
    (hday : Option.Rel Date.RepeatsAt day day') :
    (startOfDayOr t day).RepeatsAt (startOfDayOr u day') := by
  cases hday with
  | some hday => exact repeatsAt_startOfDay hday
  | none => exact h

/-- The move to a day that is given by its number. -/
theorem repeatsAt_ofNumber? (h : t.RepeatsAt u) (hyear : t.date.year ≤ lastRepeatedYear) {n : Int}
    (hlater : t.date.number ≤ n) (hnear : n ≤ t.date.number + 10000) :
    (startOfDayOr t (Date.ofNumber? n)).RepeatsAt
      (startOfDayOr u (Date.ofNumber? (n + daysIn400Years))) := by
  have hfirst := t.date.first_le
  have hroom := number_add_cycle_le hyear
  exact repeatsAt_startOfDayOr h (Date.rel_ofNumber? (by omega) (by omega))

/-- The move to the beginning of one of the next twelve months. -/
theorem repeatsAt_ofMonthIndex? (h : t.RepeatsAt u) (hyear : t.date.year ≤ lastRepeatedYear)
    {index : Int} (hlater : t.date.monthIndex < index) (hnear : index ≤ t.date.monthIndex + 12) :
    (startOfDayOr t (Date.ofMonthIndex? index 1)).RepeatsAt
      (startOfDayOr u (Date.ofMonthIndex? (index + 4800) 1)) := by
  have hcycle : firstDayOfMonth (index + 4800) = firstDayOfMonth index + daysIn400Years :=
    WeekScope.month.firstDay_add_perCycle index
  have hfirst := WeekScope.month.indexOf_lt_iff.1 hlater
  have hlast : WeekScope.month.firstDay index ≤ t.date.number + 10000 := by
    -- the month lies in this year or the next one
    have hmonth := t.date.month_lt
    have hnext : index ≤ 12 * (t.date.year + 2) := by
      unfold Date.monthIndex at hnear
      omega
    have hle := WeekScope.month.firstDay_le.2 hnext
    have hbegin := t.date.year_bounds.1
    have hone := (WeekScope.year.firstDay_succ_bounds t.date.year).2
    have htwo := (WeekScope.year.firstDay_succ_bounds (t.date.year + 1)).2
    have hsum : t.date.year + 1 + 1 = t.date.year + 2 := by omega
    have hyears : WeekScope.month.firstDay (12 * (t.date.year + 2)) =
        daysBeforeYear (t.date.year + 2) := firstDayOfMonth_year _
    rw [hsum] at htwo
    simp only [WeekScope.firstDay, WeekScope.maxLength] at *
    omega
  rw [Date.ofMonthIndex?_one, Date.ofMonthIndex?_one, hcycle]
  exact repeatsAt_ofNumber? h hyear hfirst.le hlast

end Instant

/-! ## Moves to a day -/

/-- Two scans find a day and its repetition, or end alike without one. -/
inductive Scan.RepeatsAt : Scan → Scan → Prop where
  | found {d e : Date} (h : d.RepeatsAt e) : RepeatsAt (.found d) (.found e)
  | missing : RepeatsAt .missing .missing
  | calendarEnd : RepeatsAt .calendarEnd .calendarEnd

/-- The start of the following stretch. -/
theorem WeekScope.following?_repeatsAt (scope : WeekScope) {start start' : Date}
    (h : start.RepeatsAt start') (hstart : start.number = scope.firstDay (scope.indexOf start))
    (hstart' : start'.number = scope.firstDay (scope.indexOf start'))
    (hroom : scope.indexOf start' + 1 ≤ scope.lastIndex) :
    Option.Rel Date.RepeatsAt (scope.following? start) (scope.following? start') := by
  have hsum : scope.indexOf start' + 1 = scope.indexOf start + 1 + scope.perCycle := by
    rw [h.indexOf_eq scope]
    omega
  have hlater := scope.firstDay_le.2 (Int.le_add_one (le_refl (scope.indexOf start)))
  have hfirst := scope.firstDayNumber_le start
  have hlast := scope.firstDay_lt.2 (Int.lt_add_one_of_le hroom)
  rw [scope.firstDay_lastIndex, hsum, scope.firstDay_add_perCycle] at hlast
  rw [scope.following?_eq hstart, scope.following?_eq hstart', hsum, scope.firstDay_add_perCycle]
  exact Date.rel_ofNumber? (by omega) (by omega)

namespace DayField

variable {scope : WeekScope} {run value : Date → Int} {dayIn? : Int → Date → Option Date} {v : Int}
  {start start' : Date}

/-- **A stretch has the first day with a value where the stretch one cycle later has it.** -/
theorem dayIn?_repeatsAt (h : DayField scope run value dayIn?)
    (hvalue : ∀ {d e : Date}, d.RepeatsAt e → value e = value d) (hrepeats : start.RepeatsAt start')
    (hstart : start.number = scope.firstDay (scope.indexOf start))
    (hstart' : start'.number = scope.firstDay (scope.indexOf start')) :
    Option.Rel Date.RepeatsAt (dayIn? v start) (dayIn? v start') := by
  have hindex : ∀ {d e : Date}, d.RepeatsAt e →
      (scope.indexOf d = scope.indexOf start ↔ scope.indexOf e = scope.indexOf start') := by
    intro d e hde
    rw [hde.indexOf_eq scope, hrepeats.indexOf_eq scope]
    omega
  cases hday : dayIn? v start with
  | some d =>
      obtain ⟨hd, hdv, hleast⟩ := (h.dayIn?_eq_some_iff hstart).1 hday
      obtain ⟨e, hde⟩ := Date.exists_repeatsAt hrepeats hd
      have hday' : dayIn? v start' = some e := by
        refine (h.dayIn?_eq_some_iff hstart').2
          ⟨(hindex hde).1 hd, (hvalue hde).trans hdv, fun y hy hyv => ?_⟩
        obtain ⟨x, hxy⟩ := Date.exists_repeatsAt_of_right hrepeats hy
        have hle := hleast x ((hindex hxy).2 hy) ((hvalue hxy).symm.trans hyv)
        unfold Date.RepeatsAt at hde hxy
        omega
      rw [hday']
      exact .some hde
  | none =>
      cases hday' : dayIn? v start' with
      | none => exact .none
      | some e =>
          -- what it is a repetition of would be a day with the value
          obtain ⟨he, hev, -⟩ := (h.dayIn?_eq_some_iff hstart').1 hday'
          obtain ⟨d, hde⟩ := Date.exists_repeatsAt_of_right hrepeats he
          obtain ⟨first, hfirst, -⟩ := h.exists_dayIn? hstart ((hindex hde).2 he)
          rw [← hvalue hde, hev, hday] at hfirst
          cases hfirst

/-- **A scan and its repetition end alike.** -/
theorem scanFollowing_repeatsAt (h : DayField scope run value dayIn?)
    (hvalue : ∀ {d e : Date}, d.RepeatsAt e → value e = value d) (horizon : Nat)
    (hrepeats : start.RepeatsAt start')
    (hstart : start.number = scope.firstDay (scope.indexOf start))
    (hstart' : start'.number = scope.firstDay (scope.indexOf start'))
    (hroom : scope.indexOf start' + horizon ≤ scope.lastIndex) :
    Scan.RepeatsAt (scanFollowing scope.following? (dayIn? v) horizon start)
      (scanFollowing scope.following? (dayIn? v) horizon start') := by
  induction horizon generalizing start start' with
  | zero => exact .missing
  | succ horizon ih =>
      have hfollowing := scope.following?_repeatsAt hrepeats hstart hstart' (by omega)
      rw [scanFollowing, scanFollowing]
      generalize hnext : scope.following? start = next at hfollowing ⊢
      generalize hnext' : scope.following? start' = next' at hfollowing ⊢
      cases hfollowing with
      | none => exact .calendarEnd
      | @some next next' hrepeats =>
          obtain ⟨-, hfirst⟩ := scope.following?_eq_some hstart hnext
          obtain ⟨hindex, hfirst'⟩ := scope.following?_eq_some hstart' hnext'
          have hwanted := h.dayIn?_repeatsAt (v := v) hvalue hrepeats hfirst hfirst'
          simp only
          generalize dayIn? v next = day at hwanted ⊢
          generalize dayIn? v next' = day' at hwanted ⊢
          cases hwanted with
          | some hday => exact .found hday
          | none => exact ih hrepeats hfirst hfirst' (by omega)

/-- The wanted day of the current stretch, if it is ahead. -/
theorem dayAhead?_repeatsAt (h : DayField scope run value dayIn?)
    (hvalue : ∀ {d e : Date}, d.RepeatsAt e → value e = value d) {d e : Date}
    (hrepeats : d.RepeatsAt e) :
    Option.Rel Date.RepeatsAt (dayAhead? scope (dayIn? v) d) (dayAhead? scope (dayIn? v) e) := by
  have hwanted := h.dayIn?_repeatsAt (v := v) hvalue (hrepeats.startOf scope)
    (scope.isFirst_startOf d) (scope.isFirst_startOf e)
  unfold dayAhead?
  generalize dayIn? v (scope.startOf d) = day at hwanted ⊢
  generalize dayIn? v (scope.startOf e) = day' at hwanted ⊢
  cases hwanted with
  | none => exact .none
  | @some day day' hday =>
      have hiff := hrepeats.lt_iff hday
      rw [Option.filter_some, Option.filter_some]
      simp only [decide_eq_true_eq, ← hiff]
      split
      · exact .some hday
      · exact .none

/-- The move to a day that is looked for up to 28 stretches ahead. -/
theorem advanceToDay_repeatsAt (h : DayField scope run value dayIn?)
    (hvalue : ∀ {d e : Date}, d.RepeatsAt e → value e = value d) {horizon : Nat}
    (hhorizon : horizon ≤ 28) (hrepeats : t.RepeatsAt u)
    (hyear : t.date.year ≤ lastRepeatedYear) :
    (advanceToDay scope horizon (dayIn? v) t).RepeatsAt
      (advanceToDay scope horizon (dayIn? v) u) := by
  have hroom := indexOf_add_horizon_le scope hrepeats.date hyear
  have hstart := hrepeats.date.startOf scope
  have hahead := h.dayAhead?_repeatsAt (v := v) hvalue hrepeats.date
  have hfollowing := scope.following?_repeatsAt hstart (scope.isFirst_startOf t.date)
    (scope.isFirst_startOf u.date) (by rw [scope.indexOf_startOf]; omega)
  have hscan := h.scanFollowing_repeatsAt (v := v) hvalue horizon hstart
    (scope.isFirst_startOf t.date) (scope.isFirst_startOf u.date)
    (by rw [scope.indexOf_startOf]; omega)
  unfold advanceToDay
  generalize dayAhead? scope (dayIn? v) t.date = day at hahead ⊢
  generalize dayAhead? scope (dayIn? v) u.date = day' at hahead ⊢
  cases hahead with
  | some hday => exact Instant.repeatsAt_startOfDay hday
  | none =>
      simp only
      generalize scanFollowing scope.following? (dayIn? v) horizon (scope.startOf t.date) = scan
        at hscan ⊢
      generalize scanFollowing scope.following? (dayIn? v) horizon (scope.startOf u.date) = scan'
        at hscan ⊢
      cases hscan with
      | found hday => exact Instant.repeatsAt_startOfDay hday
      | _ => exact Instant.repeatsAt_startOfDayOr hrepeats hfollowing

end DayField

/-- The move to a day of the year. -/
theorem advanceToYearDay_repeatsAt (v : Int) (hrepeats : t.RepeatsAt u)
    (hyear : t.date.year ≤ lastRepeatedYear) :
    (advanceToYearDay v t).RepeatsAt (advanceToYearDay v u) := by
  have hroom := indexOf_add_horizon_le .year hrepeats.date hyear
  have hahead := dayField_dayOfYear.dayAhead?_repeatsAt (v := v) Date.RepeatsAt.dayOfYear_eq
    hrepeats.date
  have hscan := dayField_dayOfYear.scanFollowing_repeatsAt (v := v)
    Date.RepeatsAt.dayOfYear_eq dayOfYearHorizon (hrepeats.date.startOf .year)
    (WeekScope.year.isFirst_startOf t.date) (WeekScope.year.isFirst_startOf u.date)
    (by rw [WeekScope.indexOf_startOf]; unfold dayOfYearHorizon; omega)
  unfold advanceToYearDay
  generalize dayAhead? .year (yearDayIn? v) t.date = day at hahead ⊢
  generalize dayAhead? .year (yearDayIn? v) u.date = day' at hahead ⊢
  cases hahead with
  | some hday => exact Instant.repeatsAt_startOfDay hday
  | none =>
      simp only
      generalize scanFollowing WeekScope.year.following? (yearDayIn? v) dayOfYearHorizon
        (WeekScope.year.startOf t.date) = scan at hscan ⊢
      generalize scanFollowing WeekScope.year.following? (yearDayIn? v) dayOfYearHorizon
        (WeekScope.year.startOf u.date) = scan' at hscan ⊢
      cases hscan with
      | found hday => exact Instant.repeatsAt_startOfDay hday
      | calendarEnd => exact hrepeats
      | missing =>
          have hnext : daysBeforeYear (u.date.year + 1) =
              daysBeforeYear (t.date.year + 1) + daysIn400Years := by
            rw [hrepeats.date.year_eq, Int.add_right_comm, daysBeforeYear_add_400]
          have hbounds := t.date.year_bounds
          have hlength := (WeekScope.year.firstDay_succ_bounds t.date.year).2
          simp only [WeekScope.firstDay, WeekScope.maxLength] at hlength
          simp only
          rw [Date.startOfYear?, Date.startOfYear?, Date.ofYearDay?_one, Date.ofYearDay?_one, hnext]
          exact Instant.repeatsAt_ofNumber? hrepeats hyear (by omega) (by omega)

/-! ## Moves of the time of day -/

namespace Instant

/-- Seconds and nanoseconds from the midnight of a date. -/
theorem ofSeconds?_repeatsAt {d e : Date} (h : d.RepeatsAt e) (second total : Nat)
    (hroom : d.number + ((second + total / nanosPerSecond) / secondsPerDay : Nat) + daysIn400Years ≤
      lastDayNumber) :
    Option.Rel RepeatsAt (ofSeconds? d second total) (ofSeconds? e second total) := by
  have hfirst := d.first_le
  unfold Date.RepeatsAt at h
  unfold ofSeconds? Date.addDays?
  dsimp only
  rw [h, Int.add_right_comm]
  generalize (second + total / nanosPerSecond) / secondsPerDay = days at hroom ⊢
  have hday := Date.rel_ofNumber? (n := d.number + days) (by omega) hroom
  generalize Date.ofNumber? (d.number + days) = day at hday ⊢
  generalize Date.ofNumber? (d.number + days + daysIn400Years) = day' at hday ⊢
  cases hday with
  | none => exact .none
  | some hday => exact .some ⟨hday, rfl⟩

/-- **Up to a day of milliseconds leads to the same place of the next cycle**, from moments of a leap
second too. -/
theorem addMillis?_repeatsAt (h : t.RepeatsAt u) (hyear : t.date.year ≤ lastRepeatedYear)
    {millis : Nat} (hmillis : millis ≤ 86400000) :
    Option.Rel RepeatsAt (t.addMillis? millis) (u.addMillis? millis) := by
  have hroom := number_add_cycle_le hyear
  have hsecond := t.time.secondOfDay_lt
  have hnano := t.time.nano_lt
  have hleap : u.IsLeap ↔ t.IsLeap := by
    unfold IsLeap
    rw [h.time]
  unfold addMillis?
  simp only [hleap, h.time]
  split
  · exact .some ⟨h.date, rfl⟩
  · refine ofSeconds?_repeatsAt h.date _ _ ?_
    -- what is counted from a midnight ends in the second day from now at most
    unfold secondsPerDay nanosPerSecond nanosPerMilli at *
    split <;> omega

end Instant

/-- The move of a time of day by up to a day. -/
theorem advanceTime_repeatsAt (floor? : Option TimeOfDay) {unit distance : Int}
    (hday : distance * unit ≤ 86400000) (h : t.RepeatsAt u)
    (hyear : t.date.year ≤ lastRepeatedYear) :
    (advanceTime t floor? unit distance).RepeatsAt (advanceTime u floor? unit distance) := by
  cases floor? with
  | none => exact h
  | some floor =>
      have hmove := @Instant.addMillis?_repeatsAt ⟨t.date, floor⟩ ⟨u.date, floor⟩ ⟨h.date, rfl⟩ hyear
        (distance * unit).toNat (by omega)
      unfold advanceTime
      simp only [Option.bind_some]
      generalize Instant.addMillis? ⟨t.date, floor⟩ (distance * unit).toNat = r at hmove ⊢
      generalize Instant.addMillis? ⟨u.date, floor⟩ (distance * unit).toNat = r' at hmove ⊢
      cases hmove with
      | some hr => exact hr
      | none => exact h

/-! ## Every period -/

/-- **A move of a field that comes round in cycles goes to the same place of the next cycle**, for any
value and from any start that has room for it. -/
theorem Period.moveTo_repeatsAt {p : Period} (hp : p.domain?.isSome = true) (o : CalendarOptions)
    (v : Int) (h : t.RepeatsAt u) (hyear : t.date.year ≤ lastRepeatedYear) :
    (p.moveTo o v t).RepeatsAt (p.moveTo o v u) := by
  have hmonth := h.date.month_eq
  have hindex : u.date.monthIndex = t.date.monthIndex + 4800 := h.date.indexOf_eq .month
  cases p with
  | century => cases hp
  | decade => cases hp
  | year => cases hp
  | quarter =>
      have hbounds := cyclicDistance_bounds (t.date.month / 3 : Nat) v (show (0 : Int) < 4 by decide)
      have hmonth_lt := t.date.month_lt
      have hyear' := h.date.year_eq
      unfold moveTo
      dsimp only
      rw [hmonth]
      have hcycle : 12 * u.date.year + 3 * (t.date.month / 3 : Nat) +
          3 * cyclicDistance (t.date.month / 3 : Nat) v 4 =
            12 * t.date.year + 3 * (t.date.month / 3 : Nat) +
              3 * cyclicDistance (t.date.month / 3 : Nat) v 4 + 4800 := by omega
      rw [hcycle]
      refine Instant.repeatsAt_ofMonthIndex? h hyear ?_ ?_ <;> unfold Date.monthIndex <;> omega
  | month =>
      have hbounds := cyclicDistance_bounds t.date.month v (show (0 : Int) < 12 by decide)
      unfold moveTo
      simp only
      rw [hmonth, hindex, Int.add_right_comm]
      exact Instant.repeatsAt_ofMonthIndex? h hyear (by omega) (by omega)
  | week scope numbering =>
      exact (dayField_week scope numbering o).advanceToDay_repeatsAt
        (fun h => scope.weekOf_eq_of_repeatsAt h numbering o) (by cases scope <;> decide) h hyear
  | dayOfYear => exact advanceToYearDay_repeatsAt v h hyear
  | dayOfWeek =>
      have hbounds := cyclicDistance_bounds t.date.weekday v (show (0 : Int) < daysPerWeek by decide)
      have hdate := h.date
      unfold Date.RepeatsAt at hdate
      unfold moveTo Date.addDays?
      simp only
      rw [h.date.weekday_eq, hdate, Int.add_right_comm]
      unfold daysPerWeek at *
      exact Instant.repeatsAt_ofNumber? h hyear (by omega) (by omega)
  | dayOfMonth =>
      exact dayField_dayOfMonth.advanceToDay_repeatsAt Date.RepeatsAt.dayOfMonth_eq (by decide) h hyear
  | dayOfMonthFromEnd =>
      exact dayField_dayOfMonthFromEnd.advanceToDay_repeatsAt Date.RepeatsAt.dayOfMonthFromEnd_eq
        (by decide) h hyear
  | hour =>
      have hbounds := cyclicDistance_bounds t.time.hour v (show (0 : Int) < 24 by decide)
      simp only [moveTo, h.time]
      exact advanceTime_repeatsAt _ (by omega) h hyear
  | minute =>
      have hbounds := cyclicDistance_bounds t.time.minute v (show (0 : Int) < 60 by decide)
      simp only [moveTo, h.time]
      exact advanceTime_repeatsAt _ (by omega) h hyear
  | second =>
      have hbounds := cyclicDistance_bounds t.time.second v (show (0 : Int) < 60 by decide)
      simp only [moveTo, h.time]
      exact advanceTime_repeatsAt _ (by omega) h hyear
  | millisecond =>
      have hbounds := cyclicDistance_bounds t.time.millisecond v (show (0 : Int) < 1000 by decide)
      simp only [moveTo, h.time]
      exact advanceTime_repeatsAt _ (by omega) h hyear

end Recurrence
