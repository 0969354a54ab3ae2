import Recurrence.Proofs.Period.DayField

/-!
# The laws of a period

Nineteen periods move in four ways, and a search does not tell them apart.  All that it needs of a
period is gathered in `Period.Lawful`: runs do not decrease and keep the value, two runs are never
bridged by one value, and **a move to the value that the period has at `m` ends neither at or before
the start nor beyond `m`**, provided `m` lies in a later run.

## Main Definitions

* `Period.Lawful`
* `Period.InDomain`: a value that a search tries
* `Period.DomainComplete`: the options leave the period no value outside its domain

## Main Statements

* `Period.lawful`: every period is lawful under all options
* `Period.steady_iff`: a field is steady between two instants of one run, and no others
* `Period.valueAt_mem_domainValues`: the values of a period lie in its domain
* `Period.exists_isAbsolute`: the periods without a domain show a count
-/

namespace Recurrence

namespace Period

variable {p : Period} {o : CalendarOptions}

/-- What a search needs of a period. -/
structure Lawful (p : Period) (o : CalendarOptions) : Prop where
  run_le_run : ∀ {x y : Instant}, x.IsOrdinary → y.IsOrdinary → x ≤ y → p.run o x ≤ p.run o y
  valueAt_eq : ∀ {x y : Instant}, x.IsOrdinary → y.IsOrdinary → p.run o x = p.run o y →
    p.valueAt o x = p.valueAt o y
  exists_valueAt_ne : ∀ {t m : Instant}, t.IsOrdinary → m.IsOrdinary → p.run o t < p.run o m →
    ∃ x : Instant, x.IsOrdinary ∧ t ≤ x ∧ x ≤ m ∧ p.valueAt o x ≠ p.valueAt o t
  isOrdinary_moveTo : ∀ (v : Int) {t : Instant}, t.IsOrdinary → (p.moveTo o v t).IsOrdinary
  run_lt_moveTo : ∀ {v : Int} {t : Instant}, t.IsOrdinary → t < p.moveTo o v t →
    p.run o t < p.run o (p.moveTo o v t)
  moveTo_bounds : ∀ {t m : Instant}, t.IsOrdinary → m.IsOrdinary → p.run o t < p.run o m →
    t < p.moveTo o (p.valueAt o m) t ∧ p.moveTo o (p.valueAt o m) t ≤ m

/-! ## Periods that count -/

/-- A period whose field is fixed by a count, consecutive numbers having different values, is lawful
if its moves are moves of the count that pass over nothing. -/
theorem lawful_of_counter {c : Counter} {value : Int → Int} (hsucc : ∀ n, value (n + 1) ≠ value n)
    (hrun : ∀ t, p.run o t = c.count t)
    (hvalue : ∀ t : Instant, t.IsOrdinary → p.valueAt o t = value (c.count t))
    (hmove : ∀ (v : Int) (t : Instant), t.IsOrdinary → ∃ i, p.moveTo o v t = (c.start? i).getD t)
    (hbounds : ∀ {t m : Instant}, t.IsOrdinary → m.IsOrdinary → c.count t < c.count m →
      t < p.moveTo o (p.valueAt o m) t ∧ p.moveTo o (p.valueAt o m) t ≤ m) :
    Lawful p o where
  run_le_run {x y} hx hy h := by
    rw [hrun, hrun]
    exact c.count_le_count hx hy h
  valueAt_eq {x y} hx hy h := by
    rw [hrun, hrun] at h
    rw [hvalue x hx, hvalue y hy, h]
  exists_valueAt_ne {t m} ht hm h := by
    rw [hrun, hrun] at h
    -- the number after that of `t` has another value, and its stretch begins before `m`
    obtain ⟨s, hs, hts, hsm⟩ := c.exists_start_between ht hm (Int.lt_succ _) (Int.add_one_le_iff.2 h)
    have hordinary := c.isOrdinary_start hs
    refine ⟨s, hordinary, hts.le, hsm, ?_⟩
    rw [hvalue s hordinary, hvalue t ht, c.count_start hs]
    exact hsucc _
  isOrdinary_moveTo v {t} ht := by
    obtain ⟨i, hi⟩ := hmove v t ht
    rw [hi]
    exact c.isOrdinary_getD ht i
  run_lt_moveTo {v t} ht h := by
    obtain ⟨i, hi⟩ := hmove v t ht
    rw [hi] at h ⊢
    rw [hrun, hrun]
    exact c.count_lt_getD ht h
  moveTo_bounds {t m} ht hm h := by
    rw [hrun, hrun] at h
    exact hbounds ht hm h

/-- A move of a field that shows a count, to a number between those of `t` and of `m`. -/
theorem IsAbsolute.moveTo_bounds {c : Counter} (h : IsAbsolute p c) {t m : Instant}
    (ht : t.IsOrdinary) (hm : m.IsOrdinary) {w : Int} (hlt : p.valueAt o t < w)
    (hle : w ≤ p.valueAt o m) : t < p.moveTo o w t ∧ p.moveTo o w t ≤ m := by
  rw [h.valueAt_eq] at hlt hle
  obtain ⟨s, hs, hts, hsm⟩ := c.exists_start_between ht hm hlt hle
  rw [h.moveTo_eq, hs]
  exact ⟨hts, hsm⟩

theorem IsAbsolute.lawful {c : Counter} (h : IsAbsolute p c) : Lawful p o :=
  @lawful_of_counter p o c id (fun n => by simp) (h.run_eq o) (fun t _ => h.valueAt_eq o t)
    (fun v t _ => ⟨v, h.moveTo_eq o v t⟩)
    (fun {t m} ht hm hlt => by
      refine h.moveTo_bounds ht hm ?_ le_rfl
      rwa [h.valueAt_eq, h.valueAt_eq])

theorem IsCyclic.lawful {c : Counter} {cycle : Int} (h : IsCyclic p c cycle) : Lawful p o :=
  @lawful_of_counter p o c (· % cycle) (fun _ => succ_emod_ne h.two_le) (h.run_eq o)
    (h.valueAt_eq o) (fun v t ht => ⟨_, h.moveTo_eq o v t ht⟩)
    (fun {t m} ht hm hlt => by
      have hpos : 0 < cycle := Int.lt_of_lt_of_le (by decide) h.two_le
      obtain ⟨s, hs, hts, hsm⟩ := c.exists_start_cyclic hpos ht hm hlt
      rw [h.moveTo_eq o _ t ht, h.valueAt_eq o t ht, h.valueAt_eq o m hm, hs]
      exact ⟨hts, hsm⟩)

/-! ## Fields of a day -/

theorem lawful_of_dayField {scope : WeekScope} {run value : Date → Int}
    {dayIn? : Int → Date → Option Date} (h : DayField scope run value dayIn?)
    (hrun : ∀ t, p.run o t = run t.date) (hvalue : ∀ t, p.valueAt o t = value t.date)
    (hmove : ∀ v t, IsDayMove run value v t (p.moveTo o v t)) : Lawful p o where
  run_le_run {x y} _ _ hle := by
    rw [hrun, hrun]
    exact h.run_le_run (Instant.date_le_of_le hle)
  valueAt_eq {x y} _ _ heq := by
    rw [hrun, hrun] at heq
    rw [hvalue, hvalue]
    exact h.value_eq heq
  exists_valueAt_ne {t m} ht hm hlt := by
    rw [hrun, hrun] at hlt
    simp only [hvalue]
    have hdate : t.date.number < m.date.number := by
      by_contra hge
      have := h.run_le_run (Int.not_lt.1 hge)
      omega
    have hindex := scope.indexOf_le (Int.le_of_lt hdate)
    have hle : t ≤ m := le_of_lt ((Instant.lt_startOfDay_iff.2 hdate).trans_le
      (Instant.startOfDay_le_iff.2 le_rfl))
    rcases Int.lt_or_eq_of_le hindex with hless | heq
    · -- the last day of the stretch of `t`, or the day after it, has another value
      have hedge := scope.indexOf_lt_iff.1 (Int.lt_succ (scope.indexOf t.date))
      have hnext := (scope.firstDay_le_number_iff (d := m.date)).2 (Int.add_one_le_iff.2 hless)
      obtain ⟨b, hb⟩ := @Date.exists_number_eq t.date m.date _ (Int.le_of_lt hedge) hnext
      obtain ⟨a, ha⟩ := @Date.exists_number_eq t.date m.date
        (scope.firstDay (scope.indexOf t.date + 1) - 1) (by omega) (by omega)
      have hab : scope.indexOf a < scope.indexOf b := by
        have := (scope.firstDay_le_number_iff (d := b)).1 (Int.le_of_eq hb.symm)
        have := (@WeekScope.indexOf_lt_iff scope a (scope.indexOf t.date + 1)).2 (by omega)
        omega
      have hne := h.value_ne (by omega) hab
      by_cases hvb : value b = value t.date
      · have hva : value a ≠ value t.date := fun hva => hne (hva.trans hvb.symm)
        have hat : t.date.number ≠ a.number := fun heq => hva (by rw [Date.ext heq])
        exact ⟨Instant.startOfDay a, Instant.isOrdinary_startOfDay a,
          (Instant.lt_startOfDay_iff.2 (by omega)).le, Instant.startOfDay_le_iff.2 (by omega), hva⟩
      · exact ⟨Instant.startOfDay b, Instant.isOrdinary_startOfDay b,
          (Instant.lt_startOfDay_iff.2 (by omega)).le, Instant.startOfDay_le_iff.2 (by omega), hvb⟩
    · exact ⟨m, hm, hle, le_rfl, fun hv => Int.ne_of_lt hlt (h.run_eq heq hv.symm)⟩
  isOrdinary_moveTo v {t} ht := by
    obtain ⟨day, hday, -⟩ := hmove v t
    rw [hday]
    cases day with
    | none => exact ht
    | some d => exact Instant.isOrdinary_startOfDay d
  run_lt_moveTo {v t} ht hlt := by
    obtain ⟨day, hday, hlater, -⟩ := hmove v t
    rw [hday] at hlt ⊢
    rw [hrun, hrun]
    cases day with
    | none => exact absurd hlt (lt_irrefl t)
    | some d => exact hlater d rfl
  moveTo_bounds {t m} ht hm hlt := by
    obtain ⟨day, hday, hlater, hleast⟩ := hmove (p.valueAt o m) t
    rw [hrun, hrun] at hlt
    obtain ⟨d, rfl, hd⟩ := hleast m.date hlt (hvalue m).symm
    have hdate : t.date.number < d.number := by
      by_contra hge
      have := h.run_le_run (Int.not_lt.1 hge)
      have := hlater d rfl
      omega
    rw [hday]
    exact ⟨Instant.lt_startOfDay_iff.2 hdate, Instant.startOfDay_le_iff.2 hd⟩

/-! ## Every period -/

/-- **Every period is lawful.** -/
theorem lawful (p : Period) (o : CalendarOptions) : Lawful p o := by
  cases p with
  | century => exact isAbsolute_century.lawful
  | decade => exact isAbsolute_decade.lawful
  | year => exact isAbsolute_year.lawful
  | quarter => exact isCyclic_quarter.lawful
  | month => exact isCyclic_month.lawful
  | week scope numbering =>
      have h := dayField_week scope numbering o
      exact lawful_of_dayField h (fun _ => rfl) (fun _ => rfl)
        fun v t => h.isDayMove_advanceToDay v scope.horizon t
  | dayOfYear =>
      exact lawful_of_dayField dayField_dayOfYear (fun _ => rfl) (fun _ => rfl)
        isDayMove_advanceToYearDay
  | dayOfWeek => exact isCyclic_dayOfWeek.lawful
  | dayOfMonth =>
      exact lawful_of_dayField dayField_dayOfMonth (fun _ => rfl) (fun _ => rfl)
        fun v t => dayField_dayOfMonth.isDayMove_advanceToDay v dayOfMonthHorizon t
  | dayOfMonthFromEnd =>
      exact lawful_of_dayField dayField_dayOfMonthFromEnd (fun _ => rfl) (fun _ => rfl)
        fun v t => dayField_dayOfMonthFromEnd.isDayMove_advanceToDay v dayOfMonthHorizon t
  | hour => exact isCyclic_hour.lawful
  | minute => exact isCyclic_minute.lawful
  | second => exact isCyclic_second.lawful
  | millisecond => exact isCyclic_millisecond.lawful

/-- **A field is steady between two instants of one run, and no others.** -/
theorem steady_iff {t m : Instant} (ht : t.IsOrdinary) (hm : m.IsOrdinary) (h : t ≤ m) :
    p.Steady o t m ↔ p.run o t = p.run o m := by
  have hlaws := p.lawful o
  have hle := hlaws.run_le_run ht hm h
  constructor
  · intro hsteady
    by_contra hne
    obtain ⟨x, hx, htx, hxm, hvalue⟩ :=
      hlaws.exists_valueAt_ne ht hm (lt_of_le_of_ne hle hne)
    exact hvalue (hsteady x hx htx hxm)
  · intro heq x hx htx hxm
    have hbefore := hlaws.run_le_run ht hx htx
    have hafter := hlaws.run_le_run hx hm hxm
    exact hlaws.valueAt_eq hx ht (by omega)

theorem run_lt_of_not_steady {t m : Instant} (ht : t.IsOrdinary) (hm : m.IsOrdinary) (h : t ≤ m)
    (hsteady : ¬ p.Steady o t m) : p.run o t < p.run o m :=
  lt_of_le_of_ne ((p.lawful o).run_le_run ht hm h) fun heq => hsteady ((steady_iff ht hm h).2 heq)

theorem not_steady_of_valueAt_ne {t m : Instant} (hm : m.IsOrdinary) (h : t ≤ m)
    (hvalue : p.valueAt o m ≠ p.valueAt o t) : ¬ p.Steady o t m :=
  fun hsteady => hvalue (hsteady m hm h le_rfl)

/-! ## Domains -/

/-- A value that a search tries: one of the domain, or any value of a period without a domain. -/
def InDomain (p : Period) (v : Int) : Prop := ∀ d, p.domain? = some d → d.1 ≤ v ∧ v ≤ d.2

theorem mem_domainValues_iff {v : Int} {values : List Int} (h : p.domainValues? = some values) :
    v ∈ values ↔ p.InDomain v := by
  obtain ⟨⟨low, high⟩, hdomain, rfl⟩ := Option.map_eq_some_iff.1 h
  rw [mem_valuesBetween]
  unfold InDomain
  rw [hdomain]
  simp

/-- The week of the year has a number beyond its domain when its week 1 has to contain day 1 and no
other day. -/
def DomainComplete (p : Period) (o : CalendarOptions) : Prop :=
  p = .week .year .majority → o.firstWeekDate ≠ 1

/-- The periods without a domain show a count. -/
theorem exists_isAbsolute (h : p.domainValues? = none) : ∃ c, IsAbsolute p c := by
  cases p with
  | century => exact ⟨_, isAbsolute_century⟩
  | decade => exact ⟨_, isAbsolute_decade⟩
  | year => exact ⟨_, isAbsolute_year⟩
  | week scope numbering =>
      cases scope <;> cases numbering <;> simp [domainValues?, domain?] at h
  | _ => simp [domainValues?, domain?] at h

/-- **The values of a period that comes round in cycles lie in its domain.** -/
theorem valueAt_mem_domainValues (hp : p.DomainComplete o) {t : Instant} (ht : t.IsOrdinary)
    {values : List Int} (h : p.domainValues? = some values) : p.valueAt o t ∈ values := by
  obtain ⟨⟨low, high⟩, hdomain, rfl⟩ := Option.map_eq_some_iff.1 h
  rw [mem_valuesBetween]
  simp only
  have hmonth := t.date.month_lt
  have hsecond := t.time.secondOfDay_lt
  have hnano := Instant.isOrdinary_iff.1 ht
  unfold secondsPerDay at hsecond
  unfold nanosPerSecond at hnano
  cases p with
  | century => cases hdomain
  | decade => cases hdomain
  | year => cases hdomain
  | quarter =>
      cases hdomain
      simp only [valueAt]
      omega
  | month =>
      cases hdomain
      simp only [valueAt]
      omega
  | week scope numbering =>
      cases scope with
      | year =>
          have hbounds := WeekScope.weekOf_year_bounds numbering o (fun h => hp (by rw [h])) t.date
          have hblocks := WeekScope.year.weekOf_fromFirst_bounds o t.date
          cases numbering <;> cases hdomain <;> simp only [valueAt, WeekScope.maxLength] at * <;>
            omega
      | month =>
          have hbounds := WeekScope.weekOf_month_bounds numbering o t.date
          have hblocks := WeekScope.month.weekOf_fromFirst_bounds o t.date
          cases numbering <;> cases hdomain <;> simp only [valueAt, WeekScope.maxLength] at * <;>
            omega
  | dayOfYear =>
      cases hdomain
      have hpos := t.date.dayOfYear_pos
      have hle := t.date.dayOfYear_le
      have hyear := daysInYear_bounds t.date.year
      simp only [valueAt]
      omega
  | dayOfWeek =>
      cases hdomain
      have hpos := t.date.weekday_nonneg
      have hlt := t.date.weekday_lt
      simp only [valueAt]
      omega
  | dayOfMonth =>
      cases hdomain
      have hbounds := t.date.dayOfMonth_bounds
      have hlength := daysInMonth_bounds t.date.year t.date.month
      simp only [valueAt]
      omega
  | dayOfMonthFromEnd =>
      cases hdomain
      have hbounds := t.date.dayOfMonth_bounds
      have hlength := daysInMonth_bounds t.date.year t.date.month
      simp only [valueAt, Date.dayOfMonthFromEnd]
      omega
  | hour =>
      cases hdomain
      simp only [valueAt, TimeOfDay.hour]
      omega
  | minute =>
      cases hdomain
      simp only [valueAt, TimeOfDay.minute]
      omega
  | second =>
      cases hdomain
      simp only [valueAt, TimeOfDay.second]
      omega
  | millisecond =>
      cases hdomain
      simp only [valueAt, TimeOfDay.millisecond, nanosPerMilli]
      omega

theorem inDomain_valueAt (hp : p.DomainComplete o) {t : Instant} (ht : t.IsOrdinary) :
    p.InDomain (p.valueAt o t) := by
  intro d hd
  have hvalues : p.domainValues? = some (valuesBetween d.1 d.2) := by
    rw [domainValues?, hd, Option.map_some]
  exact mem_valuesBetween.1 (valueAt_mem_domainValues hp ht hvalues)

end Period

end Recurrence
