import Recurrence.Proofs.Period.Laws

/-!
# Coarser fields within a run

The periods are ordered by their lengths, but they do not nest: a week of a year may begin in one
month and end in the next, and a decade reaches into two centuries.  What holds of all of them is
weaker.  **In one run of a field, a field that is not finer has at most two runs.**  So between two
instants of a run it shows no value but those that it has at the two.

The reason is one of three: the coarser field is made of the finer one, both are read off one date,
or the run is a week, and no more than one month, quarter or week of another numbering begins in a
week.

## Main Statements

* `Period.date_eq_of_run_eq`, `Period.sameStretch_of_run_eq`, `Period.monthIndex_le_of_run_eq`,
  `Period.year_le_of_run_eq`: how far apart two instants of a run are
* `Period.run_le_run_add_one`, `Period.valueAt_eq_or_of_steady`
-/

namespace Recurrence

namespace Period

variable {f g : Period} {o : CalendarOptions} {t m x : Instant}

/-! ## Two instants of one run -/

/-- The number of the day of an ordinary instant. -/
theorem number_date_eq (ht : t.IsOrdinary) : t.date.number = t.nanos / 86400000000000 := by
  have hs := t.time.secondOfDay_lt
  have hn := Instant.isOrdinary_iff.1 ht
  unfold Instant.nanos
  unfold secondsPerDay nanosPerSecond at *
  omega

/-- The runs of an hour, a minute, a second and a millisecond, as divisions. -/
theorem run_time (o : CalendarOptions) (t : Instant) :
    hour.run o t = t.nanos / 3600000000000 ∧ minute.run o t = t.nanos / 60000000000 ∧
      second.run o t = t.nanos / 1000000000 ∧ millisecond.run o t = t.nanos / 1000000 :=
  ⟨rfl, rfl, rfl, rfl⟩

theorem run_day (o : CalendarOptions) (t : Instant)
    (hg : g ∈ [dayOfYear, dayOfWeek, dayOfMonth, dayOfMonthFromEnd]) :
    g.run o t = t.date.number + 6 := by
  simp only [List.mem_cons, List.not_mem_nil, or_false] at hg
  rcases hg with rfl | rfl | rfl | rfl <;> rfl

/-- A period that is not coarser than a day is a day or a part of the time of day. -/
theorem mem_of_priority_le (hf : f.priority ≤ dayOfYear.priority) :
    f ∈ [dayOfYear, dayOfWeek, dayOfMonth, dayOfMonthFromEnd] ∨
      f ∈ [hour, minute, second, millisecond] := by
  have hall : ∀ q ∈ all, q.priority ≤ dayOfYear.priority →
      q ∈ [dayOfYear, dayOfWeek, dayOfMonth, dayOfMonthFromEnd] ∨
        q ∈ [hour, minute, second, millisecond] := by decide
  exact hall f (mem_all f) hf

/-- Fields that are not coarser than a day have one date in a run. -/
theorem date_eq_of_run_eq (hf : f.priority ≤ dayOfYear.priority) (ht : t.IsOrdinary)
    (hm : m.IsOrdinary) (h : f.run o t = f.run o m) : t.date.number = m.date.number := by
  have hdt := number_date_eq ht
  have hdm := number_date_eq hm
  rcases mem_of_priority_le hf with hday | htime
  · have hrt := run_day o t hday
    have hrm := run_day o m hday
    omega
  · have hrt := run_time o t
    have hrm := run_time o m
    simp only [List.mem_cons, List.not_mem_nil, or_false] at htime
    rcases htime with rfl | rfl | rfl | rfl <;> omega

/-- The parts of the time of day nest. -/
theorem run_eq_of_time (hg : g ∈ [hour, minute, second, millisecond])
    (hfg : f.priority ≤ g.priority) (h : f.run o t = f.run o m) : g.run o t = g.run o m := by
  have hle : ∀ q ∈ [hour, minute, second, millisecond], q.priority ≤ hour.priority := by decide
  have hf := mem_time_of_priority_le (hfg.trans (hle g hg))
  have hrt := run_time o t
  have hrm := run_time o m
  simp only [List.mem_cons, List.not_mem_nil, or_false] at hf hg
  -- of the sixteen pairs, ten are in order; in those the coarser unit is a multiple of the finer one
  rcases hf with rfl | rfl | rfl | rfl <;> rcases hg with rfl | rfl | rfl | rfl <;>
    first
    | omega
    | exact absurd hfg (by decide)

/-- Fields that are not coarser than a week of a stretch have in a run dates of one stretch that are
at most six days apart. -/
theorem sameStretch_of_run_eq {scope : WeekScope} (hf : f.priority ≤ (week scope .majority).priority)
    (ht : t.IsOrdinary) (hm : m.IsOrdinary) (h : f.run o t = f.run o m) :
    scope.indexOf t.date = scope.indexOf m.date ∧ m.date.number ≤ t.date.number + 6 := by
  rcases Nat.lt_or_ge dayOfYear.priority f.priority with hweek | hday
  · cases f with
    | week scope' numbering =>
        obtain ⟨hindex, hweeks⟩ := weekRun_eq_iff.1 h
        have hclose := scope'.number_le_of_weekOf_eq numbering o hindex hweeks
        refine ⟨?_, hclose⟩
        cases scope with
        | year =>
            cases scope' with
            | year => exact hindex
            | month =>
                show t.date.year = m.date.year
                rw [← t.date.monthIndex_div, ← m.date.monthIndex_div]
                exact congrArg (· / 12) hindex
        | month =>
            cases scope' with
            | year => cases numbering <;> exact absurd hf (by decide)
            | month => exact hindex
    | dayOfYear => exact absurd hweek (by decide)
    | dayOfWeek => exact absurd hweek (by decide)
    | dayOfMonth => exact absurd hweek (by decide)
    | dayOfMonthFromEnd => exact absurd hweek (by decide)
    | hour => exact absurd hweek (by decide)
    | minute => exact absurd hweek (by decide)
    | second => exact absurd hweek (by decide)
    | millisecond => exact absurd hweek (by decide)
    | _ => cases scope <;> exact absurd hf (by decide)
  · have hdate := date_eq_of_run_eq hday ht hm h
    rw [Date.ext hdate]
    exact ⟨rfl, by omega⟩

/-- A period with a smaller priority than `g` is not coarser than the next period in the list. -/
theorem priority_le_of_lt {g' : Period} (h : f.priority < g.priority)
    (hnext : ∀ q ∈ all, q.priority < g.priority → q.priority ≤ g'.priority) :
    f.priority ≤ g'.priority :=
  hnext f (mem_all f) h

/-- Fields that are not coarser than a month have dates of at most two months in a run. -/
theorem monthIndex_le_of_run_eq (hf : f.priority ≤ month.priority) (ht : t.IsOrdinary)
    (hm : m.IsOrdinary) (h : f.run o t = f.run o m) :
    m.date.monthIndex ≤ t.date.monthIndex + 1 := by
  rcases Nat.lt_or_eq_of_le hf with hlt | heq
  · have hclose := (@sameStretch_of_run_eq f o t m .year
      (priority_le_of_lt hlt (by decide)) ht hm h).2
    have hnext := (WeekScope.month.indexOf_bounds t.date).2
    have hlength := (WeekScope.month.firstDay_succ_bounds (t.date.monthIndex + 1)).1
    have hless : WeekScope.month.indexOf m.date < t.date.monthIndex + 1 + 1 :=
      WeekScope.month.indexOf_lt_iff.2 (by
        simp only [WeekScope.indexOf] at hnext
        omega)
    simp only [WeekScope.indexOf] at hless
    omega
  · cases priority_inj heq
    have hmonth : t.date.monthIndex = m.date.monthIndex := h
    omega

/-- Fields that are not coarser than a quarter have dates of one year in a run. -/
theorem year_eq_of_run_eq (hf : f.priority ≤ quarter.priority) (ht : t.IsOrdinary)
    (hm : m.IsOrdinary) (h : f.run o t = f.run o m) : t.date.year = m.date.year := by
  have hyt := t.date.monthIndex_div
  have hym := m.date.monthIndex_div
  rcases Nat.lt_or_eq_of_le hf with hlt | heq
  · rcases Nat.lt_or_eq_of_le (@priority_le_of_lt f quarter month hlt (by decide)) with hlt | heq
    · exact (@sameStretch_of_run_eq f o t m .year
        (priority_le_of_lt hlt (by decide)) ht hm h).1
    · cases priority_inj heq
      have hmonth : t.date.monthIndex = m.date.monthIndex := h
      omega
  · cases priority_inj heq
    have hquarter : t.date.monthIndex / 3 = m.date.monthIndex / 3 := h
    omega

/-- Fields that are not coarser than a decade have dates of at most ten years in a run. -/
theorem year_le_of_run_eq (hf : f.priority ≤ decade.priority) (ht : t.IsOrdinary)
    (hm : m.IsOrdinary) (h : f.run o t = f.run o m) : m.date.year ≤ t.date.year + 9 := by
  rcases Nat.lt_or_eq_of_le hf with hlt | heq
  · rcases Nat.lt_or_eq_of_le (@priority_le_of_lt f decade year hlt (by decide)) with hlt | heq
    · have := year_eq_of_run_eq (priority_le_of_lt hlt (by decide)) ht hm h
      omega
    · cases priority_inj heq
      have hyear : t.date.year = m.date.year := h
      omega
  · cases priority_inj heq
    have hdecade : t.date.year / 10 = m.date.year / 10 := h
    omega

/-! ## Runs of a coarser field -/

/-- **In one run of a field, a field that is not finer has at most two runs.** -/
theorem run_le_run_add_one (hfg : f.priority ≤ g.priority) (ht : t.IsOrdinary) (hm : m.IsOrdinary)
    (h : f.run o t = f.run o m) : g.run o m ≤ g.run o t + 1 := by
  rcases Nat.lt_or_eq_of_le hfg with hlt | heq
  · have hday : g ∈ [dayOfYear, dayOfWeek, dayOfMonth, dayOfMonthFromEnd] →
        g.run o m ≤ g.run o t + 1 := by
      intro hg
      have hle : ∀ q ∈ [dayOfYear, dayOfWeek, dayOfMonth, dayOfMonthFromEnd],
          q.priority ≤ dayOfYear.priority := by decide
      have hdate := date_eq_of_run_eq (hfg.trans (hle g hg)) ht hm h
      rw [run_day o t hg, run_day o m hg]
      omega
    have htime : g ∈ [hour, minute, second, millisecond] → g.run o m ≤ g.run o t + 1 := by
      intro hg
      have hrun := run_eq_of_time hg hfg h
      omega
    cases g with
    | century =>
        have hyear := year_le_of_run_eq (priority_le_of_lt hlt (by decide)) ht hm h
        show centuryOf m.date.year ≤ centuryOf t.date.year + 1
        unfold centuryOf
        omega
    | decade =>
        have hyear := year_le_of_run_eq hfg ht hm h
        show decadeOf m.date.year ≤ decadeOf t.date.year + 1
        unfold decadeOf
        omega
    | year =>
        have hyear := year_eq_of_run_eq (priority_le_of_lt hlt (by decide)) ht hm h
        show m.date.year ≤ t.date.year + 1
        omega
    | quarter =>
        have hmonth := monthIndex_le_of_run_eq (priority_le_of_lt hlt (by decide)) ht hm h
        show m.date.monthIndex / 3 ≤ t.date.monthIndex / 3 + 1
        omega
    | month => exact monthIndex_le_of_run_eq hfg ht hm h
    | week scope numbering =>
        have hle : (week scope numbering).priority ≤ (week scope .majority).priority := by
          cases scope <;> cases numbering <;> decide
        obtain ⟨hindex, hclose⟩ := sameStretch_of_run_eq (hfg.trans hle) ht hm h
        have hweek := scope.weekOf_le_add_one numbering o hindex hclose
        show weekRun scope numbering o m.date ≤ weekRun scope numbering o t.date + 1
        unfold weekRun
        omega
    | dayOfYear => exact hday (by decide)
    | dayOfWeek => exact hday (by decide)
    | dayOfMonth => exact hday (by decide)
    | dayOfMonthFromEnd => exact hday (by decide)
    | hour => exact htime (by decide)
    | minute => exact htime (by decide)
    | second => exact htime (by decide)
    | millisecond => exact htime (by decide)
  · cases priority_inj heq
    omega

/-- Between two instants of one run, a field that is not finer shows one of the two values that it
has at them. -/
theorem valueAt_eq_or_of_steady (hfg : f.priority ≤ g.priority) (ht : t.IsOrdinary)
    (hm : m.IsOrdinary) (hx : x.IsOrdinary) (htx : t ≤ x) (hxm : x ≤ m)
    (hsteady : f.Steady o t m) :
    g.valueAt o x = g.valueAt o t ∨ g.valueAt o x = g.valueAt o m := by
  have hlaws := g.lawful o
  have hrun := run_le_run_add_one hfg ht hm ((steady_iff ht hm (htx.trans hxm)).1 hsteady)
  have hbefore := hlaws.run_le_run ht hx htx
  have hafter := hlaws.run_le_run hx hm hxm
  rcases Int.lt_or_eq_of_le hbefore with hlt | heq
  · exact .inr (hlaws.valueAt_eq hx hm (by omega))
  · exact .inl (hlaws.valueAt_eq hx ht heq.symm)

end Period

end Recurrence
