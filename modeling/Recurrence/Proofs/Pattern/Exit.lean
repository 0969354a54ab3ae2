import Recurrence.Proofs.Pattern.After
import Recurrence.Proofs.Period.Domain
import Recurrence.Proofs.Period.Horizon

/-!
# Which covered stretches have an end to be found

`Pattern.after` looks a bounded number of values ahead for one at which a century, a decade or a year
is left.  So a covered stretch that ends can have an end that no budget finds.  **The end is found
exactly if it is within reach**: some field that comes round in cycles fails later on, or a century,
a decade or a year fails within a thousand of its values.

There is one more way, and it is an odd one.  A week whose frequency does not accept some number of
the domain keeps the search going even if the number never comes again: its move ends at the
beginning of the following year or month, still covered, and the next one starts from there.  In such
steps the search reaches an end that lies beyond the horizon of every count.

An end in a week 54 cannot be moved to, since the domain lacks that week.  It does no harm if another
week from 1 to 53 fails as well, which then comes again in the following year.

## Main Definitions

* `Pattern.LeavesWeek54`: week 54 is not the only week from 1 on that a week of the year rejects
* `Pattern.EndsInDomain`: an instant at which no field fails in a week 54
* `Pattern.FailsWithin`: a field fails at an instant that the moves from the start aim at
* `Pattern.RejectsWeek`: a week field is tried for a value that it may never have

## Main Statements

* `Pattern.exit_cases`: a move ends where a field fails, or at the beginning of a stretch
* `Pattern.exists_progress`: a move makes progress towards an end within reach
* `Pattern.after_complete`: an end is found by all large budgets exactly if one is within reach
* `Pattern.afterFails_beyondHorizon`: an end out of reach
-/

namespace Recurrence

/-- Before an instant of a later year, the next year and the next month begin. -/
theorem WeekScope.nextStart_bounds (scope : WeekScope) {t m : Instant}
    (h : t.date.year < m.date.year) : t < scope.nextStart t ∧ scope.nextStart t ≤ m := by
  have hstart := scope.isFirst_startOf t.date
  have hindex : scope.indexOf t.date < scope.indexOf m.date := by
    cases scope with
    | year => exact h
    | month =>
        have ht := t.date.monthIndex_div
        have hm := m.date.monthIndex_div
        simp only [indexOf]
        omega
  unfold nextStart
  cases hnext : scope.following? (scope.startOf t.date) with
  | none =>
      have := scope.indexOf_le_of_following?_eq_none hstart hnext m.date
      rw [scope.indexOf_startOf] at this
      omega
  | some next =>
      obtain ⟨hsucc, hfirst⟩ := scope.following?_eq_some hstart hnext
      rw [scope.indexOf_startOf] at hsucc
      constructor
      · refine Instant.lt_startOfDay_iff.2 ?_
        rw [hfirst]
        exact scope.indexOf_lt_iff.1 (by omega)
      · refine Instant.startOfDay_le_iff.2 ?_
        rw [hfirst]
        exact scope.firstDay_le_number_iff.2 (by omega)

/-- A century, a decade or a year that has grown shows a later year. -/
theorem Period.year_lt_of_valueAt_lt {p : Period} {o : CalendarOptions} {t m : Instant}
    (hp : p.domain? = none) (h : p.valueAt o t < p.valueAt o m) : t.date.year < m.date.year := by
  cases p with
  | century =>
      simp only [valueAt, centuryOf] at h
      omega
  | decade =>
      simp only [valueAt, decadeOf] at h
      omega
  | year => exact h
  | week scope numbering => cases scope <;> cases numbering <;> cases hp
  | _ => cases hp

theorem Period.domainValues?_eq_none_iff {p : Period} :
    p.domainValues? = none ↔ p.domain? = none :=
  Option.map_eq_none_iff

namespace Pattern

variable {p : Pattern} {t m c r : Instant}

/-! ## Ends within reach -/

/-- The pattern does not bind the week of the year under the options that allow for a week 54, or it
accepts that week, or it rejects some other week that years then have. -/
def LeavesWeek54 (p : Pattern) : Prop :=
  ∀ binding ∈ p.bindings.entries,
    binding.1.DomainComplete p.options ∨ binding.2.accepts 54 = true ∨
      ∃ v, 1 ≤ v ∧ v ≤ 53 ∧ binding.2.accepts v = false

/-- Whatever field fails at `m` has a value of its domain there. -/
def EndsInDomain (p : Pattern) (m : Instant) : Prop :=
  ∀ binding ∈ p.bindings.entries, fieldHolds p.options m binding = false →
    binding.1.InDomain (binding.1.valueAt p.options m)

/-- Some field fails at `m`, and if it is a century, a decade or a year, its value has grown by 1000
at most since `t`. -/
def FailsWithin (p : Pattern) (t m : Instant) : Prop :=
  ∃ binding ∈ p.bindings.entries, fieldHolds p.options m binding = false ∧
    (binding.1.domain? = none →
      binding.1.valueAt p.options m ≤ binding.1.valueAt p.options t + 1000)

/-- Some week field does not accept a number of its domain. -/
def RejectsWeek (p : Pattern) : Prop :=
  ∃ scope numbering f v, (Period.week scope numbering, f) ∈ p.bindings.entries ∧
    (Period.week scope numbering).InDomain v ∧ f.accepts v = false

theorem FailsWithin.not_covers (h : p.FailsWithin t m) : ¬ p.covers m = true := by
  obtain ⟨binding, hmem, hfails, -⟩ := h
  intro hcovers
  rw [covers_iff.1 hcovers binding hmem] at hfails
  cases hfails

/-- An end within reach stays so on the way to it. -/
theorem FailsWithin.of_le (h : p.FailsWithin t m) (ht : t.IsOrdinary) (hc : c.IsOrdinary)
    (htc : t ≤ c) : p.FailsWithin c m := by
  obtain ⟨binding, hmem, hfails, hnear⟩ := h
  refine ⟨binding, hmem, hfails, fun hcount => (hnear hcount).trans ?_⟩
  obtain ⟨counter, habsolute⟩ :=
    Period.exists_isAbsolute (Period.domainValues?_eq_none_iff.2 hcount)
  rw [habsolute.valueAt_eq, habsolute.valueAt_eq]
  exact Int.add_le_add_right (counter.count_le_count ht hc htc) 1000

/-- **An end within reach may be taken to be in no week 54.** -/
theorem LeavesWeek54.exists_endsInDomain (h54 : p.LeavesWeek54) (hm : m.IsOrdinary) (htm : t < m)
    (hnot : ¬ p.covers m = true) (hreach : p.FailsWithin t m ∨ p.RejectsWeek) :
    ∃ m' : Instant, m'.IsOrdinary ∧ t < m' ∧ ¬ p.covers m' = true ∧ p.EndsInDomain m' ∧
      (p.FailsWithin t m' ∨ p.RejectsWeek) := by
  by_cases hdomain : p.EndsInDomain m
  · exact ⟨m, hm, htm, hnot, hdomain, hreach⟩
  · unfold EndsInDomain at hdomain
    push Not at hdomain
    obtain ⟨binding, hmem, hfails, hout⟩ := hdomain
    have hweek : binding.1.IsWeek54 p.options m := by
      by_contra hweek
      exact hout (Period.inDomain_of_not_isWeek54 hweek hm)
    rcases h54 binding hmem with hcomplete | haccepts | ⟨v, hpos, hle, hrejects⟩
    · exact absurd (Period.inDomain_valueAt hcomplete hm) hout
    · rw [fieldHolds, hweek.valueAt_eq, haccepts] at hfails
      cases hfails
    · -- the week that fails as well comes in the following year
      obtain ⟨m', hm', hmm', hvalue⟩ := hweek.exists_later hpos hle
      have hfails' : p.FailsWithin t m' := by
        refine ⟨binding, hmem, ?_, fun hnone => ?_⟩
        · rw [fieldHolds, hvalue]
          exact hrejects
        · rw [hweek.period_eq] at hnone
          cases hnone
      refine ⟨m', hm', htm.trans hmm', hfails'.not_covers, fun other _ _ => ?_, .inl hfails'⟩
      refine Period.inDomain_of_not_isWeek54 (fun hweek' => ?_) hm'
      have hvalue' := hweek'.valueAt_eq
      rw [hweek'.period_eq, ← hweek.period_eq, hvalue] at hvalue'
      omega

/-! ## One move -/

/-- A value that a move tries is not accepted, lies in the domain, and is not beyond the horizon of a
count. -/
theorem mem_rejectedValues {period : Period} {f : Frequency} {o : CalendarOptions} {v : Int}
    (h : v ∈ rejectedValues period f (period.valueAt o t)) :
    period.InDomain v ∧ f.accepts v = false ∧
      (period.domain? = none → v ≤ period.valueAt o t + 1000) := by
  unfold rejectedValues at h
  split at h
  · cases h
  · cases hvalues : period.domainValues? with
    | some values =>
        rw [hvalues] at h
        obtain ⟨hmem, hrejects⟩ := List.mem_filter.1 h
        refine ⟨(Period.mem_domainValues_iff hvalues).1 hmem, by simpa using hrejects, fun hnone => ?_⟩
        rw [Period.domainValues?_eq_none_iff.2 hnone] at hvalues
        cases hvalues
    | none =>
        rw [hvalues] at h
        have hfind := Option.mem_toList.1 h
        have hrejects := List.find?_some hfind
        have hrange := Period.valueAt_range hvalues o t
        obtain ⟨i, hi, rfl⟩ := List.mem_map.1 (List.mem_of_find?_eq_some hfind)
        have hlt : i < 1000 := List.mem_range.1 hi
        refine ⟨fun d hd => ?_, by simpa using hrejects, fun _ => ?_⟩
        · rw [Period.domainValues?_eq_none_iff.1 hvalues] at hd
          cases hd
        · unfold saturate minValue maxValue
          omega

/-- **A move ends where a field fails, or at the beginning of a year or a month**, a week number that
is not accepted having gone. -/
theorem exit_cases (ht : t.IsOrdinary) (h : p.earliestExit? t = some c) :
    p.FailsWithin t c ∨ p.RejectsWeek ∧ ∃ scope : WeekScope, c = scope.nextStart t := by
  rw [earliestExit?, List.min?_eq_some_iff, List.mem_filterMap] at h
  obtain ⟨⟨⟨period, f⟩, hmem, hmove⟩, -⟩ := h
  obtain ⟨v, hv, rfl, htc⟩ := exists_eq_of_earliestMove? hmove
  obtain ⟨hin, hrejects, hnear⟩ := mem_rejectedValues hv
  rcases Period.valueAt_moveTo_or hin ht htc with hreached | ⟨scope, numbering, rfl, hnext, -⟩
  · left
    refine ⟨(period, f), hmem, ?_, fun hcount => ?_⟩
    · rw [fieldHolds, hreached]
      exact hrejects
    · rw [hreached]
      exact hnear hcount
  · exact .inr ⟨⟨scope, numbering, f, v, hmem, hin, hrejects⟩, scope, hnext⟩

/-- The move does not pass over an end that a field makes within reach. -/
theorem FailsWithin.exists_exit_le (h : p.FailsWithin t m) (hdomain : p.EndsInDomain m)
    (ht : t.IsOrdinary) (hm : m.IsOrdinary) (htm : t ≤ m) (hcovers : p.covers t = true) :
    ∃ c, p.earliestExit? t = some c ∧ c ≤ m := by
  obtain ⟨binding, hmem, hfails, hnear⟩ := h
  have hin := hdomain binding hmem hfails
  refine exists_earliestExit?_le_of_fails hmem hin (fun hnone => ?_) ht hm htm hcovers hfails
  have hrun := run_lt_of_fails ht hm htm (covers_iff.1 hcovers binding hmem) hfails
  obtain ⟨counter, habsolute⟩ := Period.exists_isAbsolute hnone
  rw [habsolute.run_eq, habsolute.run_eq, ← habsolute.valueAt_eq p.options,
    ← habsolute.valueAt_eq p.options] at hrun
  exact rejectsAhead_of_le hrun (hnear (Period.domainValues?_eq_none_iff.1 hnone)) hfails

/-- An end that no field makes within reach lies in a later year. -/
theorem year_lt_of_not_failsWithin (hnot : ¬ p.covers m = true) (hfar : ¬ p.FailsWithin t m) :
    t.date.year < m.date.year := by
  obtain ⟨binding, hmem, hfails⟩ := exists_not_fieldHolds hnot
  have hcount : ¬ (binding.1.domain? = none →
      binding.1.valueAt p.options m ≤ binding.1.valueAt p.options t + 1000) :=
    fun hnear => hfar ⟨binding, hmem, Bool.eq_false_iff.2 hfails, hnear⟩
  push Not at hcount
  obtain ⟨hnone, hgrown⟩ := hcount
  exact Period.year_lt_of_valueAt_lt hnone (o := p.options) (by omega)

/-- A week number of the domain that is not accepted gives a move forward, as long as a year is
ahead. -/
theorem RejectsWeek.exists_exit (h : p.RejectsWeek) (ht : t.IsOrdinary)
    (hyear : t.date.year < m.date.year) : ∃ c, p.earliestExit? t = some c := by
  obtain ⟨scope, numbering, f, v, hmem, hin, hrejects⟩ := h
  have hforward : t < (Period.week scope numbering).moveTo p.options v t := by
    rcases Period.moveTo_week_cases scope numbering hin t with ⟨d, hd, -, hlater⟩ | ⟨hd, -⟩
    · have hordinary := Instant.isOrdinary_startOfDay d
      rw [hd, ← not_le]
      intro hle
      have hrun := ((Period.week scope numbering).lawful p.options).run_le_run hordinary ht hle
      exact absurd hlater (not_lt.2 hrun)
    · rw [hd]
      exact (scope.nextStart_bounds hyear).1
  have hvalues : v ∈ rejectedValues (.week scope numbering) f
      ((Period.week scope numbering).valueAt p.options t) := by
    have hnot : ¬ f.isAlways = true := by
      intro halways
      rw [Frequency.accepts_of_isAlways halways] at hrejects
      cases hrejects
    rw [rejectedValues, if_neg hnot]
    cases hdomain : (Period.week scope numbering).domainValues? with
    | none => cases scope <;> cases numbering <;> cases hdomain
    | some values =>
        refine List.mem_filter.2 ⟨(Period.mem_domainValues_iff hdomain).2 hin, ?_⟩
        rw [hrejects]
        rfl
  obtain ⟨c, hc, -⟩ := exists_earliestMove?_le hvalues hforward le_rfl
  obtain ⟨c', hc', -⟩ := exists_earliestExit?_le_of_move hmem hc
  exact ⟨c', hc'⟩

/-- **A move makes progress towards an end within reach**: it ends at or before it, or at an end of
its own. -/
theorem exists_progress (hdomain : p.EndsInDomain m) (hreach : p.FailsWithin t m ∨ p.RejectsWeek)
    (ht : t.IsOrdinary) (hm : m.IsOrdinary) (htm : t ≤ m) (hcovers : p.covers t = true)
    (hnot : ¬ p.covers m = true) :
    ∃ c, p.earliestExit? t = some c ∧ (c ≤ m ∨ ¬ p.covers c = true) := by
  by_cases hnear : p.FailsWithin t m
  · obtain ⟨c, hexit, hcm⟩ := hnear.exists_exit_le hdomain ht hm htm hcovers
    exact ⟨c, hexit, .inl hcm⟩
  · have hyear := year_lt_of_not_failsWithin hnot hnear
    obtain ⟨c, hexit⟩ := (hreach.resolve_left hnear).exists_exit ht hyear
    refine ⟨c, hexit, ?_⟩
    rcases exit_cases ht hexit with hfails | ⟨-, scope, rfl⟩
    · exact .inr hfails.not_covers
    · exact .inl (scope.nextStart_bounds hyear).2

/-! ## The moves of a search -/

/-- The moves find an end when one is within reach and as many moves are allowed as there are
instants up to it. -/
theorem exists_leave_found_of_reach (hdomain : p.EndsInDomain m)
    (hreach : p.FailsWithin t m ∨ p.RejectsWeek) (ht : t.IsOrdinary) (hm : m.IsOrdinary)
    (htm : t ≤ m) (hnot : ¬ p.covers m = true) {moves : Nat} (hmoves : m.rank - t.rank ≤ moves) :
    ∃ r, p.leave moves t = .found r := by
  refine @exists_leave_found_of_progress p t m (fun c => p.FailsWithin c m ∨ p.RejectsWeek)
    (fun c hc hcm hreach hcovers => ?_) ht htm hreach hnot _ hmoves
  obtain ⟨c', hexit, hprogress⟩ := exists_progress hdomain hreach hc hm hcm hcovers hnot
  obtain ⟨hcc', hc'⟩ := earliestExit?_spec hc hexit
  refine ⟨c', hexit, hprogress.imp_left fun hle => ⟨hle, ?_⟩⟩
  exact hreach.imp_left fun hfails => hfails.of_le hc hc' hcc'.le

/-- What a search finds is an uncovered instant at or after the start, after a first move that there
is. -/
theorem leave_found_of_covers (ht : t.IsOrdinary) {moves : Nat} (hcovers : p.covers t = true)
    (h : p.leave moves t = .found r) :
    r.IsOrdinary ∧ t < r ∧ ¬ p.covers r = true ∧ ∃ c, p.earliestExit? t = some c := by
  induction moves generalizing t with
  | zero =>
      rw [leave, if_pos hcovers] at h
      cases h
  | succ moves ih =>
      rw [leave, if_pos hcovers] at h
      cases hexit : p.earliestExit? t with
      | none =>
          rw [hexit] at h
          cases h
      | some c =>
          simp only [hexit] at h
          obtain ⟨htc, hc⟩ := earliestExit?_spec ht hexit
          by_cases hcc : p.covers c = true
          · obtain ⟨hr, hcr, hnot, -⟩ := ih hc hcc h
            exact ⟨hr, htc.trans hcr, hnot, c, rfl⟩
          · rw [leave_of_not_covers hcc moves] at h
            cases h
            exact ⟨hc, htc, hcc, _, rfl⟩

/-! ## The search -/

/-- **An end is found by all large budgets exactly if one is within reach**: some later instant is
not covered, and a field that comes round in cycles fails there, or a century, a decade or a year
that has grown by 1000 at most, or some week does not accept a number of its domain. -/
theorem after_complete (p : Pattern) (h54 : p.LeavesWeek54) (t : Instant) (ht : t.IsOrdinary)
    (hcovers : p.covers t = true) :
    (∃ enough, ∀ budget, enough ≤ budget → (p.after t budget).isSome = true) ↔
      ∃ m : Instant, m.IsOrdinary ∧ t < m ∧ p.covers m = false ∧
        (p.FailsWithin t m ∨ p.RejectsWeek) := by
  constructor
  · rintro ⟨enough, hfound⟩
    obtain ⟨r, hr⟩ := Option.isSome_iff_exists.1 (hfound enough le_rfl)
    obtain ⟨hordinary, htr, hnot, c, hexit⟩ := leave_found_of_covers ht hcovers (after_eq_some.1 hr)
    obtain ⟨htc, hc⟩ := earliestExit?_spec ht hexit
    rcases exit_cases ht hexit with hfails | ⟨hweek, -⟩
    · exact ⟨c, hc, htc, Bool.eq_false_iff.2 hfails.not_covers, .inl hfails⟩
    · exact ⟨r, hordinary, htr, Bool.eq_false_iff.2 hnot, .inr hweek⟩
  · rintro ⟨last, hlast, htlast, hnot, hreach⟩
    obtain ⟨m, hm, htm, hnot, hdomain, hreach⟩ :=
      h54.exists_endsInDomain hlast htlast (Bool.eq_false_iff.1 hnot) hreach
    refine ⟨(m.rank - t.rank).toNat, fun budget hbudget => ?_⟩
    have hrank : m.rank - t.rank ≤ (budget + 1 : Nat) := by omega
    obtain ⟨r, hr⟩ := exists_leave_found_of_reach hdomain hreach ht hm htm.le hnot hrank
    exact Option.isSome_iff_exists.2 ⟨r, after_eq_some.2 hr⟩

/-- The years 2000 to 4000. -/
def twoMillennia : Frequency := ⟨.ranges [(2000, 4000)], by decide, by decide, by decide⟩

/-- The weeks 0 to 5 of a month, which are all that a month has. -/
def everyWeek : Frequency := ⟨.ranges [(0, 5)], by decide, by decide, by decide⟩

/-- The years 2000 to 4000 have an end beyond the horizon of 2024.  Bound together with all the whole
weeks that a month has, they are left nevertheless: week 6 is tried in every month. -/
theorem after_complete_weekByWeek :
    ∃ enough, ∀ budget, enough ≤ budget →
      (Pattern.after ⟨⟨[(.year, twoMillennia), (.week .month .full, everyWeek)], by decide⟩,
        .standard⟩ (Instant.startOfDay ((Date.ofCivil? 2024 0 1).get (by decide)))
          budget).isSome = true := by
  refine (after_complete ⟨⟨[(.year, twoMillennia), (.week .month .full, everyWeek)], by decide⟩,
    .standard⟩ ?_ _ (by decide) (by decide)).2 ?_
  · intro binding hbinding
    rcases List.mem_cons.1 hbinding with rfl | hbinding
    · exact .inl nofun
    · rcases List.mem_singleton.1 hbinding with rfl
      exact .inl nofun
  · refine ⟨Instant.startOfDay ((Date.ofCivil? 4001 0 1).get (by decide)), by decide, by decide,
      by decide, .inr ⟨.month, .full, everyWeek, 6, by decide, ?_, by decide⟩⟩
    intro d hd
    cases hd
    decide

/-- Without a move there is nothing to be found, whatever the budget. -/
theorem after_eq_none_of_earliestExit? (hcovers : p.covers t = true)
    (h : p.earliestExit? t = none) (budget : Nat) : p.after t budget = none := by
  rw [after, searchExit, leave, if_pos hcovers, h]
  rfl

/-- **An end out of reach.**  The pattern of the years 2000 to 4000 covers New Year 2024 and does not
cover New Year 4001, and from the one no budget finds an instant that is not covered. -/
theorem afterFails_beyondHorizon :
    Pattern.covers ⟨⟨[(.year, twoMillennia)], by decide⟩, .standard⟩
        (Instant.startOfDay ((Date.ofCivil? 2024 0 1).get (by decide))) = true ∧
      Pattern.covers ⟨⟨[(.year, twoMillennia)], by decide⟩, .standard⟩
        (Instant.startOfDay ((Date.ofCivil? 4001 0 1).get (by decide))) = false ∧
      ∀ budget, Pattern.after ⟨⟨[(.year, twoMillennia)], by decide⟩, .standard⟩
        (Instant.startOfDay ((Date.ofCivil? 2024 0 1).get (by decide))) budget = none := by
  refine ⟨by decide, by decide, fun budget => ?_⟩
  exact after_eq_none_of_earliestExit? (by decide) (by decide +kernel) budget

end Pattern

end Recurrence
