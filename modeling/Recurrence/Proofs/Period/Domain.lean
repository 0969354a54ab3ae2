import Recurrence.Pattern.Search
import Recurrence.Proofs.Period.Laws

/-!
# Domains and the week 54

A search tries the values of a domain and no others, so a value that a field takes outside its
domain is never moved to.  There is one such value.  When week 1 has to contain day 1 and no other
day, numbering by majority leaves no day of a year for week 0; **a leap year that begins on the last
day of a week then has a week 54**, made of its day 366 alone, while the domain of the week of the
year ends with 53.

## Main Definitions

* `Period.IsWeek54`: the field is the week of the year, and the instant lies in a week 54
* `Period.week54`: the rule for week 54

## Main Statements

* `Period.valueAt_mem_domain_iff`: every value but that week number lies in the domain
* `Period.IsWeek54.exists_later`: the year after a week 54 has all the weeks from 1 to 53
* `Period.domain_incomplete_week54`: a rule that covers a week 54 and is never found
-/

namespace Recurrence

variable {o : CalendarOptions} {t : Instant}

/-- When week 1 has to contain day 1 and no other day, every year begins in week 1. -/
theorem WeekScope.weekOf_year_of_firstWeekDate (h : o.firstWeekDate = 1) (d : Date) :
    WeekScope.year.weekOf d .majority o =
      (d.dayOfYear + weekdayOffset (WeekScope.year.startOf d) o.weekStart + 6) / 7 := by
  have hoffset := weekdayOffset_bounds (WeekScope.year.startOf d) o.weekStart
  have hboundary : WeekScope.year.boundaryAt .majority o d =
      weekdayOffset (WeekScope.year.startOf d) o.weekStart + 6 := by
    simp only [WeekScope.boundaryAt, WeekNumbering.boundary, daysPerWeek, h]
    omega
  have hday : d.dayOfYear =
      d.number - WeekScope.year.firstDay (WeekScope.year.indexOf d) + 1 := rfl
  rw [WeekScope.weekOf_eq, hboundary, ← hday]
  congr 1
  omega

namespace Period

variable {p : Period}

/-- The period is the week of the year, week 1 has to contain day 1 and no other day, and the
instant lies on day 366 of a year that begins on the last day of a week. -/
structure IsWeek54 (p : Period) (o : CalendarOptions) (t : Instant) : Prop where
  period_eq : p = .week .year .majority
  firstWeekDate_eq : o.firstWeekDate = 1
  dayOfYear_eq : t.date.dayOfYear = 366
  offset_eq : weekdayOffset (WeekScope.year.startOf t.date) o.weekStart = 6

instance (p : Period) (o : CalendarOptions) (t : Instant) : Decidable (p.IsWeek54 o t) :=
  decidable_of_iff (p = .week .year .majority ∧ o.firstWeekDate = 1 ∧ t.date.dayOfYear = 366 ∧
      weekdayOffset (WeekScope.year.startOf t.date) o.weekStart = 6)
    ⟨fun ⟨hp, hf, hd, ho⟩ => ⟨hp, hf, hd, ho⟩, fun ⟨hp, hf, hd, ho⟩ => ⟨hp, hf, hd, ho⟩⟩

theorem IsWeek54.valueAt_eq (h : p.IsWeek54 o t) : p.valueAt o t = 54 := by
  have hweek := WeekScope.weekOf_year_of_firstWeekDate h.firstWeekDate_eq t.date
  rw [h.dayOfYear_eq, h.offset_eq] at hweek
  rw [h.period_eq]
  exact hweek

/-- With the options that allow for a week 54, every other week of a year lies in 0 to 53. -/
theorem weekOf_le_of_not_isWeek54 (hfirst : o.firstWeekDate = 1)
    (h : ¬ (week .year .majority).IsWeek54 o t) :
    0 ≤ WeekScope.year.weekOf t.date .majority o ∧
      WeekScope.year.weekOf t.date .majority o ≤ 53 := by
  have hweek := WeekScope.weekOf_year_of_firstWeekDate hfirst t.date
  have hpos := t.date.dayOfYear_pos
  have hle := t.date.dayOfYear_le
  have hyear := daysInYear_bounds t.date.year
  have hoffset := weekdayOffset_bounds (WeekScope.year.startOf t.date) o.weekStart
  have hnot : ¬ (t.date.dayOfYear = 366 ∧
      weekdayOffset (WeekScope.year.startOf t.date) o.weekStart = 6) :=
    fun hdays => h ⟨rfl, hfirst, hdays.1, hdays.2⟩
  omega

theorem inDomain_of_not_isWeek54 (h : ¬ p.IsWeek54 o t) (ht : t.IsOrdinary) :
    p.InDomain (p.valueAt o t) := by
  by_cases hcomplete : p.DomainComplete o
  · exact inDomain_valueAt hcomplete ht
  · -- the one field whose domain is not complete under all options
    unfold DomainComplete at hcomplete
    push Not at hcomplete
    obtain ⟨rfl, hfirst⟩ := hcomplete
    intro d hd
    cases hd
    exact weekOf_le_of_not_isWeek54 hfirst h

/-- Where the domain is not complete, 54 is the one value outside it. -/
theorem inDomain_of_ne_54 (h : p.DomainComplete o ∨ p.valueAt o t ≠ 54) (ht : t.IsOrdinary) :
    p.InDomain (p.valueAt o t) := by
  rcases h with hcomplete | hne
  · exact inDomain_valueAt hcomplete ht
  · exact inDomain_of_not_isWeek54 (fun hweek => hne hweek.valueAt_eq) ht

/-- **After a week 54 every week from 1 to 53 comes again**, in the following year.  The calendar does not
end with a week 54. -/
theorem IsWeek54.exists_later (h : p.IsWeek54 o t) {v : Int} (hpos : 1 ≤ v) (hle : v ≤ 53) :
    ∃ m : Instant, m.IsOrdinary ∧ t < m ∧ p.valueAt o m = v := by
  have hday := h.dayOfYear_eq
  have hindex : WeekScope.year.indexOf t.date = t.date.year := rfl
  have hnotlast : t.date.year ≠ WeekScope.year.lastIndex := by
    intro hlast
    have hle := t.date.dayOfYear_le
    have hlength : daysInYear WeekScope.year.lastIndex = 365 := by decide
    rw [hlast, hlength] at hle
    omega
  have hlast := WeekScope.year.indexOf_le_lastIndex t.date
  have hfirst := WeekScope.year.firstIndex_le t.date
  have hlength := WeekScope.year.firstDay_succ_bounds (t.date.year + 1)
  -- the day of the following year on which the week begins, told by where that year begins in its week
  obtain ⟨start, -, hstart⟩ := @WeekScope.exists_date_of_index .year (t.date.year + 1)
    (WeekScope.year.firstDay (t.date.year + 1)) (by omega) (by omega) (Int.le_refl _) (by omega)
  have hoffset := weekdayOffset_bounds (WeekScope.year.startOf start) o.weekStart
  have hyear := daysInYear_bounds (t.date.year + 1)
  have hsucc : WeekScope.year.firstDay (t.date.year + 1 + 1) =
      WeekScope.year.firstDay (t.date.year + 1) + daysInYear (t.date.year + 1) :=
    daysBeforeYear_succ _
  generalize hk : max 1 (7 * v - 6 - weekdayOffset (WeekScope.year.startOf start) o.weekStart) = k
  obtain ⟨d, hd, hdyear⟩ := @WeekScope.exists_date_of_index .year (t.date.year + 1)
    (WeekScope.year.firstDay (t.date.year + 1) + k - 1) (by omega) (by omega) (by omega) (by omega)
  refine ⟨Instant.startOfDay d, Instant.isOrdinary_startOfDay d, ?_, ?_⟩
  · have hends := (WeekScope.year.indexOf_bounds t.date).2
    rw [hindex] at hends
    rw [Instant.lt_startOfDay_iff]
    omega
  · rw [h.period_eq]
    show WeekScope.year.weekOf d .majority o = v
    have hdk : d.dayOfYear = d.number - WeekScope.year.firstDay (WeekScope.year.indexOf d) + 1 := rfl
    rw [WeekScope.weekOf_year_of_firstWeekDate h.firstWeekDate_eq, hdk, hdyear, hd,
      WeekScope.year.startOf_eq_of_indexOf_eq (hdyear.trans hstart.symm)]
    omega

/-- **The value of a period that comes round in cycles lies in its domain, but for the week 54 of a
year.** -/
theorem valueAt_mem_domain_iff (p : Period) (o : CalendarOptions) (t : Instant)
    (ht : t.IsOrdinary) (low high : Int) (h : p.domain? = some (low, high)) :
    (low ≤ p.valueAt o t ∧ p.valueAt o t ≤ high) ↔ ¬ p.IsWeek54 o t := by
  constructor
  · intro hmem hweek
    have hvalue := hweek.valueAt_eq
    rw [hweek.period_eq] at h
    cases h
    omega
  · intro hnot
    exact inDomain_of_not_isWeek54 hnot ht _ h

/-- Weeks start on Sunday, and week 1 is the one that contains day 1. -/
def weekOfDayOne : CalendarOptions :=
  { CalendarOptions.standard with
    firstWeekDate := 1
    firstWeekDate_pos := by decide
    firstWeekDate_le := by decide }

/-- The last day of the year 2000, a leap year that began on a Saturday. -/
def endOf2000 : Instant := Instant.startOfDay ((Date.ofCivil? 2000 11 31).get (by decide))

/-- 30 December 2000 lies in week 53, and the day after it in no week of the domain. -/
theorem valueAt_mem_domain_iff_endOf2000 :
    (0 ≤ (week .year .majority).valueAt weekOfDayOne
          (Instant.startOfDay ((Date.ofCivil? 2000 11 30).get (by decide))) ∧
        (week .year .majority).valueAt weekOfDayOne
          (Instant.startOfDay ((Date.ofCivil? 2000 11 30).get (by decide))) ≤ 53) ∧
      ¬ (0 ≤ (week .year .majority).valueAt weekOfDayOne endOf2000 ∧
        (week .year .majority).valueAt weekOfDayOne endOf2000 ≤ 53) := by
  constructor
  · exact (valueAt_mem_domain_iff _ _ _ (by decide) 0 53 rfl).2 (by decide)
  · intro h
    exact (valueAt_mem_domain_iff _ _ _ (by decide) 0 53 rfl).1 h (by decide)

/-! ## A week out of reach -/

/-- A rule for the week of the year alone is never found if it accepts no value of the domain. -/
theorem next_eq_none_of_rejects_domain {f : Frequency}
    (hsorted : ([(week .year .majority, f)].map Prod.fst).Pairwise fun p q =>
      q.priority < p.priority)
    (hrejects : ∀ v, 0 ≤ v → v ≤ 53 → f.accepts v = false) (t : Instant) (budget : Nat) :
    Pattern.next ⟨⟨[(week .year .majority, f)], hsorted⟩, o⟩ t budget = none := by
  have haccepted (current : Int) : acceptedValues (week .year .majority) f current = [] := by
    show (valuesBetween 0 53).filter f.accepts = []
    rw [List.filter_eq_nil_iff]
    intro v hv
    obtain ⟨hlow, hhigh⟩ := mem_valuesBetween.1 hv
    rw [hrejects v hlow hhigh]
    exact Bool.false_ne_true
  have hentry : earliestEntry? o t (week .year .majority) f = none := by
    unfold earliestEntry?
    rw [haccepted]
    rfl
  rw [Pattern.next, Pattern.search]
  split
  · -- the smallest move is an entry
    rw [Pattern.stepPast?]
    simp only [List.getLast?_singleton, hentry]
    rfl
  · next hnot =>
      have hfails : ¬ Pattern.fieldHolds o t (week .year .majority, f) = true := by
        intro hholds
        exact hnot (by rw [Pattern.covers, List.all_cons, hholds]; rfl)
      rw [Pattern.settle, if_neg hnot, Pattern.correct, if_neg hfails]
      simp only [hentry]
      rfl

/-- The rule for week 54. -/
def week54 : Pattern := ⟨⟨[(week .year .majority, .single 54)], by decide⟩, weekOfDayOne⟩

/-- **The domain of the week of the year is not complete**: 31 December 2000 lies in a week 54.  The
rule for week 54 covers that day, a move to the value 54 would lead to it, and no search finds it. -/
theorem domain_incomplete_week54 :
    (week .year .majority).domain? = some (0, 53) ∧
      (week .year .majority).valueAt weekOfDayOne endOf2000 = 54 ∧
      week54.covers endOf2000 = true ∧
      (week .year .majority).moveTo weekOfDayOne 54
        (Instant.startOfDay ((Date.ofCivil? 2000 0 1).get (by decide))) = endOf2000 ∧
      ∀ t budget, week54.next t budget = none := by
  refine ⟨rfl, by decide, by decide, by decide +kernel, ?_⟩
  refine next_eq_none_of_rejects_domain _ fun v _ hhigh => ?_
  have hne : v ≠ 54 := by omega
  exact beq_eq_false_iff_ne.2 hne

end Period

end Recurrence
