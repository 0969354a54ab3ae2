import Recurrence.Pattern.Search
import Recurrence.Proofs.Frequency.Next
import Recurrence.Proofs.Period.Laws

/-!
# The earliest move of a field

A search never asks whether a move has reached the value it was made for: the scans of days and
weeks may give up, and what counts is that nothing is passed over on the way.  Two facts say that of
the earliest move.  Where a field has an accepted value later on, in another run, **the entry is not
later than that**; where it has a value that is not accepted, the exit is not later than that.

Both hold because the values tried include the one that the field has there.  So the values have to
lie in the domain of the period, and a century, decade or year has to be left within the horizon.

## Main Definitions

* `RejectsAhead`: a count has a value to be left for within the horizon
* `Pattern.WeeksInDomain`, `Pattern.LeavesCounts`: the conditions on a pattern

## Main Statements

* `earliestMove?_spec`: the earliest move leads forward, into another run
* `exists_earliestEntry?_le`, `exists_earliestExit_le`
-/

namespace Recurrence

variable {o : CalendarOptions} {t m c : Instant} {p : Period} {f : Frequency} {values : List Int}

/-! ## The least move -/

/-- A move that leads forward bounds the earliest one. -/
theorem exists_earliestMove?_le {v : Int} (hv : v ∈ values) (hlt : t < p.moveTo o v t)
    (hle : p.moveTo o v t ≤ m) : ∃ c, earliestMove? o t p values = some c ∧ c ≤ m := by
  have hmem : p.moveTo o v t ∈
      (values.map fun v => p.moveTo o v t).filter fun c => t < c := by
    rw [List.mem_filter]
    exact ⟨List.mem_map_of_mem hv, decide_eq_true hlt⟩
  obtain ⟨c, hc, hle'⟩ := Instant.exists_min?_le hmem
  exact ⟨c, hc, hle'.trans hle⟩

/-- The earliest move is one that leads forward. -/
theorem exists_eq_of_earliestMove? (h : earliestMove? o t p values = some c) :
    ∃ v ∈ values, p.moveTo o v t = c ∧ t < c := by
  rw [earliestMove?, List.min?_eq_some_iff, List.mem_filter, List.mem_map] at h
  obtain ⟨⟨⟨v, hv, hmove⟩, hlt⟩, -⟩ := h
  exact ⟨v, hv, hmove, of_decide_eq_true hlt⟩

/-- **The earliest move leads forward, into another run.** -/
theorem earliestMove?_spec (ht : t.IsOrdinary) (h : earliestMove? o t p values = some c) :
    t < c ∧ c.IsOrdinary ∧ p.run o t < p.run o c := by
  obtain ⟨v, -, rfl, hlt⟩ := exists_eq_of_earliestMove? h
  have hlaws := p.lawful o
  exact ⟨hlt, hlaws.isOrdinary_moveTo v ht, hlaws.run_lt_moveTo ht hlt⟩

/-! ## Counts in the value range -/

/-- The years of the calendar. -/
theorem Date.year_range (d : Date) : -262143 ≤ d.year ∧ d.year ≤ 262142 := by
  have hfirst := d.first_le
  have hlast := d.le_last
  have hbounds := d.year_bounds
  have hlow : (-262143 : Int) < d.year + 1 := WeekScope.year.firstDay_lt.1 (by
    simp only [WeekScope.firstDay]
    unfold firstDayNumber at hfirst
    omega)
  have hhigh : d.year < 262143 := WeekScope.year.firstDay_lt.1 (by
    simp only [WeekScope.firstDay]
    unfold lastDayNumber at hlast
    omega)
  omega

/-- Centuries, decades and years have numbers far within the value range. -/
theorem Period.valueAt_range (h : p.domainValues? = none) (o : CalendarOptions) (t : Instant) :
    -300000 ≤ p.valueAt o t ∧ p.valueAt o t ≤ 300000 := by
  have hyear := t.date.year_range
  cases p with
  | century =>
      simp only [Period.valueAt, centuryOf]
      omega
  | decade =>
      simp only [Period.valueAt, decadeOf]
      omega
  | year =>
      simp only [Period.valueAt]
      omega
  | week scope numbering =>
      cases scope <;> cases numbering <;> simp [Period.domainValues?, Period.domain?] at h
  | _ => simp [Period.domainValues?, Period.domain?] at h

theorem Period.inValueRange_valueAt (h : p.domainValues? = none) (o : CalendarOptions)
    (t : Instant) : InValueRange (p.valueAt o t) := by
  have := Period.valueAt_range h o t
  unfold InValueRange minValue maxValue
  omega

/-! ## Entries -/

/-- **The entry is not later than an instant of another run with an accepted value.** -/
theorem exists_earliestEntry?_le (hin : p.InDomain (p.valueAt o m)) (ht : t.IsOrdinary)
    (hm : m.IsOrdinary) (hrun : p.run o t < p.run o m)
    (haccepts : f.accepts (p.valueAt o m) = true) :
    ∃ c, earliestEntry? o t p f = some c ∧ c ≤ m := by
  unfold earliestEntry? acceptedValues
  cases hdomain : p.domainValues? with
  | some values =>
      have hmem := (Period.mem_domainValues_iff hdomain).2 hin
      obtain ⟨hlt, hle⟩ := (p.lawful o).moveTo_bounds ht hm hrun
      exact exists_earliestMove?_le (List.mem_filter.2 ⟨hmem, haccepts⟩) hlt hle
  | none =>
      -- a count only grows: the next accepted value is at most the one at `m`
      obtain ⟨counter, hcount⟩ := Period.exists_isAbsolute hdomain
      have hvalue : p.valueAt o t < p.valueAt o m := by
        rwa [hcount.valueAt_eq, hcount.valueAt_eq, ← hcount.run_eq o, ← hcount.run_eq o]
      obtain ⟨hnext, hle⟩ := f.next_bounds (Period.inValueRange_valueAt hdomain o t)
        (Period.inValueRange_valueAt hdomain o m) hvalue haccepts
      obtain ⟨hlt, hle⟩ := hcount.moveTo_bounds ht hm hnext hle
      exact exists_earliestMove?_le List.mem_cons_self hlt hle

/-! ## Exits -/

/-- A frequency rejects one of the values that the scan from `current` looks through. -/
def RejectsAhead (f : Frequency) (current : Int) : Prop :=
  ∃ i : Nat, i < exitHorizon ∧ f.accepts (current + 1 + i) = false

/-- A frequency that rejects a later value, and one of any values as many as the horizon has, rejects
one of those that the scan looks through. -/
theorem rejectsAhead_of_leavesWithin {current v : Int}
    (hcurrent : -300000 ≤ current ∧ current ≤ 300000) (hv : InValueRange v)
    (hleaves : f.LeavesWithin exitHorizon) (hrejects : f.accepts v = false) :
    RejectsAhead f current := by
  rcases hleaves with hall | hleaves
  · rw [hall v hv] at hrejects
    cases hrejects
  · refine hleaves (current + 1) ?_ ?_
    · unfold InValueRange minValue maxValue
      omega
    · unfold InValueRange minValue maxValue exitHorizon
      omega

/-- A value within the horizon that is rejected is one of those that the scan looks through. -/
theorem rejectsAhead_of_le {current v : Int} (hlt : current < v)
    (hle : v ≤ current + exitHorizon) (hrejects : f.accepts v = false) :
    RejectsAhead f current := by
  refine ⟨(v - (current + 1)).toNat, by omega, ?_⟩
  have hv : current + 1 + ((v - (current + 1)).toNat : Int) = v := by omega
  rw [hv, hrejects]

/-- The first value that is not accepted, within the horizon of a count. -/
theorem exists_rejected_le {current v : Int} (hcurrent : -300000 ≤ current ∧ current ≤ 300000)
    (hlt : current < v) (hahead : RejectsAhead f current) (hrejects : f.accepts v = false) :
    ∃ w, ((List.range exitHorizon).map fun i : Nat => saturate (current + (i + 1))).find?
      (fun v => !f.accepts v) = some w ∧ current < w ∧ w ≤ v := by
  -- the horizon does not reach the ends of the value range
  have hsaturate : ∀ i : Nat, i < exitHorizon → saturate (current + (i + 1)) = current + 1 + i := by
    intro i hi
    unfold exitHorizon at hi
    unfold saturate minValue maxValue
    omega
  obtain ⟨i, hi, hrejected⟩ := hahead
  rw [List.find?_map]
  cases hfind : (List.range exitHorizon).find?
      ((fun v => !f.accepts v) ∘ fun i : Nat => saturate (current + (i + 1))) with
  | none =>
      rw [List.find?_range_eq_none] at hfind
      have := hfind i hi
      rw [Function.comp_apply, hsaturate i hi, hrejected] at this
      cases this
  | some j =>
      rw [List.find?_range_eq_some] at hfind
      obtain ⟨-, hj, hfirst⟩ := hfind
      rw [List.mem_range] at hj
      refine ⟨saturate (current + (j + 1)), rfl, ?_⟩
      rw [hsaturate j hj]
      refine ⟨by omega, ?_⟩
      by_contra hlater
      have hless : (v - (current + 1)).toNat < j := by omega
      have hv' : current + 1 + ((v - (current + 1)).toNat : Int) = v := by omega
      have := hfirst _ hless
      rw [Function.comp_apply, hsaturate _ (hless.trans hj), hv', hrejects] at this
      cases this

/-- **The exit is not later than an instant of another run with a value that is not accepted.** -/
theorem exists_earliestExit_le (hin : p.InDomain (p.valueAt o m))
    (hahead : p.domainValues? = none → RejectsAhead f (p.valueAt o t)) (ht : t.IsOrdinary)
    (hm : m.IsOrdinary) (hrun : p.run o t < p.run o m)
    (hrejects : f.accepts (p.valueAt o m) = false) :
    ∃ c, earliestMove? o t p (rejectedValues p f (p.valueAt o t)) = some c ∧ c ≤ m := by
  have hnot : ¬ f.isAlways = true := by
    intro halways
    rw [Frequency.accepts_of_isAlways halways] at hrejects
    cases hrejects
  rw [rejectedValues, if_neg hnot]
  cases hdomain : p.domainValues? with
  | some values =>
      have hmem := (Period.mem_domainValues_iff hdomain).2 hin
      obtain ⟨hlt, hle⟩ := (p.lawful o).moveTo_bounds ht hm hrun
      refine exists_earliestMove?_le (List.mem_filter.2 ⟨hmem, ?_⟩) hlt hle
      rw [hrejects]
      rfl
  | none =>
      obtain ⟨counter, hcount⟩ := Period.exists_isAbsolute hdomain
      have hvalue : p.valueAt o t < p.valueAt o m := by
        rwa [hcount.valueAt_eq, hcount.valueAt_eq, ← hcount.run_eq o, ← hcount.run_eq o]
      obtain ⟨w, hw, hless, hle⟩ := exists_rejected_le (Period.valueAt_range hdomain o t)
        hvalue (hahead hdomain) hrejects
      obtain ⟨hlt, hle⟩ := hcount.moveTo_bounds ht hm hless hle
      rw [hw]
      exact exists_earliestMove?_le List.mem_cons_self hlt hle

/-! ## Conditions on a pattern -/

namespace Pattern

/-- The pattern does not bind the week of the year when week 1 has to contain day 1 and no other
day, since then a year can have a week that its domain lacks. -/
def WeeksInDomain (p : Pattern) : Prop :=
  Period.week .year .majority ∈ p.periods → p.options.firstWeekDate ≠ 1

/-- Every frequency of a century, a decade or a year accepts everything, or rejects one of any 1000
consecutive values. -/
def LeavesCounts (p : Pattern) : Prop :=
  ∀ binding ∈ p.bindings.entries, binding.1 ∈ [Period.century, .decade, .year] →
    binding.2.LeavesWithin 1000

variable {p : Pattern} {binding : Period × Frequency}

theorem mem_periods (h : binding ∈ p.bindings.entries) : binding.1 ∈ p.periods :=
  List.mem_map_of_mem h

theorem WeeksInDomain.domainComplete (hp : p.WeeksInDomain) (h : binding ∈ p.bindings.entries) :
    binding.1.DomainComplete p.options := by
  intro hweek
  exact hp (hweek ▸ mem_periods h)

theorem LeavesCounts.leavesWithin (hp : p.LeavesCounts) (h : binding ∈ p.bindings.entries)
    (hdomain : binding.1.domainValues? = none) : binding.2.LeavesWithin exitHorizon := by
  refine hp binding h ?_
  generalize binding.1 = period at hdomain
  cases period with
  | week scope numbering =>
      cases scope <;> cases numbering <;> simp [Period.domainValues?, Period.domain?] at hdomain
  | _ => simp [Period.domainValues?, Period.domain?] at hdomain ⊢

theorem covers_iff {t : Instant} :
    p.covers t = true ↔ ∀ binding ∈ p.bindings.entries, fieldHolds p.options t binding = true :=
  List.all_eq_true

end Pattern

end Recurrence
