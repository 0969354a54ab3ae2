import Mathlib.Data.List.Basic
import Recurrence.Proofs.Pattern.Entry
import Recurrence.Proofs.Pattern.Sound
import Recurrence.Proofs.Period.Resolution
import Recurrence.Schedule.Search

/-!
# What a search depends on

**A search does not see what is finer than its rule.**  Two starts that agree down to the finest bound
period are covered alike and have the same next instant, whatever the budget.  The same holds of a
schedule down to the finest period that its including patterns bind; the excluding ones may bind finer
periods, since they are only asked about instants that a search has come to.

A search that goes nowhere stays at its own start, and starts that agree may still differ there.  This
does not show: a start that the pattern covers is left by the smallest move, and from a start that it
does not cover the first pass moves some field or gets stuck.

## Main Definitions

* `Pattern.ResolvesTo`: a pattern that binds something, but nothing finer than a period

## Main Statements

* `earliestEntry?_congr`: the correcting move from starts that agree
* `Pattern.correct_congr`, `Pattern.settle_congr`: the first pass, and the passes
* `Schedule.next_eq_of_agreesTo`: searches of patterns and of schedules
-/

namespace Recurrence

variable {o : CalendarOptions} {t u : Instant} {finest : Period} {f : Frequency}

/-! ## Moves -/

/-- Starts that agree have the same moves that lead forward. -/
theorem forwardMoves_congr {p : Period} (h : t.AgreesTo u p) (values : List Int) :
    ((values.map fun v => p.moveTo o v t).filter fun c => t < c) =
      (values.map fun v => p.moveTo o v u).filter fun c => u < c := by
  induction values with
  | nil => rfl
  | cons v rest ih =>
      rw [List.map_cons, List.map_cons]
      by_cases hlt : t < p.moveTo o v t
      · obtain ⟨heq, hlt'⟩ := Period.moveTo_eq_of_agreesTo h hlt
        rw [heq, List.filter_cons_of_pos (by simpa using hlt),
          List.filter_cons_of_pos (by simpa using hlt'), ih]
      · have hnot : ¬ u < p.moveTo o v u := by
          intro hlt'
          obtain ⟨heq, hforward⟩ := Period.moveTo_eq_of_agreesTo h.symm hlt'
          exact hlt (heq.symm ▸ hforward)
        rw [List.filter_cons_of_neg (by simpa using hlt),
          List.filter_cons_of_neg (by simpa using hnot), ih]

/-- **The correcting move is the same** from starts that agree. -/
theorem earliestEntry?_congr {p : Period} (h : t.AgreesTo u p) :
    earliestEntry? o t p f = earliestEntry? o u p f := by
  unfold earliestEntry? earliestMove?
  rw [forwardMoves_congr h, Period.valueAt_eq_of_agreesTo h]

namespace Pattern

variable {p : Pattern} {entries : List (Period × Frequency)}

/-- The pattern binds something, but nothing finer than the period. -/
def ResolvesTo (p : Pattern) (finest : Period) : Prop :=
  p.periods ≠ [] ∧ ∀ q ∈ p.periods, finest.priority ≤ q.priority

theorem ResolvesTo.agreesTo (hp : p.ResolvesTo finest) (h : t.AgreesTo u finest)
    {binding : Period × Frequency} (hbinding : binding ∈ p.bindings.entries) :
    t.AgreesTo u binding.1 :=
  h.mono (hp.2 _ (mem_periods hbinding))

theorem fieldHolds_congr {binding : Period × Frequency} (h : t.AgreesTo u binding.1) :
    fieldHolds o t binding = fieldHolds o u binding := by
  rw [fieldHolds, fieldHolds, Period.valueAt_eq_of_agreesTo h]

/-- Starts that agree are covered alike. -/
theorem covers_congr (hp : p.ResolvesTo finest) (h : t.AgreesTo u finest) :
    p.covers t = p.covers u := by
  rw [Bool.eq_iff_iff, covers_iff, covers_iff]
  exact forall₂_congr fun binding hbinding => by rw [fieldHolds_congr (hp.agreesTo h hbinding)]

/-! ## Passes -/

/-- **A first pass that has a field to move ends at one instant** from starts that agree, or gets stuck
from both. -/
theorem correct_congr (h : ∀ binding ∈ entries, t.AgreesTo u binding.1)
    (hfails : ∃ binding ∈ entries, ¬ fieldHolds o t binding = true) :
    (correct o entries t).toOption = (correct o entries u).toOption := by
  induction entries with
  | nil =>
      obtain ⟨binding, hbinding, -⟩ := hfails
      cases hbinding
  | cons head rest ih =>
      have hhead := h head List.mem_cons_self
      rw [correct, correct, ← fieldHolds_congr hhead, ← earliestEntry?_congr hhead]
      split
      · next hholds =>
          refine ih (fun binding hbinding => h binding (List.mem_cons_of_mem _ hbinding)) ?_
          obtain ⟨binding, hbinding, hnot⟩ := hfails
          rcases List.mem_cons.1 hbinding with rfl | hbinding
          · exact absurd hholds hnot
          · exact ⟨binding, hbinding, hnot⟩
      · split
        · rfl
        · rfl

theorem settle_congr (hp : p.ResolvesTo finest) (h : t.AgreesTo u finest)
    (hnot : ¬ p.covers t = true) (passes : Nat) :
    (p.settle passes t).instant? = (p.settle passes u).instant? := by
  have hnot' : ¬ p.covers u = true := covers_congr hp h ▸ hnot
  cases passes with
  | zero => rw [settle, settle, if_neg hnot, if_neg hnot']
  | succ passes =>
      have hpass := correct_congr (fun _ => hp.agreesTo h) (exists_not_fieldHolds hnot)
      rw [settle, settle, if_neg hnot, if_neg hnot']
      cases ht : correct p.options p.bindings.entries t with
      | error stuck =>
          cases hu : correct p.options p.bindings.entries u with
          | error stuck' => rfl
          | ok u' =>
              rw [ht, hu] at hpass
              cases hpass
      | ok t' =>
          cases hu : correct p.options p.bindings.entries u with
          | error stuck' =>
              rw [ht, hu] at hpass
              cases hpass
          | ok u' =>
              rw [ht, hu] at hpass
              cases hpass
              rfl

/-! ## Searches -/

/-- The smallest move is the same from starts that agree. -/
theorem stepPast?_congr (hp : p.ResolvesTo finest) (h : t.AgreesTo u finest) :
    p.stepPast? t = p.stepPast? u := by
  cases hlast : p.bindings.entries.getLast? with
  | none =>
      have hempty : p.periods = [] := congrArg (List.map Prod.fst) (List.getLast?_eq_none_iff.1 hlast)
      exact absurd hempty hp.1
  | some binding =>
      obtain ⟨q, f⟩ := binding
      rw [stepPast?_of_finest hlast, stepPast?_of_finest hlast]
      exact earliestEntry?_congr (hp.agreesTo h (List.mem_of_getLast? hlast))

theorem next_congr (hp : p.ResolvesTo finest) (h : t.AgreesTo u finest) (budget : Nat) :
    p.next t budget = p.next u budget := by
  rw [next, next, search, search, ← covers_congr hp h, ← stepPast?_congr hp h]
  split
  · rfl
  · next hnot => exact settle_congr hp h hnot (budget + 1)

end Pattern

namespace Schedule

variable {s : Schedule}

theorem search_congr (hs : ∀ p ∈ s.included, p.ResolvesTo finest) (h : t.AgreesTo u finest)
    (budget rounds : Nat) : s.search budget rounds t = s.search budget rounds u := by
  have hincludes : s.earliestInclude? t budget = s.earliestInclude? u budget :=
    congrArg List.min?
      (List.filterMap_congr fun p hp => Pattern.next_congr (hs p hp) h budget)
  cases rounds with
  | zero => rfl
  | succ rounds => rw [search, search, round?, round?, hincludes]

end Schedule

/-- **Parts of the start that are finer than the rule do not show in the result.**  Two instants that
agree down to a period, moments of a leap second included, are covered alike by every pattern that
binds nothing finer, and it has the same next instant after both, whatever the budget.  So has a
schedule whose including patterns bind nothing finer. -/
theorem Schedule.next_eq_of_agreesTo (t u : Instant) (finest : Period) (h : t.AgreesTo u finest) :
    (∀ p : Pattern, p.ResolvesTo finest →
      p.covers t = p.covers u ∧ ∀ budget, p.next t budget = p.next u budget) ∧
    ∀ s : Schedule, (∀ p ∈ s.included, p.ResolvesTo finest) →
      ∀ budget, s.next t budget = s.next u budget :=
  ⟨fun _ hp => ⟨Pattern.covers_congr hp h, Pattern.next_congr hp h⟩,
    fun _ hs budget => Schedule.search_congr hs h budget (budget + 1)⟩

/-- The middle of the second that the leap second of 2016 prolongs. -/
def Instant.beforeLeapSecond2016 : Instant :=
  ⟨leapSecond2016.date, (TimeOfDay.ofParts? 23 59 59 500000000).get (by decide)⟩

/-- The start of the second that a leap second in the middle of a minute prolongs. -/
def Instant.beforeLeapSecondMidMinute : Instant :=
  ⟨leapSecondMidMinute.date, (TimeOfDay.ofParts? 23 56 4 0).get (by decide)⟩

/-- The rule for every full minute. -/
def Pattern.fullMinutes : Pattern := ⟨⟨[(.second, .single 0)], by decide⟩, .standard⟩

/-- A leap second and the second that it prolongs are one second of the clock, whether it ends a minute or
not.  From the end of 2016 the next full minute is New Year, and a schedule of full minutes goes on alike,
although what it excludes depends on the milliseconds.  From a leap second in the middle of a minute, where
a move of the milliseconds stands still, the full minutes go on as from the second before it. -/
theorem Schedule.next_eq_of_agreesTo_leapSecond :
    Instant.AgreesTo Instant.beforeLeapSecond2016 Instant.leapSecond2016 .second ∧
      Pattern.fullMinutes.next Instant.leapSecond2016 0 =
        some (Instant.startOfDay ((Date.ofCivil? 2017 0 1).get (by decide))) ∧
      (∀ budget,
        Schedule.next ⟨[Pattern.fullMinutes], [.ofField .millisecond (.single 500) .standard]⟩
            Instant.beforeLeapSecond2016 budget =
          Schedule.next ⟨[Pattern.fullMinutes], [.ofField .millisecond (.single 500) .standard]⟩
            Instant.leapSecond2016 budget) ∧
      Instant.AgreesTo Instant.beforeLeapSecondMidMinute Instant.leapSecondMidMinute .second ∧
      ∀ budget,
        Schedule.next ⟨[Pattern.fullMinutes], [.ofField .millisecond (.single 500) .standard]⟩
            Instant.beforeLeapSecondMidMinute budget =
          Schedule.next ⟨[Pattern.fullMinutes], [.ofField .millisecond (.single 500) .standard]⟩
            Instant.leapSecondMidMinute budget := by
  have hagrees : Instant.AgreesTo Instant.beforeLeapSecond2016 Instant.leapSecond2016 .second :=
    ⟨rfl, fun _ => rfl, fun _ => rfl, fun _ => rfl, fun h => absurd h (by decide)⟩
  have hmiddle :
      Instant.AgreesTo Instant.beforeLeapSecondMidMinute Instant.leapSecondMidMinute .second :=
    ⟨rfl, fun _ => rfl, fun _ => rfl, fun _ => rfl, fun h => absurd h (by decide)⟩
  have hresolves : Pattern.fullMinutes.ResolvesTo .second := ⟨by decide, by decide⟩
  have hincluded : ∀ p ∈ [Pattern.fullMinutes], p.ResolvesTo .second := fun p hp => by
    rw [List.mem_singleton.1 hp]
    exact hresolves
  obtain ⟨hpattern, hschedule⟩ := next_eq_of_agreesTo _ _ _ hagrees
  refine ⟨hagrees, ?_, hschedule _ hincluded, hmiddle, (next_eq_of_agreesTo _ _ _ hmiddle).2 _ hincluded⟩
  rw [← (hpattern _ hresolves).2]
  decide +kernel

end Recurrence
