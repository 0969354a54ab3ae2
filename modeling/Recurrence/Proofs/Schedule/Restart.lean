import Recurrence.Proofs.Pattern.Restart
import Recurrence.Proofs.Schedule.Next

/-!
# Searches of a schedule from a later start

Asked again from between a start and the occurrence found, a search finds the same occurrence, as
long as some including pattern has an instant upcoming at or before it.  That is so from every start
that nothing includes.  **It fails within a run of an including pattern that leads up to the
occurrence**: the search leaves the run, even if an exclusion covers the start.  It also fails where
an exclusion is left too late, because its frequency accepts more values in a row than the search
looks through.

## Main Statements

* `Schedule.next_restart`: the occurrence found from a later start
* `Schedule.restartFails_run_and_horizon`: the two ways in which a later start leads elsewhere
-/

namespace Recurrence

namespace Schedule

variable {s : Schedule} {t t' m r x a : Instant}

/-- What is reachable from a later start is reachable from an earlier one. -/
theorem Reachable.of_le (ht : t.IsOrdinary) (ht' : t'.IsOrdinary) (htt' : t ≤ t')
    (h : s.Reachable t' x) : s.Reachable t x := by
  obtain ⟨hx, hoccurs, p, hp, m, hm, hmx⟩ := h
  exact ⟨hx, hoccurs, p, hp, m, hm.of_le ht ht' htt', hmx⟩

/-! ## One round -/

/-- A schedule of one including and one excluding pattern finds with any larger budget what one
round with one hop finds. -/
theorem next_of_one_hop {p q : Pattern} {budget larger : Nat} (hnext : p.next t budget = some a)
    (hafter : q.after a budget = some r) (hcovers : p.covers r = true) (hnot : ¬ q.covers r = true)
    (hle : budget ≤ larger) (hpos : 0 < larger) :
    Schedule.next ⟨[p], [q]⟩ t larger = some r := by
  have hearliest : earliestInclude? ⟨[p], [q]⟩ t larger = some a := by
    show ([p].filterMap fun p => p.next t larger).min? = some a
    rw [List.filterMap_cons, Pattern.next_mono hle hnext]
    rfl
  have hfree : excluder? ⟨[p], [q]⟩ r = none := by
    rw [excluder?, List.find?_eq_none]
    intro q' hq'
    rw [List.mem_singleton.1 hq']
    exact hnot
  have hhop : hop ⟨[p], [q]⟩ larger (larger + 1) a = some r := by
    rw [hop]
    by_cases hexcluded : q.covers a = true
    · have hexcluder : excluder? ⟨[p], [q]⟩ a = some q := List.find?_cons_of_pos hexcluded
      obtain ⟨hops, rfl⟩ := Nat.exists_eq_succ_of_ne_zero (Nat.ne_of_gt hpos)
      simp only [hexcluder, Pattern.after_mono hle hafter]
      rw [hop]
      simp only [hfree]
    · -- without a hop the end of the round is the included instant
      rw [Pattern.after_self hexcluded] at hafter
      cases hafter
      simp only [hfree]
  have hoccurs : occurs ⟨[p], [q]⟩ r = true := by
    rw [occurs_iff, includes_iff]
    exact ⟨⟨p, List.mem_cons_self, hcovers⟩, excluder?_eq_none.1 hfree⟩
  rw [next, search, round?, hearliest, Option.bind_some, skipExcluded, hhop]
  simp only [hoccurs, if_true]

/-! ## A later start -/

/-- **A search from a later start finds the same occurrence** if at or before it an instant of some
including pattern is upcoming from there. -/
theorem next_restart (s : Schedule) (hs : s.Searchable) (t t' r : Instant) (ht : t.IsOrdinary)
    (ht' : t'.IsOrdinary) (htt' : t < t')
    (hnext : ∃ enough, ∀ budget, enough ≤ budget → s.next t budget = some r)
    (hupcoming : ∃ p ∈ s.included, ∃ m, p.Upcoming t' m ∧ m ≤ r) :
    ∃ enough, ∀ budget, enough ≤ budget → s.next t' budget = some r := by
  obtain ⟨enough, hnext⟩ := hnext
  have hleast := isLeast_of_next_eventually hs ht hnext
  refine next_of_isLeast hs ht' ⟨⟨hleast.1.1, hleast.1.2.1, hupcoming⟩, fun x hx => ?_⟩
  exact hleast.2 (hx.of_le ht ht' htt'.le)

/-- The minutes of the hour 9, without the first half of each hour. -/
def minutesOfNine : Schedule :=
  ⟨[⟨⟨[(.hour, .single 9), (.minute, ⟨.ranges [(0, 59)], by decide, by decide, by decide⟩)],
      by decide⟩, .standard⟩],
    [⟨⟨[(.minute, ⟨.ranges [(0, 29)], by decide, by decide, by decide⟩)], by decide⟩, .standard⟩]⟩

/-- From 9:10, which is included and excluded, 9:30 is found as from 8:00.  The minute 9:11 is upcoming
from there. -/
theorem next_restart_half :
    minutesOfNine.includes
        ⟨(Date.ofCivil? 2024 0 1).get (by decide), (TimeOfDay.ofParts? 9 10 0 0).get (by decide)⟩ =
      true ∧
    ∃ enough, ∀ budget, enough ≤ budget →
      minutesOfNine.next
        ⟨(Date.ofCivil? 2024 0 1).get (by decide), (TimeOfDay.ofParts? 9 10 0 0).get (by decide)⟩
        budget =
      some
        ⟨(Date.ofCivil? 2024 0 1).get (by decide), (TimeOfDay.ofParts? 9 30 0 0).get (by decide)⟩ := by
  refine ⟨by decide, next_restart minutesOfNine ⟨fun p hp hweek => ?_, fun p hp hweek => ?_,
    fun p hp binding hbinding hcount => ?_⟩
    ⟨(Date.ofCivil? 2024 0 1).get (by decide), (TimeOfDay.ofParts? 8 0 0 0).get (by decide)⟩
    _ _ (by decide) (by decide) (by decide) ⟨4, fun budget hle => ?_⟩ ?_⟩
  · rw [List.mem_singleton.1 hp] at hweek
    exact absurd hweek (by decide)
  · rw [List.mem_singleton.1 hp] at hweek
    exact absurd hweek (by decide)
  · rw [List.mem_singleton.1 hp] at hbinding
    rw [List.mem_singleton.1 hbinding] at hcount
    exact absurd hcount (by decide)
  · exact @next_of_one_hop _ _
      ⟨(Date.ofCivil? 2024 0 1).get (by decide), (TimeOfDay.ofParts? 9 0 0 0).get (by decide)⟩
      _ _ 3 budget (by decide +kernel) (by decide +kernel) (by decide) (by decide) (by omega)
      (by omega)
  · refine ⟨_, List.mem_cons_self,
      ⟨(Date.ofCivil? 2024 0 1).get (by decide), (TimeOfDay.ofParts? 9 11 0 0).get (by decide)⟩,
      ⟨by decide, by decide, by decide, fun _ => ?_⟩, by decide⟩
    rw [Pattern.leavesRun_of_finest rfl]
    intro hsteady
    exact absurd (hsteady _ (by decide) (by decide) le_rfl) (by decide)

/-! ## Starts that lead elsewhere -/

/-- A search from `t` finds `r` with every budget that suffices, and a search from `t'` does not,
although `t'` lies between the two and does not occur on the schedule itself. -/
structure RestartFails (s : Schedule) (t t' r : Instant) : Prop where
  isOrdinary_start : t.IsOrdinary
  isOrdinary_later : t'.IsOrdinary
  start_lt : t < t'
  lt_found : t' < r
  not_occurs : s.occurs t' = false
  found : ∃ enough, ∀ budget, enough ≤ budget → s.next t budget = some r
  missed : ¬ ∃ enough, ∀ budget, enough ≤ budget → s.next t' budget = some r

theorem RestartFails.of_one_hop {p q : Pattern} {budget : Nat} {a' r' : Instant}
    (ht : t.IsOrdinary) (ht' : t'.IsOrdinary) (htt' : t < t') (ht'r : t' < r)
    (hnot : occurs ⟨[p], [q]⟩ t' = false) (hnext : p.next t budget = some a)
    (hafter : q.after a budget = some r) (hr : p.covers r = true ∧ ¬ q.covers r = true)
    (hnext' : p.next t' budget = some a') (hafter' : q.after a' budget = some r')
    (hr' : p.covers r' = true ∧ ¬ q.covers r' = true) (hne : r' ≠ r) :
    RestartFails ⟨[p], [q]⟩ t t' r where
  isOrdinary_start := ht
  isOrdinary_later := ht'
  start_lt := htt'
  lt_found := ht'r
  not_occurs := hnot
  found := ⟨budget + 1, fun larger hle =>
    next_of_one_hop hnext hafter hr.1 hr.2 (Nat.le_of_succ_le hle) (Nat.zero_lt_of_lt hle)⟩
  missed := by
    rintro ⟨enough, h⟩
    have hfound := h (enough + (budget + 1)) (Nat.le_add_right _ _)
    rw [next_of_one_hop hnext' hafter' hr'.1 hr'.2 (by omega) (by omega)] at hfound
    exact hne (Option.some.inj hfound)

/-- **A later start may lead elsewhere.**  On a schedule that includes the hour 9 and excludes the
first half of each hour, a search finds 9:30 from 8:00, but the 9:30 of the next day from 9:10.  On
one that includes the first day of a year and excludes the decades 200 to 399 within the years 2000
to 3500, a search from 1999 finds the year 4000, since the exclusion looks no more than a thousand
years ahead, and a search from 3600 finds 3601. -/
theorem restartFails_run_and_horizon :
    RestartFails
      ⟨[⟨⟨[(.hour, .single 9)], by decide⟩, .standard⟩],
        [⟨⟨[(.minute, ⟨.ranges [(0, 29)], by decide, by decide, by decide⟩)], by decide⟩,
          .standard⟩]⟩
      ⟨(Date.ofCivil? 2024 0 1).get (by decide), (TimeOfDay.ofParts? 8 0 0 0).get (by decide)⟩
      ⟨(Date.ofCivil? 2024 0 1).get (by decide), (TimeOfDay.ofParts? 9 10 0 0).get (by decide)⟩
      ⟨(Date.ofCivil? 2024 0 1).get (by decide), (TimeOfDay.ofParts? 9 30 0 0).get (by decide)⟩ ∧
    RestartFails
      ⟨[⟨⟨[(.dayOfYear, .single 1)], by decide⟩, .standard⟩],
        [⟨⟨[(.decade, ⟨.ranges [(200, 399)], by decide, by decide, by decide⟩),
          (.year, ⟨.ranges [(2000, 3500)], by decide, by decide, by decide⟩)], by decide⟩,
          .standard⟩]⟩
      (Instant.startOfDay ((Date.ofCivil? 1999 5 1).get (by decide)))
      (Instant.startOfDay ((Date.ofCivil? 3600 5 1).get (by decide)))
      (Instant.startOfDay ((Date.ofCivil? 4000 0 1).get (by decide))) :=
  ⟨@RestartFails.of_one_hop _ _ _
      ⟨(Date.ofCivil? 2024 0 1).get (by decide), (TimeOfDay.ofParts? 9 0 0 0).get (by decide)⟩
      _ _ 3
      ⟨(Date.ofCivil? 2024 0 2).get (by decide), (TimeOfDay.ofParts? 9 0 0 0).get (by decide)⟩
      ⟨(Date.ofCivil? 2024 0 2).get (by decide), (TimeOfDay.ofParts? 9 30 0 0).get (by decide)⟩
      (by decide) (by decide) (by decide) (by decide) (by decide)
      (by decide +kernel) (by decide +kernel) (by decide) (by decide +kernel) (by decide +kernel)
      (by decide) (by decide),
    @RestartFails.of_one_hop _ _ _ (Instant.startOfDay ((Date.ofCivil? 2000 0 1).get (by decide)))
      _ _ 3
      (Instant.startOfDay ((Date.ofCivil? 3601 0 1).get (by decide)))
      (Instant.startOfDay ((Date.ofCivil? 3601 0 1).get (by decide)))
      (by decide) (by decide) (by decide) (by decide) (by decide)
      (by decide +kernel) (by decide +kernel) (by decide) (by decide +kernel) (by decide +kernel)
      (by decide) (by decide)⟩

end Schedule

end Recurrence
