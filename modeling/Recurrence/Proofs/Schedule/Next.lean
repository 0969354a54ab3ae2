import Recurrence.Proofs.Pattern.After
import Recurrence.Schedule.Search

/-!
# The next occurrence of a schedule

A round goes to the earliest next instant of the including patterns and from there past the
exclusions.  It may end on an instant that nothing includes, from which the next round starts anew.
The occurrences a search can come to are the **reachable** ones: those at or after an upcoming
instant of some including pattern.  **A round passes over none of them**, since the exclusions are
not overshot, and an occurrence that is reachable from the end of a round is reachable from its
start.  So a search with a budget that suffices finds the first reachable occurrence.

From a start that nothing includes every later occurrence is reachable.

## Main Definitions

* `Schedule.Searchable`: the conditions on the patterns of a schedule
* `Schedule.Reachable`: the occurrences a search can come to

## Main Statements

* `Schedule.exists_hop_le`, `Schedule.exists_round?_le`: hops and rounds pass over no occurrence
* `Schedule.reachable_of_search`, `Schedule.search_of_isLeast`
* `Schedule.next_exact_of_outside`: a search from outside finds the first later occurrence
-/

namespace Recurrence

namespace Schedule

/-- The conditions on the patterns of a schedule: week numbers lie in their domain, and exclusions
leave their centuries, decades and years. -/
structure Searchable (s : Schedule) : Prop where
  included_weeks : ∀ p ∈ s.included, p.WeeksInDomain
  excluded_weeks : ∀ p ∈ s.excluded, p.WeeksInDomain
  excluded_counts : ∀ p ∈ s.excluded, p.LeavesCounts

/-- The occurrences at or after an upcoming instant of some pattern that includes. -/
def Reachable (s : Schedule) (t x : Instant) : Prop :=
  x.IsOrdinary ∧ s.occurs x = true ∧ ∃ p ∈ s.included, ∃ m, p.Upcoming t m ∧ m ≤ x

variable {s : Schedule} {t m x y r : Instant} {budget : Nat}

theorem occurs_iff : s.occurs x = true ↔ s.includes x = true ∧ s.excludes x = false := by
  rw [occurs, Bool.and_eq_true, Bool.not_eq_true']

theorem includes_iff : s.includes x = true ↔ ∃ p ∈ s.included, p.covers x = true :=
  List.any_eq_true

theorem excludes_iff : s.excludes x = true ↔ ∃ p ∈ s.excluded, p.covers x = true :=
  List.any_eq_true

theorem excludes_eq_false_iff : s.excludes x = false ↔ ∀ p ∈ s.excluded, p.covers x = false := by
  simp only [excludes, List.any_eq_false, Bool.not_eq_true]

theorem Reachable.lt (h : s.Reachable t x) : t < x := by
  obtain ⟨-, -, p, -, m, hm, hmx⟩ := h
  exact hm.2.1.trans_le hmx

/-! ## The earliest included instant -/

theorem earliestInclude?_spec (hs : s.Searchable) (ht : t.IsOrdinary)
    (h : s.earliestInclude? t budget = some y) : ∃ p ∈ s.included, p.Upcoming t y := by
  rw [earliestInclude?, List.min?_eq_some_iff, List.mem_filterMap] at h
  obtain ⟨⟨p, hp, hnext⟩, -⟩ := h
  exact ⟨p, hp, (Pattern.next_isLeast (hs.included_weeks p hp) ht hnext).1⟩

/-- With a budget that suffices, the earliest included instant is at most any upcoming one. -/
theorem exists_earliestInclude?_le (hs : s.Searchable) (ht : t.IsOrdinary) {p : Pattern}
    (hp : p ∈ s.included) (hm : p.Upcoming t m) (hbudget : m.rank - t.rank ≤ budget) :
    ∃ y, s.earliestInclude? t budget = some y ∧ y ≤ m := by
  have hweeks := hs.included_weeks p hp
  obtain ⟨r, hr⟩ := Pattern.exists_next hweeks ht hm hbudget
  have hrm : r ≤ m := (Pattern.next_isLeast hweeks ht hr).2 hm
  have hmem : r ∈ s.included.filterMap fun p => p.next t budget :=
    List.mem_filterMap.2 ⟨p, hp, hr⟩
  obtain ⟨y, hy, hyr⟩ := Instant.exists_min?_le hmem
  exact ⟨y, hy, hyr.trans hrm⟩

/-! ## Hops past the exclusions -/

theorem excluder?_eq_none : s.excluder? t = none ↔ s.excludes t = false := by
  simp only [excluder?, List.find?_eq_none, excludes_eq_false_iff, Bool.not_eq_true]

theorem excluder?_eq_some {p : Pattern} (h : s.excluder? t = some p) :
    p ∈ s.excluded ∧ p.covers t = true :=
  ⟨List.mem_of_find?_eq_some h, List.find?_some (p := fun p : Pattern => p.covers t) h⟩

/-- Hops lead forward. -/
theorem hop_spec (hs : s.Searchable) (ht : t.IsOrdinary) {hops : Nat}
    (h : s.hop budget hops t = some r) : r.IsOrdinary ∧ t ≤ r := by
  induction hops generalizing t with
  | zero =>
      cases h
      exact ⟨ht, le_rfl⟩
  | succ hops ih =>
      rw [hop] at h
      split at h
      · cases h
        exact ⟨ht, le_rfl⟩
      · next p hexcluder =>
          obtain ⟨hp, -⟩ := excluder?_eq_some hexcluder
          split at h
          · cases h
          · next c hafter =>
              obtain ⟨⟨hc, htc, -⟩, -⟩ := Pattern.after_isLeast (hs.excluded_weeks p hp)
                (hs.excluded_counts p hp) ht hafter
              obtain ⟨hr, hcr⟩ := ih hc h
              exact ⟨hr, htc.trans hcr⟩

/-- **Hops do not pass over an instant that is not excluded**, and with a budget that suffices they
end on such an instant. -/
theorem exists_hop_le (hs : s.Searchable) (ht : t.IsOrdinary) (hx : x.IsOrdinary) (htx : t ≤ x)
    (hexcludes : s.excludes x = false) {hops : Nat} (hhops : x.rank - t.rank ≤ hops)
    (hbudget : x.rank - t.rank ≤ budget) :
    ∃ r, s.hop budget hops t = some r ∧ r ≤ x ∧ s.excludes r = false := by
  induction hops generalizing t with
  | zero =>
      have hxt : x ≤ t := by
        rw [Instant.le_iff_rank_le]
        omega
      have heq : t = x := le_antisymm htx hxt
      subst heq
      exact ⟨t, rfl, le_rfl, hexcludes⟩
  | succ hops ih =>
      rw [hop]
      cases hexcluder : s.excluder? t with
      | none => exact ⟨t, rfl, htx, excluder?_eq_none.1 hexcluder⟩
      | some p =>
          obtain ⟨hp, hcovers⟩ := excluder?_eq_some hexcluder
          have hweeks := hs.excluded_weeks p hp
          have hcounts := hs.excluded_counts p hp
          have hnot : ¬ p.covers x = true := by
            intro hcoversx
            rw [excludes_iff.2 ⟨p, hp, hcoversx⟩] at hexcludes
            cases hexcludes
          obtain ⟨c, hafter⟩ := Pattern.exists_after hweeks hcounts ht hx htx hnot hbudget
          obtain ⟨⟨hc, htc, hcnot⟩, hleast⟩ := Pattern.after_isLeast hweeks hcounts ht hafter
          -- the hop ends outside the pattern that covers `t`, hence not at `t`
          have hlt : t < c := lt_of_le_of_ne htc fun heq => hcnot (heq ▸ hcovers)
          have hrank := Instant.lt_iff_rank_lt.1 hlt
          simp only [hafter]
          exact ih hc (hleast ⟨hx, htx, hnot⟩) (by omega) (by omega)

/-! ## Rounds -/

/-- A round ends at or after an upcoming instant. -/
theorem round?_spec (hs : s.Searchable) (ht : t.IsOrdinary) (h : s.round? t budget = some r) :
    r.IsOrdinary ∧ ∃ p ∈ s.included, ∃ m, p.Upcoming t m ∧ m ≤ r := by
  rw [round?, Option.bind_eq_some_iff] at h
  obtain ⟨y, hearliest, hskip⟩ := h
  obtain ⟨p, hp, hy⟩ := earliestInclude?_spec hs ht hearliest
  obtain ⟨hr, hyr⟩ := hop_spec hs hy.1 hskip
  exact ⟨hr, p, hp, y, hy, hyr⟩

/-- **A round does not pass over a reachable occurrence**, and with a budget that suffices it ends
on an instant that is not excluded. -/
theorem exists_round?_le (hs : s.Searchable) (ht : t.IsOrdinary) (hx : s.Reachable t x)
    (hbudget : x.rank - t.rank ≤ budget) :
    ∃ r, s.round? t budget = some r ∧ r ≤ x ∧ s.excludes r = false := by
  obtain ⟨hordinary, hoccurs, p, hp, m, hm, hmx⟩ := hx
  have hmrank := Instant.le_iff_rank_le.1 hmx
  obtain ⟨y, hearliest, hym⟩ := @exists_earliestInclude?_le s t m budget hs ht p hp hm (by omega)
  obtain ⟨q, hq, hy⟩ := earliestInclude?_spec hs ht hearliest
  have hty := Instant.lt_iff_rank_lt.1 hy.2.1
  obtain ⟨r, hhop, hrx, hexcludes⟩ := @exists_hop_le s y x budget hs hy.1 hordinary
    (hym.trans hmx) (occurs_iff.1 hoccurs).2 (budget + 1) (by omega) (by omega)
  refine ⟨r, ?_, hrx, hexcludes⟩
  rw [round?, hearliest, Option.bind_some, skipExcluded, hhop]

/-- What is reachable from the end of a round is reachable from its start. -/
theorem Reachable.of_round? (hs : s.Searchable) (ht : t.IsOrdinary)
    (hround : s.round? t budget = some y) (hx : s.Reachable y x) : s.Reachable t x := by
  obtain ⟨-, p, hp, m, hm, hmy⟩ := round?_spec hs ht hround
  exact ⟨hx.1, hx.2.1, p, hp, m, hm, hmy.trans hx.lt.le⟩

/-- From an instant that nothing includes every later occurrence is reachable. -/
theorem reachable_of_not_includes (hnot : s.includes t = false) (hx : x.IsOrdinary) (htx : t < x)
    (hoccurs : s.occurs x = true) : s.Reachable t x := by
  obtain ⟨p, hp, hcovers⟩ := includes_iff.1 (occurs_iff.1 hoccurs).1
  refine ⟨hx, hoccurs, p, hp, x, ⟨hx, htx, hcovers, fun hcoverst => ?_⟩, le_rfl⟩
  rw [includes_iff.2 ⟨p, hp, hcoverst⟩] at hnot
  cases hnot

/-! ## The search -/

/-- What a search finds is reachable. -/
theorem reachable_of_search (hs : s.Searchable) (ht : t.IsOrdinary) {rounds : Nat}
    (h : s.search budget rounds t = some r) : s.Reachable t r := by
  induction rounds generalizing t with
  | zero => cases h
  | succ rounds ih =>
      rw [search] at h
      split at h
      · cases h
      · next y hround =>
          obtain ⟨hy, hupcoming⟩ := round?_spec hs ht hround
          split at h
          · next hoccurs =>
              cases h
              exact ⟨hy, hoccurs, hupcoming⟩
          · exact (ih hy h).of_round? hs ht hround

/-- **A search finds the first reachable occurrence** when the budget allows for the instants on the
way to it. -/
theorem search_of_isLeast (hs : s.Searchable) (ht : t.IsOrdinary)
    (hleast : IsLeast {x | s.Reachable t x} x) {rounds : Nat} (hrounds : x.rank - t.rank ≤ rounds)
    (hbudget : x.rank - t.rank ≤ budget) : s.search budget rounds t = some x := by
  induction rounds generalizing t with
  | zero =>
      have := Instant.lt_iff_rank_lt.1 hleast.1.lt
      omega
  | succ rounds ih =>
      obtain ⟨y, hround, hyx, hexcludes⟩ := exists_round?_le hs ht hleast.1 hbudget
      obtain ⟨hy, hupcoming⟩ := round?_spec hs ht hround
      rw [search]
      simp only [hround]
      split
      · next hoccurs =>
          have hxy : x ≤ y := hleast.2 ⟨hy, hoccurs, hupcoming⟩
          rw [le_antisymm hyx hxy]
      · next hnot =>
          -- the round has left every including pattern, so `x` is still ahead
          have hincludes : s.includes y = false := by
            rw [Bool.eq_false_iff]
            exact fun hincludes => hnot (occurs_iff.2 ⟨hincludes, hexcludes⟩)
          have hlt : y < x := lt_of_le_of_ne hyx fun heq => hnot (heq ▸ hleast.1.2.1)
          have hreach := reachable_of_not_includes hincludes hleast.1.1 hlt hleast.1.2.1
          obtain ⟨p, hp, m, hm, hmy⟩ := hupcoming
          have hty := Instant.lt_iff_rank_lt.1 (hm.2.1.trans_le hmy)
          refine ih hy ⟨hreach, fun z hz => ?_⟩ (by omega) (by omega)
          exact hleast.2 (Reachable.of_round? hs ht hround hz)

/-- Among the reachable occurrences there is a first one, if there is one at all. -/
theorem exists_isLeast_reachable (h : ∃ x, s.Reachable t x) :
    ∃ x, IsLeast {x | s.Reachable t x} x := by
  obtain ⟨x, hx⟩ := h
  obtain ⟨n, ⟨y, hy, rfl⟩, hleast⟩ :=
    @Int.exists_least_of_bdd (fun n => ∃ y, s.Reachable t y ∧ y.rank = n)
      ⟨t.rank, fun _ ⟨y, hy, hn⟩ => hn ▸ (Instant.lt_iff_rank_lt.1 hy.lt).le⟩ ⟨x.rank, x, hx, rfl⟩
  exact ⟨y, hy, fun z hz => Instant.le_iff_rank_le.2 (hleast _ ⟨z, hz, rfl⟩)⟩

/-- With every budget that suffices, a search finds the first reachable occurrence. -/
theorem next_of_isLeast (hs : s.Searchable) (ht : t.IsOrdinary)
    (hleast : IsLeast {x | s.Reachable t x} r) :
    ∃ enough, ∀ budget, enough ≤ budget → s.next t budget = some r := by
  refine ⟨(r.rank - t.rank).toNat, fun budget hbudget => ?_⟩
  exact search_of_isLeast hs ht hleast (by omega) (by omega)

/-- What a search finds with a budget that allows for the instants on the way is the first reachable
occurrence. -/
theorem isLeast_of_next (hs : s.Searchable) (ht : t.IsOrdinary) (h : s.next t budget = some r)
    (hbudget : r.rank - t.rank ≤ budget) : IsLeast {x | s.Reachable t x} r := by
  have hreach : s.Reachable t r := reachable_of_search hs ht h
  obtain ⟨x, hx⟩ := exists_isLeast_reachable ⟨r, hreach⟩
  have hxr := Instant.le_iff_rank_le.1 (hx.2 hreach)
  have hsearch := @search_of_isLeast s t x budget hs ht hx (budget + 1) (by omega) (by omega)
  rw [next, hsearch] at h
  cases h
  exact hx

/-- What a search finds with every budget that suffices is the first reachable occurrence. -/
theorem isLeast_of_next_eventually (hs : s.Searchable) (ht : t.IsOrdinary) {enough : Nat}
    (h : ∀ budget, enough ≤ budget → s.next t budget = some r) :
    IsLeast {x | s.Reachable t x} r := by
  refine isLeast_of_next hs ht (h (max enough (r.rank - t.rank).toNat) (le_max_left _ _)) ?_
  have := le_max_right enough (r.rank - t.rank).toNat
  omega

/-- **A search from a start that nothing includes finds the first later occurrence** with every
budget that suffices, and finds nothing if there is none. -/
theorem next_exact_of_outside (s : Schedule) (hs : s.Searchable) (t : Instant)
    (ht : t.IsOrdinary) (hout : ∀ p ∈ s.included, p.covers t = false) :
    ((∃ m : Instant, m.IsOrdinary ∧ t < m ∧ s.occurs m = true) →
      ∃ r, IsLeast {m : Instant | m.IsOrdinary ∧ t < m ∧ s.occurs m = true} r ∧
        ∃ enough, ∀ budget, enough ≤ budget → s.next t budget = some r) ∧
    ((∀ m : Instant, m.IsOrdinary → t < m → s.occurs m = false) →
      ∀ budget, s.next t budget = none) := by
  have hnot : s.includes t = false := by
    rw [Bool.eq_false_iff, Ne, includes_iff]
    rintro ⟨p, hp, hcovers⟩
    rw [hout p hp] at hcovers
    cases hcovers
  have hset : {m : Instant | m.IsOrdinary ∧ t < m ∧ s.occurs m = true} = {x | s.Reachable t x} := by
    ext m
    constructor
    · rintro ⟨hm, htm, hoccurs⟩
      exact reachable_of_not_includes hnot hm htm hoccurs
    · intro hm
      exact ⟨hm.1, hm.lt, hm.2.1⟩
  rw [hset]
  constructor
  · rintro ⟨m, hm⟩
    have hreach : m ∈ {x | s.Reachable t x} := hset ▸ hm
    obtain ⟨r, hr⟩ := exists_isLeast_reachable ⟨m, hreach⟩
    exact ⟨r, hr, next_of_isLeast hs ht hr⟩
  · intro hnone budget
    rw [Option.eq_none_iff_forall_ne_some]
    intro r hr
    have hreach := reachable_of_search hs ht hr
    have hoccurs := hnone r hreach.1 hreach.lt
    rw [hreach.2.1] at hoccurs
    cases hoccurs

/-- After 2023 the 29th of February that is not in 2024 comes, for every budget that suffices. -/
theorem next_exact_of_outside_leapDay :
    ∃ r, IsLeast {m : Instant | m.IsOrdinary ∧
        Instant.startOfDay ((Date.ofCivil? 2023 0 1).get (by decide)) < m ∧
        Schedule.occurs
          ⟨[⟨⟨[(.month, .single 1), (.dayOfMonth, .single 29)], by decide⟩, .standard⟩],
            [⟨⟨[(.year, .single 2024)], by decide⟩, .standard⟩]⟩ m = true} r ∧
      ∃ enough, ∀ budget, enough ≤ budget →
        Schedule.next
          ⟨[⟨⟨[(.month, .single 1), (.dayOfMonth, .single 29)], by decide⟩, .standard⟩],
            [⟨⟨[(.year, .single 2024)], by decide⟩, .standard⟩]⟩
          (Instant.startOfDay ((Date.ofCivil? 2023 0 1).get (by decide))) budget = some r :=
  (next_exact_of_outside
    ⟨[⟨⟨[(.month, .single 1), (.dayOfMonth, .single 29)], by decide⟩, .standard⟩],
      [⟨⟨[(.year, .single 2024)], by decide⟩, .standard⟩]⟩
    ⟨fun p hp hweek => by
        rw [List.mem_singleton.1 hp] at hweek
        exact absurd hweek (by decide),
      fun p hp hweek => by
        rw [List.mem_singleton.1 hp] at hweek
        exact absurd hweek (by decide),
      fun p hp binding hbinding _ => by
        rw [List.mem_singleton.1 hp] at hbinding
        rw [List.mem_singleton.1 hbinding]
        exact Frequency.leavesWithin_single (by decide) 2024⟩
    (Instant.startOfDay ((Date.ofCivil? 2023 0 1).get (by decide))) (by decide)
    (by decide)).1
    ⟨Instant.startOfDay ((Date.ofCivil? 2028 1 29).get (by decide)), by decide, by decide, by decide⟩

end Schedule

end Recurrence
