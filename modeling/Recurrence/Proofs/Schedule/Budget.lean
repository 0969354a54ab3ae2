import Mathlib.Data.List.Basic
import Recurrence.Proofs.Pattern.Sound
import Recurrence.Proofs.Schedule.Next

/-!
# The budget of a search

For a pattern the budget decides whether an instant is found and not which one.  A schedule searches
its patterns within each round, and the budget can cut a round short in two ways: **an including
pattern whose search is used up is left out of the earliest instant**, and **hops that are used up end
on an instant that is still excluded**, from which the next round goes on.  In both cases a search
may find an occurrence that is not the first one, and a larger budget another.

A **conclusive** search is one in which neither happens.  Its result does not depend on the budget.
With at most one including and one excluding pattern every search that finds something is
conclusive.

## Main Definitions

* `Schedule.ConclusiveRound`, `Schedule.Conclusive`: the budget has cut nothing short
* `Schedule.IsSimple`: at most one including and one excluding pattern
* `Schedule.BudgetDecides`: two budgets find different instants

## Main Statements

* `Schedule.hop_mono`, `Schedule.round?_mono`, `Schedule.search_mono`: more budget changes nothing
* `Schedule.IsSimple.conclusive`: simple schedules leave no room for it
* `Schedule.next_coherent`: conclusive searches find the same with every larger budget
* `Schedule.budgetDecides_cut_and_excluded`: other searches need not
-/

namespace Recurrence

namespace Schedule

/-- A round that the budget has not cut short: the search of each including pattern has come to an
end, and the hops have left the exclusions. -/
structure ConclusiveRound (s : Schedule) (budget : Nat) (t : Instant) : Prop where
  not_exhausted : ∀ p ∈ s.included, p.search t budget ≠ .exhausted
  not_excluded : ∀ r ∈ s.round? t budget, s.excludes r = false

instance (s : Schedule) (budget : Nat) (t : Instant) : Decidable (s.ConclusiveRound budget t) :=
  decidable_of_iff
    ((∀ p ∈ s.included, p.search t budget ≠ .exhausted) ∧
      ∀ r ∈ s.round? t budget, s.excludes r = false)
    ⟨fun h => ⟨h.1, h.2⟩, fun h => ⟨h.not_exhausted, h.not_excluded⟩⟩

/-- The rounds of a search, up to `rounds` of them, that the budget has not cut short. -/
def Conclusive (s : Schedule) (budget : Nat) : Nat → Instant → Prop
  | 0, _ => True
  | rounds + 1, t => s.ConclusiveRound budget t ∧
      ∀ r ∈ s.round? t budget, s.occurs r = false → Conclusive s budget rounds r

instance decidableConclusive (s : Schedule) (budget : Nat) :
    (rounds : Nat) → (t : Instant) → Decidable (s.Conclusive budget rounds t)
  | 0, _ => inferInstanceAs (Decidable True)
  | rounds + 1, t =>
    have := decidableConclusive s budget rounds
    inferInstanceAs (Decidable (s.ConclusiveRound budget t ∧
      ∀ r ∈ s.round? t budget, s.occurs r = false → s.Conclusive budget rounds r))

variable {s : Schedule} {t r : Instant} {budget larger : Nat}

/-! ## More budget -/

/-- Searches that have come to an end give the same earliest instant with a larger budget. -/
theorem earliestInclude?_eq (hle : budget ≤ larger)
    (h : ∀ p ∈ s.included, p.search t budget ≠ .exhausted) :
    s.earliestInclude? t larger = s.earliestInclude? t budget := by
  have hnext : ∀ p ∈ s.included, p.next t larger = p.next t budget := by
    intro p hp
    rw [Pattern.next, Pattern.next, Pattern.search_mono hle (h p hp)]
  rw [earliestInclude?, earliestInclude?, List.filterMap_congr hnext]

/-- No hop leads away from an instant that is not excluded. -/
theorem hop_of_not_excludes (h : s.excludes t = false) (budget hops : Nat) :
    s.hop budget hops t = some t := by
  cases hops with
  | zero => rfl
  | succ hops =>
      rw [hop, excluder?_eq_none.2 h]

/-- **Hops that have left the exclusions stay where they are with a larger budget**, and with more
hops. -/
theorem hop_mono (hle : budget ≤ larger) (hr : s.excludes r = false) {hops more : Nat}
    (hmore : hops ≤ more) (h : s.hop budget hops t = some r) : s.hop larger more t = some r := by
  induction hops generalizing t more with
  | zero =>
      cases h
      exact hop_of_not_excludes hr larger more
  | succ hops ih =>
      obtain ⟨more, rfl⟩ : ∃ n, more = n + 1 := ⟨more - 1, by omega⟩
      rw [hop] at h ⊢
      split at h
      · exact h
      · split at h
        · cases h
        · next c hafter =>
            simp only [Pattern.after_mono hle hafter]
            exact ih (Nat.le_of_succ_le_succ hmore) h

theorem round?_mono (hle : budget ≤ larger) (hround : s.ConclusiveRound budget t)
    (h : s.round? t budget = some r) : s.round? t larger = some r := by
  have hr := hround.not_excluded r h
  rw [round?, Option.bind_eq_some_iff] at h
  obtain ⟨y, hearliest, hskip⟩ := h
  rw [round?, earliestInclude?_eq hle hround.not_exhausted, hearliest, Option.bind_some]
  exact hop_mono hle hr (Nat.succ_le_succ hle) hskip

/-- **A conclusive search finds the same with a larger budget**, and with more rounds. -/
theorem search_mono (hle : budget ≤ larger) {rounds more : Nat} (hmore : rounds ≤ more)
    (hs : s.Conclusive budget rounds t) (h : s.search budget rounds t = some r) :
    s.search larger more t = some r := by
  induction rounds generalizing t more with
  | zero => cases h
  | succ rounds ih =>
      obtain ⟨more, rfl⟩ : ∃ n, more = n + 1 := ⟨more - 1, by omega⟩
      obtain ⟨hround, hrest⟩ := hs
      rw [search] at h ⊢
      split at h
      · cases h
      · next y hy =>
          simp only [round?_mono hle hround hy]
          split at h
          · next hoccurs =>
              rw [if_pos hoccurs]
              exact h
          · next hnot =>
              rw [if_neg hnot]
              exact ih (Nat.le_of_succ_le_succ hmore) (hrest y hy (Bool.eq_false_iff.2 hnot)) h

/-! ## Simple schedules -/

/-- At most one pattern includes, and at most one excludes. -/
structure IsSimple (s : Schedule) : Prop where
  included_eq : ∀ p ∈ s.included, ∀ q ∈ s.included, p = q
  excluded_eq : ∀ p ∈ s.excluded, ∀ q ∈ s.excluded, p = q

/-- One hop leaves the only exclusion. -/
theorem IsSimple.not_excludes_of_skipExcluded (hs : s.IsSimple)
    (h : s.skipExcluded t budget = some r) : s.excludes r = false := by
  rw [skipExcluded, hop] at h
  split at h
  · next hnone =>
      cases h
      exact excluder?_eq_none.1 hnone
  · next p hexcluder =>
      obtain ⟨hp, -⟩ := excluder?_eq_some hexcluder
      split at h
      · cases h
      · next c hafter =>
          have hc : s.excludes c = false := by
            rw [excludes_eq_false_iff]
            intro q hq
            rw [hs.excluded_eq q hq p hp]
            exact Bool.eq_false_iff.2 (Pattern.after_sound hafter).2
          rw [hop_of_not_excludes hc] at h
          cases h
          exact hc

theorem IsSimple.conclusiveRound (hs : s.IsSimple) (h : s.round? t budget = some r) :
    s.ConclusiveRound budget t := by
  have hround := h
  rw [round?, Option.bind_eq_some_iff] at h
  obtain ⟨y, hearliest, hskip⟩ := h
  constructor
  · intro p hp hexhausted
    rw [earliestInclude?, List.min?_eq_some_iff, List.mem_filterMap] at hearliest
    obtain ⟨⟨q, hq, hnext⟩, -⟩ := hearliest
    rw [hs.included_eq p hp q hq, Pattern.next_eq_some.1 hnext] at hexhausted
    cases hexhausted
  · intro x hx
    rw [hround] at hx
    cases hx
    exact hs.not_excludes_of_skipExcluded hskip

/-- **On a simple schedule a search that finds something is conclusive.** -/
theorem IsSimple.conclusive (hs : s.IsSimple) {rounds : Nat}
    (h : s.search budget rounds t = some r) : s.Conclusive budget rounds t := by
  induction rounds generalizing t with
  | zero => trivial
  | succ rounds ih =>
      rw [search] at h
      split at h
      · cases h
      · next y hround =>
          refine ⟨hs.conclusiveRound hround, fun x hx hnot => ?_⟩
          rw [hround] at hx
          cases hx
          rw [if_neg (Bool.eq_false_iff.1 hnot)] at h
          exact ih h

/-! ## The budget and the answer -/

/-- **The budget does not decide which instant is found**, for a pattern, for a conclusive search of a
schedule, and for every search of a simple schedule. -/
theorem next_coherent (t r : Instant) (budget larger : Nat) (hle : budget ≤ larger) :
    (∀ p : Pattern, p.next t budget = some r → p.next t larger = some r) ∧
    (∀ s : Schedule, s.Conclusive budget (budget + 1) t → s.next t budget = some r →
      s.next t larger = some r) ∧
    (∀ s : Schedule, s.IsSimple → s.next t budget = some r → s.next t larger = some r) := by
  have hconclusive : ∀ s : Schedule, s.Conclusive budget (budget + 1) t →
      s.next t budget = some r → s.next t larger = some r :=
    fun s hs h => search_mono hle (Nat.succ_le_succ hle) hs h
  exact ⟨fun p h => Pattern.next_mono hle h, hconclusive,
    fun s hs h => hconclusive s (hs.conclusive h) h⟩

/-- The 29th of February. -/
def leapDay : Pattern := ⟨⟨[(.month, .single 1), (.dayOfMonth, .single 29)], by decide⟩, .standard⟩

/-- The 29th of February and the year 2030. -/
def leapDayOr2030 : Schedule := ⟨[leapDay, ⟨⟨[(.year, .single 2030)], by decide⟩, .standard⟩], []⟩

/-- The beginning of the year 2023. -/
def startOf2023 : Instant := Instant.startOfDay ((Date.ofCivil? 2023 0 1).get (by decide))

/-- The 29th of February 2024. -/
def leapDay2024 : Instant := Instant.startOfDay ((Date.ofCivil? 2024 1 29).get (by decide))

/-- From the beginning of 2023 a budget of 1 is enough for a conclusive search for the 29th of February
or the year 2030, and a budget of 100 finds the same, as it does for the 29th of February alone. -/
theorem next_coherent_leapDay :
    leapDay.next startOf2023 100 = some leapDay2024 ∧
      leapDayOr2030.next startOf2023 100 = some leapDay2024 ∧
      Schedule.next ⟨[leapDay], []⟩ startOf2023 100 = some leapDay2024 := by
  obtain ⟨hpattern, hconclusive, hsimple⟩ :=
    next_coherent startOf2023 leapDay2024 1 100 (by decide)
  have hone : IsSimple ⟨[leapDay], []⟩ :=
    ⟨fun p hp q hq => by rw [List.mem_singleton.1 hp, List.mem_singleton.1 hq],
      fun p hp => absurd hp List.not_mem_nil⟩
  refine ⟨hpattern leapDay (by decide +kernel), ?_, hsimple _ hone (by decide +kernel)⟩
  exact hconclusive leapDayOr2030 (by decide +kernel) (by decide +kernel)

/-- Two budgets with which searches from `t` find different instants. -/
structure BudgetDecides (s : Schedule) (t : Instant) (budget larger : Nat) (r r' : Instant) :
    Prop where
  le : budget ≤ larger
  found : s.next t budget = some r
  found_larger : s.next t larger = some r'
  ne : r ≠ r'

/-- The hour 9 without its first half, of which the last ten minutes are excluded on the first of a
month only. -/
def nineWithoutFirstHalf : Schedule :=
  ⟨[⟨⟨[(.hour, .single 9)], by decide⟩, .standard⟩],
    [⟨⟨[(.minute, ⟨.ranges [(0, 9)], by decide, by decide, by decide⟩)], by decide⟩, .standard⟩,
      ⟨⟨[(.minute, ⟨.ranges [(10, 19)], by decide, by decide, by decide⟩)], by decide⟩, .standard⟩,
      ⟨⟨[(.dayOfMonth, .single 1),
        (.minute, ⟨.ranges [(20, 29)], by decide, by decide, by decide⟩)], by decide⟩,
        .standard⟩]⟩

/-- **The budget may decide which instant is found.**  The year 2030 is found from 2023 when the
search for the 29th of February is cut short, and 29 February 2024 when it is not.  Two hops end
within the third exclusion of 1 January 2024, so that the next round goes on to 9:20 of the next day;
three hops end at 9:30. -/
theorem budgetDecides_cut_and_excluded :
    leapDayOr2030.BudgetDecides startOf2023 0 1
      (Instant.startOfDay ((Date.ofCivil? 2030 0 1).get (by decide))) leapDay2024 ∧
    nineWithoutFirstHalf.BudgetDecides
      ⟨(Date.ofCivil? 2024 0 1).get (by decide), (TimeOfDay.ofParts? 8 0 0 0).get (by decide)⟩ 1 2
      ⟨(Date.ofCivil? 2024 0 2).get (by decide), (TimeOfDay.ofParts? 9 20 0 0).get (by decide)⟩
      ⟨(Date.ofCivil? 2024 0 1).get (by decide), (TimeOfDay.ofParts? 9 30 0 0).get (by decide)⟩ :=
  ⟨⟨by decide, by decide +kernel, by decide +kernel, by decide⟩,
    ⟨by decide, by decide +kernel, by decide +kernel, by decide⟩⟩

end Schedule

end Recurrence
