import Recurrence.Proofs.Schedule.Budget

/-!
# Hops past the exclusions

From an instant that is excluded a search hops to the end of the first pattern that excludes it, and
goes on from there.  Exclusions may overlap, nest and abut, and a hop looks at one of them only; the
next one may cover the end of the hop.  **Nothing is lost on the way**: a hop ends on the first instant
that its pattern does not cover, so the stretches of the hops lie end to end, each of them covered by
one pattern, and together they reach from the start of the first hop to the end of the last.

The hops stop at the first instant that is not excluded.  Only when the budget is used up do they stop
short of it, and then as many have been made as it allows.

## Main Definitions

* `Schedule.HopsTo`: one hop
* `Schedule.Hops`: the hops of a search, by the instants they end on

## Main Statements

* `Schedule.hop_eq_some_iff`: the hops that a search makes
* `Schedule.HopsTo.exists_covers`, `Schedule.Hops.exists_covers`: what one hop passes over is excluded,
  and so is what any number of them pass over
* `Schedule.skipExcluded_exact`: what the hops of a round pass over, where they end, and how many there
  are
-/

namespace Recurrence

namespace Schedule

/-- From `t` a search hops to `t'`, the end of the first pattern that excludes `t`. -/
def HopsTo (s : Schedule) (budget : Nat) (t t' : Instant) : Prop :=
  ∃ p, s.excluder? t = some p ∧ p.after t budget = some t'

/-- The hops of a search that lead from `t` to `r`, by the instants they end on. -/
inductive Hops (s : Schedule) (budget : Nat) : Instant → List Instant → Instant → Prop where
  /-- No hop is made. -/
  | stay (t : Instant) : Hops s budget t [] t
  /-- A hop, and those that follow it. -/
  | hop {t t' r : Instant} {stops : List Instant} (first : s.HopsTo budget t t')
      (rest : Hops s budget t' stops r) : Hops s budget t (t' :: stops) r

variable {s : Schedule} {budget : Nat} {t t' m r : Instant} {stops : List Instant}

/-! ## The hops that a search makes -/

/-- After a hop a search goes on with one hop less. -/
theorem HopsTo.hop_succ (h : s.HopsTo budget t t') (hops : Nat) :
    s.hop budget (hops + 1) t = s.hop budget hops t' := by
  obtain ⟨p, hexcluder, hafter⟩ := h
  rw [hop, hexcluder]
  simp only [hafter]

/-- What a search finds is where hops lead. -/
theorem exists_hops_of_hop {hops : Nat} (h : s.hop budget hops t = some r) :
    ∃ stops, s.Hops budget t stops r ∧
      (stops.length = hops ∨ stops.length < hops ∧ s.excludes r = false) := by
  induction hops generalizing t with
  | zero =>
      rw [hop, Option.some_inj] at h
      subst h
      exact ⟨[], .stay t, .inl rfl⟩
  | succ hops ih =>
      cases hexcluder : s.excluder? t with
      | none =>
          have hfree := excluder?_eq_none.1 hexcluder
          rw [hop_of_not_excludes hfree, Option.some_inj] at h
          subst h
          exact ⟨[], .stay t, .inr ⟨Nat.succ_pos hops, hfree⟩⟩
      | some p =>
          cases hafter : p.after t budget with
          | none =>
              rw [hop, hexcluder] at h
              simp only [hafter] at h
              cases h
          | some c =>
              have first : s.HopsTo budget t c := ⟨p, hexcluder, hafter⟩
              rw [first.hop_succ] at h
              obtain ⟨stops, hstops, hlength⟩ := ih h
              refine ⟨c :: stops, .hop first hstops, ?_⟩
              rw [List.length_cons]
              exact hlength.imp (congrArg (· + 1)) (And.imp_left Nat.succ_lt_succ)

/-- Where hops lead is found by a search that may make as many, and by one that may make more if it is
not excluded. -/
theorem Hops.hop_eq {hops : Nat} (h : s.Hops budget t stops r)
    (hlength : stops.length = hops ∨ stops.length < hops ∧ s.excludes r = false) :
    s.hop budget hops t = some r := by
  induction h generalizing hops with
  | stay t =>
      rcases hlength with rfl | ⟨-, hfree⟩
      · rfl
      · exact hop_of_not_excludes hfree budget hops
  | hop first rest ih =>
      rw [List.length_cons] at hlength
      cases hops with
      | zero =>
          rcases hlength with hlength | ⟨hlength, -⟩
          · cases hlength
          · cases hlength
      | succ hops =>
          rw [first.hop_succ]
          exact ih (hlength.imp Nat.succ.inj (And.imp_left Nat.lt_of_succ_lt_succ))

/-- **A search makes hops until it has left the exclusions or made as many as it may**, and what it
finds is where they lead. -/
theorem hop_eq_some_iff {hops : Nat} :
    s.hop budget hops t = some r ↔
      ∃ stops, s.Hops budget t stops r ∧
        (stops.length = hops ∨ stops.length < hops ∧ s.excludes r = false) := by
  constructor
  · exact exists_hops_of_hop
  · rintro ⟨stops, hstops, hlength⟩
    exact hstops.hop_eq hlength

/-! ## What the hops pass over -/

/-- A hop leads strictly forward, from any instant and with any budget. -/
theorem HopsTo.lt (h : s.HopsTo budget t t') : t < t' := by
  obtain ⟨p, hexcluder, hafter⟩ := h
  obtain ⟨-, hcovers⟩ := excluder?_eq_some hexcluder
  obtain ⟨hle, hnot⟩ := Pattern.after_sound hafter
  exact lt_of_le_of_ne hle fun heq => hnot (heq ▸ hcovers)

/-- The instants that the hops come to climb strictly. -/
theorem Hops.pairwise (h : s.Hops budget t stops r) : (t :: stops).Pairwise (· < ·) := by
  induction h with
  | stay t => exact List.pairwise_singleton _ t
  | hop first rest ih =>
      have hlater := (List.pairwise_cons.1 ih).1
      refine List.pairwise_cons.2 ⟨fun x hx => ?_, ih⟩
      rcases List.mem_cons.1 hx with rfl | hx
      · exact first.lt
      · exact first.lt.trans (hlater x hx)

theorem Hops.le (h : s.Hops budget t stops r) : t ≤ r := by
  induction h with
  | stay t => exact le_rfl
  | hop first rest ih => exact first.lt.le.trans ih

section Covered

variable (hweeks : ∀ p ∈ s.excluded, p.WeeksInDomain) (hcounts : ∀ p ∈ s.excluded, p.LeavesCounts)
include hweeks hcounts

/-- **What a hop passes over is excluded**, all of it by one pattern. -/
theorem HopsTo.exists_covers (ht : t.IsOrdinary) (h : s.HopsTo budget t t') :
    t'.IsOrdinary ∧ ∃ p ∈ s.excluded,
      ∀ m : Instant, m.IsOrdinary → t ≤ m → m < t' → p.covers m = true := by
  obtain ⟨p, hexcluder, hafter⟩ := h
  obtain ⟨hp, -⟩ := excluder?_eq_some hexcluder
  obtain ⟨⟨ht', -, -⟩, hleast⟩ := Pattern.after_isLeast (hweeks p hp) (hcounts p hp) ht hafter
  refine ⟨ht', p, hp, fun m hm htm hmt' => ?_⟩
  by_contra hnot
  exact absurd (hleast ⟨hm, htm, hnot⟩) (not_le.2 hmt')

/-- **What the hops pass over is excluded**, each instant of it by the pattern of one of the hops. -/
theorem Hops.exists_covers (ht : t.IsOrdinary) (h : s.Hops budget t stops r) (hm : m.IsOrdinary)
    (htm : t ≤ m) (hmr : m < r) : ∃ p ∈ s.excluded, p.covers m = true := by
  induction h with
  | stay t => exact absurd hmr (not_lt.2 htm)
  | @hop t t' r stops first rest ih =>
      obtain ⟨ht', p, hp, hcovers⟩ := first.exists_covers hweeks hcounts ht
      rcases lt_or_ge m t' with hmt' | ht'm
      · exact ⟨p, hp, hcovers m hm htm hmt'⟩
      · exact ih ht' ht'm hmr

end Covered

/-! ## The hops of a round -/

/-- **The hops of a round pass over nothing that is not excluded**, whatever the budget.  They lead
strictly forward and end on an instant that is not excluded, unless all the hops that the budget allows
have been made. -/
theorem skipExcluded_exact (s : Schedule) (hweeks : ∀ p ∈ s.excluded, p.WeeksInDomain)
    (hcounts : ∀ p ∈ s.excluded, p.LeavesCounts) (c r : Instant) (hc : c.IsOrdinary) (budget : Nat)
    (h : s.skipExcluded c budget = some r) :
    c ≤ r ∧ (∀ m : Instant, m.IsOrdinary → c ≤ m → m < r → ∃ p ∈ s.excluded, p.covers m = true) ∧
      ∃ stops, s.Hops budget c stops r ∧ (c :: stops).Pairwise (· < ·) ∧
        stops.length ≤ budget + 1 ∧
        (stops.length = budget + 1 ∨ ∀ p ∈ s.excluded, p.covers r = false) := by
  obtain ⟨stops, hstops, hlength⟩ := hop_eq_some_iff.1 h
  refine ⟨hstops.le, fun m hm hcm hmr => hstops.exists_covers hweeks hcounts hc hm hcm hmr,
    stops, hstops, hstops.pairwise, ?_, ?_⟩
  · rcases hlength with hlength | ⟨hlength, -⟩
    · exact hlength.le
    · exact hlength.le
  · exact hlength.imp_right fun hfree => excludes_eq_false_iff.1 hfree.2

/-- From 9:00 on 1 January 2024 two hops lead over the first twenty minutes of the hour, which two
exclusions cover.  They are all that the budget allows, and the third exclusion covers where they
end. -/
theorem skipExcluded_exact_nine :
    (∀ m : Instant, m.IsOrdinary →
        ⟨(Date.ofCivil? 2024 0 1).get (by decide), (TimeOfDay.ofParts? 9 0 0 0).get (by decide)⟩ ≤ m →
        m < ⟨(Date.ofCivil? 2024 0 1).get (by decide),
          (TimeOfDay.ofParts? 9 20 0 0).get (by decide)⟩ →
        ∃ p ∈ nineWithoutFirstHalf.excluded, p.covers m = true) ∧
      ∃ stops, nineWithoutFirstHalf.Hops 1
        ⟨(Date.ofCivil? 2024 0 1).get (by decide), (TimeOfDay.ofParts? 9 0 0 0).get (by decide)⟩ stops
        ⟨(Date.ofCivil? 2024 0 1).get (by decide), (TimeOfDay.ofParts? 9 20 0 0).get (by decide)⟩ ∧
          stops.length = 2 := by
  have hweeks : ∀ p ∈ nineWithoutFirstHalf.excluded, Period.week .year .majority ∉ p.periods := by
    decide
  have hcounts : ∀ p ∈ nineWithoutFirstHalf.excluded, ∀ binding ∈ p.bindings.entries,
      binding.1 ∉ [Period.century, .decade, .year] := by
    decide
  obtain ⟨-, hcovers, stops, hstops, -, -, hlength⟩ := skipExcluded_exact nineWithoutFirstHalf
    (fun p hp hweek => absurd hweek (hweeks p hp))
    (fun p hp binding hbinding hcount => absurd hcount (hcounts p hp binding hbinding))
    ⟨(Date.ofCivil? 2024 0 1).get (by decide), (TimeOfDay.ofParts? 9 0 0 0).get (by decide)⟩
    ⟨(Date.ofCivil? 2024 0 1).get (by decide), (TimeOfDay.ofParts? 9 20 0 0).get (by decide)⟩
    (by decide) 1 (by decide +kernel)
  refine ⟨hcovers, stops, hstops, hlength.resolve_right fun hfree => ?_⟩
  exact absurd hfree (by decide)

end Schedule

end Recurrence
