import Recurrence.Proofs.Pattern.Next

/-!
# The end of what a pattern covers

`Pattern.after` leaves a covered stretch by moves, each to the earliest instant at which some field
can have a value that is not accepted.  Some of these values never occur, and then the move ends at
the beginning of a month or a year that may be covered still; so the moves are repeated.  **No
uncovered instant is passed over by any of them**: at such an instant some field has a value that is
not accepted, and the move of that field for that value does not end beyond it.

## Main Statements

* `Pattern.exists_earliestExit?_le`: a move does not pass over an uncovered instant
* `Pattern.leave_found`, `Pattern.exists_leave_found`, `Pattern.leave_mono`
* `Pattern.after_exact`: the search does not overshoot
-/

namespace Recurrence

namespace Pattern

variable {p : Pattern} {t m c r : Instant}

/-! ## One move -/

/-- The move leads forward. -/
theorem earliestExit?_spec (ht : t.IsOrdinary) (h : p.earliestExit? t = some c) :
    t < c ∧ c.IsOrdinary := by
  rw [earliestExit?, List.min?_eq_some_iff, List.mem_filterMap] at h
  obtain ⟨⟨binding, -, hmove⟩, -⟩ := h
  obtain ⟨htc, hc, -⟩ := earliestMove?_spec ht hmove
  exact ⟨htc, hc⟩

/-- A field that holds at `t` and fails at `m` is in two runs. -/
theorem run_lt_of_fails {binding : Period × Frequency} {o : CalendarOptions} (ht : t.IsOrdinary)
    (hm : m.IsOrdinary) (htm : t ≤ m) (hholds : fieldHolds o t binding = true)
    (hfails : fieldHolds o m binding = false) : binding.1.run o t < binding.1.run o m := by
  refine Period.run_lt_of_not_steady ht hm htm (Period.not_steady_of_valueAt_ne hm htm ?_)
  intro hvalue
  rw [fieldHolds] at hholds hfails
  rw [hvalue, hholds] at hfails
  cases hfails

/-- The move is not later than that of any field. -/
theorem exists_earliestExit?_le_of_move {binding : Period × Frequency}
    (hmem : binding ∈ p.bindings.entries)
    (hmove : earliestMove? p.options t binding.1
      (rejectedValues binding.1 binding.2 (binding.1.valueAt p.options t)) = some c) :
    ∃ c', p.earliestExit? t = some c' ∧ c' ≤ c :=
  Instant.exists_min?_le (List.mem_filterMap.2 ⟨binding, hmem, hmove⟩)

/-- The move does not pass over an instant at which a field fails, if the search tries the value
that the field has there. -/
theorem exists_earliestExit?_le_of_fails {binding : Period × Frequency}
    (hmem : binding ∈ p.bindings.entries)
    (hin : binding.1.InDomain (binding.1.valueAt p.options m))
    (hahead : binding.1.domainValues? = none →
      RejectsAhead binding.2 (binding.1.valueAt p.options t))
    (ht : t.IsOrdinary) (hm : m.IsOrdinary) (htm : t ≤ m) (hcovers : p.covers t = true)
    (hfails : fieldHolds p.options m binding = false) :
    ∃ c, p.earliestExit? t = some c ∧ c ≤ m := by
  have hrun := run_lt_of_fails ht hm htm (covers_iff.1 hcovers binding hmem) hfails
  obtain ⟨c, hmove, hcm⟩ := exists_earliestExit_le hin hahead ht hm hrun hfails
  obtain ⟨c', hc', hle⟩ := exists_earliestExit?_le_of_move hmem hmove
  exact ⟨c', hc', hle.trans hcm⟩

/-- **The move does not pass over an uncovered instant.** -/
theorem exists_earliestExit?_le (hp : p.WeeksInDomain) (hl : p.LeavesCounts) (ht : t.IsOrdinary)
    (hm : m.IsOrdinary) (htm : t ≤ m) (hcovers : p.covers t = true) (hnot : ¬ p.covers m = true) :
    ∃ c, p.earliestExit? t = some c ∧ c ≤ m := by
  obtain ⟨binding, hmem, hfails⟩ := exists_not_fieldHolds hnot
  rw [Bool.not_eq_true] at hfails
  refine exists_earliestExit?_le_of_fails hmem
    (Period.inDomain_valueAt (hp.domainComplete hmem) hm) (fun hdomain => ?_) ht hm htm hcovers hfails
  exact rejectsAhead_of_leavesWithin (Period.valueAt_range hdomain _ t)
    (Period.inValueRange_valueAt hdomain _ m) (hl.leavesWithin hmem hdomain) hfails

/-! ## The moves of a search -/

/-- **What the moves find is the first uncovered instant at or after the start.** -/
theorem leave_found (hp : p.WeeksInDomain) (hl : p.LeavesCounts) (ht : t.IsOrdinary) {moves : Nat}
    (h : p.leave moves t = .found r) :
    IsLeast {m : Instant | m.IsOrdinary ∧ t ≤ m ∧ ¬ p.covers m = true} r := by
  induction moves generalizing t with
  | zero =>
      rw [leave] at h
      split at h
      · cases h
      · next hnot =>
          cases h
          exact ⟨⟨ht, le_rfl, hnot⟩, fun m hm => hm.2.1⟩
  | succ moves ih =>
      rw [leave] at h
      split at h
      · next hcovers =>
          split at h
          · cases h
          · next c hexit =>
              obtain ⟨htc, hc⟩ := earliestExit?_spec ht hexit
              obtain ⟨⟨hr, hcr, hnot⟩, hfirst⟩ := ih hc h
              refine ⟨⟨hr, htc.le.trans hcr, hnot⟩, ?_⟩
              rintro m ⟨hm, htm, hmnot⟩
              obtain ⟨c', hc', hcm⟩ := exists_earliestExit?_le hp hl ht hm htm hcovers hmnot
              rw [hexit] at hc'
              cases hc'
              exact hfirst ⟨hm, hcm, hmnot⟩
      · next hnot =>
          cases h
          exact ⟨⟨ht, le_rfl, hnot⟩, fun m hm => hm.2.1⟩

/-- The moves stop where the pattern does not cover the instant reached. -/
theorem leave_of_not_covers (hnot : ¬ p.covers t = true) (moves : Nat) :
    p.leave moves t = .found t := by
  cases moves <;> rw [leave, if_neg hnot]

/-- The moves find an uncovered instant when every move makes progress towards one, ending at or
before it or at another one, and as many moves are allowed as there are instants up to it. -/
theorem exists_leave_found_of_progress {Aims : Instant → Prop}
    (hprogress : ∀ c : Instant, c.IsOrdinary → c ≤ m → Aims c → p.covers c = true →
      ∃ c', p.earliestExit? c = some c' ∧ (c' ≤ m ∧ Aims c' ∨ ¬ p.covers c' = true))
    (ht : t.IsOrdinary) (htm : t ≤ m) (haims : Aims t) (hnot : ¬ p.covers m = true) {moves : Nat}
    (hmoves : m.rank - t.rank ≤ moves) : ∃ r, p.leave moves t = .found r := by
  -- the way to `m` shrinks with every move that does not end the search
  induction moves generalizing t with
  | zero =>
      have hmt : m ≤ t := by
        rw [Instant.le_iff_rank_le]
        omega
      have heq : t = m := le_antisymm htm hmt
      subst heq
      exact ⟨t, leave_of_not_covers hnot 0⟩
  | succ moves ih =>
      by_cases hcovers : p.covers t = true
      · obtain ⟨c, hexit, hc⟩ := hprogress t ht htm haims hcovers
        obtain ⟨htc, hordinary⟩ := earliestExit?_spec ht hexit
        have hrank := Instant.lt_iff_rank_lt.1 htc
        rw [leave, if_pos hcovers]
        simp only [hexit]
        rcases hc with ⟨hcm, haims⟩ | hend
        · exact ih hordinary hcm haims (by omega)
        · exact ⟨c, leave_of_not_covers hend moves⟩
      · exact ⟨t, leave_of_not_covers hcovers _⟩

/-- The moves find an uncovered instant when there is one ahead and as many moves are allowed as
there are instants up to it. -/
theorem exists_leave_found (hp : p.WeeksInDomain) (hl : p.LeavesCounts) (ht : t.IsOrdinary)
    (hm : m.IsOrdinary) (htm : t ≤ m) (hnot : ¬ p.covers m = true) {moves : Nat}
    (hmoves : m.rank - t.rank ≤ moves) : ∃ r, p.leave moves t = .found r := by
  refine @exists_leave_found_of_progress p t m (fun _ => True) (fun c hc hcm _ hcovers => ?_)
    ht htm trivial hnot _ hmoves
  obtain ⟨c', hexit, hle⟩ := exists_earliestExit?_le hp hl hc hm hcm hcovers hnot
  exact ⟨c', hexit, .inl ⟨hle, trivial⟩⟩

/-- More moves find the same. -/
theorem leave_succ {moves : Nat} (h : p.leave moves t = .found r) :
    p.leave (moves + 1) t = .found r := by
  induction moves generalizing t with
  | zero =>
      rw [leave] at h
      split at h
      · cases h
      · next hnot =>
          cases h
          rw [leave, if_neg hnot]
  | succ moves ih =>
      rw [leave] at h
      rw [leave]
      split at h
      · next hcovers =>
          rw [if_pos hcovers]
          split at h
          · cases h
          · exact ih h
      · next hnot =>
          rw [if_neg hnot]
          exact h

theorem leave_mono {moves larger : Nat} (hle : moves ≤ larger) (h : p.leave moves t = .found r) :
    p.leave larger t = .found r := by
  induction hle with
  | refl => exact h
  | step _ ih => exact leave_succ ih

/-! ## The search -/

theorem after_eq_some {budget : Nat} :
    p.after t budget = some r ↔ p.leave (budget + 1) t = .found r :=
  Outcome.instant?_eq_some

/-- More budget finds the same. -/
theorem after_mono {budget larger : Nat} (hle : budget ≤ larger) (h : p.after t budget = some r) :
    p.after t larger = some r := by
  rw [after_eq_some] at h ⊢
  exact leave_mono (Nat.succ_le_succ hle) h

/-- What the search finds is the first uncovered instant at or after the start. -/
theorem after_isLeast (hp : p.WeeksInDomain) (hl : p.LeavesCounts) (ht : t.IsOrdinary)
    {budget : Nat} (h : p.after t budget = some r) :
    IsLeast {m : Instant | m.IsOrdinary ∧ t ≤ m ∧ ¬ p.covers m = true} r :=
  leave_found hp hl ht (after_eq_some.1 h)

/-- The search finds an instant when there is an uncovered one and the budget allows for the
instants on the way to it. -/
theorem exists_after (hp : p.WeeksInDomain) (hl : p.LeavesCounts) (ht : t.IsOrdinary)
    (hm : m.IsOrdinary) (htm : t ≤ m) (hnot : ¬ p.covers m = true) {budget : Nat}
    (hbudget : m.rank - t.rank ≤ budget) : ∃ r, p.after t budget = some r := by
  obtain ⟨r, hr⟩ := @exists_leave_found p t m hp hl ht hm htm hnot (budget + 1) (by omega)
  exact ⟨r, after_eq_some.2 hr⟩

/-- An uncovered start is found at once. -/
theorem after_self (hnot : ¬ p.covers t = true) (budget : Nat) : p.after t budget = some t := by
  rw [after_eq_some, leave, if_neg hnot]

/-- **The end of a covered stretch is not overshot**: the instant found is not covered, everything
from the start up to it is, and a larger budget finds the same instant.  If the stretch ends at all,
every budget that suffices finds its end. -/
theorem after_exact (p : Pattern) (hp : p.WeeksInDomain) (hl : p.LeavesCounts) (t : Instant)
    (ht : t.IsOrdinary) :
    (∀ budget r, p.after t budget = some r → t ≤ r ∧ p.covers r = false ∧
      ∀ m : Instant, m.IsOrdinary → t ≤ m → m < r → p.covers m = true) ∧
    (∀ budget, p.after t budget = some t ↔ p.covers t = false) ∧
    (∀ budget larger r, p.after t budget = some r → budget ≤ larger →
      p.after t larger = some r) ∧
    ((∃ m : Instant, m.IsOrdinary ∧ t ≤ m ∧ p.covers m = false) →
      ∃ enough r, ∀ budget, enough ≤ budget → p.after t budget = some r) := by
  refine ⟨fun budget r h => ?_, fun budget => ⟨fun h => ?_, fun h => ?_⟩,
    fun budget larger r h hle => after_mono hle h, ?_⟩
  · obtain ⟨⟨-, htr, hnot⟩, hleast⟩ := after_isLeast hp hl ht h
    refine ⟨htr, Bool.eq_false_iff.2 hnot, fun m hm htm hmr => ?_⟩
    by_contra hmnot
    exact absurd (hleast ⟨hm, htm, hmnot⟩) (not_le.2 hmr)
  · exact Bool.eq_false_iff.2 (after_isLeast hp hl ht h).1.2.2
  · exact after_self (Bool.eq_false_iff.1 h) budget
  · rintro ⟨m, hm, htm, hnot⟩
    obtain ⟨r, hr⟩ := @exists_after p t m hp hl ht hm htm (Bool.eq_false_iff.1 hnot)
      (m.rank - t.rank).toNat (by omega)
    exact ⟨_, r, fun budget hbudget => after_mono hbudget hr⟩

/-- From 4 October 2024 a pattern that covers the first ten days of a month of the year is left on
11 October. -/
theorem after_exact_tenDays :
    Instant.startOfDay ((Date.ofCivil? 2024 9 4).get (by decide)) ≤
        Instant.startOfDay ((Date.ofCivil? 2024 9 11).get (by decide)) ∧
      Pattern.covers ⟨⟨[(.year, .single 2024), (.dayOfMonth,
          ⟨.ranges [(1, 10)], by decide, by decide, by decide⟩)], by decide⟩, .standard⟩
        (Instant.startOfDay ((Date.ofCivil? 2024 9 11).get (by decide))) = false ∧
      ∀ m : Instant, m.IsOrdinary →
        Instant.startOfDay ((Date.ofCivil? 2024 9 4).get (by decide)) ≤ m →
        m < Instant.startOfDay ((Date.ofCivil? 2024 9 11).get (by decide)) →
        Pattern.covers ⟨⟨[(.year, .single 2024), (.dayOfMonth,
          ⟨.ranges [(1, 10)], by decide, by decide, by decide⟩)], by decide⟩, .standard⟩ m = true :=
  (after_exact ⟨⟨[(.year, .single 2024), (.dayOfMonth,
      ⟨.ranges [(1, 10)], by decide, by decide, by decide⟩)], by decide⟩, .standard⟩
    (fun h => absurd h (by decide))
    (by
      intro binding hbinding hcount
      rcases List.mem_cons.1 hbinding with rfl | hbinding
      · exact Frequency.leavesWithin_single (by decide) 2024
      · rcases List.mem_singleton.1 hbinding with rfl
        exact absurd hcount (by decide))
    (Instant.startOfDay ((Date.ofCivil? 2024 9 4).get (by decide))) (by decide)).1 3 _
    (by decide +kernel)

end Pattern

end Recurrence
