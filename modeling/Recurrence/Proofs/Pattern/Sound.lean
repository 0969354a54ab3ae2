import Recurrence.Proofs.Pattern.After
import Recurrence.Proofs.Period.Alignment

/-!
# Searches from any instant

That a search finds the *first* instant of its kind is a matter of runs, which are runs of ordinary
instants.  That what it finds is **later, of its kind and aligned** is not: each move of a search is
taken only if it leads forward, and a move that leads forward ends on an instant aligned to its
period.  So these facts hold without any condition, from moments of a leap second and for patterns
whose week numbers leave their domain.

The last move of a search may be one of a coarser field than the finest bound one.  Alignment to a
coarser period is the stronger property, so what is found is aligned to the finest one in any case.

## Main Definitions

* `Pattern.Aligned`: aligned to the finest bound period
* `Instant.leapSecond2016`: a moment of a leap second

## Main Statements

* `Pattern.correct_forward`, `Pattern.settle_forward`: what a pass and a run of passes keep
* `Pattern.next_sound`: what a search finds is later, covered and aligned
* `Pattern.after_sound`: what a search for an exit finds is not earlier and not covered
-/

namespace Recurrence

/-- **The earliest move leads forward and ends aligned to its period**, from every start. -/
theorem earliestMove?_forward {o : CalendarOptions} {t c : Instant} {p : Period}
    {values : List Int} (h : earliestMove? o t p values = some c) : t < c ∧ c.AlignedTo p := by
  obtain ⟨v, -, rfl, hlt⟩ := exists_eq_of_earliestMove? h
  exact ⟨hlt, p.alignedTo_moveTo o v t hlt⟩

/-- The middle of the leap second that ended the year 2016. -/
def Instant.leapSecond2016 : Instant :=
  ⟨(Date.ofCivil? 2016 11 31).get (by decide),
    ⟨86399, 1500000000, by decide, by decide⟩⟩

namespace Pattern

/-- Aligned to the finest bound period, if there is one. -/
def Aligned (p : Pattern) (t : Instant) : Prop :=
  ∀ finest ∈ p.periods, (∀ q ∈ p.periods, finest.priority ≤ q.priority) → t.AlignedTo finest

variable {p : Pattern} {o : CalendarOptions} {t t' c r : Instant} {budget : Nat}

/-- Alignment to any bound period is enough. -/
theorem aligned_of_mem {q : Period} (hq : q ∈ p.periods) (h : t.AlignedTo q) : p.Aligned t :=
  fun _ _ hleast => h.mono (hleast q hq)

theorem aligned_of_entries_eq_nil (h : p.bindings.entries = []) (t : Instant) : p.Aligned t := by
  intro finest hfinest
  rw [show p.periods = [] from congrArg (List.map Prod.fst) h] at hfinest
  cases hfinest

/-! ## Searches for a covered instant -/

/-- A pass stays, or leads forward to an instant aligned to the field that was moved last. -/
theorem correct_forward {entries : List (Period × Frequency)}
    (h : correct o entries t = .ok t') :
    t = t' ∨ t < t' ∧ ∃ binding ∈ entries, t'.AlignedTo binding.1 := by
  induction entries generalizing t with
  | nil =>
      rw [correct] at h
      cases h
      exact .inl rfl
  | cons head rest ih =>
      rw [correct] at h
      split at h
      · rcases ih h with heq | ⟨hlt, binding, hbinding, haligned⟩
        · exact .inl heq
        · exact .inr ⟨hlt, binding, List.mem_cons_of_mem _ hbinding, haligned⟩
      · split at h
        · cases h
        · next c hentry =>
            obtain ⟨htc, hc⟩ := earliestMove?_forward hentry
            rcases ih h with rfl | ⟨hlt, binding, hbinding, haligned⟩
            · exact .inr ⟨htc, head, List.mem_cons_self, hc⟩
            · exact .inr ⟨htc.trans hlt, binding, List.mem_cons_of_mem _ hbinding, haligned⟩

/-- **What the passes find is covered.**  It is the start, or later than the start and aligned. -/
theorem settle_forward {passes : Nat} (h : p.settle passes t = .found r) :
    p.covers r = true ∧ (t = r ∨ t < r ∧ p.Aligned r) := by
  induction passes generalizing t with
  | zero =>
      rw [settle] at h
      split at h
      · next hcovers =>
          cases h
          exact ⟨hcovers, .inl rfl⟩
      · cases h
  | succ passes ih =>
      rw [settle] at h
      split at h
      · next hcovers =>
          cases h
          exact ⟨hcovers, .inl rfl⟩
      · split at h
        · cases h
        · next t' hcorrect =>
            obtain ⟨hcovers, hr⟩ := ih h
            refine ⟨hcovers, ?_⟩
            rcases correct_forward hcorrect with rfl | ⟨htt', binding, hbinding, haligned⟩
            · exact hr
            · rcases hr with rfl | ⟨ht'r, hr⟩
              · exact .inr ⟨htt', aligned_of_mem (mem_periods hbinding) haligned⟩
              · exact .inr ⟨htt'.trans ht'r, hr⟩

/-- The smallest move from a covered instant leads forward and ends aligned. -/
theorem stepPast?_forward (h : p.stepPast? t = some c) : t < c ∧ p.Aligned c := by
  cases hlast : p.bindings.entries.getLast? with
  | none =>
      rw [stepPast?_of_empty hlast] at h
      exact ⟨Instant.lt_of_addMillis? Nat.one_pos h,
        aligned_of_entries_eq_nil (List.getLast?_eq_none_iff.1 hlast) c⟩
  | some binding =>
      obtain ⟨finest, f⟩ := binding
      rw [stepPast?_of_finest hlast] at h
      obtain ⟨htc, haligned⟩ := earliestMove?_forward h
      have hmem : (finest, f) ∈ p.bindings.entries := List.mem_of_getLast? hlast
      exact ⟨htc, aligned_of_mem (mem_periods hmem) haligned⟩

/-- **What a search finds is later than the start, covered and aligned.** -/
theorem next_sound (h : p.next t budget = some r) :
    t < r ∧ p.covers r = true ∧ p.Aligned r := by
  rw [next_eq_some, search] at h
  split at h
  · split at h
    · cases h
    · next c hstep =>
        obtain ⟨htc, hc⟩ := stepPast?_forward hstep
        obtain ⟨hcovers, hr⟩ := settle_forward h
        rcases hr with rfl | ⟨hcr, hr⟩
        · exact ⟨htc, hcovers, hc⟩
        · exact ⟨htc.trans hcr, hcovers, hr⟩
  · next hnot =>
      obtain ⟨hcovers, hr⟩ := settle_forward h
      rcases hr with rfl | ⟨htr, hr⟩
      · exact absurd hcovers hnot
      · exact ⟨htr, hcovers, hr⟩

/-- **What a search finds begins the finest bound period**: it is later than the start, it is covered,
and the parts of its time of day that are finer than that period are zero.  It is a midnight if the
period is longer than an hour. -/
theorem next_sound_aligned (p : Pattern) (finest : Period) (hmem : finest ∈ p.periods)
    (hfinest : ∀ q ∈ p.periods, finest.priority ≤ q.priority) (t : Instant) (budget : Nat)
    (r : Instant) (h : p.next t budget = some r) :
    t < r ∧ p.covers r = true ∧ r.AlignedTo finest ∧
      (Period.hour.priority < finest.priority → r = Instant.startOfDay r.date) := by
  obtain ⟨htr, hcovers, haligned⟩ := next_sound h
  have hr := haligned finest hmem hfinest
  exact ⟨htr, hcovers, hr, hr.eq_startOfDay⟩

/-- From within the leap second that ended the year 2016, the next millisecond 700 is one of the new
year.  A first move by 200 milliseconds stays within the leap second.  A leap second in the middle of a
minute, from which no millisecond move leads on, is left for second 10. -/
theorem next_sound_aligned_leapSecond :
    (Instant.leapSecond2016 <
        ⟨(Date.ofCivil? 2017 0 1).get (by decide), ⟨0, 700000000, by decide, by decide⟩⟩ ∧
      Instant.AlignedTo ⟨(Date.ofCivil? 2017 0 1).get (by decide),
        ⟨0, 700000000, by decide, by decide⟩⟩ .millisecond) ∧
    Instant.leapSecondMidMinute <
        ⟨Instant.leapSecondMidMinute.date, ⟨86170, 0, by decide, by decide⟩⟩ ∧
      Instant.AlignedTo ⟨Instant.leapSecondMidMinute.date, ⟨86170, 0, by decide, by decide⟩⟩
        .millisecond := by
  obtain ⟨hlt, -, haligned, -⟩ :=
    next_sound_aligned ⟨⟨[(.millisecond, .single 700)], by simp⟩, .standard⟩ .millisecond
      List.mem_cons_self (fun q hq => by rw [List.mem_singleton.1 hq]) Instant.leapSecond2016 1
      ⟨(Date.ofCivil? 2017 0 1).get (by decide), ⟨0, 700000000, by decide, by decide⟩⟩
      (by decide +kernel)
  obtain ⟨hlt', -, haligned', -⟩ :=
    next_sound_aligned ⟨⟨[(.second, .single 10), (.millisecond, .single 0)], by decide⟩, .standard⟩
      .millisecond (List.mem_cons_of_mem _ List.mem_cons_self) (by decide)
      Instant.leapSecondMidMinute 1
      ⟨Instant.leapSecondMidMinute.date, ⟨86170, 0, by decide, by decide⟩⟩ (by decide +kernel)
  exact ⟨⟨hlt, haligned⟩, hlt', haligned'⟩

/-! ## Searches for an exit -/

/-- The moves to an exit lead forward. -/
theorem earliestExit?_forward (h : p.earliestExit? t = some c) : t < c := by
  rw [earliestExit?, List.min?_eq_some_iff, List.mem_filterMap] at h
  obtain ⟨⟨binding, -, hmove⟩, -⟩ := h
  exact (earliestMove?_forward hmove).1

theorem leave_forward {moves : Nat} (h : p.leave moves t = .found r) :
    t ≤ r ∧ ¬ p.covers r = true := by
  induction moves generalizing t with
  | zero =>
      rw [leave] at h
      split at h
      · cases h
      · next hnot =>
          cases h
          exact ⟨le_rfl, hnot⟩
  | succ moves ih =>
      rw [leave] at h
      split at h
      · split at h
        · cases h
        · next c hexit =>
            obtain ⟨hcr, hnot⟩ := ih h
            exact ⟨(earliestExit?_forward hexit).le.trans hcr, hnot⟩
      · next hnot =>
          cases h
          exact ⟨le_rfl, hnot⟩

/-- **What a search for an exit finds is not earlier than the start and not covered.** -/
theorem after_sound (h : p.after t budget = some r) : t ≤ r ∧ ¬ p.covers r = true :=
  leave_forward (after_eq_some.1 h)

end Pattern

end Recurrence
