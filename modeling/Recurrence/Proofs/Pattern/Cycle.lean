import Recurrence.Proofs.Pattern.Sound
import Recurrence.Proofs.Period.Cycle

/-!
# Searches in the next cycle

**A pattern that binds neither century nor decade nor year repeats with the calendar**: an instant and
its repetition 400 years later are covered alike, and a search from the one finds the repetition of what
the search from the other finds, within the same budget.

A search only leads forward, so where it ends before the last years of the calendar, every instant on
its way lies before them as well, and each of its moves has a repetition.

## Main Statements

* `earliestMove?_repeatsAt`: the earliest of the moves that lead forward
* `Pattern.correct_repeatsAt`, `Pattern.settle_repeatsAt`: a pass and the passes
* `Pattern.next_addCycle`: the pattern and its search a cycle later
-/

namespace Recurrence

variable {t u r : Instant} {o : CalendarOptions} {p : Period}

/-! ## The earliest of some instants -/

namespace Instant

/-- What comes before an instant with room for a repetition has room too. -/
theorem year_le_of_le (h : t ≤ r) : t.date.year ≤ r.date.year :=
  WeekScope.year.indexOf_le (date_le_of_le h)

theorem foldl_min_repeatsAt {times times' : List Instant}
    (h : List.Forall₂ RepeatsAt times times') (hfirst : t.RepeatsAt u) :
    (times.foldl min t).RepeatsAt (times'.foldl min u) := by
  induction h generalizing t u with
  | nil => exact hfirst
  | cons hhead _ ih => exact ih (hfirst.min hhead)

/-- **The earliest of some repetitions repeats the earliest** of what they repeat. -/
theorem min?_repeatsAt {times times' : List Instant} (h : List.Forall₂ RepeatsAt times times') :
    Option.Rel RepeatsAt times.min? times'.min? := by
  cases h with
  | nil => exact .none
  | cons hhead hrest => exact .some (foldl_min_repeatsAt hrest hhead)

end Instant

/-! ## Moves -/

/-- The moves that lead forward. -/
theorem forwardMoves_repeatsAt (hp : p.domain?.isSome = true) (h : t.RepeatsAt u)
    (hyear : t.date.year ≤ lastRepeatedYear) (values : List Int) :
    List.Forall₂ Instant.RepeatsAt
      ((values.map fun v => p.moveTo o v t).filter fun c => t < c)
      ((values.map fun v => p.moveTo o v u).filter fun c => u < c) := by
  induction values with
  | nil => exact .nil
  | cons v rest ih =>
      have hmove := Period.moveTo_repeatsAt hp o v h hyear
      rw [List.map_cons, List.map_cons]
      by_cases hlt : t < p.moveTo o v t
      · rw [List.filter_cons_of_pos (by simpa using hlt),
          List.filter_cons_of_pos (by simpa using (h.lt_iff hmove).1 hlt)]
        exact .cons hmove ih
      · have hnot : ¬ u < p.moveTo o v u := fun hlt' => hlt ((h.lt_iff hmove).2 hlt')
        rw [List.filter_cons_of_neg (by simpa using hlt),
          List.filter_cons_of_neg (by simpa using hnot)]
        exact ih

/-- **The earliest move a cycle later** is the repetition of the earliest move. -/
theorem earliestMove?_repeatsAt (hp : p.domain?.isSome = true) (h : t.RepeatsAt u)
    (hyear : t.date.year ≤ lastRepeatedYear) (values : List Int) :
    Option.Rel Instant.RepeatsAt (earliestMove? o t p values) (earliestMove? o u p values) :=
  Instant.min?_repeatsAt (forwardMoves_repeatsAt hp h hyear values)

theorem exists_earliestEntry?_repeatsAt {f : Frequency} {c : Instant} (hp : p.domain?.isSome = true)
    (h : t.RepeatsAt u) (hyear : t.date.year ≤ lastRepeatedYear)
    (hentry : earliestEntry? o t p f = some c) :
    ∃ c', earliestEntry? o u p f = some c' ∧ c.RepeatsAt c' := by
  have hmove := earliestMove?_repeatsAt (o := o) hp h hyear (acceptedValues p f (p.valueAt o t))
  unfold earliestEntry? at hentry ⊢
  rw [Period.valueAt_eq_of_repeatsAt hp o h]
  rw [hentry] at hmove
  generalize earliestMove? o u p _ = move at hmove ⊢
  cases hmove with
  | some hc => exact ⟨_, rfl, hc⟩

namespace Pattern

variable {p : Pattern} {entries : List (Period × Frequency)}

theorem fieldHolds_eq_of_repeatsAt {binding : Period × Frequency}
    (hp : binding.1.domain?.isSome = true) (h : t.RepeatsAt u) :
    fieldHolds o u binding = fieldHolds o t binding := by
  rw [fieldHolds, fieldHolds, Period.valueAt_eq_of_repeatsAt hp o h]

/-- An instant and its repetition are covered alike. -/
theorem covers_eq_of_repeatsAt (hp : ∀ q ∈ p.periods, q.domain?.isSome = true)
    (h : t.RepeatsAt u) : p.covers u = p.covers t := by
  rw [Bool.eq_iff_iff, covers_iff, covers_iff]
  exact forall₂_congr fun binding hbinding => by
    rw [fieldHolds_eq_of_repeatsAt (hp _ (mem_periods hbinding)) h]

/-! ## Passes -/

/-- **A pass a cycle later ends on the repetition** of the instant on which the pass ends. -/
theorem correct_repeatsAt (hp : ∀ binding ∈ entries, binding.1.domain?.isSome = true)
    (h : t.RepeatsAt u) (hcorrect : correct o entries t = .ok r)
    (hyear : r.date.year ≤ lastRepeatedYear) :
    ∃ r', correct o entries u = .ok r' ∧ r.RepeatsAt r' := by
  induction entries generalizing t u with
  | nil =>
      cases hcorrect
      exact ⟨u, rfl, h⟩
  | cons head rest ih =>
      have hhead := hp head List.mem_cons_self
      have hrest : ∀ binding ∈ rest, binding.1.domain?.isSome = true :=
        fun binding hbinding => hp binding (List.mem_cons_of_mem _ hbinding)
      -- a pass leads forward, so that its start has room as its end has
      have hstart : t.date.year ≤ lastRepeatedYear := by
        rcases correct_forward hcorrect with rfl | ⟨hlt, -⟩
        · exact hyear
        · exact (Instant.year_le_of_le hlt.le).trans hyear
      rw [correct] at hcorrect ⊢
      rw [fieldHolds_eq_of_repeatsAt hhead h]
      split at hcorrect
      · next hholds =>
          rw [if_pos hholds]
          exact ih hrest h hcorrect
      · next hnot =>
          rw [if_neg hnot]
          cases hentry : earliestEntry? o t head.1 head.2 with
          | none =>
              rw [hentry] at hcorrect
              cases hcorrect
          | some c =>
              rw [hentry] at hcorrect
              obtain ⟨c', hentry', hc⟩ := exists_earliestEntry?_repeatsAt hhead h hstart hentry
              rw [hentry']
              exact ih hrest hc hcorrect

theorem settle_repeatsAt (hp : ∀ q ∈ p.periods, q.domain?.isSome = true) (h : t.RepeatsAt u)
    {passes : Nat} (hsettle : p.settle passes t = .found r)
    (hyear : r.date.year ≤ lastRepeatedYear) :
    ∃ r', p.settle passes u = .found r' ∧ r.RepeatsAt r' := by
  induction passes generalizing t u with
  | zero =>
      rw [settle] at hsettle ⊢
      rw [covers_eq_of_repeatsAt hp h]
      split at hsettle
      · next hcovers =>
          cases hsettle
          exact ⟨u, if_pos hcovers, h⟩
      · cases hsettle
  | succ passes ih =>
      rw [settle] at hsettle ⊢
      rw [covers_eq_of_repeatsAt hp h]
      split at hsettle
      · next hcovers =>
          cases hsettle
          exact ⟨u, if_pos hcovers, h⟩
      · next hnot =>
          rw [if_neg hnot]
          cases hcorrect : correct p.options p.bindings.entries t with
          | error stuck =>
              rw [hcorrect] at hsettle
              cases hsettle
          | ok t' =>
              rw [hcorrect] at hsettle
              have hstart : t'.date.year ≤ lastRepeatedYear := by
                rcases (settle_forward hsettle).2 with rfl | ⟨hlt, -⟩
                · exact hyear
                · exact (Instant.year_le_of_le hlt.le).trans hyear
              obtain ⟨u', hcorrect', hu'⟩ := correct_repeatsAt
                (fun _ hbinding => hp _ (mem_periods hbinding)) h hcorrect hstart
              rw [hcorrect']
              exact ih hu' hsettle

/-! ## Searches -/

/-- The smallest move from a covered instant. -/
theorem stepPast?_repeatsAt (hp : ∀ q ∈ p.periods, q.domain?.isSome = true) (h : t.RepeatsAt u)
    (hyear : t.date.year ≤ lastRepeatedYear) (hstep : p.stepPast? t = some r) :
    ∃ r', p.stepPast? u = some r' ∧ r.RepeatsAt r' := by
  cases hlast : p.bindings.entries.getLast? with
  | none =>
      rw [stepPast?_of_empty hlast] at hstep ⊢
      have hadd := @Instant.addMillis?_repeatsAt t u h hyear 1 (by decide)
      rw [hstep] at hadd
      generalize u.addMillis? 1 = move at hadd ⊢
      cases hadd with
      | some hr => exact ⟨_, rfl, hr⟩
  | some binding =>
      obtain ⟨finest, f⟩ := binding
      rw [stepPast?_of_finest hlast] at hstep ⊢
      have hmem : (finest, f) ∈ p.bindings.entries := List.mem_of_getLast? hlast
      exact exists_earliestEntry?_repeatsAt (hp _ (mem_periods hmem)) h hyear hstep

/-- The search a cycle later. -/
theorem next_repeatsAt (hp : ∀ q ∈ p.periods, q.domain?.isSome = true) (h : t.RepeatsAt u)
    {budget : Nat} (hnext : p.next t budget = some r) (hyear : r.date.year ≤ lastRepeatedYear) :
    ∃ r', p.next u budget = some r' ∧ r.RepeatsAt r' := by
  have hstart := (Instant.year_le_of_le (next_sound hnext).1.le).trans hyear
  rw [next_eq_some, search] at hnext
  simp only [next_eq_some]
  rw [search, covers_eq_of_repeatsAt hp h]
  split at hnext
  · next hcovers =>
      rw [if_pos hcovers]
      cases hstep : p.stepPast? t with
      | none =>
          rw [hstep] at hnext
          cases hnext
      | some t' =>
          rw [hstep] at hnext
          obtain ⟨u', hstep', hu'⟩ := stepPast?_repeatsAt hp h hstart hstep
          rw [hstep']
          exact settle_repeatsAt hp hu' hnext hyear
  · next hnot =>
      rw [if_neg hnot]
      exact settle_repeatsAt hp h hnext hyear

/-- **A pattern that binds neither century nor decade nor year repeats every 400 years**, whatever its
options and its frequencies.  A cycle later it covers the instants that it covers now, and with the same
budget its search finds what it finds now, unless that is so late that the calendar may end before the
moves of the repetition do. -/
theorem next_addCycle (p : Pattern)
    (hp : ∀ q ∈ p.periods, q ≠ .century ∧ q ≠ .decade ∧ q ≠ .year) (t u : Instant)
    (hu : t.addCycle? = some u) :
    p.covers u = p.covers t ∧
      ∀ (budget : Nat) (r : Instant), p.next t budget = some r → r.date.year ≤ 262142 - 430 →
        ∃ r', r.addCycle? = some r' ∧ p.next u budget = some r' := by
  have hcyclic : ∀ q ∈ p.periods, q.domain?.isSome = true := by
    intro q hq
    obtain ⟨hcentury, hdecade, hyear⟩ := hp q hq
    cases q with
    | century => exact absurd rfl hcentury
    | decade => exact absurd rfl hdecade
    | year => exact absurd rfl hyear
    | week scope numbering => cases scope <;> cases numbering <;> rfl
    | _ => rfl
  have hrepeats := Instant.addCycle?_eq_some_iff.1 hu
  refine ⟨covers_eq_of_repeatsAt hcyclic hrepeats, fun budget r hr hyear => ?_⟩
  obtain ⟨r', hr', hrr'⟩ := next_repeatsAt hcyclic hrepeats hr hyear
  exact ⟨r', Instant.addCycle?_eq_some_iff.2 hrr', hr'⟩

/-- The noons of the 29 Februaries. -/
def leapDayNoons : Pattern :=
  ⟨⟨[(.month, .single 1), (.dayOfMonth, .single 29), (.hour, .single 12)], by decide⟩, .standard⟩

/-- The noon of 29 February in a leap year. -/
def leapDayNoon (year : Int) (hyear : (Date.ofCivil? year 1 29).isSome) : Instant :=
  ⟨(Date.ofCivil? year 1 29).get hyear, (TimeOfDay.ofParts? 12 0 0 0).get (by decide)⟩

/-- From within the leap second that ended the year 2016, the next 29 February is one of 2020.  From
the same moment of the year 2416 it is one of 2420.  A leap second in the middle of a minute of 2024 leads
to 2024, and 400 years later to 2424. -/
theorem next_addCycle_leapDay :
    (∀ q ∈ leapDayNoons.periods, q ≠ .century ∧ q ≠ .decade ∧ q ≠ .year) ∧
      (∃ u, Instant.leapSecond2016.addCycle? = some u ∧
        leapDayNoons.next Instant.leapSecond2016 3 = some (leapDayNoon 2020 (by decide)) ∧
        (leapDayNoon 2020 (by decide)).date.year ≤ 262142 - 430 ∧
        leapDayNoons.next u 3 = some (leapDayNoon 2420 (by decide))) ∧
      ∃ u, Instant.leapSecondMidMinute.addCycle? = some u ∧
        leapDayNoons.next u 3 = some (leapDayNoon 2424 (by decide)) := by
  have hbinds : ∀ q ∈ leapDayNoons.periods, q ≠ .century ∧ q ≠ .decade ∧ q ≠ .year := by decide
  have hfound : leapDayNoons.next Instant.leapSecond2016 3 = some (leapDayNoon 2020 (by decide)) := by
    decide +kernel
  have hmiddle :
      leapDayNoons.next Instant.leapSecondMidMinute 3 = some (leapDayNoon 2024 (by decide)) := by
    decide +kernel
  have hyear : (leapDayNoon 2020 (by decide)).date.year ≤ 262142 - 430 := by decide +kernel
  obtain ⟨u, hu⟩ := Option.isSome_iff_exists.1
    (show (Instant.leapSecond2016.addCycle?).isSome by decide +kernel)
  obtain ⟨u', hu'⟩ := Option.isSome_iff_exists.1
    (show (Instant.leapSecondMidMinute.addCycle?).isSome by decide +kernel)
  refine ⟨hbinds, ⟨u, hu, hfound, hyear, ?_⟩, u', hu', ?_⟩
  · obtain ⟨r, hr, hnext⟩ := (next_addCycle leapDayNoons hbinds _ u hu).2 3 _ hfound hyear
    have hcycle : (leapDayNoon 2020 (by decide)).addCycle? = some (leapDayNoon 2420 (by decide)) := by
      decide +kernel
    rw [hnext, ← hr, hcycle]
  · obtain ⟨r, hr, hnext⟩ :=
      (next_addCycle leapDayNoons hbinds _ u' hu').2 3 _ hmiddle (by decide +kernel)
    have hcycle : (leapDayNoon 2024 (by decide)).addCycle? = some (leapDayNoon 2424 (by decide)) := by
      decide +kernel
    rw [hnext, ← hr, hcycle]

end Pattern

end Recurrence
