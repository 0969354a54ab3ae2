import Recurrence.Proofs.Pattern.Move

/-!
# The next instant of a pattern

A pass corrects the fields one after another, and a finer move can break a coarser field again, so a
pass need not end on an instant that the pattern covers.  What it does keep is that **no covered
instant is passed over**: every covered instant at or after the start of a pass is at or after its
end.  A pass from an instant that is not covered also leads forward.  Hence the passes end, on the
first covered instant, as soon as the budget allows for the instants on the way to it.

## Main Definitions

* `Pattern.LeavesRun`: another run of the finest bound field
* `Pattern.Upcoming`: the instants among which a search looks for the first one
* `Pattern.start?`: where the passes of a search begin

## Main Statements

* `Pattern.correct_le`, `Pattern.settle_found`, `Pattern.exists_settle_found`
* `Pattern.next_exact`: a search finds the least of the upcoming instants
-/

namespace Recurrence

theorem Outcome.instant?_eq_some {outcome : Outcome} {r : Instant} :
    outcome.instant? = some r ↔ outcome = .found r := by
  cases outcome with
  | found t => simp [Outcome.instant?]
  | _ => simp [Outcome.instant?]

namespace Pattern

variable {p : Pattern} {o : CalendarOptions} {t t' m r : Instant}

/-! ## One pass -/

/-- A field that holds at `m` and does not at `t` is in two runs. -/
theorem run_lt_of_fieldHolds {binding : Period × Frequency} (ht : t.IsOrdinary)
    (hm : m.IsOrdinary) (htm : t ≤ m) (hnot : ¬ fieldHolds o t binding = true)
    (hholds : fieldHolds o m binding = true) : binding.1.run o t < binding.1.run o m := by
  refine Period.run_lt_of_not_steady ht hm htm (Period.not_steady_of_valueAt_ne hm htm ?_)
  intro hvalue
  rw [fieldHolds, hvalue] at hholds
  exact hnot hholds

/-- **No instant at which every field holds is passed over by a pass.** -/
theorem correct_le {entries : List (Period × Frequency)}
    (hdomain : ∀ binding ∈ entries, binding.1.DomainComplete o) (ht : t.IsOrdinary)
    (h : correct o entries t = .ok t') :
    t ≤ t' ∧ t'.IsOrdinary ∧
      (∀ m : Instant, m.IsOrdinary → t ≤ m →
        (∀ binding ∈ entries, fieldHolds o m binding = true) → t' ≤ m) ∧
      ((∃ binding ∈ entries, ¬ fieldHolds o t binding = true) → t < t') := by
  -- along the bindings, the instant reached stays at or before every `m` at which all of them hold
  induction entries generalizing t with
  | nil =>
      cases h
      refine ⟨le_rfl, ht, fun m _ htm _ => htm, ?_⟩
      rintro ⟨binding, hbinding, -⟩
      cases hbinding
  | cons head rest ih =>
      have hrest : ∀ binding ∈ rest, binding.1.DomainComplete o :=
        fun binding hbinding => hdomain binding (List.mem_cons_of_mem _ hbinding)
      rw [correct] at h
      split at h
      · next hholds =>
          obtain ⟨hle, hordinary, hleast, hforward⟩ := ih hrest ht h
          refine ⟨hle, hordinary, fun m hm htm hall => ?_, ?_⟩
          · exact hleast m hm htm fun binding hbinding => hall binding (List.mem_cons_of_mem _ hbinding)
          · rintro ⟨binding, hbinding, hnot⟩
            rcases List.mem_cons.1 hbinding with rfl | hbinding
            · exact absurd hholds hnot
            · exact hforward ⟨binding, hbinding, hnot⟩
      · next hnot =>
          split at h
          · cases h
          · next c hentry =>
              obtain ⟨htc, hc, hrun⟩ := earliestMove?_spec ht hentry
              obtain ⟨hle, hordinary, hleast, -⟩ := ih hrest hc h
              refine ⟨htc.le.trans hle, hordinary, fun m hm htm hall => ?_,
                fun _ => htc.trans_le hle⟩
              have hhead := hall head List.mem_cons_self
              obtain ⟨c', hc', hcm⟩ := exists_earliestEntry?_le
                (Period.inDomain_valueAt (hdomain head List.mem_cons_self) hm)
                ht hm (run_lt_of_fieldHolds ht hm htm hnot hhead) hhead
              rw [hentry] at hc'
              cases hc'
              exact hleast m hm hcm fun binding hbinding => hall binding (List.mem_cons_of_mem _ hbinding)

/-- A pass that gets stuck has no instant ahead at which every field holds. -/
theorem exists_correct_eq_ok {entries : List (Period × Frequency)}
    (hdomain : ∀ binding ∈ entries, binding.1.DomainComplete o) (ht : t.IsOrdinary)
    (hm : m.IsOrdinary) (htm : t ≤ m)
    (hall : ∀ binding ∈ entries, fieldHolds o m binding = true) :
    ∃ t', correct o entries t = .ok t' := by
  induction entries generalizing t with
  | nil => exact ⟨t, rfl⟩
  | cons head rest ih =>
      have hrest : ∀ binding ∈ rest, binding.1.DomainComplete o :=
        fun binding hbinding => hdomain binding (List.mem_cons_of_mem _ hbinding)
      have hallrest : ∀ binding ∈ rest, fieldHolds o m binding = true :=
        fun binding hbinding => hall binding (List.mem_cons_of_mem _ hbinding)
      rw [correct]
      split
      · exact ih hrest ht htm hallrest
      · next hnot =>
          have hhead := hall head List.mem_cons_self
          obtain ⟨c, hentry, hcm⟩ := exists_earliestEntry?_le
            (Period.inDomain_valueAt (hdomain head List.mem_cons_self) hm)
            ht hm (run_lt_of_fieldHolds ht hm htm hnot hhead) hhead
          obtain ⟨-, hc, -⟩ := earliestMove?_spec ht hentry
          simp only [hentry]
          exact ih hrest hc hcm hallrest

/-! ## The passes of a search -/

theorem exists_not_fieldHolds (h : ¬ p.covers t = true) :
    ∃ binding ∈ p.bindings.entries, ¬ fieldHolds p.options t binding = true := by
  rw [covers_iff] at h
  push Not at h
  exact h

/-- **What the passes find is the first covered instant at or after the start.** -/
theorem settle_found (hp : p.WeeksInDomain) (ht : t.IsOrdinary) {passes : Nat}
    (h : p.settle passes t = .found r) :
    IsLeast {m : Instant | m.IsOrdinary ∧ t ≤ m ∧ p.covers m = true} r := by
  induction passes generalizing t with
  | zero =>
      rw [settle] at h
      split at h
      · next hcovers =>
          cases h
          exact ⟨⟨ht, le_rfl, hcovers⟩, fun m hm => hm.2.1⟩
      · cases h
  | succ passes ih =>
      rw [settle] at h
      split at h
      · next hcovers =>
          cases h
          exact ⟨⟨ht, le_rfl, hcovers⟩, fun m hm => hm.2.1⟩
      · next hnot =>
          split at h
          · cases h
          · next t' hpass =>
              obtain ⟨hle, ht', hleast, -⟩ :=
                correct_le (fun _ => hp.domainComplete) ht hpass
              obtain ⟨⟨hr, ht'r, hcovers⟩, hfirst⟩ := ih ht' h
              refine ⟨⟨hr, hle.trans ht'r, hcovers⟩, ?_⟩
              rintro m ⟨hm, htm, hmcovers⟩
              exact hfirst ⟨hm, hleast m hm htm (covers_iff.1 hmcovers), hmcovers⟩

/-- **The passes find a covered instant** when there is one ahead and as many passes are allowed as
there are instants up to it. -/
theorem exists_settle_found (hp : p.WeeksInDomain) (ht : t.IsOrdinary) (hm : m.IsOrdinary)
    (htm : t ≤ m) (hcovers : p.covers m = true) {passes : Nat} (hpasses : m.rank - t.rank ≤ passes) :
    ∃ r, p.settle passes t = .found r := by
  induction passes generalizing t with
  | zero =>
      have hmt : m ≤ t := by
        rw [Instant.le_iff_rank_le]
        omega
      have heq : t = m := le_antisymm htm hmt
      subst heq
      exact ⟨t, by rw [settle, if_pos hcovers]⟩
  | succ passes ih =>
      rw [settle]
      split
      · exact ⟨t, rfl⟩
      · next hnot =>
          -- a pass from an uncovered instant leads forward, so it leaves a smaller way to `m`
          obtain ⟨t', hpass⟩ := exists_correct_eq_ok
            (fun _ => hp.domainComplete) ht hm htm (covers_iff.1 hcovers)
          obtain ⟨-, ht', hleast, hforward⟩ := correct_le (fun _ => hp.domainComplete) ht hpass
          have htt' := Instant.lt_iff_rank_lt.1 (hforward (exists_not_fieldHolds hnot))
          rw [hpass]
          exact ih ht' (hleast m hm htm (covers_iff.1 hcovers)) (by omega)

/-- A further pass changes nothing unless the passes were used up. -/
theorem settle_succ {passes : Nat} (h : p.settle passes t ≠ .exhausted) :
    p.settle (passes + 1) t = p.settle passes t := by
  induction passes generalizing t with
  | zero =>
      rw [settle] at h ⊢
      split
      · next hcovers => rw [settle, if_pos hcovers]
      · next hnot => exact absurd (if_neg hnot) h
  | succ passes ih =>
      by_cases hcovers : p.covers t = true
      · rw [settle, if_pos hcovers, settle, if_pos hcovers]
      · rw [settle, if_neg hcovers] at h
        rw [settle, if_neg hcovers, settle, if_neg hcovers]
        cases hpass : correct p.options p.bindings.entries t with
        | error stuck => rfl
        | ok t' =>
            rw [hpass] at h
            exact ih h

theorem settle_mono {passes larger : Nat} (hle : passes ≤ larger)
    (h : p.settle passes t ≠ .exhausted) : p.settle larger t = p.settle passes t := by
  induction hle with
  | refl => rfl
  | step _ ih => rw [settle_succ (by rwa [ih]), ih]

/-! ## The smallest move from a covered instant -/

/-- Between `t` and `m` the finest bound field changes.  A pattern that binds nothing takes each
millisecond for a run. -/
def LeavesRun (p : Pattern) (t m : Instant) : Prop :=
  match p.periods.getLast? with
  | some finest => ¬ finest.Steady p.options t m
  | none => ∃ u, t.addMillis? 1 = some u ∧ u ≤ m

/-- The instants among which a search from `t` looks for the first one: covered ones after `t`, and
beyond the run of the finest bound field that `t` is in if `t` is covered itself. -/
def Upcoming (p : Pattern) (t m : Instant) : Prop :=
  m.IsOrdinary ∧ t < m ∧ p.covers m = true ∧ (p.covers t = true → p.LeavesRun t m)

/-- Where the passes of a search begin. -/
def start? (p : Pattern) (t : Instant) : Option Instant :=
  if p.covers t then p.stepPast? t else some t

theorem next_eq (p : Pattern) (t : Instant) (budget : Nat) :
    p.next t budget = (p.start? t).bind fun c => (p.settle (budget + 1) c).instant? := by
  rw [next, search, start?]
  split
  · cases p.stepPast? t <;> rfl
  · rfl

theorem getLast?_periods (p : Pattern) :
    p.periods.getLast? = p.bindings.entries.getLast?.map Prod.fst :=
  List.getLast?_map

section Finest

variable {finest : Period} {f : Frequency}

theorem stepPast?_of_finest (h : p.bindings.entries.getLast? = some (finest, f)) :
    p.stepPast? t = earliestEntry? p.options t finest f := by
  rw [stepPast?, h]

theorem stepPast?_of_empty (h : p.bindings.entries.getLast? = none) :
    p.stepPast? t = t.addMillis? 1 := by
  rw [stepPast?, h]

theorem leavesRun_of_finest (h : p.bindings.entries.getLast? = some (finest, f)) :
    p.LeavesRun t m ↔ ¬ finest.Steady p.options t m := by
  rw [LeavesRun, getLast?_periods, h]
  rfl

theorem leavesRun_of_empty (h : p.bindings.entries.getLast? = none) :
    p.LeavesRun t m ↔ ∃ u, t.addMillis? 1 = some u ∧ u ≤ m := by
  rw [LeavesRun, getLast?_periods, h]
  rfl

end Finest

/-- **The smallest move ends where the next run of the finest field begins that can be covered.** -/
theorem stepPast?_spec (hp : p.WeeksInDomain) (ht : t.IsOrdinary) {c : Instant}
    (h : p.stepPast? t = some c) :
    c.IsOrdinary ∧ t < c ∧ ∀ m : Instant, m.IsOrdinary → p.covers m = true →
      (t < m ∧ p.LeavesRun t m ↔ c ≤ m) := by
  cases hlast : p.bindings.entries.getLast? with
  | none =>
      rw [stepPast?_of_empty hlast] at h
      -- nothing is bound: the move is a millisecond
      have hplus := Instant.addMillis?_eq ht 1
      rw [h, eq_comm, Instant.ofNanos?_eq_some_iff] at hplus
      have htc : t < c := (Instant.lt_iff_nanos_lt ht hplus.1).2 (by
        rw [hplus.2]
        unfold nanosPerMilli
        omega)
      refine ⟨hplus.1, htc, fun m _ _ => ?_⟩
      rw [leavesRun_of_empty hlast]
      constructor
      · rintro ⟨-, u, hu, hum⟩
        rw [h] at hu
        cases hu
        exact hum
      · intro hcm
        exact ⟨htc.trans_le hcm, c, h, hcm⟩
  | some binding =>
      obtain ⟨finest, f⟩ := binding
      rw [stepPast?_of_finest hlast] at h
      have hmem : (finest, f) ∈ p.bindings.entries := List.mem_of_getLast? hlast
      obtain ⟨htc, hc, hrun⟩ := earliestMove?_spec ht h
      refine ⟨hc, htc, fun m hm hcovers => ?_⟩
      rw [leavesRun_of_finest hlast]
      constructor
      · rintro ⟨htm, hleaves⟩
        obtain ⟨c', hc', hcm⟩ := exists_earliestEntry?_le
          (Period.inDomain_valueAt (hp.domainComplete hmem) hm) ht hm
          (Period.run_lt_of_not_steady ht hm htm.le hleaves) (covers_iff.1 hcovers _ hmem)
        rw [h] at hc'
        cases hc'
        exact hcm
      · intro hcm
        have hcm' := (finest.lawful p.options).run_le_run hc hm hcm
        refine ⟨htc.trans_le hcm, ?_⟩
        rw [Period.steady_iff ht hm (htc.le.trans hcm)]
        omega

theorem exists_stepPast? (hp : p.WeeksInDomain) (ht : t.IsOrdinary) (hm : m.IsOrdinary)
    (htm : t < m) (hcovers : p.covers m = true) (hleaves : p.LeavesRun t m) :
    ∃ c, p.stepPast? t = some c := by
  cases hlast : p.bindings.entries.getLast? with
  | none =>
      obtain ⟨u, hu, -⟩ := (leavesRun_of_empty hlast).1 hleaves
      exact ⟨u, by rw [stepPast?_of_empty hlast, hu]⟩
  | some binding =>
      obtain ⟨finest, f⟩ := binding
      have hmem : (finest, f) ∈ p.bindings.entries := List.mem_of_getLast? hlast
      rw [leavesRun_of_finest hlast] at hleaves
      obtain ⟨c, hc, -⟩ := exists_earliestEntry?_le
        (Period.inDomain_valueAt (hp.domainComplete hmem) hm) ht hm
        (Period.run_lt_of_not_steady ht hm htm.le hleaves) (covers_iff.1 hcovers _ hmem)
      exact ⟨c, by rw [stepPast?_of_finest hlast, hc]⟩

/-- The start of the passes splits the covered instants: the upcoming ones are those at or after
it. -/
theorem start?_spec (hp : p.WeeksInDomain) (ht : t.IsOrdinary) {c : Instant}
    (h : p.start? t = some c) :
    c.IsOrdinary ∧ t ≤ c ∧
      ∀ m : Instant, p.Upcoming t m ↔ m.IsOrdinary ∧ c ≤ m ∧ p.covers m = true := by
  rw [start?] at h
  split at h
  · next hcovers =>
      obtain ⟨hc, htc, hiff⟩ := stepPast?_spec hp ht h
      refine ⟨hc, htc.le, fun m => ⟨?_, ?_⟩⟩
      · rintro ⟨hm, htm, hmcovers, hleaves⟩
        exact ⟨hm, (hiff m hm hmcovers).1 ⟨htm, hleaves hcovers⟩, hmcovers⟩
      · rintro ⟨hm, hcm, hmcovers⟩
        obtain ⟨htm, hleaves⟩ := (hiff m hm hmcovers).2 hcm
        exact ⟨hm, htm, hmcovers, fun _ => hleaves⟩
  · next hnot =>
      cases h
      refine ⟨ht, le_rfl, fun m => ⟨?_, ?_⟩⟩
      · rintro ⟨hm, htm, hmcovers, -⟩
        exact ⟨hm, htm.le, hmcovers⟩
      · rintro ⟨hm, htm, hmcovers⟩
        refine ⟨hm, lt_of_le_of_ne htm ?_, hmcovers, fun hcovers => absurd hcovers hnot⟩
        rintro rfl
        exact hnot hmcovers

theorem exists_start? (hp : p.WeeksInDomain) (ht : t.IsOrdinary) (hm : p.Upcoming t m) :
    ∃ c, p.start? t = some c := by
  rw [start?]
  split
  · next hcovers =>
      obtain ⟨hordinary, htm, hmcovers, hleaves⟩ := hm
      exact exists_stepPast? hp ht hordinary htm hmcovers (hleaves hcovers)
  · exact ⟨t, rfl⟩

/-! ## The search -/

/-- More budget changes nothing unless the budget was used up. -/
theorem search_mono {budget larger : Nat} (hle : budget ≤ larger)
    (h : p.search t budget ≠ .exhausted) : p.search t larger = p.search t budget := by
  unfold search at h ⊢
  split at h
  · next hcovers =>
      rw [if_pos hcovers, if_pos hcovers]
      cases hstep : p.stepPast? t with
      | none => rfl
      | some c =>
          rw [hstep] at h
          exact settle_mono (Nat.succ_le_succ hle) h
  · next hnot =>
      rw [if_neg hnot, if_neg hnot]
      exact settle_mono (Nat.succ_le_succ hle) h

theorem next_eq_some {budget : Nat} :
    p.next t budget = some r ↔ p.search t budget = .found r :=
  Outcome.instant?_eq_some

/-- More budget finds the same. -/
theorem next_mono {budget larger : Nat} (hle : budget ≤ larger) (h : p.next t budget = some r) :
    p.next t larger = some r := by
  rw [next_eq_some] at h ⊢
  rw [search_mono hle (by simp [h]), h]

/-- What a search finds is the first of the upcoming instants. -/
theorem next_isLeast (hp : p.WeeksInDomain) (ht : t.IsOrdinary) {budget : Nat}
    (h : p.next t budget = some r) : IsLeast {m | p.Upcoming t m} r := by
  rw [next_eq, Option.bind_eq_some_iff] at h
  obtain ⟨c, hstart, hfound⟩ := h
  obtain ⟨hc, -, hiff⟩ := start?_spec hp ht hstart
  obtain ⟨hr, hleast⟩ := settle_found hp hc (Outcome.instant?_eq_some.1 hfound)
  exact ⟨(hiff r).2 hr, fun m hm => hleast ((hiff m).1 hm)⟩

/-- A search finds an instant when one is upcoming and the budget allows for the instants on the
way to it. -/
theorem exists_next (hp : p.WeeksInDomain) (ht : t.IsOrdinary) (hm : p.Upcoming t m) {budget : Nat}
    (hbudget : m.rank - t.rank ≤ budget) : ∃ r, p.next t budget = some r := by
  obtain ⟨c, hstart⟩ := exists_start? hp ht hm
  obtain ⟨hc, htc, hiff⟩ := start?_spec hp ht hstart
  obtain ⟨hordinary, hcm, hcovers⟩ := (hiff m).1 hm
  have hrank := Instant.le_iff_rank_le.1 htc
  obtain ⟨r, hr⟩ := @exists_settle_found p c m hp hc hordinary hcm hcovers (budget + 1) (by omega)
  exact ⟨r, by rw [next_eq, hstart, Option.bind_some, hr]; rfl⟩

/-- **A search finds the first of the upcoming instants, with every budget that suffices.**  It
finds nothing if there is none. -/
theorem next_exact (p : Pattern) (hp : p.WeeksInDomain) (t : Instant) (ht : t.IsOrdinary) :
    (∀ budget r, p.next t budget = some r → IsLeast {m | p.Upcoming t m} r) ∧
    ((∀ m, ¬ p.Upcoming t m) → ∀ budget, p.next t budget = none) ∧
    ((∃ m, p.Upcoming t m) → ∃ r, IsLeast {m | p.Upcoming t m} r ∧
      ∃ enough, ∀ budget, enough ≤ budget → p.next t budget = some r) := by
  refine ⟨fun budget r h => next_isLeast hp ht h, fun hnone budget => ?_, ?_⟩
  · rw [Option.eq_none_iff_forall_ne_some]
    intro r hr
    exact hnone r (next_isLeast hp ht hr).1
  · rintro ⟨m, hm⟩
    obtain ⟨r, hr⟩ := @exists_next p t m hp ht hm (m.rank - t.rank).toNat (by omega)
    exact ⟨r, next_isLeast hp ht hr, _, fun budget hbudget => next_mono hbudget hr⟩

/-- The day 31 that comes after 31 January 2024 is 31 March, the end of the run being midnight. -/
theorem next_exact_thirtyFirst :
    IsLeast
      {m | Pattern.Upcoming ⟨⟨[(.dayOfMonth, .single 31)], by simp⟩, .standard⟩
        (Instant.startOfDay ((Date.ofCivil? 2024 0 31).get (by decide))) m}
      (Instant.startOfDay ((Date.ofCivil? 2024 2 31).get (by decide))) :=
  (next_exact ⟨⟨[(.dayOfMonth, .single 31)], by simp⟩, .standard⟩
    (fun h => absurd h (by decide))
    (Instant.startOfDay ((Date.ofCivil? 2024 0 31).get (by decide))) (by decide)).1 1 _
    (by decide)

end Pattern

end Recurrence
