import Recurrence.Proofs.Pattern.Entry
import Recurrence.Proofs.Pattern.Sound
import Recurrence.Proofs.Period.Nesting

/-!
# As many passes as fields

The parts of the time of day nest, and they nest in days.  A rule that binds some of them, and at
most one way to number the days, is therefore decided after **as many passes as it binds fields**.

A pass corrects the coarsest field that does not hold.  This move begins a run of the field, where
everything finer is at its least.  From there a finer field reaches each of its values within the
run, so the rest of the pass stays in it and corrects for good.  **A move can carry into a coarser
field only if it is the first one of its pass**, and then every field from the one moved on holds at
the end.  So each pass adds a field to those that hold at the finest end of the bindings.

## Main Definitions

* `Period.Refines`: a part of the time of day that is finer than a period
* `Pattern.Nests`: bindings of which each refines those before it
* `Pattern.IsDayAndTime`: parts of the time of day, and at most one way to number the days

## Main Statements

* `Period.exists_value_within_run`: the values that a finer field has within a run
* `Pattern.correct_reset`: corrections from the beginning of a run stay in it
* `Pattern.correct_mends`: what one pass gains
* `Pattern.settle_ne_exhausted`, `Pattern.search_ne_exhausted`: passes as many as fields
* `Pattern.next_eq_of_length_le`: no search needs more passes than there are fields
-/

namespace Recurrence

variable {p q : Period} {o : CalendarOptions} {f : Frequency} {t t' c : Instant}

/-! ## Fields within a run -/

/-- Aligned to a second or a longer period, an instant is a whole second. -/
theorem Instant.AlignedTo.nano_eq_zero (h : t.AlignedTo p)
    (hlt : Period.millisecond.priority < p.priority) : t.time.nano = 0 := by
  have hmilli := h.millisecond hlt
  have hnano := h.nano
  unfold TimeOfDay.millisecond at hmilli
  unfold nanosPerMilli at hmilli hnano
  omega

namespace Period

/-- The period `q` is a part of the time of day, and finer than `p`. -/
def Refines (p q : Period) : Prop :=
  q ∈ [hour, minute, second, millisecond] ∧ q.priority < p.priority

/-- The instant that comes `seconds` seconds and `nano` nanoseconds after a whole second, within the
day. -/
theorem exists_later_time (hwhole : t.time.nano = 0) {seconds nano : Nat}
    (hseconds : t.time.secondOfDay + seconds < 86400) (hnano : nano < 1000000000) :
    ∃ m : Instant, m.IsOrdinary ∧ t ≤ m ∧ m.date = t.date ∧
      m.time.secondOfDay = t.time.secondOfDay + seconds ∧ m.time.nano = nano := by
  refine ⟨⟨t.date, ⟨t.time.secondOfDay + seconds, nano, hseconds, ?_⟩⟩, ?_, ?_, rfl, rfl, rfl⟩
  · unfold nanosPerSecond
    omega
  · rw [Instant.isOrdinary_iff]
    exact hnano
  · rw [Instant.le_iff_rank_le]
    unfold Instant.rank secondsPerDay nanosPerSecond
    simp only
    omega

/-- Days and the parts of the time of day nest. -/
theorem run_eq_of_finer (hpq : p.priority ≤ q.priority) (hq : q.priority ≤ dayOfYear.priority)
    (ht : t.IsOrdinary) (hc : c.IsOrdinary) (h : p.run o t = p.run o c) :
    q.run o t = q.run o c := by
  rcases mem_of_priority_le hq with hday | htime
  · rw [run_day o t hday, run_day o c hday, date_eq_of_run_eq (hpq.trans hq) ht hc h]
  · exact run_eq_of_time htime hpq h

/-- **From the beginning of a run, a finer part of the time of day has each of its values within
it.** -/
theorem exists_value_within_run (hp : p.priority ≤ dayOfYear.priority) (hq : p.Refines q)
    (ht : t.IsOrdinary) (haligned : t.AlignedTo p) {v : Int} (hv : q.InDomain v) :
    ∃ m : Instant, m.IsOrdinary ∧ t ≤ m ∧ p.run o t = p.run o m ∧ q.valueAt o m = v := by
  obtain ⟨htime, hlt⟩ := hq
  have hs : t.time.secondOfDay < 86400 := t.time.secondOfDay_lt
  have hleast : ∀ r ∈ [hour, minute, second, millisecond], millisecond.priority ≤ r.priority := by
    decide
  have hwhole := haligned.nano_eq_zero ((hleast q htime).trans_lt hlt)
  -- it is enough to stay in the run of the finest period that is coarser than `q`
  have hnext : ∀ parent : Period,
      (∀ r ∈ all, q.priority < r.priority → parent.priority ≤ r.priority) →
      ∀ m : Instant, m.IsOrdinary → parent.run o t = parent.run o m → p.run o t = p.run o m :=
    fun parent hparent m hm h => run_eq_of_finer (hparent p (mem_all p) hlt) hp ht hm h
  simp only [List.mem_cons, List.not_mem_nil, or_false] at htime
  rcases htime with rfl | rfl | rfl | rfl
  · obtain ⟨hlow, hhigh⟩ := hv _ rfl
    obtain ⟨n, rfl⟩ := Int.eq_ofNat_of_zero_le hlow
    have hmidnight : t.time.secondOfDay = 0 := by rw [haligned.eq_startOfDay hlt]; rfl
    obtain ⟨m, hm, htm, hdate, hseconds, -⟩ := @exists_later_time t hwhole (3600 * n) 0 (by omega)
      (by decide)
    refine ⟨m, hm, htm, hnext dayOfMonthFromEnd (by decide) m hm ?_, ?_⟩
    · rw [run_day o t (by decide), run_day o m (by decide), hdate]
    · show ((m.time.secondOfDay / 3600 : Nat) : Int) = n
      omega
  · obtain ⟨hlow, hhigh⟩ := hv _ rfl
    obtain ⟨n, rfl⟩ := Int.eq_ofNat_of_zero_le hlow
    have hminute := haligned.minute hlt
    have hsecond := haligned.second (lt_trans (by decide) hlt)
    unfold TimeOfDay.minute at hminute
    unfold TimeOfDay.second at hsecond
    obtain ⟨m, hm, htm, hdate, hseconds, hzero⟩ := @exists_later_time t hwhole (60 * n) 0 (by omega)
      (by decide)
    refine ⟨m, hm, htm, hnext hour (by decide) m hm ?_, ?_⟩
    · rw [(run_time o t).1, (run_time o m).1]
      unfold Instant.nanos secondsPerDay nanosPerSecond
      rw [hdate]
      omega
    · show ((m.time.secondOfDay / 60 % 60 : Nat) : Int) = n
      omega
  · obtain ⟨hlow, hhigh⟩ := hv _ rfl
    obtain ⟨n, rfl⟩ := Int.eq_ofNat_of_zero_le hlow
    have hsecond := haligned.second hlt
    unfold TimeOfDay.second at hsecond
    obtain ⟨m, hm, htm, hdate, hseconds, hzero⟩ := @exists_later_time t hwhole n 0 (by omega)
      (by decide)
    refine ⟨m, hm, htm, hnext minute (by decide) m hm ?_, ?_⟩
    · rw [(run_time o t).2.1, (run_time o m).2.1]
      unfold Instant.nanos secondsPerDay nanosPerSecond
      rw [hdate]
      omega
    · show ((m.time.secondOfDay % 60 : Nat) : Int) = n
      omega
  · obtain ⟨hlow, hhigh⟩ := hv _ rfl
    obtain ⟨n, rfl⟩ := Int.eq_ofNat_of_zero_le hlow
    obtain ⟨m, hm, htm, hdate, hseconds, hnanos⟩ := @exists_later_time t hwhole 0 (n * 1000000)
      (by omega) (by omega)
    refine ⟨m, hm, htm, hnext second (by decide) m hm ?_, ?_⟩
    · rw [(run_time o t).2.2.1, (run_time o m).2.2.1]
      unfold Instant.nanos secondsPerDay nanosPerSecond
      rw [hdate]
      omega
    · show ((m.time.nano / 1000000 : Nat) : Int) = n
      omega

/-- Days and the parts of the time of day come round in cycles, and their domains are complete. -/
theorem domain_of_priority_le (hp : p.priority ≤ dayOfYear.priority) :
    p.domain? ≠ none ∧ p.DomainComplete o ∧ ∀ scope numbering, p ≠ week scope numbering := by
  have hall : ∀ q ∈ all, q.priority ≤ dayOfYear.priority → q.domain? ≠ none := by decide
  have hweek : ∀ scope numbering, p ≠ week scope numbering := by
    rintro scope numbering rfl
    revert hp
    cases scope <;> cases numbering <;> decide
  exact ⟨hall p (mem_all p) hp, fun h => absurd h (hweek _ _), hweek⟩

end Period

/-! ## Moves within a run -/

/-- A day or a part of the time of day holds where its correcting move ends. -/
theorem accepts_of_entry (hp : p.priority ≤ Period.dayOfYear.priority) (ht : t.IsOrdinary)
    (hentry : earliestEntry? o t p f = some c) : f.accepts (p.valueAt o c) = true := by
  obtain ⟨hcyclic, hcomplete, hweek⟩ := @Period.domain_of_priority_le p o hp
  by_contra hrejects
  obtain ⟨scope, numbering, heq, -⟩ :=
    strays_of_rejects hcyclic (.inl hcomplete) ht hentry (Bool.eq_false_iff.2 hrejects)
  exact hweek scope numbering heq

/-- **From the beginning of a run, the correcting move of a finer field stays in it.** -/
theorem run_eq_of_entry (hp : p.priority ≤ Period.dayOfYear.priority) (hq : p.Refines q)
    (ht : t.IsOrdinary) (haligned : t.AlignedTo p) (hrejects : f.accepts (q.valueAt o t) ≠ true)
    (hentry : earliestEntry? o t q f = some c) : p.run o t = p.run o c := by
  have hqday := hq.2.le.trans hp
  obtain ⟨-, hcomplete, -⟩ := @Period.domain_of_priority_le q o hqday
  obtain ⟨htc, hc, -⟩ := earliestMove?_spec ht hentry
  have haccepts := accepts_of_entry hqday ht hentry
  have hin := Period.inDomain_valueAt hcomplete hc
  -- the run has an instant with the value reached, and the move does not go beyond it
  obtain ⟨m, hm, htm, hrun, hvalue⟩ := Period.exists_value_within_run hp hq ht haligned hin
  have hlater : q.run o t < q.run o m := by
    refine Period.run_lt_of_not_steady ht hm htm (Period.not_steady_of_valueAt_ne hm htm ?_)
    intro heq
    rw [hvalue] at heq
    rw [heq] at haccepts
    exact hrejects haccepts
  obtain ⟨c', hc', hcm⟩ := exists_earliestEntry?_le (hvalue ▸ hin) ht hm hlater (hvalue ▸ haccepts)
  rw [hentry] at hc'
  cases hc'
  have hbefore := (p.lawful o).run_le_run ht hc htc.le
  have hafter := (p.lawful o).run_le_run hc hm hcm
  omega

/-! ## Passes -/

namespace Pattern

/-- Bindings of days and of parts of the time of day, each a refinement of those before it. -/
def Nests (entries : List (Period × Frequency)) : Prop :=
  (∀ binding ∈ entries, binding.1.priority ≤ Period.dayOfYear.priority) ∧
    (entries.map Prod.fst).Pairwise Period.Refines

theorem Nests.tail {binding : Period × Frequency} {rest : List (Period × Frequency)}
    (h : Nests (binding :: rest)) : Nests rest :=
  ⟨fun b hb => h.1 b (List.mem_cons_of_mem _ hb), (List.pairwise_cons.1 h.2).2⟩

/-- A field keeps holding within a run. -/
theorem fieldHolds_of_run_eq {binding : Period × Frequency} (ht : t.IsOrdinary) (hc : c.IsOrdinary)
    (hrun : binding.1.run o t = binding.1.run o c) (h : fieldHolds o t binding = true) :
    fieldHolds o c binding = true := by
  rw [fieldHolds, ← (binding.1.lawful o).valueAt_eq ht hc hrun]
  exact h

/-- A pass changes nothing where every field holds. -/
theorem correct_eq_self {entries : List (Period × Frequency)}
    (h : ∀ binding ∈ entries, fieldHolds o t binding = true) : correct o entries t = .ok t := by
  induction entries with
  | nil => rfl
  | cons head rest ih =>
      rw [correct, if_pos (h head List.mem_cons_self)]
      exact ih fun binding hbinding => h binding (List.mem_cons_of_mem _ hbinding)

/-- **Corrections from the beginning of a run stay in it**, and every field corrected holds. -/
theorem correct_reset {head : Period × Frequency} {fine : List (Period × Frequency)}
    (hnests : Nests (head :: fine)) (ht : t.IsOrdinary) (haligned : t.AlignedTo head.1)
    (hpass : correct o fine t = .ok t') :
    t'.IsOrdinary ∧ head.1.run o t = head.1.run o t' ∧
      ∀ binding ∈ fine, fieldHolds o t' binding = true := by
  -- each field corrected begins a run of its own, and takes the place of the head
  induction fine generalizing head t with
  | nil =>
      cases hpass
      exact ⟨ht, rfl, fun _ h => absurd h List.not_mem_nil⟩
  | cons next rest ih =>
      have hhead := hnests.1 head List.mem_cons_self
      have hnext : head.1.Refines next.1 := (List.pairwise_cons.1 hnests.2).1 _ List.mem_cons_self
      have hreached : ∀ c : Instant, c.IsOrdinary → c.AlignedTo next.1 →
          head.1.run o t = head.1.run o c → fieldHolds o c next = true →
          correct o rest c = .ok t' → t'.IsOrdinary ∧ head.1.run o t = head.1.run o t' ∧
            ∀ binding ∈ next :: rest, fieldHolds o t' binding = true := by
        intro c hc hcaligned hrun hholds hrest
        obtain ⟨ht', hnextrun, hall⟩ := ih hnests.tail hc hcaligned hrest
        refine ⟨ht', ?_, List.forall_mem_cons.2 ⟨fieldHolds_of_run_eq hc ht' hnextrun hholds, hall⟩⟩
        rw [hrun]
        exact Period.run_eq_of_finer hnext.2.le hhead hc ht' hnextrun
      rw [correct] at hpass
      split at hpass
      · next hholds => exact hreached t ht (haligned.mono hnext.2.le) rfl hholds hpass
      · next hnot =>
          split at hpass
          · cases hpass
          · next c hentry =>
              have hnextday := hnext.2.le.trans hhead
              exact hreached c (earliestMove?_spec ht hentry).2.1 (earliestMove?_forward hentry).2
                (run_eq_of_entry hhead hnext ht haligned hnot hentry)
                (accepts_of_entry hnextday ht hentry) hpass

/-- **A pass mends one more field from the finest on**: if all fields from the place `k + 1` on hold,
those from the place `k` on do after it. -/
theorem correct_mends {entries : List (Period × Frequency)} (hnests : Nests entries)
    (ht : t.IsOrdinary) {k : Nat}
    (hholds : ∀ binding ∈ entries.drop (k + 1), fieldHolds o t binding = true)
    (hpass : correct o entries t = .ok t') :
    t'.IsOrdinary ∧ ∀ binding ∈ entries.drop k, fieldHolds o t' binding = true := by
  induction entries generalizing k t with
  | nil =>
      cases hpass
      exact ⟨ht, by simp⟩
  | cons head rest ih =>
      rw [List.drop_succ_cons] at hholds
      rw [correct] at hpass
      split at hpass
      · next hhead =>
          cases k with
          | zero =>
              rw [List.drop_zero] at hholds ⊢
              rw [correct_eq_self hholds] at hpass
              cases hpass
              exact ⟨ht, List.forall_mem_cons.2 ⟨hhead, hholds⟩⟩
          | succ k => exact ih hnests.tail ht hholds hpass
      · next hnot =>
          -- the first field that is moved begins a run, and all that follows happens in it
          split at hpass
          · cases hpass
          · next c hentry =>
              have hc := (earliestMove?_spec ht hentry).2.1
              have haccepts := accepts_of_entry (hnests.1 head List.mem_cons_self) ht hentry
              obtain ⟨ht', hrun, hall⟩ :=
                correct_reset hnests hc (earliestMove?_forward hentry).2 hpass
              have hcovered : ∀ binding ∈ head :: rest, fieldHolds o t' binding = true :=
                List.forall_mem_cons.2 ⟨fieldHolds_of_run_eq hc ht' hrun haccepts, hall⟩
              exact ⟨ht', fun binding hbinding => hcovered binding (List.mem_of_mem_drop hbinding)⟩

/-- Passes as many as the fields that may fail are not used up. -/
theorem settle_ne_exhausted {pattern : Pattern} (hnests : Nests pattern.bindings.entries)
    (ht : t.IsOrdinary) {passes : Nat}
    (hholds : ∀ binding ∈ pattern.bindings.entries.drop passes,
      fieldHolds pattern.options t binding = true) :
    pattern.settle passes t ≠ .exhausted := by
  induction passes generalizing t with
  | zero =>
      rw [settle, if_pos (covers_iff.2 hholds)]
      exact Outcome.noConfusion
  | succ passes ih =>
      rw [settle]
      split
      · exact Outcome.noConfusion
      · split
        · exact Outcome.noConfusion
        · next t' hpass =>
            obtain ⟨ht', hmended⟩ := correct_mends hnests ht hholds hpass
            exact ih ht' hmended

/-! ## Days and times -/

/-- The pattern binds parts of the time of day, and at most one way to number the days. -/
def IsDayAndTime (pattern : Pattern) : Prop :=
  ∃ day ∈ [Period.dayOfYear, .dayOfWeek, .dayOfMonth, .dayOfMonthFromEnd],
    ∀ q ∈ pattern.periods, q = day ∨ q ∈ [Period.hour, .minute, .second, .millisecond]

theorem IsDayAndTime.nests {pattern : Pattern} (h : pattern.IsDayAndTime) :
    Nests pattern.bindings.entries := by
  obtain ⟨day, hday, hperiods⟩ := h
  have hdays : ∀ d ∈ [Period.dayOfYear, .dayOfWeek, .dayOfMonth, .dayOfMonthFromEnd],
      d.priority ≤ Period.dayOfYear.priority ∧
        ∀ q ∈ [Period.hour, .minute, .second, .millisecond], q.priority < d.priority := by decide
  obtain ⟨hle, htimes⟩ := hdays day hday
  have hpriority : ∀ q ∈ pattern.periods, q.priority ≤ day.priority := by
    intro q hq
    rcases hperiods q hq with rfl | htime
    · exact le_rfl
    · exact (htimes q htime).le
  refine ⟨fun binding hbinding => (hpriority _ (mem_periods hbinding)).trans hle, ?_⟩
  refine pattern.bindings.sorted.imp_of_mem fun {p q} hp hq hlt => ⟨?_, hlt⟩
  rcases hperiods q hq with rfl | htime
  · exact absurd hlt (not_lt.2 (hpriority p hp))
  · exact htime

theorem IsDayAndTime.weeksInDomain {pattern : Pattern} (h : pattern.IsDayAndTime) :
    pattern.WeeksInDomain := by
  intro hweek
  obtain ⟨binding, hbinding, heq⟩ := List.mem_map.1 hweek
  obtain ⟨-, -, hne⟩ := @Period.domain_of_priority_le binding.1 pattern.options
    (h.nests.1 binding hbinding)
  exact absurd heq (hne _ _)

/-- A search that may make as many passes as there are bound fields does not use them up. -/
theorem search_ne_exhausted {pattern : Pattern} (h : pattern.IsDayAndTime) (ht : t.IsOrdinary)
    {budget : Nat} (hbudget : pattern.periods.length ≤ budget + 1) :
    pattern.search t budget ≠ .exhausted := by
  have hlength : pattern.periods.length = pattern.bindings.entries.length := List.length_map _
  have hsettle : ∀ c : Instant, c.IsOrdinary → pattern.settle (budget + 1) c ≠ .exhausted := by
    intro c hc
    refine settle_ne_exhausted h.nests hc ?_
    rw [List.drop_eq_nil_of_le (by omega)]
    exact fun _ h => absurd h List.not_mem_nil
  rw [search]
  split
  · split
    · exact Outcome.noConfusion
    · next c hstep => exact hsettle c (stepPast?_spec h.weeksInDomain ht hstep).1
  · exact hsettle t ht

/-- **As many passes as fields decide a search** for a rule of times and of one way to number the
days, whatever its frequencies.  A larger budget changes nothing, and where nothing is found there is
nothing to find. -/
theorem next_eq_of_length_le (p : Pattern) (hp : p.IsDayAndTime) (t : Instant)
    (ht : t.IsOrdinary) :
    (∀ budget, p.periods.length - 1 ≤ budget →
      p.next t budget = p.next t (p.periods.length - 1)) ∧
    (p.next t (p.periods.length - 1) = none ↔ ∀ m, ¬ p.Upcoming t m) := by
  have hdecided := @search_ne_exhausted t p hp ht (p.periods.length - 1) (by omega)
  have henough : ∀ budget, p.periods.length - 1 ≤ budget →
      p.next t budget = p.next t (p.periods.length - 1) := by
    intro budget hbudget
    rw [next, next, search_mono hbudget hdecided]
  obtain ⟨-, hnone, hfound⟩ := next_exact p hp.weeksInDomain t ht
  refine ⟨henough, fun h m hm => ?_, fun h => hnone h _⟩
  -- with budgets enough the upcoming instant is found
  obtain ⟨r, -, enough, hr⟩ := hfound ⟨m, hm⟩
  have hlarge := hr (max enough (p.periods.length - 1)) (le_max_left _ _)
  rw [henough _ (le_max_right _ _), h] at hlarge
  cases hlarge

/-- The rule for 9:30 on days 31. -/
def thirtyFirstAtHalfPastNine : Pattern :=
  ⟨⟨[(.dayOfMonth, .single 31), (.hour, .single 9), (.minute, .single 30)], by decide⟩, .standard⟩

/-- A quarter of an hour too late for it. -/
def afterHalfPastNine : Instant :=
  ⟨(Date.ofCivil? 2024 0 31).get (by decide), (TimeOfDay.ofParts? 9 45 0 0).get (by decide)⟩

/-- All three passes can be needed.  On 31 January 2024 at 9:45 the first pass moves the minute and
with it the hour, the second one the hour and with it the day, and the third one the day. -/
theorem next_eq_of_length_le_thirtyFirst :
    thirtyFirstAtHalfPastNine.IsDayAndTime ∧
      thirtyFirstAtHalfPastNine.next afterHalfPastNine 1 = none ∧
      ∀ budget, 2 ≤ budget →
        thirtyFirstAtHalfPastNine.next afterHalfPastNine budget =
          some ⟨(Date.ofCivil? 2024 2 31).get (by decide),
            (TimeOfDay.ofParts? 9 30 0 0).get (by decide)⟩ := by
  have hday : thirtyFirstAtHalfPastNine.IsDayAndTime := ⟨.dayOfMonth, by decide, by decide⟩
  refine ⟨hday, by decide +kernel, fun budget hbudget => ?_⟩
  obtain ⟨henough, -⟩ :=
    next_eq_of_length_le thirtyFirstAtHalfPastNine hday afterHalfPastNine (by decide)
  rw [henough budget hbudget]
  decide +kernel

end Pattern

end Recurrence
