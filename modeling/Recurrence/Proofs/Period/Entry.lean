import Recurrence.Proofs.Period.Horizon

/-!
# The earliest entry of a value

A period enters a value at an instant when it has the value there and has not kept one value all the
way from the start.  **The move to a value of the domain ends on the least of these instants**, if
there is one.  Nothing is said of ordinary instants only: a moment of a leap second may be where the
value is met, and it may be what breaks the run that the start is in.

Moments of a leap second add nothing all the same.  A field shows in them what it shows in the last
nanosecond before, except for the milliseconds, which run on beyond their domain.

## Main Definitions

* `Instant.beforeLeap`: the last ordinary nanosecond before a moment of a leap second
* `Period.Enters`: the period enters a value at an instant after the start

## Main Statements

* `Period.Enters.exists_ordinary`: an entry is preceded by an ordinary instant of another run
* `Period.moveTo_isLeast_entry`: the move to a value is its earliest entry
-/

namespace Recurrence

/-! ## Leap seconds -/

/-- A time in a leap second goes back to the last ordinary nanosecond.  Other times are kept. -/
def TimeOfDay.beforeLeap (t : TimeOfDay) : TimeOfDay :=
  ⟨t.secondOfDay, min t.nano (nanosPerSecond - 1), t.secondOfDay_lt,
    Nat.lt_of_le_of_lt (Nat.min_le_left _ _) t.nano_lt⟩

namespace Instant

/-- A moment of a leap second goes back to the last ordinary nanosecond.  Other instants are kept. -/
def beforeLeap (t : Instant) : Instant := ⟨t.date, t.time.beforeLeap⟩

variable {t x : Instant}

theorem isOrdinary_beforeLeap (t : Instant) : t.beforeLeap.IsOrdinary := by
  rw [isOrdinary_iff]
  exact Nat.lt_of_le_of_lt (Nat.min_le_right _ _) (by decide)

theorem beforeLeap_of_isOrdinary (ht : t.IsOrdinary) : t.beforeLeap = t := by
  have hn := isOrdinary_iff.1 ht
  refine ext rfl (TimeOfDay.ext rfl ?_)
  show min t.time.nano (nanosPerSecond - 1) = t.time.nano
  omega

theorem beforeLeap_le (t : Instant) : t.beforeLeap ≤ t := by
  rw [le_iff_rank_le]
  unfold rank beforeLeap TimeOfDay.beforeLeap
  simp only
  omega

theorem beforeLeap_mono (h : t ≤ x) : t.beforeLeap ≤ x.beforeLeap := by
  have hst := t.time.secondOfDay_lt
  have hsx := x.time.secondOfDay_lt
  have hnt := t.time.nano_lt
  have hnx := x.time.nano_lt
  rw [le_iff_rank_le] at h ⊢
  unfold rank beforeLeap TimeOfDay.beforeLeap at *
  unfold secondsPerDay nanosPerSecond at *
  simp only
  omega

/-- An ordinary instant does not come between a leap second and what is before it. -/
theorem le_beforeLeap (ht : t.IsOrdinary) (h : t ≤ x) : t ≤ x.beforeLeap := by
  rw [← beforeLeap_of_isOrdinary ht]
  exact beforeLeap_mono h

/-- A leap second ends before the millisecond of a later ordinary instant. -/
theorem nanos_lt_of_leap {m : Instant} (ht : t.IsOrdinary) (hx : x.IsLeap) (hm : m.IsOrdinary)
    (htx : t ≤ x) (hxm : x ≤ m) : t.nanos / 1000000 < m.nanos / 1000000 := by
  have hst := t.time.secondOfDay_lt
  have hsx := x.time.secondOfDay_lt
  have hsm := m.time.secondOfDay_lt
  have hnt := isOrdinary_iff.1 ht
  have hnx : nanosPerSecond ≤ x.time.nano := hx
  have hnx' := x.time.nano_lt
  have hnm := isOrdinary_iff.1 hm
  rw [le_iff_rank_le] at htx hxm
  unfold rank at htx hxm
  unfold nanos
  unfold secondsPerDay nanosPerSecond at *
  omega

end Instant

namespace Period

variable {p : Period} {o : CalendarOptions} {v : Int} {t m x : Instant}

/-- Only the milliseconds tell a leap second from what is before it. -/
theorem valueAt_beforeLeap (hp : p ≠ .millisecond) (x : Instant) :
    p.valueAt o x.beforeLeap = p.valueAt o x := by
  cases p with
  | millisecond => exact absurd rfl hp
  | _ => rfl

/-- The milliseconds of a leap second are not in the domain. -/
theorem isOrdinary_of_millisecond (h : millisecond.valueAt o m ≤ 999) : m.IsOrdinary := by
  rw [Instant.isOrdinary_iff]
  have hvalue : millisecond.valueAt o m = ((m.time.nano / nanosPerMilli : Nat) : Int) := rfl
  unfold nanosPerSecond nanosPerMilli at *
  omega

/-! ## Entries -/

/-- The period has the value `v` at `m`, after `t`, and does not keep from `t` to `m` the value that
it has at `t`. -/
def Enters (p : Period) (o : CalendarOptions) (v : Int) (t m : Instant) : Prop :=
  t < m ∧ p.valueAt o m = v ∧ ∃ x, t ≤ x ∧ x ≤ m ∧ p.valueAt o x ≠ p.valueAt o t

/-- **An entry is preceded by an ordinary instant of another run**, which has the value too. -/
theorem Enters.exists_ordinary (h : p.Enters o v t m) (hv : p.InDomain v) (ht : t.IsOrdinary) :
    ∃ m', m'.IsOrdinary ∧ m' ≤ m ∧ p.valueAt o m' = v ∧ p.run o t < p.run o m' := by
  obtain ⟨htm, hvalue, x, htx, hxm, hne⟩ := h
  by_cases hp : p = .millisecond
  · subst hp
    have hm : m.IsOrdinary := isOrdinary_of_millisecond (hvalue ▸ (hv _ rfl).2)
    refine ⟨m, hm, le_rfl, hvalue, ?_⟩
    by_cases hx : x.IsLeap
    · exact Instant.nanos_lt_of_leap ht hx hm htx hxm
    · exact run_lt_of_not_steady ht hm htm.le fun hsteady => hne (hsteady x hx htx hxm)
  · refine ⟨m.beforeLeap, m.isOrdinary_beforeLeap, m.beforeLeap_le, ?_, ?_⟩
    · rw [valueAt_beforeLeap hp, hvalue]
    · refine run_lt_of_not_steady ht m.isOrdinary_beforeLeap (Instant.le_beforeLeap ht htm.le) ?_
      intro hsteady
      refine hne ?_
      rw [← valueAt_beforeLeap hp x]
      exact hsteady x.beforeLeap x.isOrdinary_beforeLeap (Instant.le_beforeLeap ht htx)
        (Instant.beforeLeap_mono hxm)

/-- A later ordinary instant of another run is an entry of the value there. -/
theorem enters_of_run_lt (ht : t.IsOrdinary) (hm : m.IsOrdinary) (htm : t < m)
    (hrun : p.run o t < p.run o m) : p.Enters o (p.valueAt o m) t m := by
  obtain ⟨x, -, htx, hxm, hne⟩ := (p.lawful o).exists_valueAt_ne ht hm hrun
  exact ⟨htm, rfl, x, htx, hxm, hne⟩

/-- **The move to a value of the domain is the earliest entry of the value**, whenever the calendar
has any. -/
theorem moveTo_isLeast_entry (p : Period) (o : CalendarOptions) (low high v : Int)
    (hdomain : p.domain? = some (low, high)) (hv : low ≤ v ∧ v ≤ high) (t : Instant)
    (ht : t.IsOrdinary) (hexists : ∃ m, p.Enters o v t m) :
    IsLeast {m | p.Enters o v t m} (p.moveTo o v t) := by
  have hlaws := p.lawful o
  have hin : p.InDomain v := by
    intro d hd
    rw [hdomain] at hd
    cases hd
    exact hv
  -- a move is bounded by every ordinary instant with the value in another run, so by every entry
  have hbounds : ∀ m, p.Enters o v t m → t < p.moveTo o v t ∧ p.moveTo o v t ≤ m := by
    intro m hm
    obtain ⟨m', hm', hle, hvalue, hrun⟩ := hm.exists_ordinary hin ht
    obtain ⟨hlt, hmove⟩ := hlaws.moveTo_bounds ht hm' hrun
    rw [hvalue] at hlt hmove
    exact ⟨hlt, hmove.trans hle⟩
  obtain ⟨m, hm⟩ := hexists
  obtain ⟨m', hm', -, hvalue, hrun⟩ := hm.exists_ordinary hin ht
  have hlt := (hbounds m hm).1
  refine ⟨?_, fun m hm => (hbounds m hm).2⟩
  have hentry := enters_of_run_lt ht (hlaws.isOrdinary_moveTo v ht) hlt (hlaws.run_lt_moveTo ht hlt)
  rwa [valueAt_moveTo hin ht hm' hrun hvalue] at hentry

/-- The year 1900 is no leap year: from the last day of 1896, day 366 of a year comes again after
eight years. -/
theorem moveTo_isLeast_entry_around1900 :
    IsLeast {m | dayOfYear.Enters .standard 366
        (Instant.startOfDay ((Date.ofCivil? 1896 11 31).get (by decide))) m}
      (Instant.startOfDay ((Date.ofCivil? 1904 11 31).get (by decide))) := by
  have hmove : dayOfYear.moveTo .standard 366
      (Instant.startOfDay ((Date.ofCivil? 1896 11 31).get (by decide))) =
        Instant.startOfDay ((Date.ofCivil? 1904 11 31).get (by decide)) := by decide +kernel
  rw [← hmove]
  refine moveTo_isLeast_entry dayOfYear .standard 1 366 366 rfl (by decide) _ (by decide) ?_
  exact ⟨Instant.startOfDay ((Date.ofCivil? 1904 11 31).get (by decide)), by decide, by decide,
    Instant.startOfDay ((Date.ofCivil? 1897 0 1).get (by decide)), by decide, by decide, by decide⟩

end Period

end Recurrence
