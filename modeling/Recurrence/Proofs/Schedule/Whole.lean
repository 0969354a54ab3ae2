import Mathlib.Data.Finset.Max
import Recurrence.Proofs.Schedule.Stream

/-!
# Occurrences at whole milliseconds

Results are printed to the millisecond, so what is finer must not matter, and neither must a leap second
that does not end a minute, which has no text of its own.  Neither does: a search ends where a move ends,
and **a move that leads forward ends at a whole millisecond** of a regular time of day.  The one step that
does not come from a field is that of a pattern without fields, which goes on by a millisecond from
wherever it is; schedules that include no such pattern have their occurrences at whole milliseconds,
whatever the start is.

Hops past the exclusions keep this.  Each of them stays or ends where a move ends, from whole
milliseconds and from others.

## Main Definitions

* `Instant.IsWhole`: a regular instant at a whole millisecond
* `Schedule.IncludesByFields`: every included pattern has a field

## Main Statements

* `Pattern.isWhole_of_next`, `Pattern.isWhole_of_after`: where the searches of a pattern end
* `Occurrences.isWhole_of_mem_take`: the occurrences of a schedule
-/

namespace Recurrence

/-- Nothing finer than a millisecond is left in the time of day, and a leap second ends a minute. -/
structure Instant.IsWhole (t : Instant) : Prop where
  nano : t.time.nano % nanosPerMilli = 0
  regular : t.IsRegular

theorem Instant.AlignedTo.isWhole {t : Instant} {p : Period} (h : t.AlignedTo p) : t.IsWhole :=
  ⟨h.nano, h.regular⟩

namespace Pattern

variable {p : Pattern} {t c r : Instant} {budget : Nat}

/-- **What a search finds is at a whole millisecond**, from every start, if the pattern has a field. -/
theorem isWhole_of_next (hfields : p.bindings.entries ≠ []) (h : p.next t budget = some r) :
    r.IsWhole := by
  obtain ⟨-, -, haligned⟩ := next_sound h
  have hperiods : p.periods.toFinset.Nonempty := by
    rw [List.toFinset_nonempty_iff]
    exact mt List.map_eq_nil_iff.1 hfields
  obtain ⟨finest, hmem, hleast⟩ := p.periods.toFinset.exists_min_image Period.priority hperiods
  have hr := haligned finest (List.mem_toFinset.1 hmem) fun q hq =>
    hleast q (List.mem_toFinset.2 hq)
  exact hr.isWhole

theorem isWhole_of_earliestExit? (h : p.earliestExit? t = some c) : c.IsWhole := by
  rw [earliestExit?, List.min?_eq_some_iff, List.mem_filterMap] at h
  obtain ⟨⟨binding, -, hmove⟩, -⟩ := h
  exact (earliestMove?_forward hmove).2.isWhole

/-- **What a search for an exit finds is at a whole millisecond**, if its start is. -/
theorem isWhole_of_leave {moves : Nat} (ht : t.IsWhole) (h : p.leave moves t = .found r) :
    r.IsWhole := by
  induction moves generalizing t with
  | zero =>
      rw [leave] at h
      split at h
      · cases h
      · cases h
        exact ht
  | succ moves ih =>
      rw [leave] at h
      split at h
      · split at h
        · cases h
        · next c hexit => exact ih (isWhole_of_earliestExit? hexit) h
      · cases h
        exact ht

theorem isWhole_of_after (ht : t.IsWhole) (h : p.after t budget = some r) : r.IsWhole :=
  isWhole_of_leave ht (after_eq_some.1 h)

end Pattern

namespace Schedule

/-- Every included pattern has a field. -/
def IncludesByFields (s : Schedule) : Prop := ∀ p ∈ s.included, p.bindings.entries ≠ []

variable {s : Schedule} {t r : Instant} {budget : Nat}

theorem isWhole_of_hop {hops : Nat} (ht : t.IsWhole) (h : s.hop budget hops t = some r) :
    r.IsWhole := by
  induction hops generalizing t with
  | zero =>
      cases h
      exact ht
  | succ hops ih =>
      rw [hop] at h
      split at h
      · cases h
        exact ht
      · split at h
        · cases h
        · next c hafter => exact ih (Pattern.isWhole_of_after ht hafter) h

/-- A round ends at a whole millisecond, wherever it starts. -/
theorem isWhole_of_round? (hs : s.IncludesByFields) (h : s.round? t budget = some r) :
    r.IsWhole := by
  rw [round?, Option.bind_eq_some_iff] at h
  obtain ⟨y, hearliest, hskip⟩ := h
  rw [earliestInclude?, List.min?_eq_some_iff, List.mem_filterMap] at hearliest
  obtain ⟨⟨p, hp, hnext⟩, -⟩ := hearliest
  exact isWhole_of_hop (Pattern.isWhole_of_next (hs p hp) hnext) hskip

theorem isWhole_of_next (hs : s.IncludesByFields) (h : s.next t budget = some r) : r.IsWhole := by
  rw [next] at h
  generalize budget + 1 = rounds at h
  induction rounds generalizing t with
  | zero => cases h
  | succ rounds ih =>
      rw [search] at h
      split at h
      · cases h
      · next y hround =>
          split at h
          · cases h
            exact isWhole_of_round? hs hround
          · exact ih h

end Schedule

namespace Occurrences

variable {o : Occurrences} {r : Instant} {count : Nat}

/-- **The occurrences of a schedule are at whole milliseconds**, if every included pattern has a
field. -/
theorem isWhole_of_mem_take (hs : o.schedule.IncludesByFields) (hr : r ∈ o.take count) :
    r.IsWhole := by
  induction count generalizing o with
  | zero => cases hr
  | succ count ih =>
      cases hnext : o.next? with
      | none =>
          rw [take_succ_of_none hnext] at hr
          cases hr
      | some y =>
          rw [take_succ_of_some hnext] at hr
          rcases List.mem_cons.1 hr with rfl | hr
          · rw [next?, Option.bind_eq_some_iff] at hnext
            obtain ⟨t, -, hnext⟩ := hnext
            exact Schedule.isWhole_of_next hs hnext
          · exact @ih (o.advance (some y)) hs hr

end Occurrences

end Recurrence
