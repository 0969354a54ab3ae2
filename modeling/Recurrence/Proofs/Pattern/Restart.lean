import Recurrence.Proofs.Pattern.Next
import Recurrence.Proofs.Period.Nesting

/-!
# Searches from a later start

A search from a covered start leaves the run of the finest bound field, and so it matters where it
starts.  Still **what is upcoming from a later start is upcoming from an earlier one**.  The one case
that needs an argument is that of a covered start and a later one that is not covered, both in one
run of the finest field as the instant looked for: there is no such case, because between two covered
instants of a run every instant is covered.

## Main Statements

* `Pattern.covers_of_steady`: a run between covered instants is covered
* `Pattern.Upcoming.of_le`: upcoming instants of a later start are upcoming
-/

namespace Recurrence

namespace Pattern

variable {p : Pattern} {t t' m x : Instant} {finest : Period} {f : Frequency}

/-- The last of the bound periods is the finest one. -/
theorem priority_finest_le (h : p.bindings.entries.getLast? = some (finest, f))
    {binding : Period × Frequency} (hmem : binding ∈ p.bindings.entries) :
    finest.priority ≤ binding.1.priority := by
  obtain ⟨coarser, hsplit⟩ := List.getLast?_eq_some_iff.1 h
  have hsorted := p.bindings.sorted
  rw [hsplit, List.map_append, List.pairwise_append] at hsorted
  rw [hsplit, List.mem_append] at hmem
  rcases hmem with hcoarser | hlast
  · have hlt := hsorted.2.2 binding.1 (List.mem_map_of_mem hcoarser) finest List.mem_cons_self
    exact hlt.le
  · rw [List.mem_singleton.1 hlast]

/-- **Between two covered instants of one run of the finest field every instant is covered.** -/
theorem covers_of_steady (h : p.bindings.entries.getLast? = some (finest, f))
    (ht : t.IsOrdinary) (hm : m.IsOrdinary) (hx : x.IsOrdinary) (htx : t ≤ x) (hxm : x ≤ m)
    (hcoverst : p.covers t = true) (hcoversm : p.covers m = true)
    (hsteady : finest.Steady p.options t m) : p.covers x = true := by
  rw [covers_iff] at hcoverst hcoversm ⊢
  intro binding hmem
  have ht' := hcoverst binding hmem
  have hm' := hcoversm binding hmem
  rw [fieldHolds] at ht' hm' ⊢
  rcases Period.valueAt_eq_or_of_steady (priority_finest_le h hmem) ht hm hx htx hxm hsteady
    with hvalue | hvalue
  · rw [hvalue]
    exact ht'
  · rw [hvalue]
    exact hm'

/-- What lies beyond the run of a later start lies beyond that of an earlier one, if both starts are
covered. -/
theorem LeavesRun.of_le (ht : t.IsOrdinary) (ht' : t'.IsOrdinary) (htt' : t ≤ t')
    (ht'm : t' ≤ m) (h : p.LeavesRun t' m) : p.LeavesRun t m := by
  cases hlast : p.bindings.entries.getLast? with
  | none =>
      rw [leavesRun_of_empty hlast] at h ⊢
      obtain ⟨u, hu, hum⟩ := h
      rw [Instant.addMillis?_eq ht', Instant.ofNanos?_eq_some_iff] at hu
      have hnanos := (Instant.le_iff_nanos_le ht ht').1 htt'
      have hpos : (0 : Int) ≤ (1 : Nat) * nanosPerMilli := by decide
      obtain ⟨u', hu'⟩ := @Instant.exists_ofNanos? t u ht hu.1
        (t.nanos + (1 : Nat) * nanosPerMilli) (by omega) (by omega)
      refine ⟨u', by rw [Instant.addMillis?_eq ht, hu'], ?_⟩
      rw [Instant.ofNanos?_eq_some_iff] at hu'
      refine le_trans ((Instant.le_iff_nanos_le hu'.1 hu.1).2 ?_) hum
      omega
  | some binding =>
      obtain ⟨finest, f⟩ := binding
      rw [leavesRun_of_finest hlast] at h ⊢
      intro hsteady
      refine h fun x hx ht'x hxm => ?_
      rw [hsteady x hx (htt'.trans ht'x) hxm, hsteady t' ht' htt' ht'm]

/-- **What is upcoming from a later start is upcoming from an earlier one.** -/
theorem Upcoming.of_le (ht : t.IsOrdinary) (ht' : t'.IsOrdinary) (htt' : t ≤ t')
    (h : p.Upcoming t' m) : p.Upcoming t m := by
  obtain ⟨hm, ht'm, hcoversm, hleaves⟩ := h
  refine ⟨hm, htt'.trans_lt ht'm, hcoversm, fun hcoverst => ?_⟩
  by_cases hcoverst' : p.covers t' = true
  · exact (hleaves hcoverst').of_le ht ht' htt' ht'm.le
  · -- an empty pattern would cover the later start, and so would a run that both ends of are covered
    cases hlast : p.bindings.entries.getLast? with
    | none =>
        refine absurd (covers_iff.2 fun binding hmem => ?_) hcoverst'
        rw [List.getLast?_eq_none_iff.1 hlast] at hmem
        cases hmem
    | some binding =>
        obtain ⟨finest, f⟩ := binding
        rw [leavesRun_of_finest hlast]
        intro hsteady
        exact hcoverst' (covers_of_steady hlast ht hm ht' htt' ht'm.le hcoverst hcoversm hsteady)

end Pattern

end Recurrence
