import Recurrence.Proofs.Pattern.Sound
import Recurrence.Proofs.Schedule.Next

/-!
# The stream of occurrences

Every round of a search leads strictly forward, since a pattern that includes is asked for a later
instant and hops past the exclusions do not lead back.  What ends a search is the test that its
result occurs.  So a search from **any instant and with any budget** finds a later occurrence or
nothing, and the stream of the occurrences climbs strictly until it ends.

A stream keeps no more than the last occurrence it gave.  Hence it can be resumed: a stream that
starts at the last of some occurrences gives those that the first stream goes on with.

## Main Statements

* `Schedule.next_sound`: what a search finds is a later occurrence
* `Occurrences.take_sound`, `Occurrences.take_add`, `Occurrences.answers_eq`
* `Schedule.occurrences_stream`: the stream is sound, climbs strictly, stays ended and can be resumed
-/

namespace Recurrence

namespace Schedule

variable {s : Schedule} {t r : Instant} {budget : Nat}

/-! ## Searches from any instant -/

theorem le_of_hop {hops : Nat} (h : s.hop budget hops t = some r) : t ≤ r := by
  induction hops generalizing t with
  | zero =>
      cases h
      exact le_rfl
  | succ hops ih =>
      rw [hop] at h
      split at h
      · cases h
        exact le_rfl
      · split at h
        · cases h
        · next c hafter => exact (Pattern.after_sound hafter).1.trans (ih h)

/-- A round leads forward. -/
theorem lt_of_round? (h : s.round? t budget = some r) : t < r := by
  rw [round?, Option.bind_eq_some_iff] at h
  obtain ⟨y, hearliest, hskip⟩ := h
  rw [earliestInclude?, List.min?_eq_some_iff, List.mem_filterMap] at hearliest
  obtain ⟨⟨p, -, hnext⟩, -⟩ := hearliest
  exact (Pattern.next_sound hnext).1.trans_le (le_of_hop hskip)

theorem search_sound {rounds : Nat} (h : s.search budget rounds t = some r) :
    t < r ∧ s.occurs r = true := by
  induction rounds generalizing t with
  | zero => cases h
  | succ rounds ih =>
      rw [search] at h
      split at h
      · cases h
      · next y hround =>
          have hty := lt_of_round? hround
          split at h
          · next hoccurs =>
              cases h
              exact ⟨hty, hoccurs⟩
          · obtain ⟨hyr, hoccurs⟩ := ih h
            exact ⟨hty.trans hyr, hoccurs⟩

/-- **What a search finds is a later occurrence.** -/
theorem next_sound (h : s.next t budget = some r) : t < r ∧ s.occurs r = true :=
  search_sound h

end Schedule

namespace Occurrences

variable {o : Occurrences} {t x : Instant} {count : Nat}

/-! ## One request -/

theorem take_succ_of_none (h : o.next? = none) : o.take (count + 1) = [] := by
  rw [take, h]

theorem take_succ_of_some (h : o.next? = some t) :
    o.take (count + 1) = t :: (o.advance (some t)).take count := by
  rw [take, h]

theorem next?_sound (hcursor : o.cursor = some t) (h : o.next? = some x) :
    t < x ∧ o.schedule.occurs x = true := by
  rw [next?, hcursor, Option.bind_some] at h
  exact Schedule.next_sound h

/-- An ended stream gives no more. -/
theorem answers_of_ended (h : o.cursor = none) (count : Nat) :
    o.answers count = List.replicate count none := by
  induction count with
  | zero => rfl
  | succ count ih =>
      have hnext : o.next? = none := by rw [next?, h, Option.bind_none]
      have hstays : o.advance none = o := by rw [advance, ← h]
      rw [answers, hnext, hstays, ih, List.replicate_succ]

/-! ## Many requests -/

/-- **The occurrences of a stream climb strictly from its cursor on.** -/
theorem take_sound (hcursor : o.cursor = some t) (count : Nat) :
    (o.take count).Pairwise (· < ·) ∧ ∀ r ∈ o.take count, t < r ∧ o.schedule.occurs r = true := by
  induction count generalizing o t with
  | zero => exact ⟨List.Pairwise.nil, fun r hr => by cases hr⟩
  | succ count ih =>
      cases hnext : o.next? with
      | none =>
          rw [take_succ_of_none hnext]
          exact ⟨List.Pairwise.nil, fun r hr => by cases hr⟩
      | some y =>
          obtain ⟨hty, hoccurs⟩ := next?_sound hcursor hnext
          obtain ⟨hclimbs, hlater⟩ := @ih (o.advance (some y)) y rfl
          rw [take_succ_of_some hnext]
          refine ⟨List.pairwise_cons.2 ⟨fun r hr => (hlater r hr).1, hclimbs⟩, fun r hr => ?_⟩
          rcases List.mem_cons.1 hr with rfl | hr
          · exact ⟨hty, hoccurs⟩
          · obtain ⟨hyr, hr⟩ := hlater r hr
            exact ⟨hty.trans hyr, hr⟩

/-- The answers of a stream are its occurrences and from then on nothing. -/
theorem answers_eq (o : Occurrences) (count : Nat) :
    o.answers count =
      (o.take count).map some ++ List.replicate (count - (o.take count).length) none := by
  induction count generalizing o with
  | zero => rfl
  | succ count ih =>
      cases hnext : o.next? with
      | none =>
          rw [answers, take_succ_of_none hnext, hnext, answers_of_ended rfl]
          rfl
      | some y =>
          rw [answers, take_succ_of_some hnext, hnext, ih, List.length_cons,
            Nat.add_sub_add_right]
          rfl

/-- **A stream that has ended stays so.** -/
theorem answers_getElem?_none {i j : Nat} (hij : i ≤ j) (hj : j < count)
    (h : (o.answers count)[i]? = some none) : (o.answers count)[j]? = some none := by
  rw [answers_eq] at h ⊢
  have hended : ((o.take count).map some).length ≤ i := by
    by_contra hlt
    rw [List.getElem?_append_left (Nat.lt_of_not_le hlt), List.getElem?_map,
      Option.map_eq_some_iff] at h
    obtain ⟨y, -, hy⟩ := h
    cases hy
  rw [List.getElem?_append_right (hended.trans hij), List.getElem?_replicate, if_pos]
  rw [List.length_map] at hended ⊢
  omega

/-- **A stream can be resumed from the last occurrence it gave.** -/
theorem take_add {a b : Nat} (hfull : (o.take a).length = a)
    (hlast : (o.take a).getLast? = some x) :
    o.take (a + b) = o.take a ++ (o.advance (some x)).take b := by
  induction a generalizing o with
  | zero => cases hlast
  | succ a ih =>
      cases hnext : o.next? with
      | none =>
          rw [take_succ_of_none hnext] at hlast
          cases hlast
      | some y =>
          rw [take_succ_of_some hnext] at hfull hlast ⊢
          rw [Nat.succ_add, take_succ_of_some hnext, List.cons_append]
          have hfull : ((o.advance (some y)).take a).length = a := Nat.succ.inj hfull
          cases hrest : ((o.advance (some y)).take a).getLast? with
          | none =>
              -- the occurrence just given is the last one asked for
              rw [List.getLast?_eq_none_iff] at hrest
              rw [hrest] at hfull hlast ⊢
              have ha : a = 0 := hfull.symm
              have hyx : y = x := Option.some.inj hlast
              rw [ha, hyx, Nat.zero_add, List.nil_append]
          | some z =>
              rw [List.getLast?_cons, hrest] at hlast
              cases hlast
              rw [ih hfull hrest]
              rfl

end Occurrences

namespace Schedule

/-- **The occurrences of a schedule form a stream** that is sound, climbs strictly, answers with its
occurrences and from then on with nothing, and can be resumed from the last occurrence it gave.  There is
no condition on the patterns, the start or the budget. -/
theorem occurrences_stream (s : Schedule) (start : Instant) (budget : Nat) :
    (∀ count, ((s.occurrences start budget).take count).Pairwise (· < ·) ∧
      ∀ r ∈ (s.occurrences start budget).take count, start < r ∧
        (∃ p ∈ s.included, p.covers r = true) ∧ ∀ p ∈ s.excluded, p.covers r = false) ∧
    (∀ count, (s.occurrences start budget).answers count =
      ((s.occurrences start budget).take count).map some ++
        List.replicate (count - ((s.occurrences start budget).take count).length) none) ∧
    (∀ count i j, i ≤ j → j < count →
      ((s.occurrences start budget).answers count)[i]? = some none →
      ((s.occurrences start budget).answers count)[j]? = some none) ∧
    (∀ a b x, ((s.occurrences start budget).take a).length = a →
      ((s.occurrences start budget).take a).getLast? = some x →
      (s.occurrences start budget).take (a + b) =
        (s.occurrences start budget).take a ++ (s.occurrences x budget).take b) := by
  refine ⟨fun count => ?_, fun count => Occurrences.answers_eq _ count,
    fun count i j hij hj h => Occurrences.answers_getElem?_none hij hj h,
    fun a b x hfull hlast => Occurrences.take_add hfull hlast⟩
  obtain ⟨hclimbs, hlater⟩ :=
    @Occurrences.take_sound (s.occurrences start budget) start rfl count
  refine ⟨hclimbs, fun r hr => ?_⟩
  obtain ⟨hstart, hoccurs⟩ := hlater r hr
  obtain ⟨hincludes, hexcludes⟩ := occurs_iff.1 hoccurs
  exact ⟨hstart, includes_iff.1 hincludes, excludes_eq_false_iff.1 hexcludes⟩

/-- The first three days of the year 2017 without the second of a month. -/
def newYear2017 : Schedule :=
  ⟨[⟨⟨[(.year, .single 2017), (.dayOfYear, ⟨.ranges [(1, 3)], by decide, by decide, by decide⟩)],
      by decide⟩, .standard⟩],
    [⟨⟨[(.dayOfMonth, .single 2)], by decide⟩, .standard⟩]⟩

/-- The stream of two days that starts within a leap second climbs, has ended with its third answer
and can be resumed after the first one.  Without fields it goes on from millisecond to millisecond, also
within a leap second in the middle of a minute. -/
theorem occurrences_stream_newYear :
    ((newYear2017.occurrences Instant.leapSecond2016 3).take 4).Pairwise (· < ·) ∧
      ((newYear2017.occurrences Instant.leapSecond2016 3).answers 4)[3]? = some none ∧
      (newYear2017.occurrences Instant.leapSecond2016 3).take (1 + 1) =
        (newYear2017.occurrences Instant.leapSecond2016 3).take 1 ++
          (newYear2017.occurrences
            (Instant.startOfDay ((Date.ofCivil? 2017 0 1).get (by decide))) 3).take 1 ∧
      ((occurrences ⟨[⟨⟨[], by decide⟩, .standard⟩], []⟩ Instant.leapSecondMidMinute 0).take 3).Pairwise
        (· < ·) := by
  obtain ⟨hsound, -, hended, hresumed⟩ := occurrences_stream newYear2017 Instant.leapSecond2016 3
  obtain ⟨hmillis, -⟩ :=
    occurrences_stream ⟨[⟨⟨[], by decide⟩, .standard⟩], []⟩ Instant.leapSecondMidMinute 0
  refine ⟨(hsound 4).1, hended 4 2 3 (by decide) (by decide) (by decide +kernel), ?_, (hmillis 3).1⟩
  exact hresumed 1 1 _ (by decide +kernel) (by decide +kernel)

end Schedule

end Recurrence
