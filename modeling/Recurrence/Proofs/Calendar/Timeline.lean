import Mathlib.Order.Bounds.Defs
import Mathlib.Order.Defs.LinearOrder
import Recurrence.Calendar.Instant
import Recurrence.Proofs.Calendar.Stretch

/-!
# Instants on a line

Away from leap seconds, instants are the nanoseconds of an interval of integers: `Instant.nanos`
numbers them in their order and without a gap.  Every move of a time of day is then an addition, and
an instant between two others is had by naming its number.

## Main Definitions

* `Instant.IsOrdinary`: an instant that is no moment of a leap second
* `Instant.nanos`, `Instant.ofNanos?`: the nanoseconds from the first midnight of year 0

## Main Statements

* `Instant.lt_iff_nanos_lt`, `Instant.exists_ofNanos?`: ordinary instants are an interval of integers
* `Instant.addMillis?_eq`: adding milliseconds adds to the number
* `Instant.lt_of_addMillis?`: adding milliseconds leads forward, also within a leap second
-/

namespace Recurrence

namespace Instant

/-! ## The order -/

instance : LinearOrder Instant where
  le_refl a := le_iff_rank_le.2 (Int.le_refl _)
  le_trans a b c hab hbc :=
    le_iff_rank_le.2 (Int.le_trans (le_iff_rank_le.1 hab) (le_iff_rank_le.1 hbc))
  lt_iff_le_not_ge a b := by
    rw [lt_iff_rank_lt, le_iff_rank_le, le_iff_rank_le]
    omega
  le_antisymm a b hab hba :=
    rank_inj.1 (Int.le_antisymm (le_iff_rank_le.1 hab) (le_iff_rank_le.1 hba))
  le_total a b := by
    rw [le_iff_rank_le, le_iff_rank_le]
    omega
  toDecidableLE := inferInstance
  toDecidableLT := inferInstance
  toDecidableEq := inferInstance
  min_def a b := by
    show (if b < a then b else a) = if ¬ b < a then a else b
    split <;> rfl

/-- The least of some instants is at most any of them. -/
theorem exists_min?_le {instants : List Instant} {a : Instant} (h : a ∈ instants) :
    ∃ c, instants.min? = some c ∧ c ≤ a :=
  ⟨instants.min (List.ne_nil_of_mem h), List.min?_eq_some_min _, List.min_le_of_mem h⟩

/-- Midnight of a date comes after an instant of an earlier date, and only then. -/
theorem lt_startOfDay_iff {t : Instant} {d : Date} :
    t < startOfDay d ↔ t.date.number < d.number := by
  have hs := t.time.secondOfDay_lt
  have hn := t.time.nano_lt
  rw [lt_iff_rank_lt]
  unfold rank startOfDay TimeOfDay.midnight
  unfold secondsPerDay nanosPerSecond at *
  simp only
  omega

theorem startOfDay_le_iff {t : Instant} {d : Date} :
    startOfDay d ≤ t ↔ d.number ≤ t.date.number := by
  rw [← not_lt, lt_startOfDay_iff]
  omega

theorem date_le_of_le {a b : Instant} (h : a ≤ b) : a.date.number ≤ b.date.number := by
  have hb := b.time.secondOfDay_lt
  have hn := b.time.nano_lt
  rw [le_iff_rank_le] at h
  unfold rank at h
  unfold secondsPerDay nanosPerSecond at *
  omega

/-! ## Ordinary instants -/

/-- An instant that is no moment of a leap second. -/
abbrev IsOrdinary (t : Instant) : Prop := ¬ t.IsLeap

theorem isOrdinary_iff {t : Instant} : t.IsOrdinary ↔ t.time.nano < nanosPerSecond :=
  Nat.not_le

theorem isOrdinary_startOfDay (d : Date) : (startOfDay d).IsOrdinary := by
  rw [isOrdinary_iff]
  show 0 < nanosPerSecond
  decide

/-- The nanoseconds from the first midnight of year 0 to an ordinary instant, leap seconds not
counted. -/
def nanos (t : Instant) : Int :=
  (t.date.number * secondsPerDay + t.time.secondOfDay) * nanosPerSecond + t.time.nano

theorem lt_iff_nanos_lt {a b : Instant} (ha : a.IsOrdinary) (hb : b.IsOrdinary) :
    a < b ↔ a.nanos < b.nanos := by
  have hsa := a.time.secondOfDay_lt
  have hsb := b.time.secondOfDay_lt
  rw [isOrdinary_iff] at ha hb
  rw [lt_iff_rank_lt]
  unfold rank nanos
  unfold secondsPerDay nanosPerSecond at *
  omega

theorem le_iff_nanos_le {a b : Instant} (ha : a.IsOrdinary) (hb : b.IsOrdinary) :
    a ≤ b ↔ a.nanos ≤ b.nanos := by
  rw [← not_lt, lt_iff_nanos_lt hb ha]
  omega

/-- The instant `total` nanoseconds after a second of a day, if there is one, is the ordinary
instant with that number. -/
theorem ofSeconds?_eq_some_iff {d : Date} {second total : Nat} {r : Instant} :
    ofSeconds? d second total = some r ↔
      r.IsOrdinary ∧
        r.nanos = (d.number * secondsPerDay + second) * nanosPerSecond + total := by
  have hsr := r.time.secondOfDay_lt
  simp only [ofSeconds?, Option.map_eq_some_iff, Date.addDays?, Date.ofNumber?_eq_some]
  rw [isOrdinary_iff]
  constructor
  · rintro ⟨date, hdate, rfl⟩
    unfold nanos
    unfold secondsPerDay nanosPerSecond at *
    simp only at *
    omega
  · rintro ⟨hordinary, hnanos⟩
    unfold nanos at hnanos
    unfold secondsPerDay nanosPerSecond at *
    refine ⟨r.date, by omega, ?_⟩
    refine Instant.ext rfl (TimeOfDay.ext ?_ ?_)
    · simp only
      omega
    · simp only
      omega

/-- The ordinary instant with a number, if the calendar has it. -/
def ofNanos? (n : Int) : Option Instant :=
  (Date.ofNumber? (n / (secondsPerDay * nanosPerSecond : Nat))).bind fun d =>
    ofSeconds? d 0 (n % (secondsPerDay * nanosPerSecond : Nat)).toNat

theorem ofNanos?_eq_some_iff {n : Int} {x : Instant} :
    ofNanos? n = some x ↔ x.IsOrdinary ∧ x.nanos = n := by
  have hs := x.time.secondOfDay_lt
  simp only [ofNanos?, Option.bind_eq_some_iff, Date.ofNumber?_eq_some, ofSeconds?_eq_some_iff]
  constructor
  · rintro ⟨d, hd, hordinary, hnanos⟩
    refine ⟨hordinary, ?_⟩
    rw [hnanos, hd]
    unfold secondsPerDay nanosPerSecond
    omega
  · rintro ⟨hordinary, hnanos⟩
    have hn := isOrdinary_iff.1 hordinary
    have hdate : x.date.number = n / (secondsPerDay * nanosPerSecond : Nat) := by
      unfold nanos at hnanos
      unfold secondsPerDay nanosPerSecond at *
      omega
    refine ⟨x.date, hdate, hordinary, ?_⟩
    rw [hnanos, hdate]
    unfold secondsPerDay nanosPerSecond
    omega

/-- Between two ordinary instants there is no gap. -/
theorem exists_ofNanos? {a b : Instant} (ha : a.IsOrdinary) (hb : b.IsOrdinary) {n : Int}
    (hn : a.nanos ≤ n) (hm : n ≤ b.nanos) : ∃ x, ofNanos? n = some x := by
  have hsa := a.time.secondOfDay_lt
  have hsb := b.time.secondOfDay_lt
  have hna := isOrdinary_iff.1 ha
  have hnb := isOrdinary_iff.1 hb
  obtain ⟨d, hd⟩ : ∃ d : Date, d.number = n / (secondsPerDay * nanosPerSecond : Nat) := by
    unfold nanos at hn hm
    unfold secondsPerDay nanosPerSecond at *
    exact Date.exists_number_eq (a := a.date) (b := b.date) (by omega) (by omega)
  have hfirst := d.first_le
  have hlast := d.le_last
  rw [ofNanos?, ← hd, Date.ofNumber?_number, Option.bind_some]
  refine Option.ne_none_iff_exists'.1 fun hnone => ?_
  rw [ofSeconds?, Option.map_eq_none_iff, Date.addDays?, Date.ofNumber?_eq_none] at hnone
  unfold secondsPerDay nanosPerSecond at *
  omega

/-- **Adding milliseconds to an ordinary instant adds to its number.** -/
theorem addMillis?_eq {t : Instant} (ht : t.IsOrdinary) (millis : Nat) :
    t.addMillis? millis = ofNanos? (t.nanos + millis * nanosPerMilli) := by
  have hsplit := Nat.div_add_mod millis 1000
  refine Option.ext fun r => ?_
  rw [ofNanos?_eq_some_iff, addMillis?]
  -- neither case of a leap second applies to an ordinary instant
  rw [dif_neg fun h => ht h.1, if_neg ht, ofSeconds?_eq_some_iff]
  unfold nanos
  unfold secondsPerDay nanosPerSecond nanosPerMilli
  refine and_congr_right fun _ => ?_
  omega

/-! ## Milliseconds from any instant -/

/-- The seconds of an instant that `ofSeconds?` gives, counted from day 0, and what is left of the
nanoseconds. -/
theorem ofSeconds?_parts {d : Date} {second total : Nat} {r : Instant}
    (h : ofSeconds? d second total = some r) :
    r.date.number * secondsPerDay + r.time.secondOfDay =
        d.number * secondsPerDay + second + (total / nanosPerSecond : Nat) ∧
      r.time.nano = total % nanosPerSecond := by
  rw [ofSeconds?, Option.map_eq_some_iff] at h
  obtain ⟨date, hdate, rfl⟩ := h
  rw [Date.addDays?, Date.ofNumber?_eq_some] at hdate
  refine ⟨?_, rfl⟩
  simp only
  unfold secondsPerDay at *
  omega

/-- More nanoseconds of one second are later. -/
theorem lt_add_nanos (t : Instant) {nanos : Nat} (hpos : 0 < nanos)
    (hlt : t.time.nano + nanos < 2 * nanosPerSecond) :
    t < ⟨t.date, ⟨t.time.secondOfDay, t.time.nano + nanos, t.time.secondOfDay_lt, hlt⟩⟩ :=
  .inr ⟨rfl, .inr ⟨rfl, Nat.lt_add_of_pos_right hpos⟩⟩

/-- **Adding milliseconds leads forward**, whether the start lies in a leap second or not. -/
theorem lt_of_addMillis? {t r : Instant} {millis : Nat} (hpos : 0 < millis)
    (h : t.addMillis? millis = some r) : t < r := by
  have hsplit := Nat.div_add_mod millis 1000
  rw [addMillis?] at h
  split at h
  · next hwithin =>
      -- the leap second goes on
      have hmore : 0 < millis % 1000 * nanosPerMilli := by
        have hzero := hwithin.2.1
        unfold nanosPerMilli
        omega
      cases h
      exact t.lt_add_nanos hmore _
  · next hout =>
      obtain ⟨hseconds, hnano⟩ := ofSeconds?_parts h
      have hn := t.time.nano_lt
      rw [lt_iff_rank_lt]
      unfold rank
      by_cases hleap : t.IsLeap
      · -- less than a second would have to lead out of the leap second
        have hlong : millis / 1000 = 0 →
            2 * nanosPerSecond ≤ t.time.nano + millis % 1000 * nanosPerMilli := by
          intro hzero
          by_contra hshort
          exact hout ⟨hleap, hzero, Nat.lt_of_not_le hshort⟩
        rw [if_pos hleap] at hseconds hnano
        have hstart : nanosPerSecond ≤ t.time.nano := hleap
        unfold secondsPerDay nanosPerSecond nanosPerMilli at *
        omega
      · rw [if_neg hleap] at hseconds hnano
        have hstart := isOrdinary_iff.1 hleap
        unfold secondsPerDay nanosPerSecond nanosPerMilli at *
        omega

/-- Adding milliseconds keeps what is finer than a millisecond. -/
theorem nano_mod_of_addMillis? {t r : Instant} {millis : Nat} (h : t.addMillis? millis = some r) :
    r.time.nano % nanosPerMilli = t.time.nano % nanosPerMilli := by
  rw [addMillis?] at h
  split at h
  · cases h
    unfold nanosPerMilli
    simp only
    omega
  · have hnano := (ofSeconds?_parts h).2
    rw [hnano]
    split
    · next hleap =>
        have hstart : nanosPerSecond ≤ t.time.nano := hleap
        unfold nanosPerSecond nanosPerMilli at *
        omega
    · unfold nanosPerSecond nanosPerMilli at *
      omega

end Instant

end Recurrence
