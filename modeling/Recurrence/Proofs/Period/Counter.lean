import Recurrence.Period.Move
import Recurrence.Proofs.Calendar.Timeline

/-!
# Counters

Twelve of the nineteen periods count something that never stops: years, decades, quarters, months,
days, hours.  A **counter** is such a count together with the first instant of every number.  The
century, the decade and the year show the count itself; the others show its remainder on a cycle,
and a move on the cycle is a move of the count by the cyclic distance.

## Main Definitions

* `Counter`: a count of stretches of time that follow each other without a gap
* `Counter.ofDays`, `Counter.ofNanos`: stretches of whole days, and of equal length

## Main Statements

* `cyclicDistance_le`: the distance on a cycle is the least one that leads forward to a value
* `Counter.exists_start_cyclic`: the move on a cycle is not later than any instant with the value
-/

namespace Recurrence

/-! ## The distance on a cycle -/

theorem cyclicDistance_bounds (current target : Int) {cycle : Int} (h : 0 < cycle) :
    1 ≤ cyclicDistance current target cycle ∧ cyclicDistance current target cycle ≤ cycle := by
  have hnonneg := Int.emod_nonneg (target - current) (Int.ne_of_gt h)
  have hlt := Int.emod_lt_of_pos (target - current) h
  unfold cyclicDistance
  simp only
  omega

/-- The distance on a cycle is at most any way forward that ends on the target. -/
theorem cyclicDistance_le {a b cycle : Int} (h : 0 < cycle) (hlt : a < b) :
    cyclicDistance (a % cycle) (b % cycle) cycle ≤ b - a := by
  have hmod : (b % cycle - a % cycle) % cycle = (b - a) % cycle := (Int.sub_emod b a cycle).symm
  unfold cyclicDistance
  simp only
  rw [hmod]
  split
  · next hzero => exact Int.le_of_dvd (by omega) (Int.dvd_of_emod_eq_zero hzero)
  · have hdiv := Int.mul_ediv_add_emod (b - a) cycle
    have hquotient : 0 ≤ (b - a) / cycle := Int.ediv_nonneg (by omega) (Int.le_of_lt h)
    have := Int.mul_nonneg (Int.le_of_lt h) hquotient
    omega

/-- Consecutive numbers have different remainders. -/
theorem succ_emod_ne {a cycle : Int} (h : 2 ≤ cycle) : (a + 1) % cycle ≠ a % cycle := by
  intro heq
  have hdvd : cycle ∣ a + 1 - a :=
    Int.dvd_of_emod_eq_zero (Int.emod_eq_emod_iff_emod_sub_eq_zero.1 heq)
  have := Int.le_of_dvd (by omega) hdvd
  omega

/-! ## Counters -/

/-- Stretches of time that follow each other without a gap, numbered upwards. -/
structure Counter where
  /-- The number of the stretch that holds an instant. -/
  count : Instant → Int
  /-- The first instant of a stretch, if the calendar has it. -/
  start? : Int → Option Instant
  isOrdinary_start : ∀ {i s}, start? i = some s → s.IsOrdinary
  count_start : ∀ {i s}, start? i = some s → count s = i
  start_le_iff : ∀ {i s x}, start? i = some s → x.IsOrdinary → (s ≤ x ↔ i ≤ count x)
  exists_start : ∀ {x y i}, x.IsOrdinary → y.IsOrdinary → count x < i → i ≤ count y →
    ∃ s, start? i = some s

namespace Counter

variable (c : Counter)

theorem count_le_count {x y : Instant} (hx : x.IsOrdinary) (hy : y.IsOrdinary) (h : x ≤ y) :
    c.count x ≤ c.count y := by
  by_contra hlt
  obtain ⟨s, hs⟩ := c.exists_start hy hx (Int.not_le.1 hlt) (Int.le_refl _)
  have hsx : s ≤ x := (c.start_le_iff hs hx).2 (Int.le_refl _)
  exact hlt ((c.start_le_iff hs hy).1 (hsx.trans h))

/-- The starts of the stretches after that of `t`, up to that of `m`, lie between them. -/
theorem exists_start_between {t m : Instant} (ht : t.IsOrdinary) (hm : m.IsOrdinary) {i : Int}
    (hlt : c.count t < i) (hle : i ≤ c.count m) :
    ∃ s, c.start? i = some s ∧ t < s ∧ s ≤ m := by
  obtain ⟨s, hs⟩ := c.exists_start ht hm hlt hle
  refine ⟨s, hs, not_le.1 fun hst => ?_, (c.start_le_iff hs hm).2 hle⟩
  have := (c.start_le_iff hs ht).1 hst
  omega

/-- **The move on a cycle** to the value that the count has at `m` leads forward, and not beyond
`m`. -/
theorem exists_start_cyclic {cycle : Int} (hcycle : 0 < cycle) {t m : Instant}
    (ht : t.IsOrdinary) (hm : m.IsOrdinary) (h : c.count t < c.count m) :
    ∃ s, c.start? (c.count t +
        cyclicDistance (c.count t % cycle) (c.count m % cycle) cycle) = some s ∧
      t < s ∧ s ≤ m := by
  have hpos := (cyclicDistance_bounds (c.count t % cycle) (c.count m % cycle) hcycle).1
  have hle := cyclicDistance_le hcycle h
  exact c.exists_start_between ht hm (by omega) (by omega)

/-- A start that lies after `t` belongs to a later stretch. -/
theorem count_lt_of_lt_start {t s : Instant} {i : Int} (ht : t.IsOrdinary)
    (hs : c.start? i = some s) (h : t < s) : c.count t < c.count s := by
  rw [c.count_start hs]
  by_contra hle
  exact absurd ((c.start_le_iff hs ht).2 (Int.not_lt.1 hle)) (not_le.2 h)

/-- A move to the start of a stretch, or none, ends on an ordinary instant. -/
theorem isOrdinary_getD {t : Instant} (ht : t.IsOrdinary) (i : Int) :
    ((c.start? i).getD t).IsOrdinary := by
  cases h : c.start? i with
  | none => exact ht
  | some s => exact c.isOrdinary_start h

theorem count_lt_getD {t : Instant} (ht : t.IsOrdinary) {i : Int} (h : t < (c.start? i).getD t) :
    c.count t < c.count ((c.start? i).getD t) := by
  cases hs : c.start? i with
  | none =>
      rw [hs] at h
      exact absurd h (lt_irrefl t)
  | some s =>
      rw [hs] at h
      exact c.count_lt_of_lt_start ht hs h

/-- Stretches of whole days: `first` gives the numbers of their first days. -/
def ofDays (count : Date → Int) (first : Int → Int)
    (hfirst : ∀ i, first i < first (i + 1))
    (hcount : ∀ d i, count d = i ↔ first i ≤ d.number ∧ d.number < first (i + 1)) : Counter where
  count t := count t.date
  start? i := (Date.ofNumber? (first i)).map Instant.startOfDay
  isOrdinary_start := by
    intro i s hs
    obtain ⟨d, -, rfl⟩ := Option.map_eq_some_iff.1 hs
    exact Instant.isOrdinary_startOfDay d
  count_start := by
    intro i s hs
    obtain ⟨d, hd, rfl⟩ := Option.map_eq_some_iff.1 hs
    rw [Date.ofNumber?_eq_some] at hd
    have := hfirst i
    exact (hcount d i).2 (by omega)
  start_le_iff := by
    intro i s x hs _
    obtain ⟨d, hd, rfl⟩ := Option.map_eq_some_iff.1 hs
    rw [Date.ofNumber?_eq_some] at hd
    have hmono : StrictMono first := strictMono_int_of_lt_succ hfirst
    have hx := (hcount x.date _).1 rfl
    rw [Instant.startOfDay_le_iff, hd]
    constructor
    · intro h
      have := hmono.lt_iff_lt.1 (Int.lt_of_le_of_lt h hx.2)
      omega
    · intro h
      exact Int.le_trans (hmono.monotone h) hx.1
  exists_start := by
    intro x y i _ _ hx hy
    have hmono : StrictMono first := strictMono_int_of_lt_succ hfirst
    have hxb := (hcount x.date _).1 rfl
    have hyb := (hcount y.date _).1 rfl
    have hbefore : first (count x.date + 1) ≤ first i := hmono.monotone (by omega)
    have hafter : first i ≤ first (count y.date) := hmono.monotone hy
    obtain ⟨d, hd⟩ : ∃ d : Date, d.number = first i :=
      Date.exists_number_eq (a := x.date) (b := y.date) (by omega) (by omega)
    exact ⟨Instant.startOfDay d, by rw [← hd, Date.ofNumber?_number]; rfl⟩

/-- Stretches of `unit` nanoseconds. -/
def ofNanos (unit : Int) (hunit : 0 < unit) : Counter where
  count t := t.nanos / unit
  start? i := Instant.ofNanos? (i * unit)
  isOrdinary_start hs := (Instant.ofNanos?_eq_some_iff.1 hs).1
  count_start := by
    intro i s hs
    rw [(Instant.ofNanos?_eq_some_iff.1 hs).2]
    exact Int.mul_ediv_cancel _ (Int.ne_of_gt hunit)
  start_le_iff := by
    intro i s x hs hx
    obtain ⟨hordinary, hnanos⟩ := Instant.ofNanos?_eq_some_iff.1 hs
    rw [Instant.le_iff_nanos_le hordinary hx, hnanos]
    exact (Int.le_ediv_iff_mul_le hunit).symm
  exists_start := by
    intro x y i hx hy hlt hle
    have hbefore : x.nanos < i * unit := (Int.ediv_lt_iff_lt_mul hunit).1 hlt
    have hafter : i * unit ≤ y.nanos := (Int.le_ediv_iff_mul_le hunit).1 hle
    exact Instant.exists_ofNanos? hx hy (by omega) hafter

end Counter

end Recurrence
