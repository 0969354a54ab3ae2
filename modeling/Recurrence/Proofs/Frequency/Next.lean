import Recurrence.Frequency.Basic

/-!
# The next value of a frequency

Where a frequency accepts a value above `n`, its next value lies above `n` too and is at most that
value: **the next value is the first accepted one**, and it does not wrap.  For lists and ranges
this rests on the order that the normal form keeps them in.

## Main Definitions

* `Frequency.LeavesWithin`: a frequency that accepts everything, or rejects a value in every window

## Main Statements

* `Frequency.next_bounds`
-/

namespace Recurrence

namespace Frequency

/-- The first value of an increasing list above `n` is at most any other one. -/
theorem find?_lt_bounds {values : List Int} (hsorted : values.Pairwise (· < ·)) {n v : Int}
    (hv : v ∈ values) (hlt : n < v) :
    ∃ w, values.find? (fun x => n < x) = some w ∧ n < w ∧ w ≤ v := by
  induction values with
  | nil => cases hv
  | cons head rest ih =>
      obtain ⟨hhead, hrest⟩ := List.pairwise_cons.1 hsorted
      by_cases hn : n < head
      · refine ⟨head, List.find?_cons_of_pos (by simpa using hn), hn, ?_⟩
        rcases List.mem_cons.1 hv with rfl | hv
        · exact Int.le_refl _
        · exact Int.le_of_lt (hhead v hv)
      · rw [List.find?_cons_of_neg (by simpa using hn)]
        rcases List.mem_cons.1 hv with rfl | hv
        · exact absurd hlt hn
        · exact ih hrest hv

/-- Among ranges sorted by their lower bounds, the value found is at most any other one above
`n`. -/
theorem nextInRanges?_bounds {bounds : List (Int × Int)}
    (hsorted : bounds.Pairwise fun a b => a.1 ≤ b.1) {n v : Int} {b : Int × Int}
    (hb : b ∈ bounds) (hlow : b.1 ≤ v) (hhigh : v ≤ b.2) (hlt : n < v) :
    ∃ w, nextInRanges? n bounds = some w ∧ n < w ∧ w ≤ v := by
  induction bounds with
  | nil => cases hb
  | cons head rest ih =>
      obtain ⟨hhead, hrest⟩ := List.pairwise_cons.1 hsorted
      have hle : head.1 ≤ b.1 := by
        rcases List.mem_cons.1 hb with rfl | hb
        · exact Int.le_refl _
        · exact hhead b hb
      unfold nextInRanges?
      split
      · next hbefore => exact ⟨head.1, rfl, hbefore, by omega⟩
      · split
        · exact ⟨n + 1, rfl, by omega, by omega⟩
        · rcases List.mem_cons.1 hb with rfl | hb
          · omega
          · exact ih hrest hb

/-- The next member of a residue class is at most any later one. -/
theorem nextInClass_bounds {step offset n v : Int} (hstep : 0 < step) (hmod : v % step = offset)
    (hlt : n < v) :
    n < n + 1 + (offset - (n + 1)) % step ∧ n + 1 + (offset - (n + 1)) % step ≤ v := by
  have hnonneg := Int.emod_nonneg (offset - (n + 1)) (Int.ne_of_gt hstep)
  have hclass : (offset - (n + 1)) % step = (v - (n + 1)) % step := by
    rw [← hmod, Int.sub_emod, Int.emod_emod_of_dvd v (Int.dvd_refl step), ← Int.sub_emod]
  -- a remainder is at most the number it is left by, for a number that is not negative
  have hdiv := Int.mul_ediv_add_emod (v - (n + 1)) step
  have hquotient : 0 ≤ (v - (n + 1)) / step := Int.ediv_nonneg (by omega) (Int.le_of_lt hstep)
  have hproduct := Int.mul_nonneg (Int.le_of_lt hstep) hquotient
  omega

/-- **The next value above `n` is at most any accepted value above `n`.** -/
theorem next_bounds (f : Frequency) {n v : Int} (hn : InValueRange n) (hv : InValueRange v)
    (hlt : n < v) (haccepts : f.accepts v = true) : n < f.next n ∧ f.next n ≤ v := by
  obtain ⟨shape, hnormal⟩ := f
  unfold accepts at haccepts
  unfold next
  cases shape with
  | always =>
      simp only
      unfold InValueRange at hn hv
      unfold saturate
      omega
  | single value =>
      have hvalue : v = value := by simpa using haccepts
      simp only
      omega
  | multiple values =>
      have hmem : v ∈ values := by simpa using haccepts
      obtain ⟨w, hw, hbounds⟩ := find?_lt_bounds hnormal.2 hmem hlt
      simp only [hw, Option.some_or, Option.getD_some]
      exact hbounds
  | every step offset =>
      have hmod : v % step = offset := by simpa using haccepts
      have hbounds := nextInClass_bounds hnormal.1 hmod hlt
      unfold InValueRange at hv
      simp only
      omega
  | ranges bounds =>
      obtain ⟨b, hb, hlow, hhigh⟩ : ∃ b ∈ bounds, b.1 ≤ v ∧ v ≤ b.2 := by
        simpa [List.any_eq_true] using haccepts
      obtain ⟨w, hw, hbounds⟩ := nextInRanges?_bounds hnormal.2.2 hb hlow hhigh hlt
      simp only [hw, Option.some_or, Option.getD_some]
      exact hbounds

/-! ## Rejected values -/

/-- The frequency accepts every value of the value range, or else rejects one among any `count`
consecutive ones. -/
def LeavesWithin (f : Frequency) (count : Nat) : Prop :=
  (∀ v, InValueRange v → f.accepts v = true) ∨
    ∀ v, InValueRange v → InValueRange (v + (count - 1 : Nat)) →
      ∃ i : Nat, i < count ∧ f.accepts (v + i) = false

/-- The frequency that was made for every value accepts every value. -/
theorem accepts_of_isAlways {f : Frequency} (h : f.isAlways = true) (v : Int) :
    f.accepts v = true := by
  have hshape : f.shape = .always := by simpa [isAlways] using h
  rw [accepts, hshape]

/-- A single value is left at once. -/
theorem leavesWithin_single {count : Nat} (hcount : 2 ≤ count) (value : Int) :
    (single value).LeavesWithin count := by
  refine .inr fun v _ _ => ?_
  by_cases hv : v = value
  · refine ⟨1, hcount, beq_eq_false_iff_ne.2 ?_⟩
    omega
  · refine ⟨0, by omega, beq_eq_false_iff_ne.2 ?_⟩
    omega

end Frequency

end Recurrence
