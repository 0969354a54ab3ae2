import Recurrence.Pattern.Search
import Recurrence.Proofs.Machine.Field

/-!
# Checked frequencies

What is computed with the values of a frequency, in checked steps: making one, the test of a value, the
next value, and the values that a search moves to.  **No step fails if the values of the frequency and
the value it is asked about are in the value range**, its ends included, and the results are those of the
library.

Two steps lead towards the ends.  The next value of a residue class is formed in 64 bits and brought
back to the value range at the end.  The successor of a value within a range is only formed below the
upper bound of the range, which is itself a value.

## Main Definitions

* `Frequency.InRange`, `FrequencySpec.InRange`: all values are in the value range
* `Machine.compile`, `Machine.accepts`, `Machine.next`
* `Machine.acceptedValues`, `Machine.rejectedValues`

## Main Statements

* `Machine.compile_ok`, `Machine.accepts_ok`, `Machine.next_ok`
* `Machine.acceptedValues_ok`, `Machine.rejectedValues_ok`
* `FrequencySpec.inRange_of_compile`, `Frequency.inValueRange_next`: values stay in the value range
-/

namespace Recurrence

/-! ## Frequencies with values in the value range -/

/-- All values of the shape are in the value range. -/
def Frequency.Shape.InRange : Frequency.Shape → Prop
  | .always => True
  | .single value => InValueRange value
  | .multiple values => ∀ v ∈ values, InValueRange v
  | .every step offset => InValueRange step ∧ InValueRange offset
  | .ranges bounds => ∀ b ∈ bounds, InValueRange b.1 ∧ InValueRange b.2

/-- All values of the frequency are in the value range. -/
def Frequency.InRange (f : Frequency) : Prop := f.shape.InRange

/-- All values of the description are in the value range. -/
def FrequencySpec.InRange : FrequencySpec → Prop
  | .always => True
  | .single value => InValueRange value
  | .multiple values => ∀ v ∈ values, InValueRange v
  | .every step offset => InValueRange step ∧ InValueRange offset
  | .ranges bounds => ∀ b ∈ bounds, InValueRange b.1 ∧ ∀ high, b.2 = some high → InValueRange high

/-- The remainder of a division by a value is a value. -/
theorem inValueRange_emod {n m : Int} (hm : InValueRange m) (hpos : 0 < m) : InValueRange (n % m) := by
  have hnonneg := Int.emod_nonneg n hpos.ne'
  have hlt := Int.emod_lt_of_pos n hpos
  exact ⟨le_trans (by decide) hnonneg, hlt.le.trans hm.2⟩

theorem inValueRange_min {n m : Int} (hn : InValueRange n) (hm : InValueRange m) :
    InValueRange (min n m) :=
  ⟨le_min hn.1 hm.1, (min_le_left n m).trans hn.2⟩

theorem inValueRange_max {n m : Int} (hn : InValueRange n) (hm : InValueRange m) :
    InValueRange (max n m) :=
  ⟨hn.1.trans (le_max_left n m), max_le hn.2 hm.2⟩

/-- **A frequency that is made from values of the value range has such values.** -/
theorem FrequencySpec.inRange_of_compile {spec : FrequencySpec} {f : Frequency} (h : spec.InRange)
    (hf : spec.compile = .ok f) : f.InRange := by
  cases spec with
  | always =>
      cases hf
      trivial
  | single value =>
      cases hf
      exact h
  | multiple values =>
      simp only [compile, Frequency.multiple?] at hf
      split at hf
      · cases hf
      · cases hf
        intro v hv
        exact h v (Frequency.mem_sortValues.1 hv)
  | every step offset =>
      simp only [compile, Frequency.every?] at hf
      split at hf
      · next hstep =>
          cases hf
          exact ⟨h.1, inValueRange_emod h.1 hstep⟩
      · cases hf
  | ranges bounds =>
      simp only [compile, Frequency.ranges?] at hf
      split at hf
      · cases hf
      · cases hf
        intro b hb
        obtain ⟨range, hrange, rfl⟩ := List.mem_map.1 (Frequency.mem_sortRanges.1 hb)
        obtain ⟨hfirst, hsecond⟩ := h range hrange
        -- a range without an upper bound ends where it begins
        have hother : InValueRange (range.2.getD range.1) := by
          cases hbound : range.2 with
          | none => exact hfirst
          | some high => exact hsecond high hbound
        exact ⟨inValueRange_min hfirst hother, inValueRange_max hfirst hother⟩

namespace Frequency

variable {f : Frequency} {n : Int}

theorem inValueRange_nextInRanges? {bounds : List (Int × Int)} {v : Int} (hn : InValueRange n)
    (hbounds : ∀ b ∈ bounds, InValueRange b.1 ∧ InValueRange b.2)
    (h : nextInRanges? n bounds = some v) : InValueRange v := by
  induction bounds with
  | nil => cases h
  | cons head rest ih =>
      obtain ⟨⟨hlow, hhigh⟩, hrest⟩ := List.forall_mem_cons.1 hbounds
      rw [nextInRanges?] at h
      split at h
      · cases h
        exact hlow
      · split at h
        · next hbelow =>
            cases h
            exact ⟨by linarith [hn.1], by linarith [hhigh.2]⟩
        · exact ih hrest h

/-- **The next value is in the value range.** -/
theorem inValueRange_next (hf : f.InRange) (hn : InValueRange n) : InValueRange (f.next n) := by
  obtain ⟨shape, hnormal⟩ := f
  unfold next
  cases shape with
  | always => exact inValueRange_saturate _
  | single value => exact hf
  | multiple values =>
      simp only
      cases hfound : (values.find? fun v => n < v).or values.head? with
      | none => exact hn
      | some v =>
          have hmem : v ∈ values := by
            rw [Option.or_eq_some_iff] at hfound
            rcases hfound with hfound | ⟨-, hfound⟩
            · exact List.mem_of_find?_eq_some hfound
            · exact List.mem_of_head? hfound
          exact hf v hmem
  | every step offset =>
      have hnonneg := Int.emod_nonneg (offset - (n + 1)) hnormal.1.ne'
      simp only
      obtain ⟨hlow, hhigh⟩ := hn
      refine ⟨?_, min_le_left _ _⟩
      apply le_min
      · decide
      · linarith
  | ranges bounds =>
      simp only
      cases hfound : (nextInRanges? n bounds).or (bounds.head?.map Prod.fst) with
      | none => exact hn
      | some v =>
          rw [Option.or_eq_some_iff] at hfound
          rcases hfound with hfound | ⟨-, hfound⟩
          · exact inValueRange_nextInRanges? hn hf hfound
          · obtain ⟨b, hb, rfl⟩ := Option.map_eq_some_iff.1 hfound
            exact (hf b (List.mem_of_head? hb)).1

end Frequency

namespace Machine

variable {f : Frequency} {n : Int} (p : Period)

/-! ## Making a frequency -/

/-- The shape of the frequency that a description stands for. -/
def compile (spec : FrequencySpec) : Checked (Except FrequencyError Frequency.Shape) :=
  match spec with
  | .every step offset =>
    if step ≤ 0 then return .error (.invalidStep step)
    else do
      let offset ← modFloor .i32 offset step
      return .ok (.every step offset)
  | spec => return spec.compile.map fun f => f.shape

/-- **The frequency of a description is made, or refused for its own fault.** -/
theorem compile_ok {spec : FrequencySpec} (h : spec.InRange) :
    compile spec = .ok (spec.compile.map fun f => f.shape) := by
  cases spec with
  | every step offset =>
      simp only [compile, FrequencySpec.compile, Frequency.every?]
      by_cases hstep : 0 < step
      · have hoffset : Width.i32.Holds offset := h.2
        rw [if_neg (not_le.2 hstep), dif_pos hstep, modFloor_ok hoffset hstep]
        rfl
      · rw [if_pos (not_lt.1 hstep), dif_neg hstep]
        rfl
  | always => rfl
  | single value => rfl
  | multiple values => rfl
  | ranges bounds => rfl

/-! ## Testing a value -/

/-- Does a value occur? -/
def accepts (f : Frequency) (n : Int) : Checked Bool :=
  match f.shape with
  | .always => return true
  | .single value => return n == value
  | .multiple values => return values.contains n
  | .every step offset => do
    let rest ← modFloor .i32 n step
    return rest == offset
  | .ranges bounds => return bounds.any fun b => b.1 ≤ n && n ≤ b.2

/-- **The test of a value does not fail.** -/
theorem accepts_ok (f : Frequency) (hn : InValueRange n) : accepts f n = .ok (f.accepts n) := by
  obtain ⟨shape, hnormal⟩ := f
  unfold accepts Frequency.accepts
  cases shape with
  | every step offset =>
      have hfits : Width.i32.Holds n := hn
      simp only [modFloor_ok hfits hnormal.1]
      rfl
  | always => rfl
  | single value => rfl
  | multiple values => rfl
  | ranges bounds => rfl

/-! ## The next value -/

/-- The first value within the bounds above `n`. -/
def nextInRanges? (n : Int) : List (Int × Int) → Checked (Option Int)
  | [] => return none
  | b :: rest =>
    if n < b.1 then return some b.1
    else if n < b.2 then do
      let next ← add .i32 n 1
      return some next
    else nextInRanges? n rest

/-- The value that comes after `n`. -/
def next (f : Frequency) (n : Int) : Checked Int :=
  match f.shape with
  | .always => return saturate (n + 1)
  | .single value => return value
  | .multiple values => return ((values.find? fun v => n < v).or values.head?).getD n
  | .every step offset => do
    let after ← add .i64 n 1
    let difference ← sub .i64 offset after
    let ahead ← modFloor .i64 difference step
    let next ← add .i64 after ahead
    return (Width.i32.convert? next).getD maxValue
  | .ranges bounds => do
    let next? ← nextInRanges? n bounds
    return (next?.or (bounds.head?.map Prod.fst)).getD n

/-- The successor of a value below an upper bound fits. -/
theorem nextInRanges?_ok {bounds : List (Int × Int)} (hn : InValueRange n)
    (hbounds : ∀ b ∈ bounds, InValueRange b.1 ∧ InValueRange b.2) :
    nextInRanges? n bounds = .ok (Frequency.nextInRanges? n bounds) := by
  induction bounds with
  | nil => rfl
  | cons head rest ih =>
      obtain ⟨⟨-, hhigh⟩, hrest⟩ := List.forall_mem_cons.1 hbounds
      rw [nextInRanges?, Frequency.nextInRanges?]
      split
      · rfl
      · split
        · next hbelow =>
            have hfits : InValueRange (n + 1) := ⟨by linarith [hn.1], by linarith [hhigh.2]⟩
            rw [add_ok (Width.holds_i32.2 hfits)]
            rfl
        · exact ih hrest

/-- **The next value is found**, at the ends of the value range as well. -/
theorem next_ok (hf : f.InRange) (hn : InValueRange n) : next f n = .ok (f.next n) := by
  obtain ⟨shape, hnormal⟩ := f
  unfold next Frequency.next
  cases shape with
  | always => rfl
  | single value => rfl
  | multiple values => rfl
  | ranges bounds =>
      simp only [nextInRanges?_ok hn hf]
      rfl
  | every step offset =>
      obtain ⟨hpos, hnonneg, hlt⟩ := hnormal
      obtain ⟨hlow, hhigh⟩ := hn
      obtain ⟨⟨-, hstep⟩, -⟩ := hf
      unfold minValue at hlow
      unfold maxValue at hhigh hstep
      have hahead := Int.emod_nonneg (offset - (n + 1)) hpos.ne'
      have hahead' := Int.emod_lt_of_pos (offset - (n + 1)) hpos
      have hafter : Width.i64.Holds (n + 1) :=
        Width.holds_i64_of_small (by linarith) (by linarith)
      have hdifference : Width.i64.Holds (offset - (n + 1)) :=
        Width.holds_i64_of_small (by linarith) (by linarith)
      simp only [add_ok hafter, ok_bind, sub_ok hdifference, modFloor_ok hdifference hpos]
      generalize (offset - (n + 1)) % step = ahead at hahead hahead'
      rw [add_ok (Width.holds_i64_of_small (by linarith) (by linarith)), ok_bind]
      -- past the greatest value the conversion gives that value
      by_cases hfits : n + 1 + ahead ≤ maxValue
      · have hholds : InValueRange (n + 1 + ahead) := by
          unfold InValueRange minValue
          exact ⟨by linarith, hfits⟩
        rw [Width.convert?_eq_some (Width.holds_i32.2 hholds), min_eq_right hfits]
        rfl
      · have hholds : ¬ Width.i32.Holds (n + 1 + ahead) := fun h => hfits h.2
        rw [Width.convert?_eq_none hholds, min_eq_left (not_le.1 hfits).le]
        rfl

/-! ## The values that a search moves to -/

/-- The values that pass a test. -/
def keep (test : Int → Checked Bool) : List Int → Checked (List Int)
  | [] => return []
  | v :: rest => do
    let holds ← test v
    let kept ← keep test rest
    return if holds then v :: kept else kept

/-- The first value that passes a test. -/
def first? (test : Int → Checked Bool) : List Int → Checked (Option Int)
  | [] => return none
  | v :: rest => do
    if ← test v then return some v else first? test rest

/-- The test that a value does not occur. -/
def rejects (f : Frequency) (n : Int) : Checked Bool := do
  let occurs ← accepts f n
  return !occurs

/-- The values accepted by a frequency that a period can move to from the value `current`. -/
def acceptedValues (p : Period) (f : Frequency) (current : Int) : Checked (List Int) :=
  match p.domainValues? with
  | some values => keep (accepts f) values
  | none => do
    let next ← next f current
    return [next]

/-- The values not accepted by a frequency that a period can move to from the value `current`. -/
def rejectedValues (p : Period) (f : Frequency) (current : Int) : Checked (List Int) :=
  if f.isAlways then return []
  else match p.domainValues? with
    | some values => keep (rejects f) values
    | none => do
      let found? ← first? (rejects f)
        ((List.range exitHorizon).map fun i : Nat => saturate (current + (i + 1)))
      return found?.toList

variable {test : Int → Checked Bool} {holds : Int → Bool} {values : List Int}

theorem keep_ok (h : ∀ v ∈ values, test v = .ok (holds v)) :
    keep test values = .ok (values.filter holds) := by
  induction values with
  | nil => rfl
  | cons v rest ih =>
      obtain ⟨hv, hrest⟩ := List.forall_mem_cons.1 h
      rw [keep, hv, ok_bind, ih hrest, ok_bind, List.filter_cons]
      rfl

theorem first?_ok (h : ∀ v ∈ values, test v = .ok (holds v)) :
    first? test values = .ok (values.find? holds) := by
  induction values with
  | nil => rfl
  | cons v rest ih =>
      obtain ⟨hv, hrest⟩ := List.forall_mem_cons.1 h
      rw [first?, hv, ok_bind, List.find?_cons]
      cases holds v with
      | true => rfl
      | false => exact ih hrest

theorem rejects_ok (f : Frequency) (hn : InValueRange n) : rejects f n = .ok (!f.accepts n) := by
  rw [rejects, accepts_ok f hn]
  rfl

/-- The values of a domain are in the value range. -/
theorem inValueRange_of_mem_domainValues (hvalues : p.domainValues? = some values) :
    ∀ v ∈ values, InValueRange v := by
  intro v hv
  rw [Period.domainValues?, Option.map_eq_some_iff] at hvalues
  obtain ⟨⟨low, high⟩, hdomain, rfl⟩ := hvalues
  obtain ⟨hlow, hhigh⟩ := Period.mem_valuesBetween.1 hv
  have hends : 0 ≤ low ∧ high ≤ 999 := by
    have hall : ∀ p ∈ Period.all, ∀ d ∈ p.domain?, 0 ≤ d.1 ∧ d.2 ≤ 999 := by decide
    exact hall p (Period.mem_all p) _ hdomain
  unfold InValueRange minValue maxValue
  exact ⟨by linarith [hends.1], by linarith [hends.2]⟩

/-- **The accepted values are found.** -/
theorem acceptedValues_ok {current : Int} (hf : f.InRange) (hcurrent : InValueRange current) :
    acceptedValues p f current = .ok (Recurrence.acceptedValues p f current) := by
  unfold acceptedValues Recurrence.acceptedValues
  cases hvalues : p.domainValues? with
  | none =>
      simp only [next_ok hf hcurrent]
      rfl
  | some values =>
      exact keep_ok fun v hv => accepts_ok f (inValueRange_of_mem_domainValues p hvalues v hv)

/-- **The rejected values are found.** -/
theorem rejectedValues_ok (f : Frequency) (current : Int) :
    rejectedValues p f current = .ok (Recurrence.rejectedValues p f current) := by
  unfold rejectedValues Recurrence.rejectedValues
  split
  · rfl
  · cases hvalues : p.domainValues? with
    | some values =>
        exact keep_ok fun v hv => rejects_ok f (inValueRange_of_mem_domainValues p hvalues v hv)
    | none =>
        have hrejects : ∀ v ∈ (List.range exitHorizon).map fun i : Nat => saturate (current + (i + 1)),
            rejects f v = .ok (!f.accepts v) := by
          intro v hv
          obtain ⟨i, -, rfl⟩ := List.mem_map.1 hv
          exact rejects_ok f (inValueRange_saturate _)
        simp only [first?_ok hrejects]
        rfl

/-- The values that a search moves to are in the value range. -/
theorem inValueRange_of_mem_acceptedValues {current v : Int} (hf : f.InRange)
    (hcurrent : InValueRange current) (hv : v ∈ Recurrence.acceptedValues p f current) :
    InValueRange v := by
  unfold Recurrence.acceptedValues at hv
  cases hvalues : p.domainValues? with
  | none =>
      rw [hvalues, List.mem_singleton] at hv
      rw [hv]
      exact Frequency.inValueRange_next hf hcurrent
  | some values =>
      rw [hvalues] at hv
      exact inValueRange_of_mem_domainValues p hvalues v (List.mem_filter.1 hv).1

theorem inValueRange_of_mem_rejectedValues {current v : Int}
    (hv : v ∈ Recurrence.rejectedValues p f current) : InValueRange v := by
  unfold Recurrence.rejectedValues at hv
  split at hv
  · cases hv
  · cases hvalues : p.domainValues? with
    | some values =>
        rw [hvalues] at hv
        exact inValueRange_of_mem_domainValues p hvalues v (List.mem_filter.1 hv).1
    | none =>
        rw [hvalues, Option.mem_toList] at hv
        obtain ⟨i, -, rfl⟩ := List.mem_map.1 (List.mem_of_find?_eq_some hv)
        exact inValueRange_saturate _

end Machine

end Recurrence
