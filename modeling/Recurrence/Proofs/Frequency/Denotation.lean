import Mathlib.Data.Finset.Sort
import Mathlib.Data.Int.Interval
import Mathlib.Data.Int.ModEq
import Mathlib.Data.Set.Finite.Lattice
import Mathlib.Logic.Function.Iterate
import Mathlib.Order.Interval.Set.UnorderedInterval
import Recurrence.Frequency.Expression
import Recurrence.Proofs.Frequency.Next

/-!
# The values that a description names

A description of a frequency names a set of integers, and **the frequency compiled from it depends on
this set alone**.  It accepts the members of the set.  A finite set is gone round: after its greatest
member comes its least one.  An infinite set goes on to the end of the value range and stays there.

Ranges may overlap, contain each other or begin together, and they are kept in the order of their
lower bounds only.  The scan still stops at the first range that has a value above `n`: every range
passed over ends at or before `n`, and every range that follows begins no earlier.

## Main Definitions

* `FrequencySpec.values`: the values that a description names
* `WrapsTo`, `SaturatesTo`, `FrequencySpec.IsNext`: what comes after a value
* `FrequencySpec.Relists`: the same items, listed in another way

## Main Statements

* `Frequency.exists_cycle`: a finite set is gone round in increasing order
* `FrequencySpec.accepts_iff_mem_values`, `FrequencySpec.isNext_next`: what a compiled frequency does
* `FrequencySpec.eq_of_values_eq`: it depends on the values alone
* `FrequencyInput.compile_denotes`
-/

namespace Recurrence

variable {D : Set Int} {n m v : Int} {f f' : Frequency}

/-! ## What comes after a value -/

/-- The least member of `D` above `n`, or the least one of all if there is none. -/
def WrapsTo (D : Set Int) (n m : Int) : Prop :=
  IsLeast {v | v ∈ D ∧ n < v} m ∨ (∀ v ∈ D, v ≤ n) ∧ IsLeast D m

/-- The least member of `D` above `n` within the value range, or its end if there is none. -/
def SaturatesTo (D : Set Int) (n m : Int) : Prop :=
  IsLeast {v | v ∈ D ∧ n < v ∧ InValueRange v} m ∨
    (∀ v ∈ D, n < v → ¬ InValueRange v) ∧ m = maxValue

theorem WrapsTo.unique {m' : Int} (h : WrapsTo D n m) (h' : WrapsTo D n m') : m = m' := by
  rcases h with h | ⟨hlast, h⟩ <;> rcases h' with h' | ⟨hlast', h'⟩
  · exact h.unique h'
  · exact absurd (hlast' m h.1.1) (not_le.2 h.1.2)
  · exact absurd (hlast m' h'.1.1) (not_le.2 h'.1.2)
  · exact h.unique h'

theorem SaturatesTo.unique {m' : Int} (h : SaturatesTo D n m) (h' : SaturatesTo D n m') :
    m = m' := by
  rcases h with h | ⟨hlast, rfl⟩ <;> rcases h' with h' | ⟨hlast', rfl⟩
  · exact h.unique h'
  · exact absurd h.1.2.2 (hlast' m h.1.1 h.1.2.1)
  · exact absurd h'.1.2.2 (hlast m' h'.1.1 h'.1.2.1)
  · rfl

theorem WrapsTo.mem (h : WrapsTo D n m) : m ∈ D := by
  rcases h with h | ⟨-, h⟩
  · exact h.1.1
  · exact h.1

/-- A search for a member above `n` that finds one no later than any other, with the least member to
begin again. -/
theorem wrapsTo_of_search {search : Option Int} {first : Int} (hfirst : IsLeast D first)
    (hfound : ∀ w, search = some w → w ∈ D ∧ n < w)
    (hleast : ∀ v ∈ D, n < v → ∃ w, search = some w ∧ w ≤ v) :
    WrapsTo D n ((search.or (some first)).getD n) := by
  cases hsearch : search with
  | none =>
      refine .inr ⟨fun v hv => ?_, hfirst⟩
      by_contra hlater
      obtain ⟨w, hw, -⟩ := hleast v hv (not_le.1 hlater)
      rw [hsearch] at hw
      cases hw
  | some w =>
      refine .inl ⟨hfound w hsearch, fun v hv => ?_⟩
      obtain ⟨w', hw', hle⟩ := hleast v hv.1 hv.2
      rw [hsearch] at hw'
      cases hw'
      exact hle

namespace Frequency

/-! ## The shapes that have a next value to look for -/

/-- In an increasing list the search for a later value finds the first one. -/
theorem wrapsTo_next_multiple {xs : List Int} (hnormal : (Shape.multiple xs).Normal) (n : Int) :
    WrapsTo {v | v ∈ xs} n (next ⟨.multiple xs, hnormal⟩ n) := by
  obtain ⟨hne, hsorted⟩ := hnormal
  obtain ⟨first, rest, rfl⟩ := List.exists_cons_of_ne_nil hne
  have hfirst : IsLeast {v | v ∈ first :: rest} first := by
    refine ⟨List.mem_cons_self, fun v hv => ?_⟩
    rcases List.mem_cons.1 hv with rfl | hv
    · exact le_rfl
    · exact ((List.pairwise_cons.1 hsorted).1 v hv).le
  refine wrapsTo_of_search hfirst (fun w hw => ?_) fun v hv hlater => ?_
  · have hlater := List.find?_some (p := fun v => decide (n < v)) hw
    exact ⟨List.mem_of_find?_eq_some hw, of_decide_eq_true hlater⟩
  · obtain ⟨w, hw, -, hle⟩ := find?_lt_bounds hsorted hv hlater
    exact ⟨w, hw, hle⟩

/-- What the scan of the ranges finds is a value of one of them. -/
theorem mem_of_nextInRanges? {bounds : List (Int × Int)} (hordered : ∀ b ∈ bounds, b.1 ≤ b.2)
    {w : Int} (h : nextInRanges? n bounds = some w) :
    (∃ b ∈ bounds, b.1 ≤ w ∧ w ≤ b.2) ∧ n < w := by
  induction bounds with
  | nil => cases h
  | cons head rest ih =>
      unfold nextInRanges? at h
      split at h
      · next hbefore =>
          cases h
          exact ⟨⟨head, List.mem_cons_self, le_rfl, hordered head List.mem_cons_self⟩, hbefore⟩
      · next hnot =>
          split at h
          · next hwithin =>
              cases h
              exact ⟨⟨head, List.mem_cons_self, by omega, by omega⟩, by omega⟩
          · obtain ⟨⟨b, hb, hbetween⟩, hlater⟩ :=
              ih (fun b hb => hordered b (List.mem_cons_of_mem _ hb)) h
            exact ⟨⟨b, List.mem_cons_of_mem _ hb, hbetween⟩, hlater⟩

/-- Among ranges sorted by their lower bounds the scan finds the first later value, however they
overlap. -/
theorem wrapsTo_next_ranges {bounds : List (Int × Int)} (hnormal : (Shape.ranges bounds).Normal)
    (n : Int) :
    WrapsTo {v | ∃ b ∈ bounds, b.1 ≤ v ∧ v ≤ b.2} n (next ⟨.ranges bounds, hnormal⟩ n) := by
  obtain ⟨hne, hordered, hsorted⟩ := hnormal
  obtain ⟨first, rest, rfl⟩ := List.exists_cons_of_ne_nil hne
  have hfirst : IsLeast {v | ∃ b ∈ first :: rest, b.1 ≤ v ∧ v ≤ b.2} first.1 := by
    refine ⟨⟨first, List.mem_cons_self, le_rfl, hordered first List.mem_cons_self⟩, ?_⟩
    rintro v ⟨b, hb, hlow, -⟩
    rcases List.mem_cons.1 hb with rfl | hb
    · exact hlow
    · exact ((List.pairwise_cons.1 hsorted).1 b hb).trans hlow
  refine wrapsTo_of_search hfirst (fun w hw => mem_of_nextInRanges? hordered hw) ?_
  rintro v ⟨b, hb, hlow, hhigh⟩ hlater
  obtain ⟨w, hw, -, hle⟩ := nextInRanges?_bounds hsorted hb hlow hhigh hlater
  exact ⟨w, hw, hle⟩

/-- The next member of a residue class, up to the end of the value range. -/
theorem saturatesTo_next_every {step offset : Int} (hnormal : (Shape.every step offset).Normal)
    (hn : InValueRange n) :
    SaturatesTo {v | v % step = offset} n (next ⟨.every step offset, hnormal⟩ n) := by
  obtain ⟨hstep, hlow, hhigh⟩ := hnormal
  have hnonneg := Int.emod_nonneg (offset - (n + 1)) (Int.ne_of_gt hstep)
  have hclass : (n + 1 + (offset - (n + 1)) % step) % step = offset := by
    rw [Int.add_emod_emod, add_sub_cancel, Int.emod_eq_of_lt hlow hhigh]
  have hbounds : ∀ v, v % step = offset → n < v → n + 1 + (offset - (n + 1)) % step ≤ v :=
    fun v hv hlater => (nextInClass_bounds hstep hv hlater).2
  show SaturatesTo _ n (min maxValue (n + 1 + (offset - (n + 1)) % step))
  have hlater : n < n + 1 + (offset - (n + 1)) % step := by omega
  generalize n + 1 + (offset - (n + 1)) % step = w at hclass hbounds hlater ⊢
  unfold InValueRange at hn
  by_cases hfits : w ≤ maxValue
  · rw [min_eq_right hfits]
    refine .inl ⟨⟨hclass, hlater, by unfold InValueRange; omega⟩, ?_⟩
    rintro v ⟨hv, hnv, -⟩
    exact hbounds v hv hnv
  · refine .inr ⟨fun v hv hnv hrange => ?_, min_eq_left (not_le.1 hfits).le⟩
    exact hfits ((hbounds v hv hnv).trans hrange.2)

/-! ## Going round -/

/-- In increasing order, what comes after a member of a list is the one at the next place, and the
first one after the last. -/
theorem wrapsTo_of_pairwise {members : List Int} (hsorted : members.Pairwise (· < ·))
    (hmem : ∀ v, v ∈ members ↔ v ∈ D) {j : Nat} {w : Int} (hv : members[j]? = some v)
    (hw : members[(j + 1) % members.length]? = some w) : WrapsTo D v w := by
  obtain ⟨hj, rfl⟩ := List.getElem?_eq_some_iff.1 hv
  have hlt := List.pairwise_iff_getElem.1 hsorted
  have hle : ∀ i k (hi : i < members.length) (hk : k < members.length), i ≤ k →
      members[i] ≤ members[k] := by
    intro i k hi hk hik
    rcases Nat.lt_or_eq_of_le hik with h | rfl
    · exact (hlt i k hi hk h).le
    · exact le_rfl
  rcases Nat.lt_or_eq_of_le (Nat.succ_le_of_lt hj) with hnext | hlast
  · rw [Nat.mod_eq_of_lt hnext] at hw
    obtain ⟨-, rfl⟩ := List.getElem?_eq_some_iff.1 hw
    refine .inl ⟨⟨(hmem _).1 (List.getElem_mem _), hlt _ _ _ _ (Nat.lt_succ_self j)⟩, ?_⟩
    rintro u ⟨hu, hlater⟩
    obtain ⟨i, hi, rfl⟩ := List.getElem_of_mem ((hmem u).2 hu)
    refine hle _ _ _ _ (Nat.succ_le_of_lt (Nat.lt_of_not_le fun hij => ?_))
    exact absurd (hle i j hi hj hij) (not_le.2 hlater)
  · rw [show j + 1 = members.length from hlast, Nat.mod_self] at hw
    obtain ⟨-, rfl⟩ := List.getElem?_eq_some_iff.1 hw
    refine .inr ⟨fun u hu => ?_, (hmem _).1 (List.getElem_mem _), fun u hu => ?_⟩
    · obtain ⟨i, hi, rfl⟩ := List.getElem_of_mem ((hmem u).2 hu)
      exact hle _ _ _ _ (by omega)
    · obtain ⟨i, hi, rfl⟩ := List.getElem_of_mem ((hmem u).2 hu)
      exact hle _ _ _ _ (Nat.zero_le i)

/-- **A finite set is gone round**: from any member, `next` leads through all of them in increasing
order, each once, and begins again. -/
theorem exists_cycle (hfinite : D.Finite) (hne : D.Nonempty)
    (hnext : ∀ n, WrapsTo D n (f.next n)) :
    ∃ members : List Int, members ≠ [] ∧ members.Pairwise (· < ·) ∧ (∀ v, v ∈ members ↔ v ∈ D) ∧
      ∀ j v, members[j]? = some v →
        ∀ k, members[(j + k) % members.length]? = some (f.next^[k] v) := by
  obtain ⟨members, hsorted, hmem⟩ : ∃ members : List Int,
      members.Pairwise (· < ·) ∧ ∀ v, v ∈ members ↔ v ∈ D :=
    ⟨hfinite.toFinset.sort, (Finset.sortedLT_sort _).pairwise, fun v => by
      rw [Finset.mem_sort, Set.Finite.mem_toFinset]⟩
  obtain ⟨first, hfirst⟩ := hne
  have hfilled : members ≠ [] := List.ne_nil_of_mem ((hmem first).2 hfirst)
  refine ⟨members, hfilled, hsorted, hmem, fun j v hv k => ?_⟩
  induction k with
  | zero =>
      obtain ⟨hj, -⟩ := List.getElem?_eq_some_iff.1 hv
      rw [Nat.add_zero, Nat.mod_eq_of_lt hj]
      exact hv
  | succ k ih =>
      have hplace : (j + (k + 1)) % members.length =
          ((j + k) % members.length + 1) % members.length := by
        rw [Nat.mod_add_mod, Nat.add_assoc]
      have hlt : ((j + k) % members.length + 1) % members.length < members.length :=
        Nat.mod_lt _ (List.length_pos_of_ne_nil hfilled)
      have hw := List.getElem?_eq_getElem hlt
      rw [Function.iterate_succ_apply', hplace, hw,
        (wrapsTo_of_pairwise hsorted hmem ih hw).unique (hnext _)]

end Frequency

namespace FrequencySpec

variable {spec spec' : FrequencySpec}

/-! ## Denotations -/

/-- The values between two ends, in whichever order they are given.  A range with one end has one
value. -/
def rangeValues : Int × Option Int → Set Int
  | (x, none) => {x}
  | (x, some y) => Set.uIcc x y

/-- The values that a description names. -/
def values : FrequencySpec → Set Int
  | .always => Set.univ
  | .single x => {x}
  | .multiple xs => {n | n ∈ xs}
  | .every step offset => {n | n ≡ offset [ZMOD step]}
  | .ranges bounds => {n | ∃ b ∈ bounds, n ∈ rangeValues b}

theorem mem_rangeValues {b : Int × Option Int} :
    n ∈ rangeValues b ↔ (Frequency.orderedBounds b).1 ≤ n ∧ n ≤ (Frequency.orderedBounds b).2 := by
  obtain ⟨x, other⟩ := b
  cases other with
  | none =>
      show n = x ↔ min x x ≤ n ∧ n ≤ max x x
      omega
  | some y =>
      show n ∈ Set.uIcc x y ↔ min x y ≤ n ∧ n ≤ max x y
      rw [Set.mem_uIcc]
      omega

/-- Sorting and joining do not show in the values listed. -/
theorem values_multiple (xs : List Int) :
    (multiple xs).values = {v | v ∈ Frequency.sortValues xs} :=
  Set.ext fun _ => Frequency.mem_sortValues.symm

/-- The bounds in order and the ranges sorted name the same values. -/
theorem values_ranges (bounds : List (Int × Option Int)) :
    (ranges bounds).values =
      {v | ∃ b ∈ Frequency.sortRanges (bounds.map Frequency.orderedBounds), b.1 ≤ v ∧ v ≤ b.2} := by
  ext v
  constructor
  · rintro ⟨b, hb, hv⟩
    exact ⟨_, Frequency.mem_sortRanges.2 (List.mem_map_of_mem hb), mem_rangeValues.1 hv⟩
  · rintro ⟨_, hmem, hv⟩
    obtain ⟨b, hb, rfl⟩ := List.mem_map.1 (Frequency.mem_sortRanges.1 hmem)
    exact ⟨b, hb, mem_rangeValues.2 hv⟩

theorem finite_values_multiple (xs : List Int) : (multiple xs).values.Finite := xs.finite_toSet

theorem finite_values_ranges (bounds : List (Int × Option Int)) :
    (ranges bounds).values.Finite := by
  rw [values_ranges]
  have hlisted := List.finite_toSet (Frequency.sortRanges (bounds.map Frequency.orderedBounds))
  refine (hlisted.biUnion fun b _ => Set.finite_Icc b.1 b.2).subset ?_
  rintro v ⟨b, hb, hv⟩
  exact Set.mem_biUnion hb hv

/-- A residue class has as many values as there are integers. -/
theorem infinite_values_every {step offset : Int} (hstep : 0 < step) :
    (every step offset).values.Infinite := by
  refine Set.infinite_of_injective_forall_mem (f := fun k : Int => offset + step * k) ?_ ?_
  · intro a b hab
    exact Int.eq_of_mul_eq_mul_left (Int.ne_of_gt hstep) (Int.add_left_cancel hab)
  · intro k
    exact Int.add_mul_emod_self_left offset step k

/-- The description lists its values or ranges. -/
def IsListing : FrequencySpec → Prop
  | .multiple _ | .ranges _ => True
  | _ => False

theorem IsListing.finite_values (h : spec.IsListing) : spec.values.Finite := by
  cases spec with
  | always => cases h
  | single x => cases h
  | multiple xs => exact finite_values_multiple xs
  | every step offset => cases h
  | ranges bounds => exact finite_values_ranges bounds

/-! ## Compiled frequencies -/

theorem eq_of_compile_multiple {xs : List Int} (h : (multiple xs).compile = .ok f) :
    ∃ hnormal, f = ⟨.multiple (Frequency.sortValues xs), hnormal⟩ := by
  rw [compile, Frequency.multiple?] at h
  split at h
  · cases h
  · cases h
    exact ⟨_, rfl⟩

theorem eq_of_compile_every {step offset : Int} (h : (every step offset).compile = .ok f) :
    ∃ hnormal, f = ⟨.every step (offset % step), hnormal⟩ := by
  rw [compile, Frequency.every?] at h
  split at h
  · cases h
    exact ⟨_, rfl⟩
  · cases h

theorem eq_of_compile_ranges {bounds : List (Int × Option Int)}
    (h : (ranges bounds).compile = .ok f) :
    ∃ hnormal,
      f = ⟨.ranges (Frequency.sortRanges (bounds.map Frequency.orderedBounds)), hnormal⟩ := by
  rw [compile, Frequency.ranges?] at h
  split at h
  · cases h
  · cases h
    exact ⟨_, rfl⟩

/-- **A compiled frequency accepts the values that its description names**, and no others. -/
theorem accepts_iff_mem_values (h : spec.compile = .ok f) :
    f.accepts n = true ↔ n ∈ spec.values := by
  cases spec with
  | always =>
      cases h
      exact iff_of_true rfl trivial
  | single x =>
      cases h
      exact beq_iff_eq
  | multiple xs =>
      obtain ⟨-, rfl⟩ := eq_of_compile_multiple h
      rw [values_multiple]
      exact List.contains_iff_mem
  | every step offset =>
      obtain ⟨-, rfl⟩ := eq_of_compile_every h
      exact beq_iff_eq
  | ranges bounds =>
      obtain ⟨-, rfl⟩ := eq_of_compile_ranges h
      rw [values_ranges]
      simp only [Frequency.accepts, List.any_eq_true, Bool.and_eq_true, decide_eq_true_eq,
        Set.mem_ofPred_eq]

/-- **Finitely many values are gone round.** -/
theorem wrapsTo_of_finite (h : spec.compile = .ok f) (hfinite : spec.values.Finite) (n : Int) :
    WrapsTo spec.values n (f.next n) := by
  cases spec with
  | always => exact absurd hfinite Set.infinite_univ
  | single x =>
      cases h
      -- the one value is the least of all, and the least one above whatever is below it
      show WrapsTo {x} n x
      by_cases hlater : n < x
      · exact .inl ⟨⟨rfl, hlater⟩, fun v hv => hv.1.ge⟩
      · exact .inr ⟨fun v hv => hv.le.trans (not_lt.1 hlater), isLeast_singleton⟩
  | multiple xs =>
      obtain ⟨hnormal, rfl⟩ := eq_of_compile_multiple h
      rw [values_multiple]
      exact Frequency.wrapsTo_next_multiple hnormal n
  | every step offset =>
      obtain ⟨hnormal, -⟩ := eq_of_compile_every h
      exact absurd hfinite (infinite_values_every hnormal.1)
  | ranges bounds =>
      obtain ⟨hnormal, rfl⟩ := eq_of_compile_ranges h
      rw [values_ranges]
      exact Frequency.wrapsTo_next_ranges hnormal n

/-- **Infinitely many values go on to the end of the value range.** -/
theorem saturatesTo_of_infinite (h : spec.compile = .ok f) (hinfinite : spec.values.Infinite)
    (hn : InValueRange n) : SaturatesTo spec.values n (f.next n) := by
  cases spec with
  | always =>
      cases h
      show SaturatesTo Set.univ n (saturate (n + 1))
      unfold InValueRange at hn
      by_cases hfits : n + 1 ≤ maxValue
      · have hnext : InValueRange (n + 1) := ⟨by omega, hfits⟩
        rw [saturate_of_inValueRange hnext]
        exact .inl ⟨⟨trivial, Int.lt_succ n, hnext⟩, fun v hv => hv.2.1⟩
      · refine .inr ⟨fun v _ hlater hrange => hfits (Int.le_trans hlater hrange.2), ?_⟩
        unfold saturate
        omega
  | single x => exact absurd (Set.finite_singleton x) hinfinite
  | multiple xs => exact absurd (finite_values_multiple xs) hinfinite
  | every step offset =>
      obtain ⟨hnormal, rfl⟩ := eq_of_compile_every h
      exact Frequency.saturatesTo_next_every hnormal hn
  | ranges bounds => exact absurd (finite_values_ranges bounds) hinfinite

/-- The value `m` comes after `n`. -/
def IsNext (spec : FrequencySpec) (n m : Int) : Prop :=
  match spec with
  | .always => m = min maxValue (n + 1)
  | .single x => m = x
  | .every _ _ => SaturatesTo spec.values n m
  | .multiple _ | .ranges _ => WrapsTo spec.values n m

/-- **The value that follows `n` on a compiled frequency is the one that comes after `n`** in the
values that its description names. -/
theorem isNext_next (h : spec.compile = .ok f) (hn : InValueRange n) :
    spec.IsNext n (f.next n) := by
  cases spec with
  | always =>
      cases h
      show saturate (n + 1) = min maxValue (n + 1)
      unfold InValueRange at hn
      unfold saturate
      omega
  | single x =>
      cases h
      rfl
  | multiple xs => exact wrapsTo_of_finite h (finite_values_multiple xs) n
  | every step offset =>
      obtain ⟨hnormal, -⟩ := eq_of_compile_every h
      exact saturatesTo_of_infinite h (infinite_values_every hnormal.1) hn
  | ranges bounds => exact wrapsTo_of_finite h (finite_values_ranges bounds) n

/-! ## Nothing but the values counts -/

/-- **Descriptions that name the same values have frequencies that do the same.** -/
theorem eq_of_values_eq (h : spec.compile = .ok f) (h' : spec'.compile = .ok f')
    (hvalues : spec'.values = spec.values) (hn : InValueRange n) :
    f'.accepts n = f.accepts n ∧ f'.next n = f.next n := by
  constructor
  · rw [Bool.eq_iff_iff, accepts_iff_mem_values h, accepts_iff_mem_values h', hvalues]
  · by_cases hfinite : spec.values.Finite
    · have hwraps := wrapsTo_of_finite h' (hvalues ▸ hfinite) n
      rw [hvalues] at hwraps
      exact hwraps.unique (wrapsTo_of_finite h hfinite n)
    · have hsaturates := saturatesTo_of_infinite h' (hvalues ▸ hfinite) hn
      rw [hvalues] at hsaturates
      exact hsaturates.unique (saturatesTo_of_infinite h hfinite hn)

/-- The description lists the same values or the same ranges, in any order and each of them any
number of times. -/
inductive Relists : FrequencySpec → FrequencySpec → Prop where
  | multiple {xs ys : List Int} (h : ∀ x, x ∈ xs ↔ x ∈ ys) : Relists (.multiple xs) (.multiple ys)
  | ranges {xs ys : List (Int × Option Int)} (h : ∀ b, b ∈ xs ↔ b ∈ ys) :
      Relists (.ranges xs) (.ranges ys)

theorem Relists.values_eq (h : spec'.Relists spec) : spec'.values = spec.values := by
  cases h with
  | multiple h => exact Set.ext h
  | ranges h => exact Set.ext fun v => exists_congr fun b => and_congr_left fun _ => h b

/-- What lists the same as a description that compiles is compiled too. -/
theorem Relists.exists_compile (h : spec'.Relists spec) (hcompile : spec.compile = .ok f) :
    ∃ f', spec'.compile = .ok f' := by
  cases h with
  | multiple h =>
      obtain ⟨hnormal, -⟩ := eq_of_compile_multiple hcompile
      obtain ⟨x, hx⟩ := List.exists_mem_of_ne_nil _ hnormal.1
      have hlisted := (h x).2 (Frequency.mem_sortValues.1 hx)
      exact ⟨_, dif_neg (List.ne_nil_of_mem hlisted)⟩
  | ranges h =>
      obtain ⟨hnormal, -⟩ := eq_of_compile_ranges hcompile
      obtain ⟨x, hx⟩ := List.exists_mem_of_ne_nil _ hnormal.1
      obtain ⟨b, hb, -⟩ := List.mem_map.1 (Frequency.mem_sortRanges.1 hx)
      exact ⟨_, dif_neg (List.ne_nil_of_mem ((h b).2 hb))⟩

end FrequencySpec

theorem FrequencyInput.compile_eq_ok {table : Aliases} {input : FrequencyInput}
    (h : input.compile table = .ok f) :
    ∃ spec, input.resolve table = .ok spec ∧ spec.compile = .ok f := by
  rw [compile] at h
  cases hresolve : input.resolve table with
  | error e =>
      rw [hresolve] at h
      cases h
  | ok spec =>
      rw [hresolve] at h
      exact ⟨spec, rfl, h⟩

/-- **A frequency stands for a set of values.**  It accepts the values that the description names;
after `n` comes the least one above it, or the least of all if the values are listed and there is
none above, or the end of the value range.  Other descriptions of these values do the same, and so
does a list in another order or with repetitions.  Listed values are gone round in increasing order,
each of them once. -/
theorem FrequencyInput.compile_denotes (table : Aliases) (input : FrequencyInput) (f : Frequency)
    (h : input.compile table = .ok f) :
    ∃ spec : FrequencySpec, input.resolve table = .ok spec ∧
      (∀ n, f.accepts n = true ↔ n ∈ spec.values) ∧
      (∀ n, InValueRange n → spec.IsNext n (f.next n)) ∧
      (∀ (spec' : FrequencySpec) (f' : Frequency), spec'.compile = .ok f' →
        spec'.values = spec.values →
          ∀ n, InValueRange n → f'.accepts n = f.accepts n ∧ f'.next n = f.next n) ∧
      (∀ spec' : FrequencySpec, spec'.Relists spec → ∃ f', spec'.compile = .ok f' ∧
        ∀ n, InValueRange n → f'.accepts n = f.accepts n ∧ f'.next n = f.next n) ∧
      (spec.IsListing → ∃ members : List Int, members ≠ [] ∧ members.Pairwise (· < ·) ∧
        (∀ v, v ∈ members ↔ v ∈ spec.values) ∧
        ∀ j v, members[j]? = some v →
          ∀ k, members[(j + k) % members.length]? = some (f.next^[k] v)) := by
  obtain ⟨spec, hresolve, hcompile⟩ := FrequencyInput.compile_eq_ok h
  refine ⟨spec, hresolve, fun n => FrequencySpec.accepts_iff_mem_values hcompile,
    fun n hn => FrequencySpec.isNext_next hcompile hn,
    fun spec' f' h' hvalues n hn => FrequencySpec.eq_of_values_eq hcompile h' hvalues hn,
    fun spec' hrelists => ?_, fun hlisting => ?_⟩
  · obtain ⟨f', h'⟩ := hrelists.exists_compile hcompile
    exact ⟨f', h', fun n hn => FrequencySpec.eq_of_values_eq hcompile h' hrelists.values_eq hn⟩
  · have hfinite := hlisting.finite_values
    have hwraps := FrequencySpec.wrapsTo_of_finite hcompile hfinite
    exact Frequency.exists_cycle hfinite ⟨_, (hwraps 0).mem⟩ hwraps

/-- The value 5 and those from 10 to 25, in two ranges that overlap. -/
def fiveAndTenTo25 : Frequency :=
  ⟨.ranges [(5, 5), (10, 20), (15, 25)], by decide, by decide, by decide⟩

/-- Two ranges that overlap, both of them written backwards, do the same as one range. -/
theorem FrequencyInput.compile_denotes_overlapping :
    (FrequencyInput.text "25-15,20-10,5").compile [] = .ok fiveAndTenTo25 ∧
      ∃ f', (FrequencySpec.ranges [(5, none), (10, some 25)]).compile = .ok f' ∧
        ∀ n, InValueRange n →
          f'.accepts n = fiveAndTenTo25.accepts n ∧ f'.next n = fiveAndTenTo25.next n := by
  have hcompile : (FrequencyInput.text "25-15,20-10,5").compile [] = .ok fiveAndTenTo25 := by
    decide +kernel
  have hresolve : (FrequencyInput.text "25-15,20-10,5").resolve [] =
      .ok (.ranges [(25, some 15), (20, some 10), (5, none)]) := by
    decide +kernel
  obtain ⟨spec, hspec, -, -, hsame, -⟩ := compile_denotes [] _ _ hcompile
  rw [hresolve] at hspec
  cases hspec
  refine ⟨hcompile, _, rfl, hsame (.ranges [(5, none), (10, some 25)]) _ rfl (Set.ext fun v => ?_)⟩
  simp only [FrequencySpec.values, FrequencySpec.rangeValues, List.mem_cons, List.not_mem_nil,
    or_false, exists_eq_or_imp, exists_eq_left, Set.mem_uIcc, Set.mem_singleton_iff,
    Set.mem_ofPred_eq]
  omega

end Recurrence
