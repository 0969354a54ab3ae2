import Mathlib.Tactic.Linarith
import Recurrence.Value

/-!
# Checked arithmetic

The library computes with unbounded integers.  On a machine integers have a **width**, and a step whose
result does not fit its width fails, or wraps around unnoticed when the check is left out.  Here each
step carries its width: it gives its result if that fits, and a **fault** otherwise.  A computation of
such steps that has a result has met no fault on the way, so to show that a function cannot fail it is
enough to show that its checked form has a result.

Division comes in two kinds.  `divFloor` and `modFloor` round down for a positive divisor, `divTrunc`
and `modTrunc` round towards zero.  A remainder is a step of its own that fails with its quotient.

## Main Definitions

* `Machine.Width`, `Machine.Width.Holds`: the widths of integers
* `Machine.Fault`, `Machine.Checked`: what can go wrong, and computations in which it may
* `Machine.add`, `Machine.sub`, `Machine.mul`, `Machine.divFloor`, `Machine.modFloor`,
  `Machine.divTrunc`, `Machine.modTrunc`: the steps
* `Machine.signed`, `Machine.Width.convert?`: conversions, which do not fail

## Main Statements

* `Machine.add_ok`, `Machine.modFloor_ok` and the like: a step that fits has its result
-/

namespace Recurrence

namespace Machine

/-- The integer types of the machine. -/
inductive Width where
  | i32
  | u32
  | i64
  | u64
deriving DecidableEq, Repr

namespace Width

/-- The least integer of a type. -/
def low : Width → Int
  | i32 => -2147483648
  | u32 => 0
  | i64 => -9223372036854775808
  | u64 => 0

/-- The greatest integer of a type. -/
def high : Width → Int
  | i32 => 2147483647
  | u32 => 4294967295
  | i64 => 9223372036854775807
  | u64 => 18446744073709551615

/-- The integers of a type. -/
def Holds (w : Width) (n : Int) : Prop := w.low ≤ n ∧ n ≤ w.high

instance (w : Width) (n : Int) : Decidable (w.Holds n) :=
  inferInstanceAs (Decidable (w.low ≤ n ∧ n ≤ w.high))

/-- The integer in another type, if it is one of that type. -/
def convert? (w : Width) (n : Int) : Option Int := if w.Holds n then some n else none

variable {w : Width} {a b n : Int}

theorem holds_i32 : i32.Holds n ↔ InValueRange n := Iff.rfl

/-- A number up to two thousand million is of every type. -/
theorem holds_of_small (w : Width) (hlow : 0 ≤ n) (hhigh : n ≤ 2000000000) : w.Holds n := by
  cases w with
  | i32 => exact ⟨le_trans (by decide) hlow, hhigh.trans (by decide)⟩
  | u32 => exact ⟨hlow, hhigh.trans (by decide)⟩
  | i64 => exact ⟨le_trans (by decide) hlow, hhigh.trans (by decide)⟩
  | u64 => exact ⟨hlow, hhigh.trans (by decide)⟩

theorem holds_i32_of_small (hlow : -2000000000 ≤ n) (hhigh : n ≤ 2000000000) : i32.Holds n :=
  ⟨le_trans (by decide) hlow, hhigh.trans (by decide)⟩

theorem holds_i64_of_small (hlow : -1000000000000 ≤ n) (hhigh : n ≤ 1000000000000) :
    i64.Holds n :=
  ⟨le_trans (by decide) hlow, hhigh.trans (by decide)⟩

theorem low_nonpos (w : Width) : w.low ≤ 0 := by
  cases w <;> decide

theorem high_nonneg (w : Width) : 0 ≤ w.high := by
  cases w <;> decide

theorem convert?_eq_some (h : w.Holds n) : w.convert? n = some n := if_pos h

theorem convert?_eq_none (h : ¬ w.Holds n) : w.convert? n = none := if_neg h

/-- A conversion loses nothing if nothing comes of what it refuses. -/
theorem convert?_bind {α : Type} {f : Int → Option α} (h : ¬ w.Holds n → f n = none) :
    (w.convert? n).bind f = f n := by
  by_cases hn : w.Holds n
  · rw [convert?_eq_some hn, Option.bind_some]
  · rw [convert?_eq_none hn, Option.bind_none, h hn]

/-- What lies between zero and an integer of a type is of that type. -/
theorem Holds.of_between (h : w.Holds a) (hlow : min a 0 ≤ n) (hhigh : n ≤ max a 0) :
    w.Holds n := by
  have hnonpos := w.low_nonpos
  have hnonneg := w.high_nonneg
  obtain ⟨hl, hh⟩ := h
  exact ⟨by omega, by omega⟩

/-- A quotient by a positive divisor fits. -/
theorem Holds.ediv (h : w.Holds a) (hb : 0 < b) : w.Holds (a / b) := by
  apply h.of_between
  · rcases le_total 0 a with ha | ha
    · exact (min_le_right a 0).trans (Int.ediv_nonneg ha hb.le)
    · refine (min_le_left a 0).trans ((Int.le_ediv_iff_mul_le hb).2 ?_)
      nlinarith
  · rcases le_total 0 a with ha | ha
    · exact (Int.ediv_le_self b ha).trans (le_max_left a 0)
    · refine le_trans ?_ (le_max_right a 0)
      have hle := Int.ediv_le_ediv hb ha
      rwa [Int.zero_ediv] at hle

/-- A quotient rounded towards zero fits too. -/
theorem Holds.tdiv (h : w.Holds a) (hb : 0 < b) : w.Holds (a.tdiv b) := by
  rcases le_total 0 a with ha | ha
  · rw [Int.tdiv_eq_ediv_of_nonneg ha]
    exact h.ediv hb
  · have hneg : a.tdiv b = -(-a / b) := by
      rw [← Int.tdiv_eq_ediv_of_nonneg (by omega), Int.neg_tdiv, Int.neg_neg]
    have hnonneg := Int.ediv_nonneg (show 0 ≤ -a by omega) hb.le
    have hle := Int.ediv_le_self b (show 0 ≤ -a by omega)
    apply h.of_between
    · omega
    · omega

end Width

/-- What can go wrong in a step. -/
inductive Fault where
  /-- The result does not fit. -/
  | overflow (w : Width) (result : Int)
  /-- There is nothing to divide by. -/
  | zeroDivisor
  /-- A text is cut where no character begins. -/
  | noBoundary
deriving DecidableEq, Repr

/-- A computation with checked steps. -/
abbrev Checked (α : Type) := Except Fault α

/-- The integer as one of a type. -/
def fit (w : Width) (n : Int) : Checked Int := if w.Holds n then .ok n else .error (.overflow w n)

/-! ## The steps -/

/-- A sum. -/
def add (w : Width) (a b : Int) : Checked Int := fit w (a + b)

/-- A difference. -/
def sub (w : Width) (a b : Int) : Checked Int := fit w (a - b)

/-- A product. -/
def mul (w : Width) (a b : Int) : Checked Int := fit w (a * b)

/-- The quotient that leaves a remainder of at least 0. -/
def divFloor (w : Width) (a b : Int) : Checked Int :=
  if b = 0 then .error .zeroDivisor else fit w (a / b)

/-- The remainder that is at least 0. -/
def modFloor (w : Width) (a b : Int) : Checked Int := do
  let _ ← divFloor w a b
  return a % b

/-- The quotient rounded towards zero. -/
def divTrunc (w : Width) (a b : Int) : Checked Int :=
  if b = 0 then .error .zeroDivisor else fit w (a.tdiv b)

/-- The remainder with the sign of the dividend. -/
def modTrunc (w : Width) (a b : Int) : Checked Int := do
  let _ ← divTrunc w a b
  return a.tmod b

/-- An unsigned integer as a value, the greatest one if it is too large. -/
def signed (n : Int) : Int := min maxValue n

/-! ## Steps that fit -/

variable {α β : Type} {w : Width} {a b n : Int}

@[simp] theorem ok_bind (a : α) (f : α → Checked β) : ((.ok a : Checked α) >>= f) = f a := rfl

theorem fit_ok (h : w.Holds n) : fit w n = .ok n := if_pos h

theorem add_ok (h : w.Holds (a + b)) : add w a b = .ok (a + b) := if_pos h

theorem sub_ok (h : w.Holds (a - b)) : sub w a b = .ok (a - b) := if_pos h

theorem mul_ok (h : w.Holds (a * b)) : mul w a b = .ok (a * b) := if_pos h

theorem divFloor_ok (ha : w.Holds a) (hb : 0 < b) : divFloor w a b = .ok (a / b) := by
  rw [divFloor, if_neg hb.ne', fit_ok (ha.ediv hb)]

theorem modFloor_ok (ha : w.Holds a) (hb : 0 < b) : modFloor w a b = .ok (a % b) := by
  rw [modFloor, divFloor_ok ha hb]
  rfl

theorem divTrunc_ok (ha : w.Holds a) (hb : 0 < b) : divTrunc w a b = .ok (a.tdiv b) := by
  rw [divTrunc, if_neg hb.ne', fit_ok (ha.tdiv hb)]

theorem modTrunc_ok (ha : w.Holds a) (hb : 0 < b) : modTrunc w a b = .ok (a.tmod b) := by
  rw [modTrunc, divTrunc_ok ha hb]
  rfl

/-- A small number is a value. -/
theorem inValueRange_of_small (hlow : -2000000000 ≤ n) (hhigh : n ≤ 2000000000) : InValueRange n :=
  Width.holds_i32.1 (Width.holds_i32_of_small hlow hhigh)

/-- A small number is not changed. -/
theorem signed_of_small (h : n ≤ 2000000000) : signed n = n := min_eq_right (h.trans (by decide))

end Machine

end Recurrence
