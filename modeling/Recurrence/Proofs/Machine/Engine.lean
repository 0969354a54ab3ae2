import Recurrence.Proofs.Machine.Frequency
import Recurrence.Proofs.Machine.Move
import Recurrence.Proofs.Machine.Slice

/-!
# No step of the engine fails

The parts of the engine, put together.  At every instant, with all options and for all values of the
value range, the checked form of each function has a result, and it is the result of the library.

The parts hand values of the value range to each other: the fields of an instant are such values, the
next value of a frequency is one, and so are the values that a search moves to.  So a search that starts
from a frequency with such values never leaves the ground on which its steps are safe.

## Main Statements

* `Machine.no_step_fails`: fields, moves, week numbers, frequencies, the values to move to, and texts
-/

namespace Recurrence

namespace Machine

/-- **No step of the engine fails**, and what comes out is what the library says.  The target of a move,
the week that is asked for, the values of a frequency and the value it is asked about may be any of the
value range, its ends included; the instant, the date, the options and the text may be any at all.  The
values that come out are in the value range again. -/
theorem no_step_fails :
    (∀ (p : Period) (o : CalendarOptions) (t : Instant),
      valueAt p o t = .ok (p.valueAt o t) ∧ InValueRange (p.valueAt o t)) ∧
    (∀ (p : Period) (o : CalendarOptions) (t : Instant) (v : Int), InValueRange v →
      moveTo p o v t = .ok (p.moveTo o v t)) ∧
    (∀ (scope : WeekScope) (d : Date) (numbering : WeekNumbering) (o : CalendarOptions),
      weekOf scope d numbering o = .ok (scope.weekOf d numbering o) ∧
      length scope d = .ok (scope.length d) ∧
      ∀ week : Int, InValueRange week →
        weekStart? scope d week numbering o = .ok (scope.weekStart? d week numbering o)) ∧
    (∀ spec : FrequencySpec, spec.InRange →
      compile spec = .ok (spec.compile.map fun f => f.shape) ∧
      ∀ f : Frequency, spec.compile = .ok f → f.InRange) ∧
    (∀ (f : Frequency) (n : Int), f.InRange → InValueRange n →
      accepts f n = .ok (f.accepts n) ∧ next f n = .ok (f.next n) ∧ InValueRange (f.next n)) ∧
    (∀ (p : Period) (f : Frequency) (current : Int), f.InRange → InValueRange current →
      acceptedValues p f current = .ok (Recurrence.acceptedValues p f current) ∧
      rejectedValues p f current = .ok (Recurrence.rejectedValues p f current) ∧
      (∀ v ∈ Recurrence.acceptedValues p f current, InValueRange v) ∧
      ∀ v ∈ Recurrence.rejectedValues p f current, InValueRange v) ∧
    (∀ item : List Char, splitRange? item = .ok (FrequencySpec.splitRange? item)) := by
  refine ⟨?_, ?_, ?_, ?_, ?_, ?_, splitRange?_ok⟩
  · intro p o t
    exact ⟨valueAt_ok o t p, inValueRange_valueAt o t p⟩
  · intro p o t v hv
    exact moveTo_ok o t p hv
  · intro scope d numbering o
    refine ⟨weekOf_ok d scope numbering o, length_ok d scope, ?_⟩
    intro week _
    exact weekStart?_ok d scope numbering o week
  · intro spec hspec
    refine ⟨compile_ok hspec, ?_⟩
    intro f hf
    exact FrequencySpec.inRange_of_compile hspec hf
  · intro f n hf hn
    exact ⟨accepts_ok f hn, next_ok hf hn, Frequency.inValueRange_next hf hn⟩
  · intro p f current hf hcurrent
    refine ⟨acceptedValues_ok p hf hcurrent, rejectedValues_ok p f current, ?_, ?_⟩
    · intro v hv
      exact inValueRange_of_mem_acceptedValues p hf hcurrent hv
    · intro v hv
      exact inValueRange_of_mem_rejectedValues p hv

/-- In a leap second in the middle of a minute a move to the least millisecond stays, as at the end of the
calendar a move to the greatest century does.  At its beginning there is no least week, and past the
greatest value the longest step leads to that value again. -/
theorem no_step_fails_extremes :
    moveTo .millisecond .standard minValue Instant.leapSecondMidMinute =
        .ok Instant.leapSecondMidMinute ∧
      moveTo .century .standard maxValue (.startOfDay ⟨lastDayNumber, by decide, Int.le_refl _⟩) =
          .ok (.startOfDay ⟨lastDayNumber, by decide, Int.le_refl _⟩) ∧
      weekStart? .year ⟨firstDayNumber, Int.le_refl _, by decide⟩ minValue .majority .standard = .ok none ∧
      compile (.every maxValue minValue) = .ok (.ok (.every maxValue 2147483646)) ∧
      next ⟨.every maxValue 2147483646, by decide, by decide, by decide⟩ maxValue = .ok maxValue ∧
      acceptedValues .year ⟨.ranges [(minValue, maxValue)], List.cons_ne_nil _ _,
          List.forall_mem_singleton.2 (by decide), List.pairwise_singleton _ _⟩ maxValue =
        .ok [minValue] := by
  obtain ⟨-, hmoves, hweeks, hcompile, hfrequencies, hvalues, -⟩ := no_step_fails
  have hleast : InValueRange minValue := by decide
  have hgreatest : InValueRange maxValue := by decide
  have hbounds : ∀ b ∈ [(minValue, maxValue)], InValueRange b.1 ∧ InValueRange b.2 := by
    intro b hb
    rw [List.mem_singleton.1 hb]
    exact ⟨hleast, hgreatest⟩
  refine ⟨?_, ?_, ?_, ?_, ?_, ?_⟩
  · exact (hmoves .millisecond .standard _ minValue hleast).trans (by decide +kernel)
  · exact (hmoves .century .standard _ maxValue hgreatest).trans (by decide +kernel)
  · exact ((hweeks .year _ .majority .standard).2.2 minValue hleast).trans (by decide +kernel)
  · exact (hcompile (.every maxValue minValue) ⟨hgreatest, hleast⟩).1.trans (by decide +kernel)
  · have hclass : Frequency.InRange ⟨.every maxValue 2147483646, by decide, by decide, by decide⟩ :=
      ⟨hgreatest, by decide⟩
    exact (hfrequencies _ maxValue hclass hgreatest).2.1.trans (by decide +kernel)
  · exact (hvalues .year ⟨.ranges [(minValue, maxValue)], _⟩ maxValue hbounds hgreatest).1.trans
      (by decide +kernel)

end Machine

end Recurrence
