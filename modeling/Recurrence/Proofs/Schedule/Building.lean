import Recurrence.Proofs.Pattern.Building
import Recurrence.Schedule.Basic

/-!
# Building schedules

**A schedule is built from all of its rules or not at all.**  Its patterns stand in the order of the
rules.  If some rule does not compile, the first such rule gives the error, and all the rules for what is
included come before those for what is excluded.

## Main Statements

* `Schedule.compile_eq_ok`, `Schedule.compile_eq_error`: what comes of the rules of a schedule
* `Schedule.compile_all_or_first_error`: what comes of a rule and of the rules of a schedule
-/

namespace Recurrence

namespace Schedule

open PatternInput

variable {rules : ScheduleInput} {options : CalendarOptions}

/-- **A schedule has the patterns of its rules**, in the order of the rules. -/
theorem compile_eq_ok {s : Schedule} : compile rules options = .ok s ↔
    List.Forall₂ (fun rule pattern => Pattern.compile rule options = .ok pattern)
      rules.on s.included ∧
    List.Forall₂ (fun rule pattern => Pattern.compile rule options = .ok pattern)
      rules.off s.excluded := by
  rw [compile, bind_eq_ok]
  simp only [← mapM_eq_ok]
  constructor
  · rintro ⟨included, hon, h⟩
    obtain ⟨excluded, hoff, ⟨⟩⟩ := bind_eq_ok.1 h
    exact ⟨hon, hoff⟩
  · rintro ⟨hon, hoff⟩
    exact ⟨s.included, hon, bind_eq_ok.2 ⟨s.excluded, hoff, rfl⟩⟩

/-- **The first rule that does not compile is reported**, those for what is included being compiled
first. -/
theorem compile_eq_error {err : FieldError} : compile rules options = .error err ↔
    FirstError (fun rule => Pattern.compile rule options) (rules.on ++ rules.off) err := by
  rw [compile, bind_eq_error, firstError_append, mapM_eq_error, ← exists_mapM_eq_ok]
  simp only [bind_pure_eq_error, mapM_eq_error, exists_and_right]

/-- A schedule is built if all of its rules compile. -/
theorem exists_compile_eq_ok : (∃ s, compile rules options = .ok s) ↔
    ∀ rule ∈ rules.on ++ rules.off, ∃ pattern, Pattern.compile rule options = .ok pattern := by
  rw [List.forall_mem_append, ← exists_mapM_eq_ok, ← exists_mapM_eq_ok]
  simp only [compile_eq_ok, ← mapM_eq_ok]
  constructor
  · rintro ⟨s, hon, hoff⟩
    exact ⟨⟨s.included, hon⟩, s.excluded, hoff⟩
  · rintro ⟨⟨included, hon⟩, excluded, hoff⟩
    exact ⟨⟨included, excluded⟩, hon, hoff⟩

/-- **Rules compile as a whole, and so do schedules.**  What comes of a rule is told by the last binding
of each period, whatever operations have put it together.  If all of these bindings compile, the pattern
binds the same periods, in the order in which all periods are listed and by which priorities decrease,
each of them to what its own binding compiles to.  If not, the coarsest one that does not compile is
reported with its own error.

A schedule has the patterns of its rules, in their order, if all of them compile.  If not, the error is
that of the first rule that does not, the rules for what is included coming before all the others.  Each
rule is compiled with the names that every rule may use. -/
theorem compile_all_or_first_error (operations : List Operation) (rules : ScheduleInput)
    (options : CalendarOptions) (aliases : Period → Aliases) :
    (∀ operations', (∀ p, lastFrequency? operations' p = lastFrequency? operations p) →
      Pattern.compileWith (build operations') options aliases =
        Pattern.compileWith (build operations) options aliases) ∧
    ((∃ pattern, Pattern.compileWith (build operations) options aliases = .ok pattern) ↔
      ∀ p frequency, lastFrequency? operations p = some frequency →
        ∃ compiled, frequency.compile (aliases p) = .ok compiled) ∧
    (∀ pattern, Pattern.compileWith (build operations) options aliases = .ok pattern ↔
      pattern.options = options ∧
      pattern.periods = Period.all.filter (fun p => (lastFrequency? operations p).isSome) ∧
      pattern.periods.Pairwise (fun p q => q.priority < p.priority) ∧
      ∀ p, Option.Rel (fun frequency compiled => frequency.compile (aliases p) = .ok compiled)
        (lastFrequency? operations p) (pattern.bindings.get? p)) ∧
    (∀ err, Pattern.compileWith (build operations) options aliases = .error err ↔
      ∃ frequency, lastFrequency? operations err.period = some frequency ∧
        frequency.compile (aliases err.period) = .error err.cause ∧
        ∀ q coarser, err.period.priority < q.priority → lastFrequency? operations q = some coarser →
          ∃ compiled, coarser.compile (aliases q) = .ok compiled) ∧
    (∀ rule, Pattern.compile rule options = Pattern.compileWith rule options Period.aliases) ∧
    ((∃ s, compile rules options = .ok s) ↔
      ∀ rule ∈ rules.on ++ rules.off, ∃ pattern, Pattern.compile rule options = .ok pattern) ∧
    (∀ s, compile rules options = .ok s ↔
      List.Forall₂ (fun rule pattern => Pattern.compile rule options = .ok pattern)
        rules.on s.included ∧
      List.Forall₂ (fun rule pattern => Pattern.compile rule options = .ok pattern)
        rules.off s.excluded) ∧
    ∀ err, compile rules options = .error err ↔
      ∃ before rule after, rules.on ++ rules.off = before ++ rule :: after ∧
        (∀ earlier ∈ before, ∃ pattern, Pattern.compile earlier options = .ok pattern) ∧
        Pattern.compile rule options = .error err := by
  refine ⟨fun operations' h => by rw [build_congr h], ?_, fun pattern => ?_, fun err => ?_,
    fun _ => rfl, exists_compile_eq_ok, fun s => compile_eq_ok, fun err => compile_eq_error⟩
  · simp only [Pattern.exists_compileWith_eq_ok, get?_build]
  · constructor
    · intro h
      have hperiods := Pattern.periods_eq_filter_of_compileWith h
      obtain ⟨hoptions, hbindings⟩ := Pattern.compileWith_eq_ok.1 h
      simp only [get?_build] at hperiods hbindings
      exact ⟨hoptions, hperiods, pattern.bindings.sorted, hbindings⟩
    · rintro ⟨hoptions, -, -, hbindings⟩
      refine Pattern.compileWith_eq_ok.2 ⟨hoptions, fun p => ?_⟩
      rw [get?_build]
      exact hbindings p
  · simp only [Pattern.compileWith_eq_error, get?_build]

/-- Of an hour and a month that are both none, the month is reported, even if the hour is bound first
and bound again. -/
theorem compile_all_or_first_error_month :
    (∀ p, lastFrequency? [.bind .hour (.text "noon"), .bind .hour (.text "25h"),
        .bind .month (.text "Smarch")] p =
      lastFrequency? [.extend [(.month, .text "Smarch"), (.hour, .text "25h")]] p) ∧
    Pattern.compileWith (build [.bind .hour (.text "noon"), .bind .hour (.text "25h"),
        .bind .month (.text "Smarch")]) .standard Period.aliases =
      .error ⟨.month, .invalidValue "Smarch" "Smarch"⟩ := by
  have hlast : ∀ p, lastFrequency? [.bind .hour (.text "noon"), .bind .hour (.text "25h"),
        .bind .month (.text "Smarch")] p =
      lastFrequency? [.extend [(.month, .text "Smarch"), (.hour, .text "25h")]] p := by
    intro p
    cases p <;> rfl
  obtain ⟨hcongr, -⟩ := compile_all_or_first_error
    [.extend [(.month, .text "Smarch"), (.hour, .text "25h")]] ⟨[], []⟩ .standard Period.aliases
  refine ⟨hlast, (hcongr _ hlast).trans ?_⟩
  decide +kernel

end Schedule

end Recurrence
