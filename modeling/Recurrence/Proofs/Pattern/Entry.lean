import Recurrence.Proofs.Pattern.Next
import Recurrence.Proofs.Period.Domain
import Recurrence.Proofs.Period.Horizon

/-!
# The move that corrects a field

A field that does not hold is corrected by the earliest of its moves to accepted values.  Nothing
that the field accepts lies on the way.  **The field holds where the move ends, unless a week has led
it astray**: the move for a week number that never comes again goes to the beginning of the following
year or month, and it is the earliest one if no accepted week begins before that.  The number is an
accepted one of the domain, so it is tried like any other.

A rule for a single field shows the difference.  Without such a week it is found in the first pass,
and a larger budget changes nothing; with one the first pass can be spent on a day that the rule does
not cover.

## Main Definitions

* `Strays`: the correcting move ends at the beginning of a year or a month that the field rejects
* `Pattern.ofField`: the pattern that binds one field

## Main Statements

* `strays_of_rejects`, `rejects_of_strays`: the field holds where the move ends, or the move strays
* `Pattern.next_ofField`: a rule of one field is found by its correcting move
* `earliestEntry_settles`: the correcting move, and the search for a rule of one field
* `entryFails_weekOfMonth`: a rule whose correcting move strays
-/

namespace Recurrence

variable {p : Period} {o : CalendarOptions} {f : Frequency} {t c x : Instant}

/-! ## Where the move ends -/

/-- The correcting move from `t` goes astray.  The field is a week; a value that the frequency
accepts never comes again, so the beginning of the following year or month is where the move for it
ends; and up to there the frequency accepts nothing outside the run of `t`. -/
def Strays (p : Period) (o : CalendarOptions) (f : Frequency) (t : Instant) : Prop :=
  ∃ scope numbering, p = .week scope numbering ∧ t < scope.nextStart t ∧
    (∃ v, p.InDomain v ∧ f.accepts v = true ∧
      ∀ x : Instant, x.IsOrdinary → t < x → ¬ p.Steady o t x → p.valueAt o x ≠ v) ∧
    ∀ x : Instant, x.IsOrdinary → t < x → x ≤ scope.nextStart t → ¬ p.Steady o t x →
      f.accepts (p.valueAt o x) = false

/-- A later run is a later instant up to which the field is not steady. -/
theorem Period.run_lt_iff (ht : t.IsOrdinary) (hx : x.IsOrdinary) :
    p.run o t < p.run o x ↔ t < x ∧ ¬ p.Steady o t x := by
  constructor
  · intro hrun
    have htx : t < x := by
      by_contra hge
      have := (p.lawful o).run_le_run hx ht (not_lt.1 hge)
      omega
    exact ⟨htx, fun hsteady => Int.ne_of_lt hrun ((Period.steady_iff ht hx htx.le).1 hsteady)⟩
  · rintro ⟨htx, hsteady⟩
    exact Period.run_lt_of_not_steady ht hx htx.le hsteady

theorem mem_acceptedValues {current v : Int} (hcyclic : p.domain? ≠ none) :
    v ∈ acceptedValues p f current ↔ p.InDomain v ∧ f.accepts v = true := by
  obtain ⟨d, hd⟩ := Option.ne_none_iff_exists'.1 hcyclic
  have hvalues : p.domainValues? = some (Period.valuesBetween d.1 d.2) := by
    rw [Period.domainValues?, hd, Option.map_some]
  rw [acceptedValues, hvalues]
  simp only
  rw [List.mem_filter, Period.mem_domainValues_iff hvalues]

section Move

variable (hcyclic : p.domain? ≠ none) (h54 : p.DomainComplete o ∨ f.accepts 54 = false)
  (ht : t.IsOrdinary)

include h54 in
theorem inDomain_of_accepts (hx : x.IsOrdinary) (haccepts : f.accepts (p.valueAt o x) = true) :
    p.InDomain (p.valueAt o x) := by
  refine Period.inDomain_of_ne_54 (h54.imp id fun hrejects hvalue => ?_) hx
  rw [hvalue, hrejects] at haccepts
  cases haccepts

include h54 ht in
/-- Before the end of the move nothing outside the run of `t` is accepted. -/
theorem rejects_of_lt_entry (hentry : earliestEntry? o t p f = some c) (hx : x.IsOrdinary)
    (hrun : p.run o t < p.run o x) (hxc : x < c) : f.accepts (p.valueAt o x) = false := by
  rw [← Bool.not_eq_true]
  intro haccepts
  obtain ⟨c', hc', hle⟩ :=
    exists_earliestEntry?_le (inDomain_of_accepts h54 hx haccepts) ht hx hrun haccepts
  rw [hentry] at hc'
  cases hc'
  exact absurd hxc (not_lt.2 hle)

include hcyclic h54 ht in
/-- A move that does not end on an accepted value strays. -/
theorem strays_of_rejects (hentry : earliestEntry? o t p f = some c)
    (hrejects : f.accepts (p.valueAt o c) = false) : Strays p o f t := by
  obtain ⟨v, hmem, rfl, htc⟩ := exists_eq_of_earliestMove? hentry
  obtain ⟨hin, haccepts⟩ := (mem_acceptedValues hcyclic).1 hmem
  rcases Period.valueAt_moveTo_or hin ht htc with hreached | ⟨scope, numbering, hp, hmove, hgone⟩
  · rw [hreached, haccepts] at hrejects
    cases hrejects
  · refine ⟨scope, numbering, hp, hmove ▸ htc, ⟨v, hin, haccepts, ?_⟩, ?_⟩
    · intro x hx htx hsteady
      exact hgone x hx ((Period.run_lt_iff ht hx).2 ⟨htx, hsteady⟩)
    · intro x hx htx hxnext hsteady
      rw [← hmove] at hxnext
      rcases lt_or_eq_of_le hxnext with hlt | heq
      · exact rejects_of_lt_entry h54 ht hentry hx ((Period.run_lt_iff ht hx).2 ⟨htx, hsteady⟩) hlt
      · rw [heq]
        exact hrejects

end Move

/-- A move that strays ends at the beginning of the following year or month, or before, so it does
not end on an accepted value. -/
theorem rejects_of_strays (ht : t.IsOrdinary) (hstrays : Strays p o f t)
    (hentry : earliestEntry? o t p f = some c) : f.accepts (p.valueAt o c) = false := by
  obtain ⟨scope, numbering, rfl, hnext, ⟨v, hin, haccepts, hgone⟩, hrejects⟩ := hstrays
  obtain ⟨htc, hc, hrun⟩ := earliestMove?_spec ht hentry
  have hmove : (Period.week scope numbering).moveTo o v t = scope.nextStart t := by
    rcases Period.moveTo_week_cases scope numbering hin t with ⟨d, -, hvalue, hlater⟩ | ⟨hmove, -⟩
    · have hd := Instant.isOrdinary_startOfDay d
      obtain ⟨htd, hsteady⟩ := (Period.run_lt_iff (p := .week scope numbering) ht hd).1 hlater
      exact absurd hvalue (hgone _ hd htd hsteady)
    · exact hmove
  have hcyclic : (Period.week scope numbering).domain? ≠ none := by
    cases scope <;> cases numbering <;> exact Option.some_ne_none _
  have hmem : v ∈ acceptedValues (.week scope numbering) f
      ((Period.week scope numbering).valueAt o t) := (mem_acceptedValues hcyclic).2 ⟨hin, haccepts⟩
  obtain ⟨c', hc', hle⟩ := exists_earliestMove?_le hmem (hmove ▸ hnext) hmove.le
  unfold earliestEntry? at hentry
  rw [hc'] at hentry
  cases hentry
  exact hrejects c hc htc hle ((Period.run_lt_iff ht hc).1 hrun).2

/-! ## Rules of one field -/

namespace Pattern

/-- The pattern that binds one field. -/
def ofField (p : Period) (f : Frequency) (o : CalendarOptions) : Pattern :=
  ⟨⟨[(p, f)], List.pairwise_singleton _ _⟩, o⟩

theorem covers_ofField : (ofField p f o).covers t = f.accepts (p.valueAt o t) := by
  rw [covers, ofField, List.all_cons, List.all_nil, Bool.and_true, fieldHolds]

/-- An instant that the pattern covers is found in the first pass. -/
theorem settle_of_covers {pattern : Pattern} (h : pattern.covers t = true) (passes : Nat) :
    pattern.settle passes t = .found t := by
  cases passes <;> rw [settle, if_pos h]

/-- **A rule of one field is found by its correcting move**, whatever the budget, if the field holds
where the move ends. -/
theorem next_ofField (h : ∀ c, earliestEntry? o t p f = some c → f.accepts (p.valueAt o c) = true)
    (budget : Nat) : (ofField p f o).next t budget = earliestEntry? o t p f := by
  rw [next, search]
  by_cases hcovers : (ofField p f o).covers t = true
  · have hstep : (ofField p f o).stepPast? t = earliestEntry? o t p f := rfl
    rw [if_pos hcovers, hstep]
    cases hentry : earliestEntry? o t p f with
    | none => rfl
    | some c =>
        have hc : (ofField p f o).covers c = true := covers_ofField.trans (h c hentry)
        simp only [settle_of_covers hc]
        rfl
  · have hfails : ¬ fieldHolds o t (p, f) = true := fun hholds => hcovers (covers_ofField.trans hholds)
    have hentries : (ofField p f o).bindings.entries = [(p, f)] := rfl
    have hoptions : (ofField p f o).options = o := rfl
    rw [if_neg hcovers, settle, if_neg hcovers, hentries, hoptions, correct, if_neg hfails]
    cases hentry : earliestEntry? o t p f with
    | none => simp only [Outcome.instant?]
    | some c =>
        have hc : (ofField p f o).covers c = true := covers_ofField.trans (h c hentry)
        simp only [correct, settle_of_covers hc, Outcome.instant?]

end Pattern

/-- **The correcting move satisfies the field it corrects, exactly if it does not stray**, and
nothing that the field accepts lies before its end.  Unless the move strays, a rule of the one field
is settled in the first pass. -/
theorem earliestEntry_settles (p : Period) (hcyclic : p.domain? ≠ none) (f : Frequency)
    (o : CalendarOptions) (h54 : p.DomainComplete o ∨ f.accepts 54 = false) (t : Instant)
    (ht : t.IsOrdinary) :
    (f.accepts (p.valueAt o t) = false → ∀ c, earliestEntry? o t p f = some c →
      (f.accepts (p.valueAt o c) = true ↔ ¬ Strays p o f t) ∧
        ∀ x : Instant, x.IsOrdinary → t < x → x < c → f.accepts (p.valueAt o x) = false) ∧
    (¬ Strays p o f t →
      ∀ budget, (Pattern.ofField p f o).next t 0 = (Pattern.ofField p f o).next t budget) := by
  have hsettles : ¬ Strays p o f t →
      ∀ c, earliestEntry? o t p f = some c → f.accepts (p.valueAt o c) = true := by
    intro hstrays c hentry
    by_contra hrejects
    exact hstrays (strays_of_rejects hcyclic h54 ht hentry (Bool.eq_false_iff.2 hrejects))
  refine ⟨fun hrejects c hentry => ⟨⟨fun haccepts hstrays => ?_, fun hstrays => ?_⟩, ?_⟩, ?_⟩
  · rw [rejects_of_strays ht hstrays hentry] at haccepts
    cases haccepts
  · exact hsettles hstrays c hentry
  · intro x hx htx hxc
    rw [← Bool.not_eq_true]
    intro haccepts
    have hsteady : ¬ p.Steady o t x := by
      refine Period.not_steady_of_valueAt_ne hx htx.le fun hvalue => ?_
      rw [hvalue, hrejects] at haccepts
      cases haccepts
    rw [rejects_of_lt_entry h54 ht hentry hx ((Period.run_lt_iff ht hx).2 ⟨htx, hsteady⟩) hxc]
      at haccepts
    cases haccepts
  · intro hstrays budget
    rw [Pattern.next_ofField (hsettles hstrays), Pattern.next_ofField (hsettles hstrays)]

/-- From New Year 2024 the move to the 53rd whole week of a year ends on 31 December 2028, the first
day in such a week, and a rule for that week is found without a further pass. -/
theorem earliestEntry_settles_week53 :
    (Frequency.single 53).accepts ((Period.week .year .full).valueAt .standard
        (Instant.startOfDay ((Date.ofCivil? 2028 11 31).get (by decide)))) = true ∧
      (∀ x : Instant, x.IsOrdinary →
        Instant.startOfDay ((Date.ofCivil? 2024 0 1).get (by decide)) < x →
        x < Instant.startOfDay ((Date.ofCivil? 2028 11 31).get (by decide)) →
          (Frequency.single 53).accepts ((Period.week .year .full).valueAt .standard x) = false) ∧
      ∀ budget, (Pattern.ofField (.week .year .full) (.single 53) .standard).next
            (Instant.startOfDay ((Date.ofCivil? 2024 0 1).get (by decide))) 0 =
          (Pattern.ofField (.week .year .full) (.single 53) .standard).next
            (Instant.startOfDay ((Date.ofCivil? 2024 0 1).get (by decide))) budget := by
  obtain ⟨hentry, hnext⟩ := earliestEntry_settles (.week .year .full) (by decide) (.single 53)
    .standard (.inl nofun) (Instant.startOfDay ((Date.ofCivil? 2024 0 1).get (by decide)))
    (by decide)
  have hstrays : ¬ Strays (.week .year .full) .standard (.single 53)
      (Instant.startOfDay ((Date.ofCivil? 2024 0 1).get (by decide))) := by
    rintro ⟨-, -, -, -, ⟨v, -, haccepts, hgone⟩, -⟩
    have hv : v = 53 := eq_of_beq haccepts
    refine hgone (Instant.startOfDay ((Date.ofCivil? 2028 11 31).get (by decide))) (by decide)
      (by decide) (Period.not_steady_of_valueAt_ne (by decide) (by decide) (by decide)) ?_
    rw [hv]
    decide
  obtain ⟨haccepts, hbetween⟩ := hentry (by decide)
    (Instant.startOfDay ((Date.ofCivil? 2028 11 31).get (by decide))) (by decide +kernel)
  exact ⟨haccepts.2 hstrays, hbetween, hnext hstrays⟩

/-- A rule for the weeks 3 and 6 of a month, of which no month has a whole week 6. -/
def thirdOrSixthWeek : Frequency := ⟨.multiple [3, 6], by decide, by decide⟩

/-- **A correcting move can stray.**  On 28 January 2024 a month is in its fourth whole week.  The
move for the weeks 3 and 6 ends on 1 February, which lies in neither, and so the third week of
February is found in the second pass only. -/
theorem entryFails_weekOfMonth :
    thirdOrSixthWeek.accepts ((Period.week .month .full).valueAt .standard
        (Instant.startOfDay ((Date.ofCivil? 2024 0 28).get (by decide)))) = false ∧
      earliestEntry? .standard (Instant.startOfDay ((Date.ofCivil? 2024 0 28).get (by decide)))
          (.week .month .full) thirdOrSixthWeek =
        some (Instant.startOfDay ((Date.ofCivil? 2024 1 1).get (by decide))) ∧
      thirdOrSixthWeek.accepts ((Period.week .month .full).valueAt .standard
        (Instant.startOfDay ((Date.ofCivil? 2024 1 1).get (by decide)))) = false ∧
      (Pattern.ofField (.week .month .full) thirdOrSixthWeek .standard).next
        (Instant.startOfDay ((Date.ofCivil? 2024 0 28).get (by decide))) 0 = none ∧
      (Pattern.ofField (.week .month .full) thirdOrSixthWeek .standard).next
          (Instant.startOfDay ((Date.ofCivil? 2024 0 28).get (by decide))) 1 =
        some (Instant.startOfDay ((Date.ofCivil? 2024 1 18).get (by decide))) := by
  refine ⟨?_, ?_, ?_, ?_, ?_⟩ <;> decide +kernel

end Recurrence
