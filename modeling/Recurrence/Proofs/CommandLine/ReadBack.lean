import Recurrence.Proofs.Calendar.Written
import Recurrence.Proofs.CommandLine.Arguments
import Recurrence.Proofs.Schedule.Whole

/-!
# Results as starts

The program prints instants and takes one to start from.  **What it prints can be given back to it**: the
text of an instant is read as the instant without the part below a millisecond, and the occurrences of a
schedule have no such part, so each of them is read back unchanged.

Two things stand in the way.  A leap second that does not end a minute has no text of its own, and is
read back as the second that follows; no occurrence of a schedule lies in one.  A year before 0 is printed
with a minus sign, and an argument that begins with a dash is never taken as the value of the option in
front of it, so such a result is given back after an equals sign.

## Main Statements

* `results_are_read_back`: results, occurrences given back as starts, and all other ways to write an
  instant
-/

namespace Recurrence

namespace Instant

variable {t : Instant} {text : String}

theorem readInstant_eq_some (h : Instant.ofText text = .ok t) :
    Invocation.readInstant text = some t := by
  rw [Invocation.readInstant, h]
  rfl

/-- The text of an instant has no sign in front, or a plus sign, unless the year is negative. -/
theorem head?_toText_ne (hyear : 0 ≤ t.date.year) : t.toText.toList.head? ≠ some '-' := by
  have hdigits := Text.writesNatural_padded 4 t.date.year.natAbs
  obtain ⟨c, digits, htext, hc⟩ := hdigits.exists_cons
  have hyearText : (yearText t.date.year).toList.head? = some '+' ∨
      (yearText t.date.year).toList.head? = some c := by
    unfold yearText
    rw [if_neg (not_lt.2 hyear)]
    split
    · right
      rw [htext, List.head?_cons]
    · left
      rw [String.toList_append]
      rfl
  have hfront : t.toText.toList.head? = (yearText t.date.year).toList.head? := by
    obtain ⟨b, rest, hcons⟩ : ∃ b rest, (yearText t.date.year).toList = b :: rest :=
      List.exists_cons_of_ne_nil (by rintro hnil; simp [hnil] at hyearText)
    simp only [toText, Date.toText, String.toList_append, List.append_assoc, hcons, List.cons_append,
      List.head?_cons]
  rw [hfront]
  rintro hdash
  rcases hyearText with h | h
  · rw [h] at hdash
    cases hdash
  · rw [h, Option.some_inj] at hdash
    subst hdash
    cases hc

end Instant

/-- **What is printed is read back.**  A regular instant is read back without the part below a
millisecond, and a moment of a leap second stays one.  A leap second that does not end a minute is
printed, and read, as the second that follows.  The occurrences of a schedule whose included patterns have
fields are printed line by line, and each of them is read back unchanged as the start of a run, after an
equals sign or, unless its year is negative, as the next argument.  All the ways to write the fields of an
instant, with any blanks around them, are read as the instant that they show. -/
theorem results_are_read_back :
    (∀ t : Instant,
      (t.IsRegular → Instant.ofText (renderLines [t]) = .ok ⟨t.date, t.time.floorMilli⟩) ∧
      (t.time.floorMilli.IsLeap ↔ t.time.IsLeap) ∧
      (¬ t.IsRegular → ∃ u, Instant.ofText (renderLines [t]) = .ok u ∧ u.date = t.date ∧
        u.time.secondOfDay = t.time.secondOfDay + 1 ∧
        u.time.nano = (t.time.nano - nanosPerSecond) / nanosPerMilli * nanosPerMilli)) ∧
    (∀ (s : Schedule) (start : Instant) (budget count : Nat), s.IncludesByFields →
      ((s.occurrences start budget).take count ≠ [] →
        Text.splitAll '\n' (renderLines ((s.occurrences start budget).take count)).toList =
          ((s.occurrences start budget).take count).map fun r => r.toText.toList) ∧
      ∀ r ∈ (s.occurrences start budget).take count, Instant.ofText r.toText = .ok r ∧
        (0 ≤ r.date.year → Gives "from" r.toText ["--from", r.toText]) ∧
        ∀ on off arguments : List String, on ≠ [] →
          (∀ rule ∈ on ++ off, (Invocation.readRule rule).isSome = true) →
          Gives "from" r.toText arguments →
          Invocation.ofArguments
              ("next" :: (on.map (assign "on") ++ (off.map (assign "not") ++ arguments))) =
            .ok ⟨0, none, .next ⟨on.filterMap Invocation.readRule, off.filterMap Invocation.readRule⟩
              (some r) none none false⟩) ∧
    (∀ (t : Instant) (s : List Char) (text : String), t.WrittenAs s → Text.Padded s text.toList →
      Instant.ofText text = .ok t.shown ∧ (t.IsRegular → t.shown = t)) := by
  refine ⟨fun t => ⟨?_, t.time.floorMilli_isLeap, ?_⟩, fun s start budget count hs =>
    ⟨?_, fun r hr => ?_⟩, fun t s text h hpadded => ⟨Instant.ofText_of_writtenAs h hpadded,
      Instant.shown_of_isRegular⟩⟩
  · rw [Instant.renderLines_singleton]
    exact Instant.ofText_toText_of_isRegular
  · rw [Instant.renderLines_singleton]
    exact Instant.exists_ofText_toText_of_not_isRegular
  · intro hne
    exact Instant.splitAll_renderLines hne
  · have hwhole := Occurrences.isWhole_of_mem_take hs hr
    have hread : Instant.ofText r.toText = .ok r :=
      Instant.ofText_toText_of_whole hwhole.nano hwhole.regular
    refine ⟨hread, fun hyear => .next (Instant.head?_toText_ne hyear), ?_⟩
    intro on off arguments hon hrules hgives
    exact Invocation.ofArguments_next hon hrules (Instant.readInstant_eq_some hread) hgives

/-- The first of the days of `newYear2017` is found from within a leap second, and is given back as the
start of a run.  A leap second to the millisecond is read back too, and so is a bare date between
blanks.  A leap second in the middle of a minute is read back as the second that follows. -/
theorem results_are_read_back_newYear :
    Instant.ofText (renderLines [Instant.leapSecond2016]) = .ok Instant.leapSecond2016 ∧
      Invocation.ofArguments ["next", assign "on" "year=2017",
          assign "from" (Instant.startOfDay ((Date.ofCivil? 2017 0 1).get (by decide))).toText] =
        .ok ⟨0, none, .next ⟨["year=2017"].filterMap Invocation.readRule, []⟩
          (some (Instant.startOfDay ((Date.ofCivil? 2017 0 1).get (by decide)))) none none false⟩ ∧
      Instant.ofText " 2017-1-01 " =
        .ok (Instant.startOfDay ((Date.ofCivil? 2017 0 1).get (by decide))) ∧
      ∃ u, Instant.ofText (renderLines [Instant.leapSecondMidMinute]) = .ok u ∧
        u.time.secondOfDay = 86165 ∧ u.time.nano = 333000000 := by
  obtain ⟨hprinted, hschedules, hlayouts⟩ := results_are_read_back
  have hfields : Schedule.newYear2017.IncludesByFields := by
    intro p hp
    rw [List.mem_singleton.1 hp]
    exact List.cons_ne_nil _ _
  obtain ⟨-, hfound⟩ := hschedules Schedule.newYear2017 Instant.leapSecond2016 3 1 hfields
  obtain ⟨-, -, hgiven⟩ := hfound (Instant.startOfDay ((Date.ofCivil? 2017 0 1).get (by decide)))
    (by decide +kernel)
  have hblank : Text.AllBlank [' '] := List.forall_mem_singleton.2 rfl
  have hdate : ((Date.ofCivil? 2017 0 1).get (by decide)).WrittenAs "2017-1-01".toList :=
    ⟨"2017".toList, "1".toList, "01".toList,
      .digits (n := 2017) (Text.natural?_eq_some_iff.1 (by decide +kernel)) (by decide),
      ⟨Text.natural?_eq_some_iff.1 (by decide +kernel), by decide⟩,
      ⟨Text.natural?_eq_some_iff.1 (by decide +kernel), by decide⟩, rfl⟩
  have hbare := hlayouts (Instant.startOfDay ((Date.ofCivil? 2017 0 1).get (by decide)))
    "2017-1-01".toList " 2017-1-01 " (.date hdate rfl) ⟨[' '], [' '], hblank, hblank, rfl⟩
  obtain ⟨u, hread, -, hsecond, hnano⟩ := (hprinted Instant.leapSecondMidMinute).2.2 (by decide)
  refine ⟨((hprinted Instant.leapSecond2016).1 (by decide)).trans (by decide +kernel),
    hgiven ["year=2017"] [] _ (List.cons_ne_nil _ _) (by decide +kernel) .attached, ?_,
    u, hread, hsecond, hnano⟩
  rw [hbare.1, hbare.2 (Instant.isOrdinary_startOfDay _).isRegular]

/-- A leap second in the middle of a minute is not read back, and the beginning of the year -5 is not
taken as the next argument. -/
theorem readBackFails_midMinute_and_negativeYear :
    Instant.ofText (renderLines [Instant.leapSecondMidMinute]) ≠
        .ok ⟨Instant.leapSecondMidMinute.date, Instant.leapSecondMidMinute.time.floorMilli⟩ ∧
      Instant.ofText (renderLines [Instant.startOfDay ((Date.ofCivil? (-5) 0 1).get (by decide))]) =
        .ok (Instant.startOfDay ((Date.ofCivil? (-5) 0 1).get (by decide))) ∧
      Invocation.ofArguments ["next", "--on", "dayOfMonth=1", "--from",
          renderLines [Instant.startOfDay ((Date.ofCivil? (-5) 0 1).get (by decide))]] =
        .error .unknownArgument := by
  have hprinted :
      renderLines [Instant.startOfDay ((Date.ofCivil? (-5) 0 1).get (by decide))] =
        "-0005-01-01T00:00:00.000" := by decide +kernel
  refine ⟨by decide +kernel, by decide +kernel, ?_⟩
  rw [hprinted]
  rfl

end Recurrence
