import Recurrence.Proofs.Calendar.Layout

/-!
# Results read back

A result shows an instant to the millisecond: **the text of an instant is one of the texts that the
instant has without the part below a millisecond**, so it is read as what they show.  The year may have
any number of digits, since it has a sign where it has more than four or is negative; a moment of a leap
second that ends a minute is written with second 60 and stays one.  One that does not is written, and
read, as a moment of the second that follows.

A regular instant at a whole millisecond is read back unchanged.

## Main Statements

* `Instant.writtenAs_toText`: the text of an instant is a way to write it
* `Instant.ofText_toText`: it is read back
* `Instant.ofText_toText_of_whole`: a regular instant at a whole millisecond is read back unchanged
* `Instant.splitAll_renderLines`: the lines of several results
-/

namespace Recurrence

open Text (padded writesNatural_padded length_padded)

/-! ## The text of an instant -/

theorem writesYear_yearText (year : Int) : WritesYear year (yearText year).toList := by
  have hdigits := writesNatural_padded 4 year.natAbs
  unfold yearText
  split
  · have hyear : year = -(year.natAbs : Int) := by omega
    rw [String.toList_append, hyear, Int.natAbs_neg, Int.natAbs_natCast]
    exact .minus hdigits
  · have hyear : year = (year.natAbs : Int) := by omega
    split
    · have hlength := @length_padded year.natAbs 4 (by decide) (by omega)
      rw [hyear, Int.natAbs_natCast]
      exact .digits hdigits hlength.le
    · rw [String.toList_append, hyear, Int.natAbs_natCast]
      exact .plus hdigits

theorem writesShort_padded {n : Nat} (hn : n < 100) : WritesShort n (padded 2 n).toList :=
  ⟨writesNatural_padded 2 n, (length_padded (by decide) hn).le⟩

theorem Date.writtenAs_toText (d : Date) : d.WrittenAs d.toText.toList := by
  have hmonth := d.month_lt
  have hday := d.dayOfMonth_bounds
  have hdaymax := (daysInMonth_bounds d.year d.month).2
  have hdash : "-".toList = ['-'] := rfl
  refine ⟨_, _, _, writesYear_yearText d.year, @writesShort_padded (d.month + 1) (by omega),
    @writesShort_padded d.dayOfMonth.toNat (by omega), ?_⟩
  simp only [Date.toText, String.toList_append, List.append_assoc, hdash, List.cons_append,
    List.nil_append]

namespace TimeOfDay

variable (t : TimeOfDay)

theorem floorMilli_writtenSecond : t.floorMilli.writtenSecond = t.writtenSecond := by
  simp only [writtenSecond, t.floorMilli_isLeap]
  rfl

theorem floorMilli_writtenNano :
    t.floorMilli.writtenNano = t.writtenNano / nanosPerMilli * nanosPerMilli := by
  unfold writtenNano floorMilli nanosPerSecond nanosPerMilli
  simp only
  omega

/-- A whole millisecond is what it is without the part below. -/
theorem floorMilli_eq_self (h : t.nano % nanosPerMilli = 0) : t.floorMilli = t :=
  ext rfl (Nat.div_mul_cancel (Nat.dvd_of_mod_eq_zero h))

theorem clockWrittenAs_toText : t.ClockWrittenAs ((padded 2 t.hour).toList ++ ':' ::
    (padded 2 t.minute).toList) :=
  ⟨_, _, writesShort_padded (t.hour_lt.trans (by decide)),
    writesShort_padded (t.minute_lt.trans (by decide)), rfl⟩

end TimeOfDay

namespace Instant

/-- **The text of an instant is a way to write it**, without the part below a millisecond. -/
theorem writtenAs_toText (t : Instant) :
    (⟨t.date, t.time.floorMilli⟩ : Instant).WrittenAs t.toText.toList := by
  have hsecond : t.time.writtenSecond < 100 := by
    have hsecond := t.time.second_lt
    unfold TimeOfDay.writtenSecond
    split <;> omega
  have hmilli : t.time.writtenNano / nanosPerMilli < 10 ^ 3 := by
    unfold TimeOfDay.writtenNano nanosPerSecond nanosPerMilli
    omega
  have hlength := @length_padded _ 3 (by decide) hmilli
  have hfraction := WritesFraction.digits (writesNatural_padded 3 (t.time.writtenNano / nanosPerMilli))
    (by omega)
  rw [hlength] at hfraction
  have htime : t.time.floorMilli.WrittenAs ((padded 2 t.time.hour).toList ++ ':' ::
      (padded 2 t.time.minute).toList ++ ':' :: ((padded 2 t.time.writtenSecond).toList ++ '.' ::
        (padded 3 (t.time.writtenNano / nanosPerMilli)).toList)) := by
    refine .seconds t.time.floorMilli.clockWrittenAs_toText ?_ ?_
    · rw [TimeOfDay.floorMilli_writtenSecond]
      exact writesShort_padded hsecond
    · rw [TimeOfDay.floorMilli_writtenNano]
      exact hfraction
  have htext : t.toText.toList = t.date.toText.toList ++ 'T' :: ((padded 2 t.time.hour).toList ++ ':' ::
      (padded 2 t.time.minute).toList ++ ':' :: ((padded 2 t.time.writtenSecond).toList ++ '.' ::
        (padded 3 (t.time.writtenNano / nanosPerMilli)).toList)) := by
    have hjoin : "T".toList = ['T'] := rfl
    have hcolon : ":".toList = [':'] := rfl
    have hpoint : ".".toList = ['.'] := rfl
    simp only [toText, TimeOfDay.toText, String.toList_append, List.append_assoc, hjoin, hcolon, hpoint,
      List.cons_append, List.nil_append]
  rw [htext]
  exact .joined t.date.writtenAs_toText htime

/-- **The text of an instant is read as what is shown of the instant** without the part below a
millisecond. -/
theorem ofText_toText (t : Instant) :
    Instant.ofText t.toText = .ok (shown ⟨t.date, t.time.floorMilli⟩) :=
  ofText_of_writtenAs t.writtenAs_toText (Text.padded_refl _)

theorem ofText_toText_of_isRegular {t : Instant} (h : t.IsRegular) :
    Instant.ofText t.toText = .ok ⟨t.date, t.time.floorMilli⟩ := by
  rw [ofText_toText, shown_of_isRegular (t.time.floorMilli_isRegular.2 h)]

/-- A leap second that does not end a minute is read as the second that follows. -/
theorem exists_ofText_toText_of_not_isRegular {t : Instant} (h : ¬ t.IsRegular) :
    ∃ u, Instant.ofText t.toText = .ok u ∧ u.date = t.date ∧
      u.time.secondOfDay = t.time.secondOfDay + 1 ∧
      u.time.nano = (t.time.nano - nanosPerSecond) / nanosPerMilli * nanosPerMilli := by
  have hfloor := mt t.time.floorMilli_isRegular.1 h
  have hmillis : t.time.floorMilli.nano = t.time.nano / nanosPerMilli * nanosPerMilli := rfl
  obtain ⟨hsecond, hnano⟩ := TimeOfDay.shown_of_not_isRegular hfloor
  refine ⟨_, t.ofText_toText, shown_date _, ?_, ?_⟩
  · rw [shown_time, hsecond]
    rfl
  · rw [shown_time, hnano, hmillis]
    unfold nanosPerSecond nanosPerMilli
    omega

/-- The text of a regular instant at a whole millisecond is read as the instant. -/
theorem ofText_toText_of_whole {t : Instant} (h : t.time.nano % nanosPerMilli = 0)
    (ht : t.IsRegular) : Instant.ofText t.toText = .ok t := by
  rw [ofText_toText_of_isRegular ht, t.time.floorMilli_eq_self h]

/-! ## Results line by line -/

theorem newline_not_mem_toText (t : Instant) : '\n' ∉ t.toText.toList := by
  have hnumber (width n : Nat) : '\n' ∉ (padded width n).toList := by
    intro hmem
    have hdigit := List.all_eq_true.1 (writesNatural_padded width n).2.1 _ hmem
    cases hdigit
  have hyear (year : Int) : '\n' ∉ (yearText year).toList := by
    unfold yearText
    split
    · simp [hnumber]
    · split <;> simp [hnumber]
  simp [toText, Date.toText, TimeOfDay.toText, hyear, hnumber]

/-- One result is printed as its text. -/
theorem renderLines_singleton (t : Instant) : renderLines [t] = t.toText := by
  rw [renderLines, List.map_singleton, String.intercalate_singleton]

/-- **The lines of the results are their texts.** -/
theorem splitAll_renderLines {ts : List Instant} (hne : ts ≠ []) :
    Text.splitAll '\n' (renderLines ts).toList = ts.map fun t => t.toText.toList := by
  have hnewline : "\n".toList = ['\n'] := rfl
  rw [renderLines, String.toList_intercalate, List.map_map, hnewline]
  apply Text.splitAll_intercalate
  · exact mt List.map_eq_nil_iff.1 hne
  · intro part hpart
    obtain ⟨t, -, rfl⟩ := List.mem_map.1 hpart
    exact t.newline_not_mem_toText

end Instant

end Recurrence
