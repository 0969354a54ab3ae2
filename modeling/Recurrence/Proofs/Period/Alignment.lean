import Mathlib.Tactic.Linarith
import Mathlib.Tactic.Ring
import Recurrence.Proofs.Period.DayField

/-!
# Where moves end

A move that leads forward ends where its period begins: **what is finer than the period is zero in
the time of day**.  This holds from every start, moments of a leap second included.  A move of a
period that is not finer than a day ends at a midnight.  A move of an hour, a minute or a second goes
on by whole units from the beginning of the current one, and a day is a whole number of each.  A move
of a millisecond may stay within a leap second; it still ends on a whole millisecond, and it leads
nowhere from a leap second that does not end a minute, so that no move ends in one.

## Main Definitions

* `Instant.AlignedTo`: an instant at which a period can begin

## Main Statements

* `Instant.AlignedTo.eq_startOfDay`: aligned to a day or a longer period, an instant is a midnight
* `Period.moveTo_congr_of_date`: moves of a day or a longer period end at a midnight
* `Period.alignedTo_moveTo`: moves that lead forward end on aligned instants
-/

namespace Recurrence

namespace Instant

/-- The parts of the time of day that are finer than a period are zero, nothing finer than a
millisecond is left, and a leap second ends a minute. -/
structure AlignedTo (t : Instant) (p : Period) : Prop where
  hour : Period.hour.priority < p.priority → t.time.hour = 0
  minute : Period.minute.priority < p.priority → t.time.minute = 0
  second : Period.second.priority < p.priority → t.time.second = 0
  millisecond : Period.millisecond.priority < p.priority → t.time.millisecond = 0
  nano : t.time.nano % nanosPerMilli = 0
  regular : t.IsRegular

variable {t : Instant} {p q : Period}

/-- An instant that is aligned to a period is aligned to every finer one. -/
theorem AlignedTo.mono (h : t.AlignedTo p) (hle : q.priority ≤ p.priority) : t.AlignedTo q where
  hour hlt := h.hour (hlt.trans_le hle)
  minute hlt := h.minute (hlt.trans_le hle)
  second hlt := h.second (hlt.trans_le hle)
  millisecond hlt := h.millisecond (hlt.trans_le hle)
  nano := h.nano
  regular := h.regular

theorem alignedTo_startOfDay (d : Date) (p : Period) : (startOfDay d).AlignedTo p where
  hour _ := Nat.zero_div _
  minute _ := by simp only [startOfDay, TimeOfDay.minute, TimeOfDay.midnight, Nat.zero_div,
    Nat.zero_mod]
  second _ := Nat.zero_mod _
  millisecond _ := Nat.zero_div _
  nano := Nat.zero_mod _
  regular := (isOrdinary_startOfDay d).isRegular

/-- **Aligned to a day or a longer period, an instant is a midnight.** -/
theorem AlignedTo.eq_startOfDay (h : t.AlignedTo p) (hday : Period.hour.priority < p.priority) :
    t = startOfDay t.date := by
  have hminute : Period.minute.priority < Period.hour.priority := by decide
  have hsecond : Period.second.priority < Period.hour.priority := by decide
  have hmilli : Period.millisecond.priority < Period.hour.priority := by decide
  have hh := h.hour hday
  have hm := h.minute (hminute.trans hday)
  have hs := h.second (hsecond.trans hday)
  have hms := h.millisecond (hmilli.trans hday)
  have hn := h.nano
  unfold TimeOfDay.hour at hh
  unfold TimeOfDay.minute at hm
  unfold TimeOfDay.second at hs
  unfold TimeOfDay.millisecond nanosPerMilli at hms
  unfold nanosPerMilli at hn
  refine ext rfl (TimeOfDay.ext ?_ ?_)
  · show t.time.secondOfDay = 0
    omega
  · show t.time.nano = 0
    omega

/-! ### The beginning of a second, a minute or an hour -/

theorem alignedTo_second (hnano : t.time.nano = 0) : t.AlignedTo .second where
  hour h := absurd h (by decide)
  minute h := absurd h (by decide)
  second h := absurd h (by decide)
  millisecond _ := by rw [TimeOfDay.millisecond, hnano, Nat.zero_div]
  nano := by rw [hnano, Nat.zero_mod]
  regular := (isOrdinary_iff.2 (hnano ▸ by decide)).isRegular

theorem alignedTo_minute (hnano : t.time.nano = 0) (hdvd : 60 ∣ t.time.secondOfDay) :
    t.AlignedTo .minute where
  hour h := absurd h (by decide)
  minute h := absurd h (by decide)
  second _ := Nat.mod_eq_zero_of_dvd hdvd
  millisecond _ := (alignedTo_second hnano).millisecond (by decide)
  nano := (alignedTo_second hnano).nano
  regular := (alignedTo_second hnano).regular

theorem alignedTo_hour (hnano : t.time.nano = 0) (hdvd : 3600 ∣ t.time.secondOfDay) :
    t.AlignedTo .hour where
  hour h := absurd h (by decide)
  minute _ := by
    unfold TimeOfDay.minute
    omega
  second _ := Nat.mod_eq_zero_of_dvd (Nat.dvd_trans (by decide) hdvd)
  millisecond _ := (alignedTo_second hnano).millisecond (by decide)
  nano := (alignedTo_second hnano).nano
  regular := (alignedTo_second hnano).regular

end Instant

namespace Period

variable {p : Period} {o : CalendarOptions} {t u : Instant}

/-! ## Moves to a day -/

/-- The day that is looked for depends on the date alone. -/
theorem advanceToDay_congr (scope : WeekScope) (horizon : Nat) (dayIn? : Date → Option Date)
    (hdate : t.date = u.date) :
    ∃ day, advanceToDay scope horizon dayIn? t = startOfDayOr t day ∧
      advanceToDay scope horizon dayIn? u = startOfDayOr u day := by
  unfold advanceToDay
  rw [hdate]
  split
  · exact ⟨some _, rfl, rfl⟩
  · split
    · exact ⟨some _, rfl, rfl⟩
    · exact ⟨_, rfl, rfl⟩

theorem advanceToYearDay_congr (v : Int) (hdate : t.date = u.date) :
    ∃ day, advanceToYearDay v t = startOfDayOr t day ∧
      advanceToYearDay v u = startOfDayOr u day := by
  unfold advanceToYearDay
  rw [hdate]
  split
  · exact ⟨some _, rfl, rfl⟩
  · split
    · exact ⟨some _, rfl, rfl⟩
    · exact ⟨_, rfl, rfl⟩
    · exact ⟨none, rfl, rfl⟩

/-- **The moves of a period that is not finer than a day stay or end at a midnight**, and at which one
depends on the date alone. -/
theorem moveTo_congr_of_date (hday : hour.priority < p.priority) (o : CalendarOptions) (v : Int)
    (hdate : t.date = u.date) :
    ∃ day, p.moveTo o v t = startOfDayOr t day ∧ p.moveTo o v u = startOfDayOr u day := by
  cases p with
  | week scope numbering => exact advanceToDay_congr scope _ _ hdate
  | dayOfYear => exact advanceToYearDay_congr v hdate
  | dayOfMonth => exact advanceToDay_congr .month _ _ hdate
  | dayOfMonthFromEnd => exact advanceToDay_congr .month _ _ hdate
  | hour => exact absurd hday (by decide)
  | minute => exact absurd hday (by decide)
  | second => exact absurd hday (by decide)
  | millisecond => exact absurd hday (by decide)
  | _ =>
      unfold moveTo
      rw [hdate]
      exact ⟨_, rfl, rfl⟩

theorem alignedTo_startOfDayOr {day : Option Date} (h : t < startOfDayOr t day) :
    (startOfDayOr t day).AlignedTo p := by
  cases day with
  | none => exact absurd h (lt_irrefl t)
  | some d => exact Instant.alignedTo_startOfDay d p

/-! ## Moves of the time of day -/

/-- Whole units of seconds, as milliseconds. -/
theorem exists_toNat_units (distance : Int) (unit : Nat) :
    ∃ n : Nat, (distance * (unit * 1000)).toNat = unit * n * 1000 := by
  refine ⟨distance.toNat, ?_⟩
  rcases Int.le_total 0 distance with hpos | hneg
  · obtain ⟨n, rfl⟩ := Int.eq_ofNat_of_zero_le hpos
    have hproduct : (n : Int) * (unit * 1000) = ((unit * n * 1000 : Nat) : Int) := by
      push_cast
      ring
    rw [hproduct, Int.toNat_natCast, Int.toNat_natCast]
  · have hproduct : distance * (unit * 1000) ≤ 0 :=
      Int.mul_nonpos_of_nonpos_of_nonneg hneg (by omega)
    rw [Int.toNat_of_nonpos hproduct, Int.toNat_of_nonpos hneg, Nat.mul_zero, Nat.zero_mul]

/-- A move by whole units of seconds from the beginning of a unit ends at the beginning of one, a day
being a whole number of them. -/
theorem dvd_advanceTime_floorTo {unit : Nat} {distance : Int} (hunit : unit ∣ secondsPerDay)
    (h : t < advanceTime t (some (t.time.floorTo unit)) (unit * 1000) distance) :
    (advanceTime t (some (t.time.floorTo unit)) (unit * 1000) distance).time.nano = 0 ∧
      unit ∣ (advanceTime t (some (t.time.floorTo unit)) (unit * 1000) distance).time.secondOfDay := by
  obtain ⟨_, ⟨⟩, hadd⟩ := exists_addMillis?_of_lt h
  obtain ⟨n, hn⟩ := exists_toNat_units distance unit
  generalize advanceTime t (some (t.time.floorTo unit)) (unit * 1000) distance = r at hadd ⊢
  have hordinary := Instant.isOrdinary_floorTo t.date unit t.time
  have hwhole : unit * n * 1000 % 1000 * nanosPerMilli = 0 := by
    rw [Nat.mul_mod_left, Nat.zero_mul]
  rw [hn, Instant.addMillis?, dif_neg fun hleap => hordinary hleap.1, if_neg hordinary, hwhole,
    Nat.mul_div_cancel _ (by decide)] at hadd
  obtain ⟨hseconds, hnano⟩ := Instant.ofSeconds?_parts hadd
  have hnano : r.time.nano = 0 := hnano
  refine ⟨hnano, ?_⟩
  -- the seconds of `r` are a difference of multiples of the unit
  have hrest : (r.time.secondOfDay : Int) =
      (t.date.number - r.date.number) * secondsPerDay +
        ((t.time.secondOfDay / unit : Nat) + n) * unit := by
    have hfloor : (t.time.floorTo unit).secondOfDay = t.time.secondOfDay / unit * unit := rfl
    have hcarry : ((t.time.floorTo unit).nano + 0) / nanosPerSecond = 0 := Nat.zero_div _
    rw [hfloor, hcarry] at hseconds
    push_cast at hseconds ⊢
    linarith
  rw [← Int.natCast_dvd_natCast, hrest]
  exact Int.dvd_add (Int.dvd_mul_of_dvd_right (Int.natCast_dvd_natCast.2 hunit))
    (Int.dvd_mul_left _ _)

/-- A millisecond move that leads forward ends on a whole millisecond, and not in an irregular leap
second. -/
theorem alignedTo_moveTo_millisecond {v : Int} (h : t < millisecond.moveTo o v t) :
    (millisecond.moveTo o v t).AlignedTo .millisecond := by
  have hregular := isRegular_of_lt_moveTo o v h
  rw [moveTo_millisecond o v hregular] at h ⊢
  obtain ⟨_, ⟨⟩, hadd⟩ := exists_addMillis?_of_lt h
  refine ⟨fun hlt => absurd hlt (by decide), fun hlt => absurd hlt (by decide),
    fun hlt => absurd hlt (by decide), fun hlt => absurd hlt (by decide), ?_, ?_⟩
  · rw [Instant.nano_mod_of_addMillis? hadd]
    exact Nat.mul_mod_left _ _
  · have hfloor : Instant.IsRegular ⟨t.date, t.time.floorMilli⟩ :=
      t.time.floorMilli_isRegular.2 hregular
    exact hfloor.of_addMillis? hadd

/-! ## Every period -/

/-- **A move that leads forward ends on an instant aligned to its period.** -/
theorem alignedTo_moveTo (p : Period) (o : CalendarOptions) (v : Int) (t : Instant)
    (h : t < p.moveTo o v t) : (p.moveTo o v t).AlignedTo p := by
  by_cases hday : hour.priority < p.priority
  · obtain ⟨day, hmove, -⟩ := @moveTo_congr_of_date p t t hday o v rfl
    rw [hmove] at h ⊢
    exact alignedTo_startOfDayOr h
  · have htime := mem_time_of_priority_le (not_lt.1 hday)
    simp only [List.mem_cons, List.not_mem_nil, or_false] at htime
    rcases htime with rfl | rfl | rfl | rfl
    · rw [moveTo_hour] at h ⊢
      obtain ⟨hnano, hdvd⟩ := @dvd_advanceTime_floorTo t 3600 _ (by decide) h
      exact Instant.alignedTo_hour hnano hdvd
    · rw [moveTo_minute] at h ⊢
      obtain ⟨hnano, hdvd⟩ := @dvd_advanceTime_floorTo t 60 _ (by decide) h
      exact Instant.alignedTo_minute hnano hdvd
    · rw [moveTo_second] at h ⊢
      obtain ⟨hnano, -⟩ := @dvd_advanceTime_floorTo t 1 _ (by decide) h
      exact Instant.alignedTo_second hnano
    · exact alignedTo_moveTo_millisecond h

end Period

end Recurrence
