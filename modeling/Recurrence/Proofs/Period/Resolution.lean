import Recurrence.Proofs.Period.Alignment

/-!
# What a move depends on

A move of a period drops what is finer than the period before it goes anywhere.  So **two instants
that agree down to a period are moved to the same later instants**, although each of them is compared
with its own moves, and each stays where it is when the calendar ends.

The comparison does no harm because a move goes beyond the unit that its start lies in.  It ends on a
later day, or at least one whole unit after the beginning of the current one, and so after everything
that agrees with the start.  A leap second prolongs its second and does not reach the next one.

## Main Definitions

* `Instant.AgreesTo`: instants of one date that agree from the hour down to a period

## Main Statements

* `Period.valueAt_eq_of_agreesTo`: a field is the same
* `Period.moveTo_eq_of_agreesTo`: a move that leads forward is the same
-/

namespace Recurrence

namespace Instant

/-- The two instants have one date, and their times of day agree from the hour down to the period.
Down to a day or a longer period the date is all. -/
structure AgreesTo (t u : Instant) (p : Period) : Prop where
  date : t.date = u.date
  hour : p.priority ≤ Period.hour.priority → t.time.hour = u.time.hour
  minute : p.priority ≤ Period.minute.priority → t.time.minute = u.time.minute
  second : p.priority ≤ Period.second.priority → t.time.second = u.time.second
  millisecond : p.priority ≤ Period.millisecond.priority → t.time.millisecond = u.time.millisecond

variable {t u r : Instant} {p q : Period}

theorem AgreesTo.symm (h : t.AgreesTo u p) : u.AgreesTo t p where
  date := h.date.symm
  hour hle := (h.hour hle).symm
  minute hle := (h.minute hle).symm
  second hle := (h.second hle).symm
  millisecond hle := (h.millisecond hle).symm

/-- Instants that agree down to a period agree down to every coarser one. -/
theorem AgreesTo.mono (h : t.AgreesTo u p) (hle : p.priority ≤ q.priority) : t.AgreesTo u q where
  date := h.date
  hour hq := h.hour (hle.trans hq)
  minute hq := h.minute (hle.trans hq)
  second hq := h.second (hle.trans hq)
  millisecond hq := h.millisecond (hle.trans hq)

/-! ### The current unit -/

theorem AgreesTo.floorTo_hour (h : t.AgreesTo u .hour) :
    t.time.floorTo 3600 = u.time.floorTo 3600 := by
  have hhour : t.time.secondOfDay / 3600 = u.time.secondOfDay / 3600 := h.hour le_rfl
  exact TimeOfDay.ext (congrArg (· * 3600) hhour) rfl

theorem AgreesTo.floorTo_minute (h : t.AgreesTo u .minute) :
    t.time.floorTo 60 = u.time.floorTo 60 := by
  have hhour : t.time.secondOfDay / 3600 = u.time.secondOfDay / 3600 := h.hour (by decide)
  have hminute : t.time.secondOfDay / 60 % 60 = u.time.secondOfDay / 60 % 60 := h.minute le_rfl
  have hunit : t.time.secondOfDay / 60 = u.time.secondOfDay / 60 := by omega
  exact TimeOfDay.ext (congrArg (· * 60) hunit) rfl

theorem AgreesTo.secondOfDay_eq (h : t.AgreesTo u .second) :
    t.time.secondOfDay = u.time.secondOfDay := by
  have hhour : t.time.secondOfDay / 3600 = u.time.secondOfDay / 3600 := h.hour (by decide)
  have hminute : t.time.secondOfDay / 60 % 60 = u.time.secondOfDay / 60 % 60 := h.minute (by decide)
  have hsecond : t.time.secondOfDay % 60 = u.time.secondOfDay % 60 := h.second le_rfl
  omega

theorem AgreesTo.floorTo_second (h : t.AgreesTo u .second) :
    t.time.floorTo 1 = u.time.floorTo 1 :=
  TimeOfDay.ext (congrArg (· / 1 * 1) h.secondOfDay_eq) rfl

theorem AgreesTo.floorMilli_eq (h : t.AgreesTo u .millisecond) :
    t.time.floorMilli = u.time.floorMilli :=
  TimeOfDay.ext (h.mono (by decide)).secondOfDay_eq
    (congrArg (· * nanosPerMilli) (h.millisecond le_rfl))

/-- Instants that agree down to the millisecond are in the same leap seconds. -/
theorem AgreesTo.isRegular (h : t.AgreesTo u .millisecond) (ht : t.IsRegular) : u.IsRegular := by
  intro hleap
  rw [← u.time.floorMilli_isLeap, ← h.floorMilli_eq, t.time.floorMilli_isLeap] at hleap
  exact (h.second (by decide)).symm.trans (ht hleap)

end Instant

namespace Period

variable {p : Period} {o : CalendarOptions} {t u : Instant} {v : Int}

theorem valueAt_eq_of_agreesTo (h : t.AgreesTo u p) : p.valueAt o t = p.valueAt o u := by
  have hdate := h.date
  cases p with
  | hour => exact congrArg Nat.cast (h.hour le_rfl)
  | minute => exact congrArg Nat.cast (h.minute le_rfl)
  | second => exact congrArg Nat.cast (h.second le_rfl)
  | millisecond => exact congrArg Nat.cast (h.millisecond le_rfl)
  | _ => simp only [valueAt, hdate]

/-! ## Moves of the time of day -/

/-- A move from one beginning goes to one end, if that is later than either start. -/
theorem advanceTime_congr {floor? : Option TimeOfDay} {unit distance : Int} (hdate : t.date = u.date)
    (hlt : t < advanceTime t floor? unit distance)
    (hlater : ∀ floor r, floor? = some floor →
      Instant.addMillis? ⟨u.date, floor⟩ (distance * unit).toNat = some r → u < r) :
    advanceTime u floor? unit distance = advanceTime t floor? unit distance ∧
      u < advanceTime t floor? unit distance := by
  obtain ⟨floor, hfloor, hadd⟩ := exists_addMillis?_of_lt hlt
  rw [hdate] at hadd
  refine ⟨?_, hlater floor _ hfloor hadd⟩
  show (floor?.bind fun floor =>
    Instant.addMillis? ⟨u.date, floor⟩ (distance * unit).toNat).getD u = _
  rw [hfloor, Option.bind_some, ← hfloor, hadd, Option.getD_some]

theorem advanceTime_floorTo_congr {unit : Nat} {distance : Int} (hunit : 0 < unit)
    (hdistance : 0 < distance) (hdate : t.date = u.date)
    (hfloor : t.time.floorTo unit = u.time.floorTo unit)
    (hlt : t < advanceTime t (some (t.time.floorTo unit)) (unit * 1000) distance) :
    advanceTime u (some (u.time.floorTo unit)) (unit * 1000) distance =
        advanceTime t (some (t.time.floorTo unit)) (unit * 1000) distance ∧
      u < advanceTime t (some (t.time.floorTo unit)) (unit * 1000) distance := by
  have hwhole : (unit : Int) * 1000 ≤ distance * (unit * 1000) :=
    le_mul_of_one_le_left (by omega) hdistance
  rw [← hfloor]
  refine advanceTime_congr hdate hlt fun floor r hsome hr => ?_
  rw [← Option.some_inj.1 hsome, hfloor] at hr
  exact Instant.lt_of_addMillis?_floorTo hunit (by omega) hr

theorem advanceTime_floorMilli_congr {distance : Int} (hdistance : 0 < distance)
    (hdate : t.date = u.date) (hfloor : t.time.floorMilli = u.time.floorMilli)
    (hlt : t < advanceTime t (some t.time.floorMilli) 1 distance) :
    advanceTime u (some u.time.floorMilli) 1 distance =
        advanceTime t (some t.time.floorMilli) 1 distance ∧
      u < advanceTime t (some t.time.floorMilli) 1 distance := by
  rw [← hfloor]
  refine advanceTime_congr hdate hlt fun floor r hsome hr => ?_
  rw [← Option.some_inj.1 hsome, hfloor] at hr
  exact Instant.lt_of_addMillis?_floorMilli (by omega) hr

/-! ## Every period -/

/-- **A move that leads forward from one of two instants that agree leads forward from the other, to
the same instant.** -/
theorem moveTo_eq_of_agreesTo (h : t.AgreesTo u p) (hlt : t < p.moveTo o v t) :
    p.moveTo o v u = p.moveTo o v t ∧ u < p.moveTo o v t := by
  by_cases hday : hour.priority < p.priority
  · obtain ⟨day, ht, hu⟩ := moveTo_congr_of_date hday o v h.date
    rw [ht] at hlt ⊢
    rw [hu]
    cases day with
    | none => exact absurd hlt (lt_irrefl t)
    | some d =>
        refine ⟨rfl, Instant.lt_startOfDay_iff.2 ?_⟩
        rw [← h.date]
        exact Instant.lt_startOfDay_iff.1 hlt
  · have htime := mem_time_of_priority_le (not_lt.1 hday)
    have hvalue := @valueAt_eq_of_agreesTo p o t u h
    have hpos : ∀ cycle : Int, 0 < cycle → 0 < cyclicDistance (p.valueAt o t) v cycle :=
      fun cycle hcycle => (cyclicDistance_bounds _ _ hcycle).1
    simp only [List.mem_cons, List.not_mem_nil, or_false] at htime
    rcases htime with rfl | rfl | rfl | rfl
    · rw [moveTo_hour] at hlt ⊢
      rw [moveTo_hour, ← hvalue]
      exact @advanceTime_floorTo_congr t u 3600 _ (by decide) (hpos 24 (by decide)) h.date
        h.floorTo_hour hlt
    · rw [moveTo_minute] at hlt ⊢
      rw [moveTo_minute, ← hvalue]
      exact @advanceTime_floorTo_congr t u 60 _ (by decide) (hpos 60 (by decide)) h.date
        h.floorTo_minute hlt
    · rw [moveTo_second] at hlt ⊢
      rw [moveTo_second, ← hvalue]
      exact @advanceTime_floorTo_congr t u 1 _ (by decide) (hpos 60 (by decide)) h.date
        h.floorTo_second hlt
    · have ht := isRegular_of_lt_moveTo o v hlt
      rw [moveTo_millisecond o v ht] at hlt ⊢
      rw [moveTo_millisecond o v (h.isRegular ht), ← hvalue]
      exact advanceTime_floorMilli_congr (hpos 1000 (by decide)) h.date h.floorMilli_eq hlt

end Period

end Recurrence
