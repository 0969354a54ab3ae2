import Recurrence.Period.Move
import Recurrence.Proofs.Calendar.Timeline

/-!
# Floors of the time of day

A move within a day starts from a floor, the time that is formed from the parts of a time of day down
to some unit.  Down to the hour, the minute or the second there is always one, the beginning of the
unit.  Down to the millisecond there is one unless the time is in a leap second that does not end a
minute: **from there no millisecond move leads anywhere**.

Such a leap second is the one irregular thing about a time of day.  `TimeOfDay.IsRegular` excludes it,
and a move that leads anywhere ends at a regular instant.

## Main Definitions

* `TimeOfDay.floorTo`, `TimeOfDay.floorMilli`: the beginning of a unit of seconds, of a millisecond
* `TimeOfDay.IsRegular`, `Instant.IsRegular`: leap seconds end a minute

## Main Statements

* `TimeOfDay.ofParts?_self`: the parts of a regular time make it up again
* `TimeOfDay.ofParts?_hour`, `TimeOfDay.ofParts?_minute`, `TimeOfDay.ofParts?_second`,
  `TimeOfDay.ofParts?_millisecond`: the floors that moves start from
* `Instant.lt_of_addMillis?_floorTo`, `Instant.lt_of_addMillis?_floorMilli`: a unit after a floor comes
  after everything in the unit
* `Period.moveTo_millisecond_eq_self`: the move that stands still
-/

namespace Recurrence

namespace TimeOfDay

/-- The time of day without what is finer than a unit of `unit` seconds. -/
def floorTo (unit : Nat) (t : TimeOfDay) : TimeOfDay :=
  ⟨t.secondOfDay / unit * unit, 0,
    Nat.lt_of_le_of_lt (Nat.div_mul_le_self _ _) t.secondOfDay_lt, midnight.nano_lt⟩

/-- The time of day without what is finer than a millisecond. -/
def floorMilli (t : TimeOfDay) : TimeOfDay :=
  ⟨t.secondOfDay, t.nano / nanosPerMilli * nanosPerMilli, t.secondOfDay_lt,
    Nat.lt_of_le_of_lt (Nat.div_mul_le_self _ _) t.nano_lt⟩

/-- A moment of a leap second is in the last second of a minute. -/
def IsRegular (t : TimeOfDay) : Prop := t.IsLeap → t.second = 59

instance (t : TimeOfDay) : Decidable t.IsRegular :=
  inferInstanceAs (Decidable (t.IsLeap → t.second = 59))

@[simp] theorem second_mk {secondOfDay nano : Nat} (hs : secondOfDay < secondsPerDay)
    (hn : nano < 2 * nanosPerSecond) : (mk secondOfDay nano hs hn).second = secondOfDay % 60 := rfl

variable (t : TimeOfDay)

/-! ## The times formed from parts -/

/-- **The parts of a regular time make it up again.** -/
theorem ofParts?_self (ht : t.IsRegular) : ofParts? t.hour t.minute t.second t.nano = some t := by
  have hparts : 3600 * t.hour + 60 * t.minute + t.second = t.secondOfDay := by
    unfold hour minute second
    omega
  rw [ofParts?, dif_pos ⟨t.hour_lt, t.minute_lt, t.second_lt, t.nano_lt, ht⟩, Option.some_inj]
  exact TimeOfDay.ext hparts rfl

theorem floorTo_isRegular (unit : Nat) : (t.floorTo unit).IsRegular :=
  fun hleap => absurd hleap (show ¬ nanosPerSecond ≤ 0 by decide)

/-- The parts of the beginning of a unit are those of the time down to the unit. -/
theorem ofParts?_eq_floorTo {unit hour minute second : Nat} (hhour : (t.floorTo unit).hour = hour)
    (hminute : (t.floorTo unit).minute = minute) (hsecond : (t.floorTo unit).second = second) :
    ofParts? hour minute second 0 = some (t.floorTo unit) := by
  rw [← hhour, ← hminute, ← hsecond]
  exact (t.floorTo unit).ofParts?_self (t.floorTo_isRegular unit)

theorem ofParts?_hour : ofParts? t.hour 0 0 0 = some (t.floorTo 3600) := by
  apply ofParts?_eq_floorTo <;> simp only [hour, minute, second, floorTo] <;> omega

theorem ofParts?_minute : ofParts? t.hour t.minute 0 0 = some (t.floorTo 60) := by
  apply ofParts?_eq_floorTo <;> simp only [hour, minute, second, floorTo] <;> omega

theorem ofParts?_second : ofParts? t.hour t.minute t.second 0 = some (t.floorTo 1) := by
  apply ofParts?_eq_floorTo <;> simp only [hour, minute, second, floorTo] <;> omega

/-- A moment of a leap second stays one without the part below a millisecond, and no other becomes
one. -/
theorem floorMilli_isLeap : t.floorMilli.IsLeap ↔ t.IsLeap := by
  unfold IsLeap floorMilli nanosPerSecond nanosPerMilli
  simp only
  omega

theorem floorMilli_isRegular : t.floorMilli.IsRegular ↔ t.IsRegular := by
  have hsecond : t.floorMilli.second = t.second := by rw [second, second, floorMilli]
  rw [IsRegular, IsRegular, floorMilli_isLeap, hsecond]

/-- **The whole milliseconds form a time unless they are those of an irregular leap second.** -/
theorem ofParts?_millisecond :
    ofParts? t.hour t.minute t.second (t.millisecond * nanosPerMilli) =
      if t.IsRegular then some t.floorMilli else none := by
  by_cases hregular : t.IsRegular
  · rw [if_pos hregular]
    exact t.floorMilli.ofParts?_self (t.floorMilli_isRegular.2 hregular)
  · have hirregular : ¬ t.floorMilli.IsRegular := mt t.floorMilli_isRegular.1 hregular
    rw [if_neg hregular, ofParts?, dif_neg fun hparts => hirregular hparts.2.2.2.2]

end TimeOfDay

namespace Instant

/-- A moment of a leap second is in the last second of a minute. -/
abbrev IsRegular (t : Instant) : Prop := t.time.IsRegular

variable {t r : Instant}

/-- A leap second put to a second in the middle of a minute. -/
def leapSecondMidMinute : Instant :=
  ⟨(Date.ofCivil? 2024 0 1).get (by decide), ⟨86164, 1333333333, by decide, by decide⟩⟩

theorem IsOrdinary.isRegular (h : t.IsOrdinary) : t.IsRegular := fun hleap => absurd hleap h

theorem isOrdinary_floorTo (d : Date) (unit : Nat) (time : TimeOfDay) :
    (⟨d, time.floorTo unit⟩ : Instant).IsOrdinary := by
  rw [isOrdinary_iff]
  show 0 < nanosPerSecond
  decide

/-! ## A unit after a floor -/

/-- What comes a whole unit after the beginning of the current one comes after everything in it,
moments of a leap second included. -/
theorem lt_of_addMillis?_floorTo {unit millis : Nat} (hunit : 0 < unit)
    (hmillis : unit * 1000 ≤ millis)
    (h : addMillis? ⟨t.date, t.time.floorTo unit⟩ millis = some r) : t < r := by
  have hn := t.time.nano_lt
  have hwithin : t.time.secondOfDay < t.time.secondOfDay / unit * unit + unit :=
    Nat.lt_div_mul_add hunit
  rw [addMillis?_eq (isOrdinary_floorTo t.date unit t.time), ofNanos?_eq_some_iff] at h
  obtain ⟨hr, hnanos⟩ := h
  rw [isOrdinary_iff] at hr
  unfold nanos TimeOfDay.floorTo at hnanos
  simp only at hnanos
  generalize t.time.secondOfDay / unit * unit = begun at hwithin hnanos
  rw [lt_iff_rank_lt]
  unfold rank
  unfold secondsPerDay nanosPerSecond nanosPerMilli at *
  omega

/-- What comes a millisecond after the beginning of the current one comes after everything in it. -/
theorem lt_of_addMillis?_floorMilli {millis : Nat} (hmillis : 0 < millis)
    (h : addMillis? ⟨t.date, t.time.floorMilli⟩ millis = some r) : t < r := by
  have hlater := lt_of_addMillis? hmillis h
  have hwhole : r.time.nano % nanosPerMilli = 0 := by
    rw [nano_mod_of_addMillis? h]
    exact Nat.mul_mod_left _ _
  rw [lt_iff_rank_lt] at hlater ⊢
  unfold rank TimeOfDay.floorMilli at hlater
  unfold rank
  simp only at hlater
  unfold secondsPerDay nanosPerSecond nanosPerMilli at *
  omega

/-- Adding milliseconds to a regular instant leads to a regular one. -/
theorem IsRegular.of_addMillis? {millis : Nat} (ht : t.IsRegular)
    (h : t.addMillis? millis = some r) : r.IsRegular := by
  rw [addMillis?] at h
  split at h
  · next hwithin =>
      cases h
      intro _
      rw [TimeOfDay.second_mk]
      exact ht hwithin.1
  · exact (ofSeconds?_eq_some_iff.1 h).1.isRegular

end Instant

/-! ## Moves from a floor -/

/-- A move of the time of day that leads forward adds milliseconds to a floor. -/
theorem exists_addMillis?_of_lt {t : Instant} {floor? : Option TimeOfDay} {unit distance : Int}
    (h : t < advanceTime t floor? unit distance) :
    ∃ floor, floor? = some floor ∧
      Instant.addMillis? ⟨t.date, floor⟩ (distance * unit).toNat =
        some (advanceTime t floor? unit distance) := by
  unfold advanceTime at h ⊢
  cases hadd : floor?.bind fun floor =>
      Instant.addMillis? ⟨t.date, floor⟩ (distance * unit).toNat with
  | none =>
      rw [hadd] at h
      exact absurd h (lt_irrefl t)
  | some r => exact Option.bind_eq_some_iff.1 hadd

namespace Period

variable (o : CalendarOptions) (v : Int) {t : Instant}

theorem moveTo_hour (t : Instant) :
    hour.moveTo o v t =
      advanceTime t (some (t.time.floorTo 3600)) 3600000
        (cyclicDistance (hour.valueAt o t) v 24) := by
  rw [moveTo, t.time.ofParts?_hour]
  rfl

theorem moveTo_minute (t : Instant) :
    minute.moveTo o v t =
      advanceTime t (some (t.time.floorTo 60)) 60000
        (cyclicDistance (minute.valueAt o t) v 60) := by
  rw [moveTo, t.time.ofParts?_minute]
  rfl

theorem moveTo_second (t : Instant) :
    second.moveTo o v t =
      advanceTime t (some (t.time.floorTo 1)) 1000 (cyclicDistance (second.valueAt o t) v 60) := by
  rw [moveTo, t.time.ofParts?_second]
  rfl

theorem moveTo_millisecond (ht : t.IsRegular) :
    millisecond.moveTo o v t =
      advanceTime t (some t.time.floorMilli) 1
        (cyclicDistance (millisecond.valueAt o t) v 1000) := by
  rw [moveTo, t.time.ofParts?_millisecond, if_pos ht]
  rfl

/-- **From an irregular leap second no millisecond move leads anywhere.** -/
theorem moveTo_millisecond_eq_self (ht : ¬ t.IsRegular) : millisecond.moveTo o v t = t := by
  rw [moveTo, t.time.ofParts?_millisecond, if_neg ht]
  rfl

/-- A millisecond move that leads forward starts from a regular instant. -/
theorem isRegular_of_lt_moveTo (h : t < millisecond.moveTo o v t) : t.IsRegular := by
  by_contra hirregular
  rw [moveTo_millisecond_eq_self o v hirregular] at h
  exact lt_irrefl t h

end Period

end Recurrence
