import Recurrence.Calendar.Date

/-!
# Times of day and instants

An instant is a date and a time of day, local and without a time zone.  A time of day counts
seconds from midnight and nanoseconds within the second.  A **leap second** is written as an
ordinary second that lasts longer: its nanoseconds run on from 1000000000 to 1999999999.  It comes
after the ordinary nanoseconds of its second and before the next one.

Clocks insert leap seconds at the end of a minute, and a time that is formed from its hour, minute,
second and nanoseconds can be in one nowhere else.  A time of day as such may be in a leap second
that prolongs **any second**, since nanoseconds may be put to a time whatever its second is.

`Instant.rank` numbers the instants in their order.  It leaves room for two thousand million
nanoseconds in each second, so that it never gives two instants the same number.

## Main Definitions

* `TimeOfDay`, `Instant`, with their order
* `TimeOfDay.ofParts?`: the time formed from an hour, a minute, a second and nanoseconds
* `Instant.startOfDay`: midnight of a date
* `Instant.addMillis?`: the instant some milliseconds later
* `Instant.rank`: the order as an order of integers
-/

namespace Recurrence

/-- The number of nanoseconds of an ordinary second. -/
def nanosPerSecond : Nat := 1000000000

/-- The number of nanoseconds of a millisecond. -/
def nanosPerMilli : Nat := 1000000

/-- The number of seconds of a day. -/
def secondsPerDay : Nat := 86400

/-- A time of day. -/
structure TimeOfDay where
  /-- The number of seconds since midnight. -/
  secondOfDay : Nat
  /-- The nanoseconds within the second, from 1000000000 up in a leap second. -/
  nano : Nat
  secondOfDay_lt : secondOfDay < secondsPerDay
  nano_lt : nano < 2 * nanosPerSecond
deriving DecidableEq

namespace TimeOfDay

@[ext] theorem ext {a b : TimeOfDay} (hs : a.secondOfDay = b.secondOfDay) (hn : a.nano = b.nano) :
    a = b := by
  cases a
  cases b
  cases hs
  cases hn
  rfl

instance : LT TimeOfDay :=
  ⟨fun a b => a.secondOfDay < b.secondOfDay ∨ a.secondOfDay = b.secondOfDay ∧ a.nano < b.nano⟩

instance (a b : TimeOfDay) : Decidable (a < b) :=
  inferInstanceAs (Decidable (a.secondOfDay < b.secondOfDay ∨
    a.secondOfDay = b.secondOfDay ∧ a.nano < b.nano))

/-- Midnight. -/
def midnight : TimeOfDay :=
  ⟨0, 0, by decide, by decide⟩

/-- The hour, from 0. -/
def hour (t : TimeOfDay) : Nat := t.secondOfDay / 3600

/-- The minute of the hour, from 0. -/
def minute (t : TimeOfDay) : Nat := t.secondOfDay / 60 % 60

/-- The second of the minute, from 0.  A leap second has the number of the second it prolongs. -/
def second (t : TimeOfDay) : Nat := t.secondOfDay % 60

theorem hour_lt (t : TimeOfDay) : t.hour < 24 := Nat.div_lt_of_lt_mul t.secondOfDay_lt

theorem minute_lt (t : TimeOfDay) : t.minute < 60 := Nat.mod_lt _ (by decide)

theorem second_lt (t : TimeOfDay) : t.second < 60 := Nat.mod_lt _ (by decide)

/-- The whole milliseconds within the second, from 1000 up in a leap second. -/
def millisecond (t : TimeOfDay) : Nat := t.nano / nanosPerMilli

/-- Is this a moment of a leap second? -/
def IsLeap (t : TimeOfDay) : Prop := nanosPerSecond ≤ t.nano

instance (t : TimeOfDay) : Decidable t.IsLeap :=
  inferInstanceAs (Decidable (nanosPerSecond ≤ t.nano))

/-- The time of day with an hour, a minute, a second and the nanoseconds within it, if it is
one.  Only the last second of a minute can be a leap second here. -/
def ofParts? (hour minute second nano : Nat) : Option TimeOfDay :=
  if h : hour < 24 ∧ minute < 60 ∧ second < 60 ∧ nano < 2 * nanosPerSecond ∧
      (nanosPerSecond ≤ nano → second = 59) then
    some ⟨3600 * hour + 60 * minute + second, nano, by unfold secondsPerDay; omega, h.2.2.2.1⟩
  else none

end TimeOfDay

/-- A date and a time of day. -/
structure Instant where
  date : Date
  time : TimeOfDay
deriving DecidableEq

namespace Instant

@[ext] theorem ext {a b : Instant} (hd : a.date = b.date) (ht : a.time = b.time) : a = b := by
  cases a
  cases b
  cases hd
  cases ht
  rfl

instance : LT Instant := ⟨fun a b => a.date < b.date ∨ a.date = b.date ∧ a.time < b.time⟩

instance (a b : Instant) : Decidable (a < b) :=
  inferInstanceAs (Decidable (a.date < b.date ∨ a.date = b.date ∧ a.time < b.time))

instance : LE Instant := ⟨fun a b => ¬ b < a⟩

instance (a b : Instant) : Decidable (a ≤ b) := inferInstanceAs (Decidable (¬ b < a))

instance : Min Instant := ⟨fun a b => if b < a then b else a⟩

/-- Is this a moment of a leap second? -/
def IsLeap (t : Instant) : Prop := t.time.IsLeap

instance (t : Instant) : Decidable t.IsLeap := inferInstanceAs (Decidable t.time.IsLeap)

/-- The number of an instant in the order of instants. -/
def rank (t : Instant) : Int :=
  (t.date.number * secondsPerDay + t.time.secondOfDay) * (2 * nanosPerSecond) + t.time.nano

/-- Midnight of a date. -/
def startOfDay (d : Date) : Instant := ⟨d, TimeOfDay.midnight⟩

/-- The time of day that is `total` nanoseconds after the second `second`, counted from the
midnight of `d`. -/
def ofSeconds? (d : Date) (second total : Nat) : Option Instant :=
  let secondOfDay := second + total / nanosPerSecond
  (d.addDays? (secondOfDay / secondsPerDay : Nat)).map fun date =>
    ⟨date, ⟨secondOfDay % secondsPerDay, total % nanosPerSecond,
      Nat.mod_lt _ (by decide), Nat.lt_trans (Nat.mod_lt _ (by decide)) (by decide)⟩⟩

/-- The instant `millis` milliseconds later, if the calendar has it.  From within a leap second,
less than a second leads on within it while it lasts; any more is counted from the same place of
the ordinary second. -/
def addMillis? (t : Instant) (millis : Nat) : Option Instant :=
  let nanos := millis % 1000 * nanosPerMilli
  if h : t.IsLeap ∧ millis / 1000 = 0 ∧ t.time.nano + nanos < 2 * nanosPerSecond then
    some ⟨t.date, ⟨t.time.secondOfDay, t.time.nano + nanos, t.time.secondOfDay_lt, h.2.2⟩⟩
  else
    ofSeconds? t.date (t.time.secondOfDay + millis / 1000)
      ((if t.IsLeap then t.time.nano - nanosPerSecond else t.time.nano) + nanos)

/-- The order of instants is the order of their numbers. -/
theorem lt_iff_rank_lt {a b : Instant} : a < b ↔ a.rank < b.rank := by
  have ha := a.time.secondOfDay_lt
  have hb := b.time.secondOfDay_lt
  have hna := a.time.nano_lt
  have hnb := b.time.nano_lt
  have hlt : a < b ↔ a.date.number < b.date.number ∨ a.date = b.date ∧
      (a.time.secondOfDay < b.time.secondOfDay ∨
        a.time.secondOfDay = b.time.secondOfDay ∧ a.time.nano < b.time.nano) := Iff.rfl
  have heq : a.date = b.date ↔ a.date.number = b.date.number :=
    ⟨fun h => congrArg _ h, Date.ext⟩
  rw [hlt, heq]
  unfold rank
  unfold secondsPerDay nanosPerSecond at *
  omega

/-- Two instants with one number are the same. -/
theorem rank_inj {a b : Instant} : a.rank = b.rank ↔ a = b := by
  refine ⟨fun h => ?_, fun h => h ▸ rfl⟩
  have ha := a.time.secondOfDay_lt
  have hb := b.time.secondOfDay_lt
  have hna := a.time.nano_lt
  have hnb := b.time.nano_lt
  unfold rank at h
  unfold secondsPerDay nanosPerSecond at *
  refine ext (Date.ext ?_) (TimeOfDay.ext ?_ ?_) <;> omega

theorem le_iff_rank_le {a b : Instant} : a ≤ b ↔ a.rank ≤ b.rank := by
  show ¬ b < a ↔ _
  rw [lt_iff_rank_lt]
  omega

end Instant

end Recurrence
