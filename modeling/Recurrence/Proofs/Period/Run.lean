import Mathlib.Tactic.Ring
import Recurrence.Proofs.Calendar.WeekNumber
import Recurrence.Proofs.Period.Counter
import Recurrence.Proofs.Period.Floor

/-!
# Runs of a field

The value of a field stays for a while and then changes.  The stretches on which it stays are the
**runs** of the field; `Period.run` numbers them upwards, so that two instants are in one run exactly
when they have one number.  For a period that counts something the number is the count; for a week
it is made of the year or month and the week, since no week goes on from one year or month into the
next.

## Main Definitions

* `Period.Steady`: a field that keeps its value between two instants
* `Period.run`: the number of the run that an instant is in
* `Period.IsAbsolute`, `Period.IsCyclic`: periods that show a count, or its remainder on a cycle
-/

namespace Recurrence

/-! ## The counters of the calendar -/

namespace Counter

/-- Groups of consecutive years or months, the group `i` beginning with the index `low i`. -/
def ofStretches (scope : WeekScope) (group low : Int → Int) (hlow : ∀ i, low i < low (i + 1))
    (hgroup : ∀ n i, group n = i ↔ low i ≤ n ∧ n < low (i + 1)) : Counter :=
  ofDays (fun d => group (scope.indexOf d)) (fun i => scope.firstDay (low i))
    (fun i => scope.firstDay_lt.2 (hlow i))
    (fun d i => by rw [hgroup, scope.firstDay_le_number_iff, scope.indexOf_lt_iff])

def centuries : Counter :=
  ofStretches .year centuryOf centuryStart
    (fun i => by unfold centuryStart; omega)
    (fun n i => by unfold centuryOf centuryStart; omega)

def decades : Counter :=
  ofStretches .year decadeOf decadeStart
    (fun i => by unfold decadeStart; omega)
    (fun n i => by unfold decadeOf decadeStart; omega)

def years : Counter := ofStretches .year id id (fun i => by simp) (fun n i => by simp; omega)

def quarters : Counter :=
  ofStretches .month (· / 3) (3 * ·) (fun i => by omega) (fun n i => by omega)

def months : Counter := ofStretches .month id id (fun i => by simp) (fun n i => by simp; omega)

/-- Days, counted from the Sunday on or before day 0. -/
def days : Counter :=
  ofDays (fun d => d.number + 6) (· - 6) (fun i => by omega) (fun d i => by omega)

/-- Stretches of `unit` seconds. -/
def ofSeconds (unit : Nat) (hunit : 0 < unit) : Counter :=
  ofNanos (unit * 1000000000) (by omega)

def hours : Counter := ofSeconds 3600 (by decide)

def minutes : Counter := ofSeconds 60 (by decide)

def seconds : Counter := ofSeconds 1 (by decide)

def milliseconds : Counter := ofNanos 1000000 (by decide)

end Counter

namespace Period

/-! ## Runs -/

/-- The field keeps from `t` to `m` the value that it has at `t`. -/
def Steady (p : Period) (o : CalendarOptions) (t m : Instant) : Prop :=
  ∀ x : Instant, x.IsOrdinary → t ≤ x → x ≤ m → p.valueAt o x = p.valueAt o t

/-- The run of a week field that a date is in.  No year has 60 weeks. -/
def weekRun (scope : WeekScope) (numbering : WeekNumbering) (o : CalendarOptions) (d : Date) : Int :=
  60 * scope.indexOf d + scope.weekOf d numbering o

/-- The number of the run of a field that an instant is in. -/
def run (p : Period) (o : CalendarOptions) (t : Instant) : Int :=
  match p with
  | .century => Counter.centuries.count t
  | .decade => Counter.decades.count t
  | .year => Counter.years.count t
  | .quarter => Counter.quarters.count t
  | .month => Counter.months.count t
  | .week scope numbering => weekRun scope numbering o t.date
  | .dayOfYear | .dayOfWeek | .dayOfMonth | .dayOfMonthFromEnd => Counter.days.count t
  | .hour => Counter.hours.count t
  | .minute => Counter.minutes.count t
  | .second => Counter.seconds.count t
  | .millisecond => Counter.milliseconds.count t

/-- Two dates are in one run of a week when they share the stretch and the week of it. -/
theorem weekRun_eq_iff {scope : WeekScope} {numbering : WeekNumbering} {o : CalendarOptions}
    {d e : Date} :
    weekRun scope numbering o d = weekRun scope numbering o e ↔
      scope.indexOf d = scope.indexOf e ∧
        scope.weekOf d numbering o = scope.weekOf e numbering o := by
  have hd := scope.weekOf_bounds numbering o d
  have he := scope.weekOf_bounds numbering o e
  unfold weekRun
  omega

/-! ## Periods that count -/

/-- The field shows the count `c`, and moves to the start of the number it is given. -/
structure IsAbsolute (p : Period) (c : Counter) : Prop where
  run_eq : ∀ o t, p.run o t = c.count t
  valueAt_eq : ∀ o t, p.valueAt o t = c.count t
  moveTo_eq : ∀ o v t, p.moveTo o v t = (c.start? v).getD t

/-- The field shows the remainder of the count `c` on a cycle, and moves by the distance on it. -/
structure IsCyclic (p : Period) (c : Counter) (cycle : Int) : Prop where
  two_le : 2 ≤ cycle
  run_eq : ∀ o t, p.run o t = c.count t
  valueAt_eq : ∀ o t, t.IsOrdinary → p.valueAt o t = c.count t % cycle
  moveTo_eq : ∀ o v t, t.IsOrdinary →
    p.moveTo o v t = (c.start? (c.count t + cyclicDistance (p.valueAt o t) v cycle)).getD t

theorem isAbsolute_century : IsAbsolute .century .centuries where
  run_eq _ _ := rfl
  valueAt_eq _ _ := rfl
  moveTo_eq _ v t := by
    rw [moveTo, Date.startOfYear?, Date.ofYearDay?_one]
    rfl

theorem isAbsolute_decade : IsAbsolute .decade .decades where
  run_eq _ _ := rfl
  valueAt_eq _ _ := rfl
  moveTo_eq _ v t := by
    rw [moveTo, Date.startOfYear?, Date.ofYearDay?_one]
    rfl

theorem isAbsolute_year : IsAbsolute .year .years where
  run_eq _ _ := rfl
  valueAt_eq _ _ := rfl
  moveTo_eq _ v t := by
    rw [moveTo, Date.startOfYear?, Date.ofYearDay?_one]
    rfl

theorem isCyclic_quarter : IsCyclic .quarter .quarters 4 where
  two_le := by decide
  run_eq _ _ := rfl
  valueAt_eq _ t _ := by
    have := t.date.month_lt
    show ((t.date.month / 3 : Nat) : Int) = t.date.monthIndex / 3 % 4
    unfold Date.monthIndex
    omega
  moveTo_eq o v t _ := by
    have := t.date.month_lt
    have hindex : 12 * t.date.year + 3 * ((t.date.month / 3 : Nat) : Int) +
        3 * cyclicDistance (t.date.month / 3 : Nat) v 4 =
        3 * (t.date.monthIndex / 3 + cyclicDistance (t.date.month / 3 : Nat) v 4) := by
      unfold Date.monthIndex
      omega
    rw [moveTo, hindex, Date.ofMonthIndex?_one]
    rfl

theorem isCyclic_month : IsCyclic .month .months 12 where
  two_le := by decide
  run_eq _ _ := rfl
  valueAt_eq _ t _ := by
    have := t.date.month_lt
    show (t.date.month : Int) = t.date.monthIndex % 12
    unfold Date.monthIndex
    omega
  moveTo_eq o v t _ := by
    rw [moveTo, Date.ofMonthIndex?_one]
    rfl

theorem isCyclic_dayOfWeek : IsCyclic .dayOfWeek .days 7 where
  two_le := by decide
  run_eq _ _ := rfl
  valueAt_eq _ _ _ := rfl
  moveTo_eq o v t _ := by
    have hnumber : t.date.number + cyclicDistance t.date.weekday v daysPerWeek =
        t.date.number + 6 + cyclicDistance t.date.weekday v 7 - 6 := by
      unfold daysPerWeek
      omega
    rw [moveTo, Date.addDays?, hnumber]
    rfl

/-! ## The time of day -/

/-- A period that is not longer than an hour is a part of the time of day. -/
theorem mem_time_of_priority_le {p : Period} (h : p.priority ≤ hour.priority) :
    p ∈ [hour, minute, second, millisecond] := by
  have hall : ∀ q ∈ all, q.priority ≤ hour.priority → q ∈ [hour, minute, second, millisecond] := by
    decide
  exact hall p (mem_all p) h

/-- The whole units of seconds up to an ordinary instant: those of the days before, and those of the
day. -/
theorem nanos_div_unit {t : Instant} (ht : t.IsOrdinary) {unit : Nat} {k : Int} (hpos : 0 < unit)
    (hday : (secondsPerDay : Int) = unit * k) :
    t.nanos / (unit * 1000000000) =
      k * t.date.number + ((t.time.secondOfDay / unit : Nat) : Int) := by
  have hn := Instant.isOrdinary_iff.1 ht
  have hseconds : t.nanos / 1000000000 = unit * (k * t.date.number) + t.time.secondOfDay := by
    rw [← Int.mul_assoc, ← hday]
    unfold Instant.nanos
    unfold secondsPerDay nanosPerSecond at *
    omega
  rw [Int.mul_comm, ← Int.ediv_ediv_of_nonneg (by decide), hseconds, Int.add_comm,
    Int.add_mul_ediv_left _ _ (by omega)]
  push_cast
  omega

/-- The time of day without what is finer than a unit, as a number of nanoseconds. -/
theorem nanos_floorTo {t : Instant} (ht : t.IsOrdinary) {unit : Nat} {k : Int} (hpos : 0 < unit)
    (hday : (secondsPerDay : Int) = unit * k) :
    Instant.nanos ⟨t.date, t.time.floorTo unit⟩ =
      t.nanos / (unit * 1000000000) * (unit * 1000000000) := by
  rw [nanos_div_unit ht hpos hday]
  unfold Instant.nanos TimeOfDay.floorTo nanosPerSecond
  simp only
  rw [hday]
  push_cast
  ring

/-- A move forward by whole units from the start of a unit. -/
theorem advanceTime_eq {t : Instant} {floor : TimeOfDay} {unit distance count : Int}
    (hfloor : (⟨t.date, floor⟩ : Instant).IsOrdinary)
    (hnanos : Instant.nanos ⟨t.date, floor⟩ = count * (unit * 1000000))
    (hunit : 0 < unit) (hdistance : 0 < distance) :
    advanceTime t (some floor) unit distance =
      (Instant.ofNanos? ((count + distance) * (unit * 1000000))).getD t := by
  have hmillis : 0 ≤ distance * unit := Int.mul_nonneg (by omega) (by omega)
  have hsum : count * (unit * 1000000) + ((distance * unit).toNat : Int) * (nanosPerMilli : Int) =
      (count + distance) * (unit * 1000000) := by
    rw [Int.toNat_of_nonneg hmillis]
    unfold nanosPerMilli
    push_cast
    ring
  rw [advanceTime, Option.bind_some, Instant.addMillis?_eq hfloor, hnanos, hsum]

/-- A period that shows the whole units of seconds of a day on a cycle, a day being a number of
cycles. -/
theorem isCyclic_of_seconds {p : Period} {unit : Nat} {cycle n : Int} (hunit : 0 < unit)
    (hcycle : 2 ≤ cycle) (hday : (secondsPerDay : Int) = unit * (cycle * n))
    (hrun : ∀ o t, p.run o t = (Counter.ofSeconds unit hunit).count t)
    (hvalue : ∀ o t, p.valueAt o t = ((t.time.secondOfDay / unit : Nat) : Int) % cycle)
    (hmove : ∀ o v t, p.moveTo o v t = advanceTime t (some (t.time.floorTo unit)) (unit * 1000)
      (cyclicDistance (p.valueAt o t) v cycle)) :
    IsCyclic p (Counter.ofSeconds unit hunit) cycle where
  two_le := hcycle
  run_eq := hrun
  valueAt_eq o t ht := by
    have hcount : (Counter.ofSeconds unit hunit).count t = t.nanos / (unit * 1000000000) := rfl
    rw [hvalue, hcount, nanos_div_unit ht hunit hday, Int.mul_assoc, Int.mul_add_emod_self_left]
  moveTo_eq o v t ht := by
    have hpos : 0 < cyclicDistance (p.valueAt o t) v cycle :=
      (cyclicDistance_bounds _ _ (by omega)).1
    have hscale : (unit : Int) * 1000 * 1000000 = unit * 1000000000 := by ring
    have hfloor : Instant.nanos ⟨t.date, t.time.floorTo unit⟩ =
        t.nanos / (unit * 1000000000) * (unit * 1000 * 1000000) := by
      rw [hscale]
      exact nanos_floorTo ht hunit hday
    rw [hmove, advanceTime_eq (Instant.isOrdinary_floorTo _ _ _) hfloor (by omega) hpos, hscale]
    rfl

theorem isCyclic_hour : IsCyclic .hour .hours 24 :=
  @isCyclic_of_seconds _ 3600 24 1 (by decide) (by decide) (by decide) (fun _ _ => rfl)
    (fun _ t => by
      have hs := t.time.secondOfDay_lt
      unfold secondsPerDay at hs
      show ((t.time.secondOfDay / 3600 : Nat) : Int) = _
      omega)
    moveTo_hour

theorem isCyclic_minute : IsCyclic .minute .minutes 60 :=
  @isCyclic_of_seconds _ 60 60 24 (by decide) (by decide) (by decide) (fun _ _ => rfl)
    (fun _ _ => rfl) moveTo_minute

theorem isCyclic_second : IsCyclic .second .seconds 60 :=
  @isCyclic_of_seconds _ 1 60 1440 (by decide) (by decide) (by decide) (fun _ _ => rfl)
    (fun _ t => by
      show ((t.time.secondOfDay % 60 : Nat) : Int) = _
      omega)
    moveTo_second

theorem isCyclic_millisecond : IsCyclic .millisecond .milliseconds 1000 where
  two_le := by decide
  run_eq _ _ := rfl
  valueAt_eq _ t ht := by
    have hn := Instant.isOrdinary_iff.1 ht
    show ((t.time.nano / nanosPerMilli : Nat) : Int) = t.nanos / 1000000 % 1000
    unfold Instant.nanos
    unfold secondsPerDay nanosPerSecond nanosPerMilli at *
    omega
  moveTo_eq o v t ht := by
    have hn := Instant.isOrdinary_iff.1 ht
    have hfloor : (⟨t.date, t.time.floorMilli⟩ : Instant).IsOrdinary := by
      rw [Instant.isOrdinary_iff]
      exact Nat.lt_of_le_of_lt (Nat.div_mul_le_self _ _) hn
    rw [moveTo_millisecond o v ht.isRegular]
    refine advanceTime_eq hfloor ?_ (by decide) (cyclicDistance_bounds _ _ (by decide)).1
    show (t.date.number * secondsPerDay + t.time.secondOfDay) * nanosPerSecond +
      ((t.time.nano / nanosPerMilli * nanosPerMilli : Nat) : Int) =
      t.nanos / 1000000 * (1 * 1000000)
    unfold Instant.nanos
    unfold secondsPerDay nanosPerSecond nanosPerMilli at *
    omega

end Period

end Recurrence
