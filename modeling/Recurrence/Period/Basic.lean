import Recurrence.Calendar.Week
import Recurrence.Text.Blank
import Recurrence.Text.Split

/-!
# Periods

A period is a granularity of the calendar that a rule can speak about: the century, the month, the
week of the year, the hour.  There are nineteen.  Each has a **priority**, roughly its length in
milliseconds, by which the periods are ordered from the coarsest to the finest.  They are declared in this
order too, but the **place** of a period in the declaration is another number.  All but the century, the
decade and the year come round in cycles and take their values from a **domain**; those three only grow.

## Main Definitions

* `Period`, `Period.all`
* `Period.name`, `Period.ofName?`: the name in camel case, and the period with a name in camel or
  snake case
* `Period.place`, `Period.priority`, `Period.domain?`, `Period.domainValues?`

## Main Statements

* `Period.place_lt_iff`: the places and the priorities give one order
-/

namespace Recurrence

/-- A granularity of the calendar. -/
inductive Period where
  | century
  | decade
  | year
  | quarter
  | month
  | week (scope : WeekScope) (numbering : WeekNumbering)
  | dayOfYear
  | dayOfWeek
  | dayOfMonth
  | dayOfMonthFromEnd
  | hour
  | minute
  | second
  | millisecond
deriving DecidableEq, Repr

namespace Period

/-- Every period, the coarsest first. -/
def all : List Period :=
  [.century, .decade, .year, .quarter, .month,
    .week .year .majority, .week .year .full, .week .year .fromFirst,
    .week .month .majority, .week .month .full, .week .month .fromFirst,
    .dayOfYear, .dayOfWeek, .dayOfMonth, .dayOfMonthFromEnd,
    .hour, .minute, .second, .millisecond]

theorem mem_all (p : Period) : p ∈ all := by
  cases p with
  | week scope numbering => cases scope <;> cases numbering <;> decide
  | _ => decide

/-- The name of a period in camel case. -/
def name : Period → String
  | century => "century"
  | decade => "decade"
  | year => "year"
  | quarter => "quarter"
  | month => "month"
  | week .year .majority => "weekOfYear"
  | week .year .full => "weekOfYearFull"
  | week .year .fromFirst => "weekOfYearFromFirst"
  | week .month .majority => "weekOfMonth"
  | week .month .full => "weekOfMonthFull"
  | week .month .fromFirst => "weekOfMonthFromFirst"
  | dayOfYear => "dayOfYear"
  | dayOfWeek => "dayOfWeek"
  | dayOfMonth => "dayOfMonth"
  | dayOfMonthFromEnd => "dayOfMonthFromEnd"
  | hour => "hour"
  | minute => "minute"
  | second => "second"
  | millisecond => "millisecond"

/-- The characters that may stand anywhere in a name without being a part of it. -/
def isJoiner (c : Char) : Bool := c == '_' || c == '-'

/-- The period with a name.  Blanks around the name, joiners in it and the case of its letters do
not count. -/
def ofName? (text : List Char) : Option Period :=
  let wanted := (Text.trim text).filter fun c => !isJoiner c
  all.find? fun p => Text.sameLetters p.name.toList wanted

/-- The place of a period in the order in which the periods are declared. -/
def place : Period → Nat
  | century => 0
  | decade => 1
  | year => 2
  | quarter => 3
  | month => 4
  | week .year .majority => 5
  | week .year .full => 6
  | week .year .fromFirst => 7
  | week .month .majority => 8
  | week .month .full => 9
  | week .month .fromFirst => 10
  | dayOfYear => 11
  | dayOfWeek => 12
  | dayOfMonth => 13
  | dayOfMonthFromEnd => 14
  | hour => 15
  | minute => 16
  | second => 17
  | millisecond => 18

/-- The approximate length of a period in milliseconds.  Periods of about one length differ in the
last places, in the order in which a search corrects them. -/
def priority : Period → Nat
  | century => 3155760000000
  | decade => 315576000000
  | year => 31556952000
  | quarter => 7889238000
  | month => 2629746000
  | week .year .majority => 604800005
  | week .year .full => 604800004
  | week .year .fromFirst => 604800003
  | week .month .majority => 604800002
  | week .month .full => 604800001
  | week .month .fromFirst => 604800000
  | dayOfYear => 86400003
  | dayOfWeek => 86400002
  | dayOfMonth => 86400001
  | dayOfMonthFromEnd => 86400000
  | hour => 3600000
  | minute => 60000
  | second => 1000
  | millisecond => 1

/-- The least and the greatest value of a period that comes round in cycles. -/
def domain? : Period → Option (Int × Int)
  | century | decade | year => none
  | quarter => some (0, 3)
  | month => some (0, 11)
  | week .year .fromFirst => some (1, 53)
  | week .year _ => some (0, 53)
  | week .month .fromFirst => some (1, 5)
  | week .month _ => some (0, 6)
  | dayOfYear => some (1, 366)
  | dayOfWeek => some (0, 6)
  | dayOfMonth | dayOfMonthFromEnd => some (1, 31)
  | hour => some (0, 23)
  | minute | second => some (0, 59)
  | millisecond => some (0, 999)

/-- The integers from `low` to `high`. -/
def valuesBetween (low high : Int) : List Int :=
  (List.range (high + 1 - low).toNat).map fun i : Nat => low + (i : Int)

theorem mem_valuesBetween {low high n : Int} : n ∈ valuesBetween low high ↔ low ≤ n ∧ n ≤ high := by
  simp only [valuesBetween, List.mem_map, List.mem_range]
  constructor
  · rintro ⟨i, hi, rfl⟩
    omega
  · intro h
    exact ⟨(n - low).toNat, by omega, by omega⟩

/-- The values of a period that comes round in cycles, in increasing order. -/
def domainValues? (p : Period) : Option (List Int) :=
  p.domain?.map fun d => valuesBetween d.1 d.2

/-- The periods are listed in the strictly decreasing order of their priorities. -/
theorem pairwise_priority_all : all.Pairwise fun p q => q.priority < p.priority := by
  decide

/-- A priority belongs to one period. -/
theorem priority_inj {p q : Period} (h : p.priority = q.priority) : p = q := by
  have hall : ∀ p ∈ all, ∀ q ∈ all, p.priority = q.priority → p = q := by decide
  exact hall p (mem_all p) q (mem_all q) h

/-- **A period is declared before those of a lower priority.** -/
theorem place_lt_iff {p q : Period} : p.place < q.place ↔ q.priority < p.priority := by
  have hall : ∀ p ∈ all, ∀ q ∈ all, p.place < q.place ↔ q.priority < p.priority := by decide
  exact hall p (mem_all p) q (mem_all q)

/-- A place belongs to one period. -/
theorem place_inj {p q : Period} (h : p.place = q.place) : p = q := by
  refine priority_inj (Nat.le_antisymm (Nat.not_lt.1 fun hlt => ?_) (Nat.not_lt.1 fun hlt => ?_))
  · exact Nat.lt_irrefl _ (h ▸ place_lt_iff.2 hlt)
  · exact Nat.lt_irrefl _ (h ▸ place_lt_iff.2 hlt)

end Period

end Recurrence
