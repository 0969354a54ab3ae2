/-!
# Calendar options

Two conventions decide how weeks are numbered: the weekday a week starts on, and the day of a year
or a month that the first week has to contain when weeks are numbered by majority.

## Main Definitions

* `CalendarOptions`: options within their ranges
* `CalendarOptions.ofParts?`: options from two numbers, or what is wrong with them
* `OptionsError`, `OptionsError.message`
-/

namespace Recurrence

/-- The conventions week numbers depend on. -/
structure CalendarOptions where
  /-- The weekday a week starts on, Sunday being 0. -/
  weekStart : Nat
  /-- The day of a year or a month that lies in its week 1 when weeks are numbered by majority. -/
  firstWeekDate : Nat
  weekStart_le : weekStart ≤ 6
  firstWeekDate_pos : 1 ≤ firstWeekDate
  firstWeekDate_le : firstWeekDate ≤ 7
deriving DecidableEq

/-- What makes two numbers no options. -/
inductive OptionsError where
  /-- There is no weekday with this number. -/
  | weekStart (given : Nat)
  /-- The first seven days do not include the one with this number. -/
  | firstWeekDate (given : Nat)
deriving DecidableEq, Repr

/-- The error as it is reported, without saying that it is about options. -/
def OptionsError.detail : OptionsError → String
  | .weekStart n => s!"week_starts_on must be between 0 and 6, got {n}"
  | .firstWeekDate n => s!"first_week_contains_date must be between 1 and 7, got {n}"

/-- The error as it is reported. -/
def OptionsError.message (e : OptionsError) : String := "Invalid calendar options: " ++ e.detail

namespace CalendarOptions

/-- Weeks start on Sunday, and the fourth day lies in week 1. -/
def standard : CalendarOptions := ⟨0, 4, by decide, by decide, by decide⟩

instance : Inhabited CalendarOptions := ⟨standard⟩

/-- The options with these two numbers.  The first number that is out of its range is reported. -/
def ofParts? (weekStart firstWeekDate : Nat) : Except OptionsError CalendarOptions :=
  if hs : weekStart ≤ 6 then
    if hd : 1 ≤ firstWeekDate ∧ firstWeekDate ≤ 7 then
      .ok ⟨weekStart, firstWeekDate, hs, hd.1, hd.2⟩
    else .error (.firstWeekDate firstWeekDate)
  else .error (.weekStart weekStart)

end CalendarOptions

end Recurrence
