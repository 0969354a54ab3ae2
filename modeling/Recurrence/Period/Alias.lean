import Recurrence.Period.Basic

/-!
# Aliases

An alias is a name for a value.  Weekdays and months have them, so that `MON-FRI` can stand for
`1-5`.  The case of ASCII letters does not count, and of two equal names the first one holds.

## Main Definitions

* `Aliases`: a table of names
* `Aliases.value?`: the value of a name
* `Period.aliases`: the names every rule may use for the values of a period
-/

namespace Recurrence

/-- Names and the values they stand for. -/
abbrev Aliases := List (String × Int)

/-- The value of the first alias with this name. -/
def Aliases.value? (table : Aliases) (name : List Char) : Option Int :=
  (table.find? fun entry => Text.sameLetters entry.1.toList name).map Prod.snd

/-- The names of the days of the week, Sunday being 0. -/
def weekdayAliases : Aliases :=
  [("SUN", 0), ("SUNDAY", 0),
    ("MON", 1), ("MONDAY", 1),
    ("TUE", 2), ("TUES", 2), ("TUESDAY", 2),
    ("WED", 3), ("WEDNESDAY", 3),
    ("THU", 4), ("THUR", 4), ("THURS", 4), ("THURSDAY", 4),
    ("FRI", 5), ("FRIDAY", 5),
    ("SAT", 6), ("SATURDAY", 6)]

/-- The names of the months, January being 0. -/
def monthAliases : Aliases :=
  [("JAN", 0), ("JANUARY", 0),
    ("FEB", 1), ("FEBRUARY", 1),
    ("MAR", 2), ("MARCH", 2),
    ("APR", 3), ("APRIL", 3),
    ("MAY", 4),
    ("JUN", 5), ("JUNE", 5),
    ("JUL", 6), ("JULY", 6),
    ("AUG", 7), ("AUGUST", 7),
    ("SEP", 8), ("SEPT", 8), ("SEPTEMBER", 8),
    ("OCT", 9), ("OCTOBER", 9),
    ("NOV", 10), ("NOVEMBER", 10),
    ("DEC", 11), ("DECEMBER", 11)]

/-- The names that may be used for the values of a period. -/
def Period.aliases : Period → Aliases
  | .dayOfWeek => weekdayAliases
  | .month => monthAliases
  | _ => []

end Recurrence
