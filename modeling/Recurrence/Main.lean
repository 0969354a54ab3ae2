import Recurrence.CommandLine.Run
import Std.Time

/-!
# The program

Evaluates calendar recurrence rules from the command line.  What there is to read is read here: the
files and environment variables that settings may come from, and the clock.
-/

namespace Recurrence

/-- The environment variables that are looked at. -/
def variableNames : List String :=
  ["CADENCE_CALENDAR__WEEK_STARTS_ON", "CADENCE_CALENDAR__FIRST_WEEK_CONTAINS_DATE",
    "CADENCE_SEARCH__MAX_TRIES", "CADENCE_SEARCH__COUNT", "CADENCE_LOGGING__LEVEL", filterVariable]

/-- The environment variables that are set. -/
def readVariables : IO (List (String × String)) :=
  variableNames.filterMapM fun name => do
    return (← IO.getEnv name).map fun value => (name, value)

/-- The texts of the files that can be read. -/
def readFiles (paths : List String) : IO (List (String × String)) :=
  paths.filterMapM fun path : String => do
    try
      let text ← IO.FS.readFile path
      return some (path, text)
    catch _ =>
      return none

/-- The local time. -/
def currentInstant : IO Instant := do
  let now ← Std.Time.PlainDateTime.now
  let date := Date.ofCivil? now.date.year.toInt (now.date.month.toNat - 1) now.date.day.toNat
  let time := TimeOfDay.ofParts? now.time.hour.toNat now.time.minute.toNat
    now.time.second.toInt.toNat now.time.nanosecond.toNat
  match date, time with
  | some date, some time => return ⟨date, time⟩
  | _, _ => throw (IO.userError "the clock shows no date of the calendar")

end Recurrence

open Recurrence in
/-- Runs the program: results go to standard output, the log and errors to standard error. -/
def main (arguments : List String) : IO UInt32 := do
  let config := match Invocation.ofArguments arguments with
    | .ok invocation => invocation.config.toList
    | .error _ => []
  let paths := [".env", Settings.fileName] ++ config
  let files ← readFiles (paths ++ paths.map fun path => path ++ String.ofList Settings.extension)
  let report := runProgram arguments ⟨files, ← readVariables⟩ (← currentInstant)
  for line in report.log do
    IO.eprintln line
  match report.complaint with
  | .nothing => pure ()
  | .usage _ => IO.eprint helpText
  | .failure message => IO.eprintln (failureLine message)
  IO.print report.output
  return report.exit.toUInt32
