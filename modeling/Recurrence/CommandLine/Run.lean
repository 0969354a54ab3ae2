import Recurrence.CommandLine.Command
import Recurrence.Log.Record

/-!
# Running a command

A command is run with the settings, and gives an exit status and an output, or the error that its
rules or the calendar options have.  A run of the program does all there is to do: it reads the
arguments, loads the settings, sets up the log and runs the command.

## Main Definitions

* `CommandError`, `buildSchedule`
* `Command.run`, `Command.events`: what a command gives, and what it tells in the log
* `Report`, `runProgram`: a run of the program
-/

namespace Recurrence

/-- Why a command fails. -/
inductive CommandError where
  | options (cause : OptionsError)
  | rule (cause : FieldError)
deriving DecidableEq, Repr

/-- The error with all its causes, as it is reported.  The message of a field holds that of its
cause, which follows once more. -/
def CommandError.message : CommandError → String
  | .options cause => "Invalid calendar settings: " ++ cause.message
  | .rule cause => "Invalid rule: " ++ cause.message ++ ": " ++ cause.cause.message

/-- The schedule of some rules under the settings. -/
def buildSchedule (rules : ScheduleInput) (settings : Settings) : Except CommandError Schedule := do
  let options ← settings.options?.mapError .options
  (Schedule.compile rules options).mapError .rule

/-- What building a schedule tells. -/
def buildEvents (rules : ScheduleInput) (settings : Settings) : List LogEvent :=
  match settings.options? with
  | .ok options => Schedule.compileEvents rules options
  | .error _ => []

/-- The exit status and the output of a command. -/
structure CommandResult where
  exit : Nat
  output : String
deriving DecidableEq, Repr

namespace Command

/-- The rules of a command. -/
def rules : Command → ScheduleInput
  | .next rules .. => rules
  | .check rules _ => rules

/-- A text as a line of output.  There is no line for the empty text. -/
def outputLine (text : String) : String := if text.isEmpty then "" else text ++ "\n"

/-- What a command prints for its schedule.  `now` is the current time. -/
def resultOn (command : Command) (s : Schedule) (settings : Settings) (now : Instant) :
    CommandResult :=
  match command with
  | .next _ start count budget json =>
    let found := (s.occurrences (start.getD now) (budget.getD settings.maxTries)).take
      (count.getD settings.count)
    ⟨0, outputLine (if json then renderArray found else renderLines found)⟩
  | .check _ t =>
    if s.occurs t then ⟨0, outputLine "true"⟩ else ⟨1, outputLine "false"⟩

/-- What a command tells about its schedule. -/
def eventsOn (command : Command) (s : Schedule) (settings : Settings) (now : Instant) :
    List LogEvent :=
  match command with
  | .next _ start count budget _ =>
    let stream := s.occurrences (start.getD now) (budget.getD settings.maxTries)
    let count := count.getD settings.count
    let found := (stream.take count).length
    stream.takeEvents count ++ if found < count then [.searchEnded count found] else []
  | .check _ t => [.instantChecked t (s.includes t) (s.excludes t) (s.occurs t)]

/-- Runs a command with the settings at the current time. -/
def run (command : Command) (settings : Settings) (now : Instant) :
    Except CommandError CommandResult :=
  (buildSchedule command.rules settings).map fun s => command.resultOn s settings now

/-- What running a command tells. -/
def events (command : Command) (settings : Settings) (now : Instant) : List LogEvent :=
  buildEvents command.rules settings ++
    match buildSchedule command.rules settings with
    | .ok s => command.eventsOn s settings now
    | .error _ => []

end Command

/-- What a run of the program writes to standard error besides its log. -/
inductive Complaint where
  | nothing
  /-- The arguments were rejected. -/
  | usage (cause : UsageError)
  /-- The run failed. -/
  | failure (message : String)
deriving DecidableEq, Repr

/-- A run of the program. -/
structure Report where
  exit : Nat
  output : String
  log : List String
  complaint : Complaint

/-- The line that reports a failure. -/
def failureLine (message : String) : String := "Error: " ++ message

/-- The exit status of a failure of any kind. -/
def failureExit : Nat := 2

/-- The line that names the program and its version. -/
def versionLine : String := "cadence 0.1.0"

/-- How the program is called. -/
def helpText : String :=
  "Usage: cadence [-v] [-c CONFIG] next --on RULE [--not RULE] [--from INSTANT] [-n COUNT] " ++
    "[--max-tries N] [--json]\n" ++
    "       cadence [-v] [-c CONFIG] matches --on RULE [--not RULE] --at INSTANT\n"

/-- The report on arguments that are not followed. -/
def usageReport : UsageError → Report
  | .help => ⟨0, helpText, [], .nothing⟩
  | .version => ⟨0, versionLine ++ "\n", [], .nothing⟩
  | e => ⟨failureExit, "", [], .usage e⟩

/-- The variable that a filter for the log is written in. -/
def filterVariable : String := "RUST_LOG"

/-- A run of the program with its arguments, in a workspace, at the current time. -/
def runProgram (arguments : List String) (w : Workspace) (now : Instant) : Report :=
  match Invocation.ofArguments arguments with
  | .error e => usageReport e
  | .ok invocation =>
    match Settings.load w invocation.config with
    | .error e => ⟨failureExit, "", [], .failure e.message⟩
    | .ok (settings, w) =>
      let filter := chooseFilter invocation.verbosity (w.environment.lookup filterVariable)
        settings.level
      let log := filter.records
        (.configurationLoaded settings :: invocation.command.events settings now)
      match invocation.command.run settings now with
      | .ok result => ⟨result.exit, result.output, log, .nothing⟩
      | .error e => ⟨failureExit, "", log, .failure e.message⟩

end Recurrence
