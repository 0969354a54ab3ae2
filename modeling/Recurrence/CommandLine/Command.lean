import Recurrence.Calendar.Layout
import Recurrence.CommandLine.Arguments
import Recurrence.Schedule.Basic
import Recurrence.Text.Number

/-!
# Commands

The program has two commands.  `next` prints the next occurrences of a schedule, `matches` tells
whether an instant occurs on one.  Both take the rules of the schedule; options for verbosity and
for the settings file may stand before the command or after it, where they win.

## Main Definitions

* `Command`: a command with its arguments
* `Invocation`, `Invocation.ofArguments`: what the arguments of the program ask for
-/

namespace Recurrence

/-- A command with its arguments. -/
inductive Command where
  /-- The next occurrences after an instant, at first the current one.  The count and the budget are
  those of the settings unless they are given. -/
  | next (rules : ScheduleInput) (start : Option Instant) (count budget : Option Nat) (json : Bool)
  /-- Does an instant occur? -/
  | check (rules : ScheduleInput) (t : Instant)

/-- What the arguments of the program ask for. -/
structure Invocation where
  /-- The number of flags that ask for verbosity. -/
  verbosity : Nat
  /-- The path of the settings file. -/
  config : Option String
  command : Command

namespace Invocation

/-- A text is refused unless it can be read. -/
def refuse {α : Type} (read : String → Option α) (text : String) : Option UsageError :=
  if (read text).isSome then none else some .wrongValue

/-- The rule that an argument is. -/
def readRule (text : String) : Option PatternInput := (PatternInput.ofText text).toOption

/-- The instant that an argument is. -/
def readInstant (text : String) : Option Instant := (Instant.ofText text).toOption

/-- The count that an argument is. -/
def readCount (text : String) : Option Nat := Text.uint64? text.toList

/-- Any path will do that is not empty. -/
def refusePath (text : String) : Option UsageError :=
  if text.isEmpty then some .missingValue else none

/-- The options that may stand anywhere. -/
def globalOptions : List OptionSpec :=
  [⟨"verbose", some 'v', .counted, false⟩, ⟨"config", some 'c', .single refusePath, false⟩,
    ⟨"help", some 'h', .ending .help, false⟩]

/-- The options for the rules of a schedule. -/
def ruleOptions : List OptionSpec :=
  [⟨"on", none, .several (refuse readRule), true⟩, ⟨"not", none, .several (refuse readRule), false⟩]

/-- The options of the command that prints occurrences. -/
def nextLevel : ArgumentLevel :=
  ⟨globalOptions ++ ruleOptions ++
    [⟨"from", none, .single (refuse readInstant), false⟩,
      ⟨"count", some 'n', .single (refuse readCount), false⟩,
      ⟨"max-tries", none, .single (refuse readCount), false⟩,
      ⟨"json", none, .switch, false⟩], []⟩

/-- The options of the command that checks an instant. -/
def checkLevel : ArgumentLevel :=
  ⟨globalOptions ++ ruleOptions ++ [⟨"at", none, .single (refuse readInstant), true⟩], []⟩

/-- The name of the command that prints occurrences. -/
def nextName : String := "next"

/-- The name of the command that checks an instant. -/
def checkName : String := "matches"

/-- The name of the command that gives help. -/
def helpName : String := "help"

/-- The options before a command. -/
def topLevel : ArgumentLevel :=
  ⟨globalOptions ++ [⟨"version", some 'V', .ending .version, false⟩],
    [nextName, checkName, helpName]⟩

/-- What asking for help on a topic comes to.  The topic is one command at most. -/
def helpOn : List String → UsageError
  | [] => .help
  | [topic] => if topLevel.commands.contains topic then .help else .unknownCommand
  | _ => .unknownCommand

/-- The values of an option. -/
def valuesOf (name : String) (given : GivenOptions) : List String :=
  (given.filter fun g => g.1 = name).map Prod.snd

/-- The value of an option that is read. -/
def valueOf? {α : Type} (read : String → Option α) (name : String) (given : GivenOptions) :
    Option α :=
  (given.lookup name).bind read

/-- The rules of a schedule. -/
def rulesOf (given : GivenOptions) : ScheduleInput :=
  ⟨(valuesOf "on" given).filterMap readRule, (valuesOf "not" given).filterMap readRule⟩

/-- A verbosity is counted up to this. -/
def maxVerbosity : Nat := 255

/-- The invocation with the options given before a command and after it. -/
def ofOptions (before after : GivenOptions) (command : Command) : Invocation :=
  let flags := if (after.lookup "verbose").isSome then after else before
  ⟨min maxVerbosity (valuesOf "verbose" flags).length,
    (after.lookup "config").or (before.lookup "config"), command⟩

/-- The command with the options given after its name. -/
def readCommand (name : String) (arguments : List String) :
    Except UsageError (Command × GivenOptions) :=
  let finish (level : ArgumentLevel) : Except UsageError GivenOptions := do
    let (st, _) ← level.readArguments ArgumentState.start arguments
    level.finishArguments st
  if name = nextName then do
    let given ← finish nextLevel
    return (.next (rulesOf given) (valueOf? readInstant "from" given)
      (valueOf? readCount "count" given) (valueOf? readCount "max-tries" given)
      (given.lookup "json").isSome, given)
  else do
    let given ← finish checkLevel
    match valueOf? readInstant "at" given with
    | some t => return (.check (rulesOf given) t, given)
    | none => .error .missingOption

/-- What the arguments of the program ask for.  The arguments after a command are read before the
last option in front of it is added. -/
def ofArguments (arguments : List String) : Except UsageError Invocation := do
  let (st, found) ← topLevel.readArguments ArgumentState.start arguments
  match found with
  | some (name, rest) =>
    if name = helpName then .error (helpOn rest)
    else do
      let (command, after) ← readCommand name rest
      let before ← topLevel.finishArguments st
      return ofOptions before after command
  | none =>
    let before ← topLevel.finishArguments st
    .error (if before = [] then .noArguments else .noCommand)

end Invocation

end Recurrence
