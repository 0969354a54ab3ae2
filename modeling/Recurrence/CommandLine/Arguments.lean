import Recurrence.Text.Split

/-!
# Arguments

Reads the arguments of a program into the options that are given, with their values.  An option has
a long name after two dashes and may have a letter after one.  A value follows as the next argument,
after an equals sign, or right after the letter; letters may be run together.  After `--` no option
is read.

A value that follows as the next argument is **held** until the next option begins or the arguments
end, and only then checked.  So of two faults the one that is met first in this order is reported:
an unknown option before the value held in front of it, but that value before a second use of its
option.

An argument that begins with a dash is never the value of an option in front of it.

## Main Definitions

* `OptionKind`, `OptionSpec`: what a program knows of an option
* `ArgumentState`, `readShorts`, `readLong`, `readArguments`: the reader
* `finishArguments`: the checks when the arguments have ended
* `UsageError`
-/

namespace Recurrence

/-- Why arguments are rejected, or not to be followed. -/
inductive UsageError where
  /-- Help is asked for. -/
  | help
  /-- The version is asked for. -/
  | version
  /-- There are no arguments where a command is needed. -/
  | noArguments
  /-- There are options, but no command. -/
  | noCommand
  /-- There is no such command. -/
  | unknownCommand
  /-- An option that is needed is missing. -/
  | missingOption
  /-- An option is given without its value. -/
  | missingValue
  /-- The value of an option cannot be read. -/
  | wrongValue
  /-- An option that has no value is given one. -/
  | unwantedValue
  /-- There is no such option, or an argument belongs to none. -/
  | unknownArgument
  /-- An option is given twice. -/
  | repeatedOption
deriving DecidableEq, Repr

/-- What is done with an option. -/
inductive OptionKind where
  /-- It is counted. -/
  | counted
  /-- It is given or not. -/
  | switch
  /-- It has a value. `check` tells what is wrong with a text that is none. -/
  | single (check : String → Option UsageError)
  /-- It may be given several times, each time with a value. -/
  | several (check : String → Option UsageError)
  /-- It ends the reading of arguments. -/
  | ending (result : UsageError)

/-- An option as a program knows it. -/
structure OptionSpec where
  long : String
  short : Option Char
  kind : OptionKind
  required : Bool := false

/-- Does an option have a value? -/
def OptionSpec.takesValue (o : OptionSpec) : Bool :=
  match o.kind with
  | .single _ => true
  | .several _ => true
  | _ => false

/-- The options and commands that arguments may name. -/
structure ArgumentLevel where
  options : List OptionSpec
  commands : List String

/-- The options that are given, in order, with their values.  An option without a value stands with
the empty text. -/
abbrev GivenOptions := List (String × String)

/-- How far the reading of arguments has come. -/
structure ArgumentState where
  given : GivenOptions
  /-- The option whose value is awaited or held. -/
  held : Option (OptionSpec × Option String)

namespace ArgumentState

/-- Nothing is read yet. -/
def start : ArgumentState := ⟨[], none⟩

/-- Is the next argument the value of an option? -/
def awaitsValue (st : ArgumentState) : Bool :=
  match st.held with
  | some (_, none) => true
  | _ => false

/-- Adds an option with its value, which is checked last. -/
def accept (o : OptionSpec) (value : String) (st : ArgumentState) :
    Except UsageError ArgumentState :=
  let added : ArgumentState := { st with given := st.given ++ [(o.long, value)] }
  let isGiven := (st.given.lookup o.long).isSome
  let checked (check : String → Option UsageError) : Except UsageError ArgumentState :=
    match check value with
    | some e => .error e
    | none => .ok added
  match o.kind with
  | .counted => .ok added
  | .switch => if isGiven then .error .repeatedOption else .ok added
  | .single check => if isGiven then .error .repeatedOption else checked check
  | .several check => checked check
  | .ending result => .error result

/-- Adds the option that is held. -/
def release (st : ArgumentState) : Except UsageError ArgumentState :=
  match st.held with
  | none => .ok st
  | some (_, none) => .error .missingValue
  | some (o, some value) => accept o value { st with held := none }

/-- An option, with the value that is attached to it if there is one. -/
def useOption (o : OptionSpec) (attached : Option String) (st : ArgumentState) :
    Except UsageError ArgumentState := do
  let st ← st.release
  match o.takesValue, attached with
  | true, none => return { st with held := some (o, none) }
  | _, value => st.accept o (value.getD "")

end ArgumentState

namespace ArgumentLevel

/-- The options that letters run together stand for.  The letters after one that has a value are the
value. -/
def readShorts (level : ArgumentLevel) :
    List Char → ArgumentState → Except UsageError ArgumentState
  | [], st => .ok st
  | c :: rest, st =>
    match level.options.find? fun o => o.short = some c with
    | none => .error .unknownArgument
    | some o =>
      if o.takesValue then
        match rest with
        | [] => st.useOption o none
        | '=' :: value => st.useOption o (some (String.ofList value))
        | value => st.useOption o (some (String.ofList value))
      else match st.useOption o none with
        | .error e => .error e
        | .ok st => readShorts level rest st

/-- The option with a long name, and the value after an equals sign. -/
def readLong (level : ArgumentLevel) (text : List Char) (st : ArgumentState) :
    Except UsageError ArgumentState :=
  let (name, value) := match Text.cut? '=' text with
    | some (name, value) => (name, some (String.ofList value))
    | none => (text, none)
  match level.options.find? fun o => o.long.toList = name with
  | none => .error .unknownArgument
  | some o =>
    if value.isSome && !o.takesValue then .error .unwantedValue else st.useOption o value

/-- What is wrong with an argument that is neither an option, nor a value, nor a command. -/
def unexpected (level : ArgumentLevel) (trailing : Bool) (argument : String) : UsageError :=
  if level.commands = [] ∨ (trailing ∧ argument ∈ level.commands) then .unknownArgument
  else .unknownCommand

/-- Reads arguments up to a command.  The command is left with the arguments after it. -/
def readArguments (level : ArgumentLevel) : ArgumentState → List String →
    Except UsageError (ArgumentState × Option (String × List String))
  | st, [] => .ok (st, none)
  | st, argument :: rest =>
    if !st.awaitsValue && level.commands.contains argument then .ok (st, some (argument, rest))
    else
      let next := match argument.toList with
        | '-' :: '-' :: [] => none
        | '-' :: '-' :: name => some (level.readLong name st)
        | '-' :: c :: letters => some (level.readShorts (c :: letters) st)
        | _ => match st.held with
          | some (o, none) => some (.ok { st with held := some (o, some argument) })
          | _ => some (.error (level.unexpected false argument))
      match next with
      | some (.ok st) => readArguments level st rest
      | some (.error e) => .error e
      | none => match rest with
        | [] => .ok (st, none)
        | trailing :: _ => .error (level.unexpected true trailing)

/-- The options that are given when the arguments have ended: what is held is added, and every
option that is needed has to be there. -/
def finishArguments (level : ArgumentLevel) (st : ArgumentState) :
    Except UsageError GivenOptions := do
  let st ← st.release
  if level.options.all fun o => !o.required || (st.given.lookup o.long).isSome then
    return st.given
  else .error .missingOption

end ArgumentLevel

end Recurrence
