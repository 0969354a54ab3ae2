import Recurrence.Calendar.Options
import Recurrence.Settings.Toml.Document
import Recurrence.Settings.VariableFile

/-!
# Loading settings

Settings are the calendar options, the budget and the count of a search, and the level of logging.
They are laid together from three sources, the weakest first: the **defaults**, the **environment
variables** `CADENCE_SECTION__KEY`, and a **TOML file**.  Without a path the file is `cadence.toml`
if it is there, and a variable file `.env` is read first.  The keys at the top of a source are
paths.

The file is laid over the environment first, and both of them over the defaults.  Only the values
that result are asked for numbers and texts, so a wrong value that a stronger source hides does no
harm.

## Main Definitions

* `Settings`, `Settings.options?`
* `Workspace`: the files and environment variables a program runs with
* `Settings.load`, `Workspace.withVariableFile`
* `ConfigError`
-/

namespace Recurrence

/-- Why there are no settings. -/
inductive ConfigError where
  /-- There is no file at this path. -/
  | fileNotFound (path : String)
  /-- The file is no TOML document. -/
  | malformedFile (path : String)
  /-- A setting has a value of the wrong type or out of its range. -/
  | wrongValue (setting : String)
deriving DecidableEq, Repr

/-- The error as it is reported. -/
def ConfigError.message : ConfigError → String
  | .fileNotFound path => "configuration file \"" ++ path ++ "\" not found"
  | .malformedFile path => "configuration file \"" ++ path ++ "\" is not a TOML document"
  | .wrongValue setting => "invalid value for " ++ setting

/-- The settings of the program. -/
structure Settings where
  /-- The weekday a week starts on. -/
  weekStart : Nat
  /-- The day that lies in the first week. -/
  firstWeekDate : Nat
  /-- The budget of a search. -/
  maxTries : Nat
  /-- The number of occurrences that are printed. -/
  count : Nat
  /-- The level of logging, as it is written. -/
  level : String
deriving DecidableEq, Repr

/-- The files of a directory and the environment variables that a program runs with. -/
structure Workspace where
  files : List (String × String)
  environment : List (String × String)

namespace Workspace

/-- The text of a file.  A path may begin with the directory itself. -/
def file? (w : Workspace) (path : String) : Option String :=
  match path.toList with
  | '.' :: '/' :: rest => w.files.lookup (String.ofList rest)
  | _ => w.files.lookup path

/-- The workspace after its variable file, if it has one, has set the variables not set yet. -/
def withVariableFile (w : Workspace) : Workspace :=
  match w.file? ".env" with
  | some text => { w with environment := VariableFile.loadVariables text w.environment }
  | none => w

end Workspace

namespace Settings

/-- The calendar options that the settings ask for. -/
def options? (s : Settings) : Except OptionsError CalendarOptions :=
  CalendarOptions.ofParts? s.weekStart s.firstWeekDate

/-- The weakest source. -/
def defaults : SettingValue :=
  .table [
    ("calendar", .table [("week_starts_on", .integer 0), ("first_week_contains_date", .integer 4)]),
    ("search", .table [("max_tries", .integer 100), ("count", .integer 5)]),
    ("logging", .table [("level", .text "warn")])]

/-- What the name of an environment variable for a setting begins with, in lower case. -/
def variableMark : List Char := "cadence_".toList

/-- Cuts a text at every two underscores. -/
def splitSections : List Char → List (List Char)
  | '_' :: '_' :: s => [] :: splitSections s
  | c :: s =>
    match splitSections s with
    | [] => [[c]]
    | part :: parts => (c :: part) :: parts
  | [] => [[]]

/-- A character of the name of a variable in lower case.  Beyond ASCII only the Kelvin sign has a
letter of ASCII as its lower case, and no setting has a name with any other such character. -/
def lowerCase (c : Char) : Char := if c = '\u212a' then 'k' else c.toLower

/-- The path of the setting that an environment variable is for.  The case of its name does not
count. -/
def variablePath? (name : String) : Option SettingPath :=
  let name := name.toList.map lowerCase
  if name.take variableMark.length = variableMark then
    some (.ofText (Text.joinWith ['.'] (splitSections (name.drop variableMark.length))))
  else none

/-- The tree of the environment variables.  Empty ones do not count. -/
def ofVariables (environment : List (String × String)) : SettingValue :=
  environment.foldl (fun tree v =>
    match variablePath? v.1 with
    | some path => if v.2.isEmpty then tree else tree.put path (.ofVariable v.2)
    | none => tree) (.table [])

/-- Lays the entries of a source over a tree.  Their keys are paths. -/
def layOver (source tree : SettingValue) : SettingValue :=
  source.entries.foldl (fun tree e => tree.put (.ofText e.1.toList) e.2) tree

/-- A setting of a group, as something that it can be understood as. -/
def member {α : Type} (read : SettingValue → Option α) (tree : SettingValue) (group : String)
    (place : Nat) (key : String) : Except ConfigError α :=
  let value := (tree.entries.lookup group).bind fun members => members.member? place key
  match value.bind read with
  | some a => .ok a
  | none => .error (.wrongValue (group ++ "." ++ key))

/-- The value as a number up to `greatest`. -/
def sizeUpTo (greatest : Nat) (value : SettingValue) : Option Nat :=
  value.size?.filter fun n => n ≤ greatest

/-- The greatest number of a setting of the calendar, before it is checked as an option. -/
def maxPart : Nat := 255

/-- The settings that a tree of values gives. -/
def ofTree (tree : SettingValue) : Except ConfigError Settings := do
  let weekStart ← member (sizeUpTo maxPart) tree "calendar" 0 "week_starts_on"
  let firstWeekDate ← member (sizeUpTo maxPart) tree "calendar" 1 "first_week_contains_date"
  let maxTries ← member SettingValue.size? tree "search" 0 "max_tries"
  let count ← member SettingValue.size? tree "search" 1 "count"
  let level ← member SettingValue.text? tree "logging" 0 "level"
  return { weekStart, firstWeekDate, maxTries, count, level }

/-- The settings of a file over the environment, and of both over the defaults. -/
def ofSources (environment : List (String × String)) (file : SettingValue) :
    Except ConfigError Settings :=
  ofTree (layOver (layOver file (ofVariables environment)) defaults)

/-- What a file name of the settings ends with. -/
def extension : List Char := ".toml".toList

/-- Is this the name of a TOML file? -/
def isTomlName (path : String) : Bool :=
  let name := (path.toList.reverse.takeWhile fun c => c ≠ '/').reverse
  extension.length < name.length && name.drop (name.length - extension.length) == extension

/-- The tree of values of the file at a path, or at the path with the extension added.  A byte-order
mark at the beginning of a file is no part of the document, which may begin with one of its own. -/
def document (w : Workspace) (path : String) : Except ConfigError SettingValue :=
  let found := match w.file? path with
    | some text => if isTomlName path then some text else none
    | none => w.file? (path ++ String.ofList extension)
  match found with
  | none => .error (if (w.file? path).isSome then .malformedFile path else .fileNotFound path)
  | some text => match Toml.read? (String.ofList (Toml.skipMark text.toList)) with
    | some tree => .ok tree
    | none => .error (.malformedFile path)

/-- The name of the file that is read without a path. -/
def fileName : String := "cadence.toml"

/-- The settings of the file at `path`, over the environment and the defaults. -/
def loadFrom (w : Workspace) (path : String) : Except ConfigError Settings := do
  ofSources w.environment (← document w path)

/-- The settings of the file without a path, if there is one, over the environment and the
defaults. -/
def loadStandard (w : Workspace) : Except ConfigError Settings :=
  match document w fileName with
  | .ok file => ofSources w.environment file
  | .error (.fileNotFound _) => ofSources w.environment (.table [])
  | .error e => .error e

/-- The settings, and the workspace that they were read in.  Without a path the variable file is
read first. -/
def load (w : Workspace) (path : Option String) : Except ConfigError (Settings × Workspace) :=
  match path with
  | some path => (loadFrom w path).map fun s => (s, w)
  | none =>
    let w := w.withVariableFile
    (loadStandard w).map fun s => (s, w)

end Settings

end Recurrence
