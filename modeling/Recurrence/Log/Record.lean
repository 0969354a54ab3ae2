import Recurrence.Calendar.Written
import Recurrence.Log.Filter
import Recurrence.Schedule.Search
import Recurrence.Settings.Load
import Recurrence.Text.Quoted

/-!
# Log records

What the program does is told in records, in the order in which it happens: settings are loaded,
patterns and schedules compiled, instants checked, searches made.  `LogEvent` is what happened; a
record is an event as it is written.

The records of a search are those of its parts.  A search of a pattern tells how it ended unless it
found something, a round tells the searches it made and every hop past an exclusion, and a search of
a schedule tells its rounds and whether they were used up.

## Main Definitions

* `LogEvent`, with `LogEvent.level`, `LogEvent.target`, `LogEvent.fields`, `LogEvent.toText`
* `Pattern.searchEvents`, `Pattern.exitEvents`
* `Schedule.roundEvents`, `Schedule.searchEvents`, `Occurrences.takeEvents`
* `Schedule.compileEvents`
-/

namespace Recurrence

open Text

/-- What happened. -/
inductive LogEvent where
  | configurationLoaded (settings : Settings)
  | patternCompiled (periods : List Period)
  | scheduleCompiled (included excluded : Nat)
  | instantChecked (t : Instant) (included excluded occurs : Bool)
  /-- A field cannot move forward from an instant that a search has reached. -/
  | fieldStuck (p : Period) (t : Instant)
  /-- A search of a pattern from an instant has used its budget. -/
  | patternExhausted (t : Instant) (budget : Nat)
  /-- A search for the end of an exclusion has used its budget. -/
  | exitExhausted (t : Instant) (budget : Nat)
  | exclusionSkipped (start stop : Instant)
  | scheduleExhausted (t : Instant) (budget : Nat)
  /-- Fewer occurrences were found than asked for. -/
  | searchEnded (requested found : Nat)

/-- The settings as a record tells them. -/
def Settings.toRecordText (s : Settings) : String :=
  "Settings \x7b calendar: CalendarConfig \x7b week_starts_on: " ++ toString s.weekStart ++
    ", first_week_contains_date: " ++ toString s.firstWeekDate ++
    " \x7d, search: SearchConfig \x7b max_tries: " ++ toString s.maxTries ++
    ", count: " ++ toString s.count ++
    " \x7d, logging: LoggingConfig \x7b level: " ++ quoted s.level ++ " \x7d \x7d"

namespace LogEvent

/-- The level of the record of an event. -/
def level : LogEvent → LogLevel
  | configurationLoaded _ => .debug
  | patternCompiled _ => .debug
  | scheduleCompiled .. => .debug
  | instantChecked .. => .debug
  | fieldStuck .. => .trace
  | patternExhausted .. => .trace
  | exitExhausted .. => .trace
  | exclusionSkipped .. => .trace
  | scheduleExhausted .. => .trace
  | searchEnded .. => .info

/-- The target of the record of an event. -/
def target : LogEvent → String
  | configurationLoaded _ => "cadence"
  | patternCompiled _ => "cadence_rule::pattern"
  | scheduleCompiled .. => "cadence_rule::schedule"
  | instantChecked .. => "cadence_app::commands::matches"
  | fieldStuck .. => "cadence_rule::pattern"
  | patternExhausted .. => "cadence_rule::pattern"
  | exitExhausted .. => "cadence_rule::pattern"
  | exclusionSkipped .. => "cadence_rule::schedule"
  | scheduleExhausted .. => "cadence_rule::schedule"
  | searchEnded .. => "cadence_app::commands::next"

/-- The message of the record of an event. -/
def message : LogEvent → String
  | configurationLoaded _ => "Configuration loaded"
  | patternCompiled _ => "Compiled pattern"
  | scheduleCompiled .. => "Compiled schedule"
  | instantChecked .. => "Checked instant"
  | fieldStuck .. => "Field cannot move forward"
  | patternExhausted .. => "Pattern search exhausted"
  | exitExhausted .. => "Exclusion exit search exhausted"
  | exclusionSkipped .. => "Skipped exclusion"
  | scheduleExhausted .. => "Schedule search exhausted"
  | searchEnded .. => "Search ended before all occurrences were found"

/-- The names and values of the fields of the record of an event. -/
def fields : LogEvent → List (String × String)
  | configurationLoaded s => [("settings", s.toRecordText)]
  | patternCompiled periods =>
    [("periods", "[" ++ ", ".intercalate (periods.map fun p => quoted p.name) ++ "]")]
  | scheduleCompiled included excluded =>
    [("include", toString included), ("exclude", toString excluded)]
  | instantChecked t included excluded occurs =>
    [("at", t.toRecordText), ("included", toString included), ("excluded", toString excluded),
      ("on", toString occurs)]
  | fieldStuck p t => [("period", p.name), ("current", t.toRecordText)]
  | patternExhausted t budget => [("instant", t.toRecordText), ("max_tries", toString budget)]
  | exitExhausted t budget => [("instant", t.toRecordText), ("max_tries", toString budget)]
  | exclusionSkipped start stop => [("from", start.toRecordText), ("to", stop.toRecordText)]
  | scheduleExhausted t budget => [("instant", t.toRecordText), ("max_tries", toString budget)]
  | searchEnded requested found =>
    [("requested", toString requested), ("found", toString found)]

/-- What a filter can ask for in the record of an event: its message and its fields, by name. -/
def fieldNames (e : LogEvent) : List String := "message" :: e.fields.map Prod.fst

/-- The record of an event, without the time at which it is written. -/
def toText (e : LogEvent) : String :=
  e.level.label ++ " " ++ e.target ++ ": " ++ e.message ++
    String.join (e.fields.map fun field => " " ++ field.1 ++ "=" ++ field.2)

end LogEvent

/-- The records that a filter lets through. -/
def LogFilter.records (filter : LogFilter) (events : List LogEvent) : List String :=
  (events.filter fun e => filter.enables e.target e.fieldNames e.level).map LogEvent.toText

namespace Pattern

/-- What a search for the next instant tells. -/
def searchEvents (p : Pattern) (t : Instant) (budget : Nat) : List LogEvent :=
  match p.search t budget with
  | .stuck period t' => [.fieldStuck period t']
  | .exhausted => [.patternExhausted t budget]
  | .found _ => []
  | .confined => []

/-- What a search for the end of an exclusion tells. -/
def exitEvents (p : Pattern) (t : Instant) (budget : Nat) : List LogEvent :=
  match p.searchExit t budget with
  | .exhausted => [.exitExhausted t budget]
  | .found t' => [.exclusionSkipped t t']
  | .stuck .. => []
  | .confined => []

end Pattern

namespace Schedule

/-- What the hops past exclusions tell. -/
def hopEvents (s : Schedule) (budget : Nat) : Nat → Instant → List LogEvent
  | 0, _ => []
  | hops + 1, t =>
    match s.excluder? t with
    | none => []
    | some p =>
      p.exitEvents t budget ++
        match p.after t budget with
        | none => []
        | some t' => hopEvents s budget hops t'

/-- What a round tells. -/
def roundEvents (s : Schedule) (t : Instant) (budget : Nat) : List LogEvent :=
  (s.included.flatMap fun p => p.searchEvents t budget) ++
    match s.earliestInclude? t budget with
    | none => []
    | some t' => s.hopEvents budget (budget + 1) t'

/-- What the rounds of a search tell.  `start` is where the first one began. -/
def roundsEvents (s : Schedule) (start : Instant) (budget : Nat) : Nat → Instant → List LogEvent
  | 0, _ => [.scheduleExhausted start budget]
  | rounds + 1, t =>
    s.roundEvents t budget ++
      match s.round? t budget with
      | none => []
      | some t' => if s.occurs t' then [] else roundsEvents s start budget rounds t'

/-- What a search for the next occurrence tells. -/
def searchEvents (s : Schedule) (t : Instant) (budget : Nat) : List LogEvent :=
  s.roundsEvents t budget (budget + 1) t

end Schedule

namespace Occurrences

/-- What the searches for up to `count` occurrences tell. -/
def takeEvents : Nat → Occurrences → List LogEvent
  | 0, _ => []
  | count + 1, o =>
    match o.cursor with
    | none => []
    | some t =>
      o.schedule.searchEvents t o.budget ++
        match o.next? with
        | none => []
        | some t' => takeEvents count (o.advance (some t'))

end Occurrences

namespace Pattern

/-- What compiling rules in turn tells, up to the first one that does not compile. -/
def compileEvents (options : CalendarOptions) : List PatternInput → List LogEvent
  | [] => []
  | rule :: rules =>
    match Pattern.compile rule options with
    | .ok p => .patternCompiled p.periods :: compileEvents options rules
    | .error _ => []

end Pattern

namespace Schedule

/-- What compiling a schedule tells. -/
def compileEvents (input : ScheduleInput) (options : CalendarOptions) : List LogEvent :=
  Pattern.compileEvents options (input.on ++ input.off) ++
    match Schedule.compile input options with
    | .ok s => [.scheduleCompiled s.included.length s.excluded.length]
    | .error _ => []

end Schedule

end Recurrence
