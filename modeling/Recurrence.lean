import Recurrence.CommandLine.Run
import Recurrence.Main
import Recurrence.Proofs.Calendar.Timeline
import Recurrence.Proofs.Calendar.WeekNumber
import Recurrence.Proofs.Calendar.FirstWeekday
import Recurrence.Proofs.Calendar.Cycle
import Recurrence.Proofs.FirstError
import Recurrence.Proofs.Text.Padded
import Recurrence.Proofs.Text.Token
import Recurrence.Proofs.Period.Counter
import Recurrence.Proofs.Period.Run
import Recurrence.Proofs.Period.DayField
import Recurrence.Proofs.Period.Laws
import Recurrence.Proofs.Period.Domain
import Recurrence.Proofs.Period.Alignment
import Recurrence.Proofs.Period.Nesting
import Recurrence.Proofs.Period.Horizon
import Recurrence.Proofs.Period.Entry
import Recurrence.Proofs.Period.WeekPartition
import Recurrence.Proofs.Period.Resolution
import Recurrence.Proofs.Period.Forward
import Recurrence.Proofs.Period.Cycle
import Recurrence.Proofs.Frequency.Next
import Recurrence.Proofs.Frequency.Written
import Recurrence.Proofs.Frequency.Denotation
import Recurrence.Proofs.Frequency.Grammar
import Recurrence.Proofs.Pattern.Fields
import Recurrence.Proofs.Pattern.Move
import Recurrence.Proofs.Pattern.Next
import Recurrence.Proofs.Pattern.After
import Recurrence.Proofs.Pattern.Sound
import Recurrence.Proofs.Pattern.Restart
import Recurrence.Proofs.Pattern.Entry
import Recurrence.Proofs.Pattern.Exit
import Recurrence.Proofs.Pattern.Written
import Recurrence.Proofs.Pattern.Passes
import Recurrence.Proofs.Pattern.Cycle
import Recurrence.Proofs.Pattern.Building
import Recurrence.Proofs.Schedule.Next
import Recurrence.Proofs.Schedule.Restart
import Recurrence.Proofs.Schedule.Stream
import Recurrence.Proofs.Schedule.Budget
import Recurrence.Proofs.Schedule.Resolution
import Recurrence.Proofs.Schedule.Building
import Recurrence.Proofs.Text.Digits
import Recurrence.Proofs.Calendar.Layout
import Recurrence.Proofs.Calendar.Written
import Recurrence.Proofs.Schedule.Hops
import Recurrence.Proofs.Schedule.Whole
import Recurrence.Proofs.CommandLine.Arguments
import Recurrence.Proofs.CommandLine.ReadBack
import Recurrence.Proofs.Machine.Engine
