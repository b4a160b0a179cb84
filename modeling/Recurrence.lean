import Recurrence.Document.Meaning
import Recurrence.Schedule.Cursor
import Recurrence.Proofs.Document.Denotation
import Recurrence.Proofs.Schedule.Session
import Recurrence.Proofs.Schedule.Period
import Recurrence.Proofs.Schedule.Nearest
import Recurrence.Proofs.Document.Encoding
import Recurrence.Proofs.Document.Defects
import Recurrence.Proofs.Document.RoundTrip
import Recurrence.Proofs.Document.Edits
import Recurrence.Proofs.Document.Collected
import Recurrence.Proofs.Machine.Queries
import Recurrence.Proofs.Schedule.Display
import Recurrence.Proofs.Schedule.Bounded
import Recurrence.Proofs.Schedule.Replacement
import Recurrence.Proofs.Schedule.Append
import Recurrence.Proofs.Rule.Ordinals
import Recurrence.Proofs.Rule.Cadences
import Recurrence.Proofs.Rule.Windows
import Recurrence.Proofs.Document.Entries
import Recurrence.Proofs.Document.Agreement
import Recurrence.Proofs.Schedule.Gaps
import Recurrence.Proofs.Machine.MonthDays
import Recurrence.Proofs.Rule.References
import Recurrence.Proofs.Document.Respelling
import Recurrence.Proofs.Rule.Coincidences
import Recurrence.Proofs.Rule.Splicing
import Recurrence.Proofs.Machine.MonthLengths
