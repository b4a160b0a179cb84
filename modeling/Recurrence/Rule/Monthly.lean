import Recurrence.Calendar.Date
import Recurrence.Error

/-!
# A weekday of each month

A monthly weekday is the second Monday or the last Friday of every month. Its ordinal counts from
the first day of the month when it is positive and from the last day when it is negative, and goes
up to five either way.
-/

namespace Recurrence

structure MonthlyWeekday where
  weekday : Weekday
  ordinal : Int
  deriving DecidableEq

namespace MonthlyWeekday

def ofOrdinal (weekday : Weekday) (ordinal : Int) : Except Error MonthlyWeekday :=
  if ordinal = 0 ∨ ordinal < -5 ∨ 5 < ordinal then .error (.ordinalOutsideMonth ordinal)
  else .ok ⟨weekday, ordinal⟩

def weekMatches (m : MonthlyWeekday) (d : Date) : Bool :=
  if 0 < m.ordinal then d.weekFromStart == m.ordinal.natAbs
  else d.weekFromEnd == m.ordinal.natAbs

def includes (m : MonthlyWeekday) (d : Date) : Bool :=
  d.weekday == m.weekday && m.weekMatches d

def display (m : MonthlyWeekday) : String :=
  m.weekday.abbreviation ++ " #" ++ Text.signed m.ordinal ++ " of month"

end MonthlyWeekday

end Recurrence
