import Recurrence.Calendar.Date
import Recurrence.Calendar.MonthDay

/-!
# Windows of the year

A window runs from one bound of the year to another. A bound is a month, cut off at a day of it or
taken as a whole, and in numbers the day 0 stands for the whole month. A window whose last month
comes before its first one does not go round the end of the year: it keeps the end of the first
month and the beginning of the last.
-/

namespace Recurrence

structure Bound where
  month : Month
  day : Option Nat
  deriving DecidableEq

structure YearlyWindow where
  start : Bound
  stop : Bound
  deriving DecidableEq

namespace Bound

def whole (month : Month) : Bound := ⟨month, none⟩

def ofDay (month : Month) (day : Nat) : Bound := ⟨month, if day = 0 then none else some day⟩

/-- The day as a number, 0 for the whole month. -/
def dayNumber (b : Bound) : Nat := b.day.getD 0

def display (b : Bound) : String :=
  match b.day with
  | none => b.month.name
  | some day => b.month.name ++ " " ++ Text.natural day

theorem dayNumber_ofDay (month : Month) (day : Nat) : (ofDay month day).dayNumber = day := by
  by_cases h : day = 0 <;> simp [ofDay, dayNumber, h]

end Bound

namespace YearlyWindow

def ofBounds (startMonth stopMonth : Month) (startDay stopDay : Nat) :
    Except Error YearlyWindow :=
  if 31 < startDay then .error (.startDayTooLarge startDay)
  else if 31 < stopDay then .error (.endDayTooLarge stopDay)
  else .ok ⟨.ofDay startMonth startDay, .ofDay stopMonth stopDay⟩

def months (start stop : Month) : YearlyWindow := ⟨.whole start, .whole stop⟩

def month (m : Month) : YearlyWindow := months m m

def days (start stop : MonthDay) : YearlyWindow :=
  ⟨.ofDay start.month start.day, .ofDay stop.month stop.day⟩

/-- The day lies in the month of the first bound and not before it. -/
def opens (w : YearlyWindow) (c : Civil) : Bool :=
  c.month == w.start.month && w.start.day.all fun day => decide (day ≤ c.day)

/-- The day lies in the month of the last bound and not after it. -/
def closes (w : YearlyWindow) (c : Civil) : Bool :=
  c.month == w.stop.month && w.stop.day.all fun day => decide (c.day ≤ day)

/-- The day lies in a month strictly between the two of the bounds. -/
def spans (w : YearlyWindow) (c : Civil) : Bool :=
  decide (w.start.month.number < c.month.number) && decide (c.month.number < w.stop.month.number)

def covers (w : YearlyWindow) (c : Civil) : Bool :=
  if w.start.month = w.stop.month then w.opens c && w.closes c
  else w.spans c || w.opens c || w.closes c

def includes (w : YearlyWindow) (d : Date) : Bool := w.covers d.civil

def display (w : YearlyWindow) : String :=
  if w.start.month = w.stop.month ∧ w.start.day = none ∧ w.stop.day = none then
    "every year in " ++ w.start.month.name
  else "every year " ++ w.start.display ++ " to " ++ w.stop.display

end YearlyWindow

end Recurrence
