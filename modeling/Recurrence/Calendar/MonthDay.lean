import Recurrence.Calendar.Names

/-!
# Days without a year

A month-day is a month and a day that the month has in a leap year, so 29 February is one and
30 February is not. It is read from two numbers, or from a text such as `09-11` with blanks around
each part. A text is refused for its shape before its numbers are looked at.
-/

namespace Recurrence

structure MonthDay where
  month : Month
  day : Nat
  one_le_day : 1 ≤ day
  day_le : day ≤ month.length true
  deriving DecidableEq

namespace MonthDay

def ofMonth (month : Month) (day : Nat) : Except Error MonthDay :=
  if h : 1 ≤ day ∧ day ≤ 31 then
    if h' : day ≤ month.length true then .ok ⟨month, day, h.1, h'⟩
    else .error (.dayNotInMonth day month)
  else .error (.noSuchDay day)

def ofNumbers (month day : Nat) : Except Error MonthDay := do
  let m ← Month.ofNumber month
  ofMonth m day

/-- The largest number that a part of a written month-day may have. -/
def partLimit : Nat := 4294967295

def part? (s : List Char) : Option Nat :=
  (Text.counting? (Text.trim s)).filter (· ≤ partLimit)

/-- The two sides of the only hyphen. -/
def sides? (s : List Char) : Option (List Char × List Char) :=
  match s.dropWhile (· ≠ '-') with
  | [] => none
  | _ :: right => if '-' ∈ right then none else some (s.takeWhile (· ≠ '-'), right)

def read (text : String) : Except Error MonthDay :=
  match sides? text.toList with
  | none => .error (.notMonthDay text)
  | some (left, right) =>
    match part? left, part? right with
    | none, _ => .error (.unreadableMonth text)
    | some _, none => .error (.unreadableDay text)
    | some month, some day => ofNumbers month day

def display (d : MonthDay) : String :=
  "--" ++ Text.padded 2 d.month.number ++ "-" ++ Text.padded 2 d.day

end MonthDay

end Recurrence
