import Recurrence.Calendar.Date
import Recurrence.Error

/-!
# Dates as text

A date is written as year, month and day, the year with four digits at least and with a sign
outside 0 to 9999. Reading allows blanks around the text and in front of each number, a sign only
at the year, at most four digits of a year without a sign and at most two of a month or a day.
A number out of its range is refused where it stands, a day that its month lacks at the end.
-/

namespace Recurrence

namespace Date

open Text

def yearText (year : Int) : String :=
  if year < 0 then "-" ++ padded 4 year.natAbs
  else if 9999 < year then "+" ++ padded 4 year.natAbs
  else padded 4 year.natAbs

def display (d : Date) : String :=
  let c := d.civil
  yearText c.year ++ "-" ++ padded 2 c.month.number ++ "-" ++ padded 2 c.day

/-- The leading digits, at most so many where a limit is given, and what follows them. -/
def readDigits (limit : Option Nat) (s : List Char) : Except DateFault (Nat × List Char) :=
  match s with
  | [] => .error .ended
  | c :: _ =>
    if c.isDigit then
      let window := match limit with
        | some n => s.take n
        | none => s
      let digits := window.takeWhile Char.isDigit
      .ok (Nat.ofDigitChars 10 digits 0, s.drop digits.length)
    else .error .unexpected

def readYear (s : List Char) : Except DateFault (Int × List Char) := do
  let (year, rest) ← match trimLeft s with
    | '-' :: r => (readDigits none r).map fun p => (-(p.1 : Int), p.2)
    | '+' :: r => (readDigits none r).map fun p => ((p.1 : Int), p.2)
    | r => (readDigits (some 4) r).map fun p => ((p.1 : Int), p.2)
  if -2147483648 ≤ year ∧ year ≤ 2147483647 then .ok (year, rest) else .error .outOfRange

def readMonth (s : List Char) : Except DateFault (Month × List Char) := do
  let (n, rest) ← readDigits (some 2) (trimLeft s)
  match Month.ofNumber? n with
  | some m => .ok (m, rest)
  | none => .error .outOfRange

def readDay (s : List Char) : Except DateFault (Nat × List Char) := do
  let (n, rest) ← readDigits (some 2) (trimLeft s)
  if 1 ≤ n ∧ n ≤ 31 then .ok (n, rest) else .error .outOfRange

def readHyphen : List Char → Except DateFault (List Char)
  | [] => .error .ended
  | '-' :: s => .ok s
  | _ => .error .unexpected

def readCivil (s : List Char) : Except DateFault Civil := do
  let (year, s) ← readYear s
  let s ← readHyphen s
  let (month, s) ← readMonth s
  let s ← readHyphen s
  let (day, s) ← readDay s
  if s.isEmpty then .ok ⟨year, month, day⟩ else .error .leftover

def read (text : String) : Except Error Date :=
  match readCivil (trim text.toList) with
  | .error fault => .error (.unreadableDate text fault)
  | .ok c =>
    match ofCivil? c with
    | some d => .ok d
    | none => .error (.unreadableDate text .outOfRange)

end Date

end Recurrence
