import Recurrence.Calendar.Weekday
import Recurrence.Error

/-!
# Reading names of days and months

A weekday or a month is read from its name, a month also from its number. What does not name one
is refused with the text as it was given.
-/

namespace Recurrence

def Weekday.read (text : String) : Except Error Weekday :=
  match ofName? text with
  | some w => .ok w
  | none => .error (.unknownWeekday text)

def Month.read (text : String) : Except Error Month :=
  match ofName? text with
  | some m => .ok m
  | none => .error (.unknownMonth text)

def Month.ofNumber (n : Nat) : Except Error Month :=
  match ofNumber? n with
  | some m => .ok m
  | none => .error (.noSuchMonth n)

end Recurrence
