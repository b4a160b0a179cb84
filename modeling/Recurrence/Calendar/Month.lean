import Recurrence.Text.Name

/-!
# Months

The twelve months, numbered from 1, with English names and lengths. Only February depends on
whether the year is a leap year. `ofNumber?` inverts `number`, and `ofName?` reads a full name or
its first three letters.
-/

namespace Recurrence

/-- Every fourth year is a leap year, apart from the centuries that 400 does not divide. -/
def isLeapYear (year : Int) : Bool :=
  (year % 4 == 0 && year % 100 != 0) || year % 400 == 0

inductive Month
  | january | february | march | april | may | june
  | july | august | september | october | november | december
  deriving DecidableEq

namespace Month

def all : List Month :=
  [january, february, march, april, may, june,
    july, august, september, october, november, december]

def number : Month → Nat
  | january => 1
  | february => 2
  | march => 3
  | april => 4
  | may => 5
  | june => 6
  | july => 7
  | august => 8
  | september => 9
  | october => 10
  | november => 11
  | december => 12

def name : Month → String
  | january => "January"
  | february => "February"
  | march => "March"
  | april => "April"
  | may => "May"
  | june => "June"
  | july => "July"
  | august => "August"
  | september => "September"
  | october => "October"
  | november => "November"
  | december => "December"

def length (leap : Bool) : Month → Nat
  | january => 31
  | february => if leap then 29 else 28
  | march => 31
  | april => 30
  | may => 31
  | june => 30
  | july => 31
  | august => 31
  | september => 30
  | october => 31
  | november => 30
  | december => 31

def ofNumber? (n : Nat) : Option Month := all.find? fun m => m.number == n

def ofName? (text : String) : Option Month := all.find? fun m => Text.spells text m.name

theorem mem_all (m : Month) : m ∈ all := by cases m <;> decide

theorem ofNumber?_number (m : Month) : ofNumber? m.number = some m := by cases m <;> rfl

theorem number_eq_of_ofNumber? {n : Nat} {m : Month} (h : ofNumber? n = some m) :
    m.number = n := by
  simpa using List.find?_some h

theorem one_le_number (m : Month) : 1 ≤ m.number := by cases m <;> decide

theorem number_le_twelve (m : Month) : m.number ≤ 12 := by cases m <;> decide

theorem number_injective {m m' : Month} (h : m.number = m'.number) : m = m' := by
  have h' := ofNumber?_number m
  rw [h, ofNumber?_number] at h'
  exact (Option.some.inj h').symm

theorem length_le_of_leap (leap : Bool) (m : Month) : m.length leap ≤ m.length true := by
  cases leap <;> cases m <;> decide

theorem length_pos (leap : Bool) (m : Month) : 28 ≤ m.length leap := by
  cases leap <;> cases m <;> decide

theorem length_le (leap : Bool) (m : Month) : m.length leap ≤ 31 := by
  cases leap <;> cases m <;> decide

end Month

/-- The number of days in a month of a year. A number that names no month counts as the shortest
month of all. -/
def daysInMonth (year : Int) (month : Nat) : Nat :=
  match Month.ofNumber? month with
  | some m => m.length (isLeapYear year)
  | none => 28

end Recurrence
