import Recurrence.Calendar.Civil
import Recurrence.Calendar.Weekday

/-!
# Dates of the calendar

A date is a day number between those of a fixed first and last day, and year, month and day are
read off the number. `succ?` and `pred?` step to the neighbouring dates and fail only at the last
and at the first date. `ofCivil?` takes a day that exists and lies in the range.
-/

namespace Recurrence

/-- The number of 1 January of the year -262143. -/
def firstNumber : Int := -95746130

/-- The number of 31 December of the year 262142. -/
def lastNumber : Int := 95745398

@[ext] structure Date where
  number : Int
  first_le : firstNumber ≤ number
  le_last : number ≤ lastNumber
  deriving DecidableEq

namespace Date

def first : Date := ⟨firstNumber, by decide, by decide⟩

def last : Date := ⟨lastNumber, by decide, by decide⟩

def ofNumber? (n : Int) : Option Date :=
  if h : firstNumber ≤ n ∧ n ≤ lastNumber then some ⟨n, h.1, h.2⟩ else none

instance : LE Date := ⟨fun d e => d.number ≤ e.number⟩

instance : LT Date := ⟨fun d e => d.number < e.number⟩

instance (d e : Date) : Decidable (d ≤ e) := inferInstanceAs (Decidable (d.number ≤ e.number))

instance (d e : Date) : Decidable (d < e) := inferInstanceAs (Decidable (d.number < e.number))

def succ? (d : Date) : Option Date := ofNumber? (d.number + 1)

def pred? (d : Date) : Option Date := ofNumber? (d.number - 1)

/-- How many dates come after this one. -/
def daysAfter (d : Date) : Nat := (lastNumber - d.number).toNat

/-- How many dates come before this one. -/
def daysBefore (d : Date) : Nat := (d.number - firstNumber).toNat

def civil (d : Date) : Civil := Civil.ofNumber d.number

def year (d : Date) : Int := d.civil.year

def month (d : Date) : Month := d.civil.month

def day (d : Date) : Nat := d.civil.day

def ofCivil? (c : Civil) : Option Date := if c.Exists then ofNumber? c.number else none

def weekday (d : Date) : Weekday := Weekday.ofIndex (d.number % 7).toNat

def lastDayOfMonth (d : Date) : Nat :=
  let c := d.civil
  c.month.length (isLeapYear c.year)

/-- Days 1 to 7 of a month make its first week, days 8 to 14 its second, and so on. -/
def weekFromStart (d : Date) : Nat := (d.day - 1) / 7 + 1

/-- The last seven days of a month make its first week from the end, and so on. -/
def weekFromEnd (d : Date) : Nat := (d.lastDayOfMonth - d.day) / 7 + 1

/-- Whole weeks from one date to another, negative when the second is the earlier one. -/
def weeksBetween (d e : Date) : Int := (e.number - d.number).tdiv 7

theorem le_def {d e : Date} : d ≤ e ↔ d.number ≤ e.number := Iff.rfl

theorem lt_def {d e : Date} : d < e ↔ d.number < e.number := Iff.rfl

theorem ofNumber?_eq_some {n : Int} {d : Date} : ofNumber? n = some d ↔ d.number = n := by
  constructor
  · intro h
    unfold ofNumber? at h
    split at h
    · exact (congrArg number (Option.some.inj h)).symm
    · simp at h
  · rintro rfl
    simp [ofNumber?, d.first_le, d.le_last]

theorem ofNumber?_eq_none {n : Int} : ofNumber? n = none ↔ n < firstNumber ∨ lastNumber < n := by
  unfold ofNumber?
  split <;> simp <;> omega

theorem succ?_eq_some {d e : Date} : d.succ? = some e ↔ e.number = d.number + 1 :=
  ofNumber?_eq_some

theorem pred?_eq_some {d e : Date} : d.pred? = some e ↔ e.number = d.number - 1 :=
  ofNumber?_eq_some

theorem succ?_eq_none {d : Date} : d.succ? = none ↔ d = last := by
  have h := d.first_le
  have h' := d.le_last
  rw [succ?, ofNumber?_eq_none, Date.ext_iff]
  simp only [last]
  omega

theorem pred?_eq_none {d : Date} : d.pred? = none ↔ d = first := by
  have h := d.first_le
  have h' := d.le_last
  rw [pred?, ofNumber?_eq_none, Date.ext_iff]
  simp only [first]
  omega

theorem number_civil (d : Date) : d.civil.number = d.number := Civil.number_ofNumber d.number

theorem exists_civil (d : Date) : d.civil.Exists := Civil.exists_ofNumber d.number

theorem one_le_day (d : Date) : 1 ≤ d.day := d.exists_civil.1

theorem day_le_lastDayOfMonth (d : Date) : d.day ≤ d.lastDayOfMonth := d.exists_civil.2

theorem ofCivil?_civil (d : Date) : ofCivil? d.civil = some d := by
  rw [ofCivil?, if_pos d.exists_civil, number_civil, ofNumber?_eq_some]

theorem civil_of_ofCivil? {c : Civil} {d : Date} (h : ofCivil? c = some d) : d.civil = c := by
  unfold ofCivil? at h
  split at h
  · rename_i hc
    rw [civil, ofNumber?_eq_some.1 h, Civil.ofNumber_number hc]
  · simp at h

end Date

end Recurrence
