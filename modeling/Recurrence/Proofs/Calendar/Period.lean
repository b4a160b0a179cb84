import Recurrence.Proofs.Calendar.Weeks

/-!
# The period of the calendar

Leap years repeat after 400 years, which have 146097 days, and these are whole weeks. A date and
another one so many periods later have the same month, day and weekday, in a month of the same
length.
-/

namespace Recurrence

theorem isLeapYear_add_period (y k : ℤ) : isLeapYear (y + 400 * k) = isLeapYear y := by
  rw [Bool.eq_iff_iff, isLeapYear_iff, isLeapYear_iff]
  omega

theorem yearAndDay_add_period (n k : ℤ) :
    yearAndDay (n + 146097 * k) = ((yearAndDay n).1 + 400 * k, (yearAndDay n).2) := by
  have hrest : (n + 146097 * k) % 146097 = n % 146097 := Int.add_mul_emod_self_left n 146097 k
  have hperiod : (n + 146097 * k) / 146097 = n / 146097 + k :=
    Int.add_mul_ediv_left n k (by decide)
  simp only [yearAndDay, hrest, hperiod]
  congr 1
  ring

namespace Civil

/-- The same month and day some years later, whether or not that month has the day. -/
def addYears (c : Civil) (k : ℤ) : Civil := { c with year := c.year + k }

theorem year_addYears (c : Civil) (k : ℤ) : (c.addYears k).year = c.year + k := rfl

theorem month_addYears (c : Civil) (k : ℤ) : (c.addYears k).month = c.month := rfl

theorem day_addYears (c : Civil) (k : ℤ) : (c.addYears k).day = c.day := rfl

theorem ofNumber_add_period (n k : ℤ) :
    ofNumber (n + 146097 * k) = (ofNumber n).addYears (400 * k) := by
  simp only [ofNumber, yearAndDay_add_period, isLeapYear_add_period, addYears]

end Civil

namespace Date

variable {d e : Date}

/-- A whole number of calendar periods lies between two dates. -/
def InPhase (d e : Date) : Prop := (146097 : ℤ) ∣ e.number - d.number

theorem InPhase.exists_civil_eq (h : d.InPhase e) :
    ∃ k : ℤ, e.civil = d.civil.addYears (400 * k) := by
  obtain ⟨k, hk⟩ := h
  have hnumber : e.number = d.number + 146097 * k := by omega
  refine ⟨k, ?_⟩
  rw [civil, civil, hnumber, Civil.ofNumber_add_period]

theorem InPhase.month_eq (h : d.InPhase e) : e.month = d.month := by
  obtain ⟨k, hcivil⟩ := h.exists_civil_eq
  rw [e.month_eq, d.month_eq, hcivil, Civil.month_addYears]

theorem InPhase.day_eq (h : d.InPhase e) : e.day = d.day := by
  obtain ⟨k, hcivil⟩ := h.exists_civil_eq
  rw [e.day_eq, d.day_eq, hcivil, Civil.day_addYears]

theorem InPhase.lastDayOfMonth_eq (h : d.InPhase e) : e.lastDayOfMonth = d.lastDayOfMonth := by
  obtain ⟨k, hcivil⟩ := h.exists_civil_eq
  rw [e.lastDayOfMonth_eq, d.lastDayOfMonth_eq, h.month_eq, e.year_eq, d.year_eq, hcivil,
    Civil.year_addYears, isLeapYear_add_period]

theorem InPhase.weekday_eq (h : d.InPhase e) : e.weekday = d.weekday := by
  have hweeks : (7 : ℤ) ∣ 146097 := by decide
  exact weekday_eq_iff.2 (hweeks.trans h)

theorem InPhase.weekFromStart_eq (h : d.InPhase e) : e.weekFromStart = d.weekFromStart := by
  rw [weekFromStart, weekFromStart, h.day_eq]

theorem InPhase.weekFromEnd_eq (h : d.InPhase e) : e.weekFromEnd = d.weekFromEnd := by
  rw [weekFromEnd, weekFromEnd, h.day_eq, h.lastDayOfMonth_eq]

end Date

end Recurrence
