import Recurrence.Proofs.Calendar.Axis

/-!
# Months one after the other

The dates of a month are those from its first to its last day, so two months lie apart, the earlier
one wholly before the later one. No number lies between the last day of a month and the first day of
the next one, and the next month goes on for 28 days at least.
-/

namespace Recurrence.Date

/-- The number of the first day of the month of a date. -/
def monthStart (d : Date) : ℤ := d.number - d.day + 1

/-- The number of the last day of the month of a date. -/
def monthEnd (d : Date) : ℤ := d.number - d.day + d.lastDayOfMonth

variable {d e : Date}

theorem monthStart_le_number (d : Date) : d.monthStart ≤ d.number := by
  have hday := d.one_le_day
  rw [monthStart]
  omega

theorem number_le_monthEnd (d : Date) : d.number ≤ d.monthEnd := by
  have hday := d.day_le_lastDayOfMonth
  rw [monthEnd]
  omega

/-- A month has 28 to 31 days. -/
theorem monthEnd_bounds (d : Date) :
    d.monthStart + 27 ≤ d.monthEnd ∧ d.monthEnd ≤ d.monthStart + 30 := by
  have hshort := Month.length_pos (isLeapYear d.year) d.month
  have hlong := Month.length_le (isLeapYear d.year) d.month
  rw [← d.lastDayOfMonth_eq] at hshort hlong
  rw [monthStart, monthEnd]
  omega

theorem sameMonth_iff_number :
    d.SameMonth e ↔ d.monthStart ≤ e.number ∧ e.number ≤ d.monthEnd := by
  rw [sameMonth_iff, monthStart, monthEnd]
  omega

theorem SameMonth.monthStart_eq (h : d.SameMonth e) : e.monthStart = d.monthStart := by
  have hnumber := h.number_eq
  rw [monthStart, monthStart]
  omega

theorem SameMonth.monthEnd_eq (h : d.SameMonth e) : e.monthEnd = d.monthEnd := by
  have hnumber := h.number_eq
  rw [monthEnd, monthEnd, h.lastDayOfMonth_eq]
  omega

/-- Of two months the earlier one is over before the later one begins. -/
theorem monthEnd_lt_monthStart (hlt : d < e) (h : ¬ d.SameMonth e) :
    d.monthEnd < e.monthStart := by
  rw [lt_def] at hlt
  by_contra! hle
  have hd := d.number_le_monthEnd
  have he := e.monthStart_le_number
  have he' := e.number_le_monthEnd
  -- A date of both months: the first day of the later one, unless `d` comes after that day.
  obtain ⟨f, hf⟩ := exists_number_eq (n := max d.number e.monthStart)
    (d.first_le.trans (le_max_left _ _)) ((max_le hlt.le he).trans e.le_last)
  have hdf : d.SameMonth f := by
    have hstart := d.monthStart_le_number
    rw [sameMonth_iff_number]
    omega
  have hef : e.SameMonth f := by
    rw [sameMonth_iff_number]
    omega
  exact h ⟨hef.1.symm.trans hdf.1, hef.2.symm.trans hdf.2⟩

/-- The 28 days behind a month belong to one month, which begins right behind it. -/
theorem monthStart_eq_of_behind (h : d.monthEnd < e.number) (h' : e.number ≤ d.monthEnd + 28) :
    e.monthStart = d.monthEnd + 1 := by
  have hd := d.number_le_monthEnd
  obtain ⟨f, hf⟩ := exists_number_eq (n := d.monthEnd + 1)
    (d.first_le.trans (by omega)) ((Int.add_one_le_of_lt h).trans e.le_last)
  have hapart : ¬ d.SameMonth f := by
    rw [sameMonth_iff_number]
    omega
  have hlow := monthEnd_lt_monthStart (lt_def.2 (by omega)) hapart
  have hhigh := f.monthStart_le_number
  have hfollow := f.monthEnd_bounds
  have hsame : f.SameMonth e := sameMonth_iff_number.2 ⟨by omega, by omega⟩
  rw [hsame.monthStart_eq]
  omega

end Recurrence.Date
