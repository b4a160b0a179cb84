import Mathlib
import Recurrence.Calendar.Date

/-!
# The axis of dates

Dates are linearly ordered by their numbers, and every number between those of two dates is that of
a date. The axis begins and ends with a whole year, so that a month which has one of its days on
the axis has all of them there: they are the dates that a shift within the month leads to.
-/

namespace Recurrence

namespace Civil

variable {c c' : Civil}

/-- The days of a year lie between its first day and that of the next year. -/
theorem firstDayOf_le_number (h : c.Exists) : firstDayOf c.year ≤ c.number := by
  have hday := h.1
  rw [number]
  omega

theorem number_lt_firstDayOf_succ (h : c.Exists) : c.number < firstDayOf (c.year + 1) := by
  have hday := h.2
  have hoffset := Month.offset_add_length_le (isLeapYear c.year) c.month
  rw [number, firstDayOf_succ]
  omega

/-- Within a month the numbers run with the days. -/
theorem number_eq_add (hyear : c'.year = c.year) (hmonth : c'.month = c.month) :
    c'.number = c.number + ((c'.day : ℤ) - c.day) := by
  rw [number, number, hyear, hmonth]
  omega

end Civil

namespace Date

instance : LinearOrder Date where
  le_refl d := Int.le_refl d.number
  le_trans _ _ _ := Int.le_trans
  lt_iff_le_not_ge d e := lt_iff_le_not_ge (a := d.number) (b := e.number)
  le_antisymm _ _ h h' := Date.ext (Int.le_antisymm h h')
  le_total d e := Int.le_total d.number e.number
  toDecidableLE := inferInstance

theorem number_injective : Function.Injective number := fun _ _ => Date.ext

theorem exists_number_eq {n : ℤ} (h : firstNumber ≤ n) (h' : n ≤ lastNumber) :
    ∃ d : Date, d.number = n := ⟨⟨n, h, h'⟩, rfl⟩

theorem firstDayOf_firstYear : firstDayOf (-262143) = firstNumber := by decide

theorem firstDayOf_lastYear_succ : firstDayOf (262142 + 1) = lastNumber + 1 := by decide

theorem firstYear_le (d : Date) : -262143 ≤ d.year := by
  by_contra! h
  have hmono := firstDayOf_mono (Int.add_one_le_of_lt h)
  have hlt := Civil.number_lt_firstDayOf_succ d.exists_civil
  rw [firstDayOf_firstYear] at hmono
  rw [number_civil] at hlt
  exact absurd (hlt.trans_le hmono) (not_lt_of_ge d.first_le)

theorem year_le_lastYear (d : Date) : d.year ≤ 262142 := by
  by_contra! h
  have hmono := firstDayOf_mono (Int.add_one_le_of_lt h)
  have hle := Civil.firstDayOf_le_number d.exists_civil
  rw [firstDayOf_lastYear_succ] at hmono
  rw [number_civil] at hle
  exact absurd (hmono.trans hle) (not_le_of_gt (Int.lt_add_one_of_le d.le_last))

/-- A day that exists in a year of the axis is a date. -/
theorem exists_civil_eq {c : Civil} (h : c.Exists) (hfirst : -262143 ≤ c.year)
    (hlast : c.year ≤ 262142) : ∃ d : Date, d.civil = c := by
  have hlow := (firstDayOf_mono hfirst).trans (Civil.firstDayOf_le_number h)
  have hhigh := (Civil.number_lt_firstDayOf_succ h).trans_le
    (firstDayOf_mono (Int.add_le_add_right hlast 1))
  rw [firstDayOf_firstYear] at hlow
  rw [firstDayOf_lastYear_succ] at hhigh
  obtain ⟨d, hd⟩ := exists_number_eq hlow (Int.le_of_lt_add_one hhigh)
  exact ⟨d, by rw [civil, hd, Civil.ofNumber_number h]⟩

-- Compared as functions: at one date, checking `d.day` against `d.civil.day` would compute
-- `d.civil`.
theorem year_eq (d : Date) : d.year = d.civil.year :=
  congrFun (show year = fun d => d.civil.year from rfl) d

theorem month_eq (d : Date) : d.month = d.civil.month :=
  congrFun (show month = fun d => d.civil.month from rfl) d

theorem day_eq (d : Date) : d.day = d.civil.day :=
  congrFun (show day = fun d => d.civil.day from rfl) d

theorem lastDayOfMonth_eq (d : Date) : d.lastDayOfMonth = d.month.length (isLeapYear d.year) := by
  rw [month_eq, year_eq]
  exact congrFun (show lastDayOfMonth =
    fun d => d.civil.month.length (isLeapYear d.civil.year) from rfl) d

theorem day_le (d : Date) : d.day ≤ 31 := by
  have hlast := d.day_le_lastDayOfMonth
  rw [d.lastDayOfMonth_eq] at hlast
  exact hlast.trans (Month.length_le _ _)

/-- Two dates of one month of one year. -/
def SameMonth (d e : Date) : Prop := e.year = d.year ∧ e.month = d.month

variable {d e : Date}

theorem SameMonth.number_eq (h : d.SameMonth e) : e.number = d.number + ((e.day : ℤ) - d.day) := by
  obtain ⟨hyear, hmonth⟩ := h
  rw [year_eq, year_eq] at hyear
  rw [month_eq, month_eq] at hmonth
  rw [← e.number_civil, ← d.number_civil, day_eq, day_eq]
  exact Civil.number_eq_add hyear hmonth

theorem SameMonth.lastDayOfMonth_eq (h : d.SameMonth e) :
    e.lastDayOfMonth = d.lastDayOfMonth := by
  rw [e.lastDayOfMonth_eq, d.lastDayOfMonth_eq, h.1, h.2]

theorem exists_sameMonth (d : Date) {j : ℕ} (h : 1 ≤ j) (h' : j ≤ d.lastDayOfMonth) :
    ∃ e : Date, d.SameMonth e ∧ e.day = j := by
  rw [lastDayOfMonth_eq] at h'
  obtain ⟨e, he⟩ := exists_civil_eq (c := ⟨d.year, d.month, j⟩) ⟨h, h'⟩ d.firstYear_le
    d.year_le_lastYear
  refine ⟨e, ⟨?_, ?_⟩, ?_⟩
  · rw [year_eq, he]
  · rw [month_eq, he]
  · rw [day_eq, he]

/-- The dates of a month are those that a shift within it leads to. -/
theorem sameMonth_iff :
    d.SameMonth e ↔ 1 ≤ (d.day : ℤ) + (e.number - d.number) ∧
      (d.day : ℤ) + (e.number - d.number) ≤ d.lastDayOfMonth := by
  constructor
  · intro h
    have hlow := e.one_le_day
    have hhigh := e.day_le_lastDayOfMonth
    rw [h.lastDayOfMonth_eq] at hhigh
    rw [h.number_eq]
    omega
  · rintro ⟨hlow, hhigh⟩
    obtain ⟨j, hj⟩ := Int.eq_ofNat_of_zero_le (Int.le_trans Int.one_nonneg hlow)
    rw [hj] at hlow hhigh
    obtain ⟨e', hsame, hday⟩ := d.exists_sameMonth (Int.ofNat_le.1 hlow) (Int.ofNat_le.1 hhigh)
    have hnumber := hsame.number_eq
    have heq : e' = e := number_injective (by omega)
    rwa [heq] at hsame

end Date

end Recurrence
