import Recurrence.Proofs.Calendar.DateTexts
import Recurrence.Proofs.Calendar.MonthDays
import Recurrence.Proofs.Calendar.Names

/-!
# Written days are read back

A month-day in two digits each and a date are read back from the text that is written for them. For
a date this holds on the whole axis: a year in front of the year 0 or behind the year 9999 is
written with a sign and read with any number of digits, and the other years have exactly the four
digits that are read without a sign.
-/

namespace Recurrence

open Text

namespace MonthDay

/-- Month and day with two digits each. -/
def written (month : Month) (day : ℕ) : String :=
  padded 2 month.number ++ "-" ++ padded 2 day

theorem toList_written (m : Month) (j : ℕ) :
    (written m j).toList = (padded 2 m.number).toList ++ '-' :: (padded 2 j).toList := by
  simp [written]

theorem isPart_padded {width n : ℕ} (h : n < 2 ^ 32) : IsPart (padded width n).toList n := by
  have hcounts := Counts.plain (isDigits_padded width n)
  rw [ofDigitChars_padded] at hcounts
  exact ⟨_, hcounts, Padded.refl _, h⟩

theorem read_written {m : Month} {j : ℕ} (h : 1 ≤ j) (h' : j ≤ m.length true) :
    read (written m j) = .ok ⟨m, j, h, h'⟩ := by
  have hmonth := m.number_le_twelve
  have hday := m.length_le true
  have hwrites : Writes (written m j) m.number j :=
    ⟨_, _, toList_written m j, isPart_padded (by omega), isPart_padded (by omega)⟩
  rw [read_of_writes hwrites, ofNumbers_number, ofMonth_eq_ok h h']

end MonthDay

namespace Date

theorem toList_minus : "-".toList = ['-'] := by simp

theorem toList_plus : "+".toList = ['+'] := by simp

/-- The text of a day, whether or not it is that of a date. -/
def civilText (c : Civil) : List Char :=
  (yearText c.year).toList ++
    '-' :: ((padded 2 c.month.number).toList ++ '-' :: (padded 2 c.day).toList)

theorem toList_eq_civilText (c : Civil) : (yearText c.year ++ "-" ++ padded 2 c.month.number ++
    "-" ++ padded 2 c.day).toList = civilText c := by
  simp [civilText]

-- Compared as functions, for the reason given at `year_eq`.
theorem display_eq : display = fun d => yearText d.civil.year ++ "-" ++
    padded 2 d.civil.month.number ++ "-" ++ padded 2 d.civil.day := rfl

theorem toList_display (d : Date) : d.display.toList = civilText d.civil := by
  rw [display_eq]
  exact toList_eq_civilText d.civil

/-- The sign in front of a year decides how many digits it may have. -/
theorem writesYear_yearText (y : ℤ) : WritesYear (yearText y).toList y := by
  have hdigits := isDigits_padded 4 y.natAbs
  have hvalue := ofDigitChars_padded 4 y.natAbs
  unfold yearText
  split_ifs with hneg hlong
  · have hyear := WritesYear.minus hdigits
    have hy : -(y.natAbs : ℤ) = y := by omega
    rw [hvalue, hy] at hyear
    rwa [String.toList_append, toList_minus, List.singleton_append]
  · have hyear := WritesYear.plus hdigits
    have hy : (y.natAbs : ℤ) = y := by omega
    rw [hvalue, hy] at hyear
    rwa [String.toList_append, toList_plus, List.singleton_append]
  · have hlength : (padded 4 y.natAbs).toList.length = 4 := length_padded (by decide) (by omega)
    have hyear := WritesYear.plain hdigits hlength.le
    have hy : (y.natAbs : ℤ) = y := by omega
    rwa [hvalue, hy] at hyear

theorem writesPart_padded {n : ℕ} (hn : n < 100) : WritesPart (padded 2 n).toList n := by
  have hlength : (padded 2 n).toList.length = 2 := length_padded (by decide) hn
  have hpart := WritesPart.blanks isBlanks_nil (isDigits_padded 2 n) hlength.le
  rwa [ofDigitChars_padded] at hpart

theorem writesCivil_civilText {c : Civil} (h : c.Exists) :
    WritesCivil (civilText c) c.year c.month.number c.day := by
  have hmonth := c.month.number_le_twelve
  have hday := h.2.trans (Month.length_le _ _)
  exact ⟨_, _, _, writesYear_yearText _, writesPart_padded (by omega), writesPart_padded (by omega),
    rfl⟩

theorem writesCivil_display (d : Date) :
    WritesCivil d.display.toList d.year d.month.number d.day := by
  rw [toList_display, year_eq, month_eq, day_eq]
  exact writesCivil_civilText d.exists_civil

/-- Every date is read back from what is written for it. -/
theorem read_display (d : Date) : read d.display = .ok d :=
  read_eq_ok_iff.2 ⟨_, d.writesCivil_display, Padded.refl _⟩

end Date

end Recurrence
