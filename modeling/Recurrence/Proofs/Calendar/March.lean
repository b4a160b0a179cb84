import Recurrence.Proofs.Calendar.Axis

/-!
# Years that begin in March

In a year that begins in March the leap day is the last one, and five months in a row always have
153 days. So the month and the day of the month can be read off a day number without knowing the
leap years and without a table of lengths. This reading is that of the calendar.
-/

namespace Recurrence

namespace Month

/-- The month so many months after a March. -/
def afterMarch (m : ℕ) : Month := (ofNumber? ((m + 2) % 12 + 1)).getD march

/-- The days from the first of March to the first day of the month so many months later. -/
def daysAfterMarch (m : ℕ) : ℕ := (153 * m + 2) / 5

/-- A day lies in the month that its share of 153 days in five months gives. -/
theorem daysAfterMarch_bounds (k : ℕ) :
    daysAfterMarch ((5 * k + 2) / 153) ≤ k ∧ k < daysAfterMarch ((5 * k + 2) / 153 + 1) := by
  simp only [daysAfterMarch]
  omega

theorem daysAfterMarch_succ (leap : Bool) {m : ℕ} (hm : m < 11) :
    daysAfterMarch (m + 1) = daysAfterMarch m + (afterMarch m).length leap := by
  have hall : ∀ leap : Bool, ∀ m < 11,
      daysAfterMarch (m + 1) = daysAfterMarch m + (afterMarch m).length leap := by decide
  exact hall leap m hm

/-- The months from March to December end the year in which they begin. -/
theorem offset_afterMarch (leap : Bool) {m : ℕ} (hm : m < 10) :
    (afterMarch m).offset leap + 306 = yearLength leap + daysAfterMarch m := by
  have hall : ∀ leap : Bool, ∀ m < 10,
      (afterMarch m).offset leap + 306 = yearLength leap + daysAfterMarch m := by decide
  exact hall leap m hm

end Month

/-- Behind the days of March to January there is February. -/
theorem yearLength_eq (leap : Bool) : yearLength leap = 337 + Month.february.length leap := by
  cases leap <;> rfl

namespace Civil

/-- The day so many days after the first of March in front of a year. January and February are the
eleventh and the twelfth month from there, and belong to the year itself. -/
def afterMarch (year : ℤ) (day : ℕ) : Civil :=
  let m := (5 * day + 2) / 153
  ⟨if m < 10 then year - 1 else year, Month.afterMarch m, day - Month.daysAfterMarch m + 1⟩

/-- The day with a number, read in years that begin in March. The first of March of the year 0 lies
306 days in front of day 0. -/
def ofMarch (number : ℤ) : Civil :=
  let place := yearAndDay (number + 306)
  afterMarch place.1 place.2

variable {y : ℤ} {k : ℕ}

theorem afterMarch_of_lt (h : k < 306) :
    (afterMarch y k).Exists ∧ (afterMarch y k).number = firstDayOf y + k - 306 := by
  have hm : (5 * k + 2) / 153 < 10 := by omega
  have hbounds := Month.daysAfterMarch_bounds k
  have hlength := Month.daysAfterMarch_succ (isLeapYear (y - 1)) (hm.trans (by decide))
  have hoffset := Month.offset_afterMarch (isLeapYear (y - 1)) hm
  -- The day lies in the year in front, which ends where the year `y` begins.
  have hyear := firstDayOf_succ (y - 1)
  rw [sub_add_cancel] at hyear
  simp only [afterMarch, if_pos hm, Exists, number]
  omega

theorem afterMarch_of_le (h : 306 ≤ k) (hk : k < yearLength (isLeapYear y)) :
    (afterMarch y k).Exists ∧ (afterMarch y k).number = firstDayOf y + k - 306 := by
  rcases lt_or_ge k 337 with hjanuary | hfebruary
  · have hm : (5 * k + 2) / 153 = 10 := by omega
    have hcivil : afterMarch y k = ⟨y, .january, k - 306 + 1⟩ := by
      simp only [afterMarch, hm]
      rfl
    have hoffset : Month.january.offset (isLeapYear y) = 0 := rfl
    rw [hcivil]
    simp only [Exists, number, hoffset, Month.length]
    omega
  · -- Only here does it matter whether the year is a leap year: the day may be its last.
    have hlength := yearLength_eq (isLeapYear y)
    have hshort : Month.february.length (isLeapYear y) ≤ 29 := Month.length_le_of_leap _ _
    have hm : (5 * k + 2) / 153 = 11 := by omega
    have hcivil : afterMarch y k = ⟨y, .february, k - 337 + 1⟩ := by
      simp only [afterMarch, hm]
      rfl
    have hoffset : Month.february.offset (isLeapYear y) = 31 := rfl
    rw [hcivil]
    simp only [Exists, number, hoffset]
    omega

/-- The calendar is read the same way by years that begin in March. -/
theorem ofNumber_eq_ofMarch (n : ℤ) : ofNumber n = ofMarch n := by
  have hyear := firstDayOf_add_yearAndDay (n + 306)
  have hday := yearAndDay_snd_lt (n + 306)
  have hread : (ofMarch n).Exists ∧ (ofMarch n).number = n := by
    rw [ofMarch]
    rcases lt_or_ge (yearAndDay (n + 306)).2 306 with h | h
    · obtain ⟨hexists, hnumber⟩ := afterMarch_of_lt (y := (yearAndDay (n + 306)).1) h
      exact ⟨hexists, by omega⟩
    · obtain ⟨hexists, hnumber⟩ := afterMarch_of_le h hday
      exact ⟨hexists, by omega⟩
  obtain ⟨hexists, hnumber⟩ := hread
  rw [← ofNumber_number hexists, hnumber]

end Civil

end Recurrence
