import Recurrence.Calendar.Month

/-!
# Days by year, month and day

The days of the Gregorian calendar are numbered from 1 January of year 1, which is day 0, backwards
as well as forwards. `Civil.ofNumber` reads year, month and day off a number and `Civil.number`
goes back. The two undo each other on the days that exist, so every number belongs to one day and
every existing day has one number.
-/

namespace Recurrence

/-- A year, a month and a day of the month, whether or not the month has that day. -/
@[ext] structure Civil where
  year : Int
  month : Month
  day : Nat
  deriving DecidableEq

def yearLength (leap : Bool) : Nat := if leap then 366 else 365

/-- The number of the first day of a year. -/
def firstDayOf (year : Int) : Int :=
  365 * (year - 1) + (year - 1) / 4 - (year - 1) / 100 + (year - 1) / 400

/-- The year of a period of 400 years that holds a day of the period, and the days of that year in
front of it. Every century but the last has 36524 days, in a century every four years but perhaps
the last have 1461 days, and in these four years every year but perhaps the last has 365 days. -/
@[inline] def yearInPeriod (day : Nat) : Nat × Nat :=
  let century := min (day / 36524) 3
  let inCentury := day - century * 36524
  let four := inCentury / 1461
  let inFour := inCentury - four * 1461
  let single := min (inFour / 365) 3
  (century * 100 + four * 4 + single, inFour - single * 365)

/-- The year that holds a day number, and the days of that year in front of it. The calendar
repeats after 400 years, or 146097 days. -/
@[inline] def yearAndDay (number : Int) : Int × Nat :=
  let (year, day) := yearInPeriod (number % 146097).toNat
  (number / 146097 * 400 + year + 1, day)

namespace Month

/-- The month and the day of the month that lie `n` days after the start of the first month. -/
def locate (leap : Bool) : List Month → Nat → Month × Nat
  | [], n => (december, n + 1)
  | m :: ms, n => if n < m.length leap then (m, n + 1) else locate leap ms (n - m.length leap)

/-- The days of several months together. -/
def total (leap : Bool) : List Month → Nat
  | [] => 0
  | m :: ms => m.length leap + total leap ms

/-- The days of the year in front of a month. -/
def offset (leap : Bool) (m : Month) : Nat := total leap (all.takeWhile fun k => k != m)

end Month

namespace Civil

/-- The month has the day in that year. -/
def Exists (c : Civil) : Prop := 1 ≤ c.day ∧ c.day ≤ c.month.length (isLeapYear c.year)

instance (c : Civil) : Decidable c.Exists := inferInstanceAs (Decidable (_ ∧ _))

def ofNumber (number : Int) : Civil :=
  let (year, day) := yearAndDay number
  let place := Month.locate (isLeapYear year) Month.all day
  ⟨year, place.1, place.2⟩

def number (c : Civil) : Int :=
  firstDayOf c.year + (c.month.offset (isLeapYear c.year) : Int) + ((c.day : Int) - 1)

end Civil

theorem isLeapYear_iff (y : Int) :
    isLeapYear y = true ↔ y % 4 = 0 ∧ (y % 100 ≠ 0 ∨ y % 400 = 0) := by
  simp only [isLeapYear, Bool.or_eq_true, Bool.and_eq_true, beq_iff_eq, bne_iff_ne]
  omega

theorem firstDayOf_succ (y : Int) :
    firstDayOf (y + 1) = firstDayOf y + yearLength (isLeapYear y) := by
  simp only [firstDayOf, yearLength]
  split <;> rename_i hleap <;> rw [isLeapYear_iff] at hleap <;> omega

theorem firstDayOf_mono {y z : Int} (h : y ≤ z) : firstDayOf y ≤ firstDayOf z := by
  simp only [firstDayOf]
  omega

/-- The days of a period in front of a year, by centuries, groups of four years and single years. -/
theorem daysInPeriod_eq {c q s : Nat} (hq : q ≤ 24) (hs : s ≤ 3) :
    365 * (c * 100 + q * 4 + s) + (c * 100 + q * 4 + s) / 4 =
      c * 36524 + q * 1461 + s * 365 + (c * 100 + q * 4 + s) / 100 := by
  have h₄ : (c * 100 + q * 4 + s) / 4 = c * 25 + q := by omega
  have h₁₀₀ : (c * 100 + q * 4 + s) / 100 = c := by omega
  rw [h₄, h₁₀₀]
  omega

theorem exists_yearInPeriod_eq {r : Nat} (h : r < 146097) :
    ∃ c q s d, c ≤ 3 ∧ q ≤ 24 ∧ s ≤ 3 ∧ r = c * 36524 + q * 1461 + s * 365 + d ∧
      (d < 365 ∨ d = 365 ∧ s = 3 ∧ (q < 24 ∨ c = 3)) ∧
        yearInPeriod r = (c * 100 + q * 4 + s, d) := by
  refine ⟨_, _, _, _, Nat.min_le_right .., ?_, Nat.min_le_right .., ?_, ?_, rfl⟩ <;> omega

theorem firstDayOf_period (p : Int) {k : Nat} (h : k < 400) :
    firstDayOf (p * 400 + k + 1) = p * 146097 + 365 * k + (k / 4 : Nat) - (k / 100 : Nat) := by
  simp only [firstDayOf]
  omega

theorem firstDayOf_add_yearAndDay (n : Int) :
    firstDayOf (yearAndDay n).1 + (yearAndDay n).2 = n := by
  obtain ⟨c, q, s, d, hc, hq, hs, hr, -, hy⟩ :=
    exists_yearInPeriod_eq (r := (n % 146097).toNat) (by omega)
  have hdays := daysInPeriod_eq (c := c) hq hs
  simp only [yearAndDay, hy]
  rw [firstDayOf_period _ (by omega)]
  omega

theorem yearAndDay_snd_lt (n : Int) :
    (yearAndDay n).2 < yearLength (isLeapYear (yearAndDay n).1) := by
  obtain ⟨c, q, s, d, hc, hq, hs, -, hd, hy⟩ :=
    exists_yearInPeriod_eq (r := (n % 146097).toNat) (by omega)
  simp only [yearAndDay, hy, yearLength]
  split <;> rename_i hleap <;> rw [isLeapYear_iff] at hleap <;> omega

theorem lt_firstDayOf_succ (n : Int) : n < firstDayOf ((yearAndDay n).1 + 1) := by
  have h₁ := firstDayOf_add_yearAndDay n
  have h₂ := yearAndDay_snd_lt n
  rw [firstDayOf_succ]
  omega

/-- A year and a day in it are the only ones with their number. -/
theorem yearAndDay_eq {y : Int} {k : Nat} (h : firstDayOf y + k < firstDayOf (y + 1)) :
    yearAndDay (firstDayOf y + k) = (y, k) := by
  have h₁ := firstDayOf_add_yearAndDay (firstDayOf y + k)
  have h₂ := lt_firstDayOf_succ (firstDayOf y + k)
  have hy : (yearAndDay (firstDayOf y + k)).1 = y := by
    rcases Int.lt_trichotomy (yearAndDay (firstDayOf y + k)).1 y with hlt | heq | hgt
    · have hle := firstDayOf_mono (Int.add_one_le_of_lt hlt)
      omega
    · exact heq
    · have hle := firstDayOf_mono (Int.add_one_le_of_lt hgt)
      omega
  rw [hy] at h₁
  exact Prod.ext hy (by omega)

namespace Month

/-- The days of the months in front of a month and some days of its own lead to that month. -/
theorem locate_total_add {leap : Bool} {m : Month} {k : Nat} (h : k < m.length leap)
    (before after : List Month) :
    locate leap (before ++ m :: after) (total leap before + k) = (m, k + 1) := by
  induction before with
  | nil => simp [locate, total, h]
  | cons b bs ih =>
    have hb : ¬ total leap (b :: bs) + k < b.length leap := by
      rw [total]
      omega
    have hsub : total leap (b :: bs) + k - b.length leap = total leap bs + k := by
      rw [total]
      omega
    rw [List.cons_append, locate, if_neg hb, hsub, ih]

theorem all_eq_append (m : Month) :
    ∃ after, all = all.takeWhile (fun k => k != m) ++ m :: after := by
  cases m <;> exact ⟨_, rfl⟩

theorem locate_offset_add {leap : Bool} {m : Month} {k : Nat} (h : k < m.length leap) :
    locate leap all (m.offset leap + k) = (m, k + 1) := by
  obtain ⟨after, ha⟩ := all_eq_append m
  have hl := locate_total_add h (all.takeWhile fun k => k != m) after
  rwa [← ha] at hl

/-- Within the length of a list of months, every number of days ends in one of them. -/
theorem exists_total_add {leap : Bool} {ms : List Month} {n : Nat} (h : n < total leap ms) :
    ∃ before m after k, ms = before ++ m :: after ∧ k < m.length leap ∧
      n = total leap before + k := by
  induction ms generalizing n with
  | nil => simp [total] at h
  | cons b bs ih =>
    by_cases hb : n < b.length leap
    · exact ⟨[], b, bs, n, rfl, hb, by simp [total]⟩
    · rw [total] at h
      obtain ⟨before, m, after, k, rfl, hk, hn⟩ := ih (n := n - b.length leap) (by omega)
      refine ⟨b :: before, m, after, k, rfl, hk, ?_⟩
      rw [total]
      omega

theorem total_all (leap : Bool) : total leap all = yearLength leap := by
  cases leap <;> rfl

theorem offset_add_length_le (leap : Bool) (m : Month) :
    m.offset leap + m.length leap ≤ yearLength leap := by
  cases leap <;> cases m <;> decide

theorem exists_offset_add (leap : Bool) {n : Nat} (h : n < yearLength leap) :
    ∃ (m : Month) (k : Nat), k < m.length leap ∧ n = m.offset leap + k := by
  rw [← total_all] at h
  obtain ⟨before, m, after, k, hall, hk, hn⟩ := exists_total_add h
  refine ⟨m, k, hk, ?_⟩
  have hnodup : (before ++ m :: after).Nodup := hall ▸ (by decide : all.Nodup)
  have hm : ∀ b ∈ before, (b != m) = true := by
    intro b hb
    have hne := (List.nodup_append.1 hnodup).2.2 b hb m (List.mem_cons_self ..)
    exact bne_iff_ne.2 hne
  rw [hn, offset, hall, List.takeWhile_append_of_pos hm, List.takeWhile_cons]
  simp

end Month

namespace Civil

theorem number_ofNumber (n : Int) : (ofNumber n).number = n := by
  have h := firstDayOf_add_yearAndDay n
  obtain ⟨m, k, hk, hn⟩ := Month.exists_offset_add _ (yearAndDay_snd_lt n)
  simp only [number, ofNumber, hn, Month.locate_offset_add hk]
  omega

theorem exists_ofNumber (n : Int) : (ofNumber n).Exists := by
  obtain ⟨m, k, hk, hn⟩ := Month.exists_offset_add _ (yearAndDay_snd_lt n)
  simp only [Exists, ofNumber, hn, Month.locate_offset_add hk]
  omega

theorem ofNumber_number {c : Civil} (h : c.Exists) : ofNumber c.number = c := by
  obtain ⟨h₁, h₂⟩ := h
  have hk : c.day - 1 < c.month.length (isLeapYear c.year) := by omega
  have hlen := Month.offset_add_length_le (isLeapYear c.year) c.month
  have hnumber : c.number = firstDayOf c.year +
      (c.month.offset (isLeapYear c.year) + (c.day - 1) : Nat) := by
    rw [number]
    omega
  have hyear : yearAndDay c.number =
      (c.year, c.month.offset (isLeapYear c.year) + (c.day - 1)) := by
    rw [hnumber]
    apply yearAndDay_eq
    rw [firstDayOf_succ]
    omega
  simp only [ofNumber, hyear, Month.locate_offset_add hk]
  ext
  · rfl
  · rfl
  · exact Nat.sub_add_cancel h₁

end Civil

end Recurrence
