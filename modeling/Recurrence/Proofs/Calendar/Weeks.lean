import Recurrence.Proofs.Calendar.Axis

/-!
# Weekdays and the weeks of a month

Two dates fall on one weekday exactly when a whole number of weeks lies between them. Hence the
dates of a month on one weekday stand seven days apart, and the week of a date counts those of them
up to the date, or from the date on when the weeks are counted from the end of the month.
-/

namespace Recurrence

theorem Weekday.ofIndex_inj {m n : ℕ} (hm : m < 7) (hn : n < 7) :
    ofIndex m = ofIndex n ↔ m = n := by
  constructor
  · intro h
    have hindex := congrArg index h
    rwa [index_ofIndex hm, index_ofIndex hn] at hindex
  · rintro rfl
    rfl

namespace Date

variable {d e : Date}

theorem weekday_eq_iff : e.weekday = d.weekday ↔ (7 : ℤ) ∣ e.number - d.number := by
  rw [weekday, weekday, Weekday.ofIndex_inj (by omega) (by omega)]
  omega

theorem seven_mul_dvd_iff {n : ℕ} :
    (7 : ℤ) * n ∣ e.number - d.number ↔
      e.weekday = d.weekday ∧ (n : ℤ) ∣ d.weeksBetween e := by
  constructor
  · intro h
    obtain ⟨q, hq⟩ := (Int.dvd_mul_right 7 (n : ℤ)).trans h
    rw [hq, Int.mul_dvd_mul_iff_left (by decide)] at h
    refine ⟨weekday_eq_iff.2 ⟨q, hq⟩, ?_⟩
    rwa [weeksBetween, hq, Int.mul_tdiv_cancel_left q (by decide)]
  · rintro ⟨hweekday, h⟩
    obtain ⟨q, hq⟩ := weekday_eq_iff.1 hweekday
    rw [weeksBetween, hq, Int.mul_tdiv_cancel_left q (by decide)] at h
    rw [hq]
    exact Int.mul_dvd_mul_left 7 h

/-- So many dates stand in equal steps from a date. -/
theorem ncard_of_steps (d : Date) {step : ℤ} (hstep : step ≠ 0) {S : Set Date} {n : ℕ}
    (hexists : ∀ i ≤ n, ∃ e : Date, e.number = d.number + step * i)
    (hmem : ∀ e, e ∈ S ↔ ∃ i ≤ n, e.number = d.number + step * i) : S.ncard = n + 1 := by
  have himage : number '' S = (fun i : ℕ => d.number + step * i) '' Set.Iic n := by
    ext x
    constructor
    · rintro ⟨e, he, rfl⟩
      obtain ⟨i, hi, hnumber⟩ := (hmem e).1 he
      exact ⟨i, hi, hnumber.symm⟩
    · rintro ⟨i, hi, rfl⟩
      obtain ⟨e, he⟩ := hexists i hi
      exact ⟨e, (hmem e).2 ⟨i, hi, he⟩, he⟩
  have hinjective : Function.Injective fun i : ℕ => d.number + step * i := by
    intro i j hij
    have hmul : step * (i : ℤ) = step * j := Int.add_left_cancel hij
    exact_mod_cast Int.eq_of_mul_eq_mul_left hstep hmul
  calc
    S.ncard = (number '' S).ncard := (Set.ncard_image_of_injective S number_injective).symm
    _ = (Set.Iic n).ncard := by rw [himage, Set.ncard_image_of_injective _ hinjective]
    _ = n + 1 := by rw [← Finset.coe_Iic, Set.ncard_coe_finset, Nat.card_Iic]

/-- The dates of the month of a date that fall on a weekday. -/
def monthOn (d : Date) (w : Weekday) : Set Date := {e | d.SameMonth e ∧ e.weekday = w}

theorem mem_monthOn {w : Weekday} : e ∈ d.monthOn w ↔ d.SameMonth e ∧ e.weekday = w := Iff.rfl

theorem mem_monthOn_weekday :
    e ∈ d.monthOn d.weekday ↔ 1 ≤ (d.day : ℤ) + (e.number - d.number) ∧
      (d.day : ℤ) + (e.number - d.number) ≤ d.lastDayOfMonth ∧
        (7 : ℤ) ∣ e.number - d.number := by
  rw [mem_monthOn, sameMonth_iff, weekday_eq_iff, and_assoc]

theorem exists_number_eq_of_month {n : ℤ} (h : 1 ≤ (d.day : ℤ) + (n - d.number))
    (h' : (d.day : ℤ) + (n - d.number) ≤ d.lastDayOfMonth) : ∃ e : Date, e.number = n := by
  obtain ⟨j, hj⟩ := Int.eq_ofNat_of_zero_le (Int.le_trans Int.one_nonneg h)
  rw [hj] at h h'
  obtain ⟨e, hsame, hday⟩ := d.exists_sameMonth (Int.ofNat_le.1 h) (Int.ofNat_le.1 h')
  refine ⟨e, ?_⟩
  rw [hsame.number_eq, hday]
  omega

theorem ncard_monthOn_inter_Iic (d : Date) :
    (d.monthOn d.weekday ∩ Set.Iic d).ncard = d.weekFromStart := by
  have hlow := d.one_le_day
  have hhigh := d.day_le_lastDayOfMonth
  rw [weekFromStart]
  apply ncard_of_steps d (by decide : (-7 : ℤ) ≠ 0)
  · intro i hi
    apply exists_number_eq_of_month (d := d) <;> omega
  · intro e
    rw [Set.mem_inter_iff, mem_monthOn_weekday, Set.mem_Iic, le_def]
    constructor
    · rintro ⟨⟨h₁, -, q, hq⟩, hle⟩
      exact ⟨(-q).toNat, by omega, by omega⟩
    · rintro ⟨i, hi, hnumber⟩
      omega

theorem ncard_monthOn_inter_Ici (d : Date) :
    (d.monthOn d.weekday ∩ Set.Ici d).ncard = d.weekFromEnd := by
  have hlow := d.one_le_day
  have hhigh := d.day_le_lastDayOfMonth
  rw [weekFromEnd]
  apply ncard_of_steps d (by decide : (7 : ℤ) ≠ 0)
  · intro i hi
    apply exists_number_eq_of_month (d := d) <;> omega
  · intro e
    rw [Set.mem_inter_iff, mem_monthOn_weekday, Set.mem_Ici, le_def]
    constructor
    · rintro ⟨⟨-, h₂, q, hq⟩, hle⟩
      exact ⟨q.toNat, by omega, by omega⟩
    · rintro ⟨i, hi, hnumber⟩
      omega

end Date

end Recurrence
