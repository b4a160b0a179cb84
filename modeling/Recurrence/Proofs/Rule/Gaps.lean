import Recurrence.Proofs.Calendar.Months
import Recurrence.Proofs.Rule.Ordinals

/-!
# Gaps between the dates of a monthly weekday

An ordinal takes seven days of a month, counted from its first or from its last day, and of these
the one on the weekday. When it counts up to four weeks, all seven days belong to the month, so that
every month has one date. From one month to the next the seven days move on by the length of a
month, which is 28 to 31 days. Hence the dates follow one another after 28 or 35 days, and none of
them is waited for longer than 34 days.
-/

namespace Recurrence.MonthlyWeekday

open Date (inMonth)

variable {w : Weekday} {k : ℤ} {d e : Date}

/-- The number of the first of the seven days of a month that an ordinal takes. -/
def blockStart (k : ℤ) (d : Date) : ℤ :=
  if 0 < k then d.monthStart + 7 * (k - 1) else d.monthEnd + 7 * k + 1

theorem includes_iff_block :
    includes ⟨w, k⟩ d = true ↔
      d.weekday = w ∧ blockStart k d ≤ d.number ∧ d.number < blockStart k d + 7 := by
  have hlow := d.one_le_day
  have hhigh := d.day_le_lastDayOfMonth
  rw [includes, Bool.and_eq_true, beq_iff_eq]
  apply and_congr_right
  intro _
  rw [weekMatches, blockStart]
  dsimp only
  split_ifs with hpos
  · rw [beq_iff_eq, Date.weekFromStart, Date.monthStart]
    omega
  · rw [beq_iff_eq, Date.weekFromEnd, Date.monthEnd]
    omega

theorem blockStart_of_sameMonth (h : d.SameMonth e) : blockStart k e = blockStart k d := by
  rw [blockStart, blockStart, h.monthStart_eq, h.monthEnd_eq]

/-- The block of an ordinal up to four lies within the month. -/
theorem sameMonth_of_block (hk : 1 ≤ |k|) (hk' : |k| ≤ 4) (hlow : blockStart k d ≤ e.number)
    (hhigh : e.number < blockStart k d + 7) : d.SameMonth e := by
  have hmonth := d.monthEnd_bounds
  rw [Date.sameMonth_iff_number]
  rw [blockStart] at hlow hhigh
  split_ifs at hlow hhigh with hpos
  · rw [abs_of_pos hpos] at hk hk'
    omega
  · rw [abs_of_nonpos (not_lt.1 hpos)] at hk hk'
    omega

/-- The blocks of two months are at least 28 days apart. -/
theorem blockStart_add_le (hlt : d < e) (h : ¬ d.SameMonth e) :
    blockStart k d + 28 ≤ blockStart k e := by
  have hapart := Date.monthEnd_lt_monthStart hlt h
  have hd := d.monthEnd_bounds
  have he := e.monthEnd_bounds
  rw [blockStart, blockStart]
  split_ifs <;> omega

/-- The block of the following month comes after 28 to 31 days. -/
theorem blockStart_of_following (h : e.monthStart = d.monthEnd + 1) :
    blockStart k d + 28 ≤ blockStart k e ∧ blockStart k e ≤ blockStart k d + 31 := by
  have hd := d.monthEnd_bounds
  have he := e.monthEnd_bounds
  rw [blockStart, blockStart]
  split_ifs <;> omega

theorem eq_of_sameMonth (hd : includes ⟨w, k⟩ d = true)
    (he : includes ⟨w, k⟩ e = true) (h : d.SameMonth e) : d = e := by
  obtain ⟨hweekday, hd⟩ := includes_iff_block.1 hd
  obtain ⟨hweekday', he⟩ := includes_iff_block.1 he
  rw [blockStart_of_sameMonth h] at he
  obtain ⟨q, hq⟩ := Date.weekday_eq_iff.1 (hweekday'.trans hweekday.symm)
  exact Date.number_injective (by omega)

theorem add_le_of_includes (hd : includes ⟨w, k⟩ d = true)
    (he : includes ⟨w, k⟩ e = true) (hlt : d < e) : d.number + 28 ≤ e.number := by
  have hapart : ¬ d.SameMonth e := fun h => hlt.ne (eq_of_sameMonth hd he h)
  have hblocks := blockStart_add_le (k := k) hlt hapart
  obtain ⟨hweekday, hd⟩ := includes_iff_block.1 hd
  obtain ⟨hweekday', he⟩ := includes_iff_block.1 he
  obtain ⟨q, hq⟩ := Date.weekday_eq_iff.1 (hweekday'.trans hweekday.symm)
  omega

/-- Of the dates 28 and 35 days after a date of the rule, the one that falls into the block of the
next month belongs to the rule again. -/
theorem exists_includes_next (hk : 1 ≤ |k|) (hk' : |k| ≤ 4) (hd : includes ⟨w, k⟩ d = true)
    (hlast : d.number + 35 ≤ lastNumber) :
    ∃ e, includes ⟨w, k⟩ e = true ∧ (e.number = d.number + 28 ∨ e.number = d.number + 35) := by
  obtain ⟨hweekday, hblock⟩ := includes_iff_block.1 hd
  have hstart := d.monthStart_le_number
  have hmonth := d.monthEnd_bounds
  have hend := d.number_le_monthEnd
  obtain ⟨f, hf⟩ := Date.exists_number_eq (n := d.monthEnd + 1) (d.first_le.trans (by omega))
    (le_trans (by omega) hlast)
  have hfollow := blockStart_of_following (k := k)
    (Date.monthStart_eq_of_behind (d := d) (e := f) (by omega) (by omega))
  have hstep : ∃ e : Date, (e.number = d.number + 28 ∨ e.number = d.number + 35) ∧
      blockStart k f ≤ e.number ∧ e.number < blockStart k f + 7 := by
    by_cases hshort : blockStart k f ≤ d.number + 28
    · obtain ⟨e, he⟩ := Date.exists_number_eq (n := d.number + 28) (d.first_le.trans (by omega))
        (le_trans (by omega) hlast)
      exact ⟨e, Or.inl he, by omega, by omega⟩
    · obtain ⟨e, he⟩ := Date.exists_number_eq (n := d.number + 35) (d.first_le.trans (by omega))
        hlast
      exact ⟨e, Or.inr he, by omega, by omega⟩
  obtain ⟨e, he, hlow, hhigh⟩ := hstep
  refine ⟨e, includes_iff_block.2 ⟨?_, ?_⟩, he⟩
  · rw [← hweekday, Date.weekday_eq_iff]
    omega
  · rw [blockStart_of_sameMonth (sameMonth_of_block hk hk' hlow hhigh)]
    exact ⟨hlow, hhigh⟩

/-- Where no date of the rule comes between two of them, they are 28 or 35 days apart. -/
theorem gap_of_next (hk : 1 ≤ |k|) (hk' : |k| ≤ 4) (hd : includes ⟨w, k⟩ d = true)
    (he : includes ⟨w, k⟩ e = true) (hlt : d < e)
    (hnext : ∀ x, includes ⟨w, k⟩ x = true → d < x → e ≤ x) :
    e.number - d.number = 28 ∨ e.number - d.number = 35 := by
  have hapart := add_le_of_includes hd he hlt
  have hweekday := (includes_iff_block.1 hd).1
  have hweekday' := (includes_iff_block.1 he).1
  obtain ⟨q, hq⟩ := Date.weekday_eq_iff.1 (hweekday'.trans hweekday.symm)
  by_cases hnear : e.number = d.number + 28
  · omega
  · obtain ⟨x, hx, hxd⟩ := exists_includes_next hk hk' hd (le_trans (by omega) e.le_last)
    have hle := Date.le_def.1 (hnext x hx (Date.lt_def.2 (by omega)))
    omega

theorem exists_includes_sameMonth (hk : 1 ≤ |k|) (hk' : |k| ≤ 4) (w : Weekday) (d : Date) :
    ∃ e, includes ⟨w, k⟩ e = true ∧ d.SameMonth e := by
  obtain ⟨x, hx⟩ := Date.exists_mem_inMonth d.firstYear_le d.year_le_lastYear d.month w
  have hfour := (Date.ncard_inMonth_of_mem hx).1
  have hfits : k.natAbs ≤ (inMonth d.year d.month w).ncard := by
    rw [Int.abs_eq_natAbs] at hk'
    omega
  obtain ⟨e, ⟨hsame, he⟩, -⟩ := existsUnique_includes (abs_pos.1 hk) hfits
  exact ⟨e, he, hsame⟩

/-- Any 35 days in a row hold a date of the rule. -/
theorem exists_includes_within (hk : 1 ≤ |k|) (hk' : |k| ≤ 4) (w : Weekday)
    (hlast : d.number + 34 ≤ lastNumber) :
    ∃ e, includes ⟨w, k⟩ e = true ∧ d ≤ e ∧ e.number ≤ d.number + 34 := by
  obtain ⟨x, hx, hsame⟩ := exists_includes_sameMonth hk hk' w d
  have hmonth := d.monthEnd_bounds
  have hstart := d.monthStart_le_number
  have hbounds := Date.sameMonth_iff_number.1 hsame
  by_cases hle : d ≤ x
  · exact ⟨x, hx, hle, by omega⟩
  · have hlt : x.number < d.number := Date.lt_def.1 (not_le.1 hle)
    obtain ⟨e, he, hxe⟩ := exists_includes_next hk hk' hx (by omega)
    refine ⟨e, he, ?_, by omega⟩
    -- Between `x` and `d` there are only dates of their month, which has no other date of the rule.
    by_contra hbefore
    have hed : e.number < d.number := Date.lt_def.1 (not_le.1 hbefore)
    have hend := d.number_le_monthEnd
    have hxe' : x.SameMonth e := by
      rw [Date.sameMonth_iff_number, hsame.monthStart_eq, hsame.monthEnd_eq]
      omega
    have heq := eq_of_sameMonth hx he hxe'
    rw [heq] at hxe
    omega

end Recurrence.MonthlyWeekday
