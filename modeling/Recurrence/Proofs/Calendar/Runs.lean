import Recurrence.Proofs.Calendar.Ranks

/-!
# Runs of dates

Years follow one another on the axis, and within a year the dates are ordered by month and then by
day. A set of dates that leaves out none between two of its own is a run: it has a first and a last
date and all dates from the one to the other, or it is empty.
-/

namespace Recurrence

theorem Month.offset_add_length_le_offset (leap : Bool) {m m' : Month}
    (h : m.number < m'.number) : m.offset leap + m.length leap ≤ m'.offset leap := by
  have hall : ∀ leap : Bool, ∀ m ∈ all, ∀ m' ∈ all, m.number < m'.number →
      m.offset leap + m.length leap ≤ m'.offset leap := by decide
  exact hall leap m m.mem_all m' m'.mem_all h

/-- Within a year every day of a month is behind all days of the earlier months. -/
theorem Civil.number_lt_of_month_lt {c c' : Civil} (h : c.Exists) (h' : c'.Exists)
    (hyear : c'.year = c.year) (hmonth : c.month.number < c'.month.number) :
    c.number < c'.number := by
  have hoffset := Month.offset_add_length_le_offset (isLeapYear c.year) hmonth
  have hlast := h.2
  have hfirst := h'.1
  rw [number, number, hyear]
  omega

namespace Date

variable {d e : Date} {S : Set Date}

theorem year_le_year (h : d ≤ e) : d.year ≤ e.year := by
  by_contra! hlt
  have hmono := firstDayOf_mono (Int.add_one_le_of_lt hlt)
  have hlow := Civil.firstDayOf_le_number d.exists_civil
  have hhigh := Civil.number_lt_firstDayOf_succ e.exists_civil
  rw [number_civil, ← year_eq] at hlow hhigh
  rw [le_def] at h
  omega

theorem number_lt_of_month_lt (hyear : e.year = d.year) (hmonth : d.month.number < e.month.number) :
    d.number < e.number := by
  rw [year_eq, year_eq] at hyear
  rw [month_eq, month_eq] at hmonth
  rw [← d.number_civil, ← e.number_civil]
  exact Civil.number_lt_of_month_lt d.exists_civil e.exists_civil hyear hmonth

theorem le_iff_of_year_eq (hyear : e.year = d.year) :
    d ≤ e ↔ d.month.number < e.month.number ∨
      d.month.number = e.month.number ∧ d.day ≤ e.day := by
  rw [le_def]
  rcases lt_trichotomy d.month.number e.month.number with hmonth | hmonth | hmonth
  · have hlt := number_lt_of_month_lt hyear hmonth
    omega
  · have hsame : d.SameMonth e := ⟨hyear, Month.number_injective hmonth.symm⟩
    have hnumber := hsame.number_eq
    omega
  · have hlt := number_lt_of_month_lt hyear.symm hmonth
    omega

/-- The dates from a first one to a last one, or none at all. -/
def IsRun (S : Set Date) : Prop := S = ∅ ∨ ∃ first last, first ≤ last ∧ S = Set.Icc first last

theorem isRun_of_ordConnected (h : S.OrdConnected) : IsRun S := by
  rcases S.eq_empty_or_nonempty with hempty | hne
  · exact Or.inl hempty
  · obtain ⟨first, hfirst, hlow⟩ := S.exists_min_image id S.toFinite hne
    obtain ⟨last, hlast, hhigh⟩ := S.exists_max_image id S.toFinite hne
    refine Or.inr ⟨first, last, hlow last hlast, Set.Subset.antisymm ?_ ?_⟩
    · exact fun d hd => ⟨hlow d hd, hhigh d hd⟩
    · exact h.out hfirst hlast

end Date

end Recurrence
