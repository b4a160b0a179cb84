import Recurrence.Proofs.Calendar.Weeks

/-!
# Ranks in a month

In a finite set of an ordered type every place is taken by exactly one element, whether the elements
below it are counted or those above it. The dates of a month on one weekday are such a set, and a
month of the axis has four or five of them.
-/

namespace Recurrence

section Ranks

variable {α : Type} [LinearOrder α] [Finite α] {s : Set α} {a : α}

theorem ncard_inter_Iic (ha : a ∈ s) : (s ∩ Set.Iic a).ncard = (s ∩ Set.Iio a).ncard + 1 := by
  rw [← Set.Iio_insert, Set.inter_insert_of_mem ha,
    Set.ncard_insert_of_notMem fun h => lt_irrefl a h.2]

theorem ncard_inter_Ici (ha : a ∈ s) : (s ∩ Set.Ici a).ncard = (s ∩ Set.Ioi a).ncard + 1 := by
  rw [← Set.Ioi_insert, Set.inter_insert_of_mem ha,
    Set.ncard_insert_of_notMem fun h => lt_irrefl a h.2]

theorem ncard_eq_below_add_above (ha : a ∈ s) :
    s.ncard = (s ∩ Set.Iio a).ncard + (s ∩ Set.Ioi a).ncard + 1 := by
  have hsplit := Set.ncard_inter_add_ncard_sdiff_eq_ncard s (Set.Iic a)
  rw [Set.sdiff_eq, Set.compl_Iic, ncard_inter_Iic ha] at hsplit
  omega

theorem strictMonoOn_ncard_inter_Iio (s : Set α) :
    StrictMonoOn (fun a => (s ∩ Set.Iio a).ncard) s := by
  intro a ha b _ hab
  refine Set.ncard_lt_ncard ?_ (Set.toFinite _)
  rw [Set.ssubset_iff_of_subset (Set.inter_subset_inter_right s (Set.Iio_subset_Iio hab.le))]
  exact ⟨a, ⟨ha, hab⟩, fun h => lt_irrefl a h.2⟩

/-- The elements have as many different ranks as there are elements. -/
theorem image_ncard_inter_Iio (s : Set α) :
    (fun a => (s ∩ Set.Iio a).ncard) '' s = Set.Iio s.ncard := by
  refine Set.eq_of_subset_of_ncard_le ?_ ?_ (Set.finite_Iio _)
  · rintro _ ⟨a, ha, rfl⟩
    have htotal := ncard_eq_below_add_above ha
    change (s ∩ Set.Iio a).ncard < s.ncard
    omega
  · rw [(strictMonoOn_ncard_inter_Iio s).injOn.ncard_image, ← Finset.coe_Iio,
      Set.ncard_coe_finset, Nat.card_Iio]

theorem existsUnique_ncard_inter_Iio {n : ℕ} (hn : n < s.ncard) :
    ∃! a, a ∈ s ∧ (s ∩ Set.Iio a).ncard = n := by
  rw [← Set.mem_Iio, ← image_ncard_inter_Iio] at hn
  obtain ⟨a, ha, rfl⟩ := hn
  refine ⟨a, ⟨ha, rfl⟩, ?_⟩
  rintro b ⟨hb, hrank⟩
  exact (strictMonoOn_ncard_inter_Iio s).injOn hb ha hrank

end Ranks

namespace Date

variable {d : Date} {w : Weekday}

instance : Finite Date := by
  have hrange : Finite (Set.Icc firstNumber lastNumber) := (Set.finite_Icc _ _).to_subtype
  apply Finite.of_injective fun d : Date => (⟨d.number, d.first_le, d.le_last⟩ : Set.Icc _ _)
  intro d e h
  exact Date.ext (congrArg Subtype.val h)

/-- The dates of a month of a year on one weekday, none where the year is not on the axis. -/
def inMonth (year : ℤ) (month : Month) (w : Weekday) : Set Date :=
  {d | d.year = year ∧ d.month = month ∧ d.weekday = w}

variable {year : ℤ} {month : Month}

theorem monthOn_eq_inMonth (d : Date) (w : Weekday) : d.monthOn w = inMonth d.year d.month w := by
  ext e
  exact and_assoc

theorem ncard_inMonth_of_mem (h : d ∈ inMonth year month w) :
    4 ≤ (inMonth year month w).ncard ∧ (inMonth year month w).ncard ≤ 5 := by
  obtain ⟨rfl, rfl, rfl⟩ := h
  have hmem : d ∈ d.monthOn d.weekday := ⟨⟨rfl, rfl⟩, rfl⟩
  have htotal := ncard_eq_below_add_above hmem
  have hbelow := ncard_inter_Iic hmem
  have habove := ncard_inter_Ici hmem
  rw [ncard_monthOn_inter_Iic, weekFromStart] at hbelow
  rw [ncard_monthOn_inter_Ici, weekFromEnd] at habove
  have hday := d.one_le_day
  have hlast := d.day_le_lastDayOfMonth
  have hshort := d.month.length_pos (isLeapYear d.year)
  have hlong := d.month.length_le (isLeapYear d.year)
  rw [← d.lastDayOfMonth_eq] at hshort hlong
  rw [← monthOn_eq_inMonth]
  omega

/-- One of the first seven days of a month falls on the weekday. -/
theorem exists_mem_inMonth (hfirst : -262143 ≤ year) (hlast : year ≤ 262142) (month : Month)
    (w : Weekday) : ∃ d, d ∈ inMonth year month w := by
  have hshort := month.length_pos (isLeapYear year)
  have hexists : Civil.Exists ⟨year, month, 1⟩ := ⟨le_rfl, (by decide : 1 ≤ 28).trans hshort⟩
  obtain ⟨f, hf⟩ := exists_civil_eq hexists hfirst hlast
  have hyear : f.year = year := by rw [year_eq, hf]
  have hmonth : f.month = month := by rw [month_eq, hf]
  have hday : f.day = 1 := by rw [day_eq, hf]
  have hlength : f.lastDayOfMonth = month.length (isLeapYear year) := by
    rw [lastDayOfMonth_eq, hyear, hmonth]
  have hindex : w.index < 7 := by cases w <;> decide
  obtain ⟨e, he⟩ := exists_number_eq_of_month (d := f)
    (n := f.number + (w.index - f.number) % 7) (by omega) (by omega)
  have hsame : f.SameMonth e := sameMonth_iff.2 ⟨by omega, by omega⟩
  refine ⟨e, hsame.1.trans hyear, hsame.2.trans hmonth, ?_⟩
  rw [weekday, ← w.ofIndex_index]
  congr 1
  omega

end Date

end Recurrence
