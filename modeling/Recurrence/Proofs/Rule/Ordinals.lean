import Recurrence.Proofs.Calendar.Ranks
import Recurrence.Proofs.Document.Rules
import Recurrence.Proofs.Rule.Leaves

/-!
# The ordinals of a monthly weekday

A monthly weekday is evaluated by weeks of seven days, counted from the first or from the last day
of the month. This comes to counting the dates of the month on that weekday: a positive ordinal says
how many of them come before the date, a negative one how many come after it. So in every month an
ordinal takes one of these dates, or none where there are not so many, and each of them has one
ordinal of either sign.
-/

namespace Recurrence.MonthlyWeekday

open Date (inMonth)

variable {p : MonthlyWeekday} {w : Weekday} {k : ℤ} {year : ℤ} {month : Month} {d : Date}

theorem includes_iff_of_pos (hk : 0 < k) (d : Date) :
    includes ⟨w, k⟩ d = true ↔
      d.weekday = w ∧ ((inMonth d.year d.month w ∩ Set.Iio d).ncard : ℤ) = k - 1 := by
  rw [includes_iff]
  apply and_congr_right
  intro hweekday
  have hmem : d ∈ inMonth d.year d.month w := ⟨rfl, rfl, hweekday⟩
  dsimp only
  rw [Date.monthOn_eq_inMonth, ncard_inter_Iic hmem]
  omega

theorem includes_iff_of_neg (hk : k < 0) (d : Date) :
    includes ⟨w, k⟩ d = true ↔
      d.weekday = w ∧ ((inMonth d.year d.month w ∩ Set.Ioi d).ncard : ℤ) = |k| - 1 := by
  rw [includes_iff]
  apply and_congr_right
  intro hweekday
  have hmem : d ∈ inMonth d.year d.month w := ⟨rfl, rfl, hweekday⟩
  dsimp only
  rw [Date.monthOn_eq_inMonth, ncard_inter_Ici hmem, abs_of_neg hk]
  omega

/-- How many dates on the weekday come before the one that an ordinal takes, in a month that has
`m` of them. -/
def place (k : ℤ) (m : ℕ) : ℤ := if 0 < k then k - 1 else m + k

theorem includes_iff_place (hk : k ≠ 0) (hyear : d.year = year) (hmonth : d.month = month) :
    includes ⟨w, k⟩ d = true ↔ d ∈ inMonth year month w ∧
      ((inMonth year month w ∩ Set.Iio d).ncard : ℤ) = place k (inMonth year month w).ncard := by
  subst hyear hmonth
  have hmem : d ∈ inMonth d.year d.month w ↔ d.weekday = w :=
    ⟨fun h => h.2.2, fun h => ⟨rfl, rfl, h⟩⟩
  rw [place]
  split_ifs with hpos
  · rw [includes_iff_of_pos hpos, hmem]
  · have hneg : k < 0 := by omega
    rw [includes_iff_of_neg hneg, ← hmem, abs_of_neg hneg]
    apply and_congr_right
    intro hd
    rw [ncard_eq_below_add_above hd]
    omega

/-- An ordinal takes a place of the month exactly when the month has as many dates. -/
theorem place_mem_iff (hk : k ≠ 0) (m : ℕ) :
    0 ≤ place k m ∧ place k m < m ↔ k.natAbs ≤ m := by
  rw [place]
  split_ifs <;> omega

theorem existsUnique_includes (hk : k ≠ 0) (h : k.natAbs ≤ (inMonth year month w).ncard) :
    ∃! d : Date, (d.year = year ∧ d.month = month) ∧ includes ⟨w, k⟩ d = true := by
  obtain ⟨hlow, hhigh⟩ := (place_mem_iff hk _).2 h
  obtain ⟨n, hn⟩ := Int.eq_ofNat_of_zero_le hlow
  rw [hn] at hhigh
  obtain ⟨d, ⟨hd, hplace⟩, hunique⟩ := existsUnique_ncard_inter_Iio (Int.ofNat_lt.1 hhigh)
  refine ⟨d, ⟨⟨hd.1, hd.2.1⟩, ?_⟩, ?_⟩
  · rw [includes_iff_place hk hd.1 hd.2.1, hn, hplace]
    exact ⟨hd, rfl⟩
  · rintro e ⟨⟨hyear, hmonth⟩, he⟩
    rw [includes_iff_place hk hyear hmonth, hn] at he
    exact hunique e ⟨he.1, Int.ofNat_inj.1 he.2⟩

theorem includes_eq_false_of_lt (hk : k ≠ 0) (h : (inMonth year month w).ncard < k.natAbs)
    (hyear : d.year = year) (hmonth : d.month = month) : includes ⟨w, k⟩ d = false := by
  rw [← Bool.not_eq_true, includes_iff_place hk hyear hmonth]
  rintro ⟨hd, hplace⟩
  have htotal := ncard_eq_below_add_above hd
  have hfits := (place_mem_iff hk (inMonth year month w).ncard).1 ⟨by omega, by omega⟩
  omega

/-- The place of a date from the end of its month is that from the beginning less all places and
one more. -/
theorem includes_opposite (hpos : 0 < k) (hk : k ≤ (inMonth year month w).ncard)
    (hyear : d.year = year) (hmonth : d.month = month) :
    includes ⟨w, k - (inMonth year month w).ncard - 1⟩ d = includes ⟨w, k⟩ d := by
  rw [Bool.eq_iff_iff, includes_iff_place (by omega) hyear hmonth,
    includes_iff_place (by omega) hyear hmonth, place, place, if_neg (by omega), if_pos hpos]
  apply and_congr_right
  intro _
  omega

theorem ofOrdinal_opposite (hpos : 0 < k) (hk : k ≤ (inMonth year month w).ncard) :
    ofOrdinal w (k - (inMonth year month w).ncard - 1) =
      .ok ⟨w, k - (inMonth year month w).ncard - 1⟩ := by
  have hne : (inMonth year month w).ncard ≠ 0 := by omega
  obtain ⟨d, hd⟩ := Set.nonempty_of_ncard_ne_zero hne
  have hbound := (Date.ncard_inMonth_of_mem hd).2
  exact Node.ofOrdinal_eq_ok_iff.2 ⟨by omega, rfl⟩

/-- A positive ordinal counts the dates on the weekday from the beginning of the month and a
negative one from its end, and in every month it takes one of them if there are so many. -/
theorem ordinal_counts_in_month (hp : ofOrdinal w k = .ok p) :
    (0 < k → ∀ d, p.includes d = true ↔
      d.weekday = w ∧ ((inMonth d.year d.month w ∩ Set.Iio d).ncard : ℤ) = k - 1) ∧
    (k < 0 → ∀ d, p.includes d = true ↔
      d.weekday = w ∧ ((inMonth d.year d.month w ∩ Set.Ioi d).ncard : ℤ) = |k| - 1) ∧
    ∀ (year : ℤ) (month : Month),
      (-262143 ≤ year → year ≤ 262142 → 4 ≤ (inMonth year month w).ncard) ∧
      (k.natAbs ≤ (inMonth year month w).ncard →
        ∃! d : Date, (d.year = year ∧ d.month = month) ∧ p.includes d = true) ∧
      ((inMonth year month w).ncard < k.natAbs →
        ∀ d : Date, d.year = year → d.month = month → p.includes d = false) ∧
      (0 < k → k ≤ (inMonth year month w).ncard →
        ∃ q, ofOrdinal w (k - (inMonth year month w).ncard - 1) = .ok q ∧
          ∀ d : Date, d.year = year → d.month = month → q.includes d = p.includes d) := by
  obtain ⟨⟨hk, -, -⟩, rfl⟩ := Node.ofOrdinal_eq_ok_iff.1 hp
  refine ⟨includes_iff_of_pos, includes_iff_of_neg, fun year month =>
    ⟨fun hfirst hlast => ?_, existsUnique_includes hk, ?_, fun hpos hle => ?_⟩⟩
  · obtain ⟨d, hd⟩ := Date.exists_mem_inMonth hfirst hlast month w
    exact (Date.ncard_inMonth_of_mem hd).1
  · intro hlt d
    exact includes_eq_false_of_lt hk hlt
  · exact ⟨_, ofOrdinal_opposite hpos hle, fun d => includes_opposite hpos hle⟩

/-- The fourth Tuesday of the first February on the axis, which has an ordinal from the end too. -/
theorem ordinal_counts_in_month_february :
    ∃ p, ofOrdinal .tuesday 4 = .ok p ∧
      (∃! d : Date, (d.year = -262143 ∧ d.month = .february) ∧ p.includes d = true) ∧
      ∃ q, ofOrdinal .tuesday (4 - (inMonth (-262143) .february .tuesday).ncard - 1) = .ok q ∧
        ∀ d : Date, d.year = -262143 → d.month = .february → q.includes d = p.includes d := by
  have hp : ofOrdinal .tuesday 4 = .ok ⟨.tuesday, 4⟩ := rfl
  obtain ⟨-, -, hmonths⟩ := ordinal_counts_in_month hp
  obtain ⟨hmany, hone, -, hopposite⟩ := hmonths (-262143) .february
  have hfour := hmany (by decide) (by decide)
  exact ⟨_, hp, hone hfour, hopposite (by decide) (Int.ofNat_le.2 hfour)⟩

end Recurrence.MonthlyWeekday
