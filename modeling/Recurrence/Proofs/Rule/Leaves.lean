import Recurrence.Proofs.Calendar.Weeks
import Recurrence.Rule.Basic

/-!
# The dates of the simple rules

Each simple rule is a set of dates that is described without counting blocks of days. A window
holds the days between its bounds in the order of the year. A monthly weekday holds the date that
has so many dates of its weekday up to it, or from it on, in its month. A cadence holds the dates a
multiple of so many weeks away from its reference.
-/

namespace Recurrence

theorem Month.number_inj {m m' : Month} : m.number = m'.number ↔ m = m' :=
  ⟨number_injective, congrArg number⟩

/-- A day of the year, ordered by its month first. -/
def dayOfYear (month : Month) (day : ℕ) : ℕ ×ₗ ℕ := toLex (month.number, day)

theorem dayOfYear_le_iff {m m' : Month} {j j' : ℕ} :
    dayOfYear m j ≤ dayOfYear m' j' ↔ m.number < m'.number ∨ m.number = m'.number ∧ j ≤ j' :=
  Prod.Lex.toLex_le_toLex

namespace Date

/-- The dates from one day of the year to another. Between months in reverse order these are the
end of the one month and the beginning of the other. -/
def window (start : Month) (first : ℕ) (stop : Month) (last : ℕ) : Set Date :=
  {d | if start.number ≤ stop.number then
      dayOfYear start first ≤ dayOfYear d.month d.day ∧
        dayOfYear d.month d.day ≤ dayOfYear stop last
    else d.month = start ∧ first ≤ d.day ∨ d.month = stop ∧ d.day ≤ last}

/-- The dates that are the `k`-th of a weekday in their month, or the `-k`-th from its end. -/
def nthOfMonth (w : Weekday) (k : ℤ) : Set Date :=
  {d | d.weekday = w ∧ (0 < k ∧ ((d.monthOn w ∩ Set.Iic d).ncard : ℤ) = k ∨
    k < 0 ∧ ((d.monthOn w ∩ Set.Ici d).ncard : ℤ) = -k)}

/-- The dates a multiple of so many weeks before or after a date. -/
def everyNthWeek (k : ℤ) (reference : Date) : Set Date :=
  {d | 7 * k ∣ d.number - reference.number}

end Date

namespace YearlyWindow

variable (w : YearlyWindow) {c : Civil}

theorem opens_iff (h : 1 ≤ c.day) :
    w.opens c = true ↔ c.month = w.start.month ∧ w.start.day.getD 1 ≤ c.day := by
  rw [opens, Bool.and_eq_true, beq_iff_eq]
  cases w.start.day with
  | none => simp [h]
  | some j => simp

theorem closes_iff (h : c.day ≤ 31) :
    w.closes c = true ↔ c.month = w.stop.month ∧ c.day ≤ w.stop.day.getD 31 := by
  rw [closes, Bool.and_eq_true, beq_iff_eq]
  cases w.stop.day with
  | none => simp [h]
  | some j => simp

theorem spans_iff :
    w.spans c = true ↔ w.start.month.number < c.month.number ∧
      c.month.number < w.stop.month.number := by
  simp only [spans, Bool.and_eq_true, decide_eq_true_eq]

theorem covers_iff (h : 1 ≤ c.day) (h' : c.day ≤ 31) :
    w.covers c = true ↔
      if w.start.month.number ≤ w.stop.month.number then
        dayOfYear w.start.month (w.start.day.getD 1) ≤ dayOfYear c.month c.day ∧
          dayOfYear c.month c.day ≤ dayOfYear w.stop.month (w.stop.day.getD 31)
      else c.month = w.start.month ∧ w.start.day.getD 1 ≤ c.day ∨
        c.month = w.stop.month ∧ c.day ≤ w.stop.day.getD 31 := by
  have hopens := w.opens_iff h
  have hcloses := w.closes_iff h'
  have hspans := w.spans_iff (c := c)
  rw [← Month.number_inj] at hopens hcloses
  simp only [dayOfYear_le_iff, ← Month.number_inj, covers]
  split_ifs with hmonth hle hle
  · rw [Bool.and_eq_true, hopens, hcloses]
    omega
  · exact absurd hmonth.le hle
  · rw [Bool.or_eq_true, Bool.or_eq_true, hspans, hopens, hcloses]
    omega
  · rw [Bool.or_eq_true, Bool.or_eq_true, hspans, hopens, hcloses]
    omega

/-- A bound without a day stands for the first or for the last day of its month. -/
theorem includes_iff (d : Date) :
    w.includes d = true ↔ d ∈ Date.window w.start.month (w.start.day.getD 1) w.stop.month
      (w.stop.day.getD 31) := by
  have hlow := d.exists_civil.1
  have hhigh := d.exists_civil.2.trans (Month.length_le _ _)
  rw [includes, w.covers_iff hlow hhigh, ← Date.month_eq, ← Date.day_eq]
  rfl

end YearlyWindow

theorem MonthlyWeekday.includes_iff (m : MonthlyWeekday) (d : Date) :
    m.includes d = true ↔ d ∈ Date.nthOfMonth m.weekday m.ordinal := by
  rw [includes, Bool.and_eq_true, beq_iff_eq]
  apply and_congr_right
  intro hweekday
  rw [weekMatches, ← hweekday, d.ncard_monthOn_inter_Iic, d.ncard_monthOn_inter_Ici]
  have hfrom : 0 < d.weekFromEnd := Nat.succ_pos _
  split_ifs with hpos
  · rw [beq_iff_eq]
    omega
  · rw [beq_iff_eq]
    omega

theorem WeeklyCadence.includes_everyNth_iff {n : ℕ} (hn : 0 < n) (r d : Date) :
    (everyNth n r hn).includes d = true ↔ d ∈ Date.everyNthWeek n r := by
  rw [includes, Bool.and_eq_true, beq_iff_eq, beq_iff_eq, ← Int.dvd_iff_emod_eq_zero]
  exact Date.seven_mul_dvd_iff.symm

theorem WeeklyCadence.includes_every_iff (w : Weekday) (d : Date) :
    (every w).includes d = true ↔ d.weekday = w := by
  rw [includes, beq_iff_eq]

end Recurrence
