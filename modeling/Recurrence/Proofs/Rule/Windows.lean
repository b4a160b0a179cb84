import Recurrence.Proofs.Calendar.Runs
import Recurrence.Proofs.Rule.Construction

/-!
# Windows in the order of the year

A window is evaluated by three tests of the month, and the day 0 of a bound switches off the test of
the day. With 1 and 31 in its place, a window is all that lies between its bounds in the order of
month and day, or two ends of months when the bounds are in reverse order. It pays no heed to the
year, and in a year its dates are one run, or two runs at most.
-/

namespace Recurrence

theorem Bound.InMonth.getD_day {b : Bound} (h : b.InMonth) (k : ℕ) :
    b.day.getD k = if b.dayNumber = 0 then k else b.dayNumber := by
  obtain ⟨m, day⟩ := b
  cases day with
  | none => rfl
  | some j =>
      have hj : j ≠ 0 := fun hj => h.2 (congrArg some hj)
      rw [dayNumber, Option.getD_some, Option.getD_some, if_neg hj]

namespace Date

variable {d e : Date} {start stop m : Month} {i j : ℕ} {year : ℤ}

theorem mem_window_of_le (h : start.number ≤ stop.number) :
    d ∈ window start i stop j ↔ dayOfYear start i ≤ dayOfYear d.month d.day ∧
      dayOfYear d.month d.day ≤ dayOfYear stop j := by
  rw [window, Set.mem_ofPred_eq, if_pos h]

theorem mem_window_of_lt (h : stop.number < start.number) :
    d ∈ window start i stop j ↔ d.month = start ∧ i ≤ d.day ∨ d.month = stop ∧ d.day ≤ j := by
  rw [window, Set.mem_ofPred_eq, if_neg (not_le.2 h)]

theorem le_iff_dayOfYear_le (hyear : e.year = d.year) :
    d ≤ e ↔ dayOfYear d.month d.day ≤ dayOfYear e.month e.day := by
  rw [le_iff_of_year_eq hyear, dayOfYear_le_iff]

/-- The dates of a year between two places in the order of month and day. -/
def inYear (year : ℤ) (low high : ℕ ×ₗ ℕ) : Set Date :=
  {d | d.year = year ∧ low ≤ dayOfYear d.month d.day ∧ dayOfYear d.month d.day ≤ high}

theorem isRun_inYear (year : ℤ) (low high : ℕ ×ₗ ℕ) : IsRun (inYear year low high) := by
  refine isRun_of_ordConnected ⟨?_⟩
  rintro d ⟨hd, hlow, -⟩ e ⟨he, -, hhigh⟩ f ⟨hdf, hfe⟩
  have hf : f.year = year :=
    le_antisymm ((year_le_year hfe).trans he.le) (hd.ge.trans (year_le_year hdf))
  refine ⟨hf, hlow.trans ?_, le_trans ?_ hhigh⟩
  · exact (le_iff_dayOfYear_le (hf.trans hd.symm)).1 hdf
  · exact (le_iff_dayOfYear_le (he.trans hf.symm)).1 hfe

theorem mem_inYear_month :
    d ∈ inYear year (dayOfYear m i) (dayOfYear m j) ↔
      d.year = year ∧ d.month = m ∧ i ≤ d.day ∧ d.day ≤ j := by
  rw [inYear, Set.mem_ofPred_eq, dayOfYear_le_iff, dayOfYear_le_iff, ← Month.number_inj]
  omega

end Date

namespace YearlyWindow

variable (w : YearlyWindow)

/-- The first day in the month of the first bound. -/
def firstDay : ℕ := if w.start.dayNumber = 0 then 1 else w.start.dayNumber

/-- The last day in the month of the last bound. -/
def lastDay : ℕ := if w.stop.dayNumber = 0 then 31 else w.stop.dayNumber

/-- The dates of a year on which a window holds. -/
def datesIn (year : ℤ) : Set Date := {d | d.year = year ∧ w.includes d = true}

variable {w}

theorem mem_datesIn {year : ℤ} {d : Date} :
    d ∈ w.datesIn year ↔ d.year = year ∧ w.includes d = true := Iff.rfl

theorem includes_iff_mem_window (hstart : w.start.InMonth) (hstop : w.stop.InMonth) (d : Date) :
    w.includes d = true ↔ d ∈ Date.window w.start.month w.firstDay w.stop.month w.lastDay := by
  rw [includes_iff, hstart.getD_day, hstop.getD_day, firstDay, lastDay]

/-- Whatever its bounds, a window reads nothing but the month and the day of a date. -/
theorem includes_congr {d e : Date} (hmonth : e.month = d.month) (hday : e.day = d.day) :
    w.includes e = w.includes d := by
  rw [Bool.eq_iff_iff, includes_iff, includes_iff, Date.window, Set.mem_ofPred_eq,
    Set.mem_ofPred_eq, hmonth, hday]

theorem inMonth_of_constructed (h : (Rule.yearly w).Constructed) :
    w.start.InMonth ∧ w.stop.InMonth := by
  cases h.wellFormed with
  | yearly hstart hstop => exact ⟨hstart, hstop⟩

theorem datesIn_of_le (hstart : w.start.InMonth) (hstop : w.stop.InMonth)
    (hle : w.start.month.number ≤ w.stop.month.number) (year : ℤ) :
    w.datesIn year = Date.inYear year (dayOfYear w.start.month w.firstDay)
      (dayOfYear w.stop.month w.lastDay) := by
  ext d
  rw [mem_datesIn, includes_iff_mem_window hstart hstop, Date.mem_window_of_le hle]
  rfl

/-- No month has a day behind the 31st or in front of the first, so each end of a month lies between
two places as well. -/
theorem datesIn_of_lt (hstart : w.start.InMonth) (hstop : w.stop.InMonth)
    (hlt : w.stop.month.number < w.start.month.number) (year : ℤ) :
    w.datesIn year =
      Date.inYear year (dayOfYear w.start.month w.firstDay) (dayOfYear w.start.month 31) ∪
        Date.inYear year (dayOfYear w.stop.month 1) (dayOfYear w.stop.month w.lastDay) := by
  ext d
  have hfirst := d.one_le_day
  have hlast := d.day_le
  rw [mem_datesIn, includes_iff_mem_window hstart hstop, Date.mem_window_of_lt hlt, Set.mem_union,
    Date.mem_inYear_month, Date.mem_inYear_month, and_or_left]
  simp only [hfirst, hlast, and_true, true_and]

/-- A window holds on what lies between its bounds, and if these are in reverse order, on the end of
the month of the first and the beginning of that of the last. -/
theorem runs_of_constructed (hw : (Rule.yearly w).Constructed) :
    (w.start.month.number ≤ w.stop.month.number →
      (∀ d : Date, w.includes d = true ↔
        dayOfYear w.start.month w.firstDay ≤ dayOfYear d.month d.day ∧
          dayOfYear d.month d.day ≤ dayOfYear w.stop.month w.lastDay) ∧
      ∀ year, Date.IsRun (w.datesIn year)) ∧
    (w.stop.month.number < w.start.month.number →
      (∀ d : Date, w.includes d = true ↔
        d.month = w.start.month ∧ w.firstDay ≤ d.day ∨
          d.month = w.stop.month ∧ d.day ≤ w.lastDay) ∧
      ∀ year, ∃ A B, Date.IsRun A ∧ Date.IsRun B ∧ w.datesIn year = A ∪ B) ∧
    ∀ d e : Date, e.month = d.month → e.day = d.day → w.includes e = w.includes d := by
  obtain ⟨hstart, hstop⟩ := inMonth_of_constructed hw
  have hincludes := includes_iff_mem_window hstart hstop
  refine ⟨fun hle => ⟨?_, fun year => ?_⟩, fun hlt => ⟨?_, fun year => ?_⟩,
    fun d e => includes_congr⟩
  · exact fun d => (hincludes d).trans (Date.mem_window_of_le hle)
  · rw [datesIn_of_le hstart hstop hle]
    exact Date.isRun_inYear _ _ _
  · exact fun d => (hincludes d).trans (Date.mem_window_of_lt hlt)
  · exact ⟨_, _, Date.isRun_inYear _ _ _, Date.isRun_inYear _ _ _,
      datesIn_of_lt hstart hstop hlt year⟩

/-- From November to 30 February, which no year has: all November and all February. -/
theorem runs_of_constructed_winter :
    ∃ w, ofBounds .november .february 0 30 = .ok w ∧
      (∀ d : Date, w.includes d = true ↔
        d.month = .november ∧ 1 ≤ d.day ∨ d.month = .february ∧ d.day ≤ 30) ∧
      (∀ year, ∃ A B, Date.IsRun A ∧ Date.IsRun B ∧ w.datesIn year = A ∪ B) ∧
      ∀ d e : Date, e.month = d.month → e.day = d.day → w.includes e = w.includes d := by
  have hw : ofBounds .november .february 0 30 =
    .ok ⟨.ofDay .november 0, .ofDay .february 30⟩ := rfl
  obtain ⟨-, hreverse, hcongr⟩ := runs_of_constructed (.bounds hw)
  obtain ⟨hends, hruns⟩ := hreverse (by decide)
  exact ⟨_, hw, hends, hruns, hcongr⟩

end YearlyWindow

end Recurrence
