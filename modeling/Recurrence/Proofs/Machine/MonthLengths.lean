import Recurrence.Proofs.Calendar.March
import Recurrence.Proofs.Machine.Rules

/-!
# Month lengths along the axis

The length of a month comes from a table and from the rule of leap years, which is evaluated in
machine integers and rounds toward zero in years before the year 0. Stepping from a date to the next
one adds one to its number and knows nothing of months. The two agree: by the lengths, a date is
followed by the next day of its month or by the first day of the next month, all along the axis.
-/

namespace Recurrence

namespace Month

/-- The month behind this one, January behind December. -/
def following (m : Month) : Month := (ofNumber? (m.number + 1)).getD january

variable {m : Month}

theorem number_following (h : m ≠ december) : m.following.number = m.number + 1 := by
  have hall : ∀ m ∈ all, m ≠ december → m.following.number = m.number + 1 := by decide
  exact hall m m.mem_all h

theorem offset_following (leap : Bool) (h : m ≠ december) :
    m.following.offset leap = m.offset leap + m.length leap := by
  have hall : ∀ leap : Bool, ∀ m ∈ all, m ≠ december →
      m.following.offset leap = m.offset leap + m.length leap := by decide
  exact hall leap m m.mem_all h

theorem offset_december (leap : Bool) : december.offset leap + 31 = yearLength leap := by
  cases leap <;> decide

end Month

namespace Civil

/-- The day behind this one, by the lengths of the months. -/
def next (c : Civil) : Civil :=
  if c.day < c.month.length (isLeapYear c.year) then ⟨c.year, c.month, c.day + 1⟩
  else if c.month = .december then ⟨c.year + 1, .january, 1⟩
  else ⟨c.year, c.month.following, 1⟩

variable {c : Civil}

theorem exists_first (year : ℤ) (m : Month) : Exists ⟨year, m, 1⟩ :=
  ⟨le_rfl, (by decide : 1 ≤ 28).trans (m.length_pos _)⟩

theorem exists_next (c : Civil) : c.next.Exists := by
  rw [next]
  split_ifs with hday hmonth
  · exact ⟨Nat.le_add_left 1 c.day, hday⟩
  · exact exists_first _ _
  · exact exists_first _ _

theorem number_next (h : c.Exists) : c.next.number = c.number + 1 := by
  have hlast := h.2
  rw [next]
  split_ifs with hday hmonth
  · simp only [number]
    omega
  · have hyear := firstDayOf_succ c.year
    have hoffset := Month.offset_december (isLeapYear c.year)
    have hjanuary : Month.january.offset (isLeapYear (c.year + 1)) = 0 := rfl
    rw [hmonth] at hday hlast
    simp only [number, hmonth, hjanuary]
    simp only [Month.length] at hday hlast
    omega
  · have hoffset := Month.offset_following (isLeapYear c.year) hmonth
    simp only [number, hoffset]
    omega

end Civil

namespace Date

variable {d e : Date}

theorem civil_of_succ? (h : d.succ? = some e) : e.civil = d.civil.next := by
  have hnumber := Civil.number_next d.exists_civil
  rw [number_civil, ← succ?_eq_some.1 h] at hnumber
  rw [civil, ← hnumber, Civil.ofNumber_number d.civil.exists_next]

theorem exists_succ? (h : d ≠ last) : ∃ e, d.succ? = some e :=
  Option.ne_none_iff_exists'.1 fun hnone => h (succ?_eq_none.1 hnone)

theorem succ?_in_month (h : d.succ? = some e) (hday : d.day < d.lastDayOfMonth) :
    e.year = d.year ∧ e.month = d.month ∧ e.day = d.day + 1 := by
  have hcivil := civil_of_succ? h
  rw [lastDayOfMonth_eq, day_eq, month_eq, year_eq] at hday
  -- Folded back to year, month and day of `d`, so that no check computes `d.civil`.
  rw [Civil.next, if_pos hday, ← d.year_eq, ← d.month_eq, ← d.day_eq] at hcivil
  simp only [e.year_eq, e.month_eq, e.day_eq, hcivil, and_self]

theorem succ?_behind_month (h : d.succ? = some e) (hday : d.day = d.lastDayOfMonth) :
    e.day = 1 ∧ if d.month = .december then e.year = d.year + 1 ∧ e.month = .january
      else e.year = d.year ∧ e.month.number = d.month.number + 1 := by
  have hcivil := civil_of_succ? h
  rw [lastDayOfMonth_eq, day_eq, month_eq, year_eq] at hday
  rw [Civil.next, if_neg hday.not_lt, ← d.year_eq, ← d.month_eq] at hcivil
  rw [e.year_eq, e.month_eq, e.day_eq]
  split_ifs at hcivil ⊢ with hmonth
  · rw [hcivil]
    exact ⟨rfl, rfl, rfl⟩
  · rw [hcivil]
    exact ⟨rfl, rfl, Month.number_following hmonth⟩

theorem daysInMonth_eq (d : Date) : daysInMonth d.year d.month.number = d.lastDayOfMonth := by
  rw [daysInMonth, Month.ofNumber?_number, lastDayOfMonth_eq]

/-- The dates are read from their numbers without month lengths and leap years, and yet the lengths
say where the months end: no date goes beyond them, and the next date has the next day of the month
below the length and the first day of the next month at it. -/
theorem succ?_by_month_lengths (d : Date) :
    d.civil = Civil.ofMarch d.number ∧
    Machine.lastDayOfMonth? d = some (d.lastDayOfMonth : ℤ) ∧
    daysInMonth d.year d.month.number = d.lastDayOfMonth ∧
    d.day ≤ d.lastDayOfMonth ∧
    (d ≠ last → ∃ e, d.succ? = some e ∧
      (d.day < d.lastDayOfMonth → e.year = d.year ∧ e.month = d.month ∧ e.day = d.day + 1) ∧
      (d.day = d.lastDayOfMonth → e.day = 1 ∧
        if d.month = .december then e.year = d.year + 1 ∧ e.month = .january
        else e.year = d.year ∧ e.month.number = d.month.number + 1)) := by
  refine ⟨Civil.ofNumber_eq_ofMarch d.number, Machine.lastDayOfMonth?_eq d, d.daysInMonth_eq,
    d.day_le_lastDayOfMonth, fun hlast => ?_⟩
  obtain ⟨e, he⟩ := exists_succ? hlast
  exact ⟨e, he, succ?_in_month he, succ?_behind_month he⟩

/-- The year 0 has a leap day and the year -100 has none, and a March follows on both. -/
theorem succ?_by_month_lengths_february :
    ∃ d d' e e' : Date, d.civil = ⟨0, .february, 29⟩ ∧ d'.civil = ⟨-100, .february, 28⟩ ∧
      d.succ? = some e ∧ d'.succ? = some e' ∧
      (e.day = 1 ∧ e.year = 0 ∧ e.month.number = 3) ∧
      (e'.day = 1 ∧ e'.year = -100 ∧ e'.month.number = 3) := by
  let d : Date := ⟨-307, by decide, by decide⟩
  let d' : Date := ⟨-36832, by decide, by decide⟩
  have hcivil : d.civil = ⟨0, .february, 29⟩ := by decide
  have hcivil' : d'.civil = ⟨-100, .february, 28⟩ := by decide
  obtain ⟨-, -, -, -, hnext⟩ := succ?_by_month_lengths d
  obtain ⟨-, -, -, -, hnext'⟩ := succ?_by_month_lengths d'
  obtain ⟨e, he, -, hend⟩ := hnext (by decide)
  obtain ⟨e', he', -, hend'⟩ := hnext' (by decide)
  have hmarch := hend (by decide)
  have hmarch' := hend' (by decide)
  rw [if_neg (by decide), d.year_eq, d.month_eq, hcivil] at hmarch
  rw [if_neg (by decide), d'.year_eq, d'.month_eq, hcivil'] at hmarch'
  exact ⟨d, d', e, e', hcivil, hcivil', he, he', hmarch, hmarch'⟩

end Date

end Recurrence
