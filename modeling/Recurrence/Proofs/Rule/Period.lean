import Recurrence.Proofs.Calendar.Period
import Recurrence.Proofs.Rule.Leaves

/-!
# The period of a rule

What a rule says of a date depends on its month, its day, the length of its month, its weekday and
its distance from some references. All of these repeat when the date moves by whole calendar
periods that are also a multiple of all intervals in weeks, which the rule contains.
-/

namespace Recurrence

variable {d e : Date}

theorem YearlyWindow.includes_eq_of_inPhase (w : YearlyWindow) (h : d.InPhase e) :
    w.includes e = w.includes d := by
  have hmonth := h.month_eq
  have hday := h.day_eq
  rw [Date.month_eq, Date.month_eq] at hmonth
  rw [Date.day_eq, Date.day_eq] at hday
  simp only [includes, covers, opens, closes, spans, hmonth, hday]

theorem MonthlyWeekday.includes_eq_of_inPhase (m : MonthlyWeekday) (h : d.InPhase e) :
    m.includes e = m.includes d := by
  simp only [includes, weekMatches, h.weekday_eq, h.weekFromStart_eq, h.weekFromEnd_eq]

namespace WeeklyCadence

/-- The interval of a cadence that has one. -/
def intervals : WeeklyCadence → List ℕ
  | every _ => []
  | everyNth n _ _ => [n]

theorem interval_pos {c : WeeklyCadence} {n : ℕ} (h : n ∈ c.intervals) : 0 < n := by
  cases c with
  | every w => cases h
  | everyNth k r hk =>
      obtain rfl := List.mem_singleton.1 h
      exact hk

theorem includes_eq_of_inPhase (c : WeeklyCadence) (h : d.InPhase e)
    (hweeks : ∀ n ∈ c.intervals, (7 : ℤ) * n ∣ e.number - d.number) :
    c.includes e = c.includes d := by
  cases c with
  | every w => rw [includes, includes, h.weekday_eq]
  | everyNth n r hn =>
      have hdvd := hweeks n (List.mem_singleton_self n)
      rw [Bool.eq_iff_iff, includes_everyNth_iff, includes_everyNth_iff]
      change (7 : ℤ) * n ∣ e.number - r.number ↔ (7 : ℤ) * n ∣ d.number - r.number
      rw [← sub_add_sub_cancel e.number d.number r.number]
      exact dvd_add_right hdvd

end WeeklyCadence

namespace Rule

/-- A property holds of every rule when it passes to a rule from its parts. -/
theorem induction {motive : Rule → Prop} (yearly : ∀ w, motive (.yearly w))
    (monthly : ∀ m, motive (.monthly m)) (weekly : ∀ c, motive (.weekly c))
    (difference : ∀ r s, motive r → motive s → motive (.difference r s))
    (union : ∀ rs, (∀ r ∈ rs, motive r) → motive (.union rs))
    (intersection : ∀ rs, (∀ r ∈ rs, motive r) → motive (.intersection rs)) (r : Rule) :
    motive r := by
  apply @Rule.rec motive (fun rs => ∀ r ∈ rs, motive r) yearly monthly weekly difference union
    intersection
  · intro r hr
    cases hr
  · intro r rs hr hrs r' hr'
    rcases List.mem_cons.1 hr' with rfl | hr'
    · exact hr
    · exact hrs r' hr'

mutual

/-- All intervals in weeks that a rule contains. -/
def intervals : Rule → List ℕ
  | yearly _ => []
  | monthly _ => []
  | weekly c => c.intervals
  | difference r s => r.intervals ++ s.intervals
  | union rs => memberIntervals rs
  | intersection rs => memberIntervals rs

def memberIntervals : List Rule → List ℕ
  | [] => []
  | r :: rs => r.intervals ++ memberIntervals rs

end

theorem mem_memberIntervals {rs : List Rule} {n : ℕ} :
    n ∈ memberIntervals rs ↔ ∃ r ∈ rs, n ∈ r.intervals := by
  induction rs with
  | nil => simp [memberIntervals]
  | cons r rs ih => simp [memberIntervals, ih]

theorem interval_pos {r : Rule} {n : ℕ} (h : n ∈ r.intervals) : 0 < n := by
  induction r using Rule.induction with
  | yearly w =>
      rw [intervals] at h
      cases h
  | monthly m =>
      rw [intervals] at h
      cases h
  | weekly c =>
      rw [intervals] at h
      exact WeeklyCadence.interval_pos h
  | difference r s hr hs =>
      rw [intervals] at h
      rcases List.mem_append.1 h with h | h
      · exact hr h
      · exact hs h
  | union rs ih =>
      rw [intervals, mem_memberIntervals] at h
      obtain ⟨r, hr, hn⟩ := h
      exact ih r hr hn
  | intersection rs ih =>
      rw [intervals, mem_memberIntervals] at h
      obtain ⟨r, hr, hn⟩ := h
      exact ih r hr hn

theorem includes_eq_of_inPhase {r : Rule} (h : d.InPhase e)
    (hweeks : ∀ n ∈ r.intervals, (7 : ℤ) * n ∣ e.number - d.number) :
    r.includes e = r.includes d := by
  induction r using Rule.induction with
  | yearly w => exact w.includes_eq_of_inPhase h
  | monthly m => exact m.includes_eq_of_inPhase h
  | weekly c =>
      rw [intervals] at hweeks
      exact c.includes_eq_of_inPhase h hweeks
  | difference r s hr hs =>
      rw [intervals, List.forall_mem_append] at hweeks
      rw [includes_difference, includes_difference, hr hweeks.1, hs hweeks.2]
  | union rs ih =>
      rw [intervals] at hweeks
      rw [includes_union, includes_union, Bool.eq_iff_iff, List.any_eq_true, List.any_eq_true]
      apply exists_congr
      intro r
      apply and_congr_right
      intro hr
      rw [ih r hr fun n hn => hweeks n (mem_memberIntervals.2 ⟨r, hr, hn⟩)]
  | intersection rs ih =>
      rw [intervals] at hweeks
      rw [includes_intersection, includes_intersection, Bool.eq_iff_iff, List.all_eq_true,
        List.all_eq_true]
      apply forall₂_congr
      intro r hr
      rw [ih r hr fun n hn => hweeks n (mem_memberIntervals.2 ⟨r, hr, hn⟩)]

end Rule

end Recurrence
