import Recurrence.Proofs.Rule.Construction

/-!
# Cadences of one interval

Two dates are in step when the days between them are a multiple of so many whole weeks, and this is
an equivalence of dates. A cadence with a reference compares weekdays and counts weeks rounded
toward zero, yet it holds on the dates in step with its reference, before it as well as after it.
So cadences of one interval divide the dates among them: two of them have either the same dates or
none in common.
-/

namespace Recurrence

namespace Date

/-- The days between the dates are a multiple of so many weeks. -/
def InStep (n : ℕ) (d e : Date) : Prop := (7 : ℤ) * n ∣ e.number - d.number

variable {n : ℕ} {d e f r s : Date}

theorem InStep.refl (n : ℕ) (d : Date) : d.InStep n d := by
  rw [InStep, Int.sub_self]
  exact Int.dvd_zero _

theorem InStep.symm (h : d.InStep n e) : e.InStep n d := by
  rw [InStep, ← Int.neg_sub]
  exact Int.dvd_neg.2 h

theorem InStep.trans (h : d.InStep n e) (h' : e.InStep n f) : d.InStep n f := by
  rw [InStep, ← sub_add_sub_cancel f.number e.number d.number]
  exact Int.dvd_add h' h

theorem mem_everyNthWeek : d ∈ everyNthWeek n r ↔ r.InStep n d := Iff.rfl

theorem everyNthWeek_eq_iff : everyNthWeek n r = everyNthWeek n s ↔ r.InStep n s := by
  constructor
  · intro h
    have hs : s ∈ everyNthWeek n s := InStep.refl n s
    rwa [← h, mem_everyNthWeek] at hs
  · intro h
    ext d
    exact ⟨h.symm.trans, h.trans⟩

theorem everyNthWeek_eq_or_disjoint (n : ℕ) (r s : Date) :
    everyNthWeek n r = everyNthWeek n s ∨ Disjoint (everyNthWeek n r) (everyNthWeek n s) := by
  by_cases h : r.InStep n s
  · exact Or.inl (everyNthWeek_eq_iff.2 h)
  · apply Or.inr
    rw [Set.disjoint_left]
    intro d hr hs
    rw [mem_everyNthWeek] at hr hs
    exact h (hr.trans hs.symm)

end Date

namespace WeeklyCadence

/-- The dates on which a cadence holds. -/
def dates (c : WeeklyCadence) : Set Date := {d | c.includes d = true}

variable {n : ℕ} {r : Date} {c : WeeklyCadence}

theorem dates_of_interval (h : ofInterval n r = .ok c) : c.dates = Date.everyNthWeek n r := by
  obtain ⟨hn, rfl⟩ := ofInterval_eq_ok_iff.1 h
  ext d
  exact includes_everyNth_iff hn r d

/-- Every positive interval is accepted with every reference, and two cadences of one interval have
the same dates just when one of them holds on the reference of the other. -/
theorem intervals_divide_dates (hn : 1 ≤ n) (r s : Date) :
    ∃ c c', ofInterval n r = .ok c ∧ ofInterval n s = .ok c' ∧
      (∀ d, c.includes d = true ↔ (7 : ℤ) * n ∣ d.number - r.number) ∧
      (c.dates = c'.dates ∨ Disjoint c.dates c'.dates) ∧
      (c.dates = c'.dates ↔ c.includes s = true) ∧
      (c.dates = c'.dates ↔ c'.includes r = true) := by
  have hr : ofInterval n r = .ok (.everyNth n r hn) := ofInterval_eq_ok_iff.2 ⟨hn, rfl⟩
  have hs : ofInterval n s = .ok (.everyNth n s hn) := ofInterval_eq_ok_iff.2 ⟨hn, rfl⟩
  refine ⟨_, _, hr, hs, includes_everyNth_iff hn r, ?_⟩
  rw [dates_of_interval hr, dates_of_interval hs, includes_everyNth_iff, includes_everyNth_iff]
  refine ⟨Date.everyNthWeek_eq_or_disjoint n r s, Date.everyNthWeek_eq_iff, ?_⟩
  rw [Date.everyNthWeek_eq_iff]
  exact ⟨Date.InStep.symm, Date.InStep.symm⟩

/-- The widest interval is longer than the axis, so its cadences from the two ends differ. -/
theorem intervals_divide_dates_widest :
    ∃ c c', ofInterval 4294967295 Date.last = .ok c ∧ ofInterval 4294967295 Date.first = .ok c' ∧
      Disjoint c.dates c'.dates := by
  obtain ⟨c, c', hc, hc', hincludes, hdates, hsame, -⟩ :=
    intervals_divide_dates (by decide : 1 ≤ 4294967295) Date.last Date.first
  refine ⟨c, c', hc, hc', hdates.resolve_left fun h => ?_⟩
  have hdvd := (hincludes Date.first).1 (hsame.1 h)
  exact absurd hdvd (by decide)

end WeeklyCadence

end Recurrence
