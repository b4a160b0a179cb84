import Recurrence.Proofs.Rule.Cadences

/-!
# Cadences that fall together

Dates that are in step for two intervals are in step for the least common multiple of these. Hence
two cadences that share a date share just the dates of one cadence, of that interval and from any
date that they share. They share none where their references fall on two weekdays, or where the
weeks between these are no multiple of the greatest common divisor.
-/

namespace Recurrence

namespace Date

variable {m n : ℕ} {d e : Date}

instance (n : ℕ) (d e : Date) : Decidable (d.InStep n e) :=
  inferInstanceAs (Decidable ((7 : ℤ) * n ∣ e.number - d.number))

theorem InStep.of_dvd (h : d.InStep n e) (hmn : m ∣ n) : d.InStep m e := by
  have hdays : (7 : ℤ) * m ∣ 7 * n := Int.mul_dvd_mul_left 7 (Int.natCast_dvd_natCast.2 hmn)
  exact hdays.trans h

theorem inStep_iff_natAbs : d.InStep n e ↔ 7 * n ∣ (e.number - d.number).natAbs := by
  rw [InStep, ← Int.natCast_dvd, Nat.cast_mul]
  rfl

/-- To be in step for two intervals is to be in step for their least common multiple. -/
theorem inStep_lcm_iff : d.InStep (m.lcm n) e ↔ d.InStep m e ∧ d.InStep n e := by
  rw [inStep_iff_natAbs, inStep_iff_natAbs, inStep_iff_natAbs, ← Nat.lcm_mul_left, Nat.lcm_dvd_iff]

end Date

namespace WeeklyCadence

variable {m n : ℕ} {c c' : WeeklyCadence} {r s t : Date}

/-- The rule that holds where both cadences do. -/
def together (c c' : WeeklyCadence) : Rule := (Rule.weekly c).and (.weekly c')

theorem includes_together (hc : ofInterval m r = .ok c) (hc' : ofInterval n s = .ok c') (d : Date) :
    (c.together c').includes d = true ↔ r.InStep m d ∧ s.InStep n d := by
  obtain ⟨hm, rfl⟩ := ofInterval_eq_ok_iff.1 hc
  obtain ⟨hn, rfl⟩ := ofInterval_eq_ok_iff.1 hc'
  rw [together, Rule.includes_and, Bool.and_eq_true, Rule.includes, Rule.includes,
    includes_everyNth_iff, includes_everyNth_iff, Date.mem_everyNthWeek, Date.mem_everyNthWeek]

/-- A common date leads from one reference to the other, in weeks that both intervals count. -/
theorem inStep_gcd_of_together (hc : ofInterval m r = .ok c) (hc' : ofInterval n s = .ok c')
    (ht : (c.together c').includes t = true) : r.InStep (m.gcd n) s := by
  obtain ⟨hr, hs⟩ := (includes_together hc hc' t).1 ht
  exact (hr.of_dvd (Nat.gcd_dvd_left m n)).trans (hs.of_dvd (Nat.gcd_dvd_right m n)).symm

theorem includes_together_iff_inStep (hc : ofInterval m r = .ok c) (hc' : ofInterval n s = .ok c')
    (ht : (c.together c').includes t = true) (d : Date) :
    (c.together c').includes d = true ↔ t.InStep (m.lcm n) d := by
  obtain ⟨hr, hs⟩ := (includes_together hc hc' t).1 ht
  rw [includes_together hc hc', Date.inStep_lcm_iff]
  exact and_congr ⟨hr.symm.trans, hr.trans⟩ ⟨hs.symm.trans, hs.trans⟩

/-- Two cadences have no common date, or those of a cadence of the least common multiple. Where this
is an interval that fits, such a cadence is one that can be constructed. -/
theorem common_dates_of_intervals (hm : 1 ≤ m) (hn : 1 ≤ n) (r s : Date) :
    ∃ c c', ofInterval m r = .ok c ∧ ofInterval n s = .ok c' ∧
      (r.weekday ≠ s.weekday ∨ ¬ ((m.gcd n : ℕ) : ℤ) ∣ r.weeksBetween s →
        ∀ d, (c.together c').includes d = false) ∧
      ∀ t, (c.together c').includes t = true →
        (∀ d, (c.together c').includes d = true ↔
          (7 : ℤ) * (m.lcm n : ℕ) ∣ d.number - t.number) ∧
        ∃ common, ofInterval (m.lcm n) t = .ok common ∧
          (m.lcm n < 2 ^ 32 → (Rule.weekly common).Constructed) ∧
          ∀ d, (c.together c').includes d = (Rule.weekly common).includes d := by
  have hc : ofInterval m r = .ok (.everyNth m r hm) := ofInterval_eq_ok_iff.2 ⟨hm, rfl⟩
  have hc' : ofInterval n s = .ok (.everyNth n s hn) := ofInterval_eq_ok_iff.2 ⟨hn, rfl⟩
  refine ⟨_, _, hc, hc', fun hapart d => ?_, fun t ht => ?_⟩
  · rw [← Bool.not_eq_true]
    intro hd
    obtain ⟨hweekday, hweeks⟩ := Date.seven_mul_dvd_iff.1 (inStep_gcd_of_together hc hc' hd)
    rcases hapart with hne | hne
    · exact hne hweekday.symm
    · exact hne hweeks
  · have hdates := includes_together_iff_inStep hc hc' ht
    have hlcm : 0 < m.lcm n := Nat.lcm_pos hm hn
    have hcommon : ofInterval (m.lcm n) t = .ok (.everyNth (m.lcm n) t hlcm) :=
      ofInterval_eq_ok_iff.2 ⟨hlcm, rfl⟩
    refine ⟨hdates, _, hcommon, fun hfits => .interval hfits hcommon, fun d => ?_⟩
    rw [Bool.eq_iff_iff, hdates, Rule.includes, includes_everyNth_iff, Date.mem_everyNthWeek]

/-- The least common multiple of 65535 and 65537 is the widest interval. Two cadences of these
intervals share a single date, and with references a day farther apart they share none. -/
theorem common_dates_of_intervals_widest :
    ∃ r s s' t : Date, ∃ c c' c'', ofInterval 65535 r = .ok c ∧ ofInterval 65537 s = .ok c' ∧
      ofInterval 65537 s' = .ok c'' ∧ (∀ d, (c.together c').includes d = true ↔ d = t) ∧
      ∀ d, (c.together c'').includes d = false := by
  let r : Date := ⟨-7 * 65535, by decide, by decide⟩
  let s : Date := ⟨7 * 65537, by decide, by decide⟩
  let s' : Date := ⟨7 * 65537 + 1, by decide, by decide⟩
  let t : Date := ⟨0, by decide, by decide⟩
  obtain ⟨c, c', hc, hc', -, hcommon⟩ :=
    common_dates_of_intervals (m := 65535) (n := 65537) (by decide) (by decide) r s
  obtain ⟨e, c'', he, hc'', hnone, -⟩ :=
    common_dates_of_intervals (m := 65535) (n := 65537) (by decide) (by decide) r s'
  obtain rfl : c = e := Except.ok.inj (hc.symm.trans he)
  have ht : (c.together c').includes t = true :=
    (includes_together hc hc' t).2 ⟨by decide, by decide⟩
  refine ⟨r, s, s', t, c, c', c'', hc, hc', hc'', fun d => ?_, hnone (.inl (by decide))⟩
  have hlcm : Nat.lcm 65535 65537 = 4294967295 := by decide
  have hlow := d.first_le
  have hhigh := d.le_last
  rw [(hcommon t ht).1 d, hlcm, Date.ext_iff]
  simp only [firstNumber, lastNumber, t] at hlow hhigh ⊢
  omega

end WeeklyCadence

end Recurrence
