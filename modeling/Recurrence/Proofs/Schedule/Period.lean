import Recurrence.Proofs.Rule.Period
import Recurrence.Proofs.Schedule.Nearest

/-!
# The period of a schedule

A schedule repeats after some calendar periods, as many as the least common multiple of the
intervals in its rules. An occurrence that a search finds only a whole period ahead has another one
a period before it, which the search meets first, so a search over one period finds what there is:
the nearest occurrence, wherever there is one ahead at all.
-/

namespace Recurrence

/-- Where every later element that satisfies a predicate has an earlier one, the first of them
stands at the front. -/
theorem find?_take_of_forall_exists_lt {α : Type} {p : α → Bool} {l : List α} {n : ℕ}
    (h : ∀ (k : ℕ) (a : α), n ≤ k → l[k]? = some a → p a = true →
      ∃ j < k, ∃ b, l[j]? = some b ∧ p b = true) :
    (l.take n).find? p = l.find? p := by
  cases hfront : (l.take n).find? p with
  | some a => rw [find?_eq_take_or_drop p l n, hfront, Option.some_or]
  | none =>
      have hnone : ∀ (k : ℕ) (a : α), l[k]? = some a → ¬ p a = true := by
        intro k
        induction k using Nat.strong_induction_on with
        | h k ih =>
            intro a ha hp
            by_cases hk : k < n
            · have hmem : a ∈ l.take n := by
                apply List.mem_of_getElem? (i := k)
                rw [List.getElem?_take_of_lt hk, ha]
              exact List.find?_eq_none.1 hfront a hmem hp
            · obtain ⟨j, hj, b, hb, hpb⟩ := h k a (not_lt.1 hk) ha hp
              exact ih j hj b hb hpb
      symm
      apply List.find?_eq_none.2
      intro a ha
      obtain ⟨k, hk⟩ := List.mem_iff_getElem?.1 ha
      exact hnone k a hk

theorem findIdx?_congr_of_mem {α : Type} {p q : α → Bool} {l : List α}
    (h : ∀ a ∈ l, p a = q a) : l.findIdx? p = l.findIdx? q := by
  induction l with
  | nil => rfl
  | cons a l ih =>
      have hhead : p a = q a := h a List.mem_cons_self
      have htail : ∀ b ∈ l, p b = q b := fun b hb => h b (List.mem_cons_of_mem a hb)
      rw [List.findIdx?_cons, List.findIdx?_cons, hhead, ih htail]

namespace Schedule

variable {s : Schedule} {dir : Direction} {d e : Date}

def intervals (s : Schedule) : List ℕ := s.allotments.flatMap fun a => a.rule.intervals

/-- The least common multiple of all intervals in weeks, 1 where there are none. -/
def commonInterval (s : Schedule) : ℕ := Multiset.lcm (s.intervals : Multiset ℕ)

/-- The number of days after which a schedule repeats. -/
def period (s : Schedule) : ℕ := 146097 * s.commonInterval

theorem commonInterval_pos (s : Schedule) : 0 < s.commonInterval := by
  apply Nat.pos_of_ne_zero
  rw [commonInterval, Multiset.lcm_ne_zero_iff]
  intro hzero
  obtain ⟨a, -, ha⟩ := List.mem_flatMap.1 (Multiset.mem_coe.1 hzero)
  exact absurd (Rule.interval_pos ha) (lt_irrefl 0)

theorem period_pos (s : Schedule) : 0 < s.period :=
  Nat.mul_pos (by decide) s.commonInterval_pos

theorem dvd_commonInterval {a : Allotment} {n : ℕ} (ha : a ∈ s.allotments)
    (hn : n ∈ a.rule.intervals) : n ∣ s.commonInterval :=
  Multiset.dvd_lcm (Multiset.mem_coe.2 (List.mem_flatMap.2 ⟨a, ha, hn⟩))

theorem allotment_occurs_add_period {a : Allotment} (ha : a ∈ s.allotments)
    (h : e.number = d.number + s.period) : a.occurs e = a.occurs d := by
  have hperiod : e.number - d.number = 146097 * s.commonInterval := by
    rw [h, period]
    push_cast
    ring
  apply Rule.includes_eq_of_inPhase
  · exact ⟨s.commonInterval, hperiod⟩
  · intro n hn
    rw [hperiod]
    apply mul_dvd_mul
    · decide
    · exact Int.natCast_dvd_natCast.2 (dvd_commonInterval ha hn)

theorem matching?_add_period (h : e.number = d.number + s.period) :
    s.matching? e = s.matching? d :=
  List.find?_congr fun _ ha => allotment_occurs_add_period ha h

theorem matchingIndex?_add_period (h : e.number = d.number + s.period) :
    s.matchingIndex? e = s.matchingIndex? d :=
  findIdx?_congr_of_mem fun _ ha => allotment_occurs_add_period ha h

theorem slots_add_period (h : e.number = d.number + s.period) : s.slots e = s.slots d := by
  rw [slots, slots, matching?_add_period h]

theorem occurs_add_period (h : e.number = d.number + s.period) : s.occurs e = s.occurs d := by
  rw [occurs_eq_isSome_matching?, occurs_eq_isSome_matching?, matching?_add_period h]

/-- A period before an occurrence ahead, where it is still ahead, stands another one. -/
theorem exists_occurs_of_period_le {k : ℕ} (hk : s.period ≤ k) (he : (dir.days d)[k]? = some e)
    (hoccurs : s.occurs e = true) :
    ∃ b, (dir.days d)[k - s.period]? = some b ∧ s.occurs b = true := by
  have hlt : k - s.period < (dir.days d).length :=
    (Nat.sub_le k s.period).trans_lt (List.getElem?_eq_some_iff.1 he).1
  obtain ⟨b, hb⟩ : ∃ b, (dir.days d)[k - s.period]? = some b := ⟨_, List.getElem?_eq_getElem hlt⟩
  refine ⟨b, hb, ?_⟩
  rw [Direction.getElem?_days] at he hb
  rw [Nat.cast_sub hk] at hb
  rw [← hoccurs]
  cases dir with
  | forward =>
      symm
      apply occurs_add_period
      simp only [Direction.sign] at he hb
      omega
  | backward =>
      apply occurs_add_period
      simp only [Direction.sign] at he hb
      omega

theorem seekWithin?_period (s : Schedule) (dir : Direction) (d : Date) :
    s.seekWithin? dir d (s.period - 1) = s.seek? dir d := by
  rw [seekWithin?_eq_find?, seek?_eq_find?, Nat.sub_add_cancel s.period_pos]
  apply find?_take_of_forall_exists_lt
  intro k e hk he hoccurs
  have hlt : k - s.period < k := Nat.sub_lt (s.period_pos.trans_le hk) s.period_pos
  exact ⟨k - s.period, hlt, exists_occurs_of_period_le hk he hoccurs⟩

/-- Within one period a search comes to the nearest occurrence, however far ahead others are. -/
theorem exists_seekWithin?_period (dir : Direction) (h : dir.Reaches d e)
    (hoccurs : s.occurs e = true) :
    ∃ n, s.seekWithin? dir d (s.period - 1) = some n ∧ (dir.Reaches d n ∧ s.occurs n = true) ∧
      ∀ x, dir.Reaches d x ∧ s.occurs x = true → dir.Reaches n x := by
  obtain ⟨n, hseek⟩ := exists_seek?_eq_some h hoccurs
  exact ⟨n, (s.seekWithin?_period dir d).trans hseek, nearest_of_seek? hseek⟩

theorem repeats_after_period (s : Schedule) :
    (∀ d e : Date, e.number = d.number + s.period →
      s.slots e = s.slots d ∧ s.matching? e = s.matching? d ∧
        s.matchingIndex? e = s.matchingIndex? d ∧ s.occurs e = s.occurs d) ∧
    (∀ d : Date, s.nextWithin? d (s.period - 1) = s.next? d ∧
      s.previousWithin? d (s.period - 1) = s.previous? d) ∧
    ∀ d e : Date, s.occurs e = true →
      (d ≤ e → ∃ n, s.nextWithin? d (s.period - 1) = some n ∧
        IsLeast {x | d ≤ x ∧ s.occurs x = true} n) ∧
      (e ≤ d → ∃ n, s.previousWithin? d (s.period - 1) = some n ∧
        IsGreatest {x | x ≤ d ∧ s.occurs x = true} n) := by
  refine ⟨fun d e h => ?_, fun d => ?_, fun d e hoccurs => ⟨fun h => ?_, fun h => ?_⟩⟩
  · exact ⟨slots_add_period h, matching?_add_period h, matchingIndex?_add_period h,
      occurs_add_period h⟩
  · exact ⟨s.seekWithin?_period .forward d, s.seekWithin?_period .backward d⟩
  · exact exists_seekWithin?_period .forward h hoccurs
  · exact exists_seekWithin?_period .backward h hoccurs

/-- Two cadences that meet every six weeks. -/
def secondAndThirdWeeks : Schedule :=
  ⟨[⟨.weekly (.everyNth 2 .first (by decide)), 5, by decide⟩,
    ⟨.weekly (.everyNth 3 .first (by decide)), 7, by decide⟩]⟩

/-- The slots of the first date come back after one period, and from the day behind it a search
over one period comes to the date two weeks after it. -/
theorem repeats_after_period_secondAndThirdWeeks :
    secondAndThirdWeeks.period = 146097 * 6 ∧
      ∃ d e n : Date, d.number = Date.first.number + 1 ∧ n.number = Date.first.number + 14 ∧
        e.number = Date.first.number + secondAndThirdWeeks.period ∧
        secondAndThirdWeeks.slots e = 5 ∧
        secondAndThirdWeeks.nextWithin? d (secondAndThirdWeeks.period - 1) = some n ∧
        IsLeast {x | d ≤ x ∧ secondAndThirdWeeks.occurs x = true} n := by
  let d : Date := ⟨firstNumber + 1, by decide, by decide⟩
  let n : Date := ⟨firstNumber + 14, by decide, by decide⟩
  have hperiod : secondAndThirdWeeks.period = 146097 * 6 := by decide +kernel
  obtain ⟨e, he⟩ : ∃ e : Date, e.number = Date.first.number + secondAndThirdWeeks.period := by
    apply Date.exists_number_eq
    · rw [hperiod]
      decide
    · rw [hperiod]
      decide
  have hfirst : secondAndThirdWeeks.slots .first = 5 := by decide +kernel
  have hoccurs : secondAndThirdWeeks.occurs n = true := by decide +kernel
  have hnext : secondAndThirdWeeks.next? d = some n := by decide +kernel
  have hdn : d ≤ n := by decide
  obtain ⟨hrepeats, hcomplete, hfound⟩ := repeats_after_period secondAndThirdWeeks
  have hwithin := (hcomplete d).1.trans hnext
  obtain ⟨m, hm, hleast⟩ := (hfound d n hoccurs).1 hdn
  obtain rfl : n = m := Option.some.inj (hwithin.symm.trans hm)
  exact ⟨hperiod, d, e, n, rfl, rfl, he, (hrepeats .first e he).1.trans hfirst, hwithin, hleast⟩

end Schedule

end Recurrence
