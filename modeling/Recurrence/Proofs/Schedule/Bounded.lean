import Recurrence.Proofs.Machine.Queries

/-!
# Searches within so many days

A search that may look at a date and at so many days after it finds what an unbounded one finds,
where that is near enough, and nothing otherwise. This holds for no days at all, for more days than
there are dates ahead, and for the greatest number of days that the machine can count.
-/

namespace Recurrence

namespace Direction

variable {dir : Direction} {d e : Date} {n : ℕ}

/-- How many days ahead of one date another one stands, negative where it stands behind. -/
def distance (dir : Direction) (d e : Date) : ℤ := dir.sign * (e.number - d.number)

theorem distance_forward : forward.distance d e = e.number - d.number := Int.one_mul _

theorem distance_backward : backward.distance d e = d.number - e.number := by
  rw [distance, sign, neg_one_mul, neg_sub]

theorem distance_of_getElem?_days (h : (dir.days d)[n]? = some e) : dir.distance d e = n := by
  rw [getElem?_days] at h
  cases dir with
  | forward =>
      rw [sign] at h
      rw [distance_forward]
      omega
  | backward =>
      rw [sign] at h
      rw [distance_backward]
      omega

theorem distance_lt_of_mem_take (h : e ∈ (dir.days d).take n) : dir.distance d e < n := by
  obtain ⟨i, hi⟩ := List.mem_iff_getElem?.1 h
  rw [List.getElem?_take] at hi
  split_ifs at hi with hlt
  rw [distance_of_getElem?_days hi]
  exact Int.ofNat_lt.2 hlt

theorem le_distance_of_mem_drop (h : e ∈ (dir.days d).drop n) : n ≤ dir.distance d e := by
  obtain ⟨i, hi⟩ := List.mem_iff_getElem?.1 h
  rw [List.getElem?_drop] at hi
  rw [distance_of_getElem?_days hi]
  exact Int.ofNat_le.2 (Nat.le_add_right n i)

end Direction

namespace Schedule

variable {s : Schedule} {dir : Direction} {d e : Date} {m n : ℕ}

/-- The last date that may be looked at is the one so many days ahead. -/
theorem seekWithin?_eq_some_iff :
    s.seekWithin? dir d n = some e ↔ s.seek? dir d = some e ∧ dir.distance d e ≤ n := by
  rw [seekWithin?_eq_find?, seek?_eq_find?, find?_eq_take_or_drop s.occurs (dir.days d) (n + 1)]
  constructor
  · intro h
    have hnear := Direction.distance_lt_of_mem_take (List.mem_of_find?_eq_some h)
    exact ⟨by rw [h, Option.some_or], by omega⟩
  · rintro ⟨h, hnear⟩
    rcases Option.or_eq_some_iff.1 h with hfront | ⟨-, hback⟩
    · exact hfront
    · have hfar := Direction.le_distance_of_mem_drop (List.mem_of_find?_eq_some hback)
      omega

theorem seekWithin?_eq_none_iff :
    s.seekWithin? dir d n = none ↔ ∀ e, s.seek? dir d = some e → n < dir.distance d e := by
  simp only [Option.eq_none_iff_forall_ne_some, ne_eq, seekWithin?_eq_some_iff, not_and, not_le]

/-- What is found within some days is found within more. -/
theorem seekWithin?_eq_some_of_le (h : m ≤ n) (hfound : s.seekWithin? dir d m = some e) :
    s.seekWithin? dir d n = some e := by
  rw [seekWithin?_eq_some_iff] at hfound ⊢
  exact ⟨hfound.1, hfound.2.trans (Int.ofNat_le.2 h)⟩

/-- A bounded search finds what the unbounded one does if that is near enough, and nothing else. The
widths that the searches are computed in are wide enough for every bound. -/
theorem within_iff_near (s : Schedule) :
    (∀ d (maxDays : ℕ) e, s.nextWithin? d maxDays = some e ↔
      s.next? d = some e ∧ e.number - d.number ≤ maxDays) ∧
    (∀ d (maxDays : ℕ), s.nextWithin? d maxDays = none ↔
      ∀ e, s.next? d = some e → maxDays < e.number - d.number) ∧
    (∀ d (maxDays : ℕ) e, s.previousWithin? d maxDays = some e ↔
      s.previous? d = some e ∧ d.number - e.number ≤ maxDays) ∧
    (∀ d (maxDays : ℕ), s.previousWithin? d maxDays = none ↔
      ∀ e, s.previous? d = some e → maxDays < d.number - e.number) ∧
    (∀ d m n e, m ≤ n →
      (s.nextWithin? d m = some e → s.nextWithin? d n = some e) ∧
      (s.previousWithin? d m = some e → s.previousWithin? d n = some e)) ∧
    ((∀ a ∈ s.allotments, a.rule.Constructed) → ∀ d maxDays, maxDays < 2 ^ 32 →
      Machine.seekWithin? s .forward d maxDays = some (s.nextWithin? d maxDays) ∧
      Machine.seekWithin? s .backward d maxDays = some (s.previousWithin? d maxDays)) := by
  refine ⟨fun d maxDays e => ?_, fun d maxDays => ?_, fun d maxDays e => ?_, fun d maxDays => ?_,
    fun d m n e h => ⟨seekWithin?_eq_some_of_le h, seekWithin?_eq_some_of_le h⟩, ?_⟩
  · rw [← Direction.distance_forward]
    exact seekWithin?_eq_some_iff
  · simp only [← Direction.distance_forward]
    exact seekWithin?_eq_none_iff
  · rw [← Direction.distance_backward]
    exact seekWithin?_eq_some_iff
  · simp only [← Direction.distance_backward]
    exact seekWithin?_eq_none_iff
  · intro hs d maxDays hmax
    have hwell : ∀ a ∈ s.allotments, a.rule.WellFormed := fun a ha => (hs a ha).wellFormed
    exact ⟨Machine.seekWithin?_eq hwell .forward d hmax,
      Machine.seekWithin?_eq hwell .backward d hmax⟩

/-- The date itself is found within no days, and therefore within as many as can be asked for. -/
theorem within_iff_near_widest :
    ∃ s : Schedule, (∀ a ∈ s.allotments, a.rule.Constructed) ∧
      s.nextWithin? .last 0 = some .last ∧ s.nextWithin? .last 4294967295 = some .last ∧
      Machine.seekWithin? s .forward .last 4294967295 = some (some .last) := by
  let s : Schedule := ⟨[⟨.weekly (.every Date.last.weekday), 1, by decide⟩]⟩
  have hs : ∀ a ∈ s.allotments, a.rule.Constructed := by
    intro a ha
    rw [List.mem_singleton.1 ha]
    exact .every _
  obtain ⟨-, -, -, -, hstable, hmachine⟩ := within_iff_near s
  have hnow : s.nextWithin? .last 0 = some .last := by decide +kernel
  have hwide : s.nextWithin? .last 4294967295 = some .last :=
    (hstable .last 0 4294967295 .last (Nat.zero_le _)).1 hnow
  refine ⟨s, hs, hnow, hwide, ?_⟩
  rw [(hmachine hs .last 4294967295 (by decide)).1, hwide]

end Schedule

end Recurrence
