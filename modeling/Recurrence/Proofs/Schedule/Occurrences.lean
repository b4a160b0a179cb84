import Recurrence.Proofs.Schedule.Search
import Recurrence.Schedule.Cursor

/-!
# Three ways to the occurrences

The occurrences from a date on are the days ahead on which the schedule occurs. A cursor holds the
part of them that it has not yet yielded, and each pull takes the first one away. The occurrences
between two dates are the same whether they are collected day by day, walked to from the first of
the two, or walked to backwards from the last.
-/

namespace Recurrence

namespace Schedule

variable {s : Schedule} {dir : Direction} {d e start stop : Date}

/-- The occurrences from a date on, in the order in which they are met. -/
def occurrencesFrom (s : Schedule) (dir : Direction) (d : Date) : List Date :=
  (dir.days d).filter s.occurs

theorem mem_occurrencesFrom :
    e ∈ s.occurrencesFrom dir d ↔ dir.Reaches d e ∧ s.occurs e = true := by
  rw [occurrencesFrom, List.mem_filter, Direction.mem_days]

theorem pairwise_occurrencesFrom (s : Schedule) (dir : Direction) (d : Date) :
    (s.occurrencesFrom dir d).Pairwise dir.Before := (dir.pairwise_days d).filter _

theorem head?_occurrencesFrom : (s.occurrencesFrom dir d).head? = s.seek? dir d := by
  rw [occurrencesFrom, List.head?_filter, seek?_eq_find?]

/-- Behind the first occurrence stand the occurrences from the next day on. -/
theorem tail_occurrencesFrom :
    (s.occurrencesFrom dir d).tail =
      ((s.seek? dir d).bind dir.step?).elim [] (s.occurrencesFrom dir) := by
  induction d using dir.induction with
  | step d ih =>
      rw [seek?_eq_find?, occurrencesFrom, Direction.days_eq]
      cases hoccurs : s.occurs d with
      | true =>
          rw [List.filter_cons_of_pos hoccurs, List.find?_cons_of_pos hoccurs, List.tail_cons,
            Option.bind_some]
          cases dir.step? d with
          | none => rfl
          | some e => rfl
      | false =>
          rw [List.filter_cons_of_neg (by simp [hoccurs]),
            List.find?_cons_of_neg (by simp [hoccurs])]
          cases hstep : dir.step? d with
          | none => rfl
          | some e =>
              have htail := ih e hstep
              rwa [seek?_eq_find?, occurrencesFrom] at htail

/-- In ascending order the dates up to a last one come before those past it. -/
theorem takeWhile_le_eq_filter {l : List Date} (hl : l.Pairwise (· < ·)) (stop : Date) :
    l.takeWhile (fun d => decide (d ≤ stop)) = l.filter fun d => decide (d ≤ stop) := by
  apply takeWhile_eq_filter
  apply hl.imp
  intro d e hlt he
  exact decide_eq_true (hlt.le.trans (of_decide_eq_true he))

theorem datesBetween_eq_filter (s : Schedule) (start stop : Date) :
    s.datesBetween start stop =
      ((Direction.forward.days start).filter fun d => decide (d ≤ stop)).filter s.occurs := by
  rw [datesBetween_eq, takeWhile_le_eq_filter (Direction.forward.pairwise_days start)]

theorem mem_datesBetween :
    d ∈ s.datesBetween start stop ↔ start ≤ d ∧ d ≤ stop ∧ s.occurs d = true := by
  rw [datesBetween_eq_filter, List.mem_filter, List.mem_filter, Direction.mem_days,
    decide_eq_true_eq]
  exact and_assoc

theorem sortedLT_datesBetween (s : Schedule) (start stop : Date) :
    (s.datesBetween start stop).SortedLT := by
  rw [datesBetween_eq_filter]
  exact (((Direction.forward.pairwise_days start).filter _).filter _).sortedLT

theorem takeWhile_occurrencesFrom_forward (s : Schedule) (start stop : Date) :
    (s.occurrencesFrom .forward start).takeWhile (fun d => decide (d ≤ stop)) =
      s.datesBetween start stop := by
  rw [takeWhile_le_eq_filter (pairwise_occurrencesFrom s .forward start), occurrencesFrom,
    List.filter_comm, datesBetween_eq_filter]

theorem takeWhile_occurrencesFrom_backward (s : Schedule) (start stop : Date) :
    (s.occurrencesFrom .backward stop).takeWhile (fun d => decide (start ≤ d)) =
      (s.datesBetween start stop).reverse := by
  have hsorted : (s.occurrencesFrom .backward stop).SortedGT :=
    (pairwise_occurrencesFrom s .backward stop).sortedGT
  rw [takeWhile_eq_filter]
  · apply (hsorted.pairwise.filter _).sortedGT.eq_of_mem_iff
      (sortedLT_datesBetween s start stop).reverse
    intro d
    rw [List.mem_filter, mem_occurrencesFrom, List.mem_reverse, mem_datesBetween,
      decide_eq_true_eq]
    exact and_comm.trans Iff.rfl
  · apply hsorted.pairwise.imp
    intro d e hlt he
    exact decide_eq_true ((of_decide_eq_true he).trans (le_of_lt hlt))

end Schedule

namespace Cursor

variable {s : Schedule}

/-- The occurrences that a cursor has still to yield. -/
def remaining (s : Schedule) (c : Cursor) : List Date :=
  c.position.elim [] (s.occurrencesFrom c.direction)

theorem remaining_ofDate (s : Schedule) (dir : Direction) (d : Date) :
    (ofDate dir d).remaining s = s.occurrencesFrom dir d := rfl

/-- A pull takes the first of the remaining occurrences away. -/
theorem pull_fst (s : Schedule) (c : Cursor) : (c.pull s).1 = (c.remaining s).head? := by
  obtain ⟨dir, position⟩ := c
  cases position with
  | none => rfl
  | some d => exact Schedule.head?_occurrencesFrom.symm

theorem remaining_pull (s : Schedule) (c : Cursor) :
    (c.pull s).2.remaining s = (c.remaining s).tail := by
  obtain ⟨dir, position⟩ := c
  cases position with
  | none => rfl
  | some d => exact Schedule.tail_occurrencesFrom.symm

theorem take_eq_take_remaining (s : Schedule) (n : ℕ) (c : Cursor) :
    take s n c = (c.remaining s).take n := by
  induction n generalizing c with
  | zero => rw [take, List.take_zero]
  | succ n ih =>
      have hfound := pull_fst s c
      have hrest := remaining_pull s c
      rw [take]
      cases hpull : c.pull s with
      | mk found c' =>
          rw [hpull] at hfound hrest
          cases hremaining : c.remaining s with
          | nil =>
              rw [hremaining, List.head?_nil] at hfound
              subst hfound
              rw [List.take_nil]
          | cons d ds =>
              rw [hremaining, List.head?_cons] at hfound
              rw [hremaining, List.tail_cons] at hrest
              subst hfound
              rw [List.take_succ_cons, ← hrest, ← ih c']

theorem pulls_succ_fst (s : Schedule) (n : ℕ) (c : Cursor) :
    (c.pulls s (n + 1)).1 = (c.pull s).1 :: ((c.pull s).2.pulls s n).1 := rfl

theorem pulls_succ_snd (s : Schedule) (n : ℕ) (c : Cursor) :
    (c.pulls s (n + 1)).2 = ((c.pull s).2.pulls s n).2 := rfl

/-- Pulls yield the remaining occurrences in their order, and then nothing for ever. -/
theorem pulls_fst (s : Schedule) (n : ℕ) (c : Cursor) :
    (c.pulls s n).1 = (List.range n).map fun i => (c.remaining s)[i]? := by
  induction n generalizing c with
  | zero => rfl
  | succ n ih =>
      rw [pulls_succ_fst, ih, remaining_pull, pull_fst, List.range_succ_eq_map, List.map_cons,
        List.map_map, List.head?_eq_getElem?]
      congr 1
      apply List.map_congr_left
      intro i _
      exact List.getElem?_tail

/-- Pulls yield the dates of a list in their order, and then nothing for ever. -/
def Yields (s : Schedule) (c : Cursor) (ds : List Date) : Prop :=
  ∀ n, (c.pulls s n).1 = (List.range n).map fun i => ds[i]?

/-- What a cursor yields is determined by its pulls. -/
theorem yields_iff {c : Cursor} {ds : List Date} : c.Yields s ds ↔ ds = c.remaining s := by
  constructor
  · intro h
    apply List.ext_getElem?
    intro i
    have hpulls := h (i + 1)
    rw [pulls_fst, List.map_inj_left] at hpulls
    exact (hpulls i (List.mem_range.2 (Nat.lt_succ_self i))).symm
  · rintro rfl n
    exact pulls_fst s n c

theorem remaining_pulls (s : Schedule) (n : ℕ) (c : Cursor) :
    (c.pulls s n).2.remaining s = (c.remaining s).drop n := by
  induction n generalizing c with
  | zero => rfl
  | succ n ih => rw [pulls_succ_snd, ih, remaining_pull, List.drop_tail]

end Cursor

namespace Schedule

theorem datesBetween_agrees_with_cursors (s : Schedule) (start stop : Date) :
    (s.datesBetween start stop).SortedLT ∧
    (∀ d, d ∈ s.datesBetween start stop ↔ start ≤ d ∧ d ≤ stop ∧ s.occurs d = true) ∧
    (stop < start → s.datesBetween start stop = []) ∧
    ∀ n, (Cursor.take s n (.ofDate .forward start)).takeWhile (fun d => decide (d ≤ stop)) =
        (s.datesBetween start stop).take n ∧
      (Cursor.take s n (.ofDate .backward stop)).takeWhile (fun d => decide (start ≤ d)) =
        (s.datesBetween start stop).reverse.take n := by
  refine ⟨sortedLT_datesBetween s start stop, fun d => mem_datesBetween, ?_, fun n => ⟨?_, ?_⟩⟩
  · intro h
    apply List.eq_nil_iff_forall_not_mem.2
    intro d hd
    obtain ⟨hstart, hstop, -⟩ := mem_datesBetween.1 hd
    exact absurd (h.trans_le hstart) (not_lt_of_ge hstop)
  · rw [Cursor.take_eq_take_remaining, Cursor.remaining_ofDate, ← List.take_takeWhile,
      takeWhile_occurrencesFrom_forward]
  · rw [Cursor.take_eq_take_remaining, Cursor.remaining_ofDate, ← List.take_takeWhile,
      takeWhile_occurrencesFrom_backward]

/-- The last three weeks of the axis, walked to from both sides. The cursor that walks back goes on
in front of them, and the other one ends with the axis. -/
theorem datesBetween_agrees_with_cursors_last_first :
    ∃ (s : Schedule) (start d e : Date), s.datesBetween start .last = [d, e, .last] ∧
      (Cursor.take s 5 (.ofDate .forward start)).takeWhile (fun x => decide (x ≤ .last)) =
        [d, e, .last] ∧
      (Cursor.take s 5 (.ofDate .backward .last)).takeWhile (fun x => decide (start ≤ x)) =
        [.last, e, d] ∧
      Date.first < Date.last ∧ s.datesBetween .last .first = [] := by
  let s : Schedule := ⟨[⟨.weekly (.every Date.last.weekday), 3, by decide⟩]⟩
  let start : Date := ⟨lastNumber - 20, by decide, by decide⟩
  let d : Date := ⟨lastNumber - 14, by decide, by decide⟩
  let e : Date := ⟨lastNumber - 7, by decide, by decide⟩
  have hdates : s.datesBetween start .last = [d, e, .last] := by decide +kernel
  have hempty : Date.first < Date.last := by decide
  obtain ⟨-, -, -, hcursors⟩ := datesBetween_agrees_with_cursors s start .last
  obtain ⟨hforward, hbackward⟩ := hcursors 5
  rw [hdates] at hforward hbackward
  exact ⟨s, start, d, e, hdates, hforward, hbackward, hempty,
    (datesBetween_agrees_with_cursors s .last .first).2.2.1 hempty⟩

end Schedule

end Recurrence
