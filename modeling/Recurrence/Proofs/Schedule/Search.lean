import Recurrence.Proofs.Calendar.Axis
import Recurrence.Schedule.Search

/-!
# The dates that a search looks at

From a date on, the days in a direction form one list without gaps up to the end of the axis. A
search finds the first date in this list, or in so many of its dates as the search may look at,
that satisfies its predicate. The dates collected between two dates are those of this list that
satisfy the predicate, from the one date on as long as the other one is not passed.
-/

namespace Recurrence

namespace Date

/-- All dates from one date to another, both included. -/
def interval (start stop : Date) : List Date :=
  (List.range (stop.number + 1 - start.number).toNat).filterMap fun k : ℕ =>
    ofNumber? (start.number + k)

variable {start stop d e : Date}

theorem mem_interval : d ∈ interval start stop ↔ start ≤ d ∧ d ≤ stop := by
  simp only [interval, List.mem_filterMap, List.mem_range, ofNumber?_eq_some, le_def]
  constructor
  · rintro ⟨k, hk, hd⟩
    omega
  · rintro ⟨hstart, hstop⟩
    exact ⟨(d.number - start.number).toNat, by omega, by omega⟩

theorem sortedLT_interval (start stop : Date) : (interval start stop).SortedLT := by
  apply List.Pairwise.sortedLT
  apply List.pairwise_lt_range.filterMap
  intro j k hjk d hd e he
  rw [ofNumber?_eq_some] at hd he
  rw [lt_def]
  omega

end Date

namespace Direction

/-- The change of the day number in one step. -/
def sign : Direction → ℤ
  | forward => 1
  | backward => -1

/-- The one date is met before the other. -/
def Before : Direction → Date → Date → Prop
  | forward, d, e => d < e
  | backward, d, e => e < d

/-- The date is met from the other one on. -/
def Reaches : Direction → Date → Date → Prop
  | forward, d, e => d ≤ e
  | backward, d, e => e ≤ d

/-- The dates from a date on, in the order in which they are met. -/
def days : Direction → Date → List Date
  | forward, d => Date.interval d Date.last
  | backward, d => (Date.interval Date.first d).reverse

variable {dir : Direction} {d e x : Date}

instance : Std.Irrefl dir.Before where
  irrefl d := by
    cases dir with
    | forward => exact lt_irrefl d
    | backward => exact lt_irrefl d

instance : Std.Antisymm dir.Before where
  antisymm d e h h' := by
    cases dir with
    | forward => exact absurd h' (lt_asymm h)
    | backward => exact absurd h' (lt_asymm h)

theorem step?_eq_some_iff : dir.step? d = some e ↔ e.number = d.number + dir.sign := by
  cases dir with
  | forward => exact Date.succ?_eq_some
  | backward => exact Date.pred?_eq_some

theorem reaches_iff : dir.Reaches d e ↔ d = e ∨ dir.Before d e := by
  cases dir with
  | forward => exact le_iff_eq_or_lt
  | backward => exact le_iff_eq_or_lt.trans (or_congr_left eq_comm)

theorem before_iff_of_step? (h : dir.step? d = some e) : dir.Before d x ↔ dir.Reaches e x := by
  rw [step?_eq_some_iff] at h
  cases dir with
  | forward =>
      simp only [Before, Reaches, sign, Date.lt_def, Date.le_def] at h ⊢
      omega
  | backward =>
      simp only [Before, Reaches, sign, Date.lt_def, Date.le_def] at h ⊢
      omega

theorem not_before_of_step? (h : dir.step? d = none) : ¬ dir.Before d x := by
  cases dir with
  | forward =>
      obtain rfl := Date.succ?_eq_none.1 h
      exact not_lt_of_ge x.le_last
  | backward =>
      obtain rfl := Date.pred?_eq_none.1 h
      exact not_lt_of_ge x.first_le

theorem mem_days : e ∈ dir.days d ↔ dir.Reaches d e := by
  cases dir with
  | forward =>
      rw [days, Date.mem_interval]
      exact and_iff_left e.le_last
  | backward =>
      rw [days, List.mem_reverse, Date.mem_interval]
      exact and_iff_right e.first_le

theorem pairwise_days (dir : Direction) (d : Date) : (dir.days d).Pairwise dir.Before := by
  cases dir with
  | forward => exact (Date.sortedLT_interval d Date.last).pairwise
  | backward => exact List.pairwise_reverse.2 (Date.sortedLT_interval Date.first d).pairwise

/-- The days go on from the next date, and end where there is none. -/
theorem days_eq (dir : Direction) (d : Date) :
    dir.days d = d :: (dir.step? d).elim [] dir.days := by
  cases hstep : dir.step? d with
  | none =>
      apply (pairwise_days dir d).eq_of_mem_iff (List.pairwise_singleton _ d)
      intro x
      rw [mem_days, reaches_iff, List.mem_singleton, eq_comm]
      exact or_iff_left (not_before_of_step? hstep)
  | some e =>
      have hbefore : ∀ x ∈ dir.days e, dir.Before d x := fun x hx =>
        (before_iff_of_step? hstep).2 (mem_days.1 hx)
      apply (pairwise_days dir d).eq_of_mem_iff
        (List.pairwise_cons.2 ⟨hbefore, pairwise_days dir e⟩)
      intro x
      rw [mem_days, reaches_iff, List.mem_cons, mem_days, before_iff_of_step? hstep, eq_comm]

theorem ahead_of_step?_eq_none (h : dir.step? d = none) : dir.ahead d = 0 := by
  cases dir with
  | forward =>
      obtain rfl := Date.succ?_eq_none.1 h
      rfl
  | backward =>
      obtain rfl := Date.pred?_eq_none.1 h
      rfl

theorem ahead_of_step? (h : dir.step? d = some e) : dir.ahead d = dir.ahead e + 1 := by
  have hfirst := e.first_le
  have hlast := e.le_last
  rw [step?_eq_some_iff] at h
  cases dir with
  | forward =>
      simp only [ahead, Date.daysAfter, sign] at h ⊢
      omega
  | backward =>
      simp only [ahead, Date.daysBefore, sign] at h ⊢
      omega

/-- A property holds of every date when it passes to a date from the next one. -/
theorem induction (dir : Direction) {motive : Date → Prop}
    (step : ∀ d, (∀ e, dir.step? d = some e → motive e) → motive d) (d : Date) : motive d := by
  induction hn : dir.ahead d generalizing d with
  | zero =>
      apply step
      intro e he
      rw [ahead_of_step? he] at hn
      exact absurd hn (Nat.succ_ne_zero _)
  | succ n ih =>
      apply step
      intro e he
      rw [ahead_of_step? he] at hn
      exact ih e (Nat.succ.inj hn)

theorem length_days (dir : Direction) (d : Date) : (dir.days d).length = dir.ahead d + 1 := by
  induction d using dir.induction with
  | step d ih =>
      rw [days_eq, List.length_cons]
      cases hstep : dir.step? d with
      | none => rw [ahead_of_step?_eq_none hstep, Option.elim_none, List.length_nil]
      | some e => rw [ahead_of_step? hstep, Option.elim_some, ih e hstep]

/-- So many steps from a date stands the date that many days ahead. -/
theorem getElem?_days {k : ℕ} :
    (dir.days d)[k]? = some e ↔ e.number = d.number + dir.sign * k := by
  induction k generalizing d with
  | zero =>
      rw [days_eq, List.getElem?_cons_zero, Option.some.injEq, Date.ext_iff, eq_comm]
      simp
  | succ k ih =>
      rw [days_eq, List.getElem?_cons_succ]
      cases hstep : dir.step? d with
      | none =>
          have hfirst := e.first_le
          have hlast := e.le_last
          have hahead := ahead_of_step?_eq_none hstep
          simp only [Option.elim_none, List.getElem?_nil, reduceCtorEq, false_iff]
          cases dir with
          | forward =>
              simp only [ahead, Date.daysAfter, sign] at hahead ⊢
              omega
          | backward =>
              simp only [ahead, Date.daysBefore, sign] at hahead ⊢
              omega
      | some d' =>
          rw [Option.elim_some, ih, step?_eq_some_iff.1 hstep]
          push_cast
          rw [mul_add, mul_one, add_assoc, add_comm dir.sign]

end Direction

/-- A search looks for the first of the days ahead, among as many as it may look at. -/
theorem search_eq_find? (dir : Direction) (p : Date → Bool) (n : ℕ) (d : Date) :
    search dir p n d = ((dir.days d).take (n + 1)).find? p := by
  induction n generalizing d with
  | zero =>
      rw [Direction.days_eq, List.take_succ_cons, List.take_zero, search]
      cases hp : p d with
      | true => simp [hp]
      | false => simp [hp]
  | succ n ih =>
      rw [Direction.days_eq, List.take_succ_cons, search]
      cases hp : p d with
      | true => simp [hp]
      | false =>
          rw [List.find?_cons_of_neg (by simp [hp]), if_neg (by simp)]
          cases dir.step? d with
          | none => simp
          | some e => exact ih e

/-- What is collected stands in front of what was found before, in reverse order. -/
theorem collect_eq (p : Date → Bool) (stop : Date) (n : ℕ) (d : Date) (found : List Date) :
    collect p stop n d found =
      ((((Direction.forward.days d).take n).takeWhile fun e => decide (e ≤ stop)).filter p).reverse
        ++ found := by
  induction n generalizing d found with
  | zero => rfl
  | succ n ih =>
      rw [Direction.days_eq, List.take_succ_cons, collect]
      by_cases hstop : d ≤ stop
      · rw [if_pos hstop, List.takeWhile_cons_of_pos (by simpa using hstop)]
        cases hp : p d with
        | true =>
            rw [List.filter_cons_of_pos hp, List.reverse_cons, List.append_assoc,
              List.singleton_append, if_pos rfl, Direction.step?]
            cases d.succ? with
            | none => simp
            | some e => exact ih e (d :: found)
        | false =>
            rw [List.filter_cons_of_neg (by simp [hp]), if_neg (by decide), Direction.step?]
            cases d.succ? with
            | none => simp
            | some e => exact ih e found
      · rw [if_neg hstop, List.takeWhile_cons_of_neg (by simpa using hstop)]
        rfl

/-- Where a predicate cannot hold again once it has failed, taking while it holds is filtering. -/
theorem takeWhile_eq_filter {α : Type} {p : α → Bool} {l : List α}
    (h : l.Pairwise fun a b => p b = true → p a = true) : l.takeWhile p = l.filter p := by
  induction l with
  | nil => rfl
  | cons a l ih =>
      obtain ⟨hhead, htail⟩ := List.pairwise_cons.1 h
      cases hp : p a with
      | true => rw [List.takeWhile_cons_of_pos hp, List.filter_cons_of_pos hp, ih htail]
      | false =>
          have hnone : ∀ b ∈ l, ¬ p b = true := by
            intro b hb hpb
            simp [hhead b hb hpb] at hp
          rw [List.takeWhile_cons_of_neg (by simp [hp]), List.filter_cons_of_neg (by simp [hp]),
            List.filter_eq_nil_iff.2 hnone]

/-- What is found first stands among the first elements, or else among those behind them. -/
theorem find?_eq_take_or_drop {α : Type} (p : α → Bool) (l : List α) (n : ℕ) :
    l.find? p = ((l.take n).find? p).or ((l.drop n).find? p) := by
  rw [← List.find?_append, List.take_append_drop]

namespace Schedule

variable {s : Schedule} {dir : Direction}

theorem occurs_of_isEmpty (h : s.isEmpty = true) (d : Date) : s.occurs d = false := by
  rw [occurs, List.isEmpty_iff.1 h, List.any_nil]

theorem seek?_eq_find? (s : Schedule) (dir : Direction) (d : Date) :
    s.seek? dir d = (dir.days d).find? s.occurs := by
  unfold seek?
  split_ifs with hempty
  · symm
    apply List.find?_eq_none.2
    intro e _
    simp [occurs_of_isEmpty hempty]
  · rw [search_eq_find?, ← Direction.length_days, List.take_length]

theorem datesBetween_eq (s : Schedule) (start stop : Date) :
    s.datesBetween start stop =
      ((Direction.forward.days start).takeWhile fun d => decide (d ≤ stop)).filter s.occurs := by
  have hlength := Direction.length_days .forward start
  rw [Direction.ahead] at hlength
  rw [datesBetween, collect_eq, ← hlength, List.take_length, List.append_nil, List.reverse_reverse]

theorem seekWithin?_eq_find? (s : Schedule) (dir : Direction) (d : Date) (n : ℕ) :
    s.seekWithin? dir d n = ((dir.days d).take (n + 1)).find? s.occurs :=
  search_eq_find? dir s.occurs n d

end Schedule

end Recurrence
