import Recurrence.Proofs.Schedule.Search

/-!
# The nearest occurrences

A scan walks from day to day until a date satisfies its predicate or the axis ends, with no limit
and no shortcut. Every scan comes to an end, and what it finds is the answer of the search: the
nearest occurrence in its direction, or nothing where there is none up to the end of the axis.
Whether some date between two dates occurs can be asked from either of them.
-/

namespace Recurrence

/-- A walk from a date on, and what it has found when it ends. -/
inductive Scan (dir : Direction) (p : Date → Bool) : Date → Option Date → Prop
  | found {d : Date} (h : p d = true) : Scan dir p d (some d)
  | ended {d : Date} (h : p d = false) (hstep : dir.step? d = none) : Scan dir p d none
  | further {d e : Date} {r : Option Date} (h : p d = false) (hstep : dir.step? d = some e)
      (hscan : Scan dir p e r) : Scan dir p d r

section Scan

variable {dir : Direction} {p : Date → Bool} {d : Date} {r : Option Date}

theorem Scan.eq_find? (h : Scan dir p d r) : r = (dir.days d).find? p := by
  induction h with
  | found h => rw [Direction.days_eq, List.find?_cons_of_pos h]
  | ended h hstep => simp [Direction.days_eq, h, hstep]
  | @further d e r h hstep _ ih =>
      rw [Direction.days_eq, List.find?_cons_of_neg (by simp [h]), hstep, ih]
      rfl

/-- Every scan ends, because each step leaves fewer dates ahead. -/
theorem scan_find? (dir : Direction) (p : Date → Bool) (d : Date) :
    Scan dir p d ((dir.days d).find? p) := by
  induction d using dir.induction with
  | step d ih =>
      cases hp : p d with
      | true =>
          rw [Direction.days_eq, List.find?_cons_of_pos hp]
          exact .found hp
      | false =>
          rw [Direction.days_eq, List.find?_cons_of_neg (by simp [hp])]
          cases hstep : dir.step? d with
          | none => exact .ended hp hstep
          | some e => exact .further hp hstep (ih e hstep)

end Scan

namespace Direction

variable {dir : Direction} {d e x : Date}

theorem Reaches.refl (dir : Direction) (d : Date) : dir.Reaches d d :=
  reaches_iff.2 (Or.inl rfl)

theorem Reaches.trans (h : dir.Reaches d e) (h' : dir.Reaches e x) : dir.Reaches d x := by
  cases dir with
  | forward => exact le_trans h h'
  | backward => exact le_trans h' h

theorem Reaches.antisymm (h : dir.Reaches d e) (h' : dir.Reaches e d) : d = e := by
  cases dir with
  | forward => exact le_antisymm h h'
  | backward => exact le_antisymm h' h

end Direction

namespace Schedule

variable {s : Schedule} {dir : Direction} {d e n : Date} {r : Option Date}

theorem scan_iff_seek? : Scan dir s.occurs d r ↔ r = s.seek? dir d := by
  rw [seek?_eq_find?]
  constructor
  · exact Scan.eq_find?
  · rintro rfl
    exact scan_find? dir s.occurs d

theorem seek?_eq_none_iff :
    s.seek? dir d = none ↔ ∀ e, dir.Reaches d e → s.occurs e = false := by
  simp only [seek?_eq_find?, List.find?_eq_none, Direction.mem_days, Bool.not_eq_true]

theorem exists_seek?_eq_some (h : dir.Reaches d e) (hoccurs : s.occurs e = true) :
    ∃ n, s.seek? dir d = some n := by
  apply Option.ne_none_iff_exists'.1
  intro hnone
  rw [seek?_eq_none_iff.1 hnone e h] at hoccurs
  cases hoccurs

theorem nearest_of_seek? (h : s.seek? dir d = some n) :
    (dir.Reaches d n ∧ s.occurs n = true) ∧
      ∀ e, dir.Reaches d e ∧ s.occurs e = true → dir.Reaches n e := by
  rw [seek?_eq_find?] at h
  have hmem : n ∈ dir.days d := List.mem_of_find?_eq_some h
  obtain ⟨hoccurs, front, back, hdays, hfront⟩ := List.find?_eq_some_iff_append.1 h
  refine ⟨⟨Direction.mem_days.1 hmem, hoccurs⟩, ?_⟩
  rintro e ⟨he, hoccurs'⟩
  rw [← Direction.mem_days, hdays, List.mem_append] at he
  rcases he with he | he
  · have hmissed := hfront e he
    rw [hoccurs'] at hmissed
    cases hmissed
  · have hpairwise := dir.pairwise_days d
    rw [hdays, List.pairwise_append, List.pairwise_cons] at hpairwise
    rw [Direction.reaches_iff]
    rcases List.mem_cons.1 he with rfl | he
    · exact Or.inl rfl
    · exact Or.inr (hpairwise.2.1.1 e he)

/-- A search finds the date that reaches all other occurrences ahead. -/
theorem seek?_eq_some_iff :
    s.seek? dir d = some n ↔ (dir.Reaches d n ∧ s.occurs n = true) ∧
      ∀ e, dir.Reaches d e ∧ s.occurs e = true → dir.Reaches n e := by
  constructor
  · exact nearest_of_seek?
  · rintro ⟨⟨hn, hoccurs⟩, hnearest⟩
    obtain ⟨m, hseek⟩ := exists_seek?_eq_some hn hoccurs
    obtain ⟨hm, hnearest'⟩ := nearest_of_seek? hseek
    rw [hseek, (hnearest m hm).antisymm (hnearest' n ⟨hn, hoccurs⟩)]

theorem bind_seek? (s : Schedule) (dir : Direction) (d : Date) :
    (s.seek? dir d).bind (s.seek? dir) = s.seek? dir d := by
  cases hseek : s.seek? dir d with
  | none => rfl
  | some n =>
      obtain ⟨⟨-, hoccurs⟩, -⟩ := seek?_eq_some_iff.1 hseek
      rw [Option.bind_some, seek?_eq_some_iff]
      exact ⟨⟨.refl dir n, hoccurs⟩, fun e he => he.1⟩

/-- Between two dates there is an occurrence exactly when the search from the one meets one that is
not yet past the other. -/
theorem exists_occurs_between_iff (dir : Direction) :
    (∃ x, dir.Reaches d x ∧ dir.Reaches x e ∧ s.occurs x = true) ↔
      ∃ n, s.seek? dir d = some n ∧ dir.Reaches n e := by
  constructor
  · rintro ⟨x, hx, hxe, hoccurs⟩
    obtain ⟨n, hseek⟩ := exists_seek?_eq_some hx hoccurs
    exact ⟨n, hseek, ((nearest_of_seek? hseek).2 x ⟨hx, hoccurs⟩).trans hxe⟩
  · rintro ⟨n, hseek, hne⟩
    obtain ⟨⟨hn, hoccurs⟩, -⟩ := nearest_of_seek? hseek
    exact ⟨n, hn, hne, hoccurs⟩

/-- A search that starts further ahead finds nothing nearer. -/
theorem exists_seek?_of_reaches (dir : Direction) (h : dir.Reaches d e)
    (hn : s.seek? dir e = some n) : ∃ m, s.seek? dir d = some m ∧ dir.Reaches m n := by
  obtain ⟨⟨hen, hoccurs⟩, -⟩ := nearest_of_seek? hn
  exact (exists_occurs_between_iff dir).1 ⟨n, h.trans hen, .refl dir n, hoccurs⟩

theorem exists_occurs_between_iff_next? :
    (∃ x, d ≤ x ∧ x ≤ e ∧ s.occurs x = true) ↔ ∃ n, s.next? d = some n ∧ n ≤ e :=
  exists_occurs_between_iff .forward

theorem exists_occurs_between_iff_previous? :
    (∃ x, d ≤ x ∧ x ≤ e ∧ s.occurs x = true) ↔ ∃ m, s.previous? e = some m ∧ d ≤ m := by
  have h : (∃ x, x ≤ e ∧ d ≤ x ∧ s.occurs x = true) ↔ ∃ m, s.previous? e = some m ∧ d ≤ m :=
    exists_occurs_between_iff .backward
  rw [← h]
  exact exists_congr fun x => and_left_comm

theorem next?_and_previous?_are_nearest (s : Schedule) :
    (∀ d n, s.next? d = some n ↔ IsLeast {e | d ≤ e ∧ s.occurs e = true} n) ∧
    (∀ d, s.next? d = none ↔ ∀ e, d ≤ e → s.occurs e = false) ∧
    (∀ d n, s.previous? d = some n ↔ IsGreatest {e | e ≤ d ∧ s.occurs e = true} n) ∧
    (∀ d, s.previous? d = none ↔ ∀ e, e ≤ d → s.occurs e = false) ∧
    (∀ d, (s.next? d).bind s.next? = s.next? d ∧
      (s.previous? d).bind s.previous? = s.previous? d) ∧
    (∀ d e, d ≤ e →
      (∀ n, s.next? e = some n → ∃ m, s.next? d = some m ∧ m ≤ n) ∧
      ∀ m, s.previous? d = some m → ∃ n, s.previous? e = some n ∧ m ≤ n) ∧
    (∀ d e,
      ((∃ x, d ≤ x ∧ x ≤ e ∧ s.occurs x = true) ↔ ∃ n, s.next? d = some n ∧ n ≤ e) ∧
      ((∃ n, s.next? d = some n ∧ n ≤ e) ↔ ∃ m, s.previous? e = some m ∧ d ≤ m)) ∧
    ∀ d r, (Scan .forward s.occurs d r ↔ r = s.next? d) ∧
      (Scan .backward s.occurs d r ↔ r = s.previous? d) := by
  refine ⟨fun d n => seek?_eq_some_iff, fun d => seek?_eq_none_iff, fun d n => seek?_eq_some_iff,
    fun d => seek?_eq_none_iff, fun d => ⟨bind_seek? s .forward d, bind_seek? s .backward d⟩,
    fun d e h => ⟨?_, ?_⟩, fun d e => ⟨exists_occurs_between_iff_next?, ?_⟩,
    fun d r => ⟨scan_iff_seek?, scan_iff_seek?⟩⟩
  · intro n hn
    exact exists_seek?_of_reaches .forward h hn
  · intro m hm
    exact exists_seek?_of_reaches .backward h hm
  · rw [← exists_occurs_between_iff_next?]
    exact exists_occurs_between_iff_previous?

theorem next?_and_previous?_are_nearest_last :
    ∃ s : Schedule, s.next? .last = some .last ∧ s.previous? .last = some .last ∧
      ∃ m, s.next? .first = some m ∧ m ≤ .last := by
  let s : Schedule := ⟨[⟨.weekly (.every Date.last.weekday), 1, by decide⟩]⟩
  have hnext : s.next? .last = some .last := by decide +kernel
  have hprevious : s.previous? .last = some .last := by decide +kernel
  have horder : Date.first ≤ Date.last := by decide
  obtain ⟨-, -, -, -, -, hmono, -⟩ := next?_and_previous?_are_nearest s
  exact ⟨s, hnext, hprevious, (hmono .first .last horder).1 .last hnext⟩

end Schedule

end Recurrence
