import Recurrence.Proofs.Schedule.Agreement
import Recurrence.Proofs.Schedule.Nearest

/-!
# Schedules behind one another

The allotments of one schedule are put behind those of another. On a date the first schedule decides
where it occurs, and the second one elsewhere. The dates are those of both: lists and cursors go
through them in order, each date once, and a search finds the nearer of what it finds in each. So
the order of the allotments decides nothing but which of them matches, and as far as dates go a
schedule is the union of its rules.
-/

namespace Recurrence

namespace Direction

variable {dir : Direction} {d e : Date} {ds es fs : List Date}

instance : DecidableRel dir.Reaches := fun d e =>
  match dir with
  | forward => inferInstanceAs (Decidable (d ≤ e))
  | backward => inferInstanceAs (Decidable (e ≤ d))

theorem Reaches.total (dir : Direction) (d e : Date) : dir.Reaches d e ∨ dir.Reaches e d := by
  cases dir with
  | forward => exact le_total d e
  | backward => exact le_total e d

instance : Std.Total dir.Reaches := ⟨Reaches.total dir⟩

instance : IsTrans Date dir.Reaches := ⟨fun _ _ _ => Reaches.trans⟩

/-- Which of two dates is met first. -/
def nearer : Direction → Date → Date → Date
  | forward => min
  | backward => max

theorem nearer_of_reaches (h : dir.Reaches d e) : dir.nearer d e = d := by
  cases dir with
  | forward => exact min_eq_left h
  | backward => exact max_eq_left h

theorem nearer_comm (dir : Direction) (d e : Date) : dir.nearer d e = dir.nearer e d := by
  cases dir with
  | forward => exact min_comm d e
  | backward => exact max_comm d e

/-- The dates of two lists in the order of a direction, each date once. -/
def merge (dir : Direction) (ds es : List Date) : List Date :=
  (ds.merge es fun d e => decide (dir.Reaches d e)).dedup

theorem mem_merge : d ∈ dir.merge ds es ↔ d ∈ ds ∨ d ∈ es := by
  rw [merge, List.mem_dedup, List.mem_merge]

theorem pairwise_merge (hds : ds.Pairwise dir.Before) (hes : es.Pairwise dir.Before) :
    (dir.merge ds es).Pairwise dir.Before := by
  have hordered : (ds.merge es fun d e => decide (dir.Reaches d e)).Pairwise dir.Reaches :=
    (hds.imp fun h => reaches_iff.2 (Or.inr h)).merge (hes.imp fun h => reaches_iff.2 (Or.inr h))
  have honce := List.nodup_dedup (ds.merge es fun d e => decide (dir.Reaches d e))
  apply ((hordered.sublist (List.dedup_sublist _)).and honce).imp
  rintro d e ⟨hreach, hne⟩
  exact (reaches_iff.1 hreach).resolve_left hne

/-- An ordered list that has the dates of two others is made by merging them. -/
theorem eq_merge_of_mem_iff (hds : ds.Pairwise dir.Before) (hes : es.Pairwise dir.Before)
    (hfs : fs.Pairwise dir.Before) (h : ∀ d, d ∈ fs ↔ d ∈ ds ∨ d ∈ es) : fs = dir.merge ds es :=
  hfs.eq_of_mem_iff (pairwise_merge hds hes) fun d => (h d).trans mem_merge.symm

end Direction

namespace Schedule

instance : Append Schedule := ⟨fun s t => ⟨s.allotments ++ t.allotments⟩⟩

variable {s t : Schedule} {dir : Direction} {d n : Date}

theorem allotments_append (s t : Schedule) :
    (s ++ t).allotments = s.allotments ++ t.allotments := rfl

theorem occurs_append (s t : Schedule) (d : Date) :
    (s ++ t).occurs d = (s.occurs d || t.occurs d) := List.any_append

theorem matching?_append (s t : Schedule) (d : Date) :
    (s ++ t).matching? d = if s.occurs d then s.matching? d else t.matching? d := by
  rw [matching?, allotments_append, List.find?_append, occurs_eq_isSome_matching?]
  change (s.matching? d).or (t.matching? d) = _
  cases s.matching? d <;> rfl

theorem matchingIndex?_append (s t : Schedule) (d : Date) :
    (s ++ t).matchingIndex? d =
      if s.occurs d then s.matchingIndex? d else (t.matchingIndex? d).map (· + s.length) := by
  rw [matchingIndex?, allotments_append, List.findIdx?_append, occurs, ← List.findIdx?_isSome]
  change (s.matchingIndex? d).or _ = if (s.matchingIndex? d).isSome then _ else _
  cases s.matchingIndex? d <;> rfl

theorem slots_append (s t : Schedule) (d : Date) :
    (s ++ t).slots d = if s.occurs d then s.slots d else t.slots d := by
  rw [slots, matching?_append]
  split_ifs <;> rfl

theorem slots_of_not_occurs (h : s.occurs d = false) : s.slots d = 0 := by
  rw [occurs_eq_isSome_matching?, Option.isSome_eq_false_iff, Option.isNone_iff_eq_none] at h
  rw [slots, h]

theorem datesBetween_append (s t : Schedule) (start stop : Date) :
    (s ++ t).datesBetween start stop =
      Direction.forward.merge (s.datesBetween start stop) (t.datesBetween start stop) := by
  apply Direction.eq_merge_of_mem_iff
  · exact (sortedLT_datesBetween s start stop).pairwise
  · exact (sortedLT_datesBetween t start stop).pairwise
  · exact (sortedLT_datesBetween (s ++ t) start stop).pairwise
  · intro d
    simp only [mem_datesBetween, occurs_append, Bool.or_eq_true, and_or_left]

theorem occurrencesFrom_append (s t : Schedule) (dir : Direction) (d : Date) :
    (s ++ t).occurrencesFrom dir d =
      dir.merge (s.occurrencesFrom dir d) (t.occurrencesFrom dir d) := by
  apply Direction.eq_merge_of_mem_iff (pairwise_occurrencesFrom s dir d)
    (pairwise_occurrencesFrom t dir d) (pairwise_occurrencesFrom (s ++ t) dir d)
  intro e
  simp only [mem_occurrencesFrom, occurs_append, Bool.or_eq_true, and_or_left]

theorem sameDates_of_perm (h : s.allotments.Perm t.allotments) : s.SameDates t := by
  apply sameDates_of_occurs_eq
  funext d
  exact h.any_eq

/-- What one schedule finds no farther away than the other is found in both together. -/
theorem seek?_append_of_nearest (hs : s.seek? dir d = some n)
    (ht : ∀ m, t.seek? dir d = some m → dir.Reaches n m) : (s ++ t).seek? dir d = some n := by
  obtain ⟨⟨hreach, hoccurs⟩, hnearest⟩ := nearest_of_seek? hs
  rw [seek?_eq_some_iff, occurs_append, hoccurs, Bool.true_or]
  refine ⟨⟨hreach, rfl⟩, ?_⟩
  rintro e ⟨he, hoccurs'⟩
  rw [occurs_append, Bool.or_eq_true] at hoccurs'
  rcases hoccurs' with hoccurs' | hoccurs'
  · exact hnearest e ⟨he, hoccurs'⟩
  · obtain ⟨m, hm⟩ := exists_seek?_eq_some he hoccurs'
    exact (ht m hm).trans ((nearest_of_seek? hm).2 e ⟨he, hoccurs'⟩)

theorem seek?_append_comm (s t : Schedule) (dir : Direction) (d : Date) :
    (s ++ t).seek? dir d = (t ++ s).seek? dir d :=
  (sameDates_of_perm (s := s ++ t) (t := t ++ s) List.perm_append_comm).seek?_eq dir d

theorem seek?_append (s t : Schedule) (dir : Direction) (d : Date) :
    (s ++ t).seek? dir d = Option.merge dir.nearer (s.seek? dir d) (t.seek? dir d) := by
  cases hs : s.seek? dir d with
  | none =>
      cases ht : t.seek? dir d with
      | none =>
          rw [seek?_eq_none_iff] at hs ht
          apply seek?_eq_none_iff.2
          intro e he
          rw [occurs_append, hs e he, ht e he, Bool.or_false]
      | some m =>
          rw [seek?_append_comm]
          apply seek?_append_of_nearest ht
          intro n hn
          rw [hs] at hn
          cases hn
  | some n =>
      cases ht : t.seek? dir d with
      | none =>
          apply seek?_append_of_nearest hs
          intro m hm
          rw [ht] at hm
          cases hm
      | some m =>
          rcases Direction.Reaches.total dir n m with hnm | hmn
          · rw [Option.merge, Direction.nearer_of_reaches hnm]
            apply seek?_append_of_nearest hs
            intro m' hm'
            obtain rfl := Option.some.inj (ht.symm.trans hm')
            exact hnm
          · rw [Option.merge, Direction.nearer_comm, Direction.nearer_of_reaches hmn,
              seek?_append_comm]
            apply seek?_append_of_nearest ht
            intro n' hn'
            obtain rfl := Option.some.inj (hs.symm.trans hn')
            exact hmn

/-- Dates do not tell a schedule from the union of its rules, whatever slots that offers. -/
theorem sameDates_union (s : Schedule) {k : ℕ} (hk : k ≤ slotLimit) :
    s.SameDates ⟨[⟨.union (s.allotments.map Allotment.rule), k, hk⟩]⟩ := by
  apply sameDates_of_occurs_eq
  funext d
  rw [occurs, occurs, List.any_cons, List.any_nil, Bool.or_false, Allotment.occurs,
    Rule.includes_union, List.any_map]
  rfl

/-- What one schedule behind another answers to each query, from the answers of the two. -/
theorem queries_append (s t : Schedule) :
    (∀ d, (s ++ t).occurs d = (s.occurs d || t.occurs d) ∧
      (s ++ t).matching? d = (if s.occurs d then s.matching? d else t.matching? d) ∧
      (s ++ t).matchingIndex? d =
        (if s.occurs d then s.matchingIndex? d else (t.matchingIndex? d).map (· + s.length)) ∧
      (s ++ t).slots d =
        if s.occurs d then s.slots d else if t.occurs d then t.slots d else 0) ∧
    (∀ start stop, (s ++ t).datesBetween start stop =
      Direction.forward.merge (s.datesBetween start stop) (t.datesBetween start stop)) ∧
    (∀ d, (s ++ t).next? d = Option.merge min (s.next? d) (t.next? d) ∧
      (s ++ t).previous? d = Option.merge max (s.previous? d) (t.previous? d)) ∧
    (∀ dir start, Cursor.Yields s (.ofDate dir start) (s.occurrencesFrom dir start) ∧
      Cursor.Yields t (.ofDate dir start) (t.occurrencesFrom dir start) ∧
      ∀ ds, Cursor.Yields (s ++ t) (.ofDate dir start) ds ↔
        ds = dir.merge (s.occurrencesFrom dir start) (t.occurrencesFrom dir start)) ∧
    (s.allotments.Perm t.allotments → s.SameDates t) ∧
    (s.allotments ≠ [] → ∀ k (hk : k ≤ slotLimit),
      ∃ r, Rule.unionOf (s.allotments.map Allotment.rule) = .ok r ∧
        s.SameDates ⟨[⟨r, k, hk⟩]⟩) := by
  refine ⟨fun d => ⟨occurs_append s t d, matching?_append s t d, matchingIndex?_append s t d, ?_⟩,
    datesBetween_append s t,
    fun d => ⟨seek?_append s t .forward d, seek?_append s t .backward d⟩, fun dir start => ?_,
    sameDates_of_perm, fun hne k hk => ?_⟩
  · rw [slots_append]
    cases ht : t.occurs d with
    | true => rfl
    | false =>
        rw [slots_of_not_occurs ht]
        rfl
  · refine ⟨Cursor.yields_iff.2 rfl, Cursor.yields_iff.2 rfl, fun ds => ?_⟩
    rw [Cursor.yields_iff, Cursor.remaining_ofDate, occurrencesFrom_append]
  · have hmembers : (s.allotments.map Allotment.rule).isEmpty = false := by
      rw [List.isEmpty_map, List.isEmpty_eq_false_iff]
      exact hne
    refine ⟨.union (s.allotments.map Allotment.rule), ?_, s.sameDates_union hk⟩
    rw [Rule.unionOf, hmembers]
    rfl

/-- The last days of the months that fall on one weekday, and all days on it. Which of the two comes
first decides the slots of the last date, and no query about dates can tell. The last date is one of
both, and lists and cursors have it once. -/
theorem queries_append_last :
    ∃ s t : Schedule, (s ++ t).allotments.Perm (t ++ s).allotments ∧ (s ++ t).allotments ≠ [] ∧
      (s ++ t).SameDates (t ++ s) ∧ (s ++ t).slots .last = 7 ∧ (t ++ s).slots .last = 3 ∧
      (∃ r, Rule.unionOf ((s ++ t).allotments.map Allotment.rule) = .ok r ∧
        (s ++ t).SameDates ⟨[⟨r, 0, by decide⟩]⟩) ∧
      ∃ start d e : Date, s.datesBetween start .last = [.last] ∧
        t.datesBetween start .last = [d, e, .last] ∧
        (s ++ t).datesBetween start .last = [d, e, .last] ∧
        (s ++ t).next? start = some d ∧ (s ++ t).previous? .last = some .last ∧
        Cursor.Yields (s ++ t) (.ofDate .forward start) [d, e, .last] := by
  let s : Schedule := ⟨[⟨.monthly ⟨Date.last.weekday, -1⟩, 7, by decide⟩]⟩
  let t : Schedule := ⟨[⟨.weekly (.every Date.last.weekday), 3, by decide⟩]⟩
  let start : Date := ⟨lastNumber - 20, by decide, by decide⟩
  let d : Date := ⟨lastNumber - 14, by decide, by decide⟩
  let e : Date := ⟨lastNumber - 7, by decide, by decide⟩
  have hperm : (s ++ t).allotments.Perm (t ++ s).allotments := List.perm_append_comm
  have hne : (s ++ t).allotments ≠ [] := List.cons_ne_nil _ _
  have hfirst : (s ++ t).slots .last = 7 := by decide +kernel
  have hsecond : (t ++ s).slots .last = 3 := by decide +kernel
  have hs : s.datesBetween start .last = [.last] ∧ s.next? start = some .last ∧
      s.previous? .last = some .last ∧ s.occurrencesFrom .forward start = [.last] := by
    decide +kernel
  have ht : t.datesBetween start .last = [d, e, .last] ∧ t.next? start = some d ∧
      t.previous? .last = some .last ∧ t.occurrencesFrom .forward start = [d, e, .last] := by
    decide +kernel
  have hmerge : Direction.forward.merge [.last] [d, e, .last] = [d, e, .last] := by cbv
  have hmin : Option.merge min (some .last) (some d) = some d := by decide +kernel
  have hmax : Option.merge max (some .last) (some Date.last) = some .last := by decide +kernel
  obtain ⟨hsdates, hsnext, hsprevious, hsahead⟩ := hs
  obtain ⟨htdates, htnext, htprevious, htahead⟩ := ht
  obtain ⟨-, hdates, hnearest, hcursors, -, -⟩ := queries_append s t
  obtain ⟨-, -, -, -, hreorder, hunion⟩ := queries_append (s ++ t) (t ++ s)
  have hboth := hdates start .last
  rw [hsdates, htdates, hmerge] at hboth
  have hnext := (hnearest start).1
  rw [hsnext, htnext, hmin] at hnext
  have hprevious := (hnearest .last).2
  rw [hsprevious, htprevious, hmax] at hprevious
  have hyields := (hcursors .forward start).2.2 [d, e, .last]
  rw [hsahead, htahead, hmerge] at hyields
  exact ⟨s, t, hperm, hne, hreorder hperm, hfirst, hsecond, hunion hne 0 (by decide), start, d, e,
    hsdates, htdates, hboth, hnext, hprevious, hyields.2 rfl⟩

end Schedule

end Recurrence
