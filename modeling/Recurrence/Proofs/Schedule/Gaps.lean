import Recurrence.Proofs.Rule.Gaps
import Recurrence.Proofs.Schedule.Bounded
import Recurrence.Proofs.Schedule.Nearest
import Recurrence.Proofs.Schedule.Occurrences

/-!
# Gaps between occurrences

What a rule says of a date and the next one that it has holds of any two neighbours among the dates
that a cursor yields. In a schedule that takes one of the first four or of the last four of a
weekday in each month, neighbours are 28 or 35 days apart, and a search never needs to look further
than 34 days.
-/

namespace Recurrence

/-- In an ascending list, neighbours are related when a date and the next one always are. -/
theorem isChain_of_next {R : Date → Date → Prop} {l : List Date} (hl : l.Pairwise (· < ·))
    (h : ∀ d ∈ l, ∀ e ∈ l, d < e → (∀ x ∈ l, d < x → e ≤ x) → R d e) : l.IsChain R := by
  induction l with
  | nil => exact .nil
  | cons d l ih =>
      obtain ⟨hd, hl⟩ := List.pairwise_cons.1 hl
      have hrest : l.IsChain R := by
        apply ih hl
        intro e he f hf hlt hnext
        apply h e (List.mem_cons_of_mem d he) f (List.mem_cons_of_mem d hf) hlt
        intro x hx hex
        rcases List.mem_cons.1 hx with rfl | hx
        · exact absurd hex (lt_asymm (hd e he))
        · exact hnext x hx hex
      cases l with
      | nil => exact .singleton d
      | cons e l =>
          obtain ⟨he, -⟩ := List.pairwise_cons.1 hl
          refine .cons_cons (h d List.mem_cons_self e (by simp) (hd e List.mem_cons_self) ?_) hrest
          intro x hx hdx
          rcases List.mem_cons.1 hx with rfl | hx
          · exact absurd hdx (lt_irrefl x)
          · rcases List.mem_cons.1 hx with rfl | hx
            · exact le_rfl
            · exact (he x hx).le

theorem Direction.distance_le_of_reaches {dir : Direction} {d e x : Date} (h : dir.Reaches e x) :
    dir.distance d e ≤ dir.distance d x := by
  cases dir with
  | forward =>
      rw [Reaches, Date.le_def] at h
      rw [distance_forward, distance_forward]
      omega
  | backward =>
      rw [Reaches, Date.le_def] at h
      rw [distance_backward, distance_backward]
      omega

namespace Schedule

variable {s : Schedule} {dir : Direction} {d e : Date} {n : ℕ}

/-- A bounded search succeeds as soon as there is an occurrence near enough. -/
theorem exists_seekWithin?_eq_some (h : dir.Reaches d e) (hnear : dir.distance d e ≤ n)
    (hoccurs : s.occurs e = true) : ∃ x, s.seekWithin? dir d n = some x := by
  obtain ⟨x, hseek, hx⟩ := (exists_occurs_between_iff dir).1 ⟨e, h, .refl dir e, hoccurs⟩
  exact ⟨x, seekWithin?_eq_some_iff.2
    ⟨hseek, (Direction.distance_le_of_reaches hx).trans hnear⟩⟩

/-- The dates on which the schedule occurs are those of the rule. -/
theorem isChain_take_of_next {p : Date → Bool} {R : Date → Date → Prop}
    (hs : ∀ d, s.occurs d = p d)
    (h : ∀ d e, p d = true → p e = true → d < e → (∀ x, p x = true → d < x → e ≤ x) → R d e)
    (start : Date) (n : ℕ) : (Cursor.take s n (.ofDate .forward start)).IsChain R := by
  have hmem : ∀ d, d ∈ s.occurrencesFrom .forward start ↔ start ≤ d ∧ p d = true := by
    intro d
    rw [mem_occurrencesFrom, hs]
    exact Iff.rfl
  rw [Cursor.take_eq_take_remaining, Cursor.remaining_ofDate]
  apply List.IsChain.take
  apply isChain_of_next (pairwise_occurrencesFrom s .forward start)
  intro d hd e he hlt hnext
  obtain ⟨hstart, hd⟩ := (hmem d).1 hd
  obtain ⟨-, he⟩ := (hmem e).1 he
  apply h d e hd he hlt
  intro x hx hdx
  exact hnext x ((hmem x).2 ⟨hstart.trans hdx.le, hx⟩) hdx

/-- A schedule of one of the first four or the last four of a weekday in each month. Its dates
follow one another after 28 or 35 days, so that 34 days from any date are enough for a search. -/
theorem gaps_of_monthlyWeekday {k : ℤ} (hk : 1 ≤ |k|) (hk' : |k| ≤ 4) (w : Weekday) :
    ∃ p, MonthlyWeekday.ofOrdinal w k = .ok p ∧
      ∀ (s : Schedule) (a : Allotment), s.allotments = [a] → a.rule = .monthly p →
        (∀ start n, Cursor.take s n (.ofDate .forward start) =
            (s.occurrencesFrom .forward start).take n ∧
          (Cursor.take s n (.ofDate .forward start)).IsChain fun d e =>
            e.number - d.number = 28 ∨ e.number - d.number = 35) ∧
        (∀ d : Date, d.number + 34 ≤ lastNumber → ∃ e, s.nextWithin? d 34 = some e) ∧
        ∀ d : Date, firstNumber ≤ d.number - 34 → ∃ e, s.previousWithin? d 34 = some e := by
  have hrange : -4 ≤ k ∧ k ≤ 4 := abs_le.1 hk'
  have hp : MonthlyWeekday.ofOrdinal w k = .ok ⟨w, k⟩ :=
    Node.ofOrdinal_eq_ok_iff.2 ⟨⟨abs_pos.1 hk, by omega, by omega⟩, rfl⟩
  refine ⟨_, hp, fun s a hs ha => ?_⟩
  have hoccurs : ∀ d, s.occurs d = MonthlyWeekday.includes ⟨w, k⟩ d := by
    intro d
    rw [occurs, hs, List.any_cons, List.any_nil, Bool.or_false, Allotment.occurs, ha,
      Rule.includes]
  refine ⟨fun start n => ⟨?_, ?_⟩, fun d hd => ?_, fun d hd => ?_⟩
  · rw [Cursor.take_eq_take_remaining, Cursor.remaining_ofDate]
  · exact isChain_take_of_next hoccurs (fun d e => MonthlyWeekday.gap_of_next hk hk') start n
  · obtain ⟨e, he, hle, hnear⟩ := MonthlyWeekday.exists_includes_within hk hk' w hd
    rw [← hoccurs] at he
    have hreaches : Direction.forward.Reaches d e := hle
    refine exists_seekWithin?_eq_some hreaches ?_ he
    rw [Direction.distance_forward]
    omega
  · obtain ⟨c, hc⟩ := Date.exists_number_eq hd (le_trans (by omega) d.le_last)
    obtain ⟨e, he, hle, hnear⟩ := MonthlyWeekday.exists_includes_within hk hk' w (d := c)
      (by rw [hc, sub_add_cancel]; exact d.le_last)
    rw [← hoccurs] at he
    have hce := Date.le_def.1 hle
    have hreaches : Direction.backward.Reaches d e := Date.le_def.2 (by omega)
    refine exists_seekWithin?_eq_some hreaches ?_ he
    rw [Direction.distance_backward]
    omega

/-- The last Friday but three is met within 34 days up to the very end of the axis. The last three
dates of such a schedule show both gaps. -/
theorem gaps_of_monthlyWeekday_fridays :
    ∃ s : Schedule, (∃ a, s.allotments = [a] ∧ a.rule = .monthly ⟨.friday, -4⟩) ∧
      (∀ start n, (Cursor.take s n (.ofDate .forward start)).IsChain fun d e =>
        e.number - d.number = 28 ∨ e.number - d.number = 35) ∧
      (∃ start d e f : Date, Cursor.take s 5 (.ofDate .forward start) = [d, e, f] ∧
        e.number - d.number = 35 ∧ f.number - e.number = 28) ∧
      (∃ e, s.nextWithin? ⟨lastNumber - 34, by decide, by decide⟩ 34 = some e) ∧
      ∃ e, s.previousWithin? ⟨firstNumber + 34, by decide, by decide⟩ 34 = some e := by
  let a : Allotment := ⟨.monthly ⟨.friday, -4⟩, 1, by decide⟩
  let start : Date := ⟨lastNumber - 90, by decide, by decide⟩
  let d : Date := ⟨lastNumber - 87, by decide, by decide⟩
  let e : Date := ⟨lastNumber - 52, by decide, by decide⟩
  let f : Date := ⟨lastNumber - 24, by decide, by decide⟩
  have hahead : (⟨[a]⟩ : Schedule).occurrencesFrom .forward start = [d, e, f] := by decide +kernel
  obtain ⟨p, hp, hgaps⟩ := gaps_of_monthlyWeekday (k := -4) (by decide) (by decide) .friday
  obtain rfl : ⟨.friday, -4⟩ = p := Except.ok.inj hp
  obtain ⟨hcursor, hnext, hprevious⟩ := hgaps ⟨[a]⟩ a rfl rfl
  have hitems := (hcursor start 5).1
  rw [hahead] at hitems
  exact ⟨⟨[a]⟩, ⟨a, rfl, rfl⟩, fun start n => (hcursor start n).2,
    ⟨start, d, e, f, hitems, by decide, by decide⟩, hnext _ (by decide), hprevious _ (by decide)⟩

end Schedule

end Recurrence
