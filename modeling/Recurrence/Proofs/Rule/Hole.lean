import Mathlib
import Recurrence.Rule.Basic

/-!
# Parts of a rule

A hole is a place inside a rule, with all that stands around it, and any rule can be put there. The
rule so made holds on more dates when the rule in the hole does, or on fewer of them: what an odd
number of differences exclude works the other way round.
-/

namespace Recurrence.Rule

/-- A rule with one of its parts left open. -/
inductive Hole
  | here
  | included (h : Hole) (excluded : Rule)
  | excluded (included : Rule) (h : Hole)
  | union (before : List Rule) (h : Hole) (after : List Rule)
  | intersection (before : List Rule) (h : Hole) (after : List Rule)

namespace Hole

/-- The rule with a part in the place that was left open. -/
def fill : Hole → Rule → Rule
  | here, x => x
  | included h s, x => .difference (h.fill x) s
  | excluded r h, x => .difference r (h.fill x)
  | union before h after, x => .union (before ++ h.fill x :: after)
  | intersection before h after, x => .intersection (before ++ h.fill x :: after)

/-- In how many differences the open place is on the excluded side. -/
def exclusions : Hole → ℕ
  | here => 0
  | included h _ => h.exclusions
  | excluded _ h => h.exclusions + 1
  | union _ h _ => h.exclusions
  | intersection _ h _ => h.exclusions

variable {x y : Rule} {d : Date}

theorem includes_fill_union (before after : List Rule) (h : Hole) :
    ((union before h after).fill x).includes d = true ↔
      (∃ r ∈ before ++ after, r.includes d = true) ∨ (h.fill x).includes d = true := by
  rw [fill, includes_union, List.any_append, List.any_cons, Bool.or_left_comm, ← List.any_append,
    Bool.or_eq_true, List.any_eq_true, or_comm]

theorem includes_fill_intersection (before after : List Rule) (h : Hole) :
    ((intersection before h after).fill x).includes d = true ↔
      (∀ r ∈ before ++ after, r.includes d = true) ∧ (h.fill x).includes d = true := by
  rw [fill, includes_intersection, List.all_append, List.all_cons, Bool.and_left_comm,
    ← List.all_append, Bool.and_eq_true, List.all_eq_true, and_comm]

theorem includes_fill_included (h : Hole) (s : Rule) :
    ((included h s).fill x).includes d = true ↔
      (h.fill x).includes d = true ∧ ¬ s.includes d = true := by
  rw [fill, includes_difference, Bool.and_eq_true, Bool.not_eq_true', Bool.not_eq_true]

theorem includes_fill_excluded (r : Rule) (h : Hole) :
    ((excluded r h).fill x).includes d = true ↔
      r.includes d = true ∧ ¬ (h.fill x).includes d = true := by
  rw [fill, includes_difference, Bool.and_eq_true, Bool.not_eq_true', Bool.not_eq_true]

/-- On a date that the larger part includes if the smaller one does, the whole rules compare the
same way or the opposite one. Only an exclusion turns the comparison round. -/
theorem includes_fill_of_parity (h : Hole) (hxy : x.includes d = true → y.includes d = true) :
    (Even h.exclusions → (h.fill x).includes d = true → (h.fill y).includes d = true) ∧
      (Odd h.exclusions → (h.fill y).includes d = true → (h.fill x).includes d = true) := by
  induction h with
  | here => exact ⟨fun _ => hxy, fun hodd => absurd hodd Nat.not_odd_zero⟩
  | included h s ih =>
      simp only [includes_fill_included, exclusions]
      exact ⟨fun heven => And.imp_left (ih.1 heven), fun hodd => And.imp_left (ih.2 hodd)⟩
  | excluded r h ih =>
      simp only [includes_fill_excluded, exclusions, Nat.even_add_one, Nat.odd_add_one,
        Nat.not_even_iff_odd, Nat.not_odd_iff_even]
      exact ⟨fun hodd => And.imp_right (mt (ih.2 hodd)),
        fun heven => And.imp_right (mt (ih.1 heven))⟩
  | union before h after ih =>
      simp only [includes_fill_union, exclusions]
      exact ⟨fun heven => Or.imp_right (ih.1 heven), fun hodd => Or.imp_right (ih.2 hodd)⟩
  | intersection before h after ih =>
      simp only [includes_fill_intersection, exclusions]
      exact ⟨fun heven => And.imp_right (ih.1 heven), fun hodd => And.imp_right (ih.2 hodd)⟩

/-- Of a part the rule around it uses nothing but whether it includes the date. -/
theorem includes_fill_congr (h : Hole) (hxy : x.includes d = y.includes d) :
    (h.fill x).includes d = (h.fill y).includes d := by
  have hle := h.includes_fill_of_parity fun hx => hxy.symm.trans hx
  have hge := h.includes_fill_of_parity fun hy => hxy.trans hy
  rw [Bool.eq_iff_iff]
  rcases Nat.even_or_odd h.exclusions with heven | hodd
  · exact ⟨hle.1 heven, hge.1 heven⟩
  · exact ⟨hge.2 hodd, hle.2 hodd⟩

end Hole

end Recurrence.Rule
