import Recurrence.Proofs.Rule.Hole
import Recurrence.Proofs.Schedule.Agreement
import Recurrence.Proofs.Schedule.Nearest

/-!
# Parts of the rules of a schedule

A part of one of its rules is replaced where it stands in a schedule. When the new part includes the
same dates, no query has another answer. When it includes more of them and stands in an even number
of exclusions, the schedule occurs on more dates, and a search finds nothing farther away than it
did before; in an odd number of exclusions it finds nothing nearer.
-/

namespace Recurrence.Schedule

/-- A search in a schedule that occurs on more dates finds nothing farther away. -/
theorem exists_seek?_of_occurs_imp {s t : Schedule}
    (h : ∀ d, s.occurs d = true → t.occurs d = true) {dir : Direction} {d n : Date}
    (hn : s.seek? dir d = some n) : ∃ m, t.seek? dir d = some m ∧ dir.Reaches m n := by
  obtain ⟨⟨hreach, hoccurs⟩, -⟩ := nearest_of_seek? hn
  exact (exists_occurs_between_iff dir).1 ⟨n, hreach, .refl dir n, h n hoccurs⟩

/-- A schedule with a part of one of its rules left open. -/
structure Hole where
  before : List Allotment
  rule : Rule.Hole
  slots : ℕ
  slots_le : slots ≤ slotLimit
  after : List Allotment

namespace Hole

variable (c : Hole) {x y : Rule}

def fill (x : Rule) : Schedule :=
  ⟨c.before ++ ⟨c.rule.fill x, c.slots, c.slots_le⟩ :: c.after⟩

theorem occurs_fill_iff (d : Date) :
    (c.fill x).occurs d = true ↔
      (∃ a ∈ c.before ++ c.after, a.occurs d = true) ∨ (c.rule.fill x).includes d = true := by
  rw [fill, occurs, List.any_append, List.any_cons, Bool.or_left_comm, ← List.any_append,
    Bool.or_eq_true, List.any_eq_true, or_comm, Allotment.occurs]

theorem exists_seek?_fill
    (h : ∀ d, (c.rule.fill x).includes d = true → (c.rule.fill y).includes d = true)
    {dir : Direction} {d n : Date} (hn : (c.fill x).seek? dir d = some n) :
    ∃ m, (c.fill y).seek? dir d = some m ∧ dir.Reaches m n := by
  apply exists_seek?_of_occurs_imp _ hn
  intro e
  rw [occurs_fill_iff, occurs_fill_iff]
  exact Or.imp_right (h e)

theorem profile_fill_congr (h : ∀ d, x.includes d = y.includes d) :
    (c.fill x).profile = (c.fill y).profile := by
  have hrule : (c.rule.fill x).includes = (c.rule.fill y).includes := by
    funext d
    exact c.rule.includes_fill_congr (h d)
  simp only [profile, fill, List.map_append, List.map_cons, hrule]

/-- A larger part makes the rule around it larger, or smaller, as the number of exclusions around it
is even or odd, and the searches follow. A part with the same dates changes no answer. -/
theorem fill_by_parity (x y : Rule) :
    ((∀ d, x.includes d = true → y.includes d = true) →
      (Even c.rule.exclusions →
        (∀ d, (c.rule.fill x).includes d = true → (c.rule.fill y).includes d = true) ∧
        ∀ dir d n, (c.fill x).seek? dir d = some n →
          ∃ m, (c.fill y).seek? dir d = some m ∧ dir.Reaches m n) ∧
      (Odd c.rule.exclusions →
        (∀ d, (c.rule.fill y).includes d = true → (c.rule.fill x).includes d = true) ∧
        ∀ dir d n, (c.fill y).seek? dir d = some n →
          ∃ m, (c.fill x).seek? dir d = some m ∧ dir.Reaches m n)) ∧
    ((∀ d, x.includes d = y.includes d) →
      (c.fill x).SameDates (c.fill y) ∧
      ∀ d, (c.fill x).slots d = (c.fill y).slots d ∧
        (c.fill x).matchingIndex? d = (c.fill y).matchingIndex? d) := by
  refine ⟨fun hxy => ⟨fun heven => ?_, fun hodd => ?_⟩, fun hxy => ?_⟩
  · have hlarger : ∀ d, (c.rule.fill x).includes d = true → (c.rule.fill y).includes d = true :=
      fun d => (c.rule.includes_fill_of_parity (hxy d)).1 heven
    exact ⟨hlarger, fun dir d n => c.exists_seek?_fill hlarger⟩
  · have hsmaller : ∀ d, (c.rule.fill y).includes d = true → (c.rule.fill x).includes d = true :=
      fun d => (c.rule.includes_fill_of_parity (hxy d)).2 hodd
    exact ⟨hsmaller, fun dir d n => c.exists_seek?_fill hsmaller⟩
  · have hprofile := c.profile_fill_congr hxy
    refine ⟨sameDates_of_profile_eq hprofile, fun d => ⟨slots_eq_of_profile_eq hprofile d, ?_⟩⟩
    rw [matchingIndex?_eq_profile, matchingIndex?_eq_profile, hprofile]

/-- All Fridays of the year apart from some that are left open, in front of the Mondays. -/
def mostFridays : Hole where
  before := []
  rule := .excluded (.weekly (.every .friday)) (.union [] .here [.yearly (.month .june)])
  slots := 3
  slots_le := by decide
  after := [⟨.weekly (.every .monday), 4, by decide⟩]

/-- The last Fridays of the months are Fridays, and to exclude all of these leaves fewer dates. -/
theorem fill_by_parity_mostFridays :
    Odd mostFridays.rule.exclusions ∧
      (∀ d, (Rule.monthly ⟨.friday, -1⟩).includes d = true →
        (Rule.weekly (.every .friday)).includes d = true) ∧
      (∀ d, (mostFridays.rule.fill (.weekly (.every .friday))).includes d = true →
        (mostFridays.rule.fill (.monthly ⟨.friday, -1⟩)).includes d = true) ∧
      (mostFridays.fill (.weekly (.every .friday))).SameDates
        (mostFridays.fill ((Rule.weekly (.every .friday)).or (.weekly (.every .friday)))) := by
  have hodd : Odd mostFridays.rule.exclusions := by decide
  have hlast : ∀ d, (Rule.monthly ⟨.friday, -1⟩).includes d = true →
      (Rule.weekly (.every .friday)).includes d = true := by
    intro d hd
    rw [Rule.includes, MonthlyWeekday.includes, Bool.and_eq_true] at hd
    rw [Rule.includes, WeeklyCadence.includes]
    exact hd.1
  have htwice : ∀ d, (Rule.weekly (.every .friday)).includes d =
      ((Rule.weekly (.every .friday)).or (.weekly (.every .friday))).includes d := by
    intro d
    rw [Rule.includes_or, Bool.or_self]
  obtain ⟨hparity, -⟩ := mostFridays.fill_by_parity (.monthly ⟨.friday, -1⟩)
    (.weekly (.every .friday))
  obtain ⟨-, hsame⟩ := mostFridays.fill_by_parity (.weekly (.every .friday))
    ((Rule.weekly (.every .friday)).or (.weekly (.every .friday)))
  exact ⟨hodd, hlast, ((hparity hlast).2 hodd).1, (hsame htwice).1⟩

end Hole

end Recurrence.Schedule
