import Recurrence.Proofs.Machine.Rules
import Recurrence.Proofs.Schedule.Search
import Recurrence.Schedule.Cursor

/-!
# Queries in machine integers

The queries of a schedule ask its rules about one date after the other, and a search within so many
days first counts the dates that it may look at. A query fails as soon as an operation on machine
integers does. On a schedule of constructed rules no query fails, and each has its usual answer.
-/

namespace Recurrence.Machine

section Lists

variable {α : Type} {p? : α → Option Bool} {p : α → Bool} {l : List α}

theorem anyM_eq_some (h : ∀ a ∈ l, p? a = some (p a)) : l.anyM p? = some (l.any p) := by
  induction l with
  | nil => rfl
  | cons a l ih =>
      rw [List.forall_mem_cons] at h
      rw [List.anyM, h.1, List.any_cons, ih h.2]
      cases p a <;> rfl

theorem findM?_eq_some (h : ∀ a ∈ l, p? a = some (p a)) : l.findM? p? = some (l.find? p) := by
  induction l with
  | nil => rfl
  | cons a l ih =>
      rw [List.forall_mem_cons] at h
      rw [List.findM?, h.1, List.find?_cons, ih h.2]
      cases p a <;> rfl

theorem filterAuxM_eq_some (h : ∀ a ∈ l, p? a = some (p a)) (found : List α) :
    l.filterAuxM p? found = some ((l.filter p).reverse ++ found) := by
  induction l generalizing found with
  | nil => rfl
  | cons a l ih =>
      rw [List.forall_mem_cons] at h
      rw [List.filterAuxM, h.1, Option.bind_eq_bind, Option.bind_some, ih h.2]
      cases hp : p a with
      | true => simp [hp]
      | false => simp [hp]

theorem filterM_eq_some (h : ∀ a ∈ l, p? a = some (p a)) : l.filterM p? = some (l.filter p) := by
  rw [List.filterM, filterAuxM_eq_some h]
  simp

end Lists

section Queries

variable (s : Schedule)

def occurs? (d : Date) : Option Bool := s.allotments.anyM fun a => includes? a.rule d

def matching? (d : Date) : Option (Option Allotment) :=
  s.allotments.findM? fun a => includes? a.rule d

def slots? (d : Date) : Option ℕ := do
  match ← matching? s d with
  | some a => return a.slots
  | none => return 0

def datesBetween? (start stop : Date) : Option (List Date) :=
  ((Direction.forward.days start).takeWhile fun d => decide (d ≤ stop)).filterM (occurs? s)

def seek? (dir : Direction) (d : Date) : Option (Option Date) :=
  if s.isEmpty then some none else (dir.days d).findM? (occurs? s)

def seekWithin? (dir : Direction) (d : Date) (maxDays : ℕ) : Option (Option Date) := do
  let limit ← natural64.add? maxDays 1
  ((dir.days d).take limit.toNat).findM? (occurs? s)

def pull? (c : Cursor) : Option (Option Date × Cursor) :=
  match c.position with
  | none => some (none, c)
  | some d => do
    let found ← seek? s c.direction d
    return (found, ⟨c.direction, found.bind c.direction.step?⟩)

def pulls? : ℕ → Cursor → Option (List (Option Date) × Cursor)
  | 0, c => some ([], c)
  | n + 1, c => do
    let (found, c) ← pull? s c
    let (rest, c) ← pulls? n c
    return (found :: rest, c)

end Queries

variable {s : Schedule} (h : ∀ a ∈ s.allotments, a.rule.WellFormed)

include h

theorem occurs?_eq (d : Date) : occurs? s d = some (s.occurs d) :=
  anyM_eq_some fun a ha => includes?_eq (h a ha) d

theorem matching?_eq (d : Date) : matching? s d = some (s.matching? d) :=
  findM?_eq_some fun a ha => includes?_eq (h a ha) d

theorem slots?_eq (d : Date) : slots? s d = some (s.slots d) := by
  rw [slots?, matching?_eq h, Schedule.slots]
  cases s.matching? d <;> rfl

theorem datesBetween?_eq (start stop : Date) :
    datesBetween? s start stop = some (s.datesBetween start stop) := by
  rw [Schedule.datesBetween_eq]
  exact filterM_eq_some fun d _ => occurs?_eq h d

theorem seek?_eq (dir : Direction) (d : Date) : seek? s dir d = some (s.seek? dir d) := by
  have hfind := findM?_eq_some (l := dir.days d) fun e _ => occurs?_eq h e
  rw [← Schedule.seek?_eq_find?] at hfind
  unfold seek?
  split_ifs with hempty
  · rw [Schedule.seek?, if_pos hempty]
  · exact hfind

/-- The number of dates that are looked at is one more than that of days and still fits. -/
theorem seekWithin?_eq (dir : Direction) (d : Date) {maxDays : ℕ} (hmax : maxDays < 2 ^ 32) :
    seekWithin? s dir d maxDays = some (s.seekWithin? dir d maxDays) := by
  have hlimit : natural64.add? maxDays 1 = some ((maxDays + 1 : ℕ) : ℤ) :=
    Range.fit?_of_mem (by simp only [natural64]; omega) (by simp only [natural64]; omega)
  rw [seekWithin?, hlimit, Option.bind_eq_bind, Option.bind_some, Int.toNat_natCast,
    findM?_eq_some fun e _ => occurs?_eq h e, Schedule.seekWithin?_eq_find?]

theorem pull?_eq (c : Cursor) : pull? s c = some (c.pull s) := by
  obtain ⟨dir, position⟩ := c
  cases position with
  | none => rfl
  | some d =>
      have hseek := seek?_eq h dir d
      simp only [pull?, hseek, Cursor.pull, Option.bind_eq_bind, Option.bind_some, Option.pure_def]

theorem pulls?_eq (n : ℕ) (c : Cursor) : pulls? s n c = some (c.pulls s n) := by
  induction n generalizing c with
  | zero => rfl
  | succ n ih =>
      rw [pulls?, pull?_eq h, Option.bind_eq_bind, Option.bind_some]
      dsimp only
      rw [ih]
      rfl

omit h

/-- Constructed rules are well-formed, and neither they nor the queries of a schedule made of them
ever fail in machine integers. -/
theorem evaluates_of_constructed {r : Rule} (hr : r.Constructed) {s : Schedule}
    (hs : ∀ a ∈ s.allotments, a.rule.Constructed) :
    r.WellFormed ∧ (∀ d, includes? r d = some (r.includes d)) ∧
      (∀ d, occurs? s d = some (s.occurs d) ∧ matching? s d = some (s.matching? d) ∧
        slots? s d = some (s.slots d)) ∧
      (∀ start stop, datesBetween? s start stop = some (s.datesBetween start stop)) ∧
      (∀ dir d, seek? s dir d = some (s.seek? dir d)) ∧
      (∀ dir d maxDays, maxDays < 2 ^ 32 →
        seekWithin? s dir d maxDays = some (s.seekWithin? dir d maxDays)) ∧
      ∀ n c, pulls? s n c = some (c.pulls s n) := by
  have hwell : ∀ a ∈ s.allotments, a.rule.WellFormed := fun a ha => (hs a ha).wellFormed
  exact ⟨hr.wellFormed, includes?_eq hr.wellFormed,
    fun d => ⟨occurs?_eq hwell d, matching?_eq hwell d, slots?_eq hwell d⟩, datesBetween?_eq hwell,
    seek?_eq hwell, fun dir d _ => seekWithin?_eq hwell dir d, pulls?_eq hwell⟩

theorem evaluates_of_constructed_widest :
    ∃ s : Schedule, s.allotments ≠ [] ∧ (∀ a ∈ s.allotments, a.rule.Constructed) ∧
      seekWithin? s .forward .first 4294967295 =
        some (s.seekWithin? .forward .first 4294967295) := by
  let r : Rule :=
    .except (.yearly (.month .june)) (.weekly (.everyNth 4294967295 .last (by decide)))
  let s : Schedule := ⟨[⟨r, 4294967295, by decide⟩]⟩
  have hrare : Rule.Constructed (.weekly (.everyNth 4294967295 .last (by decide))) :=
    .interval (n := 4294967295) (by decide) rfl
  have hr : r.Constructed := .except (.month .june) hrare
  have hs : ∀ a ∈ s.allotments, a.rule.Constructed := by
    intro a ha
    rw [List.mem_singleton.1 ha]
    exact hr
  obtain ⟨-, -, -, -, -, hwithin, -⟩ := evaluates_of_constructed hr hs
  exact ⟨s, by simp [s], hs, hwithin .forward .first 4294967295 (by decide)⟩

end Recurrence.Machine
