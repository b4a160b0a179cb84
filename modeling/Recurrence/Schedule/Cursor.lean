import Recurrence.Schedule.Search

/-!
# Walking through occurrences

A cursor stands at a date and yields the occurrences from there on, forwards or backwards, each
once. After the last one it yields nothing for ever. A table keeps cursors under names; a copy
made under another name goes on from where its model stands, and neither disturbs the other.
-/

namespace Recurrence

structure Cursor where
  direction : Direction
  /-- Where the next search begins, or nothing at the end of the occurrences. -/
  position : Option Date
  deriving DecidableEq

namespace Cursor

def ofDate (direction : Direction) (start : Date) : Cursor := ⟨direction, some start⟩

def pull (s : Schedule) (c : Cursor) : Option Date × Cursor :=
  match c.position with
  | none => (none, c)
  | some d =>
    let found := s.seek? c.direction d
    (found, ⟨c.direction, found.bind c.direction.step?⟩)

/-- What so many pulls yield, and the cursor after them. -/
def pulls (s : Schedule) : Nat → Cursor → List (Option Date) × Cursor
  | 0, c => ([], c)
  | n + 1, c =>
    let (found, c) := c.pull s
    let (rest, c) := pulls s n c
    (found :: rest, c)

/-- At most so many occurrences, fewer where they end before. -/
def take (s : Schedule) : Nat → Cursor → List Date
  | 0, _ => []
  | n + 1, c =>
    match c.pull s with
    | (some d, c) => d :: take s n c
    | (none, _) => []

end Cursor

structure CursorTable where
  entries : List (String × Cursor)

namespace CursorTable

def empty : CursorTable := ⟨[]⟩

def get? (t : CursorTable) (name : String) : Option Cursor := t.entries.lookup name

/-- The cursor takes the place of any other of its name. -/
def put (t : CursorTable) (name : String) (c : Cursor) : CursorTable :=
  ⟨(name, c) :: t.entries.filter fun e => e.1 != name⟩

def clone (t : CursorTable) (name copy : String) : CursorTable :=
  match t.get? name with
  | some c => t.put copy c
  | none => t

def pulls (s : Schedule) (t : CursorTable) (name : String) (n : Nat) :
    List (Option Date) × CursorTable :=
  match t.get? name with
  | some c =>
    let (found, c) := c.pulls s n
    (found, t.put name c)
  | none => ([], t)

theorem get?_put (t : CursorTable) (name other : String) (c : Cursor) :
    (t.put name c).get? other = if other = name then some c else t.get? other := by
  by_cases h : other = name
  · subst h
    simp [put, get?]
  · simp only [put, get?, List.lookup_cons, beq_eq_false_iff_ne.2 h, if_neg h]
    induction t.entries with
    | nil => rfl
    | cons e es ih =>
      obtain ⟨key, c'⟩ := e
      by_cases hk : key = name
      · simp [hk, ih, List.lookup_cons, beq_eq_false_iff_ne.2 h]
      · simp only [List.filter_cons, bne_iff_ne, ne_eq, hk, not_false_eq_true, if_true,
          List.lookup_cons, ih]

end CursorTable

end Recurrence
