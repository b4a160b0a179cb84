import Recurrence.Schedule.Basic

/-!
# Searching for occurrences

A search steps from day to day in one direction, the first date included, until a day is found or
the days run out. An unbounded search may take as many steps as there are dates left in its
direction. `datesBetween` steps from the one date up to the other in the same way and collects the
occurrences that it comes to, in ascending order.
-/

namespace Recurrence

inductive Direction
  | forward | backward
  deriving DecidableEq

namespace Direction

def step? : Direction → Date → Option Date
  | forward, d => d.succ?
  | backward, d => d.pred?

/-- How many dates lie ahead of a date. -/
def ahead : Direction → Date → Nat
  | forward, d => d.daysAfter
  | backward, d => d.daysBefore

end Direction

/-- The first date that satisfies `p`, looking at a date and at most `n` more. -/
@[specialize] def search (dir : Direction) (p : Date → Bool) : Nat → Date → Option Date
  | 0, d => if p d then some d else none
  | n + 1, d =>
    if p d then some d
    else match dir.step? d with
      | some e => search dir p n e
      | none => none

/-- The dates up to `stop` that satisfy `p`, looking at so many dates from one on. They are put in
front of those found before, so that the latest comes first. -/
@[specialize] def collect (p : Date → Bool) (stop : Date) : Nat → Date → List Date → List Date
  | 0, _, found => found
  | n + 1, d, found =>
    if d ≤ stop then
      let found := if p d then d :: found else found
      match d.succ? with
      | some e => collect p stop n e found
      | none => found
    else found

namespace Schedule

def datesBetween (s : Schedule) (start stop : Date) : List Date :=
  (collect s.occurs stop (start.daysAfter + 1) start []).reverse

def seek? (s : Schedule) (dir : Direction) (d : Date) : Option Date :=
  if s.isEmpty then none else search dir s.occurs (dir.ahead d) d

def seekWithin? (s : Schedule) (dir : Direction) (d : Date) (maxDays : Nat) : Option Date :=
  search dir s.occurs maxDays d

def next? (s : Schedule) (d : Date) : Option Date := s.seek? .forward d

def previous? (s : Schedule) (d : Date) : Option Date := s.seek? .backward d

def nextWithin? (s : Schedule) (d : Date) (maxDays : Nat) : Option Date :=
  s.seekWithin? .forward d maxDays

def previousWithin? (s : Schedule) (d : Date) (maxDays : Nat) : Option Date :=
  s.seekWithin? .backward d maxDays

end Schedule

end Recurrence
