import Recurrence.Rule.Equality

/-!
# Schedules of slots

A schedule is an ordered list of allotments, each a rule with the number of slots it offers. On a
date the first allotment whose rule holds decides the slots; a date on which none holds has no
slots.
-/

namespace Recurrence

/-- The largest number of slots that an allotment may offer. -/
abbrev slotLimit : Nat := 4294967295

structure Allotment where
  rule : Rule
  slots : Nat
  slots_le : slots ≤ slotLimit
  deriving DecidableEq

@[ext] structure Schedule where
  allotments : List Allotment
  deriving DecidableEq

namespace Allotment

def ofSlots (rule : Rule) (slots : Int) : Except Error Allotment :=
  if slots < 0 then .error (.negativeSlots slots)
  else if h : slots.toNat ≤ slotLimit then .ok ⟨rule, slots.toNat, h⟩
  else .error (.tooManySlots slots)

def occurs (a : Allotment) (d : Date) : Bool := a.rule.includes d

def display (a : Allotment) : String :=
  a.rule.display ++ " => " ++ Text.natural a.slots ++ " slots"

end Allotment

namespace Schedule

def empty : Schedule := ⟨[]⟩

def length (s : Schedule) : Nat := s.allotments.length

def isEmpty (s : Schedule) : Bool := s.allotments.isEmpty

def occurs (s : Schedule) (d : Date) : Bool := s.allotments.any fun a => a.occurs d

def matching? (s : Schedule) (d : Date) : Option Allotment :=
  s.allotments.find? fun a => a.occurs d

/-- The place of the matching allotment in the schedule, counted from 0. -/
def matchingIndex? (s : Schedule) (d : Date) : Option Nat :=
  s.allotments.findIdx? fun a => a.occurs d

def slots (s : Schedule) (d : Date) : Nat :=
  match s.matching? d with
  | some a => a.slots
  | none => 0

def display (s : Schedule) : String :=
  "[" ++ String.intercalate ", " (s.allotments.map Allotment.display) ++ "]"

theorem occurs_eq_isSome_matching? (s : Schedule) (d : Date) :
    s.occurs d = (s.matching? d).isSome := by
  rw [Bool.eq_iff_iff, matching?, List.find?_isSome, occurs, List.any_eq_true]

end Schedule

end Recurrence
