import Recurrence.Document.Decoding
import Recurrence.Schedule.Basic

/-!
# The schedule that a document describes

A node stands for a rule. Only the fields that its type reads are looked at, from left to right and
depth first, and the first thing found wrong is the error of the whole. Each entry of a document
gives one allotment, its slots being checked for presence before its node and for size after it.
-/

namespace Recurrence

namespace Node

/-- A field that a type cannot do without. -/
def required (name : String) : Option String → Except Error String
  | some s => .ok s
  | none => .error (.missingField name)

def yearlyWindow (n : Node) : Except Error YearlyWindow :=
  match n.bounds with
  | none => .error .missingBounds
  | some .unknown => .error .unknownBounds
  | some .days => do
    let start ← MonthDay.read (← required "startDate" n.startDate)
    let stop ← MonthDay.read (← required "endDate" n.endDate)
    return .days start stop
  | some .months => do
    let start ← Month.read (← required "startMonth" n.startMonth)
    let stop ← Month.read (← required "endMonth" n.endMonth)
    return .months start stop

def monthlyWeekday (n : Node) : Except Error MonthlyWeekday :=
  match n.day with
  | none => .error .missingDay
  | some day => do
    let weekday ← Weekday.read day
    match n.ordinal with
    | none => .error .missingOrdinal
    | some ordinal =>
      if -2147483648 ≤ ordinal ∧ ordinal ≤ 2147483647 then
        MonthlyWeekday.ofOrdinal weekday ordinal
      else .error (.ordinalTooWide ordinal)

/-- The largest interval that a document may give. -/
def intervalLimit : Int := 4294967295

/-- The interval between the weeks; none counts as 0. -/
def weeklyInterval : Option Int → Except Error Nat
  | none => .ok 0
  | some ordinal =>
    if 0 ≤ ordinal ∧ ordinal ≤ intervalLimit then .ok ordinal.toNat
    else .error (.ordinalBelowOne ordinal)

def weeklyCadence (n : Node) : Except Error WeeklyCadence :=
  match n.day, n.referenceDate with
  | none, none => .error .missingDay
  | some day, none => do
    let weekday ← Weekday.read day
    return .every weekday
  | some _, some _ => .error .dayAndReference
  | none, some text => do
    let reference ← Date.read text
    let interval ← weeklyInterval n.ordinal
    WeeklyCadence.ofParts none interval (some reference)

mutual

def rule (n : Node) : Except Error Rule :=
  match n with
  | ⟨type, _, _, _, _, _, _, _, _, included, excluded, members⟩ =>
    match type with
    | none => .error .missingType
    | some .unknown => .error .unknownType
    | some .yearly => do return .yearly (← n.yearlyWindow)
    | some .monthly => do return .monthly (← n.monthlyWeekday)
    | some .weekly => do return .weekly (← n.weeklyCadence)
    | some .difference =>
      match included, excluded with
      | none, _ => .error .missingIncluded
      | some _, none => .error .missingExcluded
      | some i, some e => do
        let r ← i.rule
        let s ← e.rule
        return .difference r s
    | some .union =>
      match members with
      | none => .error (.missingMembers .union)
      | some ns => do Rule.unionOf (← rules ns)
    | some .intersection =>
      match members with
      | none => .error (.missingMembers .intersection)
      | some ns => do Rule.intersectionOf (← rules ns)

def rules : List Node → Except Error (List Rule)
  | [] => .ok []
  | n :: ns => do
    let r ← n.rule
    let rs ← rules ns
    return r :: rs

end

end Node

/-- The allotment of the entry at an index. -/
def Entry.allotment (index : Nat) (e : Entry) : Except Error Allotment :=
  match e.slots with
  | none => .error (.missingSlots index)
  | some slots => do
    let rule ← e.node.rule
    Allotment.ofSlots rule slots

/-- The allotments of entries whose first one stands at an index. -/
def Entry.allotments : Nat → List Entry → Except Error (List Allotment)
  | _, [] => .ok []
  | index, e :: es => do
    let a ← e.allotment index
    let as ← Entry.allotments (index + 1) es
    return a :: as

def Document.allotments (d : Document) : Except Error (List Allotment) :=
  match d.schedule with
  | none => .error .missingSchedule
  | some entries => Entry.allotments 0 entries

def Schedule.ofDocument (d : Document) : Except Error Schedule := do
  return ⟨← d.allotments⟩

def Schedule.read (text : String) : Except Error Schedule :=
  match Document.ofText? text with
  | none => .error .malformed
  | some d => ofDocument d

end Recurrence
