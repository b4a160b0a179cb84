import Recurrence.Rule.Monthly
import Recurrence.Rule.Weekly
import Recurrence.Rule.Yearly

/-!
# Rules of recurrence

A rule is a set of dates put together from yearly windows, monthly weekdays and weekly cadences by
union, intersection and difference. `includes` decides whether a date belongs to the rule and
`display` writes the rule down. A union or an intersection is made of one member at least.
-/

namespace Recurrence

inductive Rule
  | yearly (window : YearlyWindow)
  | monthly (place : MonthlyWeekday)
  | weekly (cadence : WeeklyCadence)
  | difference (included excluded : Rule)
  | union (members : List Rule)
  | intersection (members : List Rule)

namespace Rule

mutual

def includes : Rule → Date → Bool
  | yearly w, d => w.includes d
  | monthly m, d => m.includes d
  | weekly c, d => c.includes d
  | difference r s, d => r.includes d && !s.includes d
  | union rs, d => anyIncludes rs d
  | intersection rs, d => allInclude rs d

def anyIncludes : List Rule → Date → Bool
  | [], _ => false
  | r :: rs, d => r.includes d || anyIncludes rs d

def allInclude : List Rule → Date → Bool
  | [], _ => true
  | r :: rs, d => r.includes d && allInclude rs d

end

def unionOf (members : List Rule) : Except Error Rule :=
  if members.isEmpty then .error (.noMembers .union) else .ok (union members)

def intersectionOf (members : List Rule) : Except Error Rule :=
  if members.isEmpty then .error (.noMembers .intersection) else .ok (intersection members)

def or (r s : Rule) : Rule := union [r, s]

def and (r s : Rule) : Rule := intersection [r, s]

def except (r s : Rule) : Rule := difference r s

mutual

def display : Rule → String
  | yearly w => w.display
  | monthly m => m.display
  | weekly c => c.display
  | difference r s => "(" ++ r.display ++ " - " ++ s.display ++ ")"
  | union rs => "(" ++ String.intercalate " | " (displays rs) ++ ")"
  | intersection rs => "(" ++ String.intercalate " & " (displays rs) ++ ")"

def displays : List Rule → List String
  | [] => []
  | r :: rs => r.display :: displays rs

end

theorem anyIncludes_eq_any (rs : List Rule) (d : Date) :
    anyIncludes rs d = rs.any fun r => r.includes d := by
  induction rs with
  | nil => rfl
  | cons r rs ih => simp only [anyIncludes, List.any_cons, ih]

theorem allInclude_eq_all (rs : List Rule) (d : Date) :
    allInclude rs d = rs.all fun r => r.includes d := by
  induction rs with
  | nil => rfl
  | cons r rs ih => simp only [allInclude, List.all_cons, ih]

theorem includes_union (rs : List Rule) (d : Date) :
    (union rs).includes d = rs.any fun r => r.includes d := by
  rw [includes, anyIncludes_eq_any]

theorem includes_intersection (rs : List Rule) (d : Date) :
    (intersection rs).includes d = rs.all fun r => r.includes d := by
  rw [includes, allInclude_eq_all]

theorem includes_difference (r s : Rule) (d : Date) :
    (difference r s).includes d = (r.includes d && !s.includes d) := by
  rw [includes]

theorem includes_or (r s : Rule) (d : Date) :
    (r.or s).includes d = (r.includes d || s.includes d) := by
  simp [Rule.or, includes_union]

theorem includes_and (r s : Rule) (d : Date) :
    (r.and s).includes d = (r.includes d && s.includes d) := by
  simp [Rule.and, includes_intersection]

theorem displays_eq_map (rs : List Rule) : displays rs = rs.map display := by
  induction rs with
  | nil => rfl
  | cons r rs ih => rw [displays, ih, List.map_cons]

end Rule

end Recurrence
