import Recurrence.Text.Name

/-!
# Days of the week

The seven days in order from Monday, each with an index, a full English name and a three-letter
abbreviation. `ofName?` reads a name or an abbreviation in any letter case, and `ofIndex` undoes
`index`.
-/

namespace Recurrence

inductive Weekday
  | monday | tuesday | wednesday | thursday | friday | saturday | sunday
  deriving DecidableEq

namespace Weekday

def all : List Weekday := [monday, tuesday, wednesday, thursday, friday, saturday, sunday]

def name : Weekday → String
  | monday => "Monday"
  | tuesday => "Tuesday"
  | wednesday => "Wednesday"
  | thursday => "Thursday"
  | friday => "Friday"
  | saturday => "Saturday"
  | sunday => "Sunday"

def abbreviation : Weekday → String
  | monday => "Mon"
  | tuesday => "Tue"
  | wednesday => "Wed"
  | thursday => "Thu"
  | friday => "Fri"
  | saturday => "Sat"
  | sunday => "Sun"

def index : Weekday → Nat
  | monday => 0
  | tuesday => 1
  | wednesday => 2
  | thursday => 3
  | friday => 4
  | saturday => 5
  | sunday => 6

/-- The day with a given index; indices past the week stand for Sunday. -/
def ofIndex : Nat → Weekday
  | 0 => monday
  | 1 => tuesday
  | 2 => wednesday
  | 3 => thursday
  | 4 => friday
  | 5 => saturday
  | _ => sunday

def ofName? (text : String) : Option Weekday := all.find? fun w => Text.spells text w.name

theorem mem_all (w : Weekday) : w ∈ all := by cases w <;> decide

theorem ofIndex_index (w : Weekday) : ofIndex w.index = w := by cases w <;> rfl

theorem index_ofIndex {n : Nat} (h : n < 7) : (ofIndex n).index = n := by
  have hall : ∀ k ∈ List.range 7, (ofIndex k).index = k := by decide
  exact hall n (List.mem_range.2 h)

end Weekday

end Recurrence
