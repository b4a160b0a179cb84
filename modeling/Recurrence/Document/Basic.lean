/-!
# Schedule documents

A document lists the entries of a schedule. An entry has a number of slots and a node, and a node
describes a rule by a type and by whichever of its fields that type reads. Every field may be
absent, and a text is kept as it stands in the document.
-/

namespace Recurrence

inductive NodeType
  | yearly | monthly | weekly | difference | union | intersection | unknown
  deriving DecidableEq

/-- The pair of bounds that a yearly node gives. -/
inductive BoundsType
  | days | months | unknown
  deriving DecidableEq

structure Node where
  type : Option NodeType := none
  bounds : Option BoundsType := none
  startDate : Option String := none
  endDate : Option String := none
  startMonth : Option String := none
  endMonth : Option String := none
  day : Option String := none
  ordinal : Option Int := none
  referenceDate : Option String := none
  includedDate : Option Node := none
  excludedDate : Option Node := none
  expressions : Option (List Node) := none

structure Entry where
  slots : Option Int
  node : Node

structure Document where
  schedule : Option (List Entry)

namespace NodeType

/-- The types that a document can name. -/
def known : List NodeType := [yearly, monthly, weekly, difference, union, intersection]

def keyword : NodeType → String
  | yearly => "RANGE_EVERY_YEAR"
  | monthly => "DAY_IN_MONTH"
  | weekly => "DAY_IN_WEEK"
  | difference => "DIFFERENCE"
  | union => "UNION"
  | intersection => "INTERSECTION"
  | unknown => "UNKNOWN"

def ofKeyword (s : String) : NodeType := (known.find? fun t => t.keyword == s).getD unknown

theorem ofKeyword_keyword (t : NodeType) : ofKeyword t.keyword = t := by
  cases t <;> rfl

end NodeType

namespace BoundsType

def known : List BoundsType := [days, months]

def keyword : BoundsType → String
  | days => "START_DAY_TO_END_DAY"
  | months => "START_MONTH_TO_END_MONTH"
  | unknown => "UNKNOWN"

def ofKeyword (s : String) : BoundsType := (known.find? fun t => t.keyword == s).getD unknown

theorem ofKeyword_keyword (t : BoundsType) : ofKeyword t.keyword = t := by
  cases t <;> rfl

end BoundsType

end Recurrence
