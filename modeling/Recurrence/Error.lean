import Recurrence.Calendar.Month
import Recurrence.Text.Decimal
import Recurrence.Text.Quoted

/-!
# Why a value is refused

Each constructor of `Error` is one cause. `Error.kind` sorts the causes into five families, and
`Error.message` words them. A malformed document carries no detail beyond its family.
-/

namespace Recurrence

/-- What stops the reading of a date. -/
inductive DateFault
  | ended | unexpected | outOfRange | leftover
  deriving DecidableEq

/-- The two rules that hold a list of members. -/
inductive Combination
  | union | intersection
  deriving DecidableEq

inductive Error
  | unknownWeekday (name : String)
  | unknownMonth (name : String)
  | unreadableDate (text : String) (fault : DateFault)
  | notMonthDay (text : String)
  | unreadableMonth (text : String)
  | unreadableDay (text : String)
  | noSuchMonth (number : Nat)
  | noSuchDay (number : Nat)
  | dayNotInMonth (day : Nat) (month : Month)
  | startDayTooLarge (day : Nat)
  | endDayTooLarge (day : Nat)
  | ordinalOutsideMonth (ordinal : Int)
  | zeroInterval
  | unclearCadence
  | noMembers (combination : Combination)
  | negativeSlots (slots : Int)
  | tooManySlots (slots : Int)
  | missingType
  | unknownType
  | missingBounds
  | unknownBounds
  | missingField (name : String)
  | missingDay
  | missingOrdinal
  | ordinalTooWide (ordinal : Int)
  | ordinalBelowOne (ordinal : Int)
  | dayAndReference
  | missingIncluded
  | missingExcluded
  | missingMembers (combination : Combination)
  | missingSchedule
  | missingSlots (entry : Nat)
  | malformed
  deriving DecidableEq

inductive ErrorKind
  | validation | format | range | undefinedRule | malformed
  deriving DecidableEq

def DateFault.message : DateFault → String
  | ended => "premature end of input"
  | unexpected => "input contains invalid characters"
  | outOfRange => "input is out of range"
  | leftover => "trailing input"

namespace Combination

def name : Combination → String
  | union => "union"
  | intersection => "intersection"

def keyword : Combination → String
  | union => "UNION"
  | intersection => "INTERSECTION"

end Combination

namespace ErrorKind

def heading : ErrorKind → String
  | validation => "Validation error: "
  | format => "Invalid date format: "
  | range => "Value out of range: "
  | undefinedRule => "Temporal expression is not defined: "
  | malformed => "JSON parse error: "

end ErrorKind

namespace Error

open Text

def kind : Error → ErrorKind
  | unreadableDate _ _ | notMonthDay _ | unreadableMonth _ | unreadableDay _ => .format
  | noSuchMonth _ | noSuchDay _ | dayNotInMonth _ _ => .range
  | missingType | unknownType | missingBounds | unknownBounds => .undefinedRule
  | malformed => .malformed
  | _ => .validation

def detail : Error → String
  | unknownWeekday name => "unknown day of week " ++ quote name
  | unknownMonth name => "unknown month " ++ quote name
  | unreadableDate text fault => "invalid date " ++ quote text ++ ": " ++ fault.message
  | notMonthDay text => "expected MM-DD, got " ++ quote text
  | unreadableMonth text => "invalid month in " ++ quote text
  | unreadableDay text => "invalid day in " ++ quote text
  | noSuchMonth n => "month value " ++ natural n ++ " is not in 1..=12"
  | noSuchDay n => "day of month " ++ natural n ++ " is not in 1..=31"
  | dayNotInMonth day month =>
    "day of month " ++ natural day ++ " does not exist in " ++ month.name
  | startDayTooLarge day => "start_day=" ++ natural day ++ " is not in 0..=31"
  | endDayTooLarge day => "end_day=" ++ natural day ++ " is not in 0..=31"
  | ordinalOutsideMonth n => "ordinal=" ++ signed n ++ " is not in [-5, 5] excluding 0"
  | zeroInterval => "'ordinal' must be >= 1"
  | unclearCadence =>
    "day in week needs either a day of week (without ordinal or reference date), " ++
      "or a reference date with ordinal >= 1 (without day of week)"
  | noMembers c => c.name ++ " needs at least one expression"
  | negativeSlots n => "slots cannot be negative (got " ++ signed n ++ ")"
  | tooManySlots n => "slots=" ++ signed n ++ " is too large"
  | missingType => "missing expression type"
  | unknownType => "unknown expression type"
  | missingBounds => "RANGE_EVERY_YEAR must specify \"of\""
  | unknownBounds => "unknown RANGE_EVERY_YEAR bounds"
  | missingField name => name ++ " is required"
  | missingDay => "day property not provided"
  | missingOrdinal => "ordinal is required for DAY_IN_MONTH"
  | ordinalTooWide n => "ordinal=" ++ signed n ++ " is out of range"
  | ordinalBelowOne n => "ordinal=" ++ signed n ++ " must be >= 1"
  | dayAndReference => "DAY_IN_WEEK takes either day or referenceDate, not both"
  | missingIncluded => "includedDate is required for DIFFERENCE"
  | missingExcluded => "excludedDate is required for DIFFERENCE"
  | missingMembers c => "expressions are required for " ++ c.keyword
  | missingSchedule => "schedule not defined"
  | missingSlots entry => "slots not defined for schedule entry " ++ natural entry
  | malformed => "not a schedule document"

def message (e : Error) : String := e.kind.heading ++ e.detail

end Error

end Recurrence
