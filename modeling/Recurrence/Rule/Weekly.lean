import Recurrence.Calendar.DateText

/-!
# A weekday of every week or of every n-th week

A cadence is a weekday of every week, or one date together with a number of weeks: then it holds
on the dates that lie a multiple of so many whole weeks before or after that date, on its weekday.
-/

namespace Recurrence

inductive WeeklyCadence
  | every (weekday : Weekday)
  | everyNth (interval : Nat) (reference : Date) (interval_pos : 0 < interval)
  deriving DecidableEq

namespace WeeklyCadence

def ofInterval (interval : Nat) (reference : Date) : Except Error WeeklyCadence :=
  if h : 0 < interval then .ok (.everyNth interval reference h) else .error .zeroInterval

/-- The cadence that loose parts describe: a weekday alone, or an interval and a reference. The
interval 0 counts as not given. -/
def ofParts (weekday : Option Weekday) (interval : Nat) (reference : Option Date) :
    Except Error WeeklyCadence :=
  match weekday, interval, reference with
  | some w, 0, none => .ok (.every w)
  | none, n + 1, some r => ofInterval (n + 1) r
  | _, _, _ => .error .unclearCadence

def includes : WeeklyCadence → Date → Bool
  | every w, d => d.weekday == w
  | everyNth n r _, d => d.weekday == r.weekday && r.weeksBetween d % (n : Int) == 0

def weekday : WeeklyCadence → Weekday
  | every w => w
  | everyNth _ r _ => r.weekday

def interval : WeeklyCadence → Nat
  | every _ => 1
  | everyNth n _ _ => n

def reference? : WeeklyCadence → Option Date
  | every _ => none
  | everyNth _ r _ => some r

def display : WeeklyCadence → String
  | every w => "every " ++ w.abbreviation
  | everyNth n r _ =>
    "every " ++ Text.natural n ++ " weeks on " ++ r.weekday.abbreviation ++ " from " ++ r.display

end WeeklyCadence

end Recurrence
