import Recurrence.Proofs.Rule.Construction

/-!
# Rules in machine integers

A machine integer holds the numbers between a least and a greatest one. An operation fails where the
machine does not hold its result, as it does when it divides by zero. With such operations the
weeks of a date and the rules are evaluated step by step, and the evaluation fails as soon as one of
its operations does. A well-formed rule never fails, on no date, and it has its usual value.
-/

namespace Recurrence.Machine

/-- The least and the greatest number that the machine holds. -/
structure Range where
  low : ℤ
  high : ℤ

def natural32 : Range := ⟨0, 4294967295⟩

def natural64 : Range := ⟨0, 18446744073709551615⟩

def integer32 : Range := ⟨-2147483648, 2147483647⟩

def integer64 : Range := ⟨-9223372036854775808, 9223372036854775807⟩

namespace Range

variable (w : Range) {x y : ℤ}

def fit? (x : ℤ) : Option ℤ := if w.low ≤ x ∧ x ≤ w.high then some x else none

def add? (x y : ℤ) : Option ℤ := w.fit? (x + y)

def sub? (x y : ℤ) : Option ℤ := w.fit? (x - y)

/-- The quotient, rounded toward zero. -/
def div? (x y : ℤ) : Option ℤ := if y = 0 then none else w.fit? (x.tdiv y)

/-- The remainder of the rounded quotient. The quotient has to fit as well. -/
def rem? (x y : ℤ) : Option ℤ := (w.div? x y).map fun _ => x.tmod y

/-- The remainder that is not negative. The rounded quotient has to fit as well. -/
def mod? (x y : ℤ) : Option ℤ := (w.div? x y).map fun _ => x % y

variable {w}

theorem fit?_of_mem (h : w.low ≤ x) (h' : x ≤ w.high) : w.fit? x = some x :=
  if_pos ⟨h, h'⟩

/-- A quotient by a positive number lies between zero and the dividend. -/
theorem div?_of_pos (hzero : w.low ≤ 0 ∧ 0 ≤ w.high) (hx : w.low ≤ x ∧ x ≤ w.high) (hy : 0 < y) :
    w.div? x y = some (x.tdiv y) := by
  have hsize := Int.natAbs_tdiv_le_natAbs x y
  rw [div?, if_neg hy.ne']
  rcases Int.le_total 0 x with hsign | hsign
  · have hnonneg := Int.tdiv_nonneg hsign hy.le
    exact fit?_of_mem (by omega) (by omega)
  · have hnonpos : 0 ≤ (-x).tdiv y := Int.tdiv_nonneg (by omega) hy.le
    rw [Int.neg_tdiv] at hnonpos
    exact fit?_of_mem (by omega) (by omega)

end Range

section Calendar

variable (d e : Date)

def isLeapYear? (year : ℤ) : Option Bool := do
  let four ← integer32.rem? year 4
  let hundred ← integer32.rem? year 100
  let fourHundred ← integer32.rem? year 400
  return (four == 0 && hundred != 0) || fourHundred == 0

def lastDayOfMonth? : Option ℤ := do
  let leap ← isLeapYear? d.year
  return d.month.length leap

def weekFromStart? : Option ℤ := do
  let before ← natural32.sub? d.day 1
  let weeks ← natural32.div? before 7
  natural32.add? weeks 1

def weekFromEnd? : Option ℤ := do
  let last ← lastDayOfMonth? d
  let behind ← natural32.sub? last d.day
  let weeks ← natural32.div? behind 7
  natural32.add? weeks 1

def weeksBetween? : Option ℤ := do
  let days ← integer64.sub? e.number d.number
  integer64.div? days 7

theorem isLeapYear?_eq {year : ℤ} (hlow : -2147483648 ≤ year) (hhigh : year ≤ 2147483647) :
    isLeapYear? year = some (isLeapYear year) := by
  have hrem : ∀ y : ℤ, 0 < y → integer32.rem? year y = some (year.tmod y) := by
    intro y hy
    rw [Range.rem?, Range.div?_of_pos (by decide) ⟨hlow, hhigh⟩ hy, Option.map_some]
  have hzero : ∀ y : ℤ, (year.tmod y == 0) = (year % y == 0) := by
    intro y
    rw [Bool.eq_iff_iff, beq_iff_eq, beq_iff_eq, ← Int.dvd_iff_tmod_eq_zero,
      ← Int.dvd_iff_emod_eq_zero]
  simp only [isLeapYear?, hrem 4 (by decide), hrem 100 (by decide), hrem 400 (by decide),
    Option.bind_eq_bind, Option.bind_some, Option.pure_def, isLeapYear, bne, hzero]

theorem lastDayOfMonth?_eq : lastDayOfMonth? d = some (d.lastDayOfMonth : ℤ) := by
  have hfirst := d.firstYear_le
  have hlast := d.year_le_lastYear
  rw [lastDayOfMonth?, isLeapYear?_eq (by omega) (by omega), d.lastDayOfMonth_eq]
  rfl

/-- A count of days below a month is divided into weeks without failure. -/
theorem week?_eq {k : ℕ} (hk : k < 31) :
    (natural32.div? k 7).bind (fun weeks => natural32.add? weeks 1) =
      some ((k / 7 + 1 : ℕ) : ℤ) := by
  have hdiv : natural32.div? k 7 = some ((k : ℤ).tdiv 7) :=
    Range.div?_of_pos (by decide) (by simp only [natural32]; omega) (by decide)
  have hquotient : (k : ℤ).tdiv 7 = (k / 7 : ℕ) := rfl
  rw [hdiv, Option.bind_some, hquotient, Range.add?]
  exact Range.fit?_of_mem (by simp only [natural32]; omega) (by simp only [natural32]; omega)

theorem weekFromStart?_eq : weekFromStart? d = some (d.weekFromStart : ℤ) := by
  have hlow := d.one_le_day
  have hhigh := d.day_le
  have hsub : natural32.sub? d.day 1 = some ((d.day - 1 : ℕ) : ℤ) := by
    rw [Range.sub?, Nat.cast_sub hlow, Nat.cast_one]
    exact Range.fit?_of_mem (by simp only [natural32]; omega) (by simp only [natural32]; omega)
  rw [weekFromStart?, hsub]
  exact week?_eq (by omega)

theorem weekFromEnd?_eq : weekFromEnd? d = some (d.weekFromEnd : ℤ) := by
  have hlow := d.one_le_day
  have hhigh := d.day_le_lastDayOfMonth
  have hlast : d.lastDayOfMonth ≤ 31 := by
    rw [d.lastDayOfMonth_eq]
    exact Month.length_le _ _
  have hsub : natural32.sub? d.lastDayOfMonth d.day =
      some ((d.lastDayOfMonth - d.day : ℕ) : ℤ) := by
    rw [Range.sub?, Nat.cast_sub hhigh]
    exact Range.fit?_of_mem (by simp only [natural32]; omega) (by simp only [natural32]; omega)
  rw [weekFromEnd?, lastDayOfMonth?_eq, Option.bind_eq_bind, Option.bind_some, hsub]
  exact week?_eq (by omega)

theorem number_bounds : -95746130 ≤ d.number ∧ d.number ≤ 95745398 := ⟨d.first_le, d.le_last⟩

theorem weeksBetween?_eq : weeksBetween? d e = some (d.weeksBetween e) := by
  have hd := number_bounds d
  have he := number_bounds e
  have hsub : integer64.sub? e.number d.number = some (e.number - d.number) :=
    Range.fit?_of_mem (by simp only [integer64]; omega) (by simp only [integer64]; omega)
  rw [weeksBetween?, hsub, Option.bind_eq_bind, Option.bind_some, Date.weeksBetween]
  exact Range.div?_of_pos (by decide) (by simp only [integer64]; omega) (by decide)

end Calendar

def monthlyIncludes? (m : MonthlyWeekday) (d : Date) : Option Bool :=
  if d.weekday = m.weekday then do
    let ordinal ← natural32.fit? m.ordinal.natAbs
    let week ← if 0 < m.ordinal then weekFromStart? d else weekFromEnd? d
    return week == ordinal
  else some false

def weeklyIncludes? : WeeklyCadence → Date → Option Bool
  | .every w, d => some (d.weekday == w)
  | .everyNth n reference _, d =>
    if d.weekday = reference.weekday then do
      let weeks ← weeksBetween? reference d
      let interval ← integer64.fit? n
      let rest ← integer64.mod? weeks interval
      return rest == 0
    else some false

mutual

/-- Whether a rule includes a date. The bounds of a window are only compared. -/
def includes? : Rule → Date → Option Bool
  | .yearly w, d => some (w.includes d)
  | .monthly m, d => monthlyIncludes? m d
  | .weekly c, d => weeklyIncludes? c d
  | .difference r s, d => do
    if ← includes? r d then
      return !(← includes? s d)
    else
      return false
  | .union rs, d => anyIncludes? rs d
  | .intersection rs, d => allInclude? rs d

def anyIncludes? : List Rule → Date → Option Bool
  | [], _ => some false
  | r :: rs, d => do if ← includes? r d then return true else anyIncludes? rs d

def allInclude? : List Rule → Date → Option Bool
  | [], _ => some true
  | r :: rs, d => do if ← includes? r d then allInclude? rs d else return false

end

theorem monthlyIncludes?_eq {m : MonthlyWeekday} (hlow : -5 ≤ m.ordinal) (hhigh : m.ordinal ≤ 5)
    (d : Date) : monthlyIncludes? m d = some (m.includes d) := by
  have hordinal : natural32.fit? m.ordinal.natAbs = some (m.ordinal.natAbs : ℤ) :=
    Range.fit?_of_mem (by simp only [natural32]; omega) (by simp only [natural32]; omega)
  have hcast : ∀ j k : ℕ, ((j : ℤ) == (k : ℤ)) = (j == k) := by
    intro j k
    rw [Bool.eq_iff_iff, beq_iff_eq, beq_iff_eq, Nat.cast_inj]
  rw [monthlyIncludes?, MonthlyWeekday.includes, MonthlyWeekday.weekMatches]
  split_ifs with hweekday hpos
  · simp only [hordinal, weekFromStart?_eq, Option.bind_eq_bind, Option.bind_some, Option.pure_def,
      hcast, hweekday, beq_self_eq_true, Bool.true_and]
  · simp only [hordinal, weekFromEnd?_eq, Option.bind_eq_bind, Option.bind_some, Option.pure_def,
      hcast, hweekday, beq_self_eq_true, Bool.true_and]
  · simp [hweekday]
  · simp [hweekday]

theorem weeklyIncludes?_everyNth {n : ℕ} (reference : Date) (hpos : 0 < n) (hn : n < 2 ^ 32)
    (d : Date) : weeklyIncludes? (.everyNth n reference hpos) d =
      some ((WeeklyCadence.everyNth n reference hpos).includes d) := by
  have hreference := number_bounds reference
  have hd := number_bounds d
  have hinterval : integer64.fit? n = some (n : ℤ) :=
    Range.fit?_of_mem (by simp only [integer64]; omega) (by simp only [integer64]; omega)
  have hweeks : integer64.low ≤ reference.weeksBetween d ∧
      reference.weeksBetween d ≤ integer64.high := by
    have hsize := Int.natAbs_tdiv_le_natAbs (d.number - reference.number) 7
    simp only [integer64, Date.weeksBetween]
    omega
  have hmod : integer64.mod? (reference.weeksBetween d) n =
      some (reference.weeksBetween d % n) := by
    rw [Range.mod?, Range.div?_of_pos (by decide) hweeks (by omega), Option.map_some]
  rw [weeklyIncludes?, WeeklyCadence.includes]
  split_ifs with hweekday
  · simp [weeksBetween?_eq, hinterval, hmod, hweekday]
  · simp [hweekday]

theorem anyIncludes?_eq {rs : List Rule} {d : Date}
    (h : ∀ r ∈ rs, includes? r d = some (r.includes d)) :
    anyIncludes? rs d = some (Rule.anyIncludes rs d) := by
  induction rs with
  | nil => rfl
  | cons r rs ih =>
      rw [List.forall_mem_cons] at h
      rw [anyIncludes?, Rule.anyIncludes, h.1, ih h.2]
      cases r.includes d <;> rfl

theorem allInclude?_eq {rs : List Rule} {d : Date}
    (h : ∀ r ∈ rs, includes? r d = some (r.includes d)) :
    allInclude? rs d = some (Rule.allInclude rs d) := by
  induction rs with
  | nil => rfl
  | cons r rs ih =>
      rw [List.forall_mem_cons] at h
      rw [allInclude?, Rule.allInclude, h.1, ih h.2]
      cases r.includes d <;> rfl

/-- No operation fails in the evaluation of a well-formed rule. -/
theorem includes?_eq {r : Rule} (h : r.WellFormed) (d : Date) :
    includes? r d = some (r.includes d) := by
  induction h with
  | yearly hstart hstop => rw [includes?, Rule.includes]
  | monthly hzero hlow hhigh =>
      rw [includes?, Rule.includes]
      exact monthlyIncludes?_eq hlow hhigh d
  | every w => rw [includes?, Rule.includes, weeklyIncludes?, WeeklyCadence.includes]
  | everyNth reference hpos hn =>
      rw [includes?, Rule.includes]
      exact weeklyIncludes?_everyNth reference hpos hn d
  | @difference r s _ _ hr hs =>
      rw [includes?, Rule.includes, hr, hs]
      cases r.includes d <;> rfl
  | union _ _ ih =>
      rw [includes?, Rule.includes]
      exact anyIncludes?_eq ih
  | intersection _ _ ih =>
      rw [includes?, Rule.includes]
      exact allInclude?_eq ih

end Recurrence.Machine
