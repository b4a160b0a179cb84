import Recurrence.Proofs.Calendar.MonthDays
import Recurrence.Proofs.Machine.Rules

/-!
# Month-days in machine integers

A written month-day is split at every hyphen, and each number in it is summed up digit by digit in
32 bits, where the sum fails as soon as it does not fit. The numbers are checked before a month-day
is made of them, and again when it is made, where the month first has to fit into a byte. All of
this comes to the same as reading the two numbers at once.
-/

namespace Recurrence

namespace Machine

def natural8 : Range := ⟨0, 255⟩

def Range.mul? (w : Range) (x y : ℤ) : Option ℤ := w.fit? (x * y)

section Numbers

def digit? (c : Char) : Option ℤ := if c.isDigit then some (c.toNat - '0'.toNat : ℕ) else none

/-- The number with one more digit behind it. -/
def push? (n : ℤ) (c : Char) : Option ℤ := do
  let shifted ← natural32.mul? n 10
  let digit ← digit? c
  natural32.add? shifted digit

def natural? (s : List Char) : Option ℤ := if s = [] then none else s.foldlM push? 0

def counting? : List Char → Option ℤ
  | '+' :: s => natural? s
  | s => natural? s

variable {c : Char} {s : List Char} {n : ℕ}

theorem natural32_fit?_natCast (n : ℕ) :
    natural32.fit? n = if n ≤ MonthDay.partLimit then some (n : ℤ) else none := by
  simp only [Range.fit?, natural32, MonthDay.partLimit]
  exact if_congr (by omega) rfl rfl

theorem push?_of_isDigit (hc : c.isDigit = true) :
    push? n c = natural32.fit? (10 * n + (c.toNat - '0'.toNat) : ℕ) := by
  have hcast : (n : ℤ) * 10 = (n * 10 : ℕ) := by rw [Nat.cast_mul, Nat.cast_ofNat]
  rw [push?, digit?, if_pos hc, Range.mul?, hcast, natural32_fit?_natCast]
  by_cases hfit : n * 10 ≤ MonthDay.partLimit
  · rw [if_pos hfit, Option.bind_eq_bind, Option.bind_some, Option.bind_some, Range.add?,
      ← Nat.cast_add, Nat.mul_comm]
  · have hlarge : ¬ 10 * n + (c.toNat - '0'.toNat) ≤ MonthDay.partLimit := by omega
    rw [if_neg hfit, natural32_fit?_natCast, if_neg hlarge]
    rfl

theorem push?_of_not_isDigit (hc : c.isDigit = false) (n : ℤ) : push? n c = none := by
  rw [push?, digit?, hc]
  cases natural32.mul? n 10 <;> rfl

/-- The sum that is kept along the digits is the number of the digits so far, and once it does not
fit, the whole number does not fit either. -/
theorem foldlM_push?_of_isDigit (hs : ∀ c ∈ s, c.isDigit = true) (hn : n ≤ MonthDay.partLimit) :
    s.foldlM push? (n : ℤ) = natural32.fit? (Nat.ofDigitChars 10 s n) := by
  induction s generalizing n with
  | nil =>
      rw [Nat.ofDigitChars_nil, natural32_fit?_natCast, if_pos hn]
      rfl
  | cons c s ih =>
      rw [List.forall_mem_cons] at hs
      rw [List.foldlM_cons, push?_of_isDigit hs.1, Nat.ofDigitChars_cons, natural32_fit?_natCast]
      by_cases hfit : 10 * n + (c.toNat - '0'.toNat) ≤ MonthDay.partLimit
      · rw [if_pos hfit]
        exact ih hs.2 hfit
      · have hrest := Text.le_ofDigitChars s (10 * n + (c.toNat - '0'.toNat))
        rw [if_neg hfit, natural32_fit?_natCast, if_neg (by omega)]
        rfl

theorem foldlM_push?_of_not_isDigit (hs : ∃ c ∈ s, c.isDigit = false) (n : ℤ) :
    s.foldlM push? n = none := by
  induction s generalizing n with
  | nil => simp at hs
  | cons c s ih =>
      rw [List.foldlM_cons]
      cases hc : c.isDigit with
      | false =>
          rw [push?_of_not_isDigit hc]
          rfl
      | true =>
          have hrest : ∃ d ∈ s, d.isDigit = false := by simpa [hc] using hs
          cases push? n c with
          | none => rfl
          | some k => exact ih hrest k

theorem natural?_eq (s : List Char) :
    natural? s = (Text.natural? s).bind fun n => natural32.fit? n := by
  rw [natural?, Text.natural?]
  by_cases hnil : s = []
  · rw [if_pos hnil, if_neg (by simp [hnil])]
    rfl
  · by_cases hdigits : s.all Char.isDigit = true
    · rw [if_neg hnil, if_pos ⟨hnil, hdigits⟩, Option.bind_some]
      exact foldlM_push?_of_isDigit (List.all_eq_true.1 hdigits) (Nat.zero_le _)
    · have hother : ∃ c ∈ s, c.isDigit = false := by simpa using hdigits
      rw [if_neg hnil, if_neg (by simp [hdigits]), foldlM_push?_of_not_isDigit hother]
      rfl

theorem counting?_eq (s : List Char) :
    counting? s = (Text.counting? s).bind fun n => natural32.fit? n := by
  unfold counting?
  split
  · rw [Text.counting?]
    exact natural?_eq _
  · rename_i hplus
    rw [Text.counting?.eq_2 _ hplus]
    exact natural?_eq _

end Numbers

section Reading

def part? (s : List Char) : Option ℕ := (counting? (Text.trim s)).map Int.toNat

/-- The month of a number that a byte can hold. -/
def monthOfNumber? (n : ℕ) : Option Month := do
  let byte ← natural8.fit? n
  Month.ofNumber? byte.toNat

def ofNumbers (m j : ℕ) : Except Error MonthDay :=
  match monthOfNumber? m with
  | none => .error (.noSuchMonth m)
  | some month => MonthDay.ofMonth month j

def readMonthDay (text : String) : Except Error MonthDay :=
  match text.toList.splitOn '-' with
  | [left, right] =>
    match part? left, part? right with
    | none, _ => .error (.unreadableMonth text)
    | some _, none => .error (.unreadableDay text)
    | some m, some j =>
      if m < 1 ∨ 12 < m then .error (.noSuchMonth m)
      else if j < 1 ∨ 31 < j then .error (.noSuchDay j)
      else ofNumbers m j
  | _ => .error (.notMonthDay text)

variable {s left right : List Char}

theorem part?_eq (s : List Char) : part? s = MonthDay.part? s := by
  rw [part?, MonthDay.part?, counting?_eq]
  cases Text.counting? (Text.trim s) with
  | none => rfl
  | some n =>
      rw [Option.bind_some, natural32_fit?_natCast]
      by_cases hn : n ≤ MonthDay.partLimit
      · rw [if_pos hn, Option.filter_some_pos (by simpa using hn)]
        rfl
      · rw [if_neg hn, Option.filter_some_neg (by simpa using hn)]
        rfl

theorem monthOfNumber?_eq (n : ℕ) : monthOfNumber? n = Month.ofNumber? n := by
  by_cases hn : n ≤ 255
  · have hfit : natural8.fit? n = some (n : ℤ) :=
      Range.fit?_of_mem (by simp only [natural8]; omega) (by simp only [natural8]; omega)
    rw [monthOfNumber?, hfit, Option.bind_eq_bind, Option.bind_some, Int.toNat_natCast]
  · have hfit : natural8.fit? n = none := by
      rw [Range.fit?, if_neg (by simp only [natural8]; omega)]
    rw [monthOfNumber?, hfit, Month.ofNumber?_eq_none_iff.2 (by omega)]
    rfl

theorem ofNumbers_eq (m j : ℕ) : ofNumbers m j = MonthDay.ofNumbers m j := by
  rw [ofNumbers, MonthDay.ofNumbers, monthOfNumber?_eq, Month.ofNumber]
  cases Month.ofNumber? m <;> rfl

/-- A check of a number in front of the same check changes nothing. -/
theorem checked_ofNumbers (m j : ℕ) :
    (if m < 1 ∨ 12 < m then .error (.noSuchMonth m)
      else if j < 1 ∨ 31 < j then .error (.noSuchDay j)
      else ofNumbers m j) = MonthDay.ofNumbers m j := by
  split_ifs with hm hj
  · exact (MonthDay.ofNumbers_of_judged (.noMonth hm)).symm
  · exact (MonthDay.ofNumbers_of_judged (.noDay (by omega) hj)).symm
  · exact ofNumbers_eq m j

theorem length_splitOn (s : List Char) (a : Char) : (s.splitOn a).length = s.count a + 1 := by
  induction s with
  | nil => rfl
  | cons c s ih =>
      rw [List.splitOn_cons_eq_if_modifyHead, List.count_cons]
      split_ifs
      · rw [List.length_cons, ih]
      · rw [List.length_modifyHead, ih, Nat.add_zero]

theorem splitOn_of_sides? (h : MonthDay.sides? s = some (left, right)) :
    s.splitOn '-' = [left, right] := by
  obtain ⟨rfl, hleft, hright⟩ := MonthDay.sides?_eq_some_iff.1 h
  rw [List.splitOn_append_cons_self_of_not_mem hleft, List.splitOn_eq_singleton hright]

theorem splitOn_ne_pair (h : MonthDay.sides? s = none) (left right : List Char) :
    s.splitOn '-' ≠ [left, right] := by
  intro hpair
  have hlength := length_splitOn s '-'
  rw [hpair, List.length_cons, List.length_singleton] at hlength
  exact MonthDay.sides?_eq_none_iff.1 h (by omega)

theorem readMonthDay_eq (text : String) : readMonthDay text = MonthDay.read text := by
  rw [MonthDay.read]
  cases hsides : MonthDay.sides? text.toList with
  | none =>
      unfold readMonthDay
      split
      · rename_i left right hpair
        exact absurd hpair (splitOn_ne_pair hsides left right)
      · rfl
  | some sides =>
      obtain ⟨left, right⟩ := sides
      rw [readMonthDay, splitOn_of_sides? hsides]
      dsimp only
      rw [part?_eq, part?_eq]
      cases MonthDay.part? left with
      | none => rfl
      | some m =>
          cases MonthDay.part? right with
          | none => rfl
          | some j => exact checked_ofNumbers m j

end Reading

end Machine

namespace MonthDay

/-- A text is judged by its shape, then by its left part, by its right part and by the two numbers
in them, each text in exactly one way. Its numbers alone decide what is made of them, and summing
them up digit by digit or checking them twice makes no difference. -/
theorem read_by_shape_and_numbers (text : String) :
    (∀ r, read text = r ↔ Outcome text r) ∧
      ((∃ e, read text = .error e ∧ e.kind = .format) ↔ ¬ ∃ m j, Writes text m j) ∧
      (∀ m j, Writes text m j → read text = ofNumbers m j ∧
        ∀ m' j', Writes text m' j' → m = m' ∧ j = j') ∧
      (∀ m j r, ofNumbers m j = r ↔ Judged m j r) ∧
      (∀ m j, (∃ d, ofNumbers m j = .ok d) ↔
        ∃ month : Month, month.number = m ∧ 1 ≤ j ∧ j ≤ month.length true) ∧
      Machine.readMonthDay text = read text ∧
      (∀ m j, Machine.ofNumbers m j = ofNumbers m j) ∧
      ∀ m j, 255 < m → Machine.ofNumbers m j = .error (.noSuchMonth m) := by
  refine ⟨fun r => read_eq_iff_outcome, format_error_iff,
    fun m j h => ⟨read_of_writes h, fun m' j' => h.unique⟩,
    fun m j r => ofNumbers_eq_iff, fun m j => exists_ofNumbers_eq_ok_iff,
    Machine.readMonthDay_eq text, Machine.ofNumbers_eq, fun m j hm => ?_⟩
  rw [Machine.ofNumbers_eq]
  exact ofNumbers_of_judged (.noMonth (Or.inr (by omega)))

/-- The text ` +09-0000031` has the numbers of a day that September lacks, and a month number whose
last byte is that of September is still refused. -/
theorem read_by_shape_and_numbers_september :
    read " +09-0000031" = .error (.dayNotInMonth 31 .september) ∧
      Machine.ofNumbers (256 + 9) 11 = .error (.noSuchMonth 265) := by
  have hmonth : IsPart [' ', '+', '0', '9'] 9 := part?_eq_some_iff.1 (by decide)
  have hday : IsPart ['0', '0', '0', '0', '0', '3', '1'] 31 := part?_eq_some_iff.1 (by decide)
  have hwrites : Writes " +09-0000031" 9 31 := ⟨_, _, by decide, hmonth, hday⟩
  obtain ⟨-, -, hread, hnumbers, -, -, -, hlarge⟩ := read_by_shape_and_numbers " +09-0000031"
  have hjudged : Judged 9 31 (.error (.dayNotInMonth 31 .september)) :=
    .lacking rfl (by decide) (by decide)
  exact ⟨(hread 9 31 hwrites).1.trans ((hnumbers 9 31 _).2 hjudged), hlarge 265 11 (by decide)⟩

end MonthDay

end Recurrence
