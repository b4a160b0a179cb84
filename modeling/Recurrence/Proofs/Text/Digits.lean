import Mathlib
import Recurrence.Text.Blank
import Recurrence.Text.Decimal

/-!
# Runs of digits

A number is written as a run of digits. Who reads digits from the front of a text gets exactly this
run, where the text does not go on with another digit. A run holds no blanks and no signs, so that
trimming leaves it alone and a reader of signs passes it on.
-/

namespace Recurrence.Text

structure IsDigits (s : List Char) : Prop where
  ne_nil : s ≠ []
  isDigit : ∀ c ∈ s, c.isDigit = true

/-- A text that does not begin with a digit. -/
def Parted (s : List Char) : Prop := ∀ c ∈ s.head?, c.isDigit = false

variable {c : Char} {s rest : List Char} {n width : ℕ}

theorem parted_nil : Parted [] := by
  intro c hc
  cases hc

theorem parted_cons (h : c.isDigit = false) : Parted (c :: s) := by
  intro d hd
  cases hd
  exact h

theorem parted_take (h : Parted s) (n : ℕ) : Parted (s.take n) := by
  intro c hc
  cases n with
  | zero => simp at hc
  | succ n => exact h c (by simpa [List.head?_take] using hc)

/-- No visible character of ASCII is a blank. -/
theorem isBlank_of_visible (h : 33 ≤ c.toNat ∧ c.toNat ≤ 126) : isBlank c = false := by
  simp only [isBlank, blankRanges, List.any_cons, List.any_nil, Bool.or_false, Bool.or_eq_false_iff,
    Bool.and_eq_false_iff, decide_eq_false_iff_not]
  omega

theorem isBlank_of_isDigit (h : c.isDigit = true) : isBlank c = false := by
  have hcode : 48 ≤ c.toNat ∧ c.toNat ≤ 57 := by
    simpa [Char.isDigit, UInt32.le_iff_toNat_le] using h
  exact isBlank_of_visible (by omega)

theorem ne_of_isDigit (h : c.isDigit = true) {sign : Char} (hsign : sign.isDigit = false) :
    c ≠ sign := by
  rintro rfl
  rw [hsign] at h
  cases h

/-- The longest front of characters of one kind is a run of them before any other. -/
theorem takeWhile_append_of_run {p : Char → Bool} (hs : ∀ c ∈ s, p c = true)
    (hrest : ∀ c ∈ rest.head?, p c = false) : (s ++ rest).takeWhile p = s := by
  rw [List.takeWhile_append_of_pos hs]
  cases rest with
  | nil => rw [List.takeWhile_nil, List.append_nil]
  | cons c rest =>
      rw [List.takeWhile_cons_of_neg (by simp [hrest c rfl]), List.append_nil]

namespace IsDigits

theorem exists_cons (h : IsDigits s) : ∃ c t, s = c :: t ∧ c.isDigit = true := by
  obtain ⟨c, t, rfl⟩ := List.exists_cons_of_ne_nil h.ne_nil
  exact ⟨c, t, rfl, h.isDigit c List.mem_cons_self⟩

theorem takeWhile_append (h : IsDigits s) (hrest : Parted rest) :
    (s ++ rest).takeWhile Char.isDigit = s :=
  takeWhile_append_of_run h.isDigit hrest

theorem dropWhile_append (h : IsDigits s) (hrest : Parted rest) :
    (s ++ rest).dropWhile Char.isDigit = rest := by
  rw [List.dropWhile_append_of_pos h.isDigit]
  cases rest with
  | nil => rfl
  | cons c rest => rw [List.dropWhile_cons_of_neg (by simp [hrest c rfl])]

theorem trimLeft_append_self (h : IsDigits s) (rest : List Char) :
    trimLeft (s ++ rest) = s ++ rest := by
  obtain ⟨c, t, rfl, hc⟩ := h.exists_cons
  apply trimLeft_eq_self
  rintro d ⟨⟩
  exact isBlank_of_isDigit hc

end IsDigits

/-- More digits do not make a number smaller. -/
theorem le_ofDigitChars (s : List Char) (n : ℕ) : n ≤ Nat.ofDigitChars 10 s n := by
  induction s generalizing n with
  | nil => rfl
  | cons c s ih =>
      have hrest := ih (10 * n + (c.toNat - '0'.toNat))
      rw [Nat.ofDigitChars_cons]
      omega

theorem isDigits_toDigits (n : ℕ) : IsDigits (Nat.toDigits 10 n) where
  ne_nil := Nat.toDigits_ne_nil
  isDigit _ hc := Nat.isDigit_of_mem_toDigits (by decide) (by decide) hc

theorem toList_padded (width n : ℕ) : (padded width n).toList =
    List.replicate (width - (Nat.toDigits 10 n).length) '0' ++ Nat.toDigits 10 n := by
  rw [padded, String.toList_ofList]

theorem isDigits_padded (width n : ℕ) : IsDigits (padded width n).toList where
  ne_nil := by
    rw [toList_padded]
    exact List.append_ne_nil_of_right_ne_nil _ (isDigits_toDigits n).ne_nil
  isDigit c hc := by
    rw [toList_padded, List.mem_append] at hc
    rcases hc with hc | hc
    · rw [List.eq_of_mem_replicate hc]
      decide
    · exact (isDigits_toDigits n).isDigit c hc

theorem ofDigitChars_padded (width n : ℕ) :
    Nat.ofDigitChars 10 (padded width n).toList 0 = n := by
  rw [toList_padded, Nat.ofDigitChars_append, Nat.ofDigitChars_replicate_zero, Nat.mul_zero,
    Nat.ofDigitChars_ten_toDigits]

theorem length_padded (hwidth : 0 < width) (h : n < 10 ^ width) :
    (padded width n).toList.length = width := by
  have hlength := (Nat.length_toDigits_le_iff (by decide) hwidth).2 h
  rw [toList_padded, List.length_append, List.length_replicate]
  exact Nat.sub_add_cancel hlength

end Recurrence.Text
