import Mathlib
import Recurrence.Json.Numeral
import Recurrence.Proofs.Text.Digits

/-!
# Integers as numerals

An integer is written in decimal digits without leading zeros, with a minus sign where it is
negative, and it is read from the front of a text that does not go on with more of a numeral. An
integer of 64 bits is read back as itself, and its numeral is never too large.
-/

namespace Recurrence.Numeral

open Text (Parted IsDigits)

def ofInt (k : ℤ) : Numeral := ⟨decide (k < 0), Nat.toDigits 10 k.natAbs, none, none⟩

/-- The integers of 64 bits. -/
def Fits (k : ℤ) : Prop := -(integerLimit : ℤ) ≤ k ∧ k < integerLimit

/-- A text that does not begin with a character that a numeral could go on with. -/
def Ended (s : List Char) : Prop :=
  ∀ c ∈ s.head?, c.isDigit = false ∧ c ≠ '.' ∧ c ≠ 'e' ∧ c ≠ 'E'

variable {s : List Char} {n : ℕ} {k : ℤ}

theorem ended_nil : Ended [] := by
  intro c hc
  cases hc

theorem Ended.parted (h : Ended s) : Parted s := fun c hc => (h c hc).1

theorem head?_toDigits_ne_zero (hn : n ≠ 0) : (Nat.toDigits 10 n).head? ≠ some '0' := by
  induction n using Nat.strong_induction_on with
  | _ n ih =>
      by_cases hlt : n < 10
      · have hdigit : ∀ i < 10, i ≠ 0 → Nat.digitChar i ≠ '0' := by decide
        rw [Nat.toDigits_of_lt_base hlt, List.head?_cons, ne_eq, Option.some.injEq]
        exact hdigit n hlt hn
      · rw [Nat.toDigits_of_base_le (by decide) (not_lt.1 hlt),
          List.head?_append_of_ne_nil _ Nat.toDigits_ne_nil]
        exact ih (n / 10) (by omega) (by omega)

theorem digits?_append {ds : List Char} (hds : IsDigits ds) (hs : Parted s) :
    digits? (ds ++ s) = some (ds, s) := by
  rw [digits?, hds.takeWhile_append hs, hds.dropWhile_append hs, if_neg (by simp [hds.ne_nil])]

theorem whole?_toDigits (n : ℕ) (hs : Parted s) :
    whole? (Nat.toDigits 10 n ++ s) = some (Nat.toDigits 10 n, s) := by
  by_cases hn : n = 0
  · subst hn
    rfl
  · unfold whole?
    split
    · rename_i h
      have hhead := congrArg List.head? h
      rw [List.head?_append_of_ne_nil _ Nat.toDigits_ne_nil] at hhead
      exact absurd hhead (head?_toDigits_ne_zero hn)
    · exact digits?_append (Text.isDigits_toDigits n) hs

theorem fraction?_of_ended (hs : Ended s) : fraction? s = some (none, s) := by
  unfold fraction?
  split
  · exact absurd rfl (hs '.' rfl).2.1
  · rfl

theorem exponent?_of_ended (hs : Ended s) : exponent? s = some (none, s) := by
  unfold exponent?
  split
  · exact absurd rfl (hs 'e' rfl).2.2.1
  · exact absurd rfl (hs 'E' rfl).2.2.2
  · rfl

theorem unsigned?_toDigits (negative : Bool) (n : ℕ) (hs : Ended s) :
    unsigned? negative (Nat.toDigits 10 n ++ s) =
      some (⟨negative, Nat.toDigits 10 n, none, none⟩, s) := by
  rw [unsigned?, whole?_toDigits n hs.parted]
  simp [fraction?_of_ended hs, exponent?_of_ended hs]

/-- An integer is written with a digit or a minus sign in front. -/
theorem exists_signed_eq_cons (k : ℤ) :
    ∃ c t, (Text.signed k).toList = c :: t ∧ (c.isDigit = true ∨ c = '-') := by
  cases k with
  | ofNat n =>
      obtain ⟨c, t, ht, hc⟩ := (Text.isDigits_toDigits n).exists_cons
      exact ⟨c, t, by rw [Text.signed, Text.natural, String.toList_ofList, ht], Or.inl hc⟩
  | negSucc n =>
      exact ⟨'-', Nat.toDigits 10 (n + 1), by simp [Text.signed, Text.natural], Or.inr rfl⟩

theorem read?_signed (k : ℤ) (hs : Ended s) :
    read? ((Text.signed k).toList ++ s) = some (ofInt k, s) := by
  cases k with
  | ofNat n =>
      have htext : (Text.signed (Int.ofNat n)).toList = Nat.toDigits 10 n := by
        rw [Text.signed, Text.natural, String.toList_ofList]
      have hread := unsigned?_toDigits false n hs
      obtain ⟨c, t, ht, hc⟩ := (Text.isDigits_toDigits n).exists_cons
      rw [htext, read?.eq_def]
      split
      · rename_i h
        rw [ht] at h
        cases h
        cases hc
      · rw [hread]
        simp [ofInt]
  | negSucc n =>
      have htext : (Text.signed (Int.negSucc n)).toList = '-' :: Nat.toDigits 10 (n + 1) := by
        simp [Text.signed, Text.natural]
      rw [htext, List.cons_append, read?, unsigned?_toDigits true (n + 1) hs]
      simp [ofInt, Int.negSucc_lt_zero]

theorem integer?_ofInt (hk : Fits k) : (ofInt k).integer? = some k := by
  obtain ⟨hlow, hhigh⟩ := hk
  simp only [integer?, ofInt, Nat.ofDigitChars_ten_toDigits, decide_eq_true_eq]
  split_ifs with hneg hbounds hbound
  · exact congrArg some (by omega)
  · omega
  · exact congrArg some (by omega)
  · omega

theorem gather_eq (ds : List Char) (v : ℕ) (h : Nat.ofDigitChars 10 ds v < significandLimit) :
    gather v ds = (Nat.ofDigitChars 10 ds v, []) := by
  induction ds generalizing v with
  | nil => rfl
  | cons c ds ih =>
      have hle := Text.le_ofDigitChars ds (v * 10 + (c.toNat - '0'.toNat))
      rw [Nat.ofDigitChars_cons, Nat.mul_comm] at h
      rw [gather, if_pos (hle.trans_lt h), ih _ h, Nat.ofDigitChars_cons, Nat.mul_comm]

theorem roundTo53_le (hn : n ≠ 0) : roundTo53 n ≤ 2 * n := by
  have hunit : Nat.pow 2 (n.log2 - 52) ≤ n :=
    (Nat.pow_le_pow_right (by decide) (Nat.sub_le _ _)).trans (Nat.log2_self_le hn)
  have hquotient := Nat.div_mul_le_self n (Nat.pow 2 (n.log2 - 52))
  rw [roundTo53]
  split_ifs
  · omega
  · rw [Nat.add_mul]
    omega

/-- Only digits are read as an integer, and only so many that they fit. -/
theorem of_integer?_eq_some {m : Numeral} (h : m.integer? = some k) :
    m.fraction = none ∧ m.exponent = none ∧ Nat.ofDigitChars 10 m.whole 0 = k.natAbs ∧
      k.natAbs ≤ integerLimit := by
  obtain ⟨negative, whole, fraction, exponent⟩ := m
  cases fraction with
  | some ds => cases h
  | none =>
      cases exponent with
      | some e => cases h
      | none =>
          simp only [integer?] at h
          refine ⟨rfl, rfl, ?_⟩
          dsimp only
          split_ifs at h <;> cases h <;> omega

theorem tooLarge_of_integer? {m : Numeral} (h : m.integer? = some k) : m.tooLarge = false := by
  obtain ⟨hfraction, hexponent, hvalue, hsize⟩ := of_integer?_eq_some h
  have hgather : gather 0 m.whole = (k.natAbs, []) := by
    have hlt := gather_eq m.whole 0
    rw [hvalue] at hlt
    exact hlt (hsize.trans_lt (by decide))
  have hscaled : m.scaled = (k.natAbs, 0) := by
    simp [scaled, hfraction, hexponent, hgather, gather]
  rw [tooLarge, hscaled]
  by_cases hzero : k = 0
  · simp [hzero]
  · have hle := roundTo53_le (Int.natAbs_ne_zero.2 hzero)
    have hbound : 2 * integerLimit < overflowBound := by decide +kernel
    have hone : roundTo53 1 = 1 := by decide
    have hround : roundTo53 k.natAbs * roundTo53 1 < overflowBound := by
      rw [hone]
      omega
    simp [hround]

theorem tooLarge_ofInt (hk : Fits k) : (ofInt k).tooLarge = false :=
  tooLarge_of_integer? (integer?_ofInt hk)

end Recurrence.Numeral
