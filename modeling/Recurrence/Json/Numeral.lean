/-!
# Number literals

A numeral keeps the digits of a JSON number as they are written. `integer?` is its value when it
is written as an integer of 64 bits with a sign; a minus sign in front of zero makes no integer.
`tooLarge` holds when the numeral, held as a significand of 64 bits and a power of ten, rounds
beyond the largest number of the binary format with 53 significant bits.
-/

namespace Recurrence

structure Numeral where
  negative : Bool
  whole : List Char
  fraction : Option (List Char)
  /-- The digits of the exponent, and whether a minus sign stands before them. -/
  exponent : Option (Bool × List Char)
  deriving DecidableEq

namespace Numeral

/-- One digit or more at the front of a text. -/
def digits? (s : List Char) : Option (List Char × List Char) :=
  if (s.takeWhile Char.isDigit).isEmpty then none
  else some (s.takeWhile Char.isDigit, s.dropWhile Char.isDigit)

def whole? : List Char → Option (List Char × List Char)
  | '0' :: s => some (['0'], s)
  | s => digits? s

def fraction? : List Char → Option (Option (List Char) × List Char)
  | '.' :: s => (digits? s).map fun p => (some p.1, p.2)
  | s => some (none, s)

def exponentDigits? : List Char → Option ((Bool × List Char) × List Char)
  | '-' :: s => (digits? s).map fun p => ((true, p.1), p.2)
  | '+' :: s => (digits? s).map fun p => ((false, p.1), p.2)
  | s => (digits? s).map fun p => ((false, p.1), p.2)

def exponent? : List Char → Option (Option (Bool × List Char) × List Char)
  | 'e' :: s | 'E' :: s => (exponentDigits? s).map fun p => (some p.1, p.2)
  | s => some (none, s)

def unsigned? (negative : Bool) (s : List Char) : Option (Numeral × List Char) := do
  let (whole, s) ← whole? s
  let (fraction, s) ← fraction? s
  let (exponent, s) ← exponent? s
  return (⟨negative, whole, fraction, exponent⟩, s)

/-- The numeral at the front of a text and what follows it. -/
def read? : List Char → Option (Numeral × List Char)
  | '-' :: s => unsigned? true s
  | s => unsigned? false s

theorem length_lt_of_digits? {s ds rest : List Char} (h : digits? s = some (ds, rest)) :
    rest.length < s.length := by
  unfold digits? at h
  split at h
  · simp at h
  · rename_i hd
    cases h
    have hs : (s.takeWhile Char.isDigit ++ s.dropWhile Char.isDigit).length = s.length := by
      rw [List.takeWhile_append_dropWhile]
    rw [List.length_append] at hs
    rw [List.isEmpty_iff] at hd
    have hpos := List.length_pos_iff.2 hd
    omega

theorem length_lt_of_whole? {s ds rest : List Char} (h : whole? s = some (ds, rest)) :
    rest.length < s.length := by
  unfold whole? at h
  split at h
  · cases h
    simp
  · exact length_lt_of_digits? h

theorem length_le_of_fraction? {s rest : List Char} {ds : Option (List Char)}
    (h : fraction? s = some (ds, rest)) : rest.length ≤ s.length := by
  unfold fraction? at h
  split at h
  · simp only [Option.map_eq_some_iff] at h
    obtain ⟨⟨ds', rest'⟩, hd, h⟩ := h
    cases h
    have hlt := length_lt_of_digits? hd
    simp only [List.length_cons]
    omega
  · cases h
    exact Nat.le_refl _

theorem length_lt_of_exponentDigits? {s rest : List Char} {e : Bool × List Char}
    (h : exponentDigits? s = some (e, rest)) : rest.length < s.length := by
  unfold exponentDigits? at h
  split at h <;>
  · simp only [Option.map_eq_some_iff] at h
    obtain ⟨⟨ds', rest'⟩, hd, h⟩ := h
    cases h
    have hlt := length_lt_of_digits? hd
    simp only [List.length_cons]
    omega

theorem length_le_of_exponent? {s rest : List Char} {e : Option (Bool × List Char)}
    (h : exponent? s = some (e, rest)) : rest.length ≤ s.length := by
  unfold exponent? at h
  split at h
  · simp only [Option.map_eq_some_iff] at h
    obtain ⟨⟨ds', rest'⟩, hd, h⟩ := h
    cases h
    have hlt := length_lt_of_exponentDigits? hd
    simp only [List.length_cons]
    omega
  · simp only [Option.map_eq_some_iff] at h
    obtain ⟨⟨ds', rest'⟩, hd, h⟩ := h
    cases h
    have hlt := length_lt_of_exponentDigits? hd
    simp only [List.length_cons]
    omega
  · cases h
    exact Nat.le_refl _

theorem length_lt_of_unsigned? {negative : Bool} {s rest : List Char} {n : Numeral}
    (h : unsigned? negative s = some (n, rest)) : rest.length < s.length := by
  simp only [unsigned?, Option.bind_eq_bind, Option.bind_eq_some_iff, Option.pure_def] at h
  obtain ⟨⟨ws, s₁⟩, hw, ⟨fs, s₂⟩, hf, ⟨es, s₃⟩, he, h⟩ := h
  have h₁ : s₁.length < s.length := length_lt_of_whole? hw
  have h₂ : s₂.length ≤ s₁.length := length_le_of_fraction? hf
  have h₃ : s₃.length ≤ s₂.length := length_le_of_exponent? he
  have h₄ : s₃ = rest := congrArg Prod.snd (Option.some.inj h)
  rw [← h₄]
  omega

theorem length_lt_of_read? {s rest : List Char} {n : Numeral} (h : read? s = some (n, rest)) :
    rest.length < s.length := by
  unfold read? at h
  split at h
  · have hlt := length_lt_of_unsigned? h
    simp only [List.length_cons]
    omega
  · exact length_lt_of_unsigned? h

/-- The least number that a signed integer of 64 bits cannot reach. -/
def integerLimit : Nat := 9223372036854775808

/-- The least number that a significand of 64 bits cannot reach. -/
def significandLimit : Nat := 18446744073709551616

def integer? (n : Numeral) : Option Int :=
  match n.fraction, n.exponent with
  | none, none =>
    let value := Nat.ofDigitChars 10 n.whole 0
    if n.negative then
      if 1 ≤ value ∧ value ≤ integerLimit then some (-(value : Int)) else none
    else if value < integerLimit then some (value : Int) else none
  | _, _ => none

/-- Collects digits while the significand fits 64 bits; the rest is left. -/
def gather : Nat → List Char → Nat × List Char
  | value, [] => (value, [])
  | value, c :: s =>
    let next := value * 10 + (c.toNat - '0'.toNat)
    if next < significandLimit then gather next s else (value, c :: s)

/-- The numeral without its sign as a significand of 64 bits and a power of ten. Digits of the
integer part that no longer fit only scale it, and digits of the fraction that no longer fit are
left out. -/
def scaled (n : Numeral) : Nat × Int :=
  let (value, surplus) := gather 0 n.whole
  let fraction := n.fraction.getD []
  let (value, dropped) := gather value fraction
  let written := match n.exponent with
    | some (true, digits) => -(Nat.ofDigitChars 10 digits 0 : Int)
    | some (false, digits) => (Nat.ofDigitChars 10 digits 0 : Int)
    | none => 0
  (value, (surplus.length : Int) - ((fraction.length : Int) - dropped.length) + written)

/-- The nearest number with 53 significant bits, the even one of two that are equally near. -/
def roundTo53 (n : Nat) : Nat :=
  let unit := Nat.pow 2 (n.log2 - 52)
  let quotient := n / unit
  let twice := 2 * (n % unit)
  if twice < unit ∨ (twice = unit ∧ quotient % 2 = 0) then quotient * unit
  else (quotient + 1) * unit

/-- Half way from the largest number below 2 to the power 1024 with 53 significant bits to that
power. From here on a number counts as too large. -/
def overflowBound : Nat := Nat.pow 2 1024 - Nat.pow 2 970

def tooLarge (n : Numeral) : Bool :=
  let (value, power) := n.scaled
  value != 0 && decide (0 ≤ power) &&
    (decide (308 < power) ||
      decide (overflowBound ≤ roundTo53 value * roundTo53 (Nat.pow 10 power.toNat)))

end Numeral

end Recurrence
