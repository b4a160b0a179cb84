/-!
# String literals

A string literal is read in two steps. First it is cut into pieces, each a character or a code
unit of a surrogate pair given by an escape; then the pairs are put together. A literal whose
pairs do not match up is well formed, but stands for no text.
-/

namespace Recurrence.Literal

/-- A character of a literal, or one half of a character outside the basic plane. -/
inductive Piece
  | char (c : Char)
  | half (unit : Nat)
  deriving DecidableEq

def hexValue? (c : Char) : Option Nat :=
  if '0' ≤ c ∧ c ≤ '9' then some (c.toNat - '0'.toNat)
  else if 'a' ≤ c ∧ c ≤ 'f' then some (c.toNat - 'a'.toNat + 10)
  else if 'A' ≤ c ∧ c ≤ 'F' then some (c.toNat - 'A'.toNat + 10)
  else none

def unit? (a b c d : Char) : Option Nat := do
  let a ← hexValue? a
  let b ← hexValue? b
  let c ← hexValue? c
  let d ← hexValue? d
  return ((a * 16 + b) * 16 + c) * 16 + d

def Piece.ofUnit (unit : Nat) : Piece :=
  if 0xD800 ≤ unit ∧ unit ≤ 0xDFFF then half unit else char (Char.ofNat unit)

/-- The character that a backslash and a letter stand for. -/
def escaped? : Char → Option Char
  | '"' => some '"'
  | '\\' => some '\\'
  | '/' => some '/'
  | 'b' => some '\x08'
  | 'f' => some '\x0c'
  | 'n' => some '\n'
  | 'r' => some '\r'
  | 't' => some '\t'
  | _ => none

/-- The pieces up to the closing quotation mark, and what follows it. Characters below the space
have to be escaped. -/
def pieces? : List Char → Option (List Piece × List Char)
  | [] => none
  | '"' :: s => some ([], s)
  | '\\' :: 'u' :: a :: b :: c :: d :: s => do
    let unit ← unit? a b c d
    let (ps, rest) ← pieces? s
    return (Piece.ofUnit unit :: ps, rest)
  | '\\' :: c :: s => do
    let c ← escaped? c
    let (ps, rest) ← pieces? s
    return (.char c :: ps, rest)
  | c :: s =>
    if c = '\\' ∨ c < ' ' then none
    else do
      let (ps, rest) ← pieces? s
      return (.char c :: ps, rest)

/-- A leading half joins the trailing half behind it, and a half alone stands for nothing. -/
def join? : List Piece → Option (List Char)
  | [] => some []
  | .char c :: ps => (join? ps).map (c :: ·)
  | .half h :: .half l :: ps =>
    if h ≤ 0xDBFF ∧ 0xDC00 ≤ l then
      (join? ps).map (Char.ofNat (0x10000 + (h - 0xD800) * 0x400 + (l - 0xDC00)) :: ·)
    else none
  | .half _ :: _ => none

/-- The text that a literal stands for, if it stands for one, and what follows the literal. The
opening quotation mark has been read. -/
def read? (s : List Char) : Option (Option String × List Char) :=
  (pieces? s).map fun p => ((join? p.1).map String.ofList, p.2)

theorem length_lt_of_pieces? {s rest : List Char} {ps : List Piece}
    (h : pieces? s = some (ps, rest)) : rest.length < s.length := by
  fun_induction pieces? s generalizing ps with
  | case1 => simp at h
  | case2 s => simp_all
  | case3 a b c d s ih =>
    simp only [Option.bind_eq_bind, Option.bind_eq_some_iff, Option.pure_def] at h
    obtain ⟨_, _, ⟨ps', rest'⟩, hs, h⟩ := h
    cases h
    have hlt : rest'.length < s.length := ih hs
    simp only [List.length_cons]
    omega
  | case4 c s _ ih =>
    simp only [Option.bind_eq_bind, Option.bind_eq_some_iff, Option.pure_def] at h
    obtain ⟨_, _, ⟨ps', rest'⟩, hs, h⟩ := h
    cases h
    have hlt : rest'.length < s.length := ih hs
    simp only [List.length_cons]
    omega
  | case5 => simp at h
  | case6 c s _ _ _ _ ih =>
    simp only [Option.bind_eq_bind, Option.bind_eq_some_iff, Option.pure_def] at h
    obtain ⟨⟨ps', rest'⟩, hs, h⟩ := h
    cases h
    have hlt : rest'.length < s.length := ih hs
    simp only [List.length_cons]
    omega

theorem length_lt_of_read? {s rest : List Char} {t : Option String}
    (h : read? s = some (t, rest)) : rest.length < s.length := by
  simp only [read?, Option.map_eq_some_iff] at h
  obtain ⟨⟨ps, rest'⟩, hs, h⟩ := h
  cases h
  exact length_lt_of_pieces? hs

end Recurrence.Literal
