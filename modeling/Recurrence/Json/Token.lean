import Recurrence.Json.Literal
import Recurrence.Json.Numeral

/-!
# Tokens of JSON

A text is cut into punctuation, names, numerals and string literals. Space, tab, line feed and
carriage return between tokens are passed over, and any other character that begins no token makes
the text unreadable. Each token takes at least one character of the text.
-/

namespace Recurrence

inductive Token
  | openArray | closeArray | openObject | closeObject | comma | colon
  | null
  | bool (value : Bool)
  | number (n : Numeral)
  | text (value : Option String)
  deriving DecidableEq

namespace Token

def isSpace (c : Char) : Bool := c == ' ' || c == '\t' || c == '\n' || c == '\r'

/-- The token at the front of a text and what follows it. -/
def read? : List Char → Option (Token × List Char)
  | '[' :: s => some (openArray, s)
  | ']' :: s => some (closeArray, s)
  | '{' :: s => some (openObject, s)
  | '}' :: s => some (closeObject, s)
  | ',' :: s => some (comma, s)
  | ':' :: s => some (colon, s)
  | 'n' :: 'u' :: 'l' :: 'l' :: s => some (null, s)
  | 't' :: 'r' :: 'u' :: 'e' :: s => some (bool true, s)
  | 'f' :: 'a' :: 'l' :: 's' :: 'e' :: s => some (bool false, s)
  | '"' :: s => (Literal.read? s).map fun p => (text p.1, p.2)
  | s => (Numeral.read? s).map fun p => (number p.1, p.2)

theorem length_lt_of_read? {s rest : List Char} {t : Token} (h : read? s = some (t, rest)) :
    rest.length < s.length := by
  unfold read? at h
  split at h
  case h_10 =>
    simp only [Option.map_eq_some_iff] at h
    obtain ⟨⟨t', rest'⟩, hd, h⟩ := h
    cases h
    have hlt := Literal.length_lt_of_read? hd
    simp only [List.length_cons]
    omega
  case h_11 =>
    simp only [Option.map_eq_some_iff] at h
    obtain ⟨⟨n, rest'⟩, hd, h⟩ := h
    cases h
    exact Numeral.length_lt_of_read? hd
  all_goals
    cases h
    simp only [List.length_cons]
    omega

/-- All tokens of a text. -/
def scan? (s : List Char) : Option (List Token) :=
  match s with
  | [] => some []
  | c :: r =>
    if isSpace c then scan? r
    else
      match _h : read? (c :: r) with
      | none => none
      | some (t, rest) => (scan? rest).map (t :: ·)
termination_by s.length
decreasing_by
  · simp
  · exact length_lt_of_read? (by assumption)

end Token

end Recurrence
