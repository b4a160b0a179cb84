/-!
# White space around a text

`isBlank` is the Unicode property White_Space, written as its ten ranges of code points, and
`trim` drops the blanks at both ends of a text. Blanks put in front of a text or
behind it do not change what `trim` leaves, and what begins or ends with no blank stays as it is
at that end.
-/

namespace Recurrence.Text

def blankRanges : List (Nat × Nat) :=
  [(0x0009, 0x000D), (0x0020, 0x0020), (0x0085, 0x0085), (0x00A0, 0x00A0), (0x1680, 0x1680),
    (0x2000, 0x200A), (0x2028, 0x2029), (0x202F, 0x202F), (0x205F, 0x205F), (0x3000, 0x3000)]

def isBlank (c : Char) : Bool :=
  blankRanges.any fun r => r.1 ≤ c.toNat && c.toNat ≤ r.2

def trimLeft (s : List Char) : List Char := s.dropWhile isBlank

def trimRight (s : List Char) : List Char := (s.reverse.dropWhile isBlank).reverse

def trim (s : List Char) : List Char := trimRight (trimLeft s)

theorem trimLeft_append {u : List Char} (hu : ∀ c ∈ u, isBlank c = true) (s : List Char) :
    trimLeft (u ++ s) = trimLeft s := by
  induction u with
  | nil => rfl
  | cons c u ih =>
    simp only [trimLeft, List.cons_append, List.dropWhile_cons, hu c (by simp), if_true]
    exact ih fun d hd => hu d (by simp [hd])

theorem trimRight_append {v : List Char} (hv : ∀ c ∈ v, isBlank c = true) (s : List Char) :
    trimRight (s ++ v) = trimRight s := by
  have h := trimLeft_append (u := v.reverse) (by simpa using hv) s.reverse
  simpa [trimRight, trimLeft] using h

theorem trim_append {u v : List Char} (hu : ∀ c ∈ u, isBlank c = true)
    (hv : ∀ c ∈ v, isBlank c = true) (s : List Char) : trim (u ++ (s ++ v)) = trim s := by
  rw [trim, trimLeft_append hu, trimLeft, List.dropWhile_append]
  split
  · rename_i hs
    have hv' : v.dropWhile isBlank = [] := by
      simpa [trimLeft] using trimLeft_append hv []
    rw [hv', trim, trimLeft, List.isEmpty_iff.1 hs]
  · rw [trimRight_append hv, trim, trimLeft]

theorem trimLeft_eq_self {s : List Char} (h : ∀ c ∈ s.head?, isBlank c = false) :
    trimLeft s = s := by
  cases s with
  | nil => rfl
  | cons c s => simp [trimLeft, h c rfl]

theorem trimRight_eq_self {s : List Char} (h : ∀ c ∈ s.getLast?, isBlank c = false) :
    trimRight s = s := by
  have h' := trimLeft_eq_self (s := s.reverse) (by simpa using h)
  simpa [trimRight, trimLeft] using congrArg List.reverse h'

end Recurrence.Text
