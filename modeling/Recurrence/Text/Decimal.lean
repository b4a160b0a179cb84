/-!
# Numbers in decimal digits

`natural` and `signed` write a number without leading zeros, and `padded` fills up with zeros to a
least width. `natural?` reads one or more ASCII digits, and `counting?` also allows one plus sign
in front of them. Reading what `natural` writes gives the number back.
-/

namespace Recurrence.Text

def natural (n : Nat) : String := String.ofList (Nat.toDigits 10 n)

def signed : Int → String
  | .ofNat n => natural n
  | .negSucc n => "-" ++ natural (n + 1)

def padded (width n : Nat) : String :=
  String.ofList (List.replicate (width - (Nat.toDigits 10 n).length) '0' ++ Nat.toDigits 10 n)

def natural? (s : List Char) : Option Nat :=
  if s ≠ [] ∧ s.all Char.isDigit then some (Nat.ofDigitChars 10 s 0) else none

def counting? : List Char → Option Nat
  | '+' :: s => natural? s
  | s => natural? s

theorem natural?_natural (n : Nat) : natural? (natural n).toList = some n := by
  have h : (Nat.toDigits 10 n).all Char.isDigit = true :=
    List.all_eq_true.2 fun c hc => Nat.isDigit_of_mem_toDigits (by omega) (by omega) hc
  simp [natural?, natural, h, Nat.ofDigitChars_ten_toDigits]

end Recurrence.Text
