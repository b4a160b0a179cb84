import Recurrence.Text.Blank

/-!
# Names in any letter case

A name is spelled by its full form or by its first three letters, with ASCII letters in either
case and blanks around it. Letters outside ASCII stand only for themselves.
-/

namespace Recurrence.Text

def upper (s : List Char) : List Char := s.map Char.toUpper

def spells (text name : String) : Bool :=
  let t := upper (trim text.toList)
  t == upper name.toList || t == upper (name.toList.take 3)

theorem spells_iff {text name : String} :
    spells text name = true ↔ upper (trim text.toList) = upper name.toList ∨
      upper (trim text.toList) = upper (name.toList.take 3) := by
  simp [spells]

end Recurrence.Text
