import Recurrence.Proofs.Text.Digits

/-!
# Texts with blanks around them

A text is padded by blanks put in front of it and behind it, and it is bare when it neither begins
nor ends with one. Trimming takes the padding away: what it leaves is the only bare text that the
given one is a padding of.
-/

namespace Recurrence.Text

def IsBlanks (s : List Char) : Prop := ∀ c ∈ s, isBlank c = true

/-- The second text is the first one with blanks in front of it and behind it. -/
def Padded (t s : List Char) : Prop := ∃ u v, IsBlanks u ∧ IsBlanks v ∧ s = u ++ (t ++ v)

/-- No blank stands at either end of the text. -/
structure Bare (t : List Char) : Prop where
  first : ∀ c ∈ t.head?, isBlank c = false
  last : ∀ c ∈ t.getLast?, isBlank c = false

variable {s t : List Char}

theorem isBlanks_nil : IsBlanks [] := nofun

theorem isBlanks_singleton {c : Char} (h : isBlank c = true) : IsBlanks [c] := by
  intro d hd
  rwa [List.mem_singleton.1 hd]

theorem Padded.refl (s : List Char) : Padded s s :=
  ⟨[], [], isBlanks_nil, isBlanks_nil, by simp⟩

theorem Padded.trim_eq (h : Padded t s) : trim s = trim t := by
  obtain ⟨u, v, hu, hv, rfl⟩ := h
  exact trim_append hu hv t

theorem Bare.trim_eq_self (h : Bare t) : trim t = t := by
  rw [trim, trimLeft_eq_self h.first, trimRight_eq_self h.last]

theorem first_trimLeft (s : List Char) : ∀ c ∈ (trimLeft s).head?, isBlank c = false := by
  intro c hc
  have hhead := List.head?_dropWhile_not isBlank s
  rw [trimLeft] at hc
  rwa [hc] at hhead

theorem last_trimRight (s : List Char) : ∀ c ∈ (trimRight s).getLast?, isBlank c = false := by
  intro c hc
  rw [trimRight, List.getLast?_reverse] at hc
  exact first_trimLeft s.reverse c hc

/-- What is left of a text on its right begins as the text does. -/
theorem first_trimRight {c : Char} (hc : c ∈ (trimRight s).head?) : c ∈ s.head? := by
  have hprefix : trimRight s <+: s := List.rdropWhile_prefix isBlank s
  obtain ⟨v, hv⟩ := hprefix
  rw [← hv, List.head?_append, hc, Option.some_or]
  rfl

theorem bare_trim (s : List Char) : Bare (trim s) where
  first c hc := first_trimLeft s c (first_trimRight hc)
  last := last_trimRight _

theorem padded_trim (s : List Char) : Padded (trim s) s := by
  refine ⟨s.takeWhile isBlank, (trimLeft s).rtakeWhile isBlank, fun c => List.mem_takeWhile_imp,
    fun c => List.mem_rtakeWhile_imp, ?_⟩
  have hright : trim s ++ (trimLeft s).rtakeWhile isBlank = trimLeft s :=
    List.rdropWhile_append_rtakeWhile
  rw [hright, trimLeft, List.takeWhile_append_dropWhile]

theorem trim_eq_iff : trim s = t ↔ Padded t s ∧ Bare t := by
  constructor
  · rintro rfl
    exact ⟨padded_trim s, bare_trim s⟩
  · rintro ⟨hpadded, hbare⟩
    rw [hpadded.trim_eq, hbare.trim_eq_self]

/-- A text whose characters are no blanks has none at its ends. -/
theorem bare_of_forall (h : ∀ c ∈ t, isBlank c = false) : Bare t where
  first c hc := h c (List.mem_of_mem_head? hc)
  last c hc := h c (List.mem_of_getLast? hc)

end Recurrence.Text
