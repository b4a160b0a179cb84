import Recurrence.Proofs.Calendar.Written

/-!
# Where a written part ends

A part written at the front of a longer text is recovered together with what follows it. No name
begins another one of its kind. A number or a date is a run of digits and signs, and it ends where
the text is over, where a bracket closes, or at a space that no digit comes after.
-/

namespace Recurrence

namespace Text

variable {s t u v : List Char}

/-- A text that can stand behind a written part. -/
inductive Closes : List Char → Prop
  | nil : Closes []
  | bracket (s : List Char) : Closes (')' :: s)
  | space {c : Char} (hc : c.isDigit = false) (s : List Char) : Closes (' ' :: c :: s)

/-- The characters of numbers and dates. -/
def isNumeric (c : Char) : Bool := c.isDigit || c == '-' || c == '+'

theorem isNumeric_of_isDigit {c : Char} (h : c.isDigit = true) : isNumeric c = true := by
  simp [isNumeric, h]

theorem Closes.not_isNumeric (h : Closes u) : ∀ c ∈ u.head?, isNumeric c = false := by
  intro c hc
  cases h with
  | nil => cases hc
  | bracket s =>
      cases hc
      decide
  | space hd s =>
      cases hc
      decide

/-- No text of the family begins another one. -/
theorem append_inj_of_isPrefix {α : Type} {f : α → List Char} (hf : ∀ a b, f a <+: f b → a = b)
    {a b : α} (h : f a ++ u = f b ++ v) : a = b ∧ u = v := by
  have hprefix : f a <+: f b ++ v := h ▸ List.prefix_append (f a) u
  have hab : a = b := by
    rcases List.prefix_or_prefix_of_prefix hprefix (List.prefix_append (f b) v) with hle | hle
    · exact hf a b hle
    · exact (hf b a hle).symm
  subst hab
  exact ⟨rfl, List.append_cancel_left h⟩

theorem append_inj_of_isNumeric (hs : ∀ c ∈ s, isNumeric c = true)
    (ht : ∀ c ∈ t, isNumeric c = true) (hu : Closes u) (hv : Closes v) (h : s ++ u = t ++ v) :
    s = t ∧ u = v := by
  have hst : s = t := by
    rw [← takeWhile_append_of_run hs hu.not_isNumeric, h,
      takeWhile_append_of_run ht hv.not_isNumeric]
  subst hst
  exact ⟨rfl, List.append_cancel_left h⟩

theorem toList_natural (n : ℕ) : (natural n).toList = Nat.toDigits 10 n := String.toList_ofList

theorem isNumeric_natural (n : ℕ) : ∀ c ∈ (natural n).toList, isNumeric c = true := by
  intro c hc
  rw [toList_natural] at hc
  exact isNumeric_of_isDigit ((isDigits_toDigits n).isDigit c hc)

theorem natural_injective : Function.Injective natural := by
  intro j k h
  have hread := natural?_natural j
  rw [h, natural?_natural] at hread
  exact (Option.some.inj hread).symm

theorem toList_signed_negSucc (n : ℕ) :
    (signed (.negSucc n)).toList = '-' :: (natural (n + 1)).toList := by
  rw [signed, String.toList_append, Date.toList_minus, List.singleton_append]

theorem isNumeric_signed (k : ℤ) : ∀ c ∈ (signed k).toList, isNumeric c = true := by
  cases k with
  | ofNat n => exact isNumeric_natural n
  | negSucc n =>
      rw [toList_signed_negSucc, List.forall_mem_cons]
      exact ⟨by decide, isNumeric_natural (n + 1)⟩

/-- A number that is not negative has no sign. -/
theorem signed_ofNat_ne_negSucc (j k : ℕ) : signed (.ofNat j) ≠ signed (.negSucc k) := by
  intro h
  have hminus : '-' ∈ (signed (.ofNat j)).toList := by
    rw [h, toList_signed_negSucc]
    exact List.mem_cons_self
  rw [signed, toList_natural] at hminus
  exact absurd ((isDigits_toDigits j).isDigit '-' hminus) (by decide)

theorem signed_injective : Function.Injective signed := by
  intro j k h
  cases j with
  | ofNat j =>
      cases k with
      | ofNat k => rw [natural_injective h]
      | negSucc k => exact absurd h (signed_ofNat_ne_negSucc j k)
  | negSucc j =>
      cases k with
      | ofNat k => exact absurd h.symm (signed_ofNat_ne_negSucc k j)
      | negSucc k =>
          have hlist := congrArg String.toList h
          rw [toList_signed_negSucc, toList_signed_negSucc] at hlist
          have hnatural := natural_injective (String.toList_injective (List.cons.inj hlist).2)
          rw [Nat.succ.inj hnatural]

theorem natural_append_inj {j k : ℕ} (hu : Closes u) (hv : Closes v)
    (h : (natural j).toList ++ u = (natural k).toList ++ v) : j = k ∧ u = v := by
  obtain ⟨hlist, huv⟩ :=
    append_inj_of_isNumeric (isNumeric_natural j) (isNumeric_natural k) hu hv h
  exact ⟨natural_injective (String.toList_injective hlist), huv⟩

theorem signed_append_inj {j k : ℤ} (hu : Closes u) (hv : Closes v)
    (h : (signed j).toList ++ u = (signed k).toList ++ v) : j = k ∧ u = v := by
  obtain ⟨hlist, huv⟩ := append_inj_of_isNumeric (isNumeric_signed j) (isNumeric_signed k) hu hv h
  exact ⟨signed_injective (String.toList_injective hlist), huv⟩

/-- What is left of a list of texts after one of them, with the separators and a last bracket. -/
def restText (sep : List Char) (close : Char) : List String → List Char
  | [] => [close]
  | s :: ss => sep ++ (s.toList ++ restText sep close ss)

theorem toList_intercalate_append (sep s : String) (ss : List String) (close : Char) :
    (sep.intercalate (s :: ss)).toList ++ [close] = s.toList ++ restText sep.toList close ss := by
  rw [String.toList_intercalate]
  induction ss generalizing s with
  | nil => simp [restText, List.intercalate]
  | cons t ss ih =>
      rw [List.map_cons, List.map_cons, List.intercalate_cons_cons, restText, List.append_assoc,
        ← List.map_cons, ih]
      simp

end Text

open Text

variable {u v : List Char}

theorem Month.name_append_inj {m m' : Month} (h : m.name.toList ++ u = m'.name.toList ++ v) :
    m = m' ∧ u = v := by
  have hprefix : ∀ m m' : Month, m.name.toList <+: m'.name.toList → m = m' := by
    intro m m'
    cases m <;> cases m' <;> decide
  exact append_inj_of_isPrefix hprefix h

theorem Weekday.abbreviation_append_inj {w w' : Weekday}
    (h : w.abbreviation.toList ++ u = w'.abbreviation.toList ++ v) : w = w' ∧ u = v := by
  have hprefix : ∀ w w' : Weekday, w.abbreviation.toList <+: w'.abbreviation.toList → w = w' := by
    intro w w'
    cases w <;> cases w' <;> decide
  exact append_inj_of_isPrefix hprefix h

namespace Date

theorem isNumeric_display (d : Date) : ∀ c ∈ d.display.toList, isNumeric c = true := by
  have hpadded : ∀ width n, ∀ c ∈ (padded width n).toList, isNumeric c = true :=
    fun width n c hc => isNumeric_of_isDigit ((isDigits_padded width n).isDigit c hc)
  have hyear : ∀ c ∈ (yearText d.civil.year).toList, isNumeric c = true := by
    unfold yearText
    split_ifs with hneg hlong
    · rw [String.toList_append, toList_minus, List.singleton_append, List.forall_mem_cons]
      exact ⟨by decide, hpadded 4 _⟩
    · rw [String.toList_append, toList_plus, List.singleton_append, List.forall_mem_cons]
      exact ⟨by decide, hpadded 4 _⟩
    · exact hpadded 4 _
  rw [toList_display, civilText]
  simp only [List.forall_mem_append, List.forall_mem_cons]
  exact ⟨hyear, by decide, hpadded 2 _, by decide, hpadded 2 _⟩

theorem display_injective : Function.Injective display := by
  intro d e h
  have hread := read_display d
  rw [h, read_display] at hread
  exact (Except.ok.inj hread).symm

theorem display_append_inj {d e : Date} (hu : Closes u) (hv : Closes v)
    (h : d.display.toList ++ u = e.display.toList ++ v) : d = e ∧ u = v := by
  obtain ⟨hlist, huv⟩ := append_inj_of_isNumeric d.isNumeric_display e.isNumeric_display hu hv h
  exact ⟨display_injective (String.toList_injective hlist), huv⟩

end Date

end Recurrence
