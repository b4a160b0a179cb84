import Recurrence.Proofs.Json.Integers
import Recurrence.Proofs.Json.Literals
import Recurrence.Proofs.Json.Tokens

/-!
# Chunks of a text

A reader of tokens takes a chunk from the front of a text, and takes the same chunk with anything
else behind it. Only behind a numeral the text must not go on with more of a numeral. So a token has
chunks of its own: the texts that are read as this token to their ends.
-/

namespace Recurrence

/-- What is read stands in front, and it is read in the same way before any rest that satisfies
`p`. -/
def Local {α : Type} (p : List Char → Prop) (read? : List Char → Option (α × List Char)) : Prop :=
  ∀ ⦃s a rest⦄, read? s = some (a, rest) →
    ∃ l, s = l ++ rest ∧ ∀ rest', p rest' → read? (l ++ rest') = some (a, rest')

theorem Local.map {α β : Type} {p : List Char → Prop} {read? : List Char → Option (α × List Char)}
    (h : Local p read?) (f : α → β) : Local p fun s => (read? s).map fun q => (f q.1, q.2) := by
  intro s b rest hs
  obtain ⟨⟨a, rest₁⟩, ha, hab⟩ := Option.map_eq_some_iff.1 hs
  cases hab
  obtain ⟨l, rfl, hl⟩ := h ha
  refine ⟨l, rfl, fun rest' hrest' => ?_⟩
  dsimp only
  rw [hl rest' hrest', Option.map_some]

namespace Literal

theorem mem_escapes_of_escaped? {e c : Char} (h : escaped? e = some c) : (e, c) ∈ escapes := by
  unfold escaped? at h
  split at h <;> cases h <;> decide

theorem local_pieces? : Local (fun _ => True) pieces? := by
  intro s ps rest h
  fun_induction pieces? s generalizing ps with
  | case1 => simp at h
  | case2 s =>
      cases h
      exact ⟨['"'], rfl, fun rest' _ => by rw [List.singleton_append, pieces?]⟩
  | case3 a b c d s ih =>
      simp only [Option.bind_eq_bind, Option.bind_eq_some_iff, Option.pure_def] at h
      obtain ⟨unit, hunit, ⟨ps', rest₁⟩, hs, h⟩ := h
      cases h
      obtain ⟨l, rfl, hl⟩ := ih hs
      refine ⟨'\\' :: 'u' :: a :: b :: c :: d :: l, rfl, fun rest' _ => ?_⟩
      simp only [List.cons_append, pieces?, hunit, hl rest' trivial, Option.bind_eq_bind,
        Option.bind_some, Option.pure_def]
  | case4 e s _ ih =>
      simp only [Option.bind_eq_bind, Option.bind_eq_some_iff, Option.pure_def] at h
      obtain ⟨c, hc, ⟨ps', rest₁⟩, hs, h⟩ := h
      cases h
      obtain ⟨l, rfl, hl⟩ := ih hs
      refine ⟨'\\' :: e :: l, rfl, fun rest' _ => ?_⟩
      rw [List.cons_append, List.cons_append, pieces?_escape (mem_escapes_of_escaped? hc),
        hl rest' trivial, Option.map_some]
  | case5 => simp at h
  | case6 c s hquote _ _ hc ih =>
      simp only [Option.bind_eq_bind, Option.bind_eq_some_iff, Option.pure_def] at h
      obtain ⟨⟨ps', rest₁⟩, hs, h⟩ := h
      cases h
      obtain ⟨l, rfl, hl⟩ := ih hs
      rw [not_or, Char.not_lt] at hc
      refine ⟨c :: l, rfl, fun rest' _ => ?_⟩
      rw [List.cons_append, pieces?_plain hc.2 hquote hc.1, hl rest' trivial, Option.map_some]

theorem local_read? : Local (fun _ => True) read? :=
  local_pieces?.map fun ps => (join? ps).map String.ofList

end Literal

namespace Numeral

open Text (Parted IsDigits parted_cons)

variable {s ds rest : List Char}

theorem isDigits_of_digits? (h : digits? s = some (ds, rest)) : IsDigits ds ∧ s = ds ++ rest := by
  unfold digits? at h
  split at h
  · cases h
  · rename_i hne
    cases h
    refine ⟨⟨by simpa using hne, fun c hc => ?_⟩, (List.takeWhile_append_dropWhile).symm⟩
    exact List.mem_takeWhile_imp hc

theorem local_digits? : Local Parted digits? := by
  intro s ds rest h
  obtain ⟨hds, rfl⟩ := isDigits_of_digits? h
  exact ⟨ds, rfl, fun rest' => digits?_append hds⟩

theorem local_whole? : Local Parted whole? := by
  intro s ds rest h
  unfold whole? at h
  split at h
  · cases h
    exact ⟨['0'], rfl, fun rest' _ => rfl⟩
  · rename_i hzero
    obtain ⟨hds, rfl⟩ := isDigits_of_digits? h
    obtain ⟨c, t, rfl, -⟩ := hds.exists_cons
    refine ⟨c :: t, rfl, fun rest' hrest' => ?_⟩
    rw [List.cons_append, whole?]
    · exact digits?_append hds hrest'
    · rintro r ⟨⟩
      exact hzero _ rfl

/-- The digits behind a point, and nothing where there is no fraction. -/
def fractionText : Option (List Char) → List Char
  | none => []
  | some ds => '.' :: ds

theorem fraction?_eq_some {fs : Option (List Char)} (h : fraction? s = some (fs, rest)) :
    s = fractionText fs ++ rest ∧ ∀ rest', Parted rest' → rest'.head? ≠ some '.' →
      fraction? (fractionText fs ++ rest') = some (fs, rest') := by
  unfold fraction? at h
  split at h
  · simp only [Option.map_eq_some_iff] at h
    obtain ⟨⟨ds, rest₁⟩, hds, h⟩ := h
    cases h
    obtain ⟨hdigits, rfl⟩ := isDigits_of_digits? hds
    refine ⟨rfl, fun rest' hrest' _ => ?_⟩
    rw [fractionText, List.cons_append, fraction?, digits?_append hdigits hrest', Option.map_some]
  · cases h
    refine ⟨rfl, fun rest' _ hpoint => ?_⟩
    rw [fractionText, List.nil_append]
    unfold fraction?
    split
    · exact absurd rfl hpoint
    · rfl

theorem local_exponentDigits? : Local Parted exponentDigits? := by
  intro s e rest h
  unfold exponentDigits? at h
  split at h
  · obtain ⟨l, rfl, hl⟩ := local_digits?.map (Prod.mk true) h
    exact ⟨'-' :: l, rfl, hl⟩
  · obtain ⟨l, rfl, hl⟩ := local_digits?.map (Prod.mk false) h
    exact ⟨'+' :: l, rfl, hl⟩
  · rename_i hminus hplus
    simp only [Option.map_eq_some_iff] at h
    obtain ⟨⟨ds, rest₁⟩, hds, h⟩ := h
    cases h
    obtain ⟨hdigits, rfl⟩ := isDigits_of_digits? hds
    obtain ⟨c, t, rfl, -⟩ := hdigits.exists_cons
    refine ⟨c :: t, rfl, fun rest' hrest' => ?_⟩
    rw [List.cons_append, exponentDigits?]
    · rw [← List.cons_append, digits?_append hdigits hrest', Option.map_some]
    · rintro r ⟨⟩
      exact hminus _ rfl
    · rintro r ⟨⟩
      exact hplus _ rfl

theorem Ended.head?_ne_point (h : Ended s) : s.head? ≠ some '.' :=
  fun hpoint => (h '.' hpoint).2.1 rfl

/-- Neither an exponent nor the end of a numeral goes on with the digits before it. -/
theorem exponent?_eq_some {es : Option (Bool × List Char)} (h : exponent? s = some (es, rest)) :
    ∃ l, s = l ++ rest ∧ ∀ rest', Ended rest' → Parted (l ++ rest') ∧
      (l ++ rest').head? ≠ some '.' ∧ exponent? (l ++ rest') = some (es, rest') := by
  unfold exponent? at h
  split at h
  · obtain ⟨l, rfl, hl⟩ := local_exponentDigits?.map some h
    exact ⟨'e' :: l, rfl, fun rest' hrest' =>
      ⟨parted_cons (by decide), by simp, hl rest' hrest'.parted⟩⟩
  · obtain ⟨l, rfl, hl⟩ := local_exponentDigits?.map some h
    exact ⟨'E' :: l, rfl, fun rest' hrest' =>
      ⟨parted_cons (by decide), by simp, hl rest' hrest'.parted⟩⟩
  · cases h
    exact ⟨[], rfl, fun rest' hrest' =>
      ⟨hrest'.parted, hrest'.head?_ne_point, exponent?_of_ended hrest'⟩⟩

theorem local_unsigned? (negative : Bool) : Local Ended (unsigned? negative) := by
  intro s n rest h
  simp only [unsigned?, Option.bind_eq_bind, Option.bind_eq_some_iff, Option.pure_def] at h
  obtain ⟨⟨ws, s₁⟩, hw, ⟨fs, s₂⟩, hf, ⟨es, s₃⟩, he, h⟩ := h
  cases h
  obtain ⟨lw, rfl, hlw⟩ := local_whole? hw
  obtain ⟨rfl, hlf⟩ := fraction?_eq_some hf
  obtain ⟨le, rfl, hle⟩ := exponent?_eq_some he
  refine ⟨lw ++ (fractionText fs ++ le), by simp, fun rest' hrest' => ?_⟩
  obtain ⟨hparted, hpoint, hexponent⟩ := hle rest' hrest'
  have hbehind : Parted (fractionText fs ++ (le ++ rest')) := by
    cases fs with
    | none => exact hparted
    | some ds => exact parted_cons (by decide)
  rw [List.append_assoc, List.append_assoc]
  simp only [unsigned?, hlw _ hbehind, hlf _ hparted hpoint, hexponent, Option.bind_eq_bind,
    Option.bind_some, Option.pure_def]

theorem exists_cons_of_read? {n : Numeral} (h : read? s = some (n, rest)) :
    ∃ c r, s = c :: r ∧ (c.isDigit = true ∨ c = '-') := by
  unfold read? at h
  split at h
  · exact ⟨'-', _, rfl, .inr rfl⟩
  · simp only [unsigned?, Option.bind_eq_bind, Option.bind_eq_some_iff] at h
    obtain ⟨⟨ws, s₁⟩, hw, -⟩ := h
    unfold whole? at hw
    split at hw
    · exact ⟨'0', _, rfl, .inl rfl⟩
    · obtain ⟨hdigits, rfl⟩ := isDigits_of_digits? hw
      obtain ⟨c, r, rfl, hc⟩ := hdigits.exists_cons
      exact ⟨c, r ++ s₁, rfl, .inl hc⟩

theorem local_read? : Local Ended read? := by
  intro s n rest h
  unfold read? at h
  split at h
  · obtain ⟨l, rfl, hl⟩ := local_unsigned? true h
    exact ⟨'-' :: l, rfl, fun rest' hrest' => by rw [List.cons_append, read?, hl rest' hrest']⟩
  · rename_i hminus
    have hlength := length_lt_of_unsigned? h
    obtain ⟨l, rfl, hl⟩ := local_unsigned? false h
    refine ⟨l, rfl, fun rest' hrest' => ?_⟩
    cases l with
    | nil => exact absurd hlength (lt_irrefl _)
    | cons c l =>
        rw [List.cons_append, read?]
        · exact hl rest' hrest'
        · rintro r ⟨⟩
          exact hminus _ rfl

end Numeral

namespace Token

def isNumber : Token → Bool
  | number _ => true
  | _ => false

variable {s l rest : List Char} {t : Token}

/-- A token that begins with a digit or a minus sign is a numeral. -/
theorem read?_of_numeral {c : Char} (hc : c.isDigit = true ∨ c = '-') (s : List Char) :
    read? (c :: s) = (Numeral.read? (c :: s)).map fun p => (number p.1, p.2) := by
  unfold read?
  split
  case h_11 => rfl
  all_goals
    rename_i h
    obtain ⟨rfl, -⟩ := List.cons.inj h
    rcases hc with hc | hc <;> cases hc

theorem read?_eq_some (h : read? s = some (t, rest)) :
    ∃ l, s = l ++ rest ∧ ∀ rest', (t.isNumber = true → Numeral.Ended rest') →
      read? (l ++ rest') = some (t, rest') := by
  unfold read? at h
  split at h
  case h_10 r =>
    obtain ⟨l, rfl, hl⟩ := Literal.local_read?.map Token.text h
    exact ⟨'"' :: l, rfl, fun rest' _ => hl rest' trivial⟩
  case h_11 =>
    obtain ⟨⟨n, rest₁⟩, hn, h⟩ := Option.map_eq_some_iff.1 h
    cases h
    obtain ⟨c, r, rfl, hc⟩ := Numeral.exists_cons_of_read? hn
    have hlength := Numeral.length_lt_of_read? hn
    obtain ⟨l, hcr, hl⟩ := Numeral.local_read? hn
    refine ⟨l, hcr, fun rest' hrest' => ?_⟩
    cases l with
    | nil =>
        rw [hcr] at hlength
        exact absurd hlength (lt_irrefl _)
    | cons d l =>
        obtain ⟨rfl, -⟩ := List.cons.inj hcr
        have hread := hl rest' (hrest' rfl)
        rw [List.cons_append] at hread ⊢
        rw [read?_of_numeral hc, hread, Option.map_some]
  all_goals
    cases h
  · exact ⟨['['], rfl, fun _ _ => rfl⟩
  · exact ⟨[']'], rfl, fun _ _ => rfl⟩
  · exact ⟨['\x7b'], rfl, fun _ _ => rfl⟩
  · exact ⟨['\x7d'], rfl, fun _ _ => rfl⟩
  · exact ⟨[','], rfl, fun _ _ => rfl⟩
  · exact ⟨[':'], rfl, fun _ _ => rfl⟩
  · exact ⟨['n', 'u', 'l', 'l'], rfl, fun _ _ => rfl⟩
  · exact ⟨['t', 'r', 'u', 'e'], rfl, fun _ _ => rfl⟩
  · exact ⟨['f', 'a', 'l', 's', 'e'], rfl, fun _ _ => rfl⟩

/-- A text that is read as the token to its end. -/
def Chunk (t : Token) (l : List Char) : Prop := read? l = some (t, [])

instance (t : Token) (l : List Char) : Decidable (Chunk t l) :=
  inferInstanceAs (Decidable (read? l = some (t, [])))

theorem exists_chunk (h : read? s = some (t, rest)) : ∃ l, Chunk t l ∧ s = l ++ rest := by
  obtain ⟨l, rfl, hl⟩ := read?_eq_some h
  have hchunk := hl [] fun _ => Numeral.ended_nil
  rw [List.append_nil] at hchunk
  exact ⟨l, hchunk, rfl⟩

theorem Chunk.read?_append (h : Chunk t l) (hs : t.isNumber = true → Numeral.Ended s) :
    read? (l ++ s) = some (t, s) := by
  obtain ⟨l', hl', hread⟩ := read?_eq_some h
  rw [List.append_nil] at hl'
  rw [hl']
  exact hread s hs

theorem chunk_of_mem_words : ∀ p ∈ words, Chunk p.1 p.2 := by
  simp [words, Chunk, read?]

theorem read?_of_isSpace {c : Char} (hc : isSpace c = true) (s : List Char) :
    read? (c :: s) = none := by
  simp only [isSpace, Bool.or_eq_true, beq_iff_eq] at hc
  obtain ((rfl | rfl) | rfl) | rfl := hc <;> rfl

/-- A chunk begins with a character that is no white space, and with one that no numeral could go on
with, if it is no chunk of a numeral. -/
theorem Chunk.exists_cons (h : Chunk t l) :
    ∃ c r, l = c :: r ∧ isSpace c = false ∧
      (t.isNumber = false → ∀ s, Numeral.Ended (c :: s)) := by
  have hlength := length_lt_of_read? h
  obtain ⟨c, r, rfl⟩ := List.exists_cons_of_ne_nil (List.ne_nil_of_length_pos hlength)
  have hspace : isSpace c = false := by
    by_contra hc
    rw [Chunk, read?_of_isSpace (by simpa using hc)] at h
    cases h
  refine ⟨c, r, rfl, hspace, fun ht s => ?_⟩
  rw [Chunk, read?.eq_def] at h
  split at h
  case h_11 =>
    obtain ⟨⟨n, rest⟩, -, h⟩ := Option.map_eq_some_iff.1 h
    cases h
    cases ht
  all_goals
    rename_i heq
    obtain ⟨rfl, -⟩ := List.cons.inj heq
    rintro d ⟨⟩
    decide

end Token

end Recurrence
