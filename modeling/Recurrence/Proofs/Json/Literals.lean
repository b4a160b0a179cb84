import Mathlib
import Recurrence.Json.Literal

/-!
# The spellings of a text

In a string literal a character stands for itself, or it is escaped by a letter, by its code unit
in four hexadecimal digits of either case, or by two such units where it lies outside the basic
plane. Only quotation marks, backslashes and characters below the space have to be escaped. Every
spelling of a text is read as this text, and every text can be spelled.
-/

namespace Recurrence.Literal

/-- The letters that escape a character, and the characters that they stand for. -/
def escapes : List (Char × Char) :=
  [('"', '"'), ('\\', '\\'), ('/', '/'), ('b', '\x08'), ('f', '\x0c'), ('n', '\n'), ('r', '\r'),
    ('t', '\t')]

/-- A hexadecimal digit of a value below 16, in either case. -/
def IsHex (c : Char) (value : ℕ) : Prop :=
  value < 16 ∧ (c = Nat.digitChar value ∨ c = (Nat.digitChar value).toUpper)

/-- Four hexadecimal digits of a code unit. -/
inductive Hex : List Char → ℕ → Prop
  | digits {a b c d : Char} {i j k l : ℕ} (ha : IsHex a i) (hb : IsHex b j) (hc : IsHex c k)
      (hd : IsHex d l) : Hex [a, b, c, d] (((i * 16 + j) * 16 + k) * 16 + l)

/-- How the characters of a text may be written in a literal. -/
inductive Spells : List Char → List Char → Prop
  | nil : Spells [] []
  | plain {c : Char} {cs s : List Char} (hlow : ' ' ≤ c) (hquote : c ≠ '"') (hbackslash : c ≠ '\\')
      (hs : Spells cs s) : Spells (c :: cs) (c :: s)
  | escape {e c : Char} {cs s : List Char} (he : (e, c) ∈ escapes) (hs : Spells cs s) :
      Spells (c :: cs) ('\\' :: e :: s)
  | unit {c : Char} {u cs s : List Char} (hu : Hex u c.toNat) (hs : Spells cs s) :
      Spells (c :: cs) ('\\' :: 'u' :: (u ++ s))
  | pair {c : Char} {u v cs s : List Char} (hc : 0x10000 ≤ c.toNat)
      (hu : Hex u (0xD800 + (c.toNat - 0x10000) / 0x400))
      (hv : Hex v (0xDC00 + (c.toNat - 0x10000) % 0x400)) (hs : Spells cs s) :
      Spells (c :: cs) ('\\' :: 'u' :: (u ++ '\\' :: 'u' :: (v ++ s)))

theorem hexValue?_digitChar :
    ∀ i < 16, hexValue? (Nat.digitChar i) = some i ∧
      hexValue? (Nat.digitChar i).toUpper = some i := by
  decide

theorem hexValue?_of_isHex {c : Char} {i : ℕ} (h : IsHex c i) : hexValue? c = some i := by
  obtain ⟨hi, rfl | rfl⟩ := h
  · exact (hexValue?_digitChar i hi).1
  · exact (hexValue?_digitChar i hi).2

theorem pieces?_unit {u s : List Char} {n : ℕ} (hu : Hex u n) :
    pieces? ('\\' :: 'u' :: (u ++ s)) =
      (pieces? s).map fun p => (Piece.ofUnit n :: p.1, p.2) := by
  cases hu with
  | digits ha hb hc hd =>
      rw [List.cons_append, List.cons_append, List.cons_append, List.cons_append, List.nil_append,
        pieces?]
      simp only [unit?, hexValue?_of_isHex ha, hexValue?_of_isHex hb, hexValue?_of_isHex hc,
        hexValue?_of_isHex hd, Option.bind_eq_bind, Option.bind_some, Option.pure_def]
      cases pieces? s with
      | none => rfl
      | some p => rfl

theorem pieces?_escape {e c : Char} {s : List Char} (he : (e, c) ∈ escapes) :
    pieces? ('\\' :: e :: s) = (pieces? s).map fun p => (.char c :: p.1, p.2) := by
  have hletter : e ≠ 'u' ∧ escaped? e = some c := by
    have hall : ∀ p ∈ escapes, p.1 ≠ 'u' ∧ escaped? p.1 = some p.2 := by decide
    exact hall (e, c) he
  rw [pieces?.eq_def]
  split
  · rename_i h
    cases h
  · rename_i h
    cases h
  · rename_i h
    cases h
    exact absurd rfl hletter.1
  · rename_i h
    cases h
    rw [hletter.2]
    cases pieces? s <;> rfl
  · rename_i hnone h
    cases h
    exact (hnone _ _ rfl rfl).elim

theorem pieces?_plain {c : Char} {s : List Char} (hlow : ' ' ≤ c) (hquote : c ≠ '"')
    (hbackslash : c ≠ '\\') :
    pieces? (c :: s) = (pieces? s).map fun p => (.char c :: p.1, p.2) := by
  rw [pieces?.eq_def]
  split
  · rename_i h
    cases h
  · rename_i h
    cases h
    exact absurd rfl hquote
  · rename_i h
    cases h
    exact absurd rfl hbackslash
  · rename_i h
    cases h
    exact absurd rfl hbackslash
  · rename_i h
    cases h
    rw [if_neg (by simp [hbackslash, hlow])]
    cases pieces? s <;> rfl

theorem toNat_bounds (c : Char) : (c.toNat < 0xD800 ∨ 0xDFFF < c.toNat) ∧ c.toNat < 0x110000 := by
  have hvalid : c.toNat < 0xD800 ∨ 0xDFFF < c.toNat ∧ c.toNat < 0x110000 := c.valid
  omega

theorem Piece.ofUnit_toNat (c : Char) : Piece.ofUnit c.toNat = .char c := by
  have hbounds := toNat_bounds c
  rw [Piece.ofUnit, if_neg (by omega), Char.ofNat_toNat]

theorem Piece.ofUnit_of_surrogate {unit : ℕ} (hlow : 0xD800 ≤ unit) (hhigh : unit ≤ 0xDFFF) :
    Piece.ofUnit unit = .half unit := by
  rw [Piece.ofUnit, if_pos ⟨hlow, hhigh⟩]

theorem join?_pair {c : Char} (hc : 0x10000 ≤ c.toNat) (ps : List Piece) :
    join? (.half (0xD800 + (c.toNat - 0x10000) / 0x400) ::
        .half (0xDC00 + (c.toNat - 0x10000) % 0x400) :: ps) =
      (join? ps).map (c :: ·) := by
  have hbounds := toNat_bounds c
  have hcode : 0x10000 + (0xD800 + (c.toNat - 0x10000) / 0x400 - 0xD800) * 0x400 +
      (0xDC00 + (c.toNat - 0x10000) % 0x400 - 0xDC00) = c.toNat := by omega
  rw [join?, if_pos ⟨by omega, by omega⟩, hcode, Char.ofNat_toNat]

/-- The pieces of a spelling join to the text that it spells. -/
theorem exists_pieces?_of_spells {cs s : List Char} (h : Spells cs s) (rest : List Char) :
    ∃ ps, pieces? (s ++ '"' :: rest) = some (ps, rest) ∧ join? ps = some cs := by
  induction h with
  | nil => exact ⟨[], by rw [List.nil_append, pieces?], rfl⟩
  | @plain c cs s hlow hquote hbackslash _ ih =>
      obtain ⟨ps, hs, hps⟩ := ih
      refine ⟨.char c :: ps, ?_, by rw [join?, hps, Option.map_some]⟩
      rw [List.cons_append, pieces?_plain hlow hquote hbackslash, hs, Option.map_some]
  | @escape e c cs s he _ ih =>
      obtain ⟨ps, hs, hps⟩ := ih
      refine ⟨.char c :: ps, ?_, by rw [join?, hps, Option.map_some]⟩
      rw [List.cons_append, List.cons_append, pieces?_escape he, hs, Option.map_some]
  | @unit c u cs s hu _ ih =>
      obtain ⟨ps, hs, hps⟩ := ih
      refine ⟨.char c :: ps, ?_, by rw [join?, hps, Option.map_some]⟩
      rw [List.cons_append, List.cons_append, List.append_assoc, pieces?_unit hu, hs,
        Option.map_some, Piece.ofUnit_toNat]
  | @pair c u v cs s hc hu hv _ ih =>
      obtain ⟨ps, hs, hps⟩ := ih
      have hbounds := toNat_bounds c
      refine ⟨_, ?_, (join?_pair hc ps).trans (by rw [hps, Option.map_some])⟩
      rw [List.cons_append, List.cons_append, List.append_assoc, pieces?_unit hu, List.cons_append,
        List.cons_append, List.append_assoc, pieces?_unit hv, hs, Option.map_some, Option.map_some,
        Piece.ofUnit_of_surrogate (by omega) (by omega),
        Piece.ofUnit_of_surrogate (by omega) (by omega)]

theorem read?_of_spells {cs s : List Char} (h : Spells cs s) (rest : List Char) :
    read? (s ++ '"' :: rest) = some (some (String.ofList cs), rest) := by
  obtain ⟨ps, hs, hps⟩ := exists_pieces?_of_spells h rest
  rw [read?, hs, Option.map_some, hps, Option.map_some]

theorem spells_self {cs : List Char} (h : ∀ c ∈ cs, ' ' ≤ c ∧ c ≠ '"' ∧ c ≠ '\\') :
    Spells cs cs := by
  induction cs with
  | nil => exact .nil
  | cons c cs ih =>
      rw [List.forall_mem_cons] at h
      obtain ⟨⟨hlow, hquote, hbackslash⟩, hcs⟩ := h
      exact .plain hlow hquote hbackslash (ih hcs)

theorem exists_hex {n : ℕ} (h : n < 0x10000) : ∃ u, Hex u n := by
  have hdigit : ∀ i < 16, IsHex (Nat.digitChar i) i := fun i hi => ⟨hi, Or.inl rfl⟩
  have hn : n = (((n / 4096) * 16 + n / 256 % 16) * 16 + n / 16 % 16) * 16 + n % 16 := by omega
  rw [hn]
  exact ⟨_, .digits (hdigit _ (by omega)) (hdigit _ (by omega)) (hdigit _ (by omega))
    (hdigit _ (by omega))⟩

theorem exists_spells (cs : List Char) : ∃ s, Spells cs s := by
  induction cs with
  | nil => exact ⟨[], .nil⟩
  | cons c cs ih =>
      obtain ⟨s, hs⟩ := ih
      by_cases hplain : ' ' ≤ c ∧ c ≠ '"' ∧ c ≠ '\\'
      · exact ⟨_, .plain hplain.1 hplain.2.1 hplain.2.2 hs⟩
      · have hlow : c.toNat < 0x10000 := by
          by_contra hhigh
          refine hplain ⟨?_, ?_, ?_⟩
          · exact Char.le_def.2 (UInt32.le_iff_toNat_le.2 (le_trans (by decide) (not_lt.1 hhigh)))
          · rintro rfl
            exact hhigh (by decide)
          · rintro rfl
            exact hhigh (by decide)
        obtain ⟨u, hu⟩ := exists_hex hlow
        exact ⟨_, .unit hu hs⟩

end Recurrence.Literal
