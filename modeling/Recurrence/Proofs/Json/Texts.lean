import Recurrence.Proofs.Json.Spacing

/-!
# The texts of a value

A text of a value spells the tokens of the value in order, with white space before, between and
behind them. Each lexeme is a chunk of its token, and so every text of a value is read as this
value. A value of texts and integers of 64 bits has such a text.
-/

namespace Recurrence

namespace Token

inductive Lexeme : Token → List Char → Prop
  | word {t : Token} {l : List Char} (h : (t, l) ∈ words) : Lexeme t l
  | integer (k : ℤ) : Lexeme (number (.ofInt k)) (Text.signed k).toList
  | text {s : String} {l : List Char} (hl : Literal.Spells s.toList l) :
      Lexeme (text (some s)) ('"' :: (l ++ ['"']))

/-- Lexemes in order, with white space around them. -/
inductive Spells : List Token → List Char → Prop
  | nil {w : List Char} (hw : ∀ c ∈ w, isSpace c = true) : Spells [] w
  | cons {t : Token} {ts : List Token} {w l s : List Char} (hw : ∀ c ∈ w, isSpace c = true)
      (hl : Lexeme t l) (hs : Spells ts s) : Spells (t :: ts) (w ++ (l ++ s))

variable {t : Token} {ts : List Token} {l s : List Char}

theorem Lexeme.chunk (h : Lexeme t l) : Chunk t l := by
  cases h with
  | word h => exact chunk_of_mem_words (t, l) h
  | integer k =>
      obtain ⟨c, r, hcr, hc⟩ := Numeral.exists_signed_eq_cons k
      have hread := Numeral.read?_signed k Numeral.ended_nil
      rw [List.append_nil, hcr] at hread
      rw [Chunk, hcr, read?_of_numeral hc, hread, Option.map_some]
  | text hl =>
      rw [Chunk, read?, Literal.read?_of_spells hl, Option.map_some, String.ofList_toList]

theorem Spells.exists_spaced (h : Spells ts s) :
    ∃ ps : List (Token × List Char), ps.map Prod.fst = ts ∧ (∀ p ∈ ps, Lexeme p.1 p.2) ∧
      Spaced (ps.map Prod.snd) s := by
  induction h with
  | nil hw => exact ⟨[], rfl, by simp, .nil hw⟩
  | @cons t _ w l _ hw hl _ ih =>
      obtain ⟨ps, rfl, hlexemes, hspaced⟩ := ih
      exact ⟨(t, l) :: ps, rfl, List.forall_mem_cons.2 ⟨hl, hlexemes⟩, .cons l hw hspaced⟩

/-- Lexemes without white space. -/
theorem spells_flatMap (ps : List (Token × List Char)) (h : ∀ p ∈ ps, Lexeme p.1 p.2) :
    Spells (ps.map Prod.fst) (ps.flatMap Prod.snd) := by
  induction ps with
  | nil => exact .nil fun c hc => by cases hc
  | cons p ps ih =>
      rw [List.forall_mem_cons] at h
      exact .cons (w := []) (fun c hc => by cases hc) h.1 (ih h.2)

theorem exists_spells (h : ∀ t ∈ ts, ∃ l, Lexeme t l) : ∃ s, Spells ts s := by
  choose! lexeme hlexeme using h
  have hspells := spells_flatMap (ts.map fun t => (t, lexeme t)) (by simpa using hlexeme)
  rw [List.map_map, Function.comp_def, List.map_id'] at hspells
  exact ⟨_, hspells⟩

end Token

namespace Json

/-- A text of a value. -/
def Spells (j : Json) (text : String) : Prop := Token.Spells j.tokens text.toList

theorem ofText?_of_spells {j : Json} {text : String} (h : j.Spells text) :
    ofText? text = some j := by
  obtain ⟨ps, hps, hlexemes, hspaced⟩ := h.exists_spaced
  exact ofText?_of_spaced (fun p hp => (hlexemes p hp).chunk) hps hspaced

/-- The values that consist of texts and of integers of 64 bits. -/
inductive Plain : Json → Prop
  | null : Plain null
  | text (s : String) : Plain (text (some s))
  | integer {k : ℤ} (hk : Numeral.Fits k) : Plain (number (.ofInt k))
  | array {js : List Json} (h : ∀ j ∈ js, Plain j) : Plain (array js)
  | object {ms : List (Option String × Json)} (hnames : ∀ m ∈ ms, m.1.isSome = true)
      (h : ∀ m ∈ ms, Plain m.2) : Plain (object ms)

theorem exists_lexeme_text (s : String) : ∃ l, Token.Lexeme (.text (some s)) l := by
  obtain ⟨l, hl⟩ := Literal.exists_spells s.toList
  exact ⟨_, .text hl⟩

theorem exists_lexeme_of_plain {j : Json} (h : j.Plain) :
    ∀ t ∈ j.tokens, ∃ l, Token.Lexeme t l := by
  have hwords : ∀ p ∈ Token.words, ∃ l, Token.Lexeme p.1 l := fun p hp => ⟨p.2, .word hp⟩
  induction h with
  | null => simpa [tokens] using hwords (.null, ['n', 'u', 'l', 'l']) (by decide)
  | text s => simpa [tokens] using exists_lexeme_text s
  | @integer k _ => simpa [tokens] using ⟨_, .integer k⟩
  | array _ ih => exact (forall_mem_tokens_array_iff hwords).2 ih
  | object hnames _ ih =>
      refine (forall_mem_tokens_object_iff hwords).2 fun m hm => ⟨?_, ih m hm⟩
      obtain ⟨name, hname⟩ := Option.isSome_iff_exists.1 (hnames m hm)
      rw [hname]
      exact exists_lexeme_text name

theorem exists_spells_of_plain {j : Json} (h : j.Plain) : ∃ text, j.Spells text := by
  obtain ⟨s, hs⟩ := Token.exists_spells (exists_lexeme_of_plain h)
  exact ⟨String.ofList s, by rwa [Spells, String.toList_ofList]⟩

end Json

end Recurrence
