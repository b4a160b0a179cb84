import Recurrence.Proofs.Json.Chunks

/-!
# White space between tokens

A text is read as a value when it consists of chunks of the tokens of this value, in order, with
white space around them. Since no two numerals stand next to each other, none of these chunks runs
into the next one, and so white space may be put in or left out between any two of them.
-/

namespace Recurrence

namespace Token

/-- Two tokens of which the first ends where the second begins. -/
def Apart (t u : Token) : Prop := t.isNumber = true → u.isNumber = false

/-- The tokens that are read from a text, with the chunk of each. -/
inductive Cut : List (Token × List Char) → List Char → Prop
  | nil {w : List Char} (hw : ∀ c ∈ w, isSpace c = true) : Cut [] w
  | cons {t : Token} {ps : List (Token × List Char)} {w l s : List Char}
      (hw : ∀ c ∈ w, isSpace c = true) (hread : read? (l ++ s) = some (t, s)) (hs : Cut ps s) :
      Cut ((t, l) :: ps) (w ++ (l ++ s))

/-- Chunks in order, with any white space around them or with none. -/
inductive Spaced : List (List Char) → List Char → Prop
  | nil {w : List Char} (hw : ∀ c ∈ w, isSpace c = true) : Spaced [] w
  | cons {ls : List (List Char)} {w s : List Char} (l : List Char)
      (hw : ∀ c ∈ w, isSpace c = true) (hs : Spaced ls s) : Spaced (l :: ls) (w ++ (l ++ s))

variable {t : Token} {ps : List (Token × List Char)} {w s : List Char}

theorem ended_of_isSpace {c : Char} (hc : isSpace c = true) (s : List Char) :
    Numeral.Ended (c :: s) := by
  rintro d ⟨⟩
  simp only [isSpace, Bool.or_eq_true, beq_iff_eq] at hc
  obtain ((rfl | rfl) | rfl) | rfl := hc <;> decide

theorem scan?_append_of_isSpace (hw : ∀ c ∈ w, isSpace c = true) (s : List Char) :
    scan? (w ++ s) = scan? s := by
  induction w with
  | nil => rfl
  | cons c w ih =>
      rw [List.cons_append, scan?, if_pos (hw c List.mem_cons_self)]
      exact ih fun d hd => hw d (List.mem_cons_of_mem c hd)

theorem scan?_of_read? {rest : List Char} (h : read? s = some (t, rest)) :
    scan? s = (scan? rest).map (t :: ·) := by
  have hlength := length_lt_of_read? h
  obtain ⟨c, r, rfl⟩ := List.exists_cons_of_ne_nil (List.ne_nil_of_length_pos (pos_of_gt hlength))
  have hspace : isSpace c ≠ true := by
    intro hc
    rw [read?_of_isSpace hc] at h
    cases h
  rw [scan?, if_neg hspace]
  split
  · rename_i hnone
    rw [h] at hnone
    cases hnone
  · rename_i hsome
    rw [h] at hsome
    cases hsome
    rfl

theorem Cut.chunk (h : Cut ps s) : ∀ p ∈ ps, Chunk p.1 p.2 := by
  induction h with
  | nil => simp
  | @cons t ps w l s _ hread _ ih =>
      rw [List.forall_mem_cons]
      obtain ⟨l', hchunk, hl'⟩ := exists_chunk hread
      rw [List.append_cancel_right hl']
      exact ⟨hchunk, ih⟩

theorem Cut.cons_space (h : Cut ps s) {c : Char} (hc : isSpace c = true) : Cut ps (c :: s) := by
  cases h with
  | nil hw => exact .nil (List.forall_mem_cons.2 ⟨hc, hw⟩)
  | @cons t ps w l s hw hread hs =>
      rw [← List.cons_append]
      exact .cons (List.forall_mem_cons.2 ⟨hc, hw⟩) hread hs

theorem exists_cut {ts : List Token} (h : scan? s = some ts) :
    ∃ ps, ps.map Prod.fst = ts ∧ Cut ps s := by
  fun_induction scan? s generalizing ts with
  | case1 =>
      cases h
      exact ⟨[], rfl, .nil (by simp)⟩
  | case2 c s hc ih =>
      obtain ⟨ps, hps, hcut⟩ := ih h
      exact ⟨ps, hps, hcut.cons_space hc⟩
  | case3 => cases h
  | case4 c s _ t rest hread ih =>
      obtain ⟨ts, hts, rfl⟩ := Option.map_eq_some_iff.1 h
      obtain ⟨ps, rfl, hcut⟩ := ih hts
      obtain ⟨l, hl, -⟩ := read?_eq_some hread
      rw [hl] at hread ⊢
      exact ⟨(t, l) :: ps, rfl, .cons (w := []) (by simp) hread hcut⟩

theorem scan?_of_cut (h : Cut ps s) : scan? s = some (ps.map Prod.fst) := by
  induction h with
  | @nil w hw =>
      rw [← List.append_nil w, scan?_append_of_isSpace hw, scan?]
      rfl
  | cons hw hread _ ih =>
      rw [scan?_append_of_isSpace hw, scan?_of_read? hread, ih, Option.map_some, List.map_cons]

theorem Spaced.ended (h : Spaced (ps.map Prod.snd) s) (hchunks : ∀ p ∈ ps, Chunk p.1 p.2)
    (hps : ∀ t ∈ (ps.map Prod.fst).head?, t.isNumber = false) : Numeral.Ended s := by
  generalize hls : ps.map Prod.snd = ls at h
  cases h with
  | nil hw =>
      cases s with
      | nil => exact Numeral.ended_nil
      | cons c s => exact ended_of_isSpace (hw c List.mem_cons_self) s
  | @cons ls w s l hw _ =>
      obtain ⟨p, ps, rfl⟩ := List.exists_cons_of_ne_nil (l := ps) (by rintro rfl; cases hls)
      cases hls
      cases w with
      | nil =>
          obtain ⟨c, r, hcr, -, hended⟩ := (hchunks p List.mem_cons_self).exists_cons
          rw [List.nil_append, hcr]
          exact hended (hps p.1 rfl) (r ++ s)
      | cons c w => exact ended_of_isSpace (hw c List.mem_cons_self) _

/-- Chunks of which no two are numerals next to each other are read one by one. -/
theorem cut_of_spaced (hchunks : ∀ p ∈ ps, Chunk p.1 p.2) (hapart : (ps.map Prod.fst).IsChain Apart)
    (h : Spaced (ps.map Prod.snd) s) : Cut ps s := by
  induction ps generalizing s with
  | nil =>
      cases h with
      | nil hw => exact .nil hw
  | cons p ps ih =>
      obtain ⟨t, l⟩ := p
      rw [List.forall_mem_cons] at hchunks
      obtain ⟨hhead, hrest⟩ := List.isChain_cons.1 hapart
      cases h with
      | cons _ hw hs =>
          have hcut := ih hchunks.2 hrest hs
          refine .cons hw (hchunks.1.read?_append fun ht => ?_) hcut
          exact hs.ended hchunks.2 fun u hu => hhead u hu ht

/-- Chunks without white space. -/
theorem spaced_flatten (ls : List (List Char)) : Spaced ls ls.flatten := by
  induction ls with
  | nil => exact .nil (by simp)
  | cons l ls ih => exact .cons (w := []) l (by simp) ih

end Token

namespace Json

open Token (Apart Cut Spaced Chunk isNumber)

theorem isChain_cons_of_isNumber {t : Token} {ts : List Token} (ht : t.isNumber = false)
    (hts : ts.IsChain Apart) : (t :: ts).IsChain Apart := by
  rw [List.isChain_cons]
  refine ⟨fun u _ h => ?_, hts⟩
  rw [ht] at h
  cases h

/-- No two numerals stand next to each other in the tokens of a value, whatever other than a numeral
comes behind them. -/
def KeepsApart (j : Json) : Prop :=
  ∀ rest : List Token, rest.IsChain Apart → (∀ t ∈ rest.head?, t.isNumber = false) →
    (j.tokens ++ rest).IsChain Apart

theorem isChain_furtherItemTokens {js : List Json} (h : ∀ j ∈ js, j.KeepsApart)
    {rest : List Token} (hrest : rest.IsChain Apart) :
    (furtherItemTokens js ++ rest).IsChain Apart := by
  induction js with
  | nil => exact isChain_cons_of_isNumber rfl hrest
  | cons j js ih =>
      rw [furtherItemTokens, List.cons_append, List.append_assoc]
      apply isChain_cons_of_isNumber rfl
      apply h j List.mem_cons_self _ (ih fun k hk => h k (List.mem_cons_of_mem j hk))
      cases js <;> simp [furtherItemTokens, isNumber]

theorem isChain_furtherMemberTokens {ms : List (Option String × Json)}
    (h : ∀ m ∈ ms, m.2.KeepsApart) {rest : List Token} (hrest : rest.IsChain Apart) :
    (furtherMemberTokens ms ++ rest).IsChain Apart := by
  induction ms with
  | nil => exact isChain_cons_of_isNumber rfl hrest
  | cons m ms ih =>
      obtain ⟨name, j⟩ := m
      rw [furtherMemberTokens, List.cons_append, List.cons_append, List.cons_append,
        List.append_assoc]
      apply isChain_cons_of_isNumber rfl
      apply isChain_cons_of_isNumber rfl
      apply isChain_cons_of_isNumber rfl
      apply h (name, j) List.mem_cons_self _ (ih fun m hm => h m (List.mem_cons_of_mem _ hm))
      cases ms <;> simp [furtherMemberTokens, isNumber]

theorem keepsApart_array {js : List Json} (h : ∀ j ∈ js, j.KeepsApart) :
    (array js).KeepsApart := by
  intro rest hrest _
  cases js with
  | nil => exact isChain_cons_of_isNumber rfl (isChain_cons_of_isNumber rfl hrest)
  | cons j js =>
      have hjs := isChain_furtherItemTokens (fun k hk => h k (List.mem_cons_of_mem j hk)) hrest
      rw [tokens, itemTokens, List.cons_append, List.append_assoc]
      apply isChain_cons_of_isNumber rfl
      apply h j List.mem_cons_self _ hjs
      cases js <;> simp [furtherItemTokens, isNumber]

theorem keepsApart_object {ms : List (Option String × Json)} (h : ∀ m ∈ ms, m.2.KeepsApart) :
    (object ms).KeepsApart := by
  intro rest hrest _
  cases ms with
  | nil => exact isChain_cons_of_isNumber rfl (isChain_cons_of_isNumber rfl hrest)
  | cons m ms =>
      obtain ⟨name, j⟩ := m
      have hms := isChain_furtherMemberTokens (fun m hm => h m (List.mem_cons_of_mem _ hm)) hrest
      rw [tokens, memberTokens, List.cons_append, List.cons_append, List.cons_append,
        List.append_assoc]
      apply isChain_cons_of_isNumber rfl
      apply isChain_cons_of_isNumber rfl
      apply isChain_cons_of_isNumber rfl
      apply h (name, j) List.mem_cons_self _ hms
      cases ms <;> simp [furtherMemberTokens, isNumber]

theorem keepsApart (j : Json) : j.KeepsApart := by
  induction j using Json.induction with
  | null => exact fun _ hrest _ => isChain_cons_of_isNumber rfl hrest
  | bool b => exact fun _ hrest _ => isChain_cons_of_isNumber rfl hrest
  | number n =>
      intro rest hrest hhead
      exact List.isChain_cons.2 ⟨fun t ht _ => hhead t ht, hrest⟩
  | text s => exact fun _ hrest _ => isChain_cons_of_isNumber rfl hrest
  | array js ih => exact keepsApart_array ih
  | object ms ih => exact keepsApart_object ih

variable {j : Json} {text text' : String}

theorem isChain_tokens (j : Json) : j.tokens.IsChain Apart := by
  simpa using j.keepsApart [] List.isChain_nil (by simp)

/-- A text is read as a value when it has the tokens of the value. -/
theorem ofText?_eq_some_iff_scan? :
    ofText? text = some j ↔ Token.scan? text.toList = some j.tokens := by
  rw [ofText?, Option.bind_eq_bind]
  simp only [Option.bind_eq_some_iff, ofTokens?_eq_some_iff, exists_eq_right]

theorem ofText?_eq_some_iff :
    ofText? text = some j ↔ ∃ ps, ps.map Prod.fst = j.tokens ∧ Cut ps text.toList := by
  rw [ofText?_eq_some_iff_scan?]
  constructor
  · exact Token.exists_cut
  · rintro ⟨ps, hps, hcut⟩
    rw [← hps]
    exact Token.scan?_of_cut hcut

/-- The texts have the same chunks, with white space of their own between them. -/
def Respaced (text text' : String) : Prop :=
  ∃ ps, Cut ps text.toList ∧ Spaced (ps.map Prod.snd) text'.toList

/-- Chunks of the tokens of a value make a text of it, in whichever way they are spaced. -/
theorem ofText?_of_spaced {ps : List (Token × List Char)} (hchunks : ∀ p ∈ ps, Chunk p.1 p.2)
    (hps : ps.map Prod.fst = j.tokens) (h : Spaced (ps.map Prod.snd) text.toList) :
    ofText? text = some j := by
  have hapart : (ps.map Prod.fst).IsChain Apart := by
    rw [hps]
    exact j.isChain_tokens
  exact ofText?_eq_some_iff.2 ⟨ps, hps, Token.cut_of_spaced hchunks hapart h⟩

/-- White space between tokens does not change the value of a text. -/
theorem ofText?_of_respaced (h : Respaced text text') (hj : ofText? text = some j) :
    ofText? text' = some j := by
  obtain ⟨ps, hcut, hspaced⟩ := h
  rw [ofText?_eq_some_iff_scan?, Token.scan?_of_cut hcut, Option.some.injEq] at hj
  exact ofText?_of_spaced hcut.chunk hj hspaced

theorem exists_text_iff : (∃ text, ofText? text = some j) ↔ ∀ t ∈ j.tokens, ∃ l, Chunk t l := by
  constructor
  · rintro ⟨text, htext⟩ t ht
    obtain ⟨ps, hps, hcut⟩ := ofText?_eq_some_iff.1 htext
    rw [← hps, List.mem_map] at ht
    obtain ⟨p, hp, rfl⟩ := ht
    exact ⟨p.2, hcut.chunk p hp⟩
  · intro h
    choose! chunk hchunk using h
    let ps := j.tokens.map fun t => (t, chunk t)
    have hfst : ps.map Prod.fst = j.tokens := by simp [ps, Function.comp_def]
    have hchunks : ∀ p ∈ ps, Chunk p.1 p.2 := by simpa [ps] using hchunk
    refine ⟨String.ofList (ps.map Prod.snd).flatten, ofText?_of_spaced hchunks hfst ?_⟩
    rw [String.toList_ofList]
    exact Token.spaced_flatten _

theorem exists_chunk_of_mem_words : ∀ p ∈ Token.words, ∃ l, Chunk p.1 l :=
  fun p hp => ⟨p.2, Token.chunk_of_mem_words p hp⟩

theorem exists_text_array_iff {js : List Json} : (∃ text, ofText? text = some (array js)) ↔
    ∀ j ∈ js, ∃ text, ofText? text = some j := by
  simp only [exists_text_iff]
  exact forall_mem_tokens_array_iff exists_chunk_of_mem_words

theorem exists_text_object_iff {ms : List (Option String × Json)} :
    (∃ text, ofText? text = some (object ms)) ↔
      ∀ m ∈ ms, (∃ l, Chunk (.text m.1) l) ∧ ∃ text, ofText? text = some m.2 := by
  simp only [exists_text_iff]
  exact forall_mem_tokens_object_iff exists_chunk_of_mem_words

end Json

end Recurrence
