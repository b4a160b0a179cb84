import Recurrence.Proofs.Document.Malformed

/-!
# The entries of a document

Every entry gives one allotment, with the rule of its node and the slots that it names, or it is
refused: because it names no slots, because its node has no rule, or because no allotment has slots
of that size. The entries are read in order, and the first one that is refused decides the error of
the document. Before any of them is looked at, the whole text has been found to be a document.
-/

namespace Recurrence

theorem ofSlots_eq_error_iff {r : Rule} {k : ℤ} {err : Error} :
    Allotment.ofSlots r k = .error err ↔
      k < 0 ∧ err = .negativeSlots k ∨ 2 ^ 32 ≤ k ∧ err = .tooManySlots k := by
  unfold Allotment.ofSlots
  split_ifs with hneg hle
  · rw [Except.error.injEq]
    constructor
    · rintro rfl
      exact Or.inl ⟨hneg, rfl⟩
    · rintro (⟨-, rfl⟩ | ⟨hlarge, -⟩)
      · rfl
      · omega
  · rw [slotLimit] at hle
    simp only [false_iff]
    omega
  · rw [slotLimit] at hle
    rw [Except.error.injEq]
    constructor
    · rintro rfl
      exact Or.inr ⟨by omega, rfl⟩
    · rintro (⟨hk, -⟩ | ⟨-, rfl⟩)
      · exact absurd hk hneg
      · rfl

namespace Entry

/-- Why an entry is refused at an index. Its slots are looked for first, then its node is read, and
then the size of its slots is checked. -/
inductive Refused (i : ℕ) (e : Entry) : Error → Prop
  | noSlots (hslots : e.slots = none) : e.Refused i (.missingSlots i)
  | noRule {k : ℤ} {err : Error} (hslots : e.slots = some k) (hrule : e.node.rule = .error err) :
      e.Refused i err
  | negative {k : ℤ} {r : Rule} (hslots : e.slots = some k) (hrule : e.node.rule = .ok r)
      (hk : k < 0) : e.Refused i (.negativeSlots k)
  | tooMany {k : ℤ} {r : Rule} (hslots : e.slots = some k) (hrule : e.node.rule = .ok r)
      (hk : 2 ^ 32 ≤ k) : e.Refused i (.tooManySlots k)

variable {i : ℕ} {e : Entry} {es : List Entry} {err : Error}

theorem allotment_eq_error_iff : e.allotment i = .error err ↔ e.Refused i err := by
  unfold allotment
  constructor
  · intro h
    split at h
    · rename_i hslots
      cases h
      exact .noSlots hslots
    · rename_i k hslots
      rcases bind_eq_error_iff.1 h with hrule | ⟨r, hrule, hsize⟩
      · exact .noRule hslots hrule
      · rcases ofSlots_eq_error_iff.1 hsize with ⟨hk, rfl⟩ | ⟨hk, rfl⟩
        · exact .negative hslots hrule hk
        · exact .tooMany hslots hrule hk
  · intro h
    cases h with
    | noSlots hslots => rw [hslots]
    | noRule hslots hrule =>
        rw [hslots]
        exact bind_eq_error_iff.2 (Or.inl hrule)
    | negative hslots hrule hk =>
        rw [hslots]
        exact bind_eq_error_iff.2
          (Or.inr ⟨_, hrule, ofSlots_eq_error_iff.2 (Or.inl ⟨hk, rfl⟩)⟩)
    | tooMany hslots hrule hk =>
        rw [hslots]
        exact bind_eq_error_iff.2
          (Or.inr ⟨_, hrule, ofSlots_eq_error_iff.2 (Or.inr ⟨hk, rfl⟩)⟩)

/-- An entry is refused with the error behind entries that are all accepted. The first of the
entries stands at the index. -/
def FirstRefused (i : ℕ) (es : List Entry) (err : Error) : Prop :=
  ∃ before e after, es = before ++ e :: after ∧ (∀ b ∈ before, ∃ a, b.Allots a) ∧
    e.Refused (i + before.length) err

theorem firstRefused_nil : ¬ FirstRefused i [] err := by
  rintro ⟨before, e, after, h, -⟩
  simp at h

theorem firstRefused_cons :
    FirstRefused i (e :: es) err ↔
      e.Refused i err ∨ (∃ a, e.Allots a) ∧ FirstRefused (i + 1) es err := by
  constructor
  · rintro ⟨before, e', after, hes, hbefore, he⟩
    cases before with
    | nil =>
        cases hes
        exact Or.inl he
    | cons b before =>
        cases hes
        refine Or.inr ⟨hbefore e List.mem_cons_self, before, e', after, rfl, ?_, ?_⟩
        · exact fun b hb => hbefore b (List.mem_cons_of_mem e hb)
        · rwa [List.length_cons, Nat.add_comm before.length, ← Nat.add_assoc] at he
  · rintro (he | ⟨ha, before, e', after, rfl, hbefore, he⟩)
    · exact ⟨[], e, es, rfl, nofun, he⟩
    · refine ⟨e :: before, e', after, rfl, List.forall_mem_cons.2 ⟨ha, hbefore⟩, ?_⟩
      rwa [List.length_cons, Nat.add_comm before.length, ← Nat.add_assoc]

theorem allotments_eq_error_iff : allotments i es = .error err ↔ FirstRefused i es err := by
  -- The index runs along with the entries, so the induction is for every index at once.
  induction es generalizing i with
  | nil => simp [allotments, firstRefused_nil]
  | cons e es ih =>
      rw [allotments, bind_eq_error_iff, firstRefused_cons, allotment_eq_error_iff, ← ih,
        ← exists_and_right]
      apply or_congr_right
      apply exists_congr
      intro a
      rw [allotment_eq_ok_iff, bind_eq_error_iff]
      simp [pure, Except.pure]

end Entry

namespace Schedule

variable {d : Document} {s : Schedule} {err : Error}

theorem ofDocument_eq_ok_iff : ofDocument d = .ok s ↔ d.allotments = .ok s.allotments := by
  obtain ⟨as⟩ := s
  simp only [ofDocument, bind_eq_ok_iff, pure_eq_ok_iff, Schedule.mk.injEq]
  exact exists_eq_right'

theorem ofDocument_eq_error_iff : ofDocument d = .error err ↔ d.allotments = .error err := by
  rw [ofDocument, bind_eq_error_iff]
  simp [pure, Except.pure]

end Schedule

/-- The entries of a document give their allotments in order, or else the first of them that is
refused decides the error, whatever stands behind it. -/
theorem Document.entries_decide (es : List Entry) :
    (∀ as, allotments ⟨some es⟩ = .ok as ↔ List.Forall₂ Entry.Allots es as) ∧
    (∀ err, allotments ⟨some es⟩ = .error err ↔ ∃ before e after, es = before ++ e :: after ∧
      (∀ b ∈ before, ∃ a, b.Allots a) ∧ e.Refused before.length err) ∧
    (∀ i, (Error.missingSlots i).message =
      "Validation error: slots not defined for schedule entry " ++ Text.natural i) ∧
    (∀ s, Schedule.ofDocument ⟨some es⟩ = .ok s ↔ allotments ⟨some es⟩ = .ok s.allotments) ∧
    (∀ err, Schedule.ofDocument ⟨some es⟩ = .error err ↔ allotments ⟨some es⟩ = .error err) ∧
    ∀ text, (∃ err, Schedule.read text = .error err ∧ err.kind = .malformed) ↔
      ofText? text = none := by
  refine ⟨fun as => Entry.allotments_eq_ok_iff, fun err => ?_, fun i => ?_,
    fun s => Schedule.ofDocument_eq_ok_iff, fun err => Schedule.ofDocument_eq_error_iff,
    Schedule.read_malformed_iff⟩
  · have hfirst : allotments ⟨some es⟩ = .error err ↔ Entry.FirstRefused 0 es err :=
      Entry.allotments_eq_error_iff
    simpa only [Entry.FirstRefused, Nat.zero_add] using hfirst
  · rfl

/-- The day of the first entry is unknown, but the slots of the second are no number. -/
example : Schedule.read
    ("\x7b\"schedule\":[\x7b\"slots\":1,\"type\":\"DAY_IN_WEEK\",\"day\":\"x\"\x7d," ++
      "\x7b\"slots\":\"3\"\x7d]\x7d") = .error .malformed := by
  decide +kernel

end Recurrence
