import Recurrence.Proofs.Json.Texts

/-!
# Nesting and validity

A value is sound with so much room when it is valid and nests no deeper. In a valid value every
string and every name stands for a text, and no number is too large.
-/

namespace Recurrence.Json

mutual

/-- How many levels deep arrays and objects nest. -/
def depth : Json → ℕ
  | array items => itemDepth items + 1
  | object members => memberDepth members + 1
  | _ => 0

def itemDepth : List Json → ℕ
  | [] => 0
  | j :: js => max j.depth (itemDepth js)

def memberDepth : List (Option String × Json) → ℕ
  | [] => 0
  | (_, j) :: ms => max j.depth (memberDepth ms)

end

/-- The values directly inside a value. -/
def parts : Json → List Json
  | array items => items
  | object members => members.map Prod.snd
  | _ => []

theorem itemDepth_le_iff {js : List Json} {n : ℕ} :
    itemDepth js ≤ n ↔ ∀ j ∈ js, j.depth ≤ n := by
  induction js with
  | nil => simp [itemDepth]
  | cons j js ih => simp [itemDepth, ih]

theorem memberDepth_le_iff {ms : List (Option String × Json)} {n : ℕ} :
    memberDepth ms ≤ n ↔ ∀ m ∈ ms, m.2.depth ≤ n := by
  induction ms with
  | nil => simp [memberDepth]
  | cons m ms ih => simp [memberDepth, ih]

theorem depth_le_succ_iff {j : Json} {n : ℕ} :
    j.depth ≤ n + 1 ↔ ∀ k ∈ j.parts, k.depth ≤ n := by
  cases j with
  | array js => simp [depth, parts, itemDepth_le_iff]
  | object ms =>
      rw [depth, Nat.succ_le_succ_iff, memberDepth_le_iff, parts, List.forall_mem_map]
  | null => simp [depth, parts]
  | bool b => simp [depth, parts]
  | number n => simp [depth, parts]
  | text s => simp [depth, parts]

/-- A property holds of every value when it passes to a value from its parts. -/
theorem induction_parts {motive : Json → Prop}
    (step : ∀ j, (∀ k ∈ j.parts, motive k) → motive j) (j : Json) : motive j := by
  induction j using Json.induction with
  | null => exact step null (by simp [parts])
  | bool b => exact step (bool b) (by simp [parts])
  | number n => exact step (number n) (by simp [parts])
  | text s => exact step (text s) (by simp [parts])
  | array js ih => exact step (array js) ih
  | object ms ih => exact step (object ms) (by simpa only [parts, List.forall_mem_map] using ih)

/-- Everything in the value can be represented. -/
inductive Valid : Json → Prop
  | null : Valid null
  | bool (b : Bool) : Valid (bool b)
  | number {n : Numeral} (hn : n.tooLarge = false) : Valid (number n)
  | text (s : String) : Valid (text (some s))
  | array {js : List Json} (h : ∀ j ∈ js, Valid j) : Valid (array js)
  | object {ms : List (Option String × Json)} (hnames : ∀ m ∈ ms, m.1.isSome = true)
      (h : ∀ m ∈ ms, Valid m.2) : Valid (object ms)

theorem valid_number_iff {n : Numeral} : (number n).Valid ↔ n.tooLarge = false := by
  constructor
  · rintro ⟨⟩
    assumption
  · exact .number

theorem valid_text_iff {s : Option String} : (text s).Valid ↔ s.isSome = true := by
  constructor
  · rintro ⟨⟩
    rfl
  · intro h
    obtain ⟨s, rfl⟩ := Option.isSome_iff_exists.1 h
    exact .text s

theorem valid_array_iff {js : List Json} : (array js).Valid ↔ ∀ j ∈ js, j.Valid := by
  constructor
  · rintro ⟨⟩
    assumption
  · exact .array

theorem valid_object_iff {ms : List (Option String × Json)} :
    (object ms).Valid ↔ ∀ m ∈ ms, m.1.isSome = true ∧ m.2.Valid := by
  constructor
  · intro h m hm
    cases h with
    | object hnames h => exact ⟨hnames m hm, h m hm⟩
  · exact fun h => .object (fun m hm => (h m hm).1) fun m hm => (h m hm).2

variable {j : Json} {n : ℕ}

theorem sound_iff : j.sound n = true ↔ j.Valid ∧ j.depth ≤ n := by
  induction j using Json.induction generalizing n with
  | null => cases n <;> simp [sound, depth, Valid.null]
  | bool b => cases n <;> simp [sound, depth, Valid.bool]
  | number k => cases n <;> simp [sound, depth, valid_number_iff]
  | text s => cases n <;> simp [sound, depth, valid_text_iff]
  | array js ih =>
      cases n with
      | zero => simp [sound, depth]
      | succ n =>
          rw [depth_le_succ_iff, sound, List.all_eq_true, parts, valid_array_iff,
            ← forall₂_and]
          exact forall₂_congr fun j hj => ih j hj
  | object ms ih =>
      cases n with
      | zero => simp [sound, depth]
      | succ n =>
          rw [depth_le_succ_iff, sound, List.all_eq_true, parts, List.forall_mem_map,
            valid_object_iff, ← forall₂_and]
          refine forall₂_congr fun m hm => ?_
          rw [Bool.and_eq_true, ih m hm, and_assoc]

theorem Plain.valid (h : j.Plain) : j.Valid := by
  induction h with
  | null => exact .null
  | text s => exact .text s
  | integer hk => exact .number (Numeral.tooLarge_ofInt hk)
  | array _ ih => exact .array ih
  | object hnames _ ih => exact .object hnames ih

end Recurrence.Json
