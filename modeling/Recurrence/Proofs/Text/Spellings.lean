import Recurrence.Proofs.Text.Blanks
import Recurrence.Text.Name

/-!
# Spellings of a name

Two characters are the same letter when they are equal or the two cases of one ASCII letter. A text
spells a name when it has the letters of the name, or of its first three characters, with blanks
around them. The first three letters of a text tell which name it spells, wherever no two names
begin alike.
-/

namespace Recurrence.Text

/-- Equal characters, and the two cases of a letter of ASCII. -/
inductive SameLetter : Char → Char → Prop
  | same (c : Char) : SameLetter c c
  | lowered {c d : Char} (hc : 65 ≤ c.toNat ∧ c.toNat ≤ 90) (hd : d.toNat = c.toNat + 32) :
      SameLetter c d
  | raised {c d : Char} (hd : 65 ≤ d.toNat ∧ d.toNat ≤ 90) (hc : c.toNat = d.toNat + 32) :
      SameLetter c d

/-- The text has the letters of the name or of its first three characters, and blanks around. -/
def Spells (text name : String) : Prop :=
  ∃ t, Padded t text.toList ∧
    (List.Forall₂ SameLetter t name.toList ∨ List.Forall₂ SameLetter t (name.toList.take 3))

/-- The first three characters in upper case. -/
def initials (s : List Char) : List Char := upper (s.take 3)

variable {c d : Char} {s t : List Char} {text name : String}

theorem isLower_iff : c.isLower = true ↔ 97 ≤ c.toNat ∧ c.toNat ≤ 122 := by
  simp [Char.isLower, UInt32.le_iff_toNat_le]

theorem toNat_toUpper (c : Char) :
    c.toUpper.toNat = if 97 ≤ c.toNat ∧ c.toNat ≤ 122 then c.toNat - 32 else c.toNat := by
  split_ifs with h
  · have hvalid : (c.toNat - 32).isValidChar := by
      left
      omega
    rw [Char.toUpper_eq_of_isLower (isLower_iff.2 h), Char.toNat_ofNat, if_pos hvalid]
  · rw [Char.toUpper_eq_of_not_isLower fun hlower => h (isLower_iff.1 hlower)]

theorem toUpper_eq_toUpper_iff : c.toUpper = d.toUpper ↔ SameLetter c d := by
  rw [← Char.toNat_inj, toNat_toUpper, toNat_toUpper]
  constructor
  · intro h
    by_cases heq : c.toNat = d.toNat
    · rw [Char.toNat_inj.1 heq]
      exact .same d
    · split_ifs at h with hc hd hd
      · omega
      · exact .raised (by omega) (by omega)
      · exact .lowered (by omega) (by omega)
      · omega
  · rintro (_ | ⟨hc, hd⟩ | ⟨hd, hc⟩)
    · rfl
    · rw [if_neg (by omega), if_pos (by omega)]
      omega
    · rw [if_pos (by omega), if_neg (by omega)]
      omega

theorem upper_eq_upper_iff : upper s = upper t ↔ List.Forall₂ SameLetter s t := by
  rw [upper, upper, ← List.forall₂_eq_eq_eq, List.forall₂_map_left_iff, List.forall₂_map_right_iff]
  simp only [toUpper_eq_toUpper_iff]

theorem SameLetter.isAlpha_eq (h : SameLetter c d) : c.isAlpha = d.isAlpha := by
  rw [← Char.isAlpha_toUpper_eq_isAlpha c, toUpper_eq_toUpper_iff.2 h,
    Char.isAlpha_toUpper_eq_isAlpha]

theorem isAlpha_of_sameLetters (h : List.Forall₂ SameLetter s t)
    (ht : ∀ d ∈ t, d.isAlpha = true) : ∀ c ∈ s, c.isAlpha = true := by
  induction h with
  | nil => exact ht
  | cons hcd _ ih =>
      rw [List.forall_mem_cons] at ht ⊢
      exact ⟨hcd.isAlpha_eq.trans ht.1, ih ht.2⟩

theorem isUpper_iff : c.isUpper = true ↔ 65 ≤ c.toNat ∧ c.toNat ≤ 90 := by
  simp [Char.isUpper, UInt32.le_iff_toNat_le]

theorem toNat_of_isAlpha (h : c.isAlpha = true) : 65 ≤ c.toNat ∧ c.toNat ≤ 122 := by
  rw [Char.isAlpha, Bool.or_eq_true, isUpper_iff, isLower_iff] at h
  omega

theorem isBlank_of_isAlpha (h : c.isAlpha = true) : isBlank c = false := by
  have hcode := toNat_of_isAlpha h
  exact isBlank_of_visible (by omega)

theorem spells_self (name : String) : Spells name name :=
  ⟨_, Padded.refl _, Or.inl (List.forall₂_same.2 fun c _ => .same c)⟩

section Names

variable (hname : ∀ c ∈ name.toList, c.isAlpha = true)

include hname

theorem isAlpha_of_either (h : List.Forall₂ SameLetter t name.toList ∨
    List.Forall₂ SameLetter t (name.toList.take 3)) : ∀ c ∈ t, c.isAlpha = true := by
  rcases h with h | h
  · exact isAlpha_of_sameLetters h hname
  · exact isAlpha_of_sameLetters h fun c hc => hname c (List.mem_of_mem_take hc)

theorem spells_eq_true_iff : spells text name = true ↔ Spells text name := by
  rw [spells_iff, upper_eq_upper_iff, upper_eq_upper_iff]
  constructor
  · exact fun h => ⟨_, padded_trim _, h⟩
  · rintro ⟨t, hpadded, h⟩
    have hbare : Bare t := bare_of_forall fun c hc =>
      isBlank_of_isAlpha (isAlpha_of_either hname h c hc)
    rwa [trim_eq_iff.2 ⟨hpadded, hbare⟩]

/-- What is left of a spelling without its blanks are letters of ASCII. -/
theorem Spells.isAlpha_trim (h : Spells text name) : ∀ c ∈ trim text.toList, c.isAlpha = true := by
  have h' := (spells_eq_true_iff hname).2 h
  rw [spells_iff, upper_eq_upper_iff, upper_eq_upper_iff] at h'
  exact isAlpha_of_either hname h'

end Names

theorem initials_of_spells (h : spells text name = true) :
    initials (trim text.toList) = initials name.toList := by
  rw [initials, initials, upper, upper, List.map_take, List.map_take]
  rcases spells_iff.1 h with h | h
  · rw [← upper, h]
    rfl
  · rw [← upper, h, upper, List.map_take, List.take_take]
    rfl

/-- Where no two names begin alike, the search for a name finds each one that the text spells. -/
theorem find?_spells_eq_some_iff {α : Type} {all : List α} {name : α → String} (hall : ∀ a, a ∈ all)
    (hinitials : (all.map fun a => initials (name a).toList).Nodup) {a : α} :
    all.find? (fun a => spells text (name a)) = some a ↔ spells text (name a) = true := by
  have hsome : ∀ b, all.find? (fun a => spells text (name a)) = some b →
      spells text (name b) = true := fun b hb => by simpa using List.find?_some hb
  constructor
  · exact hsome a
  · intro ha
    have hfound : (all.find? fun a => spells text (name a)).isSome = true :=
      List.find?_isSome.2 ⟨a, hall a, ha⟩
    obtain ⟨b, hb⟩ := Option.isSome_iff_exists.1 hfound
    have hbegin := (initials_of_spells (hsome b hb)).symm.trans (initials_of_spells ha)
    rw [hb, List.inj_on_of_nodup_map hinitials (hall b) (hall a) hbegin]

end Recurrence.Text
