import Recurrence.Proofs.Document.Places
import Recurrence.Proofs.Json.Spacing

/-!
# Edits that a document does not notice

The members of any object may be put in another order. In the document, in its entries and in their
nodes a field may be `null` instead of being absent, and under names that are not known there may be
any valid values that do not nest too deep. Such edits leave the value the same at its place, and so
the text is read as the same document or is still refused. The same holds for white space between
the tokens of the text.
-/

namespace Recurrence

open Json (occurrences)

/-- One edit of a value at a place, with room for so many levels of nesting. -/
inductive Edit : Place → ℕ → Json → Json → Prop
  | permute {p : Place} {room : ℕ} {ms ms' : List (Option String × Json)} (h : ms.Perm ms') :
      Edit p room (.object ms) (.object ms')
  | null {p : Place} {room : ℕ} {before after : List (Option String × Json)} {name : String}
      (hname : name ∈ p.fieldNames)
      (honce : ∀ known ∈ p.fieldNames,
        occurrences known (before ++ (some name, .null) :: after) ≤ 1) :
      Edit p room (.object (before ++ after)) (.object (before ++ (some name, .null) :: after))
  | unknown {p : Place} {room : ℕ} {before after : List (Option String × Json)} {name : String}
      {j : Json} (hp : p.fieldNames ≠ []) (hname : name ∉ p.fieldNames) (hj : j.Valid)
      (hdepth : j.depth < room) :
      Edit p room (.object (before ++ after)) (.object (before ++ (some name, j) :: after))
  | member {p : Place} {room : ℕ} {before after : List (Option String × Json)}
      {key : Option String} {j j' : Json} (h : Edit (p.member key) (room - 1) j j') :
      Edit p room (.object (before ++ (key, j) :: after)) (.object (before ++ (key, j') :: after))
  | item {p : Place} {room : ℕ} {front back : List Json} {j j' : Json}
      (h : Edit (p.item front.length) (room - 1) j j') :
      Edit p room (.array (front ++ j :: back)) (.array (front ++ j' :: back))

namespace Json

variable {ms ms' before after : List (Option String × Json)} {key : Option String} {j j' : Json}
  {access : Access} {room : ℕ}

theorem sound_perm (h : ms.Perm ms') : (object ms).sound room = (object ms').sound room := by
  cases room with
  | zero => rfl
  | succ room => exact h.all_eq

theorem sound_insert (hkey : key.isSome = true) (hj : j.Valid) (hdepth : j.depth < room) :
    (object (before ++ after)).sound room = (object (before ++ (key, j) :: after)).sound room := by
  cases room with
  | zero => rfl
  | succ room =>
      have hsound := sound_iff.2 ⟨hj, Nat.le_of_lt_succ hdepth⟩
      simp [sound, hkey, hsound]

theorem sound_insert_null (name : String) : (object (before ++ after)).sound room =
    (object (before ++ (some name, null) :: after)).sound room := by
  cases room with
  | zero => rfl
  | succ room =>
      have hsound : null.sound room = true := sound_iff.2 ⟨.null, Nat.zero_le room⟩
      simp [sound, hsound]

theorem sound_replace (h : j.sound (room - 1) = j'.sound (room - 1)) :
    (object (before ++ (key, j) :: after)).sound room =
      (object (before ++ (key, j') :: after)).sound room := by
  cases room with
  | zero => rfl
  | succ room =>
      rw [Nat.add_sub_cancel] at h
      simp [sound, h]

theorem sound_replace_item {front back : List Json} (h : j.sound (room - 1) = j'.sound (room - 1)) :
    (array (front ++ j :: back)).sound room = (array (front ++ j' :: back)).sound room := by
  cases room with
  | zero => rfl
  | succ room =>
      rw [Nat.add_sub_cancel] at h
      simp [sound, h]

theorem keyword?_eq_none_of_length (h : ms.length ≠ 1) :
    (object ms).keyword? access room = none := by
  unfold keyword?
  split
  · rename_i heq
    cases heq
  · rename_i heq
    cases heq
    exact absurd rfl h
  · rename_i heq
    cases heq
    exact absurd rfl h
  · rfl

theorem keyword?_eq_none_of_ne (hnull : j ≠ null) (hempty : j ≠ object []) :
    (object [(key, j)]).keyword? access room = none := by
  unfold keyword?
  split
  · rename_i heq
    cases heq
  · rename_i heq
    cases heq
    exact absurd rfl hnull
  · rename_i heq
    cases heq
    exact absurd rfl hempty
  · rfl

end Json

namespace Place

variable {p : Place} {room : ℕ} {j j' : Json} {ms ms' before after : List (Option String × Json)}
  {key : Option String}

theorem value_reads_perm (h : ms.Perm ms') : value.ReadsAlike room (.object ms) (.object ms') := by
  refine ⟨rfl, rfl, ?_, fun access room => ?_⟩
  · simp only [Json.object.injEq]
    exact ⟨fun hms => (hms ▸ h).nil_eq.symm, fun hms => (hms ▸ h).eq_nil⟩
  · by_cases hlength : ms.length = 1
    · obtain ⟨m, rfl⟩ := List.length_eq_one_iff.1 hlength
      rw [List.perm_singleton.1 h.symm]
    · rw [Json.keyword?_eq_none_of_length hlength,
        Json.keyword?_eq_none_of_length (h.length_eq ▸ hlength)]

theorem value_reads_replace {room' : ℕ} (h : value.Same room j j') :
    value.ReadsAlike room' (.object (before ++ (key, j) :: after))
      (.object (before ++ (key, j') :: after)) := by
  refine ⟨rfl, rfl, by simp, fun access room => ?_⟩
  by_cases hlength : (before ++ (key, j) :: after).length = 1
  · have hparts : before = [] ∧ after = [] := by
      simp only [List.length_append, List.length_cons, ← List.length_eq_zero_iff] at hlength ⊢
      omega
    obtain ⟨rfl, rfl⟩ := hparts
    rw [List.nil_append, List.nil_append]
    by_cases hnull : j = .null
    · rw [hnull, h.null.1 hnull]
    · by_cases hempty : j = .object []
      · rw [hempty, h.reads.2.2.1.1 hempty]
      · rw [Json.keyword?_eq_none_of_ne hnull hempty,
          Json.keyword?_eq_none_of_ne (mt h.null.2 hnull) (mt h.reads.2.2.1.2 hempty)]
  · have hlength' : (before ++ (key, j') :: after).length ≠ 1 := by simpa using hlength
    rw [Json.keyword?_eq_none_of_length hlength, Json.keyword?_eq_none_of_length hlength']

theorem fieldsSame_of_eq (h : Option.Rel (fun f f' => ∀ name ∈ p.fieldNames, f name = f' name)
    (j.fields? p.fieldNames) (j'.fields? p.fieldNames)) : FieldsSame p room j j' := by
  unfold FieldsSame
  generalize j.fields? p.fieldNames = o at h ⊢
  generalize j'.fields? p.fieldNames = o' at h ⊢
  cases h with
  | none => exact .none
  | some h => exact .some fun name hname => h name hname ▸ Same.refl _ _ _

theorem member_of_mem {name : String} (h : name ∈ p.fieldNames) :
    p.member (some name) = ofName name := if_pos h

theorem fieldsSame_replace (h : (p.member key).Same room j j') :
    FieldsSame p room (.object (before ++ (key, j) :: after))
      (.object (before ++ (key, j') :: after)) := by
  refine Json.rel_fields?_object Json.distinct_replace_iff fun _ name hname => ?_
  rcases Json.memberValue_replace (j := j) j' with heq | ⟨hkey, hj, hj'⟩
  · exact heq ▸ Same.refl _ _ _
  · rw [hj, hj', ← member_of_mem hname, ← hkey]
    exact h

theorem fieldsSame_replace_item {front back : List Json}
    (h : ∀ name ∈ p.fieldNames, p.fieldNames[front.length]? = some name →
      (ofName name).Same room j j') :
    FieldsSame p room (.array (front ++ j :: back)) (.array (front ++ j' :: back)) := by
  refine Json.rel_fields?_array (by simp) fun name hname => ?_
  rcases Json.itemValue_replace (j := j) j' with heq | ⟨hplace, hj, hj'⟩
  · exact heq ▸ Same.refl _ _ _
  · rw [hj, hj']
    exact h name hname hplace

theorem same_of_item {i : ℕ} {name : String} (hname : name ∈ p.fieldNames)
    (hplace : p.fieldNames[i]? = some name) (h : (p.item i).Same room j j') :
    (ofName name).Same room j j' := by
  have hitem : p.item i = p.member (some name) := by
    rw [← hplace]
    cases p <;> first | rfl | cases hname
  rwa [hitem, member_of_mem hname] at h

end Place

/-- An edit leaves a value the same at its place. -/
theorem Edit.same {p : Place} {room : ℕ} {j j' : Json} (h : Edit p room j j') :
    p.Same room j j' := by
  induction h with
  | @permute p room ms ms' h =>
      exact Place.same_object (Json.sound_perm h) (Place.fieldsSame_of_eq (Json.rel_fields?_perm h))
        fun _ => Place.value_reads_perm h
  | @null p room before after name hname honce =>
      have hfields := Json.rel_fields?_insert_null honce
      refine Place.same_object (Json.sound_insert_null name) (Place.fieldsSame_of_eq hfields)
        fun hp => ?_
      subst hp
      cases hname
  | @unknown p room before after name j hp hname hj hdepth =>
      have hne : ∀ known ∈ p.fieldNames, some name ≠ some known := by
        rintro known hknown heq
        exact hname (Option.some.inj heq ▸ hknown)
      refine Place.same_object (Json.sound_insert rfl hj hdepth)
        (Place.fieldsSame_of_eq (Json.rel_fields?_insert hne rfl)) fun hp' => ?_
      subst hp'
      exact absurd rfl hp
  | @member p room before after key j j' _ ih =>
      refine Place.same_object (Json.sound_replace ih.sound) (Place.fieldsSame_replace ih)
        fun hp => ?_
      subst hp
      have hvalue : Place.value.member key = .value := by cases key <;> rfl
      rw [hvalue] at ih
      exact Place.value_reads_replace ih
  | @item p room front back j j' _ ih =>
      refine Place.same_array (Json.sound_replace_item ih.sound) ?_ ?_ ?_
      · exact Place.fieldsSame_replace_item fun name hname hplace =>
          Place.same_of_item hname hplace ih
      · rintro rfl
        exact Place.mapM_replace ih.reads
      · rintro rfl
        exact Place.mapM_replace ih.reads

/-- One change of a text, of the white space between its tokens or of its value. -/
inductive Change : String → String → Prop
  | respace {text text' : String} {j : Json} (hj : Json.ofText? text = some j)
      (h : Json.Respaced text text') : Change text text'
  | edit {text text' : String} {j j' : Json} (hj : Json.ofText? text = some j)
      (hj' : Json.ofText? text' = some j') (h : Edit .document nestingLimit j j') :
      Change text text'

namespace Document

theorem ofText?_of_change {text text' : String} (h : Change text text') :
    ofText? text = ofText? text' := by
  cases h with
  | respace hj h => rw [ofText?, ofText?, hj, Json.ofText?_of_respaced h hj]
  | edit hj hj' h =>
      rw [ofText?, ofText?, hj, hj', Option.bind_eq_bind, Option.bind_some, Option.bind_some]
      exact h.same.reads

/-- Whatever is put in or left out, put in another order or spaced in another way, the same document
is read, or none. -/
theorem ofText?_eq_of_changes {text text' : String} (h : Relation.EqvGen Change text text') :
    ofText? text = ofText? text' := by
  induction h with
  | rel _ _ h => exact ofText?_of_change h
  | refl _ => rfl
  | symm _ _ _ ih => exact ih.symm
  | trans _ _ _ _ _ ih ih' => exact ih.trans ih'

/-- The members of an entry change places, and the node inside it gets slots of its own, which
nothing reads there, and a `null`. -/
theorem ofText?_eq_of_changes_unnoticed :
    (ofText? "\x7b \"schedule\":[\x7b\"slots\":7,\"expressions\":[\x7b\x7d]\x7d]\x7d").isSome ∧
      ofText? "\x7b \"schedule\":[\x7b\"slots\":7,\"expressions\":[\x7b\x7d]\x7d]\x7d" =
        ofText? ("\x7b\"schedule\":[\x7b\"expressions\":[\x7b\"slots\":true,\"of\":null\x7d]," ++
          "\"slots\":7\x7d]\x7d") := by
  let document (members : List (Option String × Json)) : Json :=
    .object [(some "schedule", .array [.object members])]
  let slots := (some "slots", Json.number (.ofInt 7))
  let expressions (members : List (Option String × Json)) :=
    (some "expressions", Json.array [.object members])
  have h₁ : Json.ofText? "\x7b\"schedule\":[\x7b\"slots\":7,\"expressions\":[\x7b\x7d]\x7d]\x7d" =
      some (document [slots, expressions []]) :=
    Json.ofText?_eq_some_iff_scan?.2 (by decide +kernel)
  have h₂ : Json.ofText? "\x7b\"schedule\":[\x7b\"expressions\":[\x7b\x7d],\"slots\":7\x7d]\x7d" =
      some (document [expressions [], slots]) :=
    Json.ofText?_eq_some_iff_scan?.2 (by decide +kernel)
  have h₃ : Json.ofText?
        "\x7b\"schedule\":[\x7b\"expressions\":[\x7b\"slots\":true\x7d],\"slots\":7\x7d]\x7d" =
      some (document [expressions [(some "slots", .bool true)], slots]) :=
    Json.ofText?_eq_some_iff_scan?.2 (by decide +kernel)
  have h₄ : Json.ofText?
        ("\x7b\"schedule\":[\x7b\"expressions\":[\x7b\"slots\":true,\"of\":null\x7d]," ++
          "\"slots\":7\x7d]\x7d") =
      some (document [expressions [(some "slots", .bool true), (some "of", .null)], slots]) :=
    Json.ofText?_eq_some_iff_scan?.2 (by decide +kernel)
  -- What is edited stands in an entry, in the list of these, in the document.
  have hentry : ∀ {ms ms' : List (Option String × Json)},
      Edit .entry 125 (.object ms) (.object ms') →
        Edit .document nestingLimit (document ms) (document ms') := fun h =>
    @Edit.member .document nestingLimit [] [] (some "schedule") _ _
      (@Edit.item .schedule 126 [] [] _ _ h)
  have hnode : ∀ {ms ms' : List (Option String × Json)},
      Edit .node 123 (.object ms) (.object ms') →
        Edit .document nestingLimit (document [expressions ms, slots])
          (document [expressions ms', slots]) := fun h =>
    hentry (@Edit.member .entry 125 [] [slots] (some "expressions") _ _
      (@Edit.item .nodes 124 [] [] _ _ h))
  have hpermute : Edit .entry 125 (.object [slots, expressions []])
      (.object [expressions [], slots]) := .permute (.swap _ _ _)
  have hunknown : Edit .node 123 (.object []) (.object [(some "slots", .bool true)]) :=
    @Edit.unknown .node 123 [] [] _ _ (by decide) (by decide) (.bool true) (by decide)
  have hnull : Edit .node 123 (.object [(some "slots", .bool true)])
      (.object [(some "slots", .bool true), (some "of", .null)]) :=
    @Edit.null .node 123 [(some "slots", .bool true)] [] _ (by decide) (by decide)
  let chunks := [(Token.openObject, ['\x7b']), (.text (some "schedule"), "\"schedule\"".toList),
    (.colon, [':']), (.openArray, ['[']), (.openObject, ['\x7b']),
    (.text (some "slots"), "\"slots\"".toList), (.colon, [':']), (.number (.ofInt 7), ['7']),
    (.comma, [',']), (.text (some "expressions"), "\"expressions\"".toList), (.colon, [':']),
    (.openArray, ['[']), (.openObject, ['\x7b']), (.closeObject, ['\x7d']), (.closeArray, [']']),
    (.closeObject, ['\x7d']), (.closeArray, [']']), (.closeObject, ['\x7d'])]
  have hchunks : ∀ p ∈ chunks, Token.Chunk p.1 p.2 := by decide +kernel
  have hspaced : Token.Spaced (chunks.map Prod.snd)
      "\x7b \"schedule\":[\x7b\"slots\":7,\"expressions\":[\x7b\x7d]\x7d]\x7d".toList :=
    .cons (w := []) _ (by simp)
      (.cons (w := [' ']) _ (by simp [Token.isSpace]) (Token.spaced_flatten _))
  have hcut := Token.cut_of_spaced hchunks (Json.isChain_tokens (document [slots, expressions []]))
    (Token.spaced_flatten _)
  refine ⟨by decide +kernel, ofText?_eq_of_changes ?_⟩
  refine .trans _ _ _ (.symm _ _ (.rel _ _ (.respace h₁ ⟨chunks, hcut, hspaced⟩))) ?_
  refine .trans _ _ _ (.rel _ _ (.edit h₁ h₂ (hentry hpermute))) ?_
  refine .trans _ _ _ (.rel _ _ (.edit h₂ h₃ (hnode hunknown))) ?_
  exact .rel _ _ (.edit h₃ h₄ (hnode hnull))

end Document

end Recurrence
