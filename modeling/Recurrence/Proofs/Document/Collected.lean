import Recurrence.Proofs.Document.Places
import Recurrence.Proofs.Document.RoundTrip
import Recurrence.Proofs.Json.Spacing

/-!
# Nodes read directly and nodes collected first

A node is read straight from its text, or inside an entry that has been collected as a whole.
Reading directly passes over whatever stands under names that are not known, while collecting needs
all of it to be valid. Where this is so and there is room enough, a node that is read directly is
read as the same node when it has been collected. At each place this follows from the values one
level below.
-/

namespace Recurrence

open Json (text? integer? memberValue itemValue Distinct)

/-- A value that nothing reads, under a name that is not known where it stands. -/
inductive Place.Skipped : Place → Json → Json → Prop
  | here {p : Place} {ms : List (Option String × Json)} {name : String} {k : Json}
      (hp : p.fieldNames ≠ []) (hname : name ∉ p.fieldNames) (hk : (some name, k) ∈ ms) :
      Skipped p (.object ms) k
  | member {p : Place} {ms : List (Option String × Json)} {key : Option String} {j k : Json}
      (hj : (key, j) ∈ ms) (h : Skipped (p.member key) j k) : Skipped p (.object ms) k
  | item {p : Place} {js : List Json} {i : ℕ} {j k : Json} (hj : js[i]? = some j)
      (h : Skipped (p.item i) j k) : Skipped p (.array js) k

namespace Place

/-- What the direct reader reads from a value is read by the other one as well, with any room that
the value fits in, and the value is valid, provided that all the skipped values are. -/
def Carries {α : Type} (p : Place) (j : Json) (direct collected : ℕ → Json → Option α) : Prop :=
  ∀ ⦃room room' : ℕ⦄ ⦃a : α⦄, direct room j = some a → (∀ k, Skipped p j k → k.Valid) →
    j.depth ≤ room' → collected room' j = some a ∧ j.Valid

/-- The readers of a place carry what they read directly over to collected values. -/
def Carried : Place → Json → Prop
  | node, j => Carries node j (Node.ofJson? .direct) (Node.ofJson? .collected)
  | nodes, j => Carries nodes j (Node.listOfJson? .direct) (Node.listOfJson? .collected)
  | value, j => Carries value j (fun _ => text?) (fun _ => text?) ∧
      Carries value j (fun _ => integer?) (fun _ => integer?) ∧
      Carries value j (fun room j => j.keyword? .direct room) fun room j =>
        j.keyword? .collected room
  | _, _ => True

variable {p : Place} {j : Json} {room room' : ℕ} {field : String → Json}

theorem Carries.map {α β : Type} {direct collected : ℕ → Json → Option α}
    (h : Carries p j direct collected) (g : α → β) :
    Carries p j (fun room j => (direct room j).map g) fun room j => (collected room j).map g := by
  intro room room' b hb hskipped hdepth
  obtain ⟨a, ha, rfl⟩ := Option.map_eq_some_iff.1 hb
  obtain ⟨hread, hvalid⟩ := h ha hskipped hdepth
  exact ⟨Option.map_eq_some_iff.2 ⟨a, hread, rfl⟩, hvalid⟩

theorem Carries.optional? {α : Type} {direct collected : ℕ → Json → Option α}
    (h : Carries p j direct collected) :
    Carries p j (fun room j => j.optional? (direct room)) fun room j =>
      j.optional? (collected room) := by
  by_cases hnull : j = .null
  · subst hnull
    exact fun room room' b hb _ _ => ⟨hb, .null⟩
  · intro room room' b hb
    dsimp only at hb ⊢
    rw [Json.optional?_of_ne_null _ hnull] at hb ⊢
    exact h.map some hb

theorem Skipped.valid {k : Json} (h : Skipped p j k) (hj : j.Valid) : k.Valid := by
  induction h with
  | here _ _ hk => exact (Json.valid_object_iff.1 hj _ hk).2
  | member hk _ ih => exact ih (Json.valid_object_iff.1 hj _ hk).2
  | item hk _ ih => exact ih (Json.valid_array_iff.1 hj _ (List.mem_of_getElem? hk))

theorem skipped_null (p : Place) (k : Json) : ¬ Skipped p .null k := by
  rintro ⟨⟩

/-- The fields of a node carry over when each of them does. -/
theorem ofFields?_of_carried {x : Node}
    (hcarried : ∀ name ∈ Node.fieldNames, (ofName name).Carried (field name))
    (hskipped : ∀ name ∈ Node.fieldNames, ∀ k, Skipped (ofName name) (field name) k → k.Valid)
    (hdepth : ∀ name ∈ Node.fieldNames, (field name).depth ≤ room')
    (hx : Node.ofFields? .direct room (Node.ofJson? .direct room) (Node.listOfJson? .direct room)
      field = some x) :
    Node.ofFields? .collected room' (Node.ofJson? .collected room')
        (Node.listOfJson? .collected room') field = some x ∧
      ∀ name ∈ Node.fieldNames, (field name).Valid := by
  have hcarry : ∀ name ∈ Node.fieldNames, ∀ {α : Type} {direct collected : ℕ → Json → Option α} {o},
      Carries (ofName name) (field name) direct collected →
        (field name).optional? (direct room) = some o →
          (field name).optional? (collected room') = some o ∧ (field name).Valid :=
    fun name hname _ _ _ _ h ho => h.optional? ho (hskipped name hname) (hdepth name hname)
  simp only [Node.fieldNames, List.forall_mem_cons] at hcarried hcarry ⊢
  obtain ⟨c₁, c₂, c₃, c₄, c₅, c₆, c₇, c₈, c₉, c₁₀, c₁₁, c₁₂, -⟩ := hcarried
  obtain ⟨f₁, f₂, f₃, f₄, f₅, f₆, f₇, f₈, f₉, f₁₀, f₁₁, f₁₂, -⟩ := hcarry
  rw [Node.ofFields?_eq_some_iff] at hx ⊢
  obtain ⟨x₁, x₂, x₃, x₄, x₅, x₆, x₇, x₈, x₉, x₁₀, x₁₁, x₁₂⟩ := hx
  obtain ⟨r₁, v₁⟩ := f₁ (c₁.2.2.map NodeType.ofKeyword) x₁
  obtain ⟨r₂, v₂⟩ := f₂ (c₂.2.2.map BoundsType.ofKeyword) x₂
  obtain ⟨r₃, v₃⟩ := f₃ c₃.1 x₃
  obtain ⟨r₄, v₄⟩ := f₄ c₄.1 x₄
  obtain ⟨r₅, v₅⟩ := f₅ c₅.1 x₅
  obtain ⟨r₆, v₆⟩ := f₆ c₆.1 x₆
  obtain ⟨r₇, v₇⟩ := f₇ c₇.1 x₇
  obtain ⟨r₈, v₈⟩ := f₈ c₈.2.1 x₈
  obtain ⟨r₉, v₉⟩ := f₉ c₉.1 x₉
  obtain ⟨r₁₀, v₁₀⟩ := f₁₀ c₁₀ x₁₀
  obtain ⟨r₁₁, v₁₁⟩ := f₁₁ c₁₁ x₁₁
  obtain ⟨r₁₂, v₁₂⟩ := f₁₂ c₁₂ x₁₂
  exact ⟨⟨r₁, r₂, r₃, r₄, r₅, r₆, r₇, r₈, r₉, r₁₀, r₁₁, r₁₂⟩, v₁, v₂, v₃, v₄, v₅, v₆, v₇, v₈, v₉,
    v₁₀, v₁₁, v₁₂, by simp⟩

theorem item_node {i : ℕ} {name : String} (hi : Node.fieldNames[i]? = some name) :
    node.item i = ofName name := by
  change node.member Node.fieldNames[i]? = ofName name
  rw [hi]
  exact if_pos (List.mem_of_getElem? hi)

/-- A field of a node is a part of the value, and whatever is skipped in the field is skipped in the
value. -/
theorem field_cases (h : j.fields? Node.fieldNames = some field) {name : String}
    (hname : name ∈ Node.fieldNames) :
    field name = .null ∨ field name ∈ j.parts ∧
      ∀ k, Skipped (ofName name) (field name) k → Skipped node j k := by
  cases j with
  | array js =>
      obtain ⟨-, rfl⟩ := Json.fields?_array_eq_some_iff.1 h
      refine (Json.itemValue_cases _ js name).imp_right fun ⟨i, hi, hj⟩ => ?_
      refine ⟨List.mem_of_getElem? hj, fun k hk => .item hj ?_⟩
      rwa [item_node hi]
  | object ms =>
      obtain ⟨-, rfl⟩ := Json.fields?_object_eq_some_iff.1 h
      refine (Json.memberValue_cases ms name).symm.imp And.right fun hj => ?_
      refine ⟨List.mem_map.2 ⟨_, hj, rfl⟩, fun k hk => .member hj ?_⟩
      have hplace : node.member (some name) = ofName name := if_pos hname
      rwa [hplace]
  | _ => cases h

/-- A value with valid fields in which nothing invalid is skipped is valid. -/
theorem valid_of_fields (h : j.fields? Node.fieldNames = some field)
    (hfields : ∀ name ∈ Node.fieldNames, (field name).Valid)
    (hskipped : ∀ k, Skipped node j k → k.Valid) : j.Valid := by
  cases j with
  | array js =>
      obtain ⟨hlength, rfl⟩ := Json.fields?_array_eq_some_iff.1 h
      refine .array fun j hj => ?_
      obtain ⟨i, hi⟩ := List.mem_iff_getElem?.1 hj
      have hlt : i < Node.fieldNames.length :=
        (List.getElem?_eq_some_iff.1 hi).1.trans_le hlength
      have hname := List.getElem?_eq_getElem hlt
      have hvalue := hfields _ (List.mem_of_getElem? hname)
      rwa [Json.itemValue_eq_of_getElem? (by decide) hname hi] at hvalue
  | object ms =>
      obtain ⟨⟨hnames, honce⟩, rfl⟩ := Json.fields?_object_eq_some_iff.1 h
      refine .object hnames ?_
      rintro ⟨key, k⟩ hk
      obtain ⟨name, rfl⟩ := Option.isSome_iff_exists.1 (hnames _ hk)
      by_cases hname : name ∈ Node.fieldNames
      · have hvalue := hfields name hname
        rwa [Json.memberValue_eq_of_mem (honce name hname) hk] at hvalue
      · exact hskipped k (.here (by decide) hname hk)
  | _ => cases h

theorem carried_value (j : Json) : value.Carried j := by
  refine ⟨?_, ?_, ?_⟩
  · intro room room' s hs _ _
    refine ⟨hs, ?_⟩
    cases j with
    | text t =>
        cases hs
        exact .text s
    | _ => cases hs
  · intro room room' n hn _ _
    refine ⟨hn, ?_⟩
    cases j with
    | number m => exact .number (Numeral.tooLarge_of_integer? hn)
    | _ => cases hn
  · intro room room' s hs _ hdepth
    dsimp only at hs ⊢
    unfold Json.keyword? at hs
    split at hs
    · cases hs
      exact ⟨rfl, .text s⟩
    · split_ifs at hs
      cases hs
      have hroom : room' ≠ 0 := Nat.ne_of_gt hdepth
      exact ⟨if_neg hroom, .object (by simp) (by simpa using .null)⟩
    · split_ifs at hs with hroom
      exact absurd (Or.inr rfl) hroom
    · cases hs

theorem carried_null (p : Place) : p.Carried .null := by
  cases p with
  | node =>
      intro room room' x hx
      cases room <;> cases hx
  | nodes =>
      intro room room' xs hxs
      cases room <;> cases hxs
  | value => exact carried_value .null
  | _ => trivial

theorem carried_node (hparts : ∀ k ∈ j.parts, ∀ p, Carried p k) : node.Carried j := by
  intro room room' x hx hskipped hdepth
  cases room with
  | zero => cases hx
  | succ room =>
      rw [Node.ofJson?, Option.bind_eq_bind, Option.bind_eq_some_iff] at hx
      obtain ⟨field, hfield, hx⟩ := hx
      have hpos := (Json.depth_pos_of_fields? hfield).trans_le hdepth
      obtain ⟨room', rfl⟩ := Nat.exists_eq_add_one_of_ne_zero hpos.ne'
      rw [Json.depth_le_succ_iff] at hdepth
      have hcases : ∀ name ∈ Node.fieldNames, (ofName name).Carried (field name) ∧
          (∀ k, Skipped (ofName name) (field name) k → k.Valid) ∧ (field name).depth ≤ room' := by
        intro name hname
        rcases field_cases hfield hname with hnull | ⟨hpart, hsub⟩
        · rw [hnull]
          exact ⟨carried_null _, fun k hk => absurd hk (skipped_null _ k), Nat.zero_le _⟩
        · exact ⟨hparts _ hpart _, fun k hk => hskipped k (hsub k hk), hdepth _ hpart⟩
      obtain ⟨hread, hvalid⟩ := ofFields?_of_carried (fun name hname => (hcases name hname).1)
        (fun name hname => (hcases name hname).2.1) (fun name hname => (hcases name hname).2.2) hx
      refine ⟨?_, valid_of_fields hfield hvalid hskipped⟩
      rw [Node.ofJson?, hfield, Option.bind_eq_bind, Option.bind_some, hread]

theorem mapM_of_carries {α : Type} {direct collected : Json → Option α} {js : List Json}
    (h : ∀ j ∈ js, ∀ a, direct j = some a → collected j = some a ∧ j.Valid) {as : List α}
    (has : js.mapM direct = some as) : js.mapM collected = some as ∧ ∀ j ∈ js, j.Valid := by
  induction js generalizing as with
  | nil => exact ⟨has, by simp⟩
  | cons j js ih =>
      rw [List.forall_mem_cons] at h ⊢
      simp only [List.mapM_cons, Option.bind_eq_bind, Option.bind_eq_some_iff] at has ⊢
      obtain ⟨a, ha, as, has, hcons⟩ := has
      obtain ⟨hj, hjvalid⟩ := h.1 a ha
      obtain ⟨hjs, hjsvalid⟩ := ih h.2 has
      exact ⟨⟨a, hj, as, hjs, hcons⟩, hjvalid, hjsvalid⟩

theorem carried_nodes (hparts : ∀ k ∈ j.parts, ∀ p, Carried p k) : nodes.Carried j := by
  intro room room' xs hxs hskipped hdepth
  cases room with
  | zero => cases hxs
  | succ room =>
      cases j with
      | array js =>
          obtain ⟨room', rfl⟩ := Nat.exists_eq_add_one_of_ne_zero (Nat.ne_zero_of_lt hdepth)
          rw [Json.depth_le_succ_iff] at hdepth
          have hitems : ∀ j ∈ js, ∀ x, Node.ofJson? .direct room j = some x →
              Node.ofJson? .collected room' j = some x ∧ j.Valid := by
            intro j hj x hx
            obtain ⟨i, hi⟩ := List.mem_iff_getElem?.1 hj
            have hnode : node.Carried j := hparts j hj node
            exact hnode hx (fun k hk => hskipped k (.item hi hk)) (hdepth j hj)
          obtain ⟨hread, hvalid⟩ := mapM_of_carries hitems hxs
          exact ⟨hread, .array hvalid⟩
      | _ => cases hxs

/-- At every place what is read directly is read once it has been collected. -/
theorem carried (p : Place) (j : Json) : p.Carried j := by
  induction j using Json.induction_parts generalizing p with
  | step j ih =>
      cases p with
      | node => exact carried_node fun k hk p => ih k hk p
      | nodes => exact carried_nodes fun k hk p => ih k hk p
      | value => exact carried_value j
      | _ => trivial

end Place

variable {before after : List (Option String × Json)} {x : Node} {n : ℤ} {room room' : ℕ}

/-- Slots that are put in among the members of a node make an entry of it. -/
theorem Entry.ofJson?_insert_slots
    (hx : Node.ofJson? .direct room (.object (before ++ after)) = some x)
    (hslots : ∀ m ∈ before ++ after, m.1 ≠ some "slots")
    (hskipped : ∀ k, Place.Skipped .node (.object (before ++ after)) k → k.Valid)
    (hdepth : (Json.object (before ++ after)).depth ≤ room') (hn : Numeral.Fits n) :
    Entry.ofJson? room' (.object (before ++ (some "slots", .number (.ofInt n)) :: after)) =
      some ⟨some n, x⟩ := by
  have hnode : Place.node.Carried (.object (before ++ after)) := Place.carried .node _
  obtain ⟨hread, hvalid⟩ := hnode hx hskipped hdepth
  obtain ⟨room', rfl⟩ := Nat.exists_eq_add_one_of_ne_zero (Nat.ne_zero_of_lt hdepth)
  rw [Node.ofJson?, Option.bind_eq_bind, Option.bind_eq_some_iff] at hread
  obtain ⟨field, hfield, hfields⟩ := hread
  obtain ⟨hdistinct, rfl⟩ := Json.fields?_object_eq_some_iff.1 hfield
  have hother : ∀ name ∈ Node.fieldNames, some "slots" ≠ some name := by decide
  obtain ⟨hnames, honce⟩ :=
    (Json.distinct_insert_iff (j := .number (.ofInt n)) hother rfl).2 hdistinct
  have hsingle : Json.occurrences "slots"
      (before ++ (some "slots", .number (.ofInt n)) :: after) ≤ 1 := by
    rw [Json.occurrences_insert, Json.occurrences_eq_zero_iff.2 hslots, if_pos rfl]
  have hsound : (Json.object (before ++ (some "slots", .number (.ofInt n)) :: after)).sound
      (room' + 1) = true := by
    rw [Json.sound_iff, Json.valid_object_iff, Json.depth_le_succ_iff, Json.parts,
      List.forall_mem_map,
      Json.forall_mem_insert_iff (P := fun m => m.1.isSome = true ∧ m.2.Valid)
        ⟨rfl, .number (Numeral.tooLarge_ofInt hn)⟩,
      Json.forall_mem_insert_iff (P := fun m => m.2.depth ≤ room') (Nat.zero_le _),
      ← Json.valid_object_iff]
    rw [Json.depth_le_succ_iff, Json.parts, List.forall_mem_map] at hdepth
    exact ⟨hvalid, hdepth⟩
  rw [Entry.ofJson?_object_eq_some_iff]
  refine ⟨hsound, _, Json.fields?_object_eq_some_iff.2
    ⟨⟨hnames, List.forall_mem_cons.2 ⟨hsingle, honce⟩⟩, rfl⟩, ?_, ?_⟩
  · rw [Json.memberValue_eq_of_mem hsingle (List.mem_append_right before List.mem_cons_self)]
    have hinteger : integer? (.number (.ofInt n)) = some n := Numeral.integer?_ofInt hn
    rw [Json.optional?, hinteger, Option.map_some]
    simp
  · rw [← hfields]
    refine Place.ofFields?_of_same fun name hname => ?_
    rw [Json.memberValue_insert_of_ne (hother name hname) (hdistinct.2 name hname)]
    exact Place.Same.refl _ _ _

/-- The document whose only entry has slots among the members of a node. -/
def Document.enclosing (before after : List (Option String × Json)) (n : ℤ) : Json :=
  .object [(some "schedule",
    .array [.object (before ++ (some "slots", .number (.ofInt n)) :: after)])]

namespace Document

/-- The document has a text when the node has one. -/
theorem exists_text_enclosing {text : String} (n : ℤ)
    (h : Json.ofText? text = some (.object (before ++ after))) :
    ∃ text, Json.ofText? text = some (enclosing before after n) := by
  have hname : ∀ name : String, ∃ l, Token.Chunk (.text (some name)) l := fun name =>
    (Json.exists_lexeme_text name).imp fun _ => Token.Lexeme.chunk
  have hnumber : ∃ text, Json.ofText? text = some (.number (.ofInt n)) := by
    rw [Json.exists_text_iff]
    simpa [Json.tokens] using ⟨_, (Token.Lexeme.integer n).chunk⟩
  have hmembers := Json.exists_text_object_iff.1 ⟨text, h⟩
  rw [enclosing, Json.exists_text_object_iff, List.forall_mem_singleton]
  refine ⟨hname _, ?_⟩
  rw [Json.exists_text_array_iff, List.forall_mem_singleton, Json.exists_text_object_iff]
  exact (Json.forall_mem_insert_iff (P := fun m => (∃ l, Token.Chunk (.text m.1) l) ∧
    ∃ text, Json.ofText? text = some m.2) ⟨hname _, hnumber⟩).2 hmembers

theorem allotments_single {as : List Allotment} :
    allotments ⟨some [⟨some n, x⟩]⟩ = .ok as ↔ ∃ e, x.rule = .ok e ∧ 0 ≤ n ∧
      ∃ hn : n.toNat ≤ slotLimit, as = [⟨e, n.toNat, hn⟩] := by
  change Entry.allotments 0 [⟨some n, x⟩] = .ok as ↔ _
  rw [Entry.allotments_eq_ok_iff]
  constructor
  · rintro (_ | ⟨⟨hrule, hn⟩, ⟨⟩⟩)
    rename_i a
    cases hn
    exact ⟨a.rule, hrule, Int.natCast_nonneg _, a.slots_le, rfl⟩
  · rintro ⟨e, he, hn, hle, rfl⟩
    exact .cons ⟨he, by rw [Int.toNat_of_nonneg hn]⟩ .nil

/-- A node that is read from a text of its own is read as the same node in an entry, wherever the
slots of the entry stand among its members. -/
theorem ofText?_of_node {text : String}
    (htext : Json.ofText? text = some (.object (before ++ after)))
    (hx : Node.ofText? text = some x) (hslots : ∀ m ∈ before ++ after, m.1 ≠ some "slots")
    (hskipped : ∀ k, Place.Skipped .node (.object (before ++ after)) k → k.Valid)
    (hdepth : (Json.object (before ++ after)).depth ≤ 125) (hn : Numeral.Fits n) :
    (∃ text', Json.ofText? text' = some (enclosing before after n)) ∧
      ∀ text', Json.ofText? text' = some (enclosing before after n) →
        ofText? text' = some ⟨some [⟨some n, x⟩]⟩ ∧
        ∀ as, allotments ⟨some [⟨some n, x⟩]⟩ = .ok as ↔ ∃ e, x.rule = .ok e ∧ 0 ≤ n ∧
          ∃ hn : n.toNat ≤ slotLimit, as = [⟨e, n.toNat, hn⟩] := by
  refine ⟨exists_text_enclosing n htext, fun text' htext' => ⟨?_, fun as => allotments_single⟩⟩
  rw [Node.ofText?, htext, Option.bind_eq_bind, Option.bind_some] at hx
  have hentry := Entry.ofJson?_insert_slots hx hslots hskipped hdepth hn
  have hlist : Entry.listOfJson? 126
      (.array [.object (before ++ (some "slots", .number (.ofInt n)) :: after)]) =
        some [⟨some n, x⟩] := by
    rw [Entry.listOfJson?, List.mapM_cons, hentry]
    rfl
  have hfields : (enclosing before after n).fields? ["schedule"] =
      some (memberValue [(some "schedule", _)]) :=
    Json.fields?_object_eq_some_iff.2 ⟨by simp [Distinct, Json.occurrences], rfl⟩
  rw [ofText?, htext', Option.bind_eq_bind, Option.bind_some, nestingLimit, ofJson?, hfields,
    Option.bind_eq_bind, Option.bind_some]
  simp [memberValue, Json.optional?, hlist]

theorem ofText?_of_node_fridays : ∃ text,
    ofText? text = some ⟨some [⟨some 3, { type := some .weekly, day := some "Friday" }⟩]⟩ ∧
    allotments ⟨some [⟨some 3, { type := some .weekly, day := some "Friday" }⟩]⟩ =
      .ok [⟨.weekly (.every .friday), 3, by decide⟩] := by
  let before : List (Option String × Json) := [(some "type", .text (some "DAY_IN_WEEK"))]
  let after : List (Option String × Json) :=
    [(some "note", .array []), (some "day", .text (some "Friday"))]
  obtain ⟨text, htext⟩ : ∃ text, Json.ofText? text = some (.object (before ++ after)) :=
    ⟨"\x7b\"type\":\"DAY_IN_WEEK\",\"note\":[],\"day\":\"Friday\"\x7d",
      Json.ofText?_eq_some_iff_scan?.2 (by decide +kernel)⟩
  have hx : Node.ofText? text = some { type := some .weekly, day := some "Friday" } := by
    rw [Node.ofText?, htext]
    rfl
  have hvalid : (Json.object (before ++ after)).Valid := (Json.sound_iff (n := 2)).1 rfl |>.1
  obtain ⟨⟨text', henclosing⟩, hread⟩ := ofText?_of_node (n := 3) htext hx (by decide)
    (fun k hk => hk.valid hvalid) (by decide) ⟨by decide, by decide⟩
  obtain ⟨hdocument, hallotments⟩ := hread text' henclosing
  exact ⟨text', hdocument, (hallotments _).2 ⟨_, rfl, by decide, by decide, rfl⟩⟩

end Document

end Recurrence
