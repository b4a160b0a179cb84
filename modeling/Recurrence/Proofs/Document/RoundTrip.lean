import Mathlib
import Recurrence.Proofs.Document.Rendering

/-!
# Reading renderings

The fields of a node are read one by one, each as it is rendered, and by induction on the nodes
below each rendering of a node is read as this node. An entry is read in the same way, and before
that it is sound unless it nests too deep. So a document is read back from each of its renderings
that nests at most 127 levels deep, however it is spelled, and from no other.
-/

namespace Recurrence

open Json (Record Members IsText IsKeyword IsArray ReadAs)

/-- A keyword names its member of the enumeration, and any other text names the unknown one. -/
theorem Json.IsKeyword.readAs {α : Type} {known : List α} {keyword : α → String} {unknown a : α}
    {j : Json} (h : IsKeyword known keyword unknown a j)
    (hdistinct : ∀ a ∈ known, ∀ b ∈ known, keyword a = keyword b → a = b) (access : Access)
    (room n : ℕ) :
    ReadAs (fun j => (j.keyword? access room).map fun s =>
      (known.find? fun t => keyword t == s).getD unknown) n a j := by
  cases h with
  | known ha =>
      refine Json.readAs_of_flat (by simp) (by simp [Json.depth]) ?_ n
      have hfind : (known.find? fun t => keyword t == keyword a) = some a := by
        cases hb : known.find? fun t => keyword t == keyword a with
        | none => simpa using List.find?_eq_none.1 hb a ha
        | some b =>
            have hkeyword : keyword b = keyword a := by simpa using List.find?_some hb
            rw [hdistinct b (List.mem_of_find?_eq_some hb) a ha hkeyword]
      rw [Json.keyword?, Option.map_some, hfind, Option.getD_some]
  | @unknown s hs =>
      refine Json.readAs_of_flat (by simp) (by simp [Json.depth]) ?_ n
      have hfind : (known.find? fun t => keyword t == s) = none := by
        rw [List.find?_eq_none]
        simpa using hs
      rw [Json.keyword?, Option.map_some, hfind, Option.getD_none]

namespace Node

variable {n m : Node} {j : Json} {value : String → Option Json} {access : Access} {room : ℕ}

theorem ofFields?_eq_some_iff {node? : Json → Option Node} {nodes? : Json → Option (List Node)}
    {field : String → Json} :
    ofFields? access room node? nodes? field = some m ↔
      (field "type").optional? (fun j => (j.keyword? access room).map NodeType.ofKeyword) =
        some m.type ∧
      (field "of").optional? (fun j => (j.keyword? access room).map BoundsType.ofKeyword) =
        some m.bounds ∧
      (field "startDate").optional? Json.text? = some m.startDate ∧
      (field "endDate").optional? Json.text? = some m.endDate ∧
      (field "startMonth").optional? Json.text? = some m.startMonth ∧
      (field "endMonth").optional? Json.text? = some m.endMonth ∧
      (field "day").optional? Json.text? = some m.day ∧
      (field "ordinal").optional? Json.integer? = some m.ordinal ∧
      (field "referenceDate").optional? Json.text? = some m.referenceDate ∧
      (field "includedDate").optional? node? = some m.includedDate ∧
      (field "excludedDate").optional? node? = some m.excludedDate ∧
      (field "expressions").optional? nodes? = some m.expressions := by
  cases m
  simp only [ofFields?, Option.bind_eq_bind, Option.bind_eq_some_iff, Option.pure_def,
    Option.some.injEq]
  constructor
  · rintro ⟨_, h₁, _, h₂, _, h₃, _, h₄, _, h₅, _, h₆, _, h₇, _, h₈, _, h₉, _, h₁₀, _, h₁₁, _, h₁₂,
      h⟩
    cases h
    exact ⟨h₁, h₂, h₃, h₄, h₅, h₆, h₇, h₈, h₉, h₁₀, h₁₁, h₁₂⟩
  · rintro ⟨h₁, h₂, h₃, h₄, h₅, h₆, h₇, h₈, h₉, h₁₀, h₁₁, h₁₂⟩
    exact ⟨_, h₁, _, h₂, _, h₃, _, h₄, _, h₅, _, h₆, _, h₇, _, h₈, _, h₉, _, h₁₀, _, h₁₁, _, h₁₂,
      rfl⟩

theorem eq_iff : m = n ↔ m.type = n.type ∧ m.bounds = n.bounds ∧ m.startDate = n.startDate ∧
    m.endDate = n.endDate ∧ m.startMonth = n.startMonth ∧ m.endMonth = n.endMonth ∧
    m.day = n.day ∧ m.ordinal = n.ordinal ∧ m.referenceDate = n.referenceDate ∧
    m.includedDate = n.includedDate ∧ m.excludedDate = n.excludedDate ∧
    m.expressions = n.expressions := by
  cases m
  cases n
  simp

/-- The fields of a node are read as they are rendered, when the nodes below it are. -/
theorem Fields.ofFields?_eq_some_iff {below : Node → Json → Prop} (h : Fields below n value)
    (hordinal : ∀ k ∈ n.ordinal, Numeral.Fits k) {field : String → Json}
    (hfield : ∀ name ∈ fieldNames, field name = (value name).getD .null)
    (hbelow : ∀ m ∈ n.children, ∀ k, below m k → ∀ room, ReadAs (ofJson? access room) room m k) :
    ofFields? access room (ofJson? access room) (listOfJson? access room) field = some m ↔
      m = n ∧ ∀ name ∈ fieldNames, ∀ k ∈ value name, k.depth ≤ room := by
  have htypes : ∀ a ∈ NodeType.known, ∀ b ∈ NodeType.known, a.keyword = b.keyword → a = b := by
    decide
  have hpairs : ∀ a ∈ BoundsType.known, ∀ b ∈ BoundsType.known, a.keyword = b.keyword → a = b := by
    decide
  have hincluded : ∀ c ∈ n.includedDate, ∀ k, below c k → ReadAs (ofJson? access room) room c k :=
    fun c hc k hk => hbelow c (mem_children_of_included hc) k hk room
  have hexcluded : ∀ c ∈ n.excludedDate, ∀ k, below c k → ReadAs (ofJson? access room) room c k :=
    fun c hc k hk => hbelow c (mem_children_of_excluded hc) k hk room
  have hmembers : ∀ ns ∈ n.expressions, ∀ k, IsArray below ns k →
      ReadAs (listOfJson? access room) room ns k := by
    intro ns hns k hk
    have hzero : ∀ j, listOfJson? access 0 j = none := fun _ => rfl
    have hsucc : ∀ room js, listOfJson? access (room + 1) (.array js) =
        js.mapM (ofJson? access room) := fun _ _ => rfl
    exact hk.readAs hzero hsucc (fun c hc => hbelow c (mem_children_of_expressions hns hc)) room
  have htype : ((value "type").getD .null).optional?
      (fun j => (j.keyword? access room).map NodeType.ofKeyword) = some m.type ↔
        m.type = n.type ∧ ∀ k ∈ value "type", k.depth ≤ room :=
    Json.optional?_eq_some_iff h.type (fun _ _ _ hk => hk.readAs htypes access room room) m.type
  have hbounds : ((value "of").getD .null).optional?
      (fun j => (j.keyword? access room).map BoundsType.ofKeyword) = some m.bounds ↔
        m.bounds = n.bounds ∧ ∀ k ∈ value "of", k.depth ≤ room :=
    Json.optional?_eq_some_iff h.bounds (fun _ _ _ hk => hk.readAs hpairs access room room) m.bounds
  have htext : ∀ {o : Option String} {v : Option Json}, Option.Rel IsText o v →
      ∀ b, (v.getD .null).optional? Json.text? = some b ↔ b = o ∧ ∀ k ∈ v, k.depth ≤ room :=
    fun h => Json.optional?_eq_some_iff h fun _ _ _ hk => hk.readAs room
  simp only [fieldNames, List.forall_mem_cons] at hfield ⊢
  obtain ⟨f₁, f₂, f₃, f₄, f₅, f₆, f₇, f₈, f₉, f₁₀, f₁₁, f₁₂, -⟩ := hfield
  rw [Node.ofFields?_eq_some_iff, eq_iff, f₁, f₂, f₃, f₄, f₅, f₆, f₇, f₈, f₉, f₁₀, f₁₁, f₁₂, htype,
    hbounds, htext h.startDate, htext h.endDate, htext h.startMonth, htext h.endMonth, htext h.day,
    Json.optional?_eq_some_iff h.ordinal fun k hk _ hj => hj.readAs (hordinal k hk) room,
    htext h.referenceDate, Json.optional?_eq_some_iff h.includedDate hincluded,
    Json.optional?_eq_some_iff h.excludedDate hexcluded,
    Json.optional?_eq_some_iff h.expressions hmembers]
  constructor
  · rintro ⟨⟨e₁, d₁⟩, ⟨e₂, d₂⟩, ⟨e₃, d₃⟩, ⟨e₄, d₄⟩, ⟨e₅, d₅⟩, ⟨e₆, d₆⟩, ⟨e₇, d₇⟩, ⟨e₈, d₈⟩,
      ⟨e₉, d₉⟩, ⟨e₁₀, d₁₀⟩, ⟨e₁₁, d₁₁⟩, e₁₂, d₁₂⟩
    exact ⟨⟨e₁, e₂, e₃, e₄, e₅, e₆, e₇, e₈, e₉, e₁₀, e₁₁, e₁₂⟩, d₁, d₂, d₃, d₄, d₅, d₆, d₇, d₈, d₉,
      d₁₀, d₁₁, d₁₂, by simp⟩
  · rintro ⟨⟨e₁, e₂, e₃, e₄, e₅, e₆, e₇, e₈, e₉, e₁₀, e₁₁, e₁₂⟩, d₁, d₂, d₃, d₄, d₅, d₆, d₇, d₈, d₉,
      d₁₀, d₁₁, d₁₂, -⟩
    exact ⟨⟨e₁, d₁⟩, ⟨e₂, d₂⟩, ⟨e₃, d₃⟩, ⟨e₄, d₄⟩, ⟨e₅, d₅⟩, ⟨e₆, d₆⟩, ⟨e₇, d₇⟩, ⟨e₈, d₈⟩, ⟨e₉, d₉⟩,
      ⟨e₁₀, d₁₀⟩, ⟨e₁₁, d₁₁⟩, e₁₂, d₁₂⟩

/-- A rendering of a node is read as the node, where it nests at most so deep. -/
theorem Renders.readAs (h : n.Renders j) (hn : n.Fits) (access : Access) (room : ℕ) :
    ReadAs (ofJson? access room) room n j := by
  induction n using induction_children generalizing j room with
  | node n ih =>
      obtain ⟨hordinal, hchildren⟩ := hn
      obtain ⟨hbelow, hrecord, hfields⟩ := h
      refine hrecord.readAs rfl (fun room m => ?_) room
      obtain ⟨field, hj, hfield⟩ := hrecord.exists_fields?
      rw [ofJson?, hj]
      exact hfields.ofFields?_eq_some_iff hordinal hfield fun c hc k hk room =>
        ih c hc (hbelow c hc k hk) (hchildren c hc) room

end Node

namespace Entry

variable {e : Entry} {j : Json}

theorem ofJson?_object_eq_some_iff {room : ℕ} {members : List (Option String × Json)} :
    ofJson? (room + 1) (.object members) = some e ↔
      (Json.object members).sound (room + 1) = true ∧
      ∃ field, (Json.object members).fields? ("slots" :: Node.fieldNames) = some field ∧
        (field "slots").optional? Json.integer? = some e.slots ∧
        Node.ofFields? .collected room (Node.ofJson? .collected room)
          (Node.listOfJson? .collected room) field = some e.node := by
  obtain ⟨slots, node⟩ := e
  cases hs : (Json.object members).sound (room + 1) with
  | false => simp [ofJson?, hs]
  | true => simp [ofJson?, hs, Option.bind_eq_some_iff]

theorem Renders.readAs (h : e.Renders j) (he : e.Fits) (room : ℕ) :
    ReadAs (ofJson? room) room e j := by
  have hplain := h.plain he
  obtain ⟨hmembers, hslots, hfields⟩ := h
  obtain ⟨hinteger, hordinal, hchildren⟩ := he
  rename_i members value
  have hrecord : Record ("slots" :: Node.fieldNames) value (.object members) := .object hmembers
  refine hrecord.readAs rfl (fun room b => ?_) room
  obtain ⟨field, hj, hfield⟩ := hrecord.exists_fields?
  have hsound := (hplain.sound_iff (room + 1)).trans hrecord.depth_le_succ_iff
  rw [List.forall_mem_cons] at hfield hsound ⊢
  have hslots' : (field "slots").optional? Json.integer? = some b.slots ↔
      b.slots = e.slots ∧ ∀ j ∈ value "slots", j.depth ≤ room := by
    rw [hfield.1]
    exact Json.optional?_eq_some_iff hslots (fun k hk _ hj => hj.readAs (hinteger k hk) room) _
  have hnode : Node.ofFields? .collected room (Node.ofJson? .collected room)
      (Node.listOfJson? .collected room) field = some b.node ↔
        b.node = e.node ∧ ∀ name ∈ Node.fieldNames, ∀ j ∈ value name, j.depth ≤ room :=
    hfields.ofFields?_eq_some_iff hordinal hfield.2 fun c hc k hk room =>
      hk.readAs (hchildren c hc) .collected room
  obtain ⟨slots, node⟩ := e
  obtain ⟨slots', node'⟩ := b
  rw [ofJson?_object_eq_some_iff, hsound, hj, Entry.mk.injEq]
  constructor
  · rintro ⟨hroom, _, ⟨⟩, hs, hn⟩
    exact ⟨⟨(hslots'.1 hs).1, (hnode.1 hn).1⟩, hroom⟩
  · rintro ⟨⟨hs, hn⟩, hslotsRoom, hfieldsRoom⟩
    exact ⟨⟨hslotsRoom, hfieldsRoom⟩, field, rfl, hslots'.2 ⟨hs, hslotsRoom⟩,
      hnode.2 ⟨hn, hfieldsRoom⟩⟩

end Entry

namespace Document

variable {d : Document} {j : Json}

theorem Renders.readAs (h : d.Renders j) (hd : d.Fits) (room : ℕ) :
    ReadAs (ofJson? room) room d j := by
  obtain ⟨hrecord, hschedule⟩ := h
  rename_i value
  refine hrecord.readAs rfl (fun room b => ?_) room
  obtain ⟨field, hj, hfield⟩ := hrecord.exists_fields?
  have hzero : ∀ j, Entry.listOfJson? 0 j = none := fun _ => rfl
  have hsucc : ∀ room js, Entry.listOfJson? (room + 1) (.array js) =
      js.mapM (Entry.ofJson? room) := fun _ _ => rfl
  have hentries : ∀ es, (field "schedule").optional? (Entry.listOfJson? room) = some es ↔
      es = d.schedule ∧ ∀ k ∈ value "schedule", k.depth ≤ room := by
    rw [hfield "schedule" List.mem_cons_self]
    exact Json.optional?_eq_some_iff hschedule fun es hes k hk =>
      hk.readAs hzero hsucc (fun e he j hj => hj.readAs (hd es hes e he)) room
  rw [List.forall_mem_singleton, ofJson?, hj]
  simp only [Option.bind_eq_bind, Option.bind_some, Option.bind_eq_some_iff, hentries,
    Option.pure_def, Option.some.injEq]
  constructor
  · rintro ⟨_, ⟨rfl, hroom⟩, rfl⟩
    exact ⟨rfl, hroom⟩
  · rintro ⟨rfl, hroom⟩
    exact ⟨_, ⟨rfl, hroom⟩, rfl⟩

/-- How deep a rendering nests decides whether the document is read back from its spellings. -/
theorem ofText?_of_spells {text : String} (hd : d.Fits) (hj : d.Renders j) (htext : j.Spells text) :
    ofText? text = if j.depth ≤ 127 then some d else none := by
  have hread := (hj.readAs hd nestingLimit).2
  rw [ofText?, Json.ofText?_of_spells htext, Option.bind_eq_bind, Option.bind_some]
  split_ifs with hdepth
  · exact (hread d).2 ⟨rfl, hdepth⟩
  · rw [Option.eq_none_iff_forall_ne_some]
    intro b hb
    exact hdepth ((hread b).1 hb).2

/-- A document is read back from each of its renderings, in whichever way it is spelled, unless the
rendering nests too deep. -/
theorem ofText?_of_rendering (d : Document) (hd : d.Fits) :
    (∃ j, d.Renders j) ∧ (∀ j, d.Renders j → ∃ text, j.Spells text) ∧
      ∀ j text, d.Renders j → j.Spells text →
        ofText? text = if j.depth ≤ 127 then some d else none := by
  refine ⟨d.exists_renders, fun j hj => Json.exists_spells_of_plain (hj.plain hd), ?_⟩
  intro j text hj htext
  exact ofText?_of_spells hd hj htext

theorem ofText?_of_rendering_nested :
    ofText? "[[\x7b\"\\u0073lots\":-1,\"expressions\":[[]]\x7d]]" =
      some ⟨some [⟨some (-1), { expressions := some [{}] }⟩]⟩ := by
  let text := "[[\x7b\"\\u0073lots\":-1,\"expressions\":[[]]\x7d]]"
  let node : Node := { expressions := some [{}] }
  let members := [(some "slots", Json.number (.ofInt (-1))),
    (some "expressions", Json.array [.array []])]
  let value := fun name => members.lookup (some name)
  let j := Json.array [.array [.object members]]
  have hnode : node.Fits := by
    refine .node (fun k hk => by cases hk) fun m hm => ?_
    obtain rfl := List.mem_singleton.1 hm
    exact .node (fun k hk => by cases hk) fun m hm => by cases hm
  have hfits : Document.Fits ⟨some [⟨some (-1), node⟩]⟩ := by
    rintro _ ⟨⟩ e he
    obtain rfl := List.mem_singleton.1 he
    exact ⟨by rintro _ ⟨⟩; exact ⟨by decide, by decide⟩, hnode⟩
  have hempty : Node.Renders {} (.array []) := by
    have hrecord : Record Node.fieldNames (fun _ => none) (.array []) :=
      .array (List.nil_append _) fun _ _ => rfl
    exact .record (fun _ _ _ hk => hk) hrecord ⟨.none, .none, .none, .none, .none, .none, .none,
      .none, .none, .none, .none, .none⟩
  have hfields : Node.Fields Node.Renders node value :=
    ⟨.none, .none, .none, .none, .none, .none, .none, .none, .none, .none, .none,
      .some (.array (.cons hempty .nil))⟩
  have hmembers : Members ("slots" :: Node.fieldNames) value members := by
    refine ⟨by decide, ?_, by decide⟩
    rw [List.forall_mem_cons, List.forall_mem_singleton]
    exact ⟨⟨"slots", by decide, rfl⟩, ⟨"expressions", by decide, rfl⟩⟩
  have hentry : Entry.Renders ⟨some (-1), node⟩ (.object members) :=
    .object hmembers (.some (.integer _)) hfields
  have hrenders : Document.Renders ⟨some [⟨some (-1), node⟩]⟩ j := by
    have hrecord : Record ["schedule"] (fun _ => some (.array [.object members])) j :=
      .array (List.append_nil ["schedule"]) fun _ h => by cases h
    exact ⟨hrecord, .some (.array (.cons hentry .nil))⟩
  have hslots : Token.Lexeme (.text (some "slots")) "\"\\u0073lots\"".toList := by
    have hzero : Literal.IsHex '0' 0 := ⟨by decide, Or.inl rfl⟩
    have hseven : Literal.IsHex '7' 7 := ⟨by decide, Or.inl rfl⟩
    have hthree : Literal.IsHex '3' 3 := ⟨by decide, Or.inl rfl⟩
    have hbehind : Literal.Spells "lots".toList "lots".toList :=
      Literal.spells_self (by simp)
    have hunit : Literal.Hex ['0', '0', '7', '3'] 's'.toNat := .digits hzero hzero hseven hthree
    have hname : Literal.Spells "slots".toList "\\u0073lots".toList := .unit hunit hbehind
    exact .text hname
  have hexpressions : Token.Lexeme (.text (some "expressions")) "\"expressions\"".toList := by
    have hname : Literal.Spells "expressions".toList "expressions".toList :=
      Literal.spells_self (by simp)
    exact .text hname
  let lexemes := [(Token.openArray, ['[']), (.openArray, ['[']), (.openObject, ['\x7b']),
    (.text (some "slots"), "\"\\u0073lots\"".toList), (.colon, [':']),
    (.number (.ofInt (-1)), (Text.signed (-1)).toList), (.comma, [',']),
    (.text (some "expressions"), "\"expressions\"".toList), (.colon, [':']), (.openArray, ['[']),
    (.openArray, ['[']), (.closeArray, [']']), (.closeArray, [']']), (.closeObject, ['\x7d']),
    (.closeArray, [']']), (.closeArray, [']'])]
  have hlexemes : ∀ p ∈ lexemes, Token.Lexeme p.1 p.2 := by
    have hword : ∀ p ∈ Token.words, Token.Lexeme p.1 p.2 := fun p hp => .word hp
    simp only [Token.words, lexemes, List.forall_mem_cons] at hword ⊢
    obtain ⟨hopenArray, hcloseArray, hopenObject, hcloseObject, hcomma, hcolon, -⟩ := hword
    exact ⟨hopenArray, hopenArray, hopenObject, hslots, hcolon, .integer (-1), hcomma, hexpressions,
      hcolon, hopenArray, hopenArray, hcloseArray, hcloseArray, hcloseObject, hcloseArray,
      hcloseArray, by simp⟩
  have hspells : j.Spells text := by
    have htokens : j.tokens = lexemes.map Prod.fst := by decide
    have htext : text.toList = lexemes.flatMap Prod.snd := by decide
    rw [Json.Spells, htokens, htext]
    exact Token.spells_flatMap lexemes hlexemes
  have hread := (ofText?_of_rendering _ hfits).2.2 j text hrenders hspells
  rwa [if_pos (by decide)] at hread

end Document

end Recurrence
