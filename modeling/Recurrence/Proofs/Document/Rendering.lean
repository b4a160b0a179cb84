import Mathlib
import Recurrence.Document.Decoding
import Recurrence.Proofs.Document.Rules
import Recurrence.Proofs.Json.Records

/-!
# Rendering documents

A document is rendered as JSON in many ways: a field that is absent may be left out or be `null`,
the members of an object come in any order, the document and each node inside another node may be an
object or an array of its fields, and a type or a pair of bounds that is unknown may be any text
that is no keyword. An entry is an object, with its slots beside the fields of its node.

Every document has a rendering. Where all its numbers have 64 bits, its renderings consist of texts
and such numbers, and so each of them has a text.
-/

namespace Recurrence

open Json (Record Members IsText IsInteger IsKeyword IsArray)

namespace Node

/-- The nodes directly below a node. -/
def children (n : Node) : List Node :=
  n.includedDate.toList ++ (n.excludedDate.toList ++ n.expressions.getD [])

variable {n m : Node}

theorem mem_children_of_included (h : m ∈ n.includedDate) : m ∈ n.children := by
  simp [children, Option.mem_def.1 h]

theorem mem_children_of_excluded (h : m ∈ n.excludedDate) : m ∈ n.children := by
  simp [children, Option.mem_def.1 h]

theorem mem_children_of_expressions {ns : List Node} (h : ns ∈ n.expressions) (hm : m ∈ ns) :
    m ∈ n.children := by
  simp [children, Option.mem_def.1 h, hm]

theorem induction_children {motive : Node → Prop}
    (node : ∀ n : Node, (∀ m ∈ n.children, motive m) → motive n) (n : Node) : motive n := by
  induction n using Node.induction with
  | node n hincluded hexcluded hmembers =>
      apply node
      intro m hm
      simp only [children, List.mem_append, Option.mem_toList] at hm
      rcases hm with hm | hm | hm
      · exact hincluded m hm
      · exact hexcluded m hm
      · cases hns : n.expressions with
        | none =>
            rw [hns] at hm
            cases hm
        | some ns =>
            rw [hns] at hm
            exact hmembers ns hns m hm

/-- Every number in a node has 64 bits. -/
inductive Fits : Node → Prop
  | node {n : Node} (hordinal : ∀ k ∈ n.ordinal, Numeral.Fits k)
      (hchildren : ∀ m ∈ n.children, Fits m) : Fits n

/-- The values of the fields of a node, given the renderings of the nodes below it. -/
structure Fields (below : Node → Json → Prop) (n : Node) (value : String → Option Json) :
    Prop where
  type : Option.Rel (IsKeyword NodeType.known NodeType.keyword .unknown) n.type (value "type")
  bounds : Option.Rel (IsKeyword BoundsType.known BoundsType.keyword .unknown) n.bounds (value "of")
  startDate : Option.Rel IsText n.startDate (value "startDate")
  endDate : Option.Rel IsText n.endDate (value "endDate")
  startMonth : Option.Rel IsText n.startMonth (value "startMonth")
  endMonth : Option.Rel IsText n.endMonth (value "endMonth")
  day : Option.Rel IsText n.day (value "day")
  ordinal : Option.Rel IsInteger n.ordinal (value "ordinal")
  referenceDate : Option.Rel IsText n.referenceDate (value "referenceDate")
  includedDate : Option.Rel below n.includedDate (value "includedDate")
  excludedDate : Option.Rel below n.excludedDate (value "excludedDate")
  expressions : Option.Rel (IsArray below) n.expressions (value "expressions")

/-- The renderings of a node. Those that it takes for the nodes below it are renderings of them. -/
inductive Renders : Node → Json → Prop
  | record {n : Node} {j : Json} {value : String → Option Json} {below : Node → Json → Prop}
      (hbelow : ∀ m ∈ n.children, ∀ k, below m k → Renders m k)
      (hrecord : Record fieldNames value j) (hfields : Fields below n value) : Renders n j

end Node

def Entry.Fits (e : Entry) : Prop := (∀ k ∈ e.slots, Numeral.Fits k) ∧ e.node.Fits

inductive Entry.Renders (e : Entry) : Json → Prop
  | object {members : List (Option String × Json)} {value : String → Option Json}
      (hmembers : Members ("slots" :: Node.fieldNames) value members)
      (hslots : Option.Rel IsInteger e.slots (value "slots"))
      (hfields : Node.Fields Node.Renders e.node value) : e.Renders (.object members)

def Document.Fits (d : Document) : Prop := ∀ es ∈ d.schedule, ∀ e ∈ es, e.Fits

inductive Document.Renders (d : Document) (j : Json) : Prop
  | record {value : String → Option Json} (hrecord : Record ["schedule"] value j)
      (hschedule : Option.Rel (IsArray Entry.Renders) d.schedule (value "schedule"))

namespace Node

variable {n : Node} {j : Json} {value : String → Option Json}

theorem Fields.plain {below : Node → Json → Prop} (h : Fields below n value)
    (hordinal : ∀ k ∈ n.ordinal, Numeral.Fits k)
    (hbelow : ∀ m ∈ n.children, ∀ k, below m k → k.Plain) :
    ∀ name ∈ fieldNames, ∀ k ∈ value name, k.Plain := by
  have htext : ∀ {o : Option String} {v : Option Json}, Option.Rel IsText o v →
      ∀ k ∈ v, k.Plain := fun h => Json.forall_mem_of_rel h fun _ _ _ hk => hk.plain
  have hmembers : ∀ ns ∈ n.expressions, ∀ k, IsArray below ns k → k.Plain :=
    fun ns hns k hk => hk.plain fun c hc => hbelow c (mem_children_of_expressions hns hc)
  simp only [fieldNames, List.forall_mem_cons]
  exact ⟨Json.forall_mem_of_rel h.type fun _ _ _ hk => hk.plain,
    Json.forall_mem_of_rel h.bounds fun _ _ _ hk => hk.plain, htext h.startDate, htext h.endDate,
    htext h.startMonth, htext h.endMonth, htext h.day,
    Json.forall_mem_of_rel h.ordinal fun k hk _ hj => hj.plain (hordinal k hk),
    htext h.referenceDate,
    Json.forall_mem_of_rel h.includedDate fun c hc => hbelow c (mem_children_of_included hc),
    Json.forall_mem_of_rel h.excludedDate fun c hc => hbelow c (mem_children_of_excluded hc),
    Json.forall_mem_of_rel h.expressions hmembers, by simp⟩

theorem Renders.plain (h : n.Renders j) (hn : n.Fits) : j.Plain := by
  induction n using induction_children generalizing j with
  | node n ih =>
      obtain ⟨hordinal, hchildren⟩ := hn
      obtain ⟨hbelow, hrecord, hfields⟩ := h
      exact hrecord.plain (hfields.plain hordinal fun c hc k hk =>
        ih c hc (hbelow c hc k hk) (hchildren c hc))

theorem exists_fields {below : Node → Json → Prop} (n : Node)
    (h : ∀ m ∈ n.children, ∃ k, below m k) (slots : Option Json) :
    ∃ value, value "slots" = slots ∧ Fields below n value := by
  have htext : ∀ o : Option String, ∃ v, Option.Rel IsText o v :=
    fun o => Json.exists_rel fun s _ => ⟨_, .text s⟩
  have htypes : ∀ t, t ∈ NodeType.known ∨ t = .unknown := by
    intro t
    cases t <;> decide
  have hpairs : ∀ t, t ∈ BoundsType.known ∨ t = .unknown := by
    intro t
    cases t <;> decide
  have hmember : ∃ v, Option.Rel (IsArray below) n.expressions v := Json.exists_rel fun ns hns =>
    Json.exists_isArray fun c hc => h c (mem_children_of_expressions hns hc)
  have hinteger : ∃ v, Option.Rel IsInteger n.ordinal v :=
    Json.exists_rel fun k _ => ⟨_, .integer k⟩
  obtain ⟨type, htype⟩ := Json.exists_rel (o := n.type) fun t _ =>
    Json.exists_isKeyword (htypes t) (by decide : ∀ t ∈ NodeType.known, t.keyword ≠ "")
  obtain ⟨bounds, hbounds⟩ := Json.exists_rel (o := n.bounds) fun t _ =>
    Json.exists_isKeyword (hpairs t) (by decide : ∀ t ∈ BoundsType.known, t.keyword ≠ "")
  obtain ⟨startDate, hstartDate⟩ := htext n.startDate
  obtain ⟨endDate, hendDate⟩ := htext n.endDate
  obtain ⟨startMonth, hstartMonth⟩ := htext n.startMonth
  obtain ⟨endMonth, hendMonth⟩ := htext n.endMonth
  obtain ⟨day, hday⟩ := htext n.day
  obtain ⟨ordinal, hordinal⟩ := hinteger
  obtain ⟨reference, hreference⟩ := htext n.referenceDate
  obtain ⟨included, hincluded⟩ := Json.exists_rel (o := n.includedDate) fun c hc =>
    h c (mem_children_of_included hc)
  obtain ⟨excluded, hexcluded⟩ := Json.exists_rel (o := n.excludedDate) fun c hc =>
    h c (mem_children_of_excluded hc)
  obtain ⟨members, hmembers⟩ := hmember
  let values := [slots, type, bounds, startDate, endDate, startMonth, endMonth, day, ordinal,
    reference, included, excluded, members]
  refine ⟨fun name => (("slots" :: fieldNames).zip values).lookup name |>.join, rfl, ?_⟩
  exact ⟨htype, hbounds, hstartDate, hendDate, hstartMonth, hendMonth, hday, hordinal, hreference,
    hincluded, hexcluded, hmembers⟩

theorem nodup_fieldNames : ("slots" :: fieldNames).Nodup := by decide

theorem exists_renders (n : Node) : ∃ j, n.Renders j := by
  induction n using induction_children with
  | node n ih =>
      obtain ⟨value, -, hfields⟩ := exists_fields n ih none
      obtain ⟨members, hmembers⟩ := Json.exists_members nodup_fieldNames.of_cons value
      exact ⟨_, .record (fun _ _ _ hk => hk) (.object hmembers) hfields⟩

end Node

namespace Entry

variable {e : Entry} {j : Json}

theorem Renders.plain (h : e.Renders j) (he : e.Fits) : j.Plain := by
  obtain ⟨hmembers, hslots, hfields⟩ := h
  obtain ⟨hinteger, hordinal, hchildren⟩ := he
  refine (Record.object hmembers).plain ?_
  rw [List.forall_mem_cons]
  exact ⟨Json.forall_mem_of_rel hslots fun k hk _ hj => hj.plain (hinteger k hk),
    hfields.plain hordinal fun c hc k hk => hk.plain (hchildren c hc)⟩

theorem exists_renders (e : Entry) : ∃ j, e.Renders j := by
  have hslots : ∃ v, Option.Rel IsInteger e.slots v := Json.exists_rel fun k _ => ⟨_, .integer k⟩
  obtain ⟨slots, hslots⟩ := hslots
  obtain ⟨value, rfl, hfields⟩ := Node.exists_fields e.node (fun m _ => m.exists_renders) slots
  obtain ⟨members, hmembers⟩ := Json.exists_members Node.nodup_fieldNames value
  exact ⟨_, .object hmembers hslots hfields⟩

end Entry

namespace Document

variable {d : Document} {j : Json}

theorem Renders.plain (h : d.Renders j) (hd : d.Fits) : j.Plain := by
  obtain ⟨hrecord, hschedule⟩ := h
  refine hrecord.plain ?_
  rw [List.forall_mem_singleton]
  exact Json.forall_mem_of_rel hschedule fun es hes k hk =>
    hk.plain fun e he j hj => hj.plain (hd es hes e he)

theorem exists_renders (d : Document) : ∃ j, d.Renders j := by
  have hschedule : ∃ v, Option.Rel (IsArray Entry.Renders) d.schedule v :=
    Json.exists_rel fun es _ => Json.exists_isArray fun e _ => e.exists_renders
  obtain ⟨schedule, hschedule⟩ := hschedule
  have hrecord : Record ["schedule"] (fun _ => schedule) _ :=
    .array (List.append_nil _) fun _ h => by cases h
  exact ⟨_, hrecord, hschedule⟩

end Document

end Recurrence
