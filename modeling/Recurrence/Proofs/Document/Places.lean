import Recurrence.Document.Decoding
import Recurrence.Proofs.Json.Fields

/-!
# Places of a document

A value in a document is read by the reader of the place where it stands. The document, its entries
and the nodes have fields, and the place of a value follows from the field that it belongs to, be it
a member of an object or an item of an array. Two values are the same at a place when its reader
does not tell them apart, and a value with fields is read from fields that are the same.
-/

namespace Recurrence

open Json (keyword? text? integer?)

inductive Place
  | document | schedule | entry | node | nodes | value
  deriving DecidableEq

namespace Place

/-- The names that are known at a place. -/
def fieldNames : Place → List String
  | document => ["schedule"]
  | entry => "slots" :: Node.fieldNames
  | node => Node.fieldNames
  | _ => []

/-- The place of the field of a name. -/
def ofName : String → Place
  | "schedule" => schedule
  | "includedDate" => node
  | "excludedDate" => node
  | "expressions" => nodes
  | _ => value

/-- The place of the value of a member. Under a name that is not known nothing is read. -/
def member (p : Place) : Option String → Place
  | some name => if name ∈ p.fieldNames then ofName name else value
  | none => value

/-- The place of an item. Where an array stands for an object, it is that of a field. -/
def item : Place → ℕ → Place
  | schedule, _ => entry
  | nodes, _ => node
  | p, i => p.member p.fieldNames[i]?

/-- The reader of a place, with so much room, reads the same from both values. -/
def ReadsAlike : Place → ℕ → Json → Json → Prop
  | document, room, j, j' => Document.ofJson? room j = Document.ofJson? room j'
  | schedule, room, j, j' => Entry.listOfJson? room j = Entry.listOfJson? room j'
  | entry, room, j, j' => Entry.ofJson? room j = Entry.ofJson? room j'
  | node, room, j, j' => Node.ofJson? .collected room j = Node.ofJson? .collected room j'
  | nodes, room, j, j' => Node.listOfJson? .collected room j = Node.listOfJson? .collected room j'
  | value, _, j, j' => text? j = text? j' ∧ integer? j = integer? j' ∧
      (j = .object [] ↔ j' = .object []) ∧
      ∀ access room, j.keyword? access room = j'.keyword? access room

/-- The values cannot be told apart at a place, neither by its reader nor by what is around it. -/
structure Same (p : Place) (room : ℕ) (j j' : Json) : Prop where
  null : j = .null ↔ j' = .null
  sound : j.sound room = j'.sound room
  reads : p.ReadsAlike room j j'

/-- The fields of the values are the same, or none of them has any. -/
def FieldsSame (p : Place) (room : ℕ) (j j' : Json) : Prop :=
  Option.Rel (fun f f' => ∀ name ∈ p.fieldNames, (ofName name).Same room (f name) (f' name))
    (j.fields? p.fieldNames) (j'.fields? p.fieldNames)

variable {p : Place} {room : ℕ} {j j' : Json} {f f' : String → Json}
  {ms ms' : List (Option String × Json)} {js js' : List Json}

theorem Same.refl (p : Place) (room : ℕ) (j : Json) : p.Same room j j where
  null := Iff.rfl
  sound := rfl
  reads := by cases p <;> simp [ReadsAlike]

theorem Same.optional?_eq {α : Type} {read? : Json → Option α} (h : p.Same room j j')
    (hread : read? j = read? j') : j.optional? read? = j'.optional? read? := by
  by_cases hnull : j = .null
  · rw [hnull, h.null.1 hnull]
  · rw [Json.optional?_of_ne_null read? hnull, Json.optional?_of_ne_null read? (mt h.null.2 hnull),
      hread]

theorem ofFields?_of_same
    (h : ∀ name ∈ Node.fieldNames, (ofName name).Same room (f name) (f' name)) :
    Node.ofFields? .collected room (Node.ofJson? .collected room)
        (Node.listOfJson? .collected room) f =
      Node.ofFields? .collected room (Node.ofJson? .collected room)
        (Node.listOfJson? .collected room) f' := by
  have htext : ∀ {j j'}, value.Same room j j' → j.optional? text? = j'.optional? text? :=
    fun h => h.optional?_eq h.reads.1
  have hinteger : ∀ {j j'}, value.Same room j j' → j.optional? integer? = j'.optional? integer? :=
    fun h => h.optional?_eq h.reads.2.1
  have hkeyword : ∀ {α : Type} {g : String → α} {j j'}, value.Same room j j' →
      j.optional? (fun j => (j.keyword? .collected room).map g) =
        j'.optional? (fun j => (j.keyword? .collected room).map g) :=
    fun h => h.optional?_eq (by rw [h.reads.2.2.2])
  simp only [Node.fieldNames, List.forall_mem_cons] at h
  obtain ⟨h₁, h₂, h₃, h₄, h₅, h₆, h₇, h₈, h₉, h₁₀, h₁₁, h₁₂, -⟩ := h
  simp only [Node.ofFields?, hkeyword h₁, hkeyword h₂, htext h₃, htext h₄, htext h₅, htext h₆,
    htext h₇, hinteger h₈, htext h₉, h₁₀.optional?_eq h₁₀.reads, h₁₁.optional?_eq h₁₁.reads,
    h₁₂.optional?_eq h₁₂.reads]

theorem FieldsSame.bind_eq {α : Type} {g : (String → Json) → Option α}
    (h : FieldsSame p room j j')
    (hg : ∀ f f', (∀ name ∈ p.fieldNames, (ofName name).Same room (f name) (f' name)) →
      g f = g f') :
    (j.fields? p.fieldNames).bind g = (j'.fields? p.fieldNames).bind g := by
  unfold FieldsSame at h
  generalize j.fields? p.fieldNames = o at h
  generalize j'.fields? p.fieldNames = o' at h
  cases h with
  | none => rfl
  | some h => exact hg _ _ h

theorem document_reads (h : FieldsSame document room j j') :
    document.ReadsAlike (room + 1) j j' := by
  refine h.bind_eq fun f f' hf => ?_
  have hschedule := hf "schedule" List.mem_cons_self
  rw [hschedule.optional?_eq hschedule.reads]

theorem node_reads (h : FieldsSame node room j j') : node.ReadsAlike (room + 1) j j' :=
  h.bind_eq fun _ _ => ofFields?_of_same

theorem entry_reads
    (hsound : (Json.object ms).sound (room + 1) = (Json.object ms').sound (room + 1))
    (h : FieldsSame entry room (.object ms) (.object ms')) :
    entry.ReadsAlike (room + 1) (.object ms) (.object ms') := by
  change Entry.ofJson? (room + 1) (.object ms) = Entry.ofJson? (room + 1) (.object ms')
  unfold Entry.ofJson?
  simp only [hsound]
  split_ifs with hunsound
  · rfl
  · refine h.bind_eq fun f f' hf => ?_
    rw [fieldNames, List.forall_mem_cons] at hf
    rw [hf.1.optional?_eq hf.1.reads.2.1, ofFields?_of_same hf.2]

/-- Objects are the same at a place when the fields read from them are. -/
theorem same_object (hsound : (Json.object ms).sound room = (Json.object ms').sound room)
    (hfields : FieldsSame p (room - 1) (.object ms) (.object ms'))
    (hvalue : p = value → value.ReadsAlike room (.object ms) (.object ms')) :
    p.Same room (.object ms) (.object ms') := by
  refine ⟨by simp, hsound, ?_⟩
  cases room with
  | zero =>
      cases p with
      | value => exact hvalue rfl
      | _ => rfl
  | succ room =>
      cases p with
      | document => exact document_reads hfields
      | entry => exact entry_reads hsound hfields
      | node => exact node_reads hfields
      | value => exact hvalue rfl
      | _ => rfl

theorem mapM_replace {α : Type} {read? : Json → Option α} {front back : List Json}
    (h : read? j = read? j') :
    (front ++ j :: back).mapM read? = (front ++ j' :: back).mapM read? := by
  simp [List.mapM_append, h]

/-- Arrays are the same at a place when the fields or the items read from them are. -/
theorem same_array (hsound : (Json.array js).sound room = (Json.array js').sound room)
    (hfields : FieldsSame p (room - 1) (.array js) (.array js'))
    (hentries : p = schedule → js.mapM (Entry.ofJson? (room - 1)) =
      js'.mapM (Entry.ofJson? (room - 1)))
    (hnodes : p = nodes → js.mapM (Node.ofJson? .collected (room - 1)) =
      js'.mapM (Node.ofJson? .collected (room - 1))) :
    p.Same room (.array js) (.array js') := by
  refine ⟨by simp, hsound, ?_⟩
  cases room with
  | zero =>
      cases p with
      | value => exact ⟨rfl, rfl, by simp, fun _ _ => rfl⟩
      | _ => rfl
  | succ room =>
      cases p with
      | document => exact document_reads hfields
      | schedule => exact hentries rfl
      | entry => rfl
      | node => exact node_reads hfields
      | nodes => exact hnodes rfl
      | value => exact ⟨rfl, rfl, by simp, fun _ _ => rfl⟩

end Place

end Recurrence
