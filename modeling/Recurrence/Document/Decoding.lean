import Recurrence.Document.Basic
import Recurrence.Json.Basic

/-!
# Documents from JSON

A document and a node are read from an object, or from an array of the field values in order. A
node on its own is read directly and passes over the values under names it does not know. An entry
is an object that holds the fields of its node beside its slots; it is collected as a whole before
it is read, so that all of it has to be sound. Arrays and objects nest at most 127 levels deep.
-/

namespace Recurrence

/-- How a node is reached: straight from the text, or inside an entry collected before. -/
inductive Access
  | direct | collected
  deriving DecidableEq

/-- How deeply arrays and objects may nest. -/
def nestingLimit : Nat := 127

/-- A keyword is a text, or an object whose only member is named by the keyword and holds nothing.
An empty object holds nothing as well where it has been collected. -/
def Json.keyword? (access : Access) (room : Nat) : Json → Option String
  | .text s => s
  | .object [(some s, .null)] => if room = 0 then none else some s
  | .object [(some s, .object [])] =>
    if room = 0 ∨ access = .direct then none else some s
  | _ => none

namespace Node

def fieldNames : List String :=
  ["type", "of", "startDate", "endDate", "startMonth", "endMonth", "day", "ordinal",
    "referenceDate", "includedDate", "excludedDate", "expressions"]

/-- The node whose field values are given by their names. -/
def ofFields? (access : Access) (room : Nat) (node? : Json → Option Node)
    (nodes? : Json → Option (List Node)) (field : String → Json) : Option Node := do
  let keyword? := Json.keyword? access room
  return {
    type := ← (field "type").optional? fun j => (keyword? j).map NodeType.ofKeyword
    bounds := ← (field "of").optional? fun j => (keyword? j).map BoundsType.ofKeyword
    startDate := ← (field "startDate").optional? Json.text?
    endDate := ← (field "endDate").optional? Json.text?
    startMonth := ← (field "startMonth").optional? Json.text?
    endMonth := ← (field "endMonth").optional? Json.text?
    day := ← (field "day").optional? Json.text?
    ordinal := ← (field "ordinal").optional? Json.integer?
    referenceDate := ← (field "referenceDate").optional? Json.text?
    includedDate := ← (field "includedDate").optional? node?
    excludedDate := ← (field "excludedDate").optional? node?
    expressions := ← (field "expressions").optional? nodes? }

mutual

/-- The node that a value stands for, with room for so many levels of nesting. -/
def ofJson? (access : Access) : Nat → Json → Option Node
  | 0, _ => none
  | room + 1, j => do
    let field ← j.fields? fieldNames
    ofFields? access room (ofJson? access room) (listOfJson? access room) field

def listOfJson? (access : Access) : Nat → Json → Option (List Node)
  | room + 1, .array items => items.mapM (ofJson? access room)
  | _, _ => none

end

def ofText? (s : String) : Option Node := do
  let j ← Json.ofText? s
  ofJson? .direct nestingLimit j

end Node

namespace Entry

def ofJson? : Nat → Json → Option Entry
  | room + 1, .object members => do
    let j := Json.object members
    if !j.sound (room + 1) then none
    else do
      let field ← j.fields? ("slots" :: Node.fieldNames)
      let slots ← (field "slots").optional? Json.integer?
      let node ← Node.ofFields? .collected room (Node.ofJson? .collected room)
        (Node.listOfJson? .collected room) field
      return ⟨slots, node⟩
  | _, _ => none

def listOfJson? : Nat → Json → Option (List Entry)
  | room + 1, .array items => items.mapM (ofJson? room)
  | _, _ => none

end Entry

namespace Document

def ofJson? : Nat → Json → Option Document
  | room + 1, j => do
    let field ← j.fields? ["schedule"]
    let schedule ← (field "schedule").optional? (Entry.listOfJson? room)
    return ⟨schedule⟩
  | 0, _ => none

def ofText? (s : String) : Option Document := do
  let j ← Json.ofText? s
  ofJson? nestingLimit j

end Document

end Recurrence
