import Recurrence.Json.Token

/-!
# JSON values

A value is read from its tokens by a machine whose state is the stack of the arrays and objects
that are still open, so a text may nest as deeply as it likes. Members of an object are kept in
order, double names included. `Sound` values nest in bounded depth, their strings stand for texts
and their numbers are not too large.
-/

namespace Recurrence

inductive Json
  | null
  | bool (value : Bool)
  | number (n : Numeral)
  | text (value : Option String)
  | array (items : List Json)
  | object (members : List (Option String × Json))

namespace Json

/-- An array or an object that is still open, with what it holds so far, the latest first. An open
object also has the name whose value comes next. -/
inductive Frame
  | array (items : List Json)
  | object (members : List (Option String × Json)) (name : Option String)

/-- What has to come next, given the open arrays and objects around it. -/
inductive State
  | value (stack : List Frame)
  | firstItem (stack : List Frame)
  | firstName (stack : List Frame)
  | name (stack : List Frame) (members : List (Option String × Json))
  | colon (stack : List Frame) (members : List (Option String × Json)) (name : Option String)
  | after (stack : List Frame) (value : Json)

/-- A token where a value has to begin. -/
def begin? (stack : List Frame) : Token → Option State
  | .null => some (.after stack .null)
  | .bool b => some (.after stack (.bool b))
  | .number n => some (.after stack (.number n))
  | .text s => some (.after stack (.text s))
  | .openArray => some (.firstItem stack)
  | .openObject => some (.firstName stack)
  | _ => none

/-- A token behind a finished value. -/
def continue? (v : Json) : List Frame → Token → Option State
  | .array items :: stack, .comma => some (.value (.array (v :: items) :: stack))
  | .array items :: stack, .closeArray => some (.after stack (.array (v :: items).reverse))
  | .object members name :: stack, .comma => some (.name stack ((name, v) :: members))
  | .object members name :: stack, .closeObject =>
    some (.after stack (.object ((name, v) :: members).reverse))
  | _, _ => none

def step? : State → Token → Option State
  | .value stack, t => begin? stack t
  | .firstItem stack, .closeArray => some (.after stack (.array []))
  | .firstItem stack, t => begin? (.array [] :: stack) t
  | .firstName stack, .closeObject => some (.after stack (.object []))
  | .firstName stack, .text s => some (.colon stack [] s)
  | .name stack members, .text s => some (.colon stack members s)
  | .colon stack members name, .colon => some (.value (.object members name :: stack))
  | .after stack v, t => continue? v stack t
  | _, _ => none

/-- The value of a whole run: nothing is open at its end. -/
def State.value? : State → Option Json
  | .after [] v => some v
  | _ => none

def ofTokens? (ts : List Token) : Option Json := do
  let state ← ts.foldlM step? (.value [])
  state.value?

def ofText? (s : String) : Option Json := do
  let ts ← Token.scan? s.toList
  ofTokens? ts

/-- Whether a value nests at most so deep and everything in it can be represented. -/
def sound : Nat → Json → Bool
  | _, .null => true
  | _, .bool _ => true
  | _, .number n => !n.tooLarge
  | _, .text s => s.isSome
  | 0, .array _ => false
  | 0, .object _ => false
  | room + 1, .array items => items.all (sound room)
  | room + 1, .object members => members.all fun m => m.1.isSome && sound room m.2

/-- The values under the given names, `null` for a name that is not there. An array gives them in
the order of the names, and may stop early. An object gives each of them once at most, and may
hold other names that are left aside. -/
def fields? (names : List String) : Json → Option (String → Json)
  | .array items =>
    if items.length ≤ names.length then
      some fun name => ((names.zip items).lookup name).getD .null
    else none
  | .object members =>
    if members.all (fun m => m.1.isSome) &&
        names.all (fun name => decide (members.countP (fun m => m.1 == some name) ≤ 1)) then
      some fun name => (members.lookup (some name)).getD .null
    else none
  | _ => none

/-- `null` stands for a value that is not given. -/
def optional? (read? : Json → Option α) : Json → Option (Option α)
  | .null => some none
  | j => (read? j).map some

def text? : Json → Option String
  | .text s => s
  | _ => none

def integer? : Json → Option Int
  | .number n => n.integer?
  | _ => none

end Json

end Recurrence
