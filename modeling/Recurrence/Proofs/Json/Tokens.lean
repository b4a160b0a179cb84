import Mathlib
import Recurrence.Json.Basic

/-!
# The tokens of a value

A JSON value has one sequence of tokens, apart from which the texts of the value differ only in
white space and in the spelling of strings. The machine that reads values from tokens goes from
a state in which a value has to begin to one in which this value is finished, whatever is open
around it, and so it reads the value of every such sequence. It reads no other sequence: in every
state it has gone through the tokens of what it holds.
-/

namespace Recurrence

/-- The tokens that are written in one way. -/
def Token.words : List (Token × List Char) :=
  [(.openArray, ['[']), (.closeArray, [']']), (.openObject, ['{']), (.closeObject, ['}']),
    (.comma, [',']), (.colon, [':']), (.null, ['n', 'u', 'l', 'l']),
    (.bool true, ['t', 'r', 'u', 'e']), (.bool false, ['f', 'a', 'l', 's', 'e'])]

namespace Json

mutual

def tokens : Json → List Token
  | null => [.null]
  | bool b => [.bool b]
  | number n => [.number n]
  | text s => [.text s]
  | array items => .openArray :: itemTokens items
  | object members => .openObject :: memberTokens members

/-- The tokens behind an opening bracket, the closing one included. -/
def itemTokens : List Json → List Token
  | [] => [.closeArray]
  | j :: js => j.tokens ++ furtherItemTokens js

def furtherItemTokens : List Json → List Token
  | [] => [.closeArray]
  | j :: js => .comma :: (j.tokens ++ furtherItemTokens js)

def memberTokens : List (Option String × Json) → List Token
  | [] => [.closeObject]
  | (name, j) :: ms => .text name :: .colon :: (j.tokens ++ furtherMemberTokens ms)

def furtherMemberTokens : List (Option String × Json) → List Token
  | [] => [.closeObject]
  | (name, j) :: ms => .comma :: .text name :: .colon :: (j.tokens ++ furtherMemberTokens ms)

end

section Tokens

variable {P : Token → Prop} {js : List Json} {ms : List (Option String × Json)}
  (hwords : ∀ p ∈ Token.words, P p.1)
include hwords

theorem forall_mem_furtherItemTokens_iff :
    (∀ t ∈ furtherItemTokens js, P t) ↔ ∀ j ∈ js, ∀ t ∈ j.tokens, P t := by
  have hcomma : P .comma := hwords (.comma, [',']) (by decide)
  have hclose : P .closeArray := hwords (.closeArray, [']']) (by decide)
  induction js with
  | nil => simp [furtherItemTokens, hclose]
  | cons j js ih =>
      simp only [furtherItemTokens, List.forall_mem_cons, List.forall_mem_append, ih, hcomma,
        true_and]

theorem forall_mem_furtherMemberTokens_iff : (∀ t ∈ furtherMemberTokens ms, P t) ↔
    ∀ m ∈ ms, P (.text m.1) ∧ ∀ t ∈ m.2.tokens, P t := by
  have hcomma : P .comma := hwords (.comma, [',']) (by decide)
  have hcolon : P .colon := hwords (.colon, [':']) (by decide)
  have hclose : P .closeObject := hwords (.closeObject, ['\x7d']) (by decide)
  induction ms with
  | nil => simp [furtherMemberTokens, hclose]
  | cons m ms ih =>
      simp only [furtherMemberTokens, List.forall_mem_cons, List.forall_mem_append, ih, hcomma,
        hcolon, true_and, and_assoc]

/-- A property of the words holds of all tokens of an array when it holds of those of the items. -/
theorem forall_mem_tokens_array_iff :
    (∀ t ∈ (array js).tokens, P t) ↔ ∀ j ∈ js, ∀ t ∈ j.tokens, P t := by
  have hopen : P .openArray := hwords (.openArray, ['[']) (by decide)
  have hclose : P .closeArray := hwords (.closeArray, [']']) (by decide)
  cases js with
  | nil => simp [tokens, itemTokens, hopen, hclose]
  | cons j js =>
      simp only [tokens, itemTokens, List.forall_mem_cons, List.forall_mem_append,
        forall_mem_furtherItemTokens_iff hwords, hopen, true_and]

theorem forall_mem_tokens_object_iff : (∀ t ∈ (object ms).tokens, P t) ↔
    ∀ m ∈ ms, P (.text m.1) ∧ ∀ t ∈ m.2.tokens, P t := by
  have hopen : P .openObject := hwords (.openObject, ['\x7b']) (by decide)
  have hcolon : P .colon := hwords (.colon, [':']) (by decide)
  have hclose : P .closeObject := hwords (.closeObject, ['\x7d']) (by decide)
  cases ms with
  | nil => simp [tokens, memberTokens, hopen, hclose]
  | cons m ms =>
      simp only [tokens, memberTokens, List.forall_mem_cons, List.forall_mem_append,
        forall_mem_furtherMemberTokens_iff hwords, hopen, hcolon, true_and, and_assoc]

end Tokens

/-- A property holds of every value when it passes to a value from the values in it. -/
theorem induction {motive : Json → Prop} (null : motive null) (bool : ∀ b, motive (bool b))
    (number : ∀ n, motive (number n)) (text : ∀ s, motive (text s))
    (array : ∀ js, (∀ j ∈ js, motive j) → motive (array js))
    (object : ∀ ms, (∀ m ∈ ms, motive m.2) → motive (object ms)) (j : Json) : motive j := by
  apply @Json.rec motive (fun js => ∀ j ∈ js, motive j) (fun ms => ∀ m ∈ ms, motive m.2)
    (fun m => motive m.2) null bool number text array object
  · intro j hj
    cases hj
  · intro j js hj hjs k hk
    rcases List.mem_cons.1 hk with rfl | hk
    · exact hj
    · exact hjs k hk
  · intro m hm
    cases hm
  · intro m ms hm hms k hk
    rcases List.mem_cons.1 hk with rfl | hk
    · exact hm
    · exact hms k hk
  · intro name j hj
    exact hj

/-- The machine reads a value from its tokens. -/
def Reads (j : Json) : Prop :=
  ∀ stack, j.tokens.foldlM step? (.value stack) = some (.after stack j)

theorem foldlM_tokens_firstItem (j : Json) (stack : List Frame) :
    j.tokens.foldlM step? (.firstItem stack) =
      j.tokens.foldlM step? (.value (.array [] :: stack)) := by
  cases j <;> rfl

theorem foldlM_furtherItemTokens {js : List Json} (h : ∀ j ∈ js, j.Reads) (stack : List Frame)
    (read : List Json) (j : Json) :
    (furtherItemTokens js).foldlM step? (.after (.array read :: stack) j) =
      some (.after stack (.array (read.reverse ++ j :: js))) := by
  induction js generalizing read j with
  | nil => simp [furtherItemTokens, step?, continue?]
  | cons k js ih =>
      have hk : k.Reads := h k List.mem_cons_self
      have hjs := ih (fun i hi => h i (List.mem_cons_of_mem k hi)) (j :: read) k
      rw [furtherItemTokens, List.foldlM_cons, step?, continue?]
      simp [List.foldlM_append, hk _, hjs]

theorem reads_array {js : List Json} (h : ∀ j ∈ js, j.Reads) : (array js).Reads := by
  intro stack
  cases js with
  | nil => rfl
  | cons j js =>
      have hj : j.Reads := h j List.mem_cons_self
      have hjs := foldlM_furtherItemTokens (fun k hk => h k (List.mem_cons_of_mem j hk)) stack [] j
      rw [tokens, itemTokens, List.foldlM_cons, step?, begin?]
      simp [List.foldlM_append, foldlM_tokens_firstItem, hj _, hjs]

theorem foldlM_furtherMemberTokens {ms : List (Option String × Json)}
    (h : ∀ m ∈ ms, m.2.Reads) (stack : List Frame) (read : List (Option String × Json))
    (name : Option String) (j : Json) :
    (furtherMemberTokens ms).foldlM step? (.after (.object read name :: stack) j) =
      some (.after stack (.object (read.reverse ++ (name, j) :: ms))) := by
  induction ms generalizing read name j with
  | nil => simp [furtherMemberTokens, step?, continue?]
  | cons m ms ih =>
      obtain ⟨key, k⟩ := m
      have hk : k.Reads := h (key, k) List.mem_cons_self
      have hms := ih (fun i hi => h i (List.mem_cons_of_mem _ hi)) ((name, j) :: read) key k
      rw [furtherMemberTokens, List.foldlM_cons, step?, continue?]
      simp [List.foldlM_append, step?, hk _, hms]

theorem reads_object {ms : List (Option String × Json)} (h : ∀ m ∈ ms, m.2.Reads) :
    (object ms).Reads := by
  intro stack
  cases ms with
  | nil => rfl
  | cons m ms =>
      obtain ⟨name, j⟩ := m
      have hj : j.Reads := h (name, j) List.mem_cons_self
      have hms := foldlM_furtherMemberTokens (fun k hk => h k (List.mem_cons_of_mem _ hk)) stack []
        name j
      rw [tokens, memberTokens, List.foldlM_cons, step?, begin?]
      simp [List.foldlM_append, step?, hj _, hms]

theorem reads (j : Json) : j.Reads := by
  induction j using Json.induction with
  | null => exact fun _ => rfl
  | bool b => exact fun _ => rfl
  | number n => exact fun _ => rfl
  | text s => exact fun _ => rfl
  | array js ih => exact reads_array ih
  | object ms ih => exact reads_object ih

theorem ofTokens?_tokens (j : Json) : ofTokens? j.tokens = some j := by
  rw [ofTokens?, j.reads []]
  rfl

/-- The tokens of items with a comma behind each of them. -/
def itemsBefore (items : List Json) : List Token := items.flatMap fun j => j.tokens ++ [.comma]

/-- The tokens of members with a comma behind each of them. -/
def membersBefore (members : List (Option String × Json)) : List Token :=
  members.flatMap fun m => .text m.1 :: .colon :: (m.2.tokens ++ [.comma])

/-- The tokens of an array or an object that is still open. -/
def Frame.tokens : Frame → List Token
  | .array items => .openArray :: itemsBefore items.reverse
  | .object members name => .openObject :: (membersBefore members.reverse ++ [.text name, .colon])

def stackTokens (stack : List Frame) : List Token := stack.reverse.flatMap Frame.tokens

/-- The tokens that lead to a state. -/
def State.tokens : State → List Token
  | .value stack => stackTokens stack
  | .firstItem stack => stackTokens stack ++ [.openArray]
  | .firstName stack => stackTokens stack ++ [.openObject]
  | .name stack members => stackTokens stack ++ .openObject :: membersBefore members.reverse
  | .colon stack members key =>
    stackTokens stack ++ .openObject :: (membersBefore members.reverse ++ [.text key])
  | .after stack v => stackTokens stack ++ v.tokens

theorem stackTokens_cons (frame : Frame) (stack : List Frame) :
    stackTokens (frame :: stack) = stackTokens stack ++ frame.tokens := by
  simp [stackTokens]

theorem itemsBefore_append_singleton (items : List Json) (j : Json) :
    itemsBefore (items ++ [j]) = itemsBefore items ++ (j.tokens ++ [.comma]) := by
  simp [itemsBefore]

theorem membersBefore_append_singleton (members : List (Option String × Json))
    (name : Option String) (j : Json) : membersBefore (members ++ [(name, j)]) =
      membersBefore members ++ .text name :: .colon :: (j.tokens ++ [.comma]) := by
  simp [membersBefore]

theorem itemTokens_append_singleton (items : List Json) (j : Json) :
    itemTokens (items ++ [j]) = itemsBefore items ++ (j.tokens ++ [.closeArray]) := by
  induction items with
  | nil => rfl
  | cons i items ih =>
      obtain ⟨k, ks, hks⟩ := List.exists_cons_of_ne_nil (List.concat_ne_nil j items)
      rw [hks, itemTokens] at ih
      simp [itemTokens, furtherItemTokens, itemsBefore, hks, ih]

theorem memberTokens_append_singleton (members : List (Option String × Json))
    (name : Option String) (j : Json) : memberTokens (members ++ [(name, j)]) =
      membersBefore members ++ .text name :: .colon :: (j.tokens ++ [.closeObject]) := by
  induction members with
  | nil => rfl
  | cons m members ih =>
      obtain ⟨k, ks, hks⟩ := List.exists_cons_of_ne_nil (List.concat_ne_nil (name, j) members)
      rw [hks, memberTokens] at ih
      simp [memberTokens, furtherMemberTokens, membersBefore, hks, ih]

theorem tokens_begin? {stack : List Frame} {t : Token} {s : State}
    (h : begin? stack t = some s) : s.tokens = stackTokens stack ++ [t] := by
  cases t <;> cases h <;> rfl

theorem tokens_continue? {v : Json} {stack : List Frame} {t : Token} {s : State}
    (h : continue? v stack t = some s) : s.tokens = stackTokens stack ++ v.tokens ++ [t] := by
  unfold continue? at h
  split at h
  · cases h
    simp [State.tokens, stackTokens_cons, Frame.tokens, itemsBefore_append_singleton]
  · cases h
    simp [State.tokens, stackTokens_cons, Frame.tokens, Json.tokens, itemTokens_append_singleton]
  · cases h
    simp [State.tokens, stackTokens_cons, Frame.tokens, membersBefore_append_singleton]
  · cases h
    simp [State.tokens, stackTokens_cons, Frame.tokens, Json.tokens, memberTokens_append_singleton]
  · cases h

/-- Every step adds the token that it reads. -/
theorem tokens_step? {s s' : State} {t : Token} (h : step? s t = some s') :
    s'.tokens = s.tokens ++ [t] := by
  unfold step? at h
  split at h
  · exact tokens_begin? h
  · cases h
    simp [State.tokens, Json.tokens, itemTokens]
  · rw [tokens_begin? h, stackTokens_cons]
    rfl
  · cases h
    simp [State.tokens, Json.tokens, memberTokens]
  · cases h
    simp [State.tokens, membersBefore]
  · cases h
    simp [State.tokens]
  · cases h
    simp [State.tokens, stackTokens_cons, Frame.tokens]
  · exact tokens_continue? h
  · cases h

theorem tokens_run {s s' : State} {ts : List Token} (h : ts.foldlM step? s = some s') :
    s'.tokens = s.tokens ++ ts := by
  induction ts generalizing s with
  | nil =>
      cases h
      rw [List.append_nil]
  | cons t ts ih =>
      rw [List.foldlM_cons, Option.bind_eq_bind, Option.bind_eq_some_iff] at h
      obtain ⟨s₁, hstep, hrun⟩ := h
      rw [ih hrun, tokens_step? hstep, List.append_assoc, List.singleton_append]

theorem ofTokens?_eq_some_iff {ts : List Token} {j : Json} :
    ofTokens? ts = some j ↔ ts = j.tokens := by
  constructor
  · intro h
    rw [ofTokens?, Option.bind_eq_bind, Option.bind_eq_some_iff] at h
    obtain ⟨s, hrun, hvalue⟩ := h
    have htokens := tokens_run hrun
    unfold State.value? at hvalue
    split at hvalue
    · cases hvalue
      exact htokens.symm
    · cases hvalue
  · rintro rfl
    exact ofTokens?_tokens j

end Json

end Recurrence
