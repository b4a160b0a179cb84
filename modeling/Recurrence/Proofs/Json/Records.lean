import Recurrence.Proofs.Json.Nesting

/-!
# Records

A record gives values to some of its names. It is an object that has a member for every name with
a value, in any order, and may have `null` under the other names; or it is an array of the values in
the order of the names, with `null` in between and no need to go on behind the last value. Either
way the values are found under their names, and the record nests one level deeper than they do.
-/

namespace Recurrence.Json

/-- The members of an object that gives values to names. -/
structure Members (names : List String) (value : String → Option Json)
    (members : List (Option String × Json)) : Prop where
  distinct : (members.map Prod.fst).Nodup
  named : ∀ m ∈ members, ∃ name ∈ names, m = (some name, (value name).getD null)
  complete : ∀ name ∈ names, (value name).isSome = true → some name ∈ members.map Prod.fst

inductive Record (names : List String) (value : String → Option Json) : Json → Prop
  | object {members : List (Option String × Json)} (h : Members names value members) :
      Record names value (object members)
  | array {kept dropped : List String} (hnames : kept ++ dropped = names)
      (hdropped : ∀ name ∈ dropped, value name = none) :
      Record names value (array (kept.map fun name => (value name).getD null))

variable {names : List String} {value : String → Option Json} {j : Json} {n : ℕ}

theorem Members.of_mem {members : List (Option String × Json)} (h : Members names value members)
    {name : String} {k : Json} (hmem : (some name, k) ∈ members) :
    name ∈ names ∧ k = (value name).getD null := by
  obtain ⟨name', hname', heq⟩ := h.named _ hmem
  cases heq
  exact ⟨hname', rfl⟩

theorem Members.mem {members : List (Option String × Json)} (h : Members names value members)
    {name : String} (hname : name ∈ names) {k : Json} (hk : value name = some k) :
    (some name, k) ∈ members := by
  obtain ⟨⟨key, k'⟩, hmem, rfl⟩ := List.mem_map.1 (h.complete name hname (by rw [hk]; rfl))
  have hvalue := (h.of_mem hmem).2
  rw [hk, Option.getD_some] at hvalue
  rwa [← hvalue]

theorem Members.lookup {members : List (Option String × Json)} (h : Members names value members)
    {name : String} (hname : name ∈ names) :
    (members.lookup (some name)).getD null = (value name).getD null := by
  cases hk : members.lookup (some name) with
  | some k =>
      obtain ⟨before, behind, rfl, -⟩ := List.lookup_eq_some_iff.1 hk
      exact (h.of_mem (List.mem_append_right before List.mem_cons_self)).2
  | none =>
      rw [List.lookup_eq_none_iff] at hk
      cases hvalue : value name with
      | none => rfl
      | some k => simpa using hk _ (h.mem hname hvalue)

/-- A property that `null` has holds of all parts of a record when it holds of the values. -/
theorem Record.forall_parts_iff (h : Record names value j) {P : Json → Prop} (hnull : P null) :
    (∀ k ∈ j.parts, P k) ↔ ∀ name ∈ names, ∀ k ∈ value name, P k := by
  have hgetD : ∀ name ∈ names, (∀ name ∈ names, ∀ k ∈ value name, P k) →
      P ((value name).getD null) := by
    intro name hname hall
    cases hk : value name with
    | none => exact hnull
    | some k => exact hall name hname k hk
  cases h with
  | @object members h =>
      constructor
      · intro hparts name hname k hk
        exact hparts k (List.mem_map.2 ⟨_, h.mem hname hk, rfl⟩)
      · intro hall k hk
        obtain ⟨m, hm, rfl⟩ := List.mem_map.1 hk
        obtain ⟨name, hname, rfl⟩ := h.named m hm
        exact hgetD name hname hall
  | @array kept dropped hnames hdropped =>
      subst hnames
      constructor
      · intro hparts name hname k hk
        rcases List.mem_append.1 hname with hkept | hlast
        · exact hparts k (List.mem_map.2 ⟨name, hkept, by rw [hk, Option.getD_some]⟩)
        · rw [hdropped name hlast] at hk
          cases hk
      · intro hall k hk
        obtain ⟨name, hname, rfl⟩ := List.mem_map.1 hk
        exact hgetD name (List.mem_append_left _ hname) hall

theorem Record.depth_le_succ_iff (h : Record names value j) :
    j.depth ≤ n + 1 ↔ ∀ name ∈ names, ∀ k ∈ value name, k.depth ≤ n := by
  rw [Json.depth_le_succ_iff]
  exact h.forall_parts_iff (Nat.zero_le n)

theorem Record.depth_pos (h : Record names value j) : 0 < j.depth := by
  cases h with
  | object _ => exact Nat.succ_pos _
  | array _ _ => exact Nat.succ_pos _

theorem Record.plain (h : Record names value j)
    (hvalues : ∀ name ∈ names, ∀ k ∈ value name, k.Plain) : j.Plain := by
  have hparts := (h.forall_parts_iff .null).2 hvalues
  cases h with
  | @object members h =>
      refine .object (fun m hm => ?_) fun m hm => hparts m.2 (List.mem_map.2 ⟨m, hm, rfl⟩)
      obtain ⟨name, -, rfl⟩ := h.named m hm
      rfl
  | array _ _ => exact .array hparts

theorem lookup_zip {kept : List String} (dropped : List String) (f : String → Json)
    (name : String) : ((kept ++ dropped).zip (kept.map f)).lookup name =
      if name ∈ kept then some (f name) else none := by
  induction kept with
  | nil => simp
  | cons first kept ih =>
      rw [List.cons_append, List.map_cons, List.zip_cons_cons, List.lookup_cons, ih]
      by_cases h : name = first
      · simp [h]
      · have hbeq : (name == first) = false := beq_false_of_ne h
        simp [h, hbeq]

theorem Record.exists_fields? (h : Record names value j) :
    ∃ field, j.fields? names = some field ∧
      ∀ name ∈ names, field name = (value name).getD null := by
  cases h with
  | @object members h =>
      have hnames : members.all (fun m => m.1.isSome) = true := by
        rw [List.all_eq_true]
        intro m hm
        obtain ⟨name, -, rfl⟩ := h.named m hm
        rfl
      have honce : ∀ key, members.countP (fun m => m.1 == key) ≤ 1 := by
        intro key
        have hcount := List.nodup_iff_count_le_one.1 h.distinct key
        rwa [List.count_eq_countP, List.countP_map] at hcount
      refine ⟨fun name => (members.lookup (some name)).getD null, ?_, fun name => h.lookup⟩
      rw [fields?, if_pos (by simp [hnames, honce])]
  | @array kept dropped hnames hdropped =>
      subst hnames
      refine ⟨_, by rw [fields?, if_pos (by simp)], fun name hname => ?_⟩
      rw [lookup_zip]
      split_ifs with hkept
      · rfl
      · rw [hdropped name ((List.mem_append.1 hname).resolve_left hkept)]

/-- A plain value is unsound only where it nests too deep. -/
theorem Plain.sound_iff (h : j.Plain) (n : ℕ) : j.sound n = true ↔ j.depth ≤ n :=
  Json.sound_iff.trans (and_iff_right h.valid)

theorem Record.ne_null (h : Record names value j) : j ≠ null := by
  rintro rfl
  cases h

theorem exists_members (h : names.Nodup) (value : String → Option Json) :
    ∃ members, Members names value members := by
  refine ⟨names.map fun name => (some name, (value name).getD null), ⟨?_, ?_, ?_⟩⟩
  · rw [List.map_map]
    exact h.map fun _ _ => Option.some.inj
  · intro m hm
    obtain ⟨name, hname, rfl⟩ := List.mem_map.1 hm
    exact ⟨name, hname, rfl⟩
  · intro name hname _
    rw [List.map_map]
    exact List.mem_map.2 ⟨name, hname, rfl⟩

section Fields

variable {α : Type} {R : α → Json → Prop}

inductive IsText : String → Json → Prop
  | text (s : String) : IsText s (text (some s))

inductive IsInteger : ℤ → Json → Prop
  | integer (k : ℤ) : IsInteger k (number (.ofInt k))

/-- A member of an enumeration as the text of its keyword, or as any text that is no keyword where
it stands for the unknown. -/
inductive IsKeyword (known : List α) (keyword : α → String) (unknown : α) : α → Json → Prop
  | known {a : α} (ha : a ∈ known) : IsKeyword known keyword unknown a (text (some (keyword a)))
  | unknown {s : String} (hs : ∀ a ∈ known, keyword a ≠ s) :
      IsKeyword known keyword unknown unknown (text (some s))

inductive IsArray (R : α → Json → Prop) : List α → Json → Prop
  | array {as : List α} {js : List Json} (h : List.Forall₂ R as js) : IsArray R as (array js)

/-- The value is read as `a` and as nothing else, and this where it nests at most so deep. -/
def ReadAs (read? : Json → Option α) (n : ℕ) (a : α) (j : Json) : Prop :=
  j ≠ null ∧ ∀ b, read? j = some b ↔ b = a ∧ j.depth ≤ n

/-- A reader with room for one level more reads a record when it reads the values. -/
theorem Record.readAs {read? : ℕ → Json → Option α} {a : α} (h : Record names value j)
    (hzero : read? 0 j = none)
    (hsucc : ∀ n b, read? (n + 1) j = some b ↔
      b = a ∧ ∀ name ∈ names, ∀ k ∈ value name, k.depth ≤ n)
    (n : ℕ) : ReadAs (read? n) n a j := by
  refine ⟨h.ne_null, fun b => ?_⟩
  cases n with
  | zero =>
      have hdepth := h.depth_pos
      simp [hzero, hdepth.ne']
  | succ n => rw [hsucc, h.depth_le_succ_iff]

theorem readAs_of_flat {read? : Json → Option α} {a : α} (hnull : j ≠ null) (hdepth : j.depth = 0)
    (hread : read? j = some a) (n : ℕ) : ReadAs read? n a j := by
  refine ⟨hnull, fun b => ?_⟩
  rw [hread, hdepth, Option.some.injEq, eq_comm]
  exact (and_iff_left (Nat.zero_le n)).symm

theorem IsText.readAs {s : String} (h : IsText s j) (n : ℕ) : ReadAs text? n s j := by
  cases h with
  | text =>
      have hread : text? (.text (some s)) = some s := rfl
      exact readAs_of_flat (by simp) (by simp [depth]) hread n

theorem IsInteger.readAs {k : ℤ} (h : IsInteger k j) (hk : Numeral.Fits k) (n : ℕ) :
    ReadAs integer? n k j := by
  cases h with
  | integer =>
      have hread : integer? (.number (.ofInt k)) = some k := Numeral.integer?_ofInt hk
      exact readAs_of_flat (by simp) (by simp [depth]) hread n

theorem IsText.plain {s : String} (h : IsText s j) : j.Plain := by
  cases h with
  | text => exact .text s

theorem IsInteger.plain {k : ℤ} (h : IsInteger k j) (hk : Numeral.Fits k) : j.Plain := by
  cases h with
  | integer => exact .integer hk

theorem IsKeyword.plain {known : List α} {keyword : α → String} {unknown a : α}
    (h : IsKeyword known keyword unknown a j) : j.Plain := by
  cases h with
  | known ha => exact .text _
  | unknown hs => exact .text _

theorem IsArray.plain {as : List α} (h : IsArray R as j)
    (hR : ∀ a ∈ as, ∀ k, R a k → k.Plain) : j.Plain := by
  obtain ⟨hjs⟩ := h
  refine .array ?_
  induction hjs with
  | nil => simp
  | cons ha _ ih =>
      rw [List.forall_mem_cons] at hR ⊢
      exact ⟨hR.1 _ ha, ih hR.2⟩

theorem exists_isKeyword {known : List α} {keyword : α → String} {unknown a : α}
    (ha : a ∈ known ∨ a = unknown) (hempty : ∀ a ∈ known, keyword a ≠ "") :
    ∃ j, IsKeyword known keyword unknown a j := by
  rcases ha with ha | rfl
  · exact ⟨_, .known ha⟩
  · exact ⟨_, .unknown hempty⟩

theorem exists_isArray {as : List α} (h : ∀ a ∈ as, ∃ k, R a k) : ∃ j, IsArray R as j := by
  induction as with
  | nil => exact ⟨_, .array .nil⟩
  | cons a as ih =>
      rw [List.forall_mem_cons] at h
      obtain ⟨⟨k, hk⟩, has⟩ := h
      obtain ⟨_, ⟨hks⟩⟩ := ih has
      exact ⟨_, .array (.cons hk hks)⟩

theorem mapM_eq_some_iff_of_forall₂ {read? : Json → Option α} {as : List α} {js : List Json}
    (h : List.Forall₂ (ReadAs read? n) as js) (bs : List α) :
    js.mapM read? = some bs ↔ bs = as ∧ ∀ j ∈ js, j.depth ≤ n := by
  induction h generalizing bs with
  | nil => simp [eq_comm]
  | @cons a j as js haj _ ih =>
      rw [List.mapM_cons, List.forall_mem_cons]
      simp only [Option.bind_eq_bind, Option.bind_eq_some_iff, Option.pure_def, Option.some.injEq,
        haj.2, ih]
      constructor
      · rintro ⟨_, ⟨rfl, hj⟩, _, ⟨rfl, hjs⟩, rfl⟩
        exact ⟨rfl, hj, hjs⟩
      · rintro ⟨rfl, hj, hjs⟩
        exact ⟨a, ⟨rfl, hj⟩, as, ⟨rfl, hjs⟩, rfl⟩

/-- A list is read with room for one level more than its members. -/
theorem IsArray.readAs {read? : ℕ → Json → Option α} {list? : ℕ → Json → Option (List α)}
    (hzero : ∀ j, list? 0 j = none) (hsucc : ∀ n js, list? (n + 1) (.array js) = js.mapM (read? n))
    {as : List α} (h : IsArray R as j)
    (hread : ∀ a ∈ as, ∀ k, R a k → ∀ n, ReadAs (read? n) n a k) (n : ℕ) :
    ReadAs (list? n) n as j := by
  obtain ⟨hjs⟩ := h
  rename_i js
  refine ⟨by simp, fun bs => ?_⟩
  cases n with
  | zero => simp [hzero, depth]
  | succ n =>
      have hreads : List.Forall₂ (ReadAs (read? n) n) as js := by
        induction hjs with
        | nil => exact .nil
        | cons ha _ ih =>
            rw [List.forall_mem_cons] at hread
            exact .cons (hread.1 _ ha n) (ih hread.2)
      rw [hsucc, mapM_eq_some_iff_of_forall₂ hreads, Json.depth_le_succ_iff, parts]

theorem optional?_of_ne_null (read? : Json → Option α) (h : j ≠ null) :
    j.optional? read? = (read? j).map some := by
  cases j <;> first | rfl | exact absurd rfl h

/-- An optional field is read as it is written, where its value nests at most so deep. -/
theorem optional?_eq_some_iff {read? : Json → Option α} {o : Option α} {v : Option Json}
    (h : Option.Rel R o v) (hread : ∀ a ∈ o, ∀ k, R a k → ReadAs read? n a k) (b : Option α) :
    (v.getD null).optional? read? = some b ↔ b = o ∧ ∀ k ∈ v, k.depth ≤ n := by
  cases h with
  | none => simp [optional?, eq_comm]
  | @some a k hak =>
      obtain ⟨hnull, hiff⟩ := hread a rfl k hak
      rw [Option.getD_some, optional?_of_ne_null read? hnull, Option.map_eq_some_iff]
      simp only [hiff]
      constructor
      · rintro ⟨_, ⟨rfl, hk⟩, rfl⟩
        exact ⟨rfl, by rintro _ ⟨⟩; exact hk⟩
      · rintro ⟨rfl, hk⟩
        exact ⟨a, ⟨rfl, hk k rfl⟩, rfl⟩

theorem exists_rel {o : Option α} (h : ∀ a ∈ o, ∃ k, R a k) : ∃ v, Option.Rel R o v := by
  cases o with
  | none => exact ⟨none, .none⟩
  | some a =>
      obtain ⟨k, hk⟩ := h a rfl
      exact ⟨some k, .some hk⟩

theorem forall_mem_of_rel {P : Json → Prop} {o : Option α} {v : Option Json} (h : Option.Rel R o v)
    (hR : ∀ a ∈ o, ∀ k, R a k → P k) : ∀ k ∈ v, P k := by
  rintro k hk
  cases h with
  | none => cases hk
  | @some a k' hak =>
      cases hk
      exact hR a rfl k hak

end Fields

end Recurrence.Json
