import Recurrence.Proofs.Json.Records

/-!
# Fields of any object

The fields of an object are its members under the known names, each of which may occur once at
most. They are the same after the members have been put in another order, after a member under
another name has been put in, and after a member with `null` has been put in under a name that was
not there. In an array a field is the item in the place of its name.
-/

namespace Recurrence.Json

/-- The value under a name, `null` where there is none. -/
def memberValue (ms : List (Option String × Json)) (name : String) : Json :=
  (ms.lookup (some name)).getD null

def occurrences (name : String) (ms : List (Option String × Json)) : ℕ :=
  ms.countP fun m => m.1 == some name

/-- All names stand for texts, and none of the known ones occurs twice. -/
def Distinct (names : List String) (ms : List (Option String × Json)) : Prop :=
  (∀ m ∈ ms, m.1.isSome = true) ∧ ∀ name ∈ names, occurrences name ms ≤ 1

/-- The value in the place of a name, `null` where there is none. -/
def itemValue (names : List String) (js : List Json) (name : String) : Json :=
  ((names.zip js).lookup name).getD null

variable {names : List String} {ms ms' before after : List (Option String × Json)}
  {key : Option String} {name : String} {j k : Json} {field : String → Json}

theorem fields?_object_eq_some_iff :
    (object ms).fields? names = some field ↔ Distinct names ms ∧ field = memberValue ms := by
  have hdistinct : (ms.all (fun m => m.1.isSome) && names.all fun name =>
      decide (ms.countP (fun m => m.1 == some name) ≤ 1)) = true ↔ Distinct names ms := by
    simp [Distinct, occurrences]
  rw [fields?]
  split_ifs with h
  · rw [hdistinct] at h
    simp only [h, true_and, Option.some.injEq, eq_comm (b := field)]
    rfl
  · rw [hdistinct] at h
    simp [h]

theorem fields?_array_eq_some_iff {js : List Json} : (array js).fields? names = some field ↔
    js.length ≤ names.length ∧ field = itemValue names js := by
  rw [fields?]
  split_ifs with h
  · simp only [h, true_and, Option.some.injEq, eq_comm (b := field)]
    rfl
  · simp [h]

theorem depth_pos_of_fields? (h : j.fields? names = some field) : 0 < j.depth := by
  cases j with
  | array js => exact Nat.succ_pos _
  | object ms => exact Nat.succ_pos _
  | _ => cases h

/-- The fields of two objects correspond, and if only one of them has its names distinct then
nothing is read from either. -/
theorem rel_fields?_object {R : (String → Json) → (String → Json) → Prop}
    (hdistinct : Distinct names ms ↔ Distinct names ms')
    (hR : Distinct names ms → R (memberValue ms) (memberValue ms')) :
    Option.Rel R ((object ms).fields? names) ((object ms').fields? names) := by
  by_cases h : Distinct names ms
  · rw [fields?_object_eq_some_iff.2 ⟨h, rfl⟩, fields?_object_eq_some_iff.2 ⟨hdistinct.1 h, rfl⟩]
    exact .some (hR h)
  · have hnone : ∀ ms, ¬ Distinct names ms → (object ms).fields? names = none := by
      intro ms hms
      rw [Option.eq_none_iff_forall_ne_some]
      intro field hfield
      exact hms (fields?_object_eq_some_iff.1 hfield).1
    rw [hnone ms h, hnone ms' (mt hdistinct.2 h)]
    exact .none

theorem rel_fields?_array {R : (String → Json) → (String → Json) → Prop} {js js' : List Json}
    (hlength : js.length = js'.length) (hR : R (itemValue names js) (itemValue names js')) :
    Option.Rel R ((array js).fields? names) ((array js').fields? names) := by
  rw [fields?, fields?, hlength]
  split_ifs
  · exact .some hR
  · exact .none

theorem memberValue_cases (ms : List (Option String × Json)) (name : String) :
    (some name, memberValue ms name) ∈ ms ∨
      (∀ m ∈ ms, m.1 ≠ some name) ∧ memberValue ms name = null := by
  unfold memberValue
  cases h : ms.lookup (some name) with
  | some k =>
      obtain ⟨before, after, rfl, -⟩ := List.lookup_eq_some_iff.1 h
      exact .inl (List.mem_append_right before List.mem_cons_self)
  | none =>
      rw [List.lookup_eq_none_iff] at h
      refine .inr ⟨fun m hm hname => ?_, rfl⟩
      simpa [hname] using h m hm

theorem occurrences_eq_zero_iff : occurrences name ms = 0 ↔ ∀ m ∈ ms, m.1 ≠ some name := by
  simp [occurrences, List.countP_eq_zero]

theorem occurrences_append : occurrences name (before ++ after) =
    occurrences name before + occurrences name after := List.countP_append

theorem occurrences_cons : occurrences name ((key, j) :: ms) =
    occurrences name ms + if key = some name then 1 else 0 := by
  simp [occurrences, List.countP_cons]

theorem occurrences_insert : occurrences name (before ++ (key, j) :: after) =
    occurrences name (before ++ after) + if key = some name then 1 else 0 := by
  rw [occurrences_append, occurrences_append, occurrences_cons, Nat.add_assoc]

theorem ne_of_occurrences_insert_le (h : occurrences name (before ++ (some name, j) :: after) ≤ 1) :
    ∀ m ∈ before ++ after, m.1 ≠ some name := by
  rw [occurrences_insert, if_pos rfl] at h
  exact occurrences_eq_zero_iff.1 (Nat.le_zero.1 (Nat.le_of_succ_le_succ h))

theorem memberValue_eq_of_mem (h : occurrences name ms ≤ 1) (hj : (some name, j) ∈ ms) :
    memberValue ms name = j := by
  obtain ⟨before, after, rfl⟩ := List.append_of_mem hj
  have halone := ne_of_occurrences_insert_le h
  have hbefore : before.lookup (some name) = none := by
    rw [List.lookup_eq_none_iff]
    intro m hm
    simpa using (halone m (List.mem_append_left after hm)).symm
  rw [memberValue, List.lookup_append, hbefore]
  simp

/-- Where a name occurs once at most, its value depends on nothing but the members. -/
theorem memberValue_congr (h : occurrences name ms ≤ 1)
    (hmem : ∀ j, (some name, j) ∈ ms ↔ (some name, j) ∈ ms') :
    memberValue ms name = memberValue ms' name := by
  rcases memberValue_cases ms' name with hvalue | ⟨hnone, hnull⟩
  · exact memberValue_eq_of_mem h ((hmem _).2 hvalue)
  · rcases memberValue_cases ms name with hvalue | ⟨-, hnull'⟩
    · exact absurd rfl (hnone _ ((hmem _).1 hvalue))
    · rw [hnull, hnull']

theorem Distinct.perm (h : Distinct names ms) (hperm : ms.Perm ms') : Distinct names ms' :=
  ⟨fun m hm => h.1 m (hperm.mem_iff.2 hm), fun name hname => by
    rw [occurrences, ← hperm.countP_eq]
    exact h.2 name hname⟩

theorem memberValue_perm (h : Distinct names ms) (hperm : ms.Perm ms') (hname : name ∈ names) :
    memberValue ms name = memberValue ms' name :=
  memberValue_congr (h.2 name hname) fun _ => hperm.mem_iff

/-- The order of the members does not matter. -/
theorem rel_fields?_perm (hperm : ms.Perm ms') :
    Option.Rel (fun f f' => ∀ name ∈ names, f name = f' name)
      ((object ms).fields? names) ((object ms').fields? names) :=
  rel_fields?_object ⟨fun h => h.perm hperm, fun h => h.perm hperm.symm⟩ fun h _ =>
    memberValue_perm h hperm

theorem memberValue_insert_of_ne (hkey : key ≠ some name)
    (h : occurrences name (before ++ after) ≤ 1) :
    memberValue (before ++ (key, j) :: after) name = memberValue (before ++ after) name := by
  refine (memberValue_congr h fun k => ?_).symm
  have hne : (some name, k) ≠ (key, j) := fun heq => hkey (Prod.mk.inj heq).1.symm
  rw [List.mem_append, List.mem_append, List.mem_cons, or_iff_right hne]

theorem forall_mem_insert_iff {P : Option String × Json → Prop} (h : P (key, j)) :
    (∀ m ∈ before ++ (key, j) :: after, P m) ↔ ∀ m ∈ before ++ after, P m := by
  rw [List.forall_mem_append, List.forall_mem_cons, List.forall_mem_append]
  simp [h]

theorem distinct_insert_iff (hkey : ∀ name ∈ names, key ≠ some name) (hsome : key.isSome = true) :
    Distinct names (before ++ (key, j) :: after) ↔ Distinct names (before ++ after) := by
  apply and_congr (forall_mem_insert_iff hsome)
  · refine forall₂_congr fun name hname => ?_
    rw [occurrences_insert, if_neg (hkey name hname), Nat.add_zero]

/-- A member under another name is left aside. -/
theorem rel_fields?_insert (hkey : ∀ name ∈ names, key ≠ some name) (hsome : key.isSome = true) :
    Option.Rel (fun f f' => ∀ name ∈ names, f name = f' name)
      ((object (before ++ after)).fields? names)
      ((object (before ++ (key, j) :: after)).fields? names) :=
  rel_fields?_object (distinct_insert_iff hkey hsome).symm fun h name hname =>
    (memberValue_insert_of_ne (hkey name hname) (h.2 name hname)).symm

/-- A member with `null` stands for one that is not there. -/
theorem rel_fields?_insert_null {key' : String}
    (honce : ∀ name ∈ names, occurrences name (before ++ (some key', null) :: after) ≤ 1) :
    Option.Rel (fun f f' => ∀ name ∈ names, f name = f' name)
      ((object (before ++ after)).fields? names)
      ((object (before ++ (some key', null) :: after)).fields? names) := by
  have hless : ∀ name ∈ names, occurrences name (before ++ after) ≤ 1 := by
    intro name hname
    have hle := honce name hname
    rw [occurrences_insert] at hle
    exact (Nat.le_add_right _ _).trans hle
  have hdistinct : Distinct names (before ++ after) ↔
      Distinct names (before ++ (some key', null) :: after) :=
    and_congr (forall_mem_insert_iff (P := fun m => m.1.isSome = true) rfl).symm
      (iff_of_true hless honce)
  refine rel_fields?_object hdistinct fun _ name hname => ?_
  by_cases hkey : key' = name
  · subst hkey
    have hvalue := memberValue_eq_of_mem (honce key' hname)
      (List.mem_append_right before List.mem_cons_self)
    rcases memberValue_cases (before ++ after) key' with hmem | ⟨-, hnull⟩
    · exact absurd rfl (ne_of_occurrences_insert_le (honce key' hname) _ hmem)
    · rw [hvalue, hnull]
  · have hne : some key' ≠ some name := fun heq => hkey (Option.some.inj heq)
    exact (memberValue_insert_of_ne hne (hless name hname)).symm

/-- Another value of one member changes the field of its name only. -/
theorem memberValue_replace (j' : Json) :
    memberValue (before ++ (key, j) :: after) name =
        memberValue (before ++ (key, j') :: after) name ∨
      key = some name ∧ memberValue (before ++ (key, j) :: after) name = j ∧
        memberValue (before ++ (key, j') :: after) name = j' := by
  unfold memberValue
  rw [List.lookup_append, List.lookup_append, List.lookup_cons, List.lookup_cons]
  cases before.lookup (some name) with
  | some k => exact .inl rfl
  | none =>
      by_cases hkey : key = some name
      · subst hkey
        simp
      · have hbeq : (some name == key) = false := beq_false_of_ne (Ne.symm hkey)
        simp [hbeq]

theorem distinct_replace_iff {j' : Json} : Distinct names (before ++ (key, j) :: after) ↔
    Distinct names (before ++ (key, j') :: after) := by
  apply and_congr
  · rw [List.forall_mem_append, List.forall_mem_cons, List.forall_mem_append, List.forall_mem_cons]
  · refine forall₂_congr fun name _ => ?_
    rw [occurrences_insert, occurrences_insert]

theorem itemValue_cons (first : String) (names : List String) (i : Json) (js : List Json)
    (name : String) : itemValue (first :: names) (i :: js) name =
      if name = first then i else itemValue names js name := by
  unfold itemValue
  by_cases h : name = first
  · simp [h]
  · have hbeq : (name == first) = false := beq_false_of_ne h
    simp [h, hbeq, List.lookup_cons]

theorem itemValue_cases (names : List String) (js : List Json) (name : String) :
    itemValue names js name = null ∨
      ∃ i : ℕ, names[i]? = some name ∧ js[i]? = some (itemValue names js name) := by
  induction names generalizing js with
  | nil => exact .inl rfl
  | cons first names ih =>
      cases js with
      | nil => exact .inl rfl
      | cons j js =>
          rw [itemValue_cons]
          split_ifs with hname
          · exact .inr ⟨0, by simp [hname]⟩
          · exact (ih js).imp_right fun ⟨i, hi⟩ => ⟨i + 1, hi⟩

theorem itemValue_eq_of_getElem? {js : List Json} {i : ℕ} (h : names.Nodup)
    (hname : names[i]? = some name) (hj : js[i]? = some j) : itemValue names js name = j := by
  induction names generalizing js i with
  | nil => cases hname
  | cons first names ih =>
      cases js with
      | nil => cases hj
      | cons k js =>
          obtain ⟨hfirst, hnames⟩ := List.nodup_cons.1 h
          rw [itemValue_cons]
          cases i with
          | zero =>
              cases hname
              cases hj
              exact if_pos rfl
          | succ i =>
              have hmem : name ∈ names := List.mem_of_getElem? hname
              rw [if_neg (ne_of_mem_of_not_mem hmem hfirst)]
              exact ih hnames hname hj

theorem itemValue_replace {front back : List Json} (j' : Json) :
    itemValue names (front ++ j :: back) name = itemValue names (front ++ j' :: back) name ∨
      names[front.length]? = some name ∧ itemValue names (front ++ j :: back) name = j ∧
        itemValue names (front ++ j' :: back) name = j' := by
  induction names generalizing front with
  | nil => exact .inl rfl
  | cons first names ih =>
      cases front with
      | nil =>
          rw [List.nil_append, List.nil_append, itemValue_cons, itemValue_cons]
          by_cases hname : name = first
          · exact .inr ⟨by simp [hname], if_pos hname, if_pos hname⟩
          · rw [if_neg hname, if_neg hname]
            exact .inl rfl
      | cons i front =>
          rw [List.cons_append, List.cons_append, itemValue_cons, itemValue_cons]
          by_cases hname : name = first
          · rw [if_pos hname, if_pos hname]
            exact .inl rfl
          · rw [if_neg hname, if_neg hname]
            exact ih

end Recurrence.Json
