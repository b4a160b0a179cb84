import Recurrence.Proofs.Document.Rules

/-!
# What is wrong with a node

A node is valid when it has the fields that its type reads, each of them acceptable, down to all of
its nodes below. The defects of a node are all that stands against this, in the order of reading:
a node in front of the nodes below it, these from left to right, and within a node one field after
the other. A node has a rule exactly when it is valid, and otherwise its first defect is the error.
-/

namespace Recurrence

section Reports

variable {α β : Type} {x : Except Error α} {f : α → Except Error β} {ds es : List Error}

/-- The computation fails with the first of the defects, and succeeds when there are none. -/
def Reports (x : Except Error α) (ds : List Error) : Prop :=
  match x with
  | .ok _ => ds = []
  | .error e => ds.head? = some e

theorem Reports.bind (hx : Reports x ds) (hf : ∀ a, x = .ok a → Reports (f a) es) :
    Reports (x >>= f) (ds ++ es) := by
  cases x with
  | ok a =>
      obtain rfl : ds = [] := hx
      exact hf a rfl
  | error e =>
      have hhead : ds.head? = some e := hx
      change (ds ++ es).head? = some e
      rw [List.head?_append, hhead, Option.some_or]

theorem Reports.map (hx : Reports x ds) (g : α → β) : Reports (x >>= fun a => pure (g a)) ds := by
  have hbind : Reports (x >>= fun a => pure (g a)) (ds ++ []) := hx.bind fun _ _ => rfl
  rwa [List.append_nil] at hbind

theorem Reports.exists_ok_iff (hx : Reports x ds) : (∃ a, x = .ok a) ↔ ds = [] := by
  cases x with
  | ok a => exact ⟨fun _ => hx, fun _ => ⟨a, rfl⟩⟩
  | error e =>
      have hhead : ds.head? = some e := hx
      constructor
      · rintro ⟨a, ⟨⟩⟩
      · rintro rfl
        cases hhead

theorem Reports.eq_error_iff (hx : Reports x ds) {e : Error} :
    x = .error e ↔ ds.head? = some e := by
  cases x with
  | ok a =>
      obtain rfl : ds = [] := hx
      simp
  | error e' =>
      have hhead : ds.head? = some e' := hx
      simp [hhead]

/-- The defect of a text that a reader refuses. -/
def refusal : Except Error α → List Error
  | .ok _ => []
  | .error e => [e]

theorem reports_refusal (x : Except Error α) : Reports x (refusal x) := by
  cases x with
  | ok a => rfl
  | error e => rfl

end Reports

/-- The defects of a field that has to hold a text acceptable to a reader. -/
def fieldDefects {α : Type} (missing : Error) (read : String → Except Error α) :
    Option String → List Error
  | none => [missing]
  | some s => refusal (read s)

namespace Node

section Defects

variable (n : Node)

def yearlyDefects : List Error :=
  match n.bounds with
  | none => [.missingBounds]
  | some .unknown => [.unknownBounds]
  | some .days =>
    fieldDefects (.missingField "startDate") MonthDay.read n.startDate ++
      fieldDefects (.missingField "endDate") MonthDay.read n.endDate
  | some .months =>
    fieldDefects (.missingField "startMonth") Month.read n.startMonth ++
      fieldDefects (.missingField "endMonth") Month.read n.endMonth

def monthlyOrdinalDefects : Option ℤ → List Error
  | none => [.missingOrdinal]
  | some k =>
    if k < -2 ^ 31 ∨ 2 ^ 31 ≤ k then [.ordinalTooWide k]
    else if k = 0 ∨ k < -5 ∨ 5 < k then [.ordinalOutsideMonth k]
    else []

def monthlyDefects : List Error :=
  fieldDefects .missingDay Weekday.read n.day ++ monthlyOrdinalDefects n.ordinal

def weeklyOrdinalDefects : Option ℤ → List Error
  | none => [.unclearCadence]
  | some k =>
    if k < 0 ∨ 2 ^ 32 ≤ k then [.ordinalBelowOne k]
    else if k = 0 then [.unclearCadence]
    else []

def weeklyDefects : List Error :=
  match n.day, n.referenceDate with
  | none, none => [.missingDay]
  | some _, some _ => [.dayAndReference]
  | some day, none => refusal (Weekday.read day)
  | none, some reference => refusal (Date.read reference) ++ weeklyOrdinalDefects n.ordinal

end Defects

mutual

/-- All defects of a node and of the nodes below it, in the order in which they are met. The nodes
below are looked at only where none of them is missing. -/
def defects (n : Node) : List Error :=
  match n with
  | ⟨type, _, _, _, _, _, _, _, _, included, excluded, members⟩ =>
    match type with
    | none => [.missingType]
    | some .unknown => [.unknownType]
    | some .yearly => n.yearlyDefects
    | some .monthly => n.monthlyDefects
    | some .weekly => n.weeklyDefects
    | some .difference =>
      match included, excluded with
      | none, _ => [.missingIncluded]
      | some _, none => [.missingExcluded]
      | some i, some e => i.defects ++ e.defects
    | some .union => combinationDefects .union members
    | some .intersection => combinationDefects .intersection members

def combinationDefects (c : Combination) : Option (List Node) → List Error
  | none => [.missingMembers c]
  | some ns => if ns.isEmpty then [.noMembers c] else memberDefects ns

def memberDefects : List Node → List Error
  | [] => []
  | n :: ns => n.defects ++ memberDefects ns

end

theorem defects_eq (n : Node) :
    n.defects = (match n.type with
      | none => [.missingType]
      | some .unknown => [.unknownType]
      | some .yearly => n.yearlyDefects
      | some .monthly => n.monthlyDefects
      | some .weekly => n.weeklyDefects
      | some .difference =>
        match n.includedDate, n.excludedDate with
        | none, _ => [.missingIncluded]
        | some _, none => [.missingExcluded]
        | some i, some e => i.defects ++ e.defects
      | some .union => combinationDefects .union n.expressions
      | some .intersection => combinationDefects .intersection n.expressions) := by
  cases n with
  | mk => rw [defects.eq_def]

theorem reports_bounds {α β : Type} (first last : String) (read : String → Except Error α)
    (start stop : Option String) (make : α → α → β) :
    Reports (do
        let a ← read (← required first start)
        let b ← read (← required last stop)
        return make a b)
      (fieldDefects (.missingField first) read start ++
        fieldDefects (.missingField last) read stop) := by
  cases start with
  | none => rfl
  | some s =>
      apply (reports_refusal (read s)).bind
      intro a _
      cases stop with
      | none => rfl
      | some t => exact (reports_refusal (read t)).map (make a)

theorem reports_yearlyWindow (n : Node) : Reports n.yearlyWindow n.yearlyDefects := by
  unfold yearlyWindow yearlyDefects
  cases n.bounds with
  | none => rfl
  | some bounds =>
      cases bounds with
      | unknown => rfl
      | days => exact reports_bounds _ _ MonthDay.read _ _ YearlyWindow.days
      | months => exact reports_bounds _ _ Month.read _ _ YearlyWindow.months

theorem reports_monthlyOrdinal (w : Weekday) (ordinal : Option ℤ) :
    Reports (match ordinal with
      | none => .error .missingOrdinal
      | some k => if -2147483648 ≤ k ∧ k ≤ 2147483647 then MonthlyWeekday.ofOrdinal w k
        else .error (.ordinalTooWide k)) (monthlyOrdinalDefects ordinal) := by
  cases ordinal with
  | none => rfl
  | some k =>
      unfold monthlyOrdinalDefects MonthlyWeekday.ofOrdinal
      dsimp only
      split_ifs <;> first | rfl | omega

theorem reports_monthlyWeekday (n : Node) : Reports n.monthlyWeekday n.monthlyDefects := by
  unfold monthlyWeekday monthlyDefects
  cases n.day with
  | none => rfl
  | some s =>
      apply (reports_refusal (Weekday.read s)).bind
      intro w _
      exact reports_monthlyOrdinal w n.ordinal

theorem reports_weeklyOrdinal (r : Date) (ordinal : Option ℤ) :
    Reports (weeklyInterval ordinal >>= fun n => WeeklyCadence.ofParts none n (some r))
      (weeklyOrdinalDefects ordinal) := by
  cases ordinal with
  | none => rfl
  | some k =>
      unfold weeklyInterval weeklyOrdinalDefects intervalLimit
      dsimp only
      split_ifs with hrange hlarge hzero hlarge
      · omega
      · subst hzero
        rfl
      · obtain ⟨n, hn⟩ := Nat.exists_eq_succ_of_ne_zero (n := k.toNat) (by omega)
        rw [hn]
        rfl
      · rfl
      · omega
      · omega

theorem reports_weeklyCadence (n : Node) : Reports n.weeklyCadence n.weeklyDefects := by
  unfold weeklyCadence weeklyDefects
  cases n.day with
  | none =>
      cases n.referenceDate with
      | none => rfl
      | some s =>
          apply (reports_refusal (Date.read s)).bind
          intro r _
          exact reports_weeklyOrdinal r n.ordinal
  | some s =>
      cases n.referenceDate with
      | none => exact (reports_refusal (Weekday.read s)).map WeeklyCadence.every
      | some t => rfl

theorem reports_rules {ns : List Node} (h : ∀ m ∈ ns, Reports m.rule m.defects) :
    Reports (rules ns) (memberDefects ns) := by
  induction ns with
  | nil => rfl
  | cons n ns ih =>
      have hhead := h n List.mem_cons_self
      have htail := ih fun m hm => h m (List.mem_cons_of_mem n hm)
      rw [rules, memberDefects]
      exact hhead.bind fun r _ => htail.map (r :: ·)

/-- Only a list of no members is refused once its members have been read. -/
theorem reports_combination (c : Combination) {make : List Rule → Except Error Rule}
    (hnil : make [] = .error (.noMembers c)) (hcons : ∀ r rs, ∃ s, make (r :: rs) = .ok s)
    {ns : List Node} (h : ∀ m ∈ ns, Reports m.rule m.defects) :
    Reports (rules ns >>= make) (combinationDefects c (some ns)) := by
  have hrules := reports_rules h
  cases ns with
  | nil =>
      have hempty : rules [] >>= make = .error (.noMembers c) := hnil
      rw [hempty]
      rfl
  | cons n ns =>
      rw [combinationDefects, List.isEmpty_cons, if_neg Bool.false_ne_true,
        ← List.append_nil (memberDefects _)]
      apply hrules.bind
      intro rs hrs
      cases rules_eq_ok_iff.1 hrs with
      | @cons _ r _ rs _ _ =>
          obtain ⟨s, hs⟩ := hcons r rs
          rw [hs]
          rfl

theorem reports_rule (n : Node) : Reports n.rule n.defects := by
  induction n using Node.induction with
  | node n hincluded hexcluded hmembers =>
      rw [rule_eq, defects_eq]
      cases n.type with
      | none => rfl
      | some type =>
          cases type with
          | unknown => rfl
          | yearly => exact n.reports_yearlyWindow.map Rule.yearly
          | monthly => exact n.reports_monthlyWeekday.map Rule.monthly
          | weekly => exact n.reports_weeklyCadence.map Rule.weekly
          | difference =>
              cases hi : n.includedDate with
              | none => rfl
              | some i =>
                  cases he : n.excludedDate with
                  | none => rfl
                  | some e =>
                      apply (hincluded i hi).bind
                      intro r _
                      exact (hexcluded e he).map (Rule.difference r)
          | union =>
              cases hns : n.expressions with
              | none => rfl
              | some ns =>
                  exact reports_combination .union rfl (fun r rs => ⟨_, rfl⟩) (hmembers ns hns)
          | intersection =>
              cases hns : n.expressions with
              | none => rfl
              | some ns =>
                  exact reports_combination .intersection rfl (fun r rs => ⟨_, rfl⟩)
                    (hmembers ns hns)

/-- The field holds a text that a reader accepts. -/
def Accepts {α : Type} (read : String → Except Error α) (field : Option String) : Prop :=
  ∃ s a, field = some s ∧ read s = .ok a

inductive Valid : Node → Prop
  | days (n : Node) (htype : n.type = some .yearly) (hbounds : n.bounds = some .days)
      (hstart : Accepts MonthDay.read n.startDate) (hstop : Accepts MonthDay.read n.endDate) :
      n.Valid
  | months (n : Node) (htype : n.type = some .yearly) (hbounds : n.bounds = some .months)
      (hstart : Accepts Month.read n.startMonth) (hstop : Accepts Month.read n.endMonth) : n.Valid
  | monthly (n : Node) (htype : n.type = some .monthly) (hday : Accepts Weekday.read n.day)
      (hordinal : ∃ k, n.ordinal = some k ∧ k ≠ 0 ∧ -5 ≤ k ∧ k ≤ 5) : n.Valid
  | every (n : Node) (htype : n.type = some .weekly) (hday : Accepts Weekday.read n.day)
      (hreference : n.referenceDate = none) : n.Valid
  | everyNth (n : Node) (htype : n.type = some .weekly) (hday : n.day = none)
      (hreference : Accepts Date.read n.referenceDate)
      (hordinal : ∃ k, n.ordinal = some k ∧ 1 ≤ k ∧ k < 2 ^ 32) : n.Valid
  | difference (n i e : Node) (htype : n.type = some .difference)
      (hincluded : n.includedDate = some i) (hexcluded : n.excludedDate = some e)
      (hi : i.Valid) (he : e.Valid) : n.Valid
  | union (n : Node) (ns : List Node) (htype : n.type = some .union)
      (hmembers : n.expressions = some ns) (hne : ns ≠ []) (hns : ∀ m ∈ ns, m.Valid) : n.Valid
  | intersection (n : Node) (ns : List Node) (htype : n.type = some .intersection)
      (hmembers : n.expressions = some ns) (hne : ns ≠ []) (hns : ∀ m ∈ ns, m.Valid) : n.Valid

theorem valid_of_rule {n : Node} {r : Rule} (h : n.rule = .ok r) : n.Valid := by
  induction n using Node.induction generalizing r with
  | node n hincluded hexcluded hmembers =>
      have hall : ∀ ns rs, n.expressions = some ns →
          List.Forall₂ (fun m r => m.rule = .ok r) ns rs → ∀ m ∈ ns, m.Valid := by
        intro ns rs hns hrs m hm
        obtain ⟨r, -, hr⟩ := exists_of_forall₂ hrs.flip hm
        exact hmembers ns hns m hm hr
      have hne : ∀ {ns : List Node} {rs : List Rule},
          List.Forall₂ (fun m r => m.rule = .ok r) ns rs → rs ≠ [] → ns ≠ [] := by
        rintro _ _ hrs hne rfl
        exact hne (List.forall₂_nil_left_iff.1 hrs)
      cases rule_eq_ok_iff.1 h with
      | yearly w htype hw =>
          rcases yearlyWindow_eq_ok_iff.1 hw with
            ⟨hbounds, s, t, a, b, hs, ht, ha, hb, -⟩ | ⟨hbounds, s, t, a, b, hs, ht, ha, hb, -⟩
          · exact .days n htype hbounds ⟨s, a, hs, ha⟩ ⟨t, b, ht, hb⟩
          · exact .months n htype hbounds ⟨s, a, hs, ha⟩ ⟨t, b, ht, hb⟩
      | monthly m htype hm =>
          obtain ⟨s, w, k, hday, hw, hk, hrange, -⟩ := monthlyWeekday_eq_ok_iff.1 hm
          exact .monthly n htype ⟨s, w, hday, hw⟩ ⟨k, hk, hrange⟩
      | weekly c htype hc =>
          rcases weeklyCadence_eq_ok_iff.1 hc with
            ⟨s, w, hday, href, hw, -⟩ | ⟨s, r, k, hday, href, hr, hk, hlimit, hpos, -⟩
          · exact .every n htype ⟨s, w, hday, hw⟩ href
          · rw [intervalLimit] at hlimit
            exact .everyNth n htype hday ⟨s, r, href, hr⟩ ⟨k, hk, by omega, by omega⟩
      | difference i e r s htype hi he hr hs =>
          exact .difference n i e htype hi he (hincluded i hi hr) (hexcluded e he hs)
      | union ns rs htype hns hrs hnonempty =>
          exact .union n ns htype hns (hne hrs hnonempty) (hall ns rs hns hrs)
      | intersection ns rs htype hns hrs hnonempty =>
          exact .intersection n ns htype hns (hne hrs hnonempty) (hall ns rs hns hrs)

theorem exists_rules {ns : List Node} (hne : ns ≠ []) (h : ∀ m ∈ ns, ∃ r, m.rule = .ok r) :
    ∃ rs, List.Forall₂ (fun m r => m.rule = .ok r) ns rs ∧ rs ≠ [] := by
  obtain ⟨rs, hrs⟩ : ∃ rs, List.Forall₂ (fun m r => m.rule = .ok r) ns rs := by
    clear hne
    induction ns with
    | nil => exact ⟨[], .nil⟩
    | cons n ns ih =>
        obtain ⟨r, hr⟩ := h n List.mem_cons_self
        obtain ⟨rs, hrs⟩ := ih fun m hm => h m (List.mem_cons_of_mem n hm)
        exact ⟨r :: rs, .cons hr hrs⟩
  refine ⟨rs, hrs, ?_⟩
  rintro rfl
  exact hne (List.forall₂_nil_right_iff.1 hrs)

theorem exists_rule_of_valid {n : Node} (h : n.Valid) : ∃ r, n.rule = .ok r := by
  induction h with
  | days n htype hbounds hstart hstop =>
      obtain ⟨s, a, hs, ha⟩ := hstart
      obtain ⟨t, b, ht, hb⟩ := hstop
      have hw := yearlyWindow_eq_ok_iff.2 (Or.inl ⟨hbounds, s, t, a, b, hs, ht, ha, hb, rfl⟩)
      exact ⟨_, rule_of_hasRule (.yearly _ htype hw)⟩
  | months n htype hbounds hstart hstop =>
      obtain ⟨s, a, hs, ha⟩ := hstart
      obtain ⟨t, b, ht, hb⟩ := hstop
      have hw := yearlyWindow_eq_ok_iff.2 (Or.inr ⟨hbounds, s, t, a, b, hs, ht, ha, hb, rfl⟩)
      exact ⟨_, rule_of_hasRule (.yearly _ htype hw)⟩
  | monthly n htype hday hordinal =>
      obtain ⟨s, w, hs, hw⟩ := hday
      obtain ⟨k, hk, hrange⟩ := hordinal
      have hm := monthlyWeekday_eq_ok_iff.2 ⟨s, w, k, hs, hw, hk, hrange, rfl⟩
      exact ⟨_, rule_of_hasRule (.monthly _ htype hm)⟩
  | every n htype hday hreference =>
      obtain ⟨s, w, hs, hw⟩ := hday
      have hc := weeklyCadence_eq_ok_iff.2 (Or.inl ⟨s, w, hs, hreference, hw, rfl⟩)
      exact ⟨_, rule_of_hasRule (.weekly _ htype hc)⟩
  | everyNth n htype hday hreference hordinal =>
      obtain ⟨s, r, hs, hr⟩ := hreference
      obtain ⟨k, hk, hlow, hhigh⟩ := hordinal
      obtain ⟨i, rfl⟩ := Int.eq_ofNat_of_zero_le (Int.le_trans Int.one_nonneg hlow)
      have hlimit : (i : ℤ) ≤ intervalLimit := by
        rw [intervalLimit]
        omega
      have hc := weeklyCadence_eq_ok_iff.2
        (Or.inr ⟨s, r, i, hday, hs, hr, hk, hlimit, by omega, rfl⟩)
      exact ⟨_, rule_of_hasRule (.weekly _ htype hc)⟩
  | difference n i e htype hincluded hexcluded _ _ hi he =>
      obtain ⟨r, hr⟩ := hi
      obtain ⟨s, hs⟩ := he
      exact ⟨_, rule_of_hasRule (.difference i e r s htype hincluded hexcluded hr hs)⟩
  | union n ns htype hmembers hne _ ih =>
      obtain ⟨rs, hrs, hnonempty⟩ := exists_rules hne ih
      exact ⟨_, rule_of_hasRule (.union ns rs htype hmembers hrs hnonempty)⟩
  | intersection n ns htype hmembers hne _ ih =>
      obtain ⟨rs, hrs, hnonempty⟩ := exists_rules hne ih
      exact ⟨_, rule_of_hasRule (.intersection ns rs htype hmembers hrs hnonempty)⟩

theorem rule_by_validity_and_defects (n : Node) :
    ((∃ r, n.rule = .ok r) ↔ n.Valid) ∧ (n.Valid ↔ n.defects = []) ∧
      ∀ e, n.rule = .error e ↔ n.defects.head? = some e := by
  have hvalid : (∃ r, n.rule = .ok r) ↔ n.Valid :=
    ⟨fun ⟨_, h⟩ => valid_of_rule h, exists_rule_of_valid⟩
  exact ⟨hvalid, hvalid.symm.trans n.reports_rule.exists_ok_iff,
    fun e => n.reports_rule.eq_error_iff⟩

end Node

end Recurrence
