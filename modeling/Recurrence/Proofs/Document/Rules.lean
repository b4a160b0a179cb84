import Recurrence.Document.Meaning
import Recurrence.Proofs.Steps

/-!
# Nodes that have a rule

Which nodes have a rule, and which one, is said once for each type of node in the terms of the
fields that the type reads. A statement on all nodes is proved by induction on the nodes below.
-/

namespace Recurrence

theorem exists_of_forall₂ {α β : Type} {R : α → β → Prop} {as : List α} {bs : List β}
    (h : List.Forall₂ R as bs) {b : β} (hb : b ∈ bs) : ∃ a ∈ as, R a b := by
  induction h with
  | nil => cases hb
  | @cons a c _ _ hac _ ih =>
      rcases List.mem_cons.1 hb with rfl | hb
      · exact ⟨a, List.mem_cons_self, hac⟩
      · obtain ⟨a', ha', hab⟩ := ih hb
        exact ⟨a', List.mem_cons_of_mem a ha', hab⟩

namespace Node

theorem required_eq_ok_iff {name s : String} {field : Option String} :
    required name field = .ok s ↔ field = some s := by
  cases field with
  | none => simp [required]
  | some t => simp [required]

theorem yearlyWindow_eq_ok_iff {n : Node} {w : YearlyWindow} :
    n.yearlyWindow = .ok w ↔
      (n.bounds = some .days ∧ ∃ s t a b, n.startDate = some s ∧ n.endDate = some t ∧
        MonthDay.read s = .ok a ∧ MonthDay.read t = .ok b ∧ w = .days a b) ∨
      (n.bounds = some .months ∧ ∃ s t a b, n.startMonth = some s ∧ n.endMonth = some t ∧
        Month.read s = .ok a ∧ Month.read t = .ok b ∧ w = .months a b) := by
  unfold yearlyWindow
  split
  · rename_i hbounds
    simp [hbounds]
  · rename_i hbounds
    simp [hbounds]
  · rename_i hbounds
    simp only [bind_eq_ok_iff, pure_eq_ok_iff, required_eq_ok_iff, hbounds]
    constructor
    · rintro ⟨s, hs, a, ha, t, ht, b, hb, rfl⟩
      exact Or.inl ⟨trivial, s, t, a, b, hs, ht, ha, hb, rfl⟩
    · rintro (⟨-, s, t, a, b, hs, ht, ha, hb, rfl⟩ | ⟨hne, -⟩)
      · exact ⟨s, hs, a, ha, t, ht, b, hb, rfl⟩
      · cases hne
  · rename_i hbounds
    simp only [bind_eq_ok_iff, pure_eq_ok_iff, required_eq_ok_iff, hbounds]
    constructor
    · rintro ⟨s, hs, a, ha, t, ht, b, hb, rfl⟩
      exact Or.inr ⟨trivial, s, t, a, b, hs, ht, ha, hb, rfl⟩
    · rintro (⟨hne, -⟩ | ⟨-, s, t, a, b, hs, ht, ha, hb, rfl⟩)
      · cases hne
      · exact ⟨s, hs, a, ha, t, ht, b, hb, rfl⟩

theorem ofOrdinal_eq_ok_iff {w : Weekday} {k : ℤ} {m : MonthlyWeekday} :
    MonthlyWeekday.ofOrdinal w k = .ok m ↔ (k ≠ 0 ∧ -5 ≤ k ∧ k ≤ 5) ∧ m = ⟨w, k⟩ := by
  unfold MonthlyWeekday.ofOrdinal
  split_ifs with h
  · simp only [false_iff]
    omega
  · rw [Except.ok.injEq, eq_comm]
    exact (and_iff_right (by omega)).symm

theorem monthlyWeekday_eq_ok_iff {n : Node} {m : MonthlyWeekday} :
    n.monthlyWeekday = .ok m ↔ ∃ s w k, n.day = some s ∧ Weekday.read s = .ok w ∧
      n.ordinal = some k ∧ (k ≠ 0 ∧ -5 ≤ k ∧ k ≤ 5) ∧ m = ⟨w, k⟩ := by
  unfold monthlyWeekday
  cases n.day with
  | none => simp
  | some s =>
      simp only [bind_eq_ok_iff]
      cases n.ordinal with
      | none => simp
      | some k =>
          constructor
          · rintro ⟨w, hw, h⟩
            dsimp only at h
            split_ifs at h with hwide
            exact ⟨s, w, k, rfl, hw, rfl, ofOrdinal_eq_ok_iff.1 h⟩
          · rintro ⟨t, w, l, ht, hw, hl, hrange, rfl⟩
            cases ht
            cases hl
            refine ⟨w, hw, ?_⟩
            dsimp only
            rw [if_pos (by omega)]
            exact ofOrdinal_eq_ok_iff.2 ⟨hrange, rfl⟩

/-- An interval of 0 stands for none and is refused. -/
theorem ofParts_none_eq_ok_iff {n : ℕ} {r : Date} {c : WeeklyCadence} :
    WeeklyCadence.ofParts none n (some r) = .ok c ↔ ∃ hn : 0 < n, c = .everyNth n r hn := by
  cases n with
  | zero => simp [WeeklyCadence.ofParts]
  | succ n => simp [WeeklyCadence.ofParts, WeeklyCadence.ofInterval, eq_comm]

theorem weeklyInterval_eq_ok_iff {ordinal : Option ℤ} {n : ℕ} :
    weeklyInterval ordinal = .ok n ↔
      ordinal = none ∧ n = 0 ∨ ordinal = some (n : ℤ) ∧ (n : ℤ) ≤ intervalLimit := by
  cases ordinal with
  | none => simp [weeklyInterval, eq_comm]
  | some k =>
      simp only [weeklyInterval, Option.some.injEq, reduceCtorEq, false_and, false_or]
      split_ifs with h
      · rw [Except.ok.injEq]
        omega
      · simp only [false_iff]
        omega

theorem weeklyCadence_eq_ok_iff {n : Node} {c : WeeklyCadence} :
    n.weeklyCadence = .ok c ↔
      (∃ s w, n.day = some s ∧ n.referenceDate = none ∧ Weekday.read s = .ok w ∧ c = .every w) ∨
      (∃ s r, ∃ k : ℕ, n.day = none ∧ n.referenceDate = some s ∧ Date.read s = .ok r ∧
        n.ordinal = some (k : ℤ) ∧ (k : ℤ) ≤ intervalLimit ∧
        ∃ hk : 0 < k, c = .everyNth k r hk) := by
  unfold weeklyCadence
  cases n.day with
  | none =>
      cases n.referenceDate with
      | none => simp
      | some s =>
          simp only [bind_eq_ok_iff, weeklyInterval_eq_ok_iff, ofParts_none_eq_ok_iff]
          constructor
          · rintro ⟨r, hr, k, (⟨-, rfl⟩ | ⟨hk, hle⟩), hpos, rfl⟩
            · exact absurd hpos (by decide)
            · exact Or.inr ⟨s, r, k, trivial, rfl, hr, hk, hle, hpos, rfl⟩
          · rintro (⟨t, w, ht, -⟩ | ⟨t, r, k, -, ht, hr, hk, hle, hpos, rfl⟩)
            · cases ht
            · cases ht
              exact ⟨r, hr, k, Or.inr ⟨hk, hle⟩, hpos, rfl⟩
  | some s =>
      cases n.referenceDate with
      | none =>
          simp only [bind_eq_ok_iff, pure_eq_ok_iff]
          constructor
          · rintro ⟨w, hw, rfl⟩
            exact Or.inl ⟨s, w, rfl, trivial, hw, rfl⟩
          · rintro (⟨t, w, ht, -, hw, rfl⟩ | ⟨t, r, k, ht, -⟩)
            · cases ht
              exact ⟨w, hw, rfl⟩
            · cases ht
      | some t => simp

/-- A property holds of every node when it passes from the nodes below a node to the node. -/
theorem induction {motive : Node → Prop}
    (node : ∀ n : Node, (∀ m, n.includedDate = some m → motive m) →
      (∀ m, n.excludedDate = some m → motive m) →
      (∀ ns, n.expressions = some ns → ∀ m ∈ ns, motive m) → motive n) (n : Node) : motive n := by
  apply @Node.rec motive (fun below => ∀ m, below = some m → motive m)
    (fun below => ∀ ns, below = some ns → ∀ m ∈ ns, motive m) (fun ns => ∀ m ∈ ns, motive m)
  · intro type bounds startDate endDate startMonth endMonth day ordinal reference included
      excluded members hincluded hexcluded hmembers
    exact node _ hincluded hexcluded hmembers
  · intro m h
    cases h
  · intro n hn m h
    cases h
    exact hn
  · intro ns h
    cases h
  · intro ns hns ms h
    cases h
    exact hns
  · intro m h
    cases h
  · intro n ns hn hns m hm
    rcases List.mem_cons.1 hm with rfl | hm
    · exact hn
    · exact hns m hm

/-- How a rule comes from a node, by the type of the node. -/
inductive HasRule (n : Node) : Rule → Prop
  | yearly (w : YearlyWindow) (htype : n.type = some .yearly) (hw : n.yearlyWindow = .ok w) :
      n.HasRule (.yearly w)
  | monthly (m : MonthlyWeekday) (htype : n.type = some .monthly)
      (hm : n.monthlyWeekday = .ok m) : n.HasRule (.monthly m)
  | weekly (c : WeeklyCadence) (htype : n.type = some .weekly) (hc : n.weeklyCadence = .ok c) :
      n.HasRule (.weekly c)
  | difference (i e : Node) (r s : Rule) (htype : n.type = some .difference)
      (hi : n.includedDate = some i) (he : n.excludedDate = some e) (hr : i.rule = .ok r)
      (hs : e.rule = .ok s) : n.HasRule (.difference r s)
  | union (ns : List Node) (rs : List Rule) (htype : n.type = some .union)
      (hns : n.expressions = some ns) (hrs : List.Forall₂ (fun m r => m.rule = .ok r) ns rs)
      (hne : rs ≠ []) : n.HasRule (.union rs)
  | intersection (ns : List Node) (rs : List Rule) (htype : n.type = some .intersection)
      (hns : n.expressions = some ns) (hrs : List.Forall₂ (fun m r => m.rule = .ok r) ns rs)
      (hne : rs ≠ []) : n.HasRule (.intersection rs)

theorem rules_eq_ok_iff {ns : List Node} {rs : List Rule} :
    rules ns = .ok rs ↔ List.Forall₂ (fun m r => m.rule = .ok r) ns rs := by
  induction ns generalizing rs with
  | nil => simp [rules, eq_comm]
  | cons n ns ih =>
      simp only [rules, bind_eq_ok_iff, pure_eq_ok_iff, ih]
      constructor
      · rintro ⟨r, hr, rs, hrs, rfl⟩
        exact List.Forall₂.cons hr hrs
      · rintro (_ | ⟨hr, hrs⟩)
        exact ⟨_, hr, _, hrs, rfl⟩

theorem unionOf_eq_ok_iff {rs : List Rule} {r : Rule} :
    Rule.unionOf rs = .ok r ↔ rs ≠ [] ∧ r = .union rs := by
  cases rs with
  | nil => simp [Rule.unionOf]
  | cons s rs => simp [Rule.unionOf, eq_comm]

theorem intersectionOf_eq_ok_iff {rs : List Rule} {r : Rule} :
    Rule.intersectionOf rs = .ok r ↔ rs ≠ [] ∧ r = .intersection rs := by
  cases rs with
  | nil => simp [Rule.intersectionOf]
  | cons s rs => simp [Rule.intersectionOf, eq_comm]

theorem rule_eq (n : Node) :
    n.rule = (match n.type with
      | none => .error .missingType
      | some .unknown => .error .unknownType
      | some .yearly => do return .yearly (← n.yearlyWindow)
      | some .monthly => do return .monthly (← n.monthlyWeekday)
      | some .weekly => do return .weekly (← n.weeklyCadence)
      | some .difference =>
        match n.includedDate, n.excludedDate with
        | none, _ => .error .missingIncluded
        | some _, none => .error .missingExcluded
        | some i, some e => do
          let r ← i.rule
          let s ← e.rule
          return .difference r s
      | some .union =>
        match n.expressions with
        | none => .error (.missingMembers .union)
        | some ns => do Rule.unionOf (← rules ns)
      | some .intersection =>
        match n.expressions with
        | none => .error (.missingMembers .intersection)
        | some ns => do Rule.intersectionOf (← rules ns)) := by
  cases n with
  | mk => exact rule.eq_def _

theorem hasRule_of_rule {n : Node} {r : Rule} (h : n.rule = .ok r) : n.HasRule r := by
  rw [rule_eq] at h
  split at h
  · cases h
  · cases h
  · rename_i htype
    obtain ⟨w, hw, h⟩ := bind_eq_ok_iff.1 h
    obtain rfl := pure_eq_ok_iff.1 h
    exact .yearly w htype hw
  · rename_i htype
    obtain ⟨m, hm, h⟩ := bind_eq_ok_iff.1 h
    obtain rfl := pure_eq_ok_iff.1 h
    exact .monthly m htype hm
  · rename_i htype
    obtain ⟨c, hc, h⟩ := bind_eq_ok_iff.1 h
    obtain rfl := pure_eq_ok_iff.1 h
    exact .weekly c htype hc
  · rename_i htype
    split at h
    · cases h
    · cases h
    · rename_i i e hi he
      obtain ⟨r, hr, h⟩ := bind_eq_ok_iff.1 h
      obtain ⟨s, hs, h⟩ := bind_eq_ok_iff.1 h
      obtain rfl := pure_eq_ok_iff.1 h
      exact .difference i e r s htype hi he hr hs
  · rename_i htype
    split at h
    · cases h
    · rename_i ns hns
      obtain ⟨rs, hrs, h⟩ := bind_eq_ok_iff.1 h
      obtain ⟨hne, rfl⟩ := unionOf_eq_ok_iff.1 h
      exact .union ns rs htype hns (rules_eq_ok_iff.1 hrs) hne
  · rename_i htype
    split at h
    · cases h
    · rename_i ns hns
      obtain ⟨rs, hrs, h⟩ := bind_eq_ok_iff.1 h
      obtain ⟨hne, rfl⟩ := intersectionOf_eq_ok_iff.1 h
      exact .intersection ns rs htype hns (rules_eq_ok_iff.1 hrs) hne

theorem rule_of_hasRule {n : Node} {r : Rule} (h : n.HasRule r) : n.rule = .ok r := by
  rw [rule_eq]
  cases h with
  | yearly w htype hw =>
      rw [htype, hw]
      rfl
  | monthly m htype hm =>
      rw [htype, hm]
      rfl
  | weekly c htype hc =>
      rw [htype, hc]
      rfl
  | difference i e r s htype hi he hr hs =>
      simp only [htype, hi, he]
      rw [hr, hs]
      rfl
  | union ns rs htype hns hrs hne =>
      simp only [htype, hns]
      rw [rules_eq_ok_iff.2 hrs]
      exact unionOf_eq_ok_iff.2 ⟨hne, rfl⟩
  | intersection ns rs htype hns hrs hne =>
      simp only [htype, hns]
      rw [rules_eq_ok_iff.2 hrs]
      exact intersectionOf_eq_ok_iff.2 ⟨hne, rfl⟩

theorem rule_eq_ok_iff {n : Node} {r : Rule} : n.rule = .ok r ↔ n.HasRule r :=
  ⟨hasRule_of_rule, rule_of_hasRule⟩

end Node

theorem ofSlots_eq_ok_iff {r : Rule} {k : ℤ} {a : Allotment} :
    Allotment.ofSlots r k = .ok a ↔ a.rule = r ∧ (a.slots : ℤ) = k := by
  obtain ⟨rule, slots, hslots⟩ := a
  unfold Allotment.ofSlots
  split_ifs with hneg hle
  · simp only [false_iff]
    omega
  · rw [Except.ok.injEq, Allotment.mk.injEq, eq_comm (a := r)]
    apply and_congr_right
    intro _
    dsimp only
    omega
  · simp only [false_iff]
    rintro ⟨-, rfl⟩
    exact hle hslots

namespace Entry

/-- The allotment of an entry has the rule of its node and the slots that are written. -/
def Allots (e : Entry) (a : Allotment) : Prop :=
  e.node.rule = .ok a.rule ∧ e.slots = some (a.slots : ℤ)

theorem allotment_eq_ok_iff {i : ℕ} {e : Entry} {a : Allotment} :
    e.allotment i = .ok a ↔ e.Allots a := by
  unfold allotment Allots
  cases e.slots with
  | none => simp
  | some k =>
      simp only [bind_eq_ok_iff, ofSlots_eq_ok_iff, Option.some.injEq]
      constructor
      · rintro ⟨r, hr, rfl, hk⟩
        exact ⟨hr, hk.symm⟩
      · rintro ⟨hr, hk⟩
        exact ⟨a.rule, hr, rfl, hk.symm⟩

theorem allotments_eq_ok_iff {i : ℕ} {es : List Entry} {as : List Allotment} :
    allotments i es = .ok as ↔ List.Forall₂ Allots es as := by
  induction es generalizing i as with
  | nil => simp [allotments, eq_comm]
  | cons e es ih =>
      simp only [allotments, bind_eq_ok_iff, pure_eq_ok_iff, allotment_eq_ok_iff, ih]
      constructor
      · rintro ⟨a, ha, as, has, rfl⟩
        exact List.Forall₂.cons ha has
      · rintro (_ | ⟨ha, has⟩)
        exact ⟨_, ha, _, has, rfl⟩

end Entry

theorem Schedule.read_eq_ok_iff {text : String} {s : Schedule} :
    Schedule.read text = .ok s ↔
      ∃ es, Document.ofText? text = some ⟨some es⟩ ∧
        List.Forall₂ Entry.Allots es s.allotments := by
  unfold Schedule.read
  cases Document.ofText? text with
  | none => simp
  | some doc =>
      obtain ⟨schedule⟩ := doc
      cases schedule with
      | none => simp [ofDocument, Document.allotments, bind, Except.bind]
      | some es =>
          simp only [ofDocument, Document.allotments, bind_eq_ok_iff, pure_eq_ok_iff,
            Entry.allotments_eq_ok_iff]
          constructor
          · rintro ⟨as, has, rfl⟩
            exact ⟨es, rfl, has⟩
          · rintro ⟨es', hes, has⟩
            cases hes
            exact ⟨s.allotments, has, rfl⟩

end Recurrence
