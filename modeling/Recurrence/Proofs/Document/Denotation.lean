import Recurrence.Proofs.Calendar.DateTexts
import Recurrence.Proofs.Calendar.MonthDays
import Recurrence.Proofs.Calendar.Names
import Recurrence.Proofs.Document.RoundTrip
import Recurrence.Proofs.Rule.Leaves

/-!
# The dates that a document denotes

A node denotes a set of dates by what is written in its fields, without the rule that is made of
it. On every date a schedule that was read from a document offers the slots written in the first
entry that denotes the date, and none where no entry does. For a text in which a document is
rendered, these are the entries of that document.
-/

namespace Recurrence

section Pairing

variable {α β : Type} {R : α → β → Prop} {p : α → Prop} {q : β → Bool}

theorem any_iff_of_forall₂ {as : List α} {bs : List β}
    (h : List.Forall₂ (fun a b => q b = true ↔ p a) as bs) :
    bs.any q = true ↔ ∃ a ∈ as, p a := by
  induction h with
  | nil => simp
  | cons hab _ ih => simp [hab, ih]

theorem all_iff_of_forall₂ {as : List α} {bs : List β}
    (h : List.Forall₂ (fun a b => q b = true ↔ p a) as bs) :
    bs.all q = true ↔ ∀ a ∈ as, p a := by
  induction h with
  | nil => simp
  | cons hab _ ih => simp [hab, ih]

/-- The first element found belongs to the first partner that qualifies. -/
theorem find?_of_forall₂ {before after : List α} {a : α} {bs : List β}
    (h : List.Forall₂ (fun a b => R a b ∧ (q b = true ↔ p a)) (before ++ a :: after) bs)
    (hbefore : ∀ c ∈ before, ¬ p c) (ha : p a) : ∃ b, bs.find? q = some b ∧ R a b := by
  induction before generalizing bs with
  | nil =>
      rcases h with _ | ⟨⟨hab, hq⟩, -⟩
      exact ⟨_, List.find?_cons_of_pos (hq.2 ha), hab⟩
  | cons c before ih =>
      rcases h with _ | ⟨⟨-, hq⟩, htail⟩
      have hc : ¬ p c := hbefore c (List.mem_cons_self ..)
      obtain ⟨b, hb, hab⟩ := ih htail fun c hc => hbefore c (List.mem_cons_of_mem _ hc)
      exact ⟨b, by rwa [List.find?_cons_of_neg (mt hq.1 hc)], hab⟩

end Pairing

namespace Node

/-- The window between the two written days, or from the first named month to the last. -/
def yearlyDates (n : Node) : Set Date :=
  {d | (n.bounds = some .days ∧ ∃ s t, ∃ a b : MonthDay, n.startDate = some s ∧
      n.endDate = some t ∧ MonthDay.Writes s a.month.number a.day ∧
      MonthDay.Writes t b.month.number b.day ∧ d ∈ Date.window a.month a.day b.month b.day) ∨
    (n.bounds = some .months ∧ ∃ s t, ∃ a b : Month, n.startMonth = some s ∧
      n.endMonth = some t ∧ Text.Spells s a.name ∧ Text.Spells t b.name ∧
      d ∈ Date.window a 1 b 31)}

def monthlyDates (n : Node) : Set Date :=
  {d | ∃ s, ∃ w : Weekday, ∃ k, n.day = some s ∧ Text.Spells s w.name ∧ n.ordinal = some k ∧
    d ∈ Date.nthOfMonth w k}

/-- With a day its weekday alone counts, whatever ordinal stands beside it. -/
def weeklyDates (n : Node) : Set Date :=
  {d | (∃ s, n.day = some s ∧ Text.Spells s d.weekday.name) ∨
    (∃ s, ∃ r : Date, ∃ k, n.day = none ∧ n.referenceDate = some s ∧
      Date.Writes s r.year r.month.number r.day ∧ n.ordinal = some k ∧
      d ∈ Date.everyNthWeek k r)}

mutual

def dates (n : Node) : Set Date :=
  match n with
  | ⟨type, _, _, _, _, _, _, _, _, included, excluded, members⟩ =>
    match type with
    | some .yearly => n.yearlyDates
    | some .monthly => n.monthlyDates
    | some .weekly => n.weeklyDates
    | some .difference =>
      match included, excluded with
      | some i, some e => i.dates \ e.dates
      | _, _ => ∅
    | some .union =>
      match members with
      | some ns => datesOfSome ns
      | none => ∅
    | some .intersection =>
      match members with
      | some ns => datesOfAll ns
      | none => ∅
    | _ => ∅

def datesOfSome : List Node → Set Date
  | [] => ∅
  | n :: ns => n.dates ∪ datesOfSome ns

def datesOfAll : List Node → Set Date
  | [] => Set.univ
  | n :: ns => n.dates ∩ datesOfAll ns

end

theorem dates_eq (n : Node) :
    n.dates = (match n.type with
      | some .yearly => n.yearlyDates
      | some .monthly => n.monthlyDates
      | some .weekly => n.weeklyDates
      | some .difference =>
        match n.includedDate, n.excludedDate with
        | some i, some e => i.dates \ e.dates
        | _, _ => ∅
      | some .union =>
        match n.expressions with
        | some ns => datesOfSome ns
        | none => ∅
      | some .intersection =>
        match n.expressions with
        | some ns => datesOfAll ns
        | none => ∅
      | _ => ∅) := by
  cases n with
  | mk =>
      rw [dates.eq_def]

theorem mem_datesOfSome {ns : List Node} {d : Date} :
    d ∈ datesOfSome ns ↔ ∃ n ∈ ns, d ∈ n.dates := by
  induction ns with
  | nil => simp [datesOfSome]
  | cons n ns ih => simp [datesOfSome, ih]

theorem mem_datesOfAll {ns : List Node} {d : Date} :
    d ∈ datesOfAll ns ↔ ∀ n ∈ ns, d ∈ n.dates := by
  induction ns with
  | nil => simp [datesOfAll]
  | cons n ns ih => simp [datesOfAll, ih]

theorem getD_day_ofDay {m : Month} {j : ℕ} (h : 1 ≤ j) (k : ℕ) :
    (Bound.ofDay m j).day.getD k = j := by
  rw [Bound.ofDay, if_neg (by omega), Option.getD_some]

theorem includes_iff_mem_yearlyDates {n : Node} {w : YearlyWindow} (h : n.yearlyWindow = .ok w)
    (d : Date) : w.includes d = true ↔ d ∈ n.yearlyDates := by
  rw [YearlyWindow.includes_iff]
  rcases yearlyWindow_eq_ok_iff.1 h with
    ⟨hbounds, s, t, a, b, hs, ht, ha, hb, rfl⟩ | ⟨hbounds, s, t, a, b, hs, ht, ha, hb, rfl⟩
  · simp only [YearlyWindow.days, getD_day_ofDay a.one_le_day, getD_day_ofDay b.one_le_day]
    simp [yearlyDates, ← MonthDay.read_eq_ok_iff, hbounds, hs, ht, ha, hb, Bound.ofDay]
  · simp [yearlyDates, ← Month.read_eq_ok_iff, hbounds, hs, ht, ha, hb, YearlyWindow.months,
      Bound.whole]

theorem includes_iff_mem_monthlyDates {n : Node} {m : MonthlyWeekday}
    (h : n.monthlyWeekday = .ok m) (d : Date) : m.includes d = true ↔ d ∈ n.monthlyDates := by
  rw [MonthlyWeekday.includes_iff]
  obtain ⟨s, w, k, hday, hw, hk, -, rfl⟩ := monthlyWeekday_eq_ok_iff.1 h
  simp [monthlyDates, ← Weekday.read_eq_ok_iff, hday, hw, hk]

theorem includes_iff_mem_weeklyDates {n : Node} {c : WeeklyCadence}
    (h : n.weeklyCadence = .ok c) (d : Date) : c.includes d = true ↔ d ∈ n.weeklyDates := by
  rcases weeklyCadence_eq_ok_iff.1 h with
    ⟨s, w, hday, href, hw, rfl⟩ | ⟨s, r, k, hday, href, hr, hk, -, hpos, rfl⟩
  · rw [WeeklyCadence.includes_every_iff]
    simp [weeklyDates, ← Weekday.read_eq_ok_iff, hday, hw, eq_comm]
  · rw [WeeklyCadence.includes_everyNth_iff]
    simp [weeklyDates, ← Date.read_eq_ok_iff, hday, href, hr, hk]

/-- What holds of each member and its rule holds of the members and their rules in order. -/
theorem includes_of_members {ns : List Node} {rs : List Rule} {d : Date}
    (hrs : List.Forall₂ (fun m r => m.rule = .ok r) ns rs)
    (h : ∀ m ∈ ns, ∀ r, m.rule = .ok r → (r.includes d = true ↔ d ∈ m.dates)) :
    List.Forall₂ (fun m r => r.includes d = true ↔ d ∈ m.dates) ns rs := by
  have hboth := (List.forall₂_and_left ns rs).2 ⟨h, hrs⟩
  exact hboth.imp fun m r hmr => hmr.1 r hmr.2

/-- The rule of a node holds on the dates that the node denotes. -/
theorem includes_iff_mem_dates {n : Node} {r : Rule} (h : n.rule = .ok r) (d : Date) :
    r.includes d = true ↔ d ∈ n.dates := by
  induction n using Node.induction generalizing r with
  | node n hincluded hexcluded hmembers =>
      rw [dates_eq]
      cases rule_eq_ok_iff.1 h with
      | yearly w htype hw =>
          rw [htype, Rule.includes]
          exact includes_iff_mem_yearlyDates hw d
      | monthly m htype hm =>
          rw [htype, Rule.includes]
          exact includes_iff_mem_monthlyDates hm d
      | weekly c htype hc =>
          rw [htype, Rule.includes]
          exact includes_iff_mem_weeklyDates hc d
      | difference i e r s htype hi he hr hs =>
          have hincludes := hincluded i hi hr
          have hexcludes := hexcluded e he hs
          simp only [htype, hi, he, Rule.includes_difference, Bool.and_eq_true, Bool.not_eq_true']
          rw [hincludes, ← Bool.not_eq_true, hexcludes]
          rfl
      | union ns rs htype hns hrs hne =>
          have hpairs := includes_of_members hrs fun m hm r => hmembers ns hns m hm
          simp only [htype, hns, Rule.includes_union, mem_datesOfSome]
          exact any_iff_of_forall₂ hpairs
      | intersection ns rs htype hns hrs hne =>
          have hpairs := includes_of_members hrs fun m hm r => hmembers ns hns m hm
          simp only [htype, hns, Rule.includes_intersection, mem_datesOfAll]
          exact all_iff_of_forall₂ hpairs

end Node

namespace Schedule

variable {s : Schedule} {entries : List Entry}

theorem forall₂_of_allots {as : List Allotment} (h : List.Forall₂ Entry.Allots entries as)
    (d : Date) :
    List.Forall₂ (fun e a => e.slots = some (a.slots : ℤ) ∧
      (a.occurs d = true ↔ d ∈ e.node.dates)) entries as := by
  apply h.imp
  rintro e a ⟨hrule, hslots⟩
  exact ⟨hslots, Node.includes_iff_mem_dates hrule d⟩

/-- What a schedule offers on a date is what is written in the first entry that denotes the date. -/
structure Offers (s : Schedule) (entries : List Entry) (d : Date) : Prop where
  occurs_iff : s.occurs d = true ↔ ∃ e ∈ entries, d ∈ e.node.dates
  first : ∀ before e after, entries = before ++ e :: after → (∀ b ∈ before, d ∉ b.node.dates) →
    d ∈ e.node.dates → e.slots = some (s.slots d : ℤ)
  nowhere : (∀ e ∈ entries, d ∉ e.node.dates) → s.slots d = 0

theorem offers_of_allots (h : List.Forall₂ Entry.Allots entries s.allotments) (d : Date) :
    s.Offers entries d := by
  have hpairs := forall₂_of_allots h d
  have hoccurs : s.occurs d = true ↔ ∃ e ∈ entries, d ∈ e.node.dates :=
    any_iff_of_forall₂ (hpairs.imp fun e a hea => hea.2)
  refine ⟨hoccurs, ?_, ?_⟩
  · rintro before e after rfl hbefore he
    obtain ⟨a, ha, hslots⟩ := find?_of_forall₂ hpairs hbefore he
    rw [slots, matching?, ha]
    exact hslots
  · intro hnone
    have hmatching : s.matching? d = none := by
      rw [← Option.not_isSome_iff_eq_none, ← occurs_eq_isSome_matching?, hoccurs]
      rintro ⟨e, he, hd⟩
      exact hnone e he hd
    rw [slots, hmatching]

/-- The slots of a date are those of the first entry of the document that denotes it. -/
theorem slots_of_read {text : String} {s : Schedule} (h : Schedule.read text = .ok s) :
    ∃ entries, Document.ofText? text = some ⟨some entries⟩ ∧ ∀ d : Date,
      (s.occurs d = true ↔ ∃ e ∈ entries, d ∈ e.node.dates) ∧
      (∀ before e after, entries = before ++ e :: after → (∀ b ∈ before, d ∉ b.node.dates) →
        d ∈ e.node.dates → e.slots = some (s.slots d : ℤ)) ∧
      ((∀ e ∈ entries, d ∉ e.node.dates) → s.slots d = 0) := by
  obtain ⟨entries, htext, hallots⟩ := read_eq_ok_iff.1 h
  refine ⟨entries, htext, fun d => ?_⟩
  obtain ⟨hoccurs, hfirst, hnowhere⟩ := offers_of_allots hallots d
  exact ⟨hoccurs, hfirst, hnowhere⟩

/-- The last Friday of a month has slots of its own, the other Fridays share theirs. -/
def fridays : String :=
  "\x7b\"schedule\":[" ++
    "\x7b\"slots\":7,\"type\":\"DAY_IN_MONTH\",\"day\":\"FRI\",\"ordinal\":-1\x7d," ++
    "\x7b\"slots\":3,\"type\":\"DAY_IN_WEEK\",\"day\":\" friday\",\"ordinal\":9\x7d]\x7d"

/-- The last Friday of August 2023, the one in front of it, and the Thursday between them. -/
theorem slots_of_read_fridays :
    ∃ s, ∃ e₁ e₂ : Entry, Schedule.read fridays = .ok s ∧
      Document.ofText? fridays = some ⟨some [e₁, e₂]⟩ ∧ ∃ d₁ d₂ d₃ : Date,
        d₁.civil = ⟨2023, .august, 25⟩ ∧ d₂.civil = ⟨2023, .august, 18⟩ ∧
        d₃.civil = ⟨2023, .august, 24⟩ ∧ s.slots d₁ = 7 ∧ s.slots d₂ = 3 ∧ s.slots d₃ = 0 := by
  let s : Schedule :=
    ⟨[⟨.monthly ⟨.friday, -1⟩, 7, by decide⟩, ⟨.weekly (.every .friday), 3, by decide⟩]⟩
  let d₁ : Date := ⟨738756, by decide, by decide⟩
  let d₂ : Date := ⟨738749, by decide, by decide⟩
  let d₃ : Date := ⟨738755, by decide, by decide⟩
  have hcivil : d₁.civil = ⟨2023, .august, 25⟩ ∧ d₂.civil = ⟨2023, .august, 18⟩ ∧
      d₃.civil = ⟨2023, .august, 24⟩ := by decide
  obtain ⟨hcivil₁, hcivil₂, hcivil₃⟩ := hcivil
  have h : Schedule.read fridays = .ok s := by decide +kernel
  obtain ⟨entries, htext, hslots⟩ := slots_of_read h
  obtain ⟨entries', htext', hallots⟩ := read_eq_ok_iff.1 h
  rw [htext] at htext'
  cases htext'
  -- One entry for each allotment.
  rcases hallots with
    _ | @⟨e₁, _, _, _, ⟨hrule₁, hslots₁⟩, _ | @⟨e₂, _, _, _, ⟨hrule₂, hslots₂⟩, ⟨⟩⟩⟩
  have hfirst := Node.includes_iff_mem_dates hrule₁
  have hsecond := Node.includes_iff_mem_dates hrule₂
  have hlast : e₁.slots = some (s.slots d₁ : ℤ) :=
    (hslots d₁).2.1 [] e₁ [e₂] rfl (by simp) ((hfirst d₁).1 (by decide +kernel))
  have hother : e₂.slots = some (s.slots d₂ : ℤ) := by
    refine (hslots d₂).2.1 [e₁] e₂ [] rfl ?_ ((hsecond d₂).1 (by decide +kernel))
    rw [List.forall_mem_singleton, ← hfirst d₂]
    decide +kernel
  have hnone : s.slots d₃ = 0 := by
    apply (hslots d₃).2.2
    rw [List.forall_mem_cons, List.forall_mem_singleton, ← hfirst d₃, ← hsecond d₃]
    decide +kernel
  rw [hslots₁, Option.some.injEq, Nat.cast_inj] at hlast
  rw [hslots₂, Option.some.injEq, Nat.cast_inj] at hother
  exact ⟨s, e₁, e₂, h, htext, d₁, d₂, d₃, hcivil₁, hcivil₂, hcivil₃, hlast.symm, hother.symm, hnone⟩

/-- What is written in a rendered document is what its schedule is made of. -/
theorem read_rendering_eq_ok_iff {j : Json} {text : String} (hfits : Document.Fits ⟨some entries⟩)
    (hj : Document.Renders ⟨some entries⟩ j) (htext : j.Spells text) :
    Schedule.read text = .ok s ↔
      j.depth ≤ 127 ∧ List.Forall₂ Entry.Allots entries s.allotments := by
  rw [read_eq_ok_iff, Document.ofText?_of_spells hfits hj htext]
  split_ifs with hdepth
  · simp [hdepth]
  · simp [hdepth]

/-- The slots of a date are those written in the text for the first entry that denotes it. -/
theorem offers_of_rendering {j : Json} {text : String} (hfits : Document.Fits ⟨some entries⟩)
    (hj : Document.Renders ⟨some entries⟩ j) (htext : j.Spells text)
    (h : Schedule.read text = .ok s) (d : Date) : s.Offers entries d :=
  offers_of_allots ((read_rendering_eq_ok_iff hfits hj htext).1 h).2 d

end Schedule

end Recurrence
