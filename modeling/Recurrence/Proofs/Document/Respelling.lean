import Recurrence.Proofs.Calendar.DateTexts
import Recurrence.Proofs.Calendar.MonthDays
import Recurrence.Proofs.Calendar.Names
import Recurrence.Proofs.Document.Rules

/-!
# Nodes with their texts respelled

A name may be written in full or by three letters and in any letter case, a month-day with more
zeros, plus signs and blanks, and a date with blanks around it. A node is respelled when each text
that its type reads is replaced by another one of the same meaning, and the nodes below it are
respelled in their turn. What has a rule keeps it through any respelling.
-/

namespace Recurrence

open Text

/-- Both texts spell the same one of some names. -/
def Text.SameName {α : Type} (name : α → String) (s s' : String) : Prop :=
  ∃ a, Spells s (name a) ∧ Spells s' (name a)

/-- Both texts write the same two numbers. -/
def MonthDay.SameNumbers (s s' : String) : Prop := ∃ m j, Writes s m j ∧ Writes s' m j

/-- The texts differ only in the blanks around them. -/
def Text.SameInside (s s' : String) : Prop := ∃ t, Padded t s.toList ∧ Padded t s'.toList

variable {s s' : String}

theorem Weekday.read_eq_of_sameName (h : SameName name s s') : read s' = read s := by
  obtain ⟨w, hs, hs'⟩ := h
  rw [read_eq_ok_iff.2 hs, read_eq_ok_iff.2 hs']

theorem Month.read_eq_of_sameName (h : SameName name s s') : read s' = read s := by
  obtain ⟨m, hs, hs'⟩ := h
  rw [read_eq_ok_iff.2 hs, read_eq_ok_iff.2 hs']

theorem MonthDay.read_eq_of_sameNumbers (h : SameNumbers s s') : read s' = read s := by
  obtain ⟨m, j, hs, hs'⟩ := h
  rw [read_of_writes hs, read_of_writes hs']

theorem Weekday.sameName_self {w : Weekday} (h : read s = .ok w) : SameName name s s :=
  ⟨w, read_eq_ok_iff.1 h, read_eq_ok_iff.1 h⟩

theorem Month.sameName_self {m : Month} (h : read s = .ok m) : SameName name s s :=
  ⟨m, read_eq_ok_iff.1 h, read_eq_ok_iff.1 h⟩

theorem MonthDay.sameNumbers_self {a : MonthDay} (h : read s = .ok a) : SameNumbers s s := by
  cases read_eq_iff_outcome.1 h with
  | numbers hwrites => exact ⟨_, _, hwrites, hwrites⟩

theorem Date.read_eq_ok_iff_of_sameInside {d : Date} (h : SameInside s s') :
    read s' = .ok d ↔ read s = .ok d := by
  obtain ⟨t, hs, hs'⟩ := h
  exact read_eq_ok_congr (hs'.trim_eq.trans hs.trim_eq.symm)

/-- The content of a field goes over into a related content. -/
theorem exists_of_rel {α : Type} {R : α → α → Prop} {o o' : Option α} (h : Option.Rel R o o')
    {a : α} (ha : o = some a) : ∃ a', o' = some a' ∧ R a a' := by
  cases h with
  | none => cases ha
  | some h =>
      cases ha
      exact ⟨_, rfl, h⟩

theorem rel_self {α : Type} {R : α → α → Prop} {o : Option α} (h : ∀ a, o = some a → R a a) :
    Option.Rel R o o := by
  cases o with
  | none => exact .none
  | some a => exact .some (h a rfl)

theorem eq_none_of_rel {α : Type} {R : α → α → Prop} {o o' : Option α} (h : Option.Rel R o o')
    (ho : o = none) : o' = none := by
  cases h with
  | none => rfl
  | some h => cases ho

namespace Node

/-- The nodes have the same type, and the texts that it reads have the same meaning. -/
inductive Respelled : Node → Node → Prop
  | yearly {n n' : Node} (htype : n'.type = n.type) (hread : n.type = some .yearly)
      (hbounds : n'.bounds = n.bounds)
      (hdays : n.bounds = some .days → Option.Rel MonthDay.SameNumbers n.startDate n'.startDate ∧
        Option.Rel MonthDay.SameNumbers n.endDate n'.endDate)
      (hmonths : n.bounds = some .months →
        Option.Rel (SameName Month.name) n.startMonth n'.startMonth ∧
          Option.Rel (SameName Month.name) n.endMonth n'.endMonth) : Respelled n n'
  | monthly {n n' : Node} (htype : n'.type = n.type) (hread : n.type = some .monthly)
      (hday : Option.Rel (SameName Weekday.name) n.day n'.day) (hordinal : n'.ordinal = n.ordinal) :
      Respelled n n'
  | weekly {n n' : Node} (htype : n'.type = n.type) (hread : n.type = some .weekly)
      (hday : Option.Rel (SameName Weekday.name) n.day n'.day)
      (hreference : Option.Rel SameInside n.referenceDate n'.referenceDate)
      (hordinal : n.day = none → n'.ordinal = n.ordinal) : Respelled n n'
  | difference {n n' : Node} (htype : n'.type = n.type) (hread : n.type = some .difference)
      (hincluded : Option.Rel Respelled n.includedDate n'.includedDate)
      (hexcluded : Option.Rel Respelled n.excludedDate n'.excludedDate) : Respelled n n'
  | combination {n n' : Node} (htype : n'.type = n.type)
      (hread : n.type = some .union ∨ n.type = some .intersection)
      (hmembers : Option.Rel (List.Forall₂ Respelled) n.expressions n'.expressions) :
      Respelled n n'

variable {n n' : Node}

theorem yearlyWindow_of_respelled {w : YearlyWindow} (hw : n.yearlyWindow = .ok w)
    (hbounds : n'.bounds = n.bounds)
    (hdays : n.bounds = some .days → Option.Rel MonthDay.SameNumbers n.startDate n'.startDate ∧
      Option.Rel MonthDay.SameNumbers n.endDate n'.endDate)
    (hmonths : n.bounds = some .months →
      Option.Rel (SameName Month.name) n.startMonth n'.startMonth ∧
        Option.Rel (SameName Month.name) n.endMonth n'.endMonth) : n'.yearlyWindow = .ok w := by
  rw [yearlyWindow_eq_ok_iff] at hw ⊢
  rcases hw with ⟨hof, s, t, a, b, hs, ht, ha, hb, rfl⟩ | ⟨hof, s, t, a, b, hs, ht, ha, hb, rfl⟩
  · obtain ⟨hstart, hend⟩ := hdays hof
    obtain ⟨s', hs', hss'⟩ := exists_of_rel hstart hs
    obtain ⟨t', ht', htt'⟩ := exists_of_rel hend ht
    have ha' := (MonthDay.read_eq_of_sameNumbers hss').trans ha
    have hb' := (MonthDay.read_eq_of_sameNumbers htt').trans hb
    exact Or.inl ⟨hbounds.trans hof, s', t', a, b, hs', ht', ha', hb', rfl⟩
  · obtain ⟨hstart, hend⟩ := hmonths hof
    obtain ⟨s', hs', hss'⟩ := exists_of_rel hstart hs
    obtain ⟨t', ht', htt'⟩ := exists_of_rel hend ht
    have ha' := (Month.read_eq_of_sameName hss').trans ha
    have hb' := (Month.read_eq_of_sameName htt').trans hb
    exact Or.inr ⟨hbounds.trans hof, s', t', a, b, hs', ht', ha', hb', rfl⟩

theorem monthlyWeekday_of_respelled {m : MonthlyWeekday} (hm : n.monthlyWeekday = .ok m)
    (hday : Option.Rel (SameName Weekday.name) n.day n'.day) (hordinal : n'.ordinal = n.ordinal) :
    n'.monthlyWeekday = .ok m := by
  rw [monthlyWeekday_eq_ok_iff] at hm ⊢
  obtain ⟨s, w, k, hs, hw, hk, hrange, rfl⟩ := hm
  obtain ⟨s', hs', hss'⟩ := exists_of_rel hday hs
  have hw' := (Weekday.read_eq_of_sameName hss').trans hw
  exact ⟨s', w, k, hs', hw', hordinal.trans hk, hrange, rfl⟩

theorem weeklyCadence_of_respelled {c : WeeklyCadence} (hc : n.weeklyCadence = .ok c)
    (hday : Option.Rel (SameName Weekday.name) n.day n'.day)
    (hreference : Option.Rel SameInside n.referenceDate n'.referenceDate)
    (hordinal : n.day = none → n'.ordinal = n.ordinal) : n'.weeklyCadence = .ok c := by
  rw [weeklyCadence_eq_ok_iff] at hc ⊢
  rcases hc with ⟨s, w, hs, hnone, hw, rfl⟩ | ⟨s, r, k, hnone, hs, hr, hk, hle, hpos, rfl⟩
  · obtain ⟨s', hs', hss'⟩ := exists_of_rel hday hs
    have hw' := (Weekday.read_eq_of_sameName hss').trans hw
    exact Or.inl ⟨s', w, hs', eq_none_of_rel hreference hnone, hw', rfl⟩
  · obtain ⟨s', hs', hss'⟩ := exists_of_rel hreference hs
    have hr' := (Date.read_eq_ok_iff_of_sameInside hss').2 hr
    have hk' := (hordinal hnone).trans hk
    exact Or.inr ⟨s', r, k, eq_none_of_rel hday hnone, hs', hr', hk', hle, hpos, rfl⟩

theorem rules_of_respelled {ns ns' : List Node} {rs : List Rule}
    (hrs : List.Forall₂ (fun m r => m.rule = .ok r) ns rs) (h : List.Forall₂ Respelled ns ns')
    (hrule : ∀ m ∈ ns, ∀ m' r, m.Respelled m' → m.rule = .ok r → m'.rule = .ok r) :
    List.Forall₂ (fun m r => m.rule = .ok r) ns' rs := by
  induction h generalizing rs with
  | nil => exact hrs
  | @cons m m' _ _ hm _ ih =>
      rw [List.forall_mem_cons] at hrule
      cases hrs with
      | cons hr hrs => exact .cons (hrule.1 m' _ hm hr) (ih hrs hrule.2)

/-- A rule is kept through any respelling of its node. -/
theorem rule_of_respelled {r : Rule} (h : n.Respelled n') (h' : n.rule = .ok r) :
    n'.rule = .ok r := by
  -- The nodes below `n` carry the induction, whatever they are respelled as.
  induction n using Node.induction generalizing n' r with
  | node n hincluded hexcluded hmembers =>
      cases h with
      | yearly htype hread hbounds hdays hmonths =>
          rw [rule_eq, hread] at h'
          obtain ⟨w, hw, hpure⟩ := bind_eq_ok_iff.1 h'
          obtain rfl := pure_eq_ok_iff.1 hpure
          have hw' := yearlyWindow_of_respelled hw hbounds hdays hmonths
          exact rule_of_hasRule (.yearly w (htype.trans hread) hw')
      | monthly htype hread hday hordinal =>
          rw [rule_eq, hread] at h'
          obtain ⟨m, hm, hpure⟩ := bind_eq_ok_iff.1 h'
          obtain rfl := pure_eq_ok_iff.1 hpure
          have hm' := monthlyWeekday_of_respelled hm hday hordinal
          exact rule_of_hasRule (.monthly m (htype.trans hread) hm')
      | weekly htype hread hday hreference hordinal =>
          rw [rule_eq, hread] at h'
          obtain ⟨c, hc, hpure⟩ := bind_eq_ok_iff.1 h'
          obtain rfl := pure_eq_ok_iff.1 hpure
          have hc' := weeklyCadence_of_respelled hc hday hreference hordinal
          exact rule_of_hasRule (.weekly c (htype.trans hread) hc')
      | difference htype hread hi he =>
          cases rule_eq_ok_iff.1 h' with
          | difference i e r s _ hi' he' hr hs =>
              obtain ⟨i', hinc, hii⟩ := exists_of_rel hi hi'
              obtain ⟨e', hexc, hee⟩ := exists_of_rel he he'
              exact rule_of_hasRule (.difference i' e' r s (htype.trans hread) hinc hexc
                (hincluded i hi' hii hr) (hexcluded e he' hee hs))
          | yearly _ htype' | monthly _ htype' | weekly _ htype' | union _ _ htype'
          | intersection _ _ htype' => cases hread.symm.trans htype'
      | combination htype hread hns =>
          cases rule_eq_ok_iff.1 h' with
          | union ns rs htype' hns' hrs hne =>
              obtain ⟨ms, hms, hall⟩ := exists_of_rel hns hns'
              have hrs' := rules_of_respelled hrs hall fun m hm m' r => hmembers ns hns' m hm
              exact rule_of_hasRule (.union ms rs (htype.trans htype') hms hrs' hne)
          | intersection ns rs htype' hns' hrs hne =>
              obtain ⟨ms, hms, hall⟩ := exists_of_rel hns hns'
              have hrs' := rules_of_respelled hrs hall fun m hm m' r => hmembers ns hns' m hm
              exact rule_of_hasRule (.intersection ms rs (htype.trans htype') hms hrs' hne)
          | yearly _ htype' | monthly _ htype' | weekly _ htype' | difference _ _ _ _ htype' =>
              simp [htype'] at hread

theorem respelled_self_of_yearlyWindow {w : YearlyWindow} (hread : n.type = some .yearly)
    (hw : n.yearlyWindow = .ok w) : n.Respelled n := by
  rcases yearlyWindow_eq_ok_iff.1 hw with
    ⟨hof, s, t, a, b, hs, ht, ha, hb, -⟩ | ⟨hof, s, t, a, b, hs, ht, ha, hb, -⟩
  · refine .yearly rfl hread rfl (fun _ => ?_) (by simp [hof])
    rw [hs, ht]
    exact ⟨.some (MonthDay.sameNumbers_self ha), .some (MonthDay.sameNumbers_self hb)⟩
  · refine .yearly rfl hread rfl (by simp [hof]) fun _ => ?_
    rw [hs, ht]
    exact ⟨.some (Month.sameName_self ha), .some (Month.sameName_self hb)⟩

/-- Every node that has a rule is a respelling of itself. -/
theorem respelled_self {r : Rule} (h : n.rule = .ok r) : n.Respelled n := by
  induction n using Node.induction generalizing r with
  | node n hincluded hexcluded hmembers =>
      have hall : ∀ ns rs, n.expressions = some ns →
          List.Forall₂ (fun m r => m.rule = .ok r) ns rs →
          Option.Rel (List.Forall₂ Respelled) n.expressions n.expressions := by
        intro ns rs hns hrs
        rw [hns]
        refine .some (List.forall₂_same.2 fun m hm => ?_)
        obtain ⟨r, -, hr⟩ := exists_of_forall₂ hrs.flip hm
        exact hmembers ns hns m hm hr
      cases rule_eq_ok_iff.1 h with
      | yearly w htype hw => exact respelled_self_of_yearlyWindow htype hw
      | monthly m htype hm =>
          obtain ⟨s, w, k, hs, hw, -⟩ := monthlyWeekday_eq_ok_iff.1 hm
          refine .monthly rfl htype ?_ rfl
          rw [hs]
          exact .some (Weekday.sameName_self hw)
      | weekly c htype hc =>
          have hinside : ∀ s : String, SameInside s s := fun s => ⟨_, Padded.refl _, Padded.refl _⟩
          refine .weekly rfl htype (rel_self fun s hs => ?_) (rel_self fun s _ => hinside s)
            fun _ => rfl
          rcases weeklyCadence_eq_ok_iff.1 hc with ⟨t, w, ht, -, hw, -⟩ | ⟨t, d, k, hnone, -⟩
          · cases hs.symm.trans ht
            exact Weekday.sameName_self hw
          · cases hs.symm.trans hnone
      | difference i e r s htype hi he hr hs =>
          refine .difference rfl htype ?_ ?_
          · rw [hi]
            exact .some (hincluded i hi hr)
          · rw [he]
            exact .some (hexcluded e he hs)
      | union ns rs htype hns hrs hne => exact .combination rfl (Or.inl htype) (hall ns rs hns hrs)
      | intersection ns rs htype hns hrs hne =>
          exact .combination rfl (Or.inr htype) (hall ns rs hns hrs)

/-- Every node that has a rule can be respelled, and each respelling has the same rule. The names of
weekdays and months have no other spellings than those that are read, all of them in letters of
ASCII, and none of them is shared. -/
theorem respelling_keeps_rule :
    (∀ (n : Node) (r : Rule), n.rule = .ok r →
      n.Respelled n ∧ ∀ n', n.Respelled n' → n'.rule = .ok r) ∧
      (∀ text w, Weekday.read text = .ok w ↔ Spells text w.name) ∧
      (∀ text m, Month.read text = .ok m ↔ Spells text m.name) ∧
      (∀ text, (∃ w : Weekday, Spells text w.name) ∨ (∃ m : Month, Spells text m.name) →
        ∀ c ∈ trim text.toList, c.isAlpha = true ∧ c.toNat < 128) ∧
      (∀ text (v w : Weekday), Spells text v.name → Spells text w.name → v = w) ∧
      (∀ text (m m' : Month), Spells text m.name → Spells text m'.name → m = m') ∧
      ∀ text (m : Month) (w : Weekday), Spells text m.name → ¬ Spells text w.name := by
  have hascii : ∀ {c : Char}, c.isAlpha = true → c.isAlpha = true ∧ c.toNat < 128 := fun hc =>
    ⟨hc, (toNat_of_isAlpha hc).2.trans_lt (by decide)⟩
  refine ⟨fun n r h => ⟨respelled_self h, fun n' h' => rule_of_respelled h' h⟩,
    fun text w => Weekday.read_eq_ok_iff, fun text m => Month.read_eq_ok_iff, ?_,
    fun text v w => Weekday.eq_of_spells, fun text m m' => Month.eq_of_spells,
    fun text m w h => Month.not_spells_weekday h w⟩
  rintro text (⟨w, hw⟩ | ⟨m, hm⟩) c hc
  · exact hascii (hw.isAlpha_trim w.isAlpha_name c hc)
  · exact hascii (hm.isAlpha_trim m.isAlpha_name c hc)

/-- Every second Friday from a reference, but not in the summer. -/
def secondFridays (friday start stop reference : String) : Node :=
  { type := some .difference
    includedDate := some
      { type := some .intersection
        expressions := some
          [{ type := some .weekly, day := some friday },
            { type := some .weekly, referenceDate := some reference, ordinal := some 2 }] }
    excludedDate := some
      { type := some .yearly, bounds := some .days, startDate := some start
        endDate := some stop } }

theorem respelling_keeps_rule_secondFridays :
    ∃ r, (secondFridays "Friday" "06-01" "08-31" "2024-01-05").rule = .ok r ∧
      (secondFridays " fRI\u3000" "+6-1" "8 - +031" "\n2024-01-05 ").rule = .ok r := by
  obtain ⟨hkeeps, hweekday, -⟩ := respelling_keeps_rule
  have hday : SameName Weekday.name "Friday" " fRI\u3000" :=
    ⟨.friday, (hweekday _ _).1 (by decide), (hweekday _ _).1 (by decide)⟩
  have hpart : ∀ {s : List Char} {n : ℕ}, MonthDay.part? s = some n → MonthDay.IsPart s n :=
    MonthDay.part?_eq_some_iff.1
  have hstart : MonthDay.SameNumbers "06-01" "+6-1" :=
    ⟨6, 1, ⟨['0', '6'], ['0', '1'], by decide, hpart (by decide), hpart (by decide)⟩,
      ⟨['+', '6'], ['1'], by decide, hpart (by decide), hpart (by decide)⟩⟩
  have hstop : MonthDay.SameNumbers "08-31" "8 - +031" :=
    ⟨8, 31, ⟨['0', '8'], ['3', '1'], by decide, hpart (by decide), hpart (by decide)⟩,
      ⟨['8', ' '], [' ', '+', '0', '3', '1'], by decide, hpart (by decide), hpart (by decide)⟩⟩
  have hreference : SameInside "2024-01-05" "\n2024-01-05 " :=
    ⟨_, Padded.refl _, ['\n'], [' '], isBlanks_singleton (by decide),
      isBlanks_singleton (by decide), by decide⟩
  have hrespelled : (secondFridays "Friday" "06-01" "08-31" "2024-01-05").Respelled
      (secondFridays " fRI\u3000" "+6-1" "8 - +031" "\n2024-01-05 ") := by
    refine .difference rfl rfl (.some ?_) (.some ?_)
    · refine .combination rfl (Or.inr rfl) (.some (.cons ?_ (.cons ?_ .nil)))
      · exact .weekly rfl rfl (.some hday) .none nofun
      · exact .weekly rfl rfl .none (.some hreference) fun _ => rfl
    · exact .yearly rfl rfl rfl (fun _ => ⟨.some hstart, .some hstop⟩) nofun
  have hok : (secondFridays "Friday" "06-01" "08-31" "2024-01-05").rule.isOk = true := by
    decide +kernel
  cases hr : (secondFridays "Friday" "06-01" "08-31" "2024-01-05").rule with
  | ok r => exact ⟨r, rfl, (hkeeps _ r hr).2 _ hrespelled⟩
  | error e =>
      rw [hr] at hok
      cases hok

end Node

end Recurrence
