import Recurrence.Proofs.Document.Rules

/-!
# Nodes that agree where they are read

Which fields of a node are read depends on its type, and with some types on other fields as well.
Two nodes agree when they have the same type and the same content in the fields that it reads, where
the nodes below agree in their turn. All other fields may differ at any depth, even in being wrong.
Nodes that agree have the same rule, or are refused with the same error.
-/

namespace Recurrence

/-- Where both contents are there, what their relation implies may take its place. -/
theorem rel_imp {α : Type} {R S : α → α → Prop} {o o' : Option α} (h : Option.Rel R o o')
    (himp : ∀ a, o = some a → ∀ a', R a a' → S a a') : Option.Rel S o o' := by
  cases h with
  | none => exact .none
  | some h => exact .some (himp _ rfl _ h)

namespace Node

/-- The nodes have the same type and agree in the fields that it reads. -/
inductive Agrees : Node → Node → Prop
  | nothing {n n' : Node} (htype : n'.type = n.type)
      (hread : n.type = none ∨ n.type = some .unknown) : Agrees n n'
  | yearly {n n' : Node} (htype : n'.type = n.type) (hread : n.type = some .yearly)
      (hbounds : n'.bounds = n.bounds)
      (hdays : n.bounds = some .days → n'.startDate = n.startDate ∧ n'.endDate = n.endDate)
      (hmonths : n.bounds = some .months →
        n'.startMonth = n.startMonth ∧ n'.endMonth = n.endMonth) : Agrees n n'
  | monthly {n n' : Node} (htype : n'.type = n.type) (hread : n.type = some .monthly)
      (hday : n'.day = n.day) (hordinal : n'.ordinal = n.ordinal) : Agrees n n'
  | weekly {n n' : Node} (htype : n'.type = n.type) (hread : n.type = some .weekly)
      (hday : n'.day = n.day) (hreference : n'.referenceDate = n.referenceDate)
      (hordinal : n.day = none → n.referenceDate ≠ none → n'.ordinal = n.ordinal) : Agrees n n'
  | difference {n n' : Node} (htype : n'.type = n.type) (hread : n.type = some .difference)
      (hincluded : Option.Rel Agrees n.includedDate n'.includedDate)
      (hexcluded : Option.Rel Agrees n.excludedDate n'.excludedDate) : Agrees n n'
  | combination {n n' : Node} (htype : n'.type = n.type)
      (hread : n.type = some .union ∨ n.type = some .intersection)
      (hmembers : Option.Rel (List.Forall₂ Agrees) n.expressions n'.expressions) : Agrees n n'

variable {n n' : Node}

theorem yearlyWindow_congr (hbounds : n'.bounds = n.bounds)
    (hdays : n.bounds = some .days → n'.startDate = n.startDate ∧ n'.endDate = n.endDate)
    (hmonths : n.bounds = some .months →
      n'.startMonth = n.startMonth ∧ n'.endMonth = n.endMonth) :
    n'.yearlyWindow = n.yearlyWindow := by
  unfold yearlyWindow
  rw [hbounds]
  split
  · rfl
  · rfl
  · rename_i h
    obtain ⟨hstart, hstop⟩ := hdays h
    rw [hstart, hstop]
  · rename_i h
    obtain ⟨hstart, hstop⟩ := hmonths h
    rw [hstart, hstop]

theorem monthlyWeekday_congr (hday : n'.day = n.day) (hordinal : n'.ordinal = n.ordinal) :
    n'.monthlyWeekday = n.monthlyWeekday := by
  unfold monthlyWeekday
  rw [hday, hordinal]

theorem weeklyCadence_congr (hday : n'.day = n.day)
    (hreference : n'.referenceDate = n.referenceDate)
    (hordinal : n.day = none → n.referenceDate ≠ none → n'.ordinal = n.ordinal) :
    n'.weeklyCadence = n.weeklyCadence := by
  unfold weeklyCadence
  rw [hday, hreference]
  split
  · rfl
  · rfl
  · rfl
  · rename_i text hnone htext
    rw [hordinal hnone (by simp [htext])]

theorem rules_congr {ns ns' : List Node} (h : List.Forall₂ (fun m m' => m'.rule = m.rule) ns ns') :
    rules ns' = rules ns := by
  induction h with
  | nil => rfl
  | cons hm _ ih => rw [rules, rules, hm, ih]

theorem difference_congr (htype : n'.type = n.type) (hread : n.type = some .difference)
    (hincluded : Option.Rel (fun m m' => m'.rule = m.rule) n.includedDate n'.includedDate)
    (hexcluded : Option.Rel (fun m m' => m'.rule = m.rule) n.excludedDate n'.excludedDate) :
    n'.rule = n.rule := by
  simp only [rule_eq n, rule_eq n', htype, hread]
  -- The relations can be split only once they are about the fields alone.
  generalize n.includedDate = i at hincluded ⊢
  generalize n'.includedDate = i' at hincluded ⊢
  generalize n.excludedDate = e at hexcluded ⊢
  generalize n'.excludedDate = e' at hexcluded ⊢
  cases hincluded with
  | none => rfl
  | some hi =>
      cases hexcluded with
      | none => rfl
      | some he => simp only [hi, he]

theorem combination_congr (htype : n'.type = n.type)
    (hread : n.type = some .union ∨ n.type = some .intersection)
    (hmembers : Option.Rel (fun ns ns' => rules ns' = rules ns) n.expressions n'.expressions) :
    n'.rule = n.rule := by
  rw [rule_eq n, rule_eq n', htype]
  generalize n.expressions = ns at hmembers ⊢
  generalize n'.expressions = ns' at hmembers ⊢
  cases hmembers with
  | none => rcases hread with hread | hread <;> rw [hread]
  | some hrules => rcases hread with hread | hread <;> simp only [hread, hrules]

theorem rules_eq_of_agrees {ns ns' : List Node} (h : List.Forall₂ Agrees ns ns')
    (hrule : ∀ m ∈ ns, ∀ m', m.Agrees m' → m'.rule = m.rule) : rules ns' = rules ns := by
  have hboth := (List.forall₂_and_left ns ns').2 ⟨hrule, h⟩
  exact rules_congr (hboth.imp fun m m' hm => hm.1 m' hm.2)

/-- Nothing but the fields that are read decides the rule of a node or its error. -/
theorem rule_eq_of_agrees (h : n.Agrees n') : n'.rule = n.rule := by
  -- The nodes below `n` carry the induction, and what agrees with them may be any nodes.
  induction n using Node.induction generalizing n' with
  | node n hincluded hexcluded hmembers =>
      cases h with
      | nothing htype hread =>
          rw [rule_eq n, rule_eq n', htype]
          rcases hread with hread | hread <;> rw [hread]
      | yearly htype hread hbounds hdays hmonths =>
          rw [rule_eq n, rule_eq n', htype, hread, yearlyWindow_congr hbounds hdays hmonths]
      | monthly htype hread hday hordinal =>
          rw [rule_eq n, rule_eq n', htype, hread, monthlyWeekday_congr hday hordinal]
      | weekly htype hread hday hreference hordinal =>
          rw [rule_eq n, rule_eq n', htype, hread, weeklyCadence_congr hday hreference hordinal]
      | difference htype hread hi he =>
          apply difference_congr htype hread
          · exact rel_imp hi fun m hm m' => hincluded m hm
          · exact rel_imp he fun m hm m' => hexcluded m hm
      | combination htype hread hns =>
          apply combination_congr htype hread
          refine rel_imp hns fun ns hn ns' h => rules_eq_of_agrees h ?_
          exact fun m hm m' => hmembers ns hn m hm

/-- All Fridays but those of the summer, whose last month is misspelt. -/
def fridaysButSummer : Node :=
  { type := some .difference
    includedDate := some { type := some .weekly, day := some "friday" }
    excludedDate := some
      { type := some .union
        expressions := some
          [{ type := some .yearly, bounds := some .months, startMonth := some "june"
             endMonth := some "augst" }] } }

/-- The same with much that is wrong, all of it where nothing is read. -/
def clutteredFridaysButSummer : Node :=
  { type := some .difference
    bounds := some .unknown
    ordinal := some 0
    expressions := some [{}, { type := some .unknown }]
    includedDate := some
      { type := some .weekly, day := some "friday", ordinal := some (-7), endDate := some "02-30" }
    excludedDate := some
      { type := some .union
        includedDate := some { type := some .monthly, day := some "feb" }
        expressions := some
          [{ type := some .yearly, bounds := some .months, startMonth := some "june"
             endMonth := some "augst", startDate := some "June", expressions := some [] }] } }

theorem rule_eq_of_agrees_cluttered :
    fridaysButSummer.Agrees clutteredFridaysButSummer ∧
      clutteredFridaysButSummer.rule = fridaysButSummer.rule ∧
      fridaysButSummer.rule = .error (.unknownMonth "augst") := by
  have hincluded : Option.Rel Agrees fridaysButSummer.includedDate
      clutteredFridaysButSummer.includedDate :=
    .some (.weekly rfl rfl rfl rfl fun hday => nomatch hday)
  have hexcluded : Option.Rel Agrees fridaysButSummer.excludedDate
      clutteredFridaysButSummer.excludedDate :=
    .some (.combination rfl (Or.inl rfl)
      (.some (.cons (.yearly rfl rfl rfl nofun fun _ => ⟨rfl, rfl⟩) .nil)))
  have hagrees : fridaysButSummer.Agrees clutteredFridaysButSummer :=
    .difference rfl rfl hincluded hexcluded
  exact ⟨hagrees, rule_eq_of_agrees hagrees, by decide +kernel⟩

end Node

end Recurrence
