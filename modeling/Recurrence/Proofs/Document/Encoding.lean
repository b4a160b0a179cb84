import Recurrence.Proofs.Calendar.Written
import Recurrence.Proofs.Document.Rules
import Recurrence.Proofs.Rule.Period

/-!
# Rules as nodes

Every rule has a canonical node, which gives its parts as they are usually written and leaves all
other fields out. A rule is expressible when its bounds are two whole months or two days that exist
in a leap year, its ordinals and intervals have the size that a document allows, and nothing is
combined of no members. The expressible rules are just those that some node has, and the canonical
node of such a rule gives it back.
-/

namespace Recurrence

/-- The day exists in the month in a leap year. -/
def Bound.IsDay (b : Bound) : Prop := ∃ j, b.day = some j ∧ 1 ≤ j ∧ j ≤ b.month.length true

namespace Rule

inductive Expressible : Rule → Prop
  | months (w : YearlyWindow) (hstart : w.start.day = none) (hstop : w.stop.day = none) :
      Expressible (.yearly w)
  | days (w : YearlyWindow) (hstart : w.start.IsDay) (hstop : w.stop.IsDay) :
      Expressible (.yearly w)
  | monthly (m : MonthlyWeekday) (hzero : m.ordinal ≠ 0) (hlow : -5 ≤ m.ordinal)
      (hhigh : m.ordinal ≤ 5) : Expressible (.monthly m)
  | every (w : Weekday) : Expressible (.weekly (.every w))
  | everyNth (n : ℕ) (reference : Date) (hpos : 0 < n) (hn : n < 2 ^ 32) :
      Expressible (.weekly (.everyNth n reference hpos))
  | difference (r s : Rule) (hr : Expressible r) (hs : Expressible s) :
      Expressible (.difference r s)
  | union (rs : List Rule) (hne : rs ≠ []) (hrs : ∀ r ∈ rs, Expressible r) :
      Expressible (.union rs)
  | intersection (rs : List Rule) (hne : rs ≠ []) (hrs : ∀ r ∈ rs, Expressible r) :
      Expressible (.intersection rs)

end Rule

def YearlyWindow.node (w : YearlyWindow) : Node :=
  match w.start.day, w.stop.day with
  | some i, some j =>
    { type := some .yearly, bounds := some .days
      startDate := some (MonthDay.written w.start.month i)
      endDate := some (MonthDay.written w.stop.month j) }
  | _, _ =>
    { type := some .yearly, bounds := some .months
      startMonth := some w.start.month.name
      endMonth := some w.stop.month.name }

def MonthlyWeekday.node (m : MonthlyWeekday) : Node :=
  { type := some .monthly, day := some m.weekday.name, ordinal := some m.ordinal }

def WeeklyCadence.node : WeeklyCadence → Node
  | every w => { type := some .weekly, day := some w.name }
  | everyNth n reference _ =>
    { type := some .weekly, ordinal := some n, referenceDate := some reference.display }

namespace Rule

mutual

/-- The canonical node of a rule. -/
def node : Rule → Node
  | yearly w => w.node
  | monthly m => m.node
  | weekly c => c.node
  | difference r s =>
    { type := some .difference, includedDate := some r.node, excludedDate := some s.node }
  | union rs => { type := some .union, expressions := some (nodes rs) }
  | intersection rs => { type := some .intersection, expressions := some (nodes rs) }

def nodes : List Rule → List Node
  | [] => []
  | r :: rs => r.node :: nodes rs

end

theorem nodes_eq_map (rs : List Rule) : nodes rs = rs.map node := by
  induction rs with
  | nil => rfl
  | cons r rs ih => rw [nodes, ih, List.map_cons]

end Rule

namespace YearlyWindow

variable {w : YearlyWindow}

theorem months_eq_self (hstart : w.start.day = none) (hstop : w.stop.day = none) :
    months w.start.month w.stop.month = w := by
  obtain ⟨⟨m, i⟩, ⟨m', j⟩⟩ := w
  subst hstart hstop
  rfl

theorem days_eq_self {i j : ℕ} (hstart : w.start.day = some i) (hstop : w.stop.day = some j)
    {a b : MonthDay} (ha : a.month = w.start.month ∧ a.day = i)
    (hb : b.month = w.stop.month ∧ b.day = j) : days a b = w := by
  obtain ⟨⟨m, _⟩, ⟨m', _⟩⟩ := w
  obtain ⟨rfl, rfl⟩ := ha
  obtain ⟨rfl, rfl⟩ := hb
  have ha := a.one_le_day
  have hb := b.one_le_day
  subst hstart hstop
  rw [days, Bound.ofDay, Bound.ofDay, if_neg (by omega), if_neg (by omega)]

theorem yearlyWindow_node_of_months (hstart : w.start.day = none) (hstop : w.stop.day = none) :
    w.node.yearlyWindow = .ok w := by
  rw [Node.yearlyWindow_eq_ok_iff]
  rw [node, hstart]
  exact Or.inr ⟨rfl, _, _, _, _, rfl, rfl, Month.read_name _, Month.read_name _,
    (months_eq_self hstart hstop).symm⟩

theorem yearlyWindow_node_of_days (hstart : w.start.IsDay) (hstop : w.stop.IsDay) :
    w.node.yearlyWindow = .ok w := by
  obtain ⟨i, hi, hione, hilast⟩ := hstart
  obtain ⟨j, hj, hjone, hjlast⟩ := hstop
  rw [Node.yearlyWindow_eq_ok_iff]
  rw [node, hi, hj]
  exact Or.inl ⟨rfl, _, _, _, _, rfl, rfl, MonthDay.read_written hione hilast,
    MonthDay.read_written hjone hjlast, (days_eq_self hi hj ⟨rfl, rfl⟩ ⟨rfl, rfl⟩).symm⟩

theorem type_node (w : YearlyWindow) : w.node.type = some .yearly := by
  unfold node
  split <;> rfl

theorem isDay_ofDay (a : MonthDay) : (Bound.ofDay a.month a.day).IsDay := by
  have ha := a.one_le_day
  rw [Bound.ofDay, if_neg (by omega)]
  exact ⟨a.day, rfl, ha, a.day_le⟩

theorem expressible_of_yearlyWindow {n : Node} (h : n.yearlyWindow = .ok w) :
    Rule.Expressible (.yearly w) := by
  rcases Node.yearlyWindow_eq_ok_iff.1 h with
    ⟨-, -, -, a, b, -, -, -, -, rfl⟩ | ⟨-, -, -, a, b, -, -, -, -, rfl⟩
  · exact .days _ (isDay_ofDay a) (isDay_ofDay b)
  · exact .months _ rfl rfl

end YearlyWindow

theorem MonthlyWeekday.monthlyWeekday_node {m : MonthlyWeekday}
    (h : m.ordinal ≠ 0 ∧ -5 ≤ m.ordinal ∧ m.ordinal ≤ 5) : m.node.monthlyWeekday = .ok m :=
  Node.monthlyWeekday_eq_ok_iff.2
    ⟨m.weekday.name, m.weekday, m.ordinal, rfl, Weekday.read_name _, rfl, h, rfl⟩

namespace WeeklyCadence

theorem weeklyCadence_node_every (w : Weekday) : (every w).node.weeklyCadence = .ok (every w) :=
  Node.weeklyCadence_eq_ok_iff.2 (Or.inl ⟨w.name, w, rfl, rfl, Weekday.read_name w, rfl⟩)

theorem weeklyCadence_node_everyNth {n : ℕ} {r : Date} (hpos : 0 < n) (hn : n < 2 ^ 32) :
    (everyNth n r hpos).node.weeklyCadence = .ok (everyNth n r hpos) := by
  have hlimit : (n : ℤ) ≤ Node.intervalLimit := by
    rw [Node.intervalLimit]
    omega
  exact Node.weeklyCadence_eq_ok_iff.2
    (Or.inr ⟨r.display, r, n, rfl, rfl, Date.read_display r, rfl, hlimit, hpos, rfl⟩)

theorem expressible_of_weeklyCadence {n : Node} {c : WeeklyCadence}
    (h : n.weeklyCadence = .ok c) : Rule.Expressible (.weekly c) := by
  rcases Node.weeklyCadence_eq_ok_iff.1 h with
    ⟨-, w, -, -, -, rfl⟩ | ⟨-, r, k, -, -, -, -, hk, hpos, rfl⟩
  · exact .every w
  · rw [Node.intervalLimit] at hk
    exact .everyNth k r hpos (by omega)

end WeeklyCadence

namespace Rule

/-- What some node has is expressible, by induction on the node. -/
theorem expressible_of_rule {n : Node} {r : Rule} (h : n.rule = .ok r) : r.Expressible := by
  induction n using Node.induction generalizing r with
  | node n hincluded hexcluded hmembers =>
      have hall : ∀ ns rs, n.expressions = some ns →
          List.Forall₂ (fun m r => m.rule = .ok r) ns rs → ∀ r ∈ rs, r.Expressible := by
        intro ns rs hns hrs r hr
        obtain ⟨m, hm, hmr⟩ := exists_of_forall₂ hrs hr
        exact hmembers ns hns m hm hmr
      cases Node.rule_eq_ok_iff.1 h with
      | yearly w htype hw => exact YearlyWindow.expressible_of_yearlyWindow hw
      | monthly m htype hm =>
          obtain ⟨-, w, k, -, -, -, ⟨hzero, hlow, hhigh⟩, rfl⟩ := Node.monthlyWeekday_eq_ok_iff.1 hm
          exact .monthly ⟨w, k⟩ hzero hlow hhigh
      | weekly c htype hc => exact WeeklyCadence.expressible_of_weeklyCadence hc
      | difference i e r s htype hi he hr hs =>
          exact .difference r s (hincluded i hi hr) (hexcluded e he hs)
      | union ns rs htype hns hrs hne => exact .union rs hne (hall ns rs hns hrs)
      | intersection ns rs htype hns hrs hne => exact .intersection rs hne (hall ns rs hns hrs)

theorem forall₂_rule_nodes {rs : List Rule} (h : ∀ r ∈ rs, r.node.rule = .ok r) :
    List.Forall₂ (fun n r => n.rule = .ok r) (nodes rs) rs := by
  rw [nodes_eq_map, List.forall₂_map_left_iff, List.forall₂_same]
  exact h

/-- The canonical node of an expressible rule gives the rule back. -/
theorem rule_node_of_expressible {r : Rule} (h : r.Expressible) : r.node.rule = .ok r := by
  rw [Node.rule_eq_ok_iff]
  induction h with
  | months w hstart hstop =>
      exact .yearly w w.type_node (YearlyWindow.yearlyWindow_node_of_months hstart hstop)
  | days w hstart hstop =>
      exact .yearly w w.type_node (YearlyWindow.yearlyWindow_node_of_days hstart hstop)
  | monthly m hzero hlow hhigh =>
      exact .monthly m rfl (MonthlyWeekday.monthlyWeekday_node ⟨hzero, hlow, hhigh⟩)
  | every w => exact .weekly _ rfl (WeeklyCadence.weeklyCadence_node_every w)
  | everyNth n r hpos hn =>
      exact .weekly _ rfl (WeeklyCadence.weeklyCadence_node_everyNth hpos hn)
  | difference r s _ _ hr hs =>
      exact .difference r.node s.node r s rfl rfl rfl (Node.rule_eq_ok_iff.2 hr)
        (Node.rule_eq_ok_iff.2 hs)
  | union rs hne _ ih =>
      have hrs := forall₂_rule_nodes fun r hr => Node.rule_eq_ok_iff.2 (ih r hr)
      exact .union (nodes rs) rs rfl rfl hrs hne
  | intersection rs hne _ ih =>
      have hrs := forall₂_rule_nodes fun r hr => Node.rule_eq_ok_iff.2 (ih r hr)
      exact .intersection (nodes rs) rs rfl rfl hrs hne

theorem exists_node_iff_expressible (r : Rule) :
    ((∃ n : Node, n.rule = .ok r) ↔ r.Expressible) ∧ (r.node.rule = .ok r ↔ r.Expressible) := by
  refine ⟨⟨?_, ?_⟩, expressible_of_rule, rule_node_of_expressible⟩
  · rintro ⟨n, h⟩
    exact expressible_of_rule h
  · intro h
    exact ⟨r.node, rule_node_of_expressible h⟩

end Rule

end Recurrence
