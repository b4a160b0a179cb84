import Recurrence.Proofs.Document.Encoding

/-!
# Rules that can be constructed

A rule is constructed when it comes from the constructors, the combinators and the documents in
finitely many steps. These check some of their arguments and take others as they are, and some build
a rule without any check at all. Still the constructed rules are just the well-formed ones: their
bounds have days up to 31, their ordinals count one to five weeks from either end of a month, their
intervals are positive, and nothing is combined of no members.
-/

namespace Recurrence

/-- The number of the day is at most 31, and it is 0 only where no day is given. -/
def Bound.InMonth (b : Bound) : Prop := b.dayNumber ≤ 31 ∧ b.day ≠ some 0

namespace Rule

/-- The rules that the constructors, the combinators and the documents give. -/
inductive Constructed : Rule → Prop
  | bounds {w : YearlyWindow} {m m' : Month} {i j : ℕ}
      (hw : YearlyWindow.ofBounds m m' i j = .ok w) : Constructed (.yearly w)
  | months (m m' : Month) : Constructed (.yearly (.months m m'))
  | month (m : Month) : Constructed (.yearly (.month m))
  | days (a b : MonthDay) : Constructed (.yearly (.days a b))
  | ordinal {p : MonthlyWeekday} {w : Weekday} {k : ℤ} (hp : MonthlyWeekday.ofOrdinal w k = .ok p) :
      Constructed (.monthly p)
  | every (w : Weekday) : Constructed (.weekly (.every w))
  | interval {c : WeeklyCadence} {n : ℕ} {reference : Date} (hn : n < 2 ^ 32)
      (hc : WeeklyCadence.ofInterval n reference = .ok c) : Constructed (.weekly c)
  | parts {c : WeeklyCadence} {w : Option Weekday} {n : ℕ} {reference : Option Date}
      (hn : n < 2 ^ 32) (hc : WeeklyCadence.ofParts w n reference = .ok c) : Constructed (.weekly c)
  | union {r : Rule} {rs : List Rule} (hrs : ∀ s ∈ rs, Constructed s) (hr : unionOf rs = .ok r) :
      Constructed r
  | intersection {r : Rule} {rs : List Rule} (hrs : ∀ s ∈ rs, Constructed s)
      (hr : intersectionOf rs = .ok r) : Constructed r
  | difference {r s : Rule} (hr : Constructed r) (hs : Constructed s) :
      Constructed (.difference r s)
  | or {r s : Rule} (hr : Constructed r) (hs : Constructed s) : Constructed (r.or s)
  | and {r s : Rule} (hr : Constructed r) (hs : Constructed s) : Constructed (r.and s)
  | except {r s : Rule} (hr : Constructed r) (hs : Constructed s) : Constructed (r.except s)
  | node {r : Rule} {n : Node} (hr : n.rule = .ok r) : Constructed r
  | document {d : Document} {as : List Allotment} {a : Allotment} (hd : d.allotments = .ok as)
      (ha : a ∈ as) : Constructed a.rule
  | text {t : String} {s : Schedule} {a : Allotment} (hs : Schedule.read t = .ok s)
      (ha : a ∈ s.allotments) : Constructed a.rule

inductive WellFormed : Rule → Prop
  | yearly {w : YearlyWindow} (hstart : w.start.InMonth) (hstop : w.stop.InMonth) :
      WellFormed (.yearly w)
  | monthly {m : MonthlyWeekday} (hzero : m.ordinal ≠ 0) (hlow : -5 ≤ m.ordinal)
      (hhigh : m.ordinal ≤ 5) : WellFormed (.monthly m)
  | every (w : Weekday) : WellFormed (.weekly (.every w))
  | everyNth {n : ℕ} (reference : Date) (hpos : 0 < n) (hn : n < 2 ^ 32) :
      WellFormed (.weekly (.everyNth n reference hpos))
  | difference {r s : Rule} (hr : WellFormed r) (hs : WellFormed s) : WellFormed (.difference r s)
  | union {rs : List Rule} (hne : rs ≠ []) (hrs : ∀ r ∈ rs, WellFormed r) : WellFormed (.union rs)
  | intersection {rs : List Rule} (hne : rs ≠ []) (hrs : ∀ r ∈ rs, WellFormed r) :
      WellFormed (.intersection rs)

end Rule

namespace Bound

variable {b : Bound}

theorem inMonth_whole (m : Month) : (whole m).InMonth := ⟨Nat.zero_le 31, by simp [whole]⟩

theorem inMonth_ofDay (m : Month) {j : ℕ} (hj : j ≤ 31) : (ofDay m j).InMonth := by
  refine ⟨by rwa [dayNumber_ofDay], ?_⟩
  unfold ofDay
  split_ifs with hzero
  · simp
  · simpa using hzero

/-- Such a bound is given by its month and the number of its day. -/
theorem InMonth.ofDay_dayNumber (h : b.InMonth) : ofDay b.month b.dayNumber = b := by
  obtain ⟨m, day⟩ := b
  obtain ⟨-, hzero⟩ := h
  cases day with
  | none => rfl
  | some j =>
      have hj : j ≠ 0 := fun hj => hzero (congrArg some hj)
      simp [ofDay, dayNumber, hj]

theorem IsDay.inMonth (h : b.IsDay) : b.InMonth := by
  obtain ⟨j, hj, hfirst, hlast⟩ := h
  have hlong := b.month.length_le true
  refine ⟨?_, ?_⟩
  · rw [dayNumber, hj, Option.getD_some]
    omega
  · rw [hj, ne_eq, Option.some.injEq]
    omega

end Bound

theorem YearlyWindow.ofBounds_eq_ok_iff {m m' : Month} {i j : ℕ} {w : YearlyWindow} :
    ofBounds m m' i j = .ok w ↔ i ≤ 31 ∧ j ≤ 31 ∧ w = ⟨.ofDay m i, .ofDay m' j⟩ := by
  unfold ofBounds
  split_ifs with hi hj
  · simp only [false_iff]
    omega
  · simp only [false_iff]
    omega
  · rw [Except.ok.injEq, eq_comm]
    simp [not_lt.1 hi, not_lt.1 hj]

theorem WeeklyCadence.ofInterval_eq_ok_iff {n : ℕ} {r : Date} {c : WeeklyCadence} :
    ofInterval n r = .ok c ↔ ∃ hn : 0 < n, c = .everyNth n r hn := by
  unfold ofInterval
  split_ifs with hn
  · simp [hn, eq_comm]
  · simp [hn]

theorem WeeklyCadence.ofParts_eq_ok_iff {w : Option Weekday} {n : ℕ} {r : Option Date}
    {c : WeeklyCadence} :
    ofParts w n r = .ok c ↔ (∃ d, w = some d ∧ n = 0 ∧ r = none ∧ c = .every d) ∨
      ∃ d, ∃ hn : 0 < n, w = none ∧ r = some d ∧ c = .everyNth n d hn := by
  unfold ofParts
  split
  · simp [eq_comm]
  · rw [ofInterval_eq_ok_iff]
    simp [eq_comm]
  · rename_i hday hreference
    simp only [reduceCtorEq, false_iff, not_or, not_exists, not_and]
    refine ⟨fun d hw hn hr => absurd hr (hday d hw hn), fun d hn hw hr => ?_⟩
    exact absurd hr (hreference (n - 1) d hw (Nat.sub_add_cancel hn).symm)

namespace Rule

variable {r s : Rule}

theorem Expressible.wellFormed (h : r.Expressible) : r.WellFormed := by
  induction h with
  | months w hstart hstop =>
      have hwhole : ∀ b : Bound, b.day = none → b.InMonth := by
        rintro ⟨m, -⟩ rfl
        exact Bound.inMonth_whole m
      exact .yearly (hwhole _ hstart) (hwhole _ hstop)
  | days w hstart hstop => exact .yearly hstart.inMonth hstop.inMonth
  | monthly m hzero hlow hhigh => exact .monthly hzero hlow hhigh
  | every w => exact .every w
  | everyNth n reference hpos hn => exact .everyNth reference hpos hn
  | difference r s _ _ hr hs => exact .difference hr hs
  | union rs hne _ ih => exact .union hne ih
  | intersection rs hne _ ih => exact .intersection hne ih

theorem WellFormed.or (hr : r.WellFormed) (hs : s.WellFormed) : (r.or s).WellFormed :=
  .union (by simp) (by simpa using ⟨hr, hs⟩)

theorem WellFormed.and (hr : r.WellFormed) (hs : s.WellFormed) : (r.and s).WellFormed :=
  .intersection (by simp) (by simpa using ⟨hr, hs⟩)

theorem wellFormed_of_read {t : String} {σ : Schedule} {a : Allotment}
    (hs : Schedule.read t = .ok σ) (ha : a ∈ σ.allotments) : a.rule.WellFormed := by
  obtain ⟨es, -, hes⟩ := Schedule.read_eq_ok_iff.1 hs
  obtain ⟨e, -, hrule, -⟩ := exists_of_forall₂ hes ha
  exact (expressible_of_rule hrule).wellFormed

theorem wellFormed_of_allotments {d : Document} {as : List Allotment} {a : Allotment}
    (hd : d.allotments = .ok as) (ha : a ∈ as) : a.rule.WellFormed := by
  obtain ⟨schedule⟩ := d
  cases schedule with
  | none => cases hd
  | some es =>
      obtain ⟨e, -, hrule, -⟩ := exists_of_forall₂ (Entry.allotments_eq_ok_iff.1 hd) ha
      exact (expressible_of_rule hrule).wellFormed

/-- Every constructor and every combinator keeps rules well-formed. -/
theorem Constructed.wellFormed (h : r.Constructed) : r.WellFormed := by
  induction h with
  | @bounds w m m' i j hw =>
      obtain ⟨hi, hj, rfl⟩ := YearlyWindow.ofBounds_eq_ok_iff.1 hw
      exact .yearly (Bound.inMonth_ofDay m hi) (Bound.inMonth_ofDay m' hj)
  | months m m' => exact .yearly (Bound.inMonth_whole m) (Bound.inMonth_whole m')
  | month m => exact .yearly (Bound.inMonth_whole m) (Bound.inMonth_whole m)
  | days a b =>
      exact .yearly (YearlyWindow.isDay_ofDay a).inMonth (YearlyWindow.isDay_ofDay b).inMonth
  | ordinal hp =>
      obtain ⟨⟨hzero, hlow, hhigh⟩, rfl⟩ := Node.ofOrdinal_eq_ok_iff.1 hp
      exact .monthly hzero hlow hhigh
  | every w => exact .every w
  | interval hn hc =>
      obtain ⟨hpos, rfl⟩ := WeeklyCadence.ofInterval_eq_ok_iff.1 hc
      exact .everyNth _ hpos hn
  | parts hn hc =>
      rcases WeeklyCadence.ofParts_eq_ok_iff.1 hc with
        ⟨w, -, -, -, rfl⟩ | ⟨reference, hpos, -, -, rfl⟩
      · exact .every w
      · exact .everyNth reference hpos hn
  | union _ hr ih =>
      obtain ⟨hne, rfl⟩ := Node.unionOf_eq_ok_iff.1 hr
      exact .union hne ih
  | intersection _ hr ih =>
      obtain ⟨hne, rfl⟩ := Node.intersectionOf_eq_ok_iff.1 hr
      exact .intersection hne ih
  | difference _ _ hr hs => exact .difference hr hs
  | or _ _ hr hs => exact hr.or hs
  | and _ _ hr hs => exact hr.and hs
  | except _ _ hr hs => exact .difference hr hs
  | node hr => exact (expressible_of_rule hr).wellFormed
  | document hd ha => exact wellFormed_of_allotments hd ha
  | text hs ha => exact wellFormed_of_read hs ha

/-- The checked constructors alone give every well-formed rule. -/
theorem WellFormed.constructed (h : r.WellFormed) : r.Constructed := by
  induction h with
  | @yearly w hstart hstop =>
      have hw : w = ⟨.ofDay w.start.month w.start.dayNumber,
          .ofDay w.stop.month w.stop.dayNumber⟩ := by
        rw [hstart.ofDay_dayNumber, hstop.ofDay_dayNumber]
      exact .bounds (YearlyWindow.ofBounds_eq_ok_iff.2 ⟨hstart.1, hstop.1, hw⟩)
  | monthly hzero hlow hhigh =>
      exact .ordinal (Node.ofOrdinal_eq_ok_iff.2 ⟨⟨hzero, hlow, hhigh⟩, rfl⟩)
  | every w => exact .every w
  | everyNth reference hpos hn =>
      exact .interval hn (WeeklyCadence.ofInterval_eq_ok_iff.2 ⟨hpos, rfl⟩)
  | difference _ _ hr hs => exact .difference hr hs
  | union hne _ ih => exact .union ih (Node.unionOf_eq_ok_iff.2 ⟨hne, rfl⟩)
  | intersection hne _ ih => exact .intersection ih (Node.intersectionOf_eq_ok_iff.2 ⟨hne, rfl⟩)

theorem constructed_iff_wellFormed : r.Constructed ↔ r.WellFormed :=
  ⟨Constructed.wellFormed, WellFormed.constructed⟩

end Rule

end Recurrence
