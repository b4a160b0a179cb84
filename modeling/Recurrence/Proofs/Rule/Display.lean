import Recurrence.Proofs.Rule.Construction
import Recurrence.Proofs.Text.Fronts

/-!
# Rules are read off their texts

The text of a rule says how the rule is built. Only one thing is left open: a union and an
intersection of a single member are written alike. The first characters tell the kinds of rules
apart, and the separator tells the combinations apart. By induction a rule is recovered, together
with what follows its text, wherever that can stand behind a written part.
-/

namespace Recurrence

open Text

variable {u v : List Char}

namespace Bound

def dayText : Option ℕ → List Char
  | none => []
  | some j => ' ' :: (natural j).toList

theorem toList_display (m : Month) (day : Option ℕ) :
    (display ⟨m, day⟩).toList = m.name.toList ++ dayText day := by
  cases day <;> simp [display, dayText]

theorem not_closes_dayText (j : ℕ) : ¬ Closes (dayText (some j) ++ v) := by
  obtain ⟨c, t, hcons, hc⟩ := (isDigits_toDigits j).exists_cons
  intro h
  rw [dayText, toList_natural, hcons] at h
  cases h with
  | space hspace =>
      rw [hc] at hspace
      cases hspace

theorem dayText_append_inj {i j : Option ℕ} (hu : Closes u) (hv : Closes v)
    (h : dayText i ++ u = dayText j ++ v) : i = j ∧ u = v := by
  cases i with
  | none =>
      cases j with
      | none => exact ⟨rfl, h⟩
      | some j =>
          change u = _ at h
          exact absurd (h ▸ hu) (not_closes_dayText j)
  | some i =>
      cases j with
      | none =>
          change _ = v at h
          exact absurd (h ▸ hv) (not_closes_dayText i)
      | some j =>
          obtain ⟨hij, huv⟩ := natural_append_inj hu hv (List.cons.inj h).2
          exact ⟨congrArg some hij, huv⟩

theorem display_append_inj {b b' : Bound} (hu : Closes u) (hv : Closes v)
    (h : b.display.toList ++ u = b'.display.toList ++ v) : b = b' ∧ u = v := by
  obtain ⟨m, day⟩ := b
  obtain ⟨m', day'⟩ := b'
  rw [toList_display, toList_display, List.append_assoc, List.append_assoc] at h
  obtain ⟨rfl, hday⟩ := Month.name_append_inj h
  obtain ⟨rfl, huv⟩ := dayText_append_inj hu hv hday
  exact ⟨rfl, huv⟩

end Bound

namespace YearlyWindow

variable {w w' : YearlyWindow}

/-- What is written of a window that is more than a single month. -/
def span (w : YearlyWindow) : List Char :=
  w.start.display.toList ++ (" to ".toList ++ w.stop.display.toList)

theorem span_append_inj (hu : Closes u) (hv : Closes v) (h : w.span ++ u = w'.span ++ v) :
    w = w' ∧ u = v := by
  have hto : ∀ s, Closes (" to ".toList ++ s) := fun s => .space (by decide) _
  simp only [span, List.append_assoc] at h
  obtain ⟨hstart, hrest⟩ := Bound.display_append_inj (hto _) (hto _) h
  obtain ⟨hstop, huv⟩ := Bound.display_append_inj hu hv (List.append_cancel_left hrest)
  cases w
  cases w'
  cases hstart
  cases hstop
  exact ⟨rfl, huv⟩

/-- The names of the months begin with other letters. -/
theorem span_append_ne (m : Month) : w.span ++ u ≠ "in ".toList ++ (m.name.toList ++ v) := by
  obtain ⟨⟨m', day⟩, stop⟩ := w
  rw [span, Bound.toList_display]
  cases m' <;> simp [Month.name]

theorem toList_display (w : YearlyWindow) : w = .month w.start.month ∧
      w.display.toList = "every year ".toList ++ ("in ".toList ++ w.start.month.name.toList) ∨
    w.display.toList = "every year ".toList ++ w.span := by
  unfold display
  split_ifs with hmonth
  · obtain ⟨⟨m, day⟩, ⟨m', day'⟩⟩ := w
    dsimp only at hmonth
    obtain ⟨rfl, rfl, rfl⟩ := hmonth
    exact .inl ⟨rfl, by simp⟩
  · right
    simp [span]

theorem display_append_inj (hu : Closes u) (hv : Closes v)
    (h : w.display.toList ++ u = w'.display.toList ++ v) : w = w' ∧ u = v := by
  rcases w.toList_display with ⟨hw, htext⟩ | htext <;>
    rcases w'.toList_display with ⟨hw', htext'⟩ | htext' <;>
    simp only [htext, htext', List.append_assoc] at h <;>
    replace h := List.append_cancel_left h
  · obtain ⟨hmonth, huv⟩ := Month.name_append_inj (List.append_cancel_left h)
    exact ⟨by rw [hw, hw', hmonth], huv⟩
  · exact absurd h.symm (span_append_ne _)
  · exact absurd h (span_append_ne _)
  · exact span_append_inj hu hv h

end YearlyWindow

theorem MonthlyWeekday.display_append_inj {m m' : MonthlyWeekday}
    (h : m.display.toList ++ u = m'.display.toList ++ v) : m = m' ∧ u = v := by
  obtain ⟨w, k⟩ := m
  obtain ⟨w', k'⟩ := m'
  have hof : ∀ s, Closes (" of month".toList ++ s) := fun s => .space (by decide) _
  simp only [display, String.toList_append, List.append_assoc] at h
  obtain ⟨hweekday, hrest⟩ := Weekday.abbreviation_append_inj h
  obtain ⟨hordinal, htail⟩ := signed_append_inj (hof u) (hof v) (List.append_cancel_left hrest)
  exact ⟨by rw [hweekday, hordinal], List.append_cancel_left htail⟩

namespace WeeklyCadence

/-- A number begins with a digit and a weekday does not. -/
theorem natural_append_ne (n : ℕ) (w : Weekday) :
    (natural n).toList ++ u ≠ w.abbreviation.toList ++ v := by
  obtain ⟨c, t, hcons, hc⟩ := (isDigits_toDigits n).exists_cons
  intro h
  rw [toList_natural, hcons] at h
  cases w <;> simp [Weekday.abbreviation] at h <;> rw [h.1] at hc <;> cases hc

theorem display_append_inj {c c' : WeeklyCadence} (hu : Closes u) (hv : Closes v)
    (h : c.display.toList ++ u = c'.display.toList ++ v) : c = c' ∧ u = v := by
  cases c with
  | every w =>
      cases c' with
      | every w' =>
          simp only [display, String.toList_append, List.append_assoc] at h
          obtain ⟨rfl, huv⟩ := Weekday.abbreviation_append_inj (List.append_cancel_left h)
          exact ⟨rfl, huv⟩
      | everyNth n r hn =>
          simp only [display, String.toList_append, List.append_assoc] at h
          exact absurd (List.append_cancel_left h).symm (natural_append_ne n w)
  | everyNth n r hn =>
      cases c' with
      | every w' =>
          simp only [display, String.toList_append, List.append_assoc] at h
          exact absurd (List.append_cancel_left h) (natural_append_ne n w')
      | everyNth n' r' hn' =>
          have hweeks : ∀ s, Closes (" weeks on ".toList ++ s) := fun s => .space (by decide) _
          simp only [display, String.toList_append, List.append_assoc] at h
          obtain ⟨rfl, hrest⟩ :=
            natural_append_inj (hweeks _) (hweeks _) (List.append_cancel_left h)
          obtain ⟨-, htail⟩ := Weekday.abbreviation_append_inj (List.append_cancel_left hrest)
          obtain ⟨rfl, huv⟩ := Date.display_append_inj hu hv (List.append_cancel_left htail)
          exact ⟨rfl, huv⟩

end WeeklyCadence

namespace Rule

/-- Rules that are built the same way from the same parts, where a union of one member counts as
the intersection of it. -/
inductive Alike : Rule → Rule → Prop
  | yearly (w : YearlyWindow) : Alike (.yearly w) (.yearly w)
  | monthly (m : MonthlyWeekday) : Alike (.monthly m) (.monthly m)
  | weekly (c : WeeklyCadence) : Alike (.weekly c) (.weekly c)
  | difference {r r' s s' : Rule} (hr : Alike r r') (hs : Alike s s') :
      Alike (.difference r s) (.difference r' s')
  | union {rs ss : List Rule} (hlength : rs.length = ss.length)
      (h : ∀ p ∈ rs.zip ss, Alike p.1 p.2) : Alike (.union rs) (.union ss)
  | intersection {rs ss : List Rule} (hlength : rs.length = ss.length)
      (h : ∀ p ∈ rs.zip ss, Alike p.1 p.2) : Alike (.intersection rs) (.intersection ss)
  | unionOne {r s : Rule} (h : Alike r s) : Alike (.union [r]) (.intersection [s])
  | intersectionOne {r s : Rule} (h : Alike r s) : Alike (.intersection [r]) (.union [s])

/-- What the first characters of the text of a rule tell about it. -/
inductive Kind
  | yearly | monthly | weekly | combined

def kind : Rule → Kind
  | .yearly _ => .yearly
  | .monthly _ => .monthly
  | .weekly _ => .weekly
  | _ => .combined

def kindOfText : List Char → Kind
  | '(' :: _ => .combined
  | 'e' :: s => if s[5]? = some 'y' then .yearly else .weekly
  | _ => .monthly

/-- The rules that a combination is written with, between brackets. -/
def members : Rule → List Rule
  | .difference r s => [r, s]
  | .union rs => rs
  | .intersection rs => rs
  | _ => []

def separator : Rule → Char
  | .difference _ _ => '-'
  | .union _ => '|'
  | _ => '&'

/-- What is left to write of a combination after one of its members. -/
def restText (c : Char) (rs : List Rule) : List Char :=
  Text.restText [' ', c, ' '] ')' (displays rs)

variable {r s : Rule} {rs ss : List Rule} {c c' : Char}

theorem restText_cons (c : Char) (r : Rule) (rs : List Rule) :
    restText c (r :: rs) = ' ' :: c :: ' ' :: (r.display.toList ++ restText c rs) := rfl

theorem toList_display_of_members {rs : List Rule} (h : r.members = s :: rs) :
    r.display.toList = '(' :: (s.display.toList ++ restText r.separator rs) := by
  cases r with
  | yearly w => cases h
  | monthly m => cases h
  | weekly c => cases h
  | difference a b =>
      cases h
      simp [display, restText, displays, Text.restText, separator]
  | union rs =>
      cases h
      rw [display, String.toList_append, String.toList_append, List.append_assoc]
      exact congrArg _ (toList_intercalate_append _ _ _ _)
  | intersection rs =>
      cases h
      rw [display, String.toList_append, String.toList_append, List.append_assoc]
      exact congrArg _ (toList_intercalate_append _ _ _ _)

theorem kindOfText_weekly (w : WeeklyCadence) : kindOfText (w.display.toList ++ u) = .weekly := by
  cases w with
  | every w => cases w <;> simp [WeeklyCadence.display, kindOfText, Weekday.abbreviation]
  | everyNth n r hn =>
      obtain ⟨c, t, hcons, hc⟩ := (isDigits_toDigits n).exists_cons
      have hy : c ≠ 'y' := ne_of_isDigit hc (by decide)
      simp [WeeklyCadence.display, kindOfText, toList_natural, hcons, hy]

theorem kindOfText_append (h : r.WellFormed) : kindOfText (r.display.toList ++ u) = r.kind := by
  cases h with
  | @yearly w =>
      rcases w.toList_display with ⟨-, htext⟩ | htext <;>
        simp [display, htext, kindOfText, kind]
  | @monthly m =>
      obtain ⟨w, k⟩ := m
      cases w <;> simp [display, MonthlyWeekday.display, kindOfText, kind, Weekday.abbreviation]
  | every w =>
      rw [display]
      exact kindOfText_weekly _
  | everyNth reference hpos hn =>
      rw [display]
      exact kindOfText_weekly _
  | @difference r s => rw [toList_display_of_members (r := .difference r s) rfl]; rfl
  | union hne =>
      obtain ⟨r, rs, rfl⟩ := List.exists_cons_of_ne_nil hne
      rw [toList_display_of_members (r := .union _) rfl]
      rfl
  | intersection hne =>
      obtain ⟨r, rs, rfl⟩ := List.exists_cons_of_ne_nil hne
      rw [toList_display_of_members (r := .intersection _) rfl]
      rfl

theorem kind_eq (hr : r.WellFormed) (hs : s.WellFormed)
    (h : r.display.toList ++ u = s.display.toList ++ v) : s.kind = r.kind := by
  rw [← kindOfText_append hs, ← h, kindOfText_append hr]

theorem WellFormed.exists_members (h : r.WellFormed) (hkind : r.kind = .combined) :
    ∃ s rs, r.members = s :: rs ∧ ∀ m ∈ s :: rs, m.WellFormed := by
  cases h with
  | yearly => cases hkind
  | monthly => cases hkind
  | every => cases hkind
  | everyNth => cases hkind
  | @difference r s hr hs => exact ⟨r, [s], rfl, by simp [hr, hs]⟩
  | union hne hrs =>
      obtain ⟨r, rs, rfl⟩ := List.exists_cons_of_ne_nil hne
      exact ⟨r, rs, rfl, hrs⟩
  | intersection hne hrs =>
      obtain ⟨r, rs, rfl⟩ := List.exists_cons_of_ne_nil hne
      exact ⟨r, rs, rfl, hrs⟩

theorem separator_not_isDigit (r : Rule) : r.separator.isDigit = false := by
  cases r <;> rfl

theorem closes_restText (hc : c.isDigit = false) (rs : List Rule) :
    Closes (restText c rs ++ u) := by
  cases rs with
  | nil => exact .bracket u
  | cons r rs => exact .space hc _

/-- The text of the rule determines it and its own end. -/
def Recovered (r : Rule) : Prop :=
  ∀ s u v, s.WellFormed → Closes u → Closes v →
    r.display.toList ++ u = s.display.toList ++ v → Alike r s ∧ u = v

theorem restText_append_inj (hrs : ∀ r ∈ rs, r.Recovered) (hss : ∀ s ∈ ss, s.WellFormed)
    (hc : c.isDigit = false) (hc' : c'.isDigit = false)
    (h : restText c rs ++ u = restText c' ss ++ v) :
    List.Forall₂ Alike rs ss ∧ (rs ≠ [] → c = c') ∧ u = v := by
  induction rs generalizing ss with
  | nil =>
      cases ss with
      | nil => exact ⟨.nil, fun hne => absurd rfl hne, (List.cons.inj h).2⟩
      | cons s ss => exact absurd (List.cons.inj h).1 (by decide)
  | cons r rs ih =>
      cases ss with
      | nil => exact absurd (List.cons.inj h).1 (by decide)
      | cons s ss =>
          rw [List.forall_mem_cons] at hrs hss
          simp only [restText_cons, List.cons_append, List.append_assoc, List.cons.injEq,
            true_and] at h
          obtain ⟨rfl, htext⟩ := h
          obtain ⟨hrs', hrest⟩ :=
            hrs.1 s _ _ hss.1 (closes_restText hc rs) (closes_restText hc ss) htext
          obtain ⟨hmembers, -, huv⟩ := ih hrs.2 hss.2 hrest
          exact ⟨.cons hrs' hmembers, fun _ => rfl, huv⟩

theorem eq_of_members_singleton (hkind : r.kind = .combined) (h : r.members = [s]) :
    r = .union [s] ∨ r = .intersection [s] := by
  cases r with
  | union rs => exact .inl (congrArg _ h)
  | intersection rs => exact .inr (congrArg _ h)
  | difference a b => cases h
  | _ => cases hkind

theorem alike_of_singleton {m n : Rule} (hr : r.kind = .combined) (hs : s.kind = .combined)
    (hm : r.members = [m]) (hn : s.members = [n]) (h : Alike m n) : Alike r s := by
  have hpairs : ∀ p ∈ [m].zip [n], Alike p.1 p.2 := by simpa using h
  rcases eq_of_members_singleton hr hm with rfl | rfl <;>
    rcases eq_of_members_singleton hs hn with rfl | rfl
  · exact .union rfl hpairs
  · exact .unionOne h
  · exact .intersectionOne h
  · exact .intersection rfl hpairs

theorem alike_of_separator_eq (hr : r.kind = .combined) (hs : s.kind = .combined)
    (hsep : r.separator = s.separator) (hmembers : List.Forall₂ Alike r.members s.members) :
    Alike r s := by
  obtain ⟨hlength, hzip⟩ := List.forall₂_iff_zip.1 hmembers
  cases r with
  | difference a b =>
      cases s with
      | difference a' b' =>
          have hlast := hzip (List.mem_cons_of_mem _ List.mem_cons_self)
          exact .difference (hzip List.mem_cons_self) hlast
      | union ss => simp [separator] at hsep
      | intersection ss => simp [separator] at hsep
      | _ => cases hs
  | union rs =>
      cases s with
      | union ss => exact .union hlength fun p hp => hzip hp
      | difference a b => simp [separator] at hsep
      | intersection ss => simp [separator] at hsep
      | _ => cases hs
  | intersection rs =>
      cases s with
      | intersection ss => exact .intersection hlength fun p hp => hzip hp
      | difference a b => simp [separator] at hsep
      | union ss => simp [separator] at hsep
      | _ => cases hs
  | _ => cases hr

/-- A combination is recovered when its members are. -/
theorem recovered_of_members (hr : r.WellFormed) (hkind : r.kind = .combined)
    (h : ∀ m ∈ r.members, m.Recovered) : r.Recovered := by
  intro s u v hs hu hv htext
  have hskind := (kind_eq hr hs htext).trans hkind
  obtain ⟨m, rs, hmr, -⟩ := hr.exists_members hkind
  obtain ⟨n, ss, hns, hss⟩ := hs.exists_members hskind
  rw [List.forall_mem_cons] at hss
  rw [hmr, List.forall_mem_cons] at h
  have hc := r.separator_not_isDigit
  have hc' := s.separator_not_isDigit
  rw [toList_display_of_members hmr, toList_display_of_members hns] at htext
  simp only [List.cons_append, List.append_assoc, List.cons.injEq, true_and] at htext
  obtain ⟨hfirst, hrest⟩ := h.1 n _ _ hss.1 (closes_restText hc rs) (closes_restText hc' ss) htext
  obtain ⟨hmembers, hsep, huv⟩ := restText_append_inj h.2 hss.2 hc hc' hrest
  refine ⟨?_, huv⟩
  cases rs with
  | nil =>
      rw [List.forall₂_nil_left_iff] at hmembers
      subst hmembers
      exact alike_of_singleton hkind hskind hmr hns hfirst
  | cons r' rs =>
      apply alike_of_separator_eq hkind hskind (hsep (List.cons_ne_nil _ _))
      rw [hmr, hns]
      exact .cons hfirst hmembers

theorem recovered_weekly {w : WeeklyCadence} (h : (weekly w).WellFormed) :
    (weekly w).Recovered := by
  intro s u v hs hu hv htext
  have hkind := kind_eq h hs htext
  cases s with
  | weekly w' =>
      obtain ⟨rfl, huv⟩ := WeeklyCadence.display_append_inj hu hv htext
      exact ⟨.weekly w, huv⟩
  | _ => cases hkind

theorem WellFormed.recovered (h : r.WellFormed) : r.Recovered := by
  induction h with
  | @yearly w hstart hstop =>
      intro s u v hs hu hv htext
      have hkind := kind_eq (.yearly hstart hstop) hs htext
      cases s with
      | yearly w' =>
          obtain ⟨rfl, huv⟩ := YearlyWindow.display_append_inj hu hv htext
          exact ⟨.yearly w, huv⟩
      | _ => cases hkind
  | @monthly m hzero hlow hhigh =>
      intro s u v hs hu hv htext
      have hkind := kind_eq (.monthly hzero hlow hhigh) hs htext
      cases s with
      | monthly m' =>
          obtain ⟨rfl, huv⟩ := MonthlyWeekday.display_append_inj htext
          exact ⟨.monthly m, huv⟩
      | _ => cases hkind
  | every w => exact recovered_weekly (.every w)
  | everyNth reference hpos hn => exact recovered_weekly (.everyNth reference hpos hn)
  | difference hr hs ihr ihs =>
      exact recovered_of_members (.difference hr hs) rfl (by simpa [members] using ⟨ihr, ihs⟩)
  | union hne hrs ih => exact recovered_of_members (.union hne hrs) rfl ih
  | intersection hne hrs ih => exact recovered_of_members (.intersection hne hrs) rfl ih

theorem map_eq_of_zip {α : Type} {f : Rule → α} (hlength : rs.length = ss.length)
    (h : ∀ p ∈ rs.zip ss, f p.1 = f p.2) : rs.map f = ss.map f := by
  rw [← List.forall₂_eq_eq_eq, List.forall₂_map_left_iff, List.forall₂_map_right_iff]
  exact List.forall₂_iff_zip.2 ⟨hlength, fun hp => h _ hp⟩

theorem Alike.display_eq (h : Alike r s) : r.display = s.display := by
  induction h with
  | yearly => rfl
  | monthly => rfl
  | weekly => rfl
  | difference _ _ hr hs => rw [display, display, hr, hs]
  | union hlength _ ih =>
      rw [display, display, displays_eq_map, displays_eq_map, map_eq_of_zip hlength ih]
  | intersection hlength _ ih =>
      rw [display, display, displays_eq_map, displays_eq_map, map_eq_of_zip hlength ih]
  | unionOne _ ih => simp [display, displays, ih]
  | intersectionOne _ ih => simp [display, displays, ih]

theorem Alike.includes_eq (h : Alike r s) : r.includes = s.includes := by
  induction h with
  | yearly => rfl
  | monthly => rfl
  | weekly => rfl
  | difference _ _ hr hs =>
      funext d
      rw [includes_difference, includes_difference, hr, hs]
  | union hlength _ ih =>
      funext d
      have hmembers := congrArg (fun l => l.any fun p => p d) (map_eq_of_zip hlength ih)
      simpa [includes_union, List.any_map, Function.comp_def] using hmembers
  | intersection hlength _ ih =>
      funext d
      have hmembers := congrArg (fun l => l.all fun p => p d) (map_eq_of_zip hlength ih)
      simpa [includes_intersection, List.all_map, Function.comp_def] using hmembers
  | unionOne _ ih =>
      funext d
      simp [includes_union, includes_intersection, ih]
  | intersectionOne _ ih =>
      funext d
      simp [includes_union, includes_intersection, ih]

/-- Well-formed rules have one text only where they are alike. -/
theorem display_eq_iff (hr : r.WellFormed) (hs : s.WellFormed) :
    r.display = s.display ↔ Alike r s := by
  constructor
  · intro h
    exact (hr.recovered s [] [] hs .nil .nil (by rw [h])).1
  · exact Alike.display_eq

end Rule

end Recurrence
