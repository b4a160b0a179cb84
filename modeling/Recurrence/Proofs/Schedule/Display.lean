import Recurrence.Proofs.Rule.Display
import Recurrence.Proofs.Schedule.Agreement

/-!
# Schedules are read off their texts

The text of a schedule determines its allotments up to rules that are alike. The queries use
nothing of an allotment but its slots and the dates that its rule includes. So schedules that are
written alike answer every query alike.
-/

namespace Recurrence

open Text

variable {u v : List Char}

/-- The rules are alike and the slots are the same. -/
def Allotment.Alike (a b : Allotment) : Prop := a.rule.Alike b.rule ∧ a.slots = b.slots

theorem Allotment.display_append_inj {a b : Allotment} (ha : a.rule.WellFormed)
    (hb : b.rule.WellFormed) (h : a.display.toList ++ u = b.display.toList ++ v) :
    a.Alike b ∧ u = v := by
  have harrow : ∀ s, Closes (" => ".toList ++ s) := fun s => .space (by decide) _
  have hslots : ∀ s, Closes (" slots".toList ++ s) := fun s => .space (by decide) _
  simp only [display, String.toList_append, List.append_assoc] at h
  obtain ⟨hrule, hrest⟩ := ha.recovered b.rule _ _ hb (harrow _) (harrow _) h
  obtain ⟨hnumber, htail⟩ :=
    natural_append_inj (hslots u) (hslots v) (List.append_cancel_left hrest)
  exact ⟨⟨hrule, hnumber⟩, List.append_cancel_left htail⟩

namespace Schedule

/-- What is left to write of a schedule after one of its allotments. -/
def restText (as : List Allotment) : List Char :=
  Text.restText [',', ' '] ']' (as.map Allotment.display)

theorem restText_cons (a : Allotment) (as : List Allotment) :
    restText (a :: as) = ',' :: ' ' :: (a.display.toList ++ restText as) := rfl

theorem toList_display_cons (a : Allotment) (as : List Allotment) :
    (display ⟨a :: as⟩).toList = '[' :: (a.display.toList ++ restText as) := by
  rw [display, String.toList_append, String.toList_append, List.append_assoc]
  exact congrArg _ (toList_intercalate_append _ _ _ _)

theorem toList_display_nil : (display ⟨[]⟩).toList = ['[', ']'] := rfl

theorem restText_inj {as bs : List Allotment} (has : ∀ a ∈ as, a.rule.WellFormed)
    (hbs : ∀ b ∈ bs, b.rule.WellFormed) (h : restText as = restText bs) :
    List.Forall₂ Allotment.Alike as bs := by
  induction as generalizing bs with
  | nil =>
      cases bs with
      | nil => exact .nil
      | cons b bs => exact absurd (List.cons.inj h).1 (by decide)
  | cons a as ih =>
      cases bs with
      | nil => exact absurd (List.cons.inj h).1 (by decide)
      | cons b bs =>
          rw [List.forall_mem_cons] at has hbs
          simp only [restText_cons, List.cons.injEq, true_and] at h
          obtain ⟨hab, hrest⟩ := Allotment.display_append_inj has.1 hbs.1 h
          exact .cons hab (ih has.2 hbs.2 hrest)

/-- The text of an allotment is longer than the bracket of a schedule without any. -/
theorem display_cons_ne (a : Allotment) (as : List Allotment) :
    display ⟨a :: as⟩ ≠ display ⟨[]⟩ := by
  intro h
  have hlength := congrArg (fun t => t.toList.length) h
  simp only [toList_display_cons, toList_display_nil, Allotment.display, String.toList_append,
    List.length_append, List.length_cons, List.length_nil] at hlength
  have harrow : " => ".toList.length = 4 := rfl
  omega

theorem alike_of_display_eq {s t : Schedule} (hs : ∀ a ∈ s.allotments, a.rule.WellFormed)
    (ht : ∀ a ∈ t.allotments, a.rule.WellFormed) (h : s.display = t.display) :
    List.Forall₂ Allotment.Alike s.allotments t.allotments := by
  obtain ⟨as⟩ := s
  obtain ⟨bs⟩ := t
  cases as with
  | nil =>
      cases bs with
      | nil => exact .nil
      | cons b bs => exact absurd h.symm (display_cons_ne b bs)
  | cons a as =>
      cases bs with
      | nil => exact absurd h (display_cons_ne a as)
      | cons b bs =>
          rw [List.forall_mem_cons] at hs ht
          have htext := congrArg String.toList h
          rw [toList_display_cons, toList_display_cons] at htext
          obtain ⟨hab, hrest⟩ :=
            Allotment.display_append_inj hs.1 ht.1 (List.cons.inj htext).2
          exact .cons hab (restText_inj hs.2 ht.2 hrest)

variable {s t : Schedule}

theorem profile_eq_of_alike (h : List.Forall₂ Allotment.Alike s.allotments t.allotments) :
    s.profile = t.profile := by
  rw [profile, profile, ← List.forall₂_eq_eq_eq, List.forall₂_map_left_iff,
    List.forall₂_map_right_iff]
  exact h.imp fun a b hab => by rw [hab.1.includes_eq, hab.2]

theorem seek?_eq_of_profile_eq (h : s.profile = t.profile) (dir : Direction) (d : Date) :
    s.seek? dir d = t.seek? dir d := (sameDates_of_profile_eq h).seek?_eq dir d

theorem pulls_eq_of_profile_eq (h : s.profile = t.profile) (n : ℕ) (c : Cursor) :
    c.pulls s n = c.pulls t n := (sameDates_of_profile_eq h).pulls_eq n c

/-- Constructed rules have one text only where they are alike, and then they include the same dates.
Schedules of them that have one text answer every query alike. -/
theorem display_unambiguous {r r' : Rule} (hr : r.Constructed) (hr' : r'.Constructed)
    (hs : ∀ a ∈ s.allotments, a.rule.Constructed) (ht : ∀ a ∈ t.allotments, a.rule.Constructed) :
    (r.display = r'.display ↔ r.Alike r') ∧
      (r.display = r'.display → ∀ d, r.includes d = r'.includes d) ∧
      (s.display = t.display →
        s.length = t.length ∧ s.allotments.map Allotment.slots = t.allotments.map Allotment.slots ∧
        (∀ d, s.occurs d = t.occurs d ∧ s.slots d = t.slots d) ∧
        (∀ start stop, s.datesBetween start stop = t.datesBetween start stop) ∧
        (∀ dir d, s.seek? dir d = t.seek? dir d) ∧
        (∀ dir d maxDays, s.seekWithin? dir d maxDays = t.seekWithin? dir d maxDays) ∧
        ∀ n c, Cursor.pulls s n c = Cursor.pulls t n c) := by
  have hiff := Rule.display_eq_iff hr.wellFormed hr'.wellFormed
  refine ⟨hiff, fun h d => congrFun (hiff.1 h).includes_eq d, fun h => ?_⟩
  have halike := alike_of_display_eq (fun a ha => (hs a ha).wellFormed)
    (fun a ha => (ht a ha).wellFormed) h
  have hprofile := profile_eq_of_alike halike
  have hoccurs : s.occurs = t.occurs := by
    rw [occurs_eq_profile, occurs_eq_profile, hprofile]
  refine ⟨?_, ?_, fun d => ⟨congrFun hoccurs d, ?_⟩, fun start stop => ?_,
    seek?_eq_of_profile_eq hprofile, fun dir d maxDays => ?_, pulls_eq_of_profile_eq hprofile⟩
  · rw [length_eq_profile, length_eq_profile, hprofile]
  · have hslots := congrArg (fun l => l.map Prod.snd) hprofile
    simpa [profile, Function.comp_def] using hslots
  · rw [slots_eq_profile, slots_eq_profile, hprofile]
  · rw [datesBetween, datesBetween, hoccurs]
  · rw [seekWithin?, seekWithin?, hoccurs]

/-- The two combinations of one member are written alike. -/
theorem display_unambiguous_single :
    ∃ r r' : Rule, r.Constructed ∧ r'.Constructed ∧ r ≠ r' ∧ r.Alike r' ∧
      ∀ d, slots ⟨[⟨r, 3, by decide⟩]⟩ d = slots ⟨[⟨r', 3, by decide⟩]⟩ d := by
  let r : Rule := .union [.weekly (.every .monday)]
  let r' : Rule := .intersection [.weekly (.every .monday)]
  have hevery : ∀ s ∈ [Rule.weekly (.every .monday)], s.Constructed := by
    intro s hs
    rw [List.mem_singleton.1 hs]
    exact .every .monday
  have hr : r.Constructed := .union hevery rfl
  have hr' : r'.Constructed := .intersection hevery rfl
  let s : Schedule := ⟨[⟨r, 3, by decide⟩]⟩
  let t : Schedule := ⟨[⟨r', 3, by decide⟩]⟩
  have hs : ∀ a ∈ s.allotments, a.rule.Constructed := by
    intro a ha
    rw [List.mem_singleton.1 ha]
    exact hr
  have ht : ∀ a ∈ t.allotments, a.rule.Constructed := by
    intro a ha
    rw [List.mem_singleton.1 ha]
    exact hr'
  obtain ⟨hiff, -, hqueries⟩ := display_unambiguous hr hr' hs ht
  have htext : r.display = r'.display := rfl
  have hsame : s.display = t.display := rfl
  obtain ⟨-, -, hdates, -⟩ := hqueries hsame
  exact ⟨r, r', hr, hr', by simp [r, r'], hiff.1 htext, fun d => (hdates d).2⟩

end Schedule

end Recurrence
