import Recurrence.Proofs.Schedule.Occurrences

/-!
# Schedules that answer alike

The queries about dates use nothing of a schedule but the dates on which it occurs: the shortcut for
a schedule without allotments does not show. The slots use the dates of each rule and the slots
beside it, in their order, and no query uses more than that.
-/

namespace Recurrence.Schedule

variable {s t : Schedule}

/-- All queries about dates have the same answers. -/
structure SameDates (s t : Schedule) : Prop where
  occurs_eq : ∀ d, s.occurs d = t.occurs d
  datesBetween_eq : ∀ start stop, s.datesBetween start stop = t.datesBetween start stop
  seek?_eq : ∀ dir d, s.seek? dir d = t.seek? dir d
  seekWithin?_eq : ∀ dir d maxDays, s.seekWithin? dir d maxDays = t.seekWithin? dir d maxDays
  take_eq : ∀ n c, Cursor.take s n c = Cursor.take t n c
  pulls_eq : ∀ n c, Cursor.pulls s n c = Cursor.pulls t n c

theorem seek?_eq_of_occurs_eq (h : s.occurs = t.occurs) : s.seek? = t.seek? := by
  funext dir d
  rw [seek?_eq_find?, seek?_eq_find?, h]

theorem pull_eq_of_occurs_eq (h : s.occurs = t.occurs) (c : Cursor) : c.pull s = c.pull t := by
  rw [Cursor.pull, Cursor.pull, seek?_eq_of_occurs_eq h]

theorem pulls_eq_of_occurs_eq (h : s.occurs = t.occurs) (n : ℕ) (c : Cursor) :
    c.pulls s n = c.pulls t n := by
  induction n generalizing c with
  | zero => rfl
  | succ n ih =>
      rw [Cursor.pulls, Cursor.pulls, pull_eq_of_occurs_eq h]
      dsimp only
      rw [ih]

theorem sameDates_of_occurs_eq (h : s.occurs = t.occurs) : s.SameDates t where
  occurs_eq := congrFun h
  datesBetween_eq start stop := by rw [datesBetween, datesBetween, h]
  seek?_eq dir d := by rw [seek?_eq_of_occurs_eq h]
  seekWithin?_eq dir d maxDays := by rw [seekWithin?, seekWithin?, h]
  take_eq n c := by
    have hfrom : s.occurrencesFrom = t.occurrencesFrom := by
      funext dir d
      rw [occurrencesFrom, occurrencesFrom, h]
    rw [Cursor.take_eq_take_remaining, Cursor.take_eq_take_remaining, Cursor.remaining,
      Cursor.remaining, hfrom]
  pulls_eq := pulls_eq_of_occurs_eq h

/-- What the queries use of a schedule. -/
def profile (s : Schedule) : List ((Date → Bool) × ℕ) :=
  s.allotments.map fun a => (a.rule.includes, a.slots)

theorem length_eq_profile (s : Schedule) : s.length = s.profile.length := by
  rw [profile, List.length_map, length]

theorem occurs_eq_profile (s : Schedule) : s.occurs = fun d => s.profile.any fun p => p.1 d := by
  funext d
  rw [profile, List.any_map]
  rfl

theorem slots_eq_profile (s : Schedule) (d : Date) :
    s.slots d = ((s.profile.find? fun p => p.1 d).map Prod.snd).getD 0 := by
  rw [profile, List.find?_map, Option.map_map, slots, matching?]
  change _ = ((s.allotments.find? fun a => a.occurs d).map Allotment.slots).getD 0
  cases s.allotments.find? fun a => a.occurs d <;> rfl

theorem matchingIndex?_eq_profile (s : Schedule) (d : Date) :
    s.matchingIndex? d = s.profile.findIdx? fun p => p.1 d := by
  rw [profile, List.findIdx?_map]
  rfl

theorem sameDates_of_profile_eq (h : s.profile = t.profile) : s.SameDates t := by
  apply sameDates_of_occurs_eq
  rw [occurs_eq_profile, occurs_eq_profile, h]

theorem slots_eq_of_profile_eq (h : s.profile = t.profile) (d : Date) : s.slots d = t.slots d := by
  rw [slots_eq_profile, slots_eq_profile, h]

end Recurrence.Schedule
