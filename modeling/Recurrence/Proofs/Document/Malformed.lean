import Recurrence.Proofs.Document.Rules

/-!
# Malformed texts

A text that is no document is malformed, whatever else is wrong with it. No other error is of this
kind: the readers of names, days and dates do not raise it, nor do the nodes and the entries that
use them. So the reading of a schedule tells the texts that are no documents from all others.
-/

namespace Recurrence

theorem Error.kind_eq_malformed_iff (err : Error) : err.kind = .malformed ↔ err = .malformed := by
  cases err <;> simp [kind]

section Malformed

variable {α β : Type}

/-- The computation does not fail as a malformed text does. -/
def WellRead (x : Except Error α) : Prop := x ≠ .error .malformed

theorem wellRead_ok (a : α) : WellRead (.ok a) := by simp [WellRead]

theorem wellRead_error {err : Error} (h : err ≠ .malformed) :
    WellRead (.error err : Except Error α) := by
  simpa [WellRead] using h

theorem WellRead.bind {x : Except Error α} {f : α → Except Error β} (hx : WellRead x)
    (hf : ∀ a, WellRead (f a)) : WellRead (x >>= f) := by
  intro h
  rcases bind_eq_error_iff.1 h with h | ⟨a, -, h⟩
  · exact hx h
  · exact hf a h

end Malformed

theorem Weekday.wellRead_read (text : String) : WellRead (read text) := by
  unfold read
  split
  · exact wellRead_ok _
  · exact wellRead_error (by simp)

theorem Month.wellRead_read (text : String) : WellRead (read text) := by
  unfold read
  split
  · exact wellRead_ok _
  · exact wellRead_error (by simp)

theorem Date.wellRead_read (text : String) : WellRead (read text) := by
  unfold read
  split
  · exact wellRead_error (by simp)
  · split
    · exact wellRead_ok _
    · exact wellRead_error (by simp)

theorem MonthDay.wellRead_ofNumbers (month day : ℕ) : WellRead (ofNumbers month day) := by
  apply WellRead.bind
  · unfold Month.ofNumber
    split
    · exact wellRead_ok _
    · exact wellRead_error (by simp)
  · intro m
    unfold ofMonth
    split_ifs
    · exact wellRead_ok _
    · exact wellRead_error (by simp)
    · exact wellRead_error (by simp)

theorem MonthDay.wellRead_read (text : String) : WellRead (read text) := by
  unfold read
  split
  · exact wellRead_error (by simp)
  · split
    · exact wellRead_error (by simp)
    · exact wellRead_error (by simp)
    · exact wellRead_ofNumbers _ _

namespace Rule

theorem wellRead_unionOf (rs : List Rule) : WellRead (unionOf rs) := by
  cases rs with
  | nil => exact wellRead_error (by simp)
  | cons r rs => exact wellRead_ok _

theorem wellRead_intersectionOf (rs : List Rule) : WellRead (intersectionOf rs) := by
  cases rs with
  | nil => exact wellRead_error (by simp)
  | cons r rs => exact wellRead_ok _

end Rule

namespace Node

variable (n : Node)

theorem wellRead_required (name : String) (field : Option String) :
    WellRead (required name field) := by
  cases field with
  | none => exact wellRead_error (by simp)
  | some s => exact wellRead_ok s

theorem wellRead_yearlyWindow : WellRead n.yearlyWindow := by
  unfold yearlyWindow
  split
  · exact wellRead_error (by simp)
  · exact wellRead_error (by simp)
  · refine (wellRead_required _ _).bind fun s => (MonthDay.wellRead_read s).bind fun a => ?_
    refine (wellRead_required _ _).bind fun t => (MonthDay.wellRead_read t).bind fun b => ?_
    exact wellRead_ok _
  · refine (wellRead_required _ _).bind fun s => (Month.wellRead_read s).bind fun a => ?_
    refine (wellRead_required _ _).bind fun t => (Month.wellRead_read t).bind fun b => ?_
    exact wellRead_ok _

theorem wellRead_monthlyWeekday : WellRead n.monthlyWeekday := by
  unfold monthlyWeekday
  split
  · exact wellRead_error (by simp)
  · refine (Weekday.wellRead_read _).bind fun w => ?_
    split
    · exact wellRead_error (by simp)
    · unfold MonthlyWeekday.ofOrdinal
      split_ifs
      · exact wellRead_error (by simp)
      · exact wellRead_ok _
      · exact wellRead_error (by simp)

theorem wellRead_weeklyCadence : WellRead n.weeklyCadence := by
  unfold weeklyCadence
  split
  · exact wellRead_error (by simp)
  · exact (Weekday.wellRead_read _).bind fun w => wellRead_ok _
  · exact wellRead_error (by simp)
  · refine (Date.wellRead_read _).bind fun r => WellRead.bind ?_ fun k => ?_
    · unfold weeklyInterval
      split
      · exact wellRead_ok _
      · split_ifs
        · exact wellRead_ok _
        · exact wellRead_error (by simp)
    · cases k with
      | zero => exact wellRead_error (by simp)
      | succ k => exact wellRead_ok _

theorem wellRead_rules {ns : List Node} (h : ∀ m ∈ ns, WellRead m.rule) :
    WellRead (rules ns) := by
  induction ns with
  | nil => exact wellRead_ok _
  | cons n ns ih =>
      have htail := ih fun m hm => h m (List.mem_cons_of_mem n hm)
      rw [rules]
      exact (h n List.mem_cons_self).bind fun r => htail.bind fun rs => wellRead_ok _

theorem wellRead_rule : WellRead n.rule := by
  induction n using Node.induction with
  | node n hincluded hexcluded hmembers =>
      rw [rule_eq]
      split
      · exact wellRead_error (by simp)
      · exact wellRead_error (by simp)
      · exact n.wellRead_yearlyWindow.bind fun w => wellRead_ok _
      · exact n.wellRead_monthlyWeekday.bind fun m => wellRead_ok _
      · exact n.wellRead_weeklyCadence.bind fun c => wellRead_ok _
      · split
        · exact wellRead_error (by simp)
        · exact wellRead_error (by simp)
        · rename_i i e hi he
          exact (hincluded i hi).bind fun r => (hexcluded e he).bind fun s => wellRead_ok _
      · split
        · exact wellRead_error (by simp)
        · rename_i ns hns
          exact (wellRead_rules (hmembers ns hns)).bind Rule.wellRead_unionOf
      · split
        · exact wellRead_error (by simp)
        · rename_i ns hns
          exact (wellRead_rules (hmembers ns hns)).bind Rule.wellRead_intersectionOf

end Node

namespace Entry

theorem wellRead_allotment (i : ℕ) (e : Entry) : WellRead (e.allotment i) := by
  unfold allotment
  split
  · exact wellRead_error (by simp)
  · refine e.node.wellRead_rule.bind fun r => ?_
    unfold Allotment.ofSlots
    split_ifs
    · exact wellRead_error (by simp)
    · exact wellRead_ok _
    · exact wellRead_error (by simp)

theorem wellRead_allotments (i : ℕ) (es : List Entry) : WellRead (allotments i es) := by
  induction es generalizing i with
  | nil => exact wellRead_ok _
  | cons e es ih =>
      rw [allotments]
      exact (e.wellRead_allotment i).bind fun a => (ih (i + 1)).bind fun as => wellRead_ok _

end Entry

namespace Schedule

theorem wellRead_ofDocument (d : Document) : WellRead (ofDocument d) := by
  obtain ⟨schedule⟩ := d
  cases schedule with
  | none => exact wellRead_error (by simp)
  | some es => exact (Entry.wellRead_allotments 0 es).bind fun as => wellRead_ok _

/-- Whatever is wrong with its entries, a text that is a document is not called malformed. -/
theorem read_malformed_iff (text : String) :
    (∃ err, read text = .error err ∧ err.kind = .malformed) ↔ Document.ofText? text = none := by
  simp only [Error.kind_eq_malformed_iff, exists_eq_right]
  unfold read
  cases Document.ofText? text with
  | none => simp
  | some d => simpa [WellRead] using wellRead_ofDocument d

end Schedule

end Recurrence
