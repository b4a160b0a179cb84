import Recurrence.Calendar.Names
import Recurrence.Proofs.Text.Spellings

/-!
# What is read as a day or a month

A weekday or a month is read from the spellings of its name and from no other text. All of the names
are letters of ASCII, so that nothing else is left of a text that is read once its blanks are gone.
No two of the nineteen names begin with the same three letters, so no text spells two of them.
-/

namespace Recurrence

open Text

theorem nodup_initials : ((Weekday.all.map fun w => initials w.name.toList) ++
    Month.all.map fun m => initials m.name.toList).Nodup := by
  decide

variable {text : String}

namespace Weekday

variable {v w : Weekday}

theorem isAlpha_name (w : Weekday) : ∀ c ∈ w.name.toList, c.isAlpha = true := by
  rw [← List.all_eq_true]
  cases w <;> rfl

theorem ofName?_eq_some_iff : ofName? text = some w ↔ Spells text w.name := by
  rw [ofName?, find?_spells_eq_some_iff mem_all nodup_initials.of_append_left,
    spells_eq_true_iff w.isAlpha_name]

theorem read_eq_ok_iff : read text = .ok w ↔ Spells text w.name := by
  rw [← ofName?_eq_some_iff, read]
  cases ofName? text <;> simp

theorem eq_of_spells (hv : Spells text v.name) (hw : Spells text w.name) : v = w := by
  rw [← ofName?_eq_some_iff] at hv hw
  exact Option.some.inj (hv.symm.trans hw)

theorem read_name (w : Weekday) : read w.name = .ok w :=
  read_eq_ok_iff.2 (spells_self w.name)

end Weekday

namespace Month

variable {m m' : Month}

theorem isAlpha_name (m : Month) : ∀ c ∈ m.name.toList, c.isAlpha = true := by
  rw [← List.all_eq_true]
  cases m <;> rfl

theorem ofName?_eq_some_iff : ofName? text = some m ↔ Spells text m.name := by
  rw [ofName?, find?_spells_eq_some_iff mem_all nodup_initials.of_append_right,
    spells_eq_true_iff m.isAlpha_name]

theorem read_eq_ok_iff : read text = .ok m ↔ Spells text m.name := by
  rw [← ofName?_eq_some_iff, read]
  cases ofName? text <;> simp

theorem eq_of_spells (h : Spells text m.name) (h' : Spells text m'.name) : m = m' := by
  rw [← ofName?_eq_some_iff] at h h'
  exact Option.some.inj (h.symm.trans h')

theorem read_name (m : Month) : read m.name = .ok m :=
  read_eq_ok_iff.2 (spells_self m.name)

/-- No text is read both as a weekday and as a month. -/
theorem not_spells_weekday (h : Spells text m.name) (w : Weekday) : ¬ Spells text w.name := by
  intro hw
  have hbegin := (initials_of_spells ((spells_eq_true_iff w.isAlpha_name).2 hw)).symm.trans
    (initials_of_spells ((spells_eq_true_iff m.isAlpha_name).2 h))
  have hdisjoint := List.disjoint_of_nodup_append nodup_initials
  refine hdisjoint (List.mem_map_of_mem w.mem_all) ?_
  rw [hbegin]
  exact List.mem_map_of_mem m.mem_all

end Month

end Recurrence
