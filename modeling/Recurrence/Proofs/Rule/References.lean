import Recurrence.Proofs.Calendar.Written
import Recurrence.Rule.Weekly

/-!
# References of a cadence in writing

The text of a cadence ends in its reference. This part, with any blanks around it, is read as the
same date, whatever the year. No text is ever read as a date of other numbers than the three that
it writes.
-/

namespace Recurrence

open Text

namespace WeeklyCadence

/-- The reference in the text of a cadence is read back, and a text that is read at all is read as
the date of its own three numbers. -/
theorem reference_read_back :
    (∀ n d hn, (everyNth n d hn).display = "every " ++ natural n ++ " weeks on " ++
        d.weekday.abbreviation ++ " from " ++ d.display) ∧
      (∀ (d : Date) (u v : String), IsBlanks u.toList → IsBlanks v.toList →
        Date.read (u ++ d.display ++ v) = .ok d) ∧
      ∀ text : String,
        ((∃ d, Date.read text = .ok d ∧ Date.Writes text d.year d.month.number d.day) ∨
          ∃ e, Date.read text = .error e ∧ e.kind = .format) ∧
        ∀ y m j, Date.Writes text y m j →
          (∀ d, Date.read text = .ok d ↔ d.year = y ∧ d.month.number = m ∧ d.day = j) ∧
          ((∃ d, Date.read text = .ok d) ↔ (-262143 ≤ y ∧ y ≤ 262142) ∧
            ∃ month : Month, month.number = m ∧ 1 ≤ j ∧ j ≤ month.length (isLeapYear y)) := by
  refine ⟨fun n d hn => rfl, ?_, fun text => ⟨?_, fun y m j hwrites => ?_⟩⟩
  · intro d u v hu hv
    have hpadded : Padded d.display.toList (u ++ d.display ++ v).toList :=
      ⟨u.toList, v.toList, hu, hv, by simp⟩
    rw [Date.read_eq_ok_congr hpadded.trim_eq]
    exact d.read_display
  · cases hread : Date.read text with
    | ok d => exact Or.inl ⟨d, rfl, Date.read_eq_ok_iff.1 hread⟩
    | error e =>
        obtain ⟨fault, rfl⟩ := Date.exists_of_read_eq_error hread
        exact Or.inr ⟨_, rfl, rfl⟩
  · exact ⟨fun d => Date.read_eq_ok_iff_of_writes hwrites, Date.exists_read_eq_ok_iff hwrites⟩

/-- The last date between blanks is read back, and a leap day in front of the year 0 is found. -/
theorem reference_read_back_leapDay :
    Date.read ("\u3000" ++ Date.last.display ++ "\n") = .ok .last ∧
      ∃ d, Date.read "-0004- 2-29" = .ok d := by
  obtain ⟨-, hback, hread⟩ := reference_read_back
  have hmonth : Date.WritesPart ([' '] ++ Nat.toDigits 10 2) (Nat.ofDigitChars 10 _ 0) :=
    .blanks (isBlanks_singleton (by decide)) (isDigits_toDigits 2) (by decide)
  have hwrites : Date.Writes "-0004- 2-29" (-4) 2 29 :=
    ⟨_, ⟨_, _, _, Date.writesYear_yearText (-4), hmonth, Date.writesPart_padded (by decide), rfl⟩,
      ⟨[], [], isBlanks_nil, isBlanks_nil, by decide⟩⟩
  have hfront : IsBlanks "\u3000".toList := isBlanks_singleton (by decide)
  have hbehind : IsBlanks "\n".toList := isBlanks_singleton (by decide)
  refine ⟨hback .last "\u3000" "\n" hfront hbehind, ?_⟩
  exact ((hread _).2 _ _ _ hwrites).2.2 ⟨by decide, .february, by decide⟩

end WeeklyCadence

end Recurrence
