import Recurrence.Calendar.MonthDay
import Recurrence.Proofs.Steps
import Recurrence.Proofs.Text.Blanks

/-!
# What is read as a month-day

A written month-day has one hyphen, and on each side of it a number with blanks around, which may
have leading zeros and a plus sign. Two numbers make a month-day when the first is that of a month
and the month has so many days in a leap year. The shape of a text is judged before its parts, the
left part before the right one, and both of them before the numbers that they stand for.
-/

namespace Recurrence

namespace Text

/-- A number in digits, which may have a plus sign in front of it. -/
inductive Counts : List Char → ℕ → Prop
  | plain {ds : List Char} (h : IsDigits ds) : Counts ds (Nat.ofDigitChars 10 ds 0)
  | plus {ds : List Char} (h : IsDigits ds) : Counts ('+' :: ds) (Nat.ofDigitChars 10 ds 0)

variable {s t : List Char} {n : ℕ}

theorem natural?_eq_some_iff : natural? s = some n ↔ IsDigits s ∧ Nat.ofDigitChars 10 s 0 = n := by
  have hdigits : s ≠ [] ∧ s.all Char.isDigit = true ↔ IsDigits s := by
    rw [List.all_eq_true]
    exact ⟨fun h => ⟨h.1, h.2⟩, fun h => ⟨h.ne_nil, h.isDigit⟩⟩
  rw [natural?, ← hdigits]
  split_ifs with h
  · rw [Option.some.injEq]
    exact (and_iff_right h).symm
  · rw [false_iff]
    exact fun h' => h h'.1

theorem counting?_eq_some_iff : counting? s = some n ↔ Counts s n := by
  unfold counting?
  split
  · rename_i ds
    rw [natural?_eq_some_iff]
    constructor
    · rintro ⟨h, rfl⟩
      exact .plus h
    · rintro (h | h)
      · exact absurd (h.isDigit '+' List.mem_cons_self) (by decide)
      · exact ⟨h, rfl⟩
  · rename_i hplus
    rw [natural?_eq_some_iff]
    constructor
    · rintro ⟨h, rfl⟩
      exact .plain h
    · rintro (h | h)
      · exact ⟨h, rfl⟩
      · exact absurd rfl (hplus _)

theorem Counts.isDigit_or_eq_plus (h : Counts s n) : ∀ c ∈ s, c.isDigit = true ∨ c = '+' := by
  cases h with
  | plain h => exact fun c hc => Or.inl (h.isDigit c hc)
  | plus h =>
      rw [List.forall_mem_cons]
      exact ⟨Or.inr rfl, fun c hc => Or.inl (h.isDigit c hc)⟩

theorem Counts.bare (h : Counts s n) : Bare s := by
  apply bare_of_forall
  intro c hc
  rcases h.isDigit_or_eq_plus c hc with hdigit | rfl
  · exact isBlank_of_isDigit hdigit
  · decide

end Text

open Text

theorem Month.ofNumber_number (m : Month) : ofNumber m.number = .ok m := by
  rw [ofNumber, ofNumber?_number]

theorem Month.ofNumber?_eq_none_iff {n : ℕ} : ofNumber? n = none ↔ n < 1 ∨ 12 < n := by
  have hall : ∀ n ∈ List.range 13, ofNumber? n = none → n < 1 := by decide
  constructor
  · intro h
    by_contra! hrange
    have hzero := hall n (List.mem_range.2 (by omega)) h
    omega
  · intro h
    rw [Option.eq_none_iff_forall_ne_some]
    intro m hm
    have hnumber := number_eq_of_ofNumber? hm
    have hlow := m.one_le_number
    have hhigh := m.number_le_twelve
    omega

namespace MonthDay

variable {s left right : List Char} {m j n : ℕ} {r : Except Error MonthDay}

/-- One side of a written month-day: a number that 32 bits can hold, with blanks around it. -/
def IsPart (s : List Char) (n : ℕ) : Prop := ∃ t, Counts t n ∧ Padded t s ∧ n < 2 ^ 32

/-- The text has the two numbers on the sides of its hyphen. -/
def Writes (text : String) (m j : ℕ) : Prop :=
  ∃ left right, text.toList = left ++ '-' :: right ∧ IsPart left m ∧ IsPart right j

theorem part?_eq_some_iff : part? s = some n ↔ IsPart s n := by
  rw [part?, Option.filter_eq_some_iff, counting?_eq_some_iff, decide_eq_true_eq, partLimit,
    Nat.le_iff_lt_add_one]
  constructor
  · rintro ⟨h, hn⟩
    exact ⟨_, h, padded_trim s, hn⟩
  · rintro ⟨t, h, hpadded, hn⟩
    rw [trim_eq_iff.2 ⟨hpadded, h.bare⟩]
    exact ⟨h, hn⟩

theorem part?_eq_none_iff : part? s = none ↔ ∀ n, ¬ IsPart s n := by
  simp only [Option.eq_none_iff_forall_ne_some, ne_eq, part?_eq_some_iff]

theorem IsPart.notMem_hyphen (h : IsPart s n) : '-' ∉ s := by
  obtain ⟨t, ht, ⟨u, v, hu, hv, rfl⟩, -⟩ := h
  simp only [List.mem_append, not_or]
  refine ⟨fun hmem => ?_, fun hmem => ?_, fun hmem => ?_⟩
  · exact absurd (hu _ hmem) (by decide)
  · exact absurd (ht.isDigit_or_eq_plus _ hmem) (by decide)
  · exact absurd (hv _ hmem) (by decide)

theorem sides?_eq_some_iff :
    sides? s = some (left, right) ↔ s = left ++ '-' :: right ∧ '-' ∉ left ∧ '-' ∉ right := by
  have hfront : '-' ∉ s.takeWhile (· ≠ '-') := fun h => by
    simpa using List.mem_takeWhile_imp h
  have hwhole := List.takeWhile_append_dropWhile (p := fun c => decide (c ≠ '-')) (l := s)
  constructor
  · intro h
    unfold sides? at h
    split at h
    · cases h
    · rename_i c rest hdrop
      have hc : c = '-' := by
        have hhead := List.head?_dropWhile_not (fun c => decide (c ≠ '-')) s
        rw [hdrop] at hhead
        simpa using hhead
      split_ifs at h with hmem
      cases h
      rw [hdrop, hc] at hwhole
      exact ⟨hwhole.symm, hfront, hmem⟩
  · rintro ⟨rfl, hleft, hright⟩
    have hne : ∀ c ∈ left, (decide (c ≠ '-')) = true := fun c hc =>
      decide_eq_true fun h => hleft (h ▸ hc)
    rw [sides?, List.dropWhile_append_of_pos hne, List.takeWhile_append_of_pos hne]
    simp [hright]

theorem sides?_eq_none_iff : sides? s = none ↔ s.count '-' ≠ 1 := by
  rw [Option.eq_none_iff_forall_ne_some]
  constructor
  · intro h hcount
    have hmem : '-' ∈ s := List.count_pos_iff.1 (by omega)
    obtain ⟨left, right, rfl, hleft⟩ := List.eq_append_cons_of_mem hmem
    rw [List.count_append, List.count_cons_self, List.count_eq_zero.2 hleft] at hcount
    exact h (left, right) (sides?_eq_some_iff.2 ⟨rfl, hleft, List.count_eq_zero.1 (by omega)⟩)
  · rintro h ⟨left, right⟩ hsides
    obtain ⟨rfl, hleft, hright⟩ := sides?_eq_some_iff.1 hsides
    rw [List.count_append, List.count_cons_self, List.count_eq_zero.2 hleft,
      List.count_eq_zero.2 hright] at h
    exact h rfl

theorem ofMonth_eq_ok {month : Month} (h : 1 ≤ j) (h' : j ≤ month.length true) :
    ofMonth month j = .ok ⟨month, j, h, h'⟩ := by
  rw [ofMonth, dif_pos ⟨h, h'.trans (month.length_le true)⟩, dif_pos h']

/-- What two numbers come to. The month is looked for first, then any month with that day, and then
the day in the month itself. -/
inductive Judged (m j : ℕ) : Except Error MonthDay → Prop
  | noMonth (hm : m < 1 ∨ 12 < m) : Judged m j (.error (.noSuchMonth m))
  | noDay (hm : 1 ≤ m ∧ m ≤ 12) (hj : j < 1 ∨ 31 < j) : Judged m j (.error (.noSuchDay j))
  | lacking {month : Month} (hm : month.number = m) (hj : 1 ≤ j ∧ j ≤ 31)
      (hlength : month.length true < j) : Judged m j (.error (.dayNotInMonth j month))
  | found (d : MonthDay) (hm : d.month.number = m) (hj : d.day = j) : Judged m j (.ok d)

theorem ofNumbers_number (month : Month) (j : ℕ) :
    ofNumbers month.number j = ofMonth month j := by
  rw [ofNumbers, Month.ofNumber_number, bind_ok]

theorem ofNumbers_of_judged (h : Judged m j r) : ofNumbers m j = r := by
  cases h with
  | noMonth hm =>
      rw [ofNumbers, Month.ofNumber, Month.ofNumber?_eq_none_iff.2 hm]
      rfl
  | noDay hm hj =>
      have hsome : Month.ofNumber? m ≠ none := by
        rw [ne_eq, Month.ofNumber?_eq_none_iff]
        omega
      obtain ⟨month, hmonth⟩ := Option.ne_none_iff_exists'.1 hsome
      obtain rfl := Month.number_eq_of_ofNumber? hmonth
      rw [ofNumbers_number, ofMonth, dif_neg (by omega)]
  | @lacking month hm hj hlength =>
      subst hm
      rw [ofNumbers_number, ofMonth, dif_pos hj, dif_neg (by omega)]
  | found d hm hj =>
      subst hm hj
      rw [ofNumbers_number, ofMonth_eq_ok d.one_le_day d.day_le]

theorem exists_judged (m j : ℕ) : ∃ r, Judged m j r := by
  cases hmonth : Month.ofNumber? m with
  | none => exact ⟨_, .noMonth (Month.ofNumber?_eq_none_iff.1 hmonth)⟩
  | some month =>
      have hm := Month.number_eq_of_ofNumber? hmonth
      have hlong := month.length_le true
      have hlow := month.one_le_number
      have hhigh := month.number_le_twelve
      by_cases hj : 1 ≤ j ∧ j ≤ 31
      · by_cases hday : j ≤ month.length true
        · exact ⟨_, .found ⟨month, j, hj.1, hday⟩ hm rfl⟩
        · exact ⟨_, .lacking hm hj (not_le.1 hday)⟩
      · exact ⟨_, .noDay (by omega) (by omega)⟩

theorem ofNumbers_eq_iff : ofNumbers m j = r ↔ Judged m j r := by
  constructor
  · rintro rfl
    obtain ⟨r, h⟩ := exists_judged m j
    rwa [ofNumbers_of_judged h]
  · exact ofNumbers_of_judged

/-- What a text comes to, by the first thing that is wrong with it or by its two numbers. -/
inductive Outcome (text : String) : Except Error MonthDay → Prop
  | shapeless (h : text.toList.count '-' ≠ 1) : Outcome text (.error (.notMonthDay text))
  | noMonth {left right : List Char} (hsides : text.toList = left ++ '-' :: right)
      (hleft : '-' ∉ left) (hright : '-' ∉ right) (hm : ∀ m, ¬ IsPart left m) :
      Outcome text (.error (.unreadableMonth text))
  | noDay {left right : List Char} {m : ℕ} (hsides : text.toList = left ++ '-' :: right)
      (hright : '-' ∉ right) (hm : IsPart left m) (hj : ∀ j, ¬ IsPart right j) :
      Outcome text (.error (.unreadableDay text))
  | numbers {m j : ℕ} {r : Except Error MonthDay} (hwrites : Writes text m j)
      (hr : Judged m j r) : Outcome text r

variable {text : String}

theorem read_of_writes (h : Writes text m j) : read text = ofNumbers m j := by
  obtain ⟨left, right, hsides, hm, hj⟩ := h
  rw [read, sides?_eq_some_iff.2 ⟨hsides, hm.notMem_hyphen, hj.notMem_hyphen⟩]
  dsimp only
  rw [part?_eq_some_iff.2 hm, part?_eq_some_iff.2 hj]

theorem read_of_outcome (h : Outcome text r) : read text = r := by
  cases h with
  | shapeless h => rw [read, sides?_eq_none_iff.2 h]
  | noMonth hsides hleft hright hm =>
      rw [read, sides?_eq_some_iff.2 ⟨hsides, hleft, hright⟩]
      dsimp only
      rw [part?_eq_none_iff.2 hm]
  | noDay hsides hright hm hj =>
      rw [read, sides?_eq_some_iff.2 ⟨hsides, hm.notMem_hyphen, hright⟩]
      dsimp only
      rw [part?_eq_some_iff.2 hm, part?_eq_none_iff.2 hj]
  | numbers hwrites hr => rw [read_of_writes hwrites, ofNumbers_of_judged hr]

theorem exists_outcome (text : String) : ∃ r, Outcome text r := by
  by_cases hshape : text.toList.count '-' = 1
  · have hsides : sides? text.toList ≠ none := by
      rw [ne_eq, sides?_eq_none_iff, not_not]
      exact hshape
    obtain ⟨⟨left, right⟩, hsides⟩ := Option.ne_none_iff_exists'.1 hsides
    obtain ⟨htext, hleft, hright⟩ := sides?_eq_some_iff.1 hsides
    by_cases hm : ∃ m, IsPart left m
    · obtain ⟨m, hm⟩ := hm
      by_cases hj : ∃ j, IsPart right j
      · obtain ⟨j, hj⟩ := hj
        obtain ⟨r, hr⟩ := exists_judged m j
        exact ⟨r, .numbers ⟨left, right, htext, hm, hj⟩ hr⟩
      · exact ⟨_, .noDay htext hright hm (not_exists.1 hj)⟩
    · exact ⟨_, .noMonth htext hleft hright (not_exists.1 hm)⟩
  · exact ⟨_, .shapeless hshape⟩

/-- The text writes no other two numbers. -/
theorem Writes.unique {m' j' : ℕ} (h : Writes text m j) (h' : Writes text m' j') :
    m = m' ∧ j = j' := by
  obtain ⟨left, right, hsides, hm, hj⟩ := h
  obtain ⟨left', right', hsides', hm', hj'⟩ := h'
  have heq := sides?_eq_some_iff.2 ⟨hsides, hm.notMem_hyphen, hj.notMem_hyphen⟩
  rw [sides?_eq_some_iff.2 ⟨hsides', hm'.notMem_hyphen, hj'.notMem_hyphen⟩] at heq
  cases heq
  rw [← part?_eq_some_iff] at hm hj hm' hj'
  rw [hm] at hm'
  rw [hj] at hj'
  exact ⟨Option.some.inj hm', Option.some.inj hj'⟩

/-- Two numbers make a month-day when the month has the day in a leap year. -/
theorem exists_ofNumbers_eq_ok_iff :
    (∃ d, ofNumbers m j = .ok d) ↔ ∃ month : Month, month.number = m ∧ 1 ≤ j ∧
      j ≤ month.length true := by
  constructor
  · rintro ⟨d, hd⟩
    cases ofNumbers_eq_iff.1 hd with
    | found d hm hj => exact ⟨d.month, hm, hj ▸ d.one_le_day, hj ▸ d.day_le⟩
  · rintro ⟨month, hm, hlow, hhigh⟩
    exact ⟨_, ofNumbers_of_judged (.found ⟨month, j, hlow, hhigh⟩ hm rfl)⟩

theorem kind_of_judged {e : Error} (h : Judged m j (.error e)) : e.kind = .range := by
  cases h <;> rfl

/-- Every text has exactly one outcome, and it is what the text is read as. -/
theorem read_eq_iff_outcome : read text = r ↔ Outcome text r := by
  constructor
  · rintro rfl
    obtain ⟨r, h⟩ := exists_outcome text
    rwa [read_of_outcome h]
  · exact read_of_outcome

/-- A text is read as a month-day when it writes the two numbers of this month-day. -/
theorem read_eq_ok_iff {d : MonthDay} : read text = .ok d ↔ Writes text d.month.number d.day := by
  constructor
  · intro h
    cases read_eq_iff_outcome.1 h with
    | numbers hwrites hr =>
        cases hr with
        | found d hm hj =>
            subst hm hj
            exact hwrites
  · intro h
    rw [read_of_writes h]
    exact ofNumbers_of_judged (.found d rfl rfl)

theorem format_error_iff :
    (∃ e, read text = .error e ∧ e.kind = .format) ↔ ¬ ∃ m j, Writes text m j := by
  constructor
  · rintro ⟨e, he, hkind⟩ ⟨m, j, hwrites⟩
    rw [read_of_writes hwrites, ofNumbers_eq_iff] at he
    rw [kind_of_judged he] at hkind
    cases hkind
  · intro h
    obtain ⟨r, hr⟩ := exists_outcome text
    cases hr with
    | shapeless hshape => exact ⟨_, read_of_outcome (.shapeless hshape), rfl⟩
    | noMonth hsides hleft hright hm =>
        exact ⟨_, read_of_outcome (.noMonth hsides hleft hright hm), rfl⟩
    | noDay hsides hright hm hj => exact ⟨_, read_of_outcome (.noDay hsides hright hm hj), rfl⟩
    | numbers hwrites => exact absurd ⟨_, _, hwrites⟩ h

end MonthDay

end Recurrence
