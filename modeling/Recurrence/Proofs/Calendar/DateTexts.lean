import Recurrence.Calendar.DateText
import Recurrence.Proofs.Calendar.Axis
import Recurrence.Proofs.Steps
import Recurrence.Proofs.Text.Blanks

/-!
# What is read as a date

A written date has three numbers with hyphens between them and blanks around the whole. The first
number is a year, of at most four digits or with a sign and any number of them, and the others have
one or two digits and may have blanks in front. A text that has this form writes its three numbers,
and only those. It is read as the date of this year, month and day, and where there is no such date
it is refused.
-/

namespace Recurrence

open Text

namespace Date

/-- A year as it stands in a date. -/
inductive WritesYear : List Char → ℤ → Prop
  | plain {ds : List Char} (h : IsDigits ds) (hlength : ds.length ≤ 4) :
      WritesYear ds (Nat.ofDigitChars 10 ds 0)
  | plus {ds : List Char} (h : IsDigits ds) : WritesYear ('+' :: ds) (Nat.ofDigitChars 10 ds 0)
  | minus {ds : List Char} (h : IsDigits ds) : WritesYear ('-' :: ds) (-Nat.ofDigitChars 10 ds 0)

/-- The number of a month or of a day, which may have blanks in front of it. -/
inductive WritesPart : List Char → ℕ → Prop
  | blanks {u ds : List Char} (hu : IsBlanks u) (h : IsDigits ds) (hlength : ds.length ≤ 2) :
      WritesPart (u ++ ds) (Nat.ofDigitChars 10 ds 0)

/-- The year, the month and the day in numbers. -/
def WritesCivil (s : List Char) (y : ℤ) (m j : ℕ) : Prop :=
  ∃ year month day, WritesYear year y ∧ WritesPart month m ∧ WritesPart day j ∧
    s = year ++ '-' :: (month ++ '-' :: day)

/-- The text has the form of a date with these three numbers. -/
def Writes (text : String) (y : ℤ) (m j : ℕ) : Prop :=
  ∃ s, WritesCivil s y m j ∧ Padded s text.toList

variable {s rest ds : List Char} {y : ℤ} {m j n : ℕ}

theorem readDigits_append {limit : Option ℕ} (hds : IsDigits ds) (hrest : Parted rest)
    (hlimit : ∀ n ∈ limit, ds.length ≤ n) :
    readDigits limit (ds ++ rest) = .ok (Nat.ofDigitChars 10 ds 0, rest) := by
  have hdrop : (ds ++ rest).drop ds.length = rest := List.drop_left
  cases limit with
  | none =>
      have hwindow : (ds ++ rest).takeWhile Char.isDigit = ds := hds.takeWhile_append hrest
      obtain ⟨c, t, rfl, hc⟩ := hds.exists_cons
      rw [List.cons_append] at hwindow hdrop ⊢
      simp only [readDigits, if_pos hc, hwindow, hdrop]
  | some n =>
      have hwindow : ((ds ++ rest).take n).takeWhile Char.isDigit = ds := by
        rw [List.take_append, List.take_of_length_le (hlimit n rfl)]
        exact hds.takeWhile_append (parted_take hrest _)
      obtain ⟨c, t, rfl, hc⟩ := hds.exists_cons
      rw [List.cons_append] at hwindow hdrop ⊢
      simp only [readDigits, if_pos hc, hwindow, hdrop]

/-- The digits at the front of a window that opens with a digit. -/
theorem isDigits_takeWhile {c : Char} {window : List Char} (hc : c.isDigit = true)
    (hwindow : c :: window <+: s) :
    IsDigits ((c :: window).takeWhile Char.isDigit) ∧
      s = (c :: window).takeWhile Char.isDigit ++
        s.drop ((c :: window).takeWhile Char.isDigit).length := by
  have hfront := (List.takeWhile_prefix Char.isDigit).trans hwindow
  refine ⟨⟨?_, fun d hd => List.mem_takeWhile_imp hd⟩, (List.prefix_iff_eq_append.1 hfront).symm⟩
  rw [List.takeWhile_cons_of_pos hc]
  exact List.cons_ne_nil _ _

theorem exists_of_readDigits {limit : Option ℕ} (hlimit : limit ≠ some 0)
    (h : readDigits limit s = .ok (n, rest)) :
    ∃ ds, IsDigits ds ∧ (∀ k ∈ limit, ds.length ≤ k) ∧ n = Nat.ofDigitChars 10 ds 0 ∧
      s = ds ++ rest := by
  unfold readDigits at h
  split at h
  · cases h
  · rename_i c t
    split_ifs at h with hc
    cases limit with
    | none =>
        obtain ⟨hdigits, hsplit⟩ := isDigits_takeWhile hc List.prefix_rfl
        cases h
        exact ⟨_, hdigits, fun k hk => absurd hk (Option.not_mem_none k), rfl, hsplit⟩
    | some k =>
        cases k with
        | zero => exact absurd rfl hlimit
        | succ k =>
            have hwindow : c :: t.take k <+: c :: t := List.take_prefix (k + 1) (c :: t)
            obtain ⟨hdigits, hsplit⟩ := isDigits_takeWhile hc hwindow
            cases h
            refine ⟨_, hdigits, ?_, rfl, hsplit⟩
            rintro _ ⟨⟩
            have hlength := (List.takeWhile_prefix (l := c :: t.take k) Char.isDigit).length_le
            exact hlength.trans (Nat.succ_le_succ (List.length_take_le k t))

theorem readHyphen_eq_ok_iff : readHyphen s = .ok rest ↔ s = '-' :: rest := by
  unfold readHyphen
  split
  · simp
  · simp [eq_comm]
  · rename_i hne
    simp only [reduceCtorEq, false_iff]
    exact hne rest

section Parts

variable {year part : List Char}

theorem trimLeft_cons {c : Char} (h : isBlank c = false) : trimLeft (c :: rest) = c :: rest := by
  apply trimLeft_eq_self
  rintro d ⟨⟩
  exact h

/-- What is read at a part, and where the reading stops. -/
theorem WritesPart.readDigits_eq (h : WritesPart part n) (hrest : Parted rest) :
    readDigits (some 2) (trimLeft (part ++ rest)) = .ok (n, rest) := by
  obtain ⟨hu, hds, hlength⟩ := h
  rw [List.append_assoc, trimLeft_append hu, hds.trimLeft_append_self]
  apply readDigits_append hds hrest
  rintro _ ⟨⟩
  exact hlength

theorem exists_writesPart (h : readDigits (some 2) (trimLeft s) = .ok (n, rest)) :
    ∃ part, WritesPart part n ∧ s = part ++ rest := by
  obtain ⟨ds, hds, hlength, rfl, hs⟩ := exists_of_readDigits (by decide) h
  have hblanks : IsBlanks (s.takeWhile isBlank) := fun c => List.mem_takeWhile_imp
  refine ⟨_, .blanks hblanks hds (hlength 2 rfl), ?_⟩
  rw [List.append_assoc, ← hs, trimLeft, List.takeWhile_append_dropWhile]

theorem readMonth_eq_ok_iff {month : Month} :
    readMonth s = .ok (month, rest) ↔
      readDigits (some 2) (trimLeft s) = .ok (month.number, rest) := by
  simp only [readMonth, bind_eq_ok_iff, Prod.exists]
  constructor
  · rintro ⟨n, rest', hdigits, h⟩
    split at h
    · rename_i hmonth
      cases h
      rw [hdigits, Month.number_eq_of_ofNumber? hmonth]
    · cases h
  · intro h
    refine ⟨_, _, h, ?_⟩
    rw [Month.ofNumber?_number]

theorem readDay_eq_ok_iff :
    readDay s = .ok (j, rest) ↔
      readDigits (some 2) (trimLeft s) = .ok (j, rest) ∧ 1 ≤ j ∧ j ≤ 31 := by
  simp only [readDay, bind_eq_ok_iff, Prod.exists]
  constructor
  · rintro ⟨n, rest', hdigits, h⟩
    split_ifs at h with hj
    cases h
    exact ⟨hdigits, hj⟩
  · rintro ⟨hdigits, hj⟩
    exact ⟨_, _, hdigits, if_pos hj⟩

/-- The year at the front of a text, whatever its size. -/
def scanYear (s : List Char) : Except DateFault (ℤ × List Char) :=
  match trimLeft s with
  | '-' :: r => (readDigits none r).map fun p => (-(p.1 : ℤ), p.2)
  | '+' :: r => (readDigits none r).map fun p => ((p.1 : ℤ), p.2)
  | r => (readDigits (some 4) r).map fun p => ((p.1 : ℤ), p.2)

theorem readYear_eq (s : List Char) : readYear s = scanYear s >>= fun p =>
    if -2147483648 ≤ p.1 ∧ p.1 ≤ 2147483647 then .ok p else .error .outOfRange := by
  unfold readYear scanYear
  generalize trimLeft s = t
  split
  · rfl
  · rfl
  · simp only

theorem readYear_eq_ok_iff :
    readYear s = .ok (y, rest) ↔
      scanYear s = .ok (y, rest) ∧ -2147483648 ≤ y ∧ y ≤ 2147483647 := by
  rw [readYear_eq, bind_eq_ok_iff]
  constructor
  · rintro ⟨p, hp, h⟩
    split_ifs at h with hrange
    cases h
    exact ⟨hp, hrange⟩
  · rintro ⟨hp, hrange⟩
    exact ⟨_, hp, if_pos hrange⟩

/-- What is read at a year, and where the reading stops. -/
theorem WritesYear.scanYear_eq (h : WritesYear year y) (hrest : Parted rest) :
    scanYear (year ++ rest) = .ok (y, rest) := by
  cases h with
  | plain hds hlength =>
      have hdigits : readDigits (some 4) (year ++ rest) =
          .ok (Nat.ofDigitChars 10 year 0, rest) := by
        apply readDigits_append hds hrest
        rintro _ ⟨⟩
        exact hlength
      obtain ⟨c, t, hcons, hc⟩ := hds.exists_cons
      have hfront : ∀ sign r, sign.isDigit = false → year ++ rest ≠ sign :: r := by
        rintro sign r hsign hr
        rw [hcons] at hr
        exact ne_of_isDigit hc hsign (List.cons.inj hr).1
      rw [scanYear, hds.trimLeft_append_self]
      split
      · rename_i hr
        exact absurd hr (hfront '-' _ (by decide))
      · rename_i hr
        exact absurd hr (hfront '+' _ (by decide))
      · exact map_eq_ok_iff.2 ⟨_, hdigits, rfl⟩
  | plus hds =>
      rw [List.cons_append, scanYear, trimLeft_cons (by decide)]
      exact map_eq_ok_iff.2 ⟨_, readDigits_append hds hrest (by simp), rfl⟩
  | minus hds =>
      rw [List.cons_append, scanYear, trimLeft_cons (by decide)]
      exact map_eq_ok_iff.2 ⟨_, readDigits_append hds hrest (by simp), rfl⟩

theorem exists_writesYear (hs : trimLeft s = s) (h : scanYear s = .ok (y, rest)) :
    ∃ year, WritesYear year y ∧ s = year ++ rest := by
  rw [scanYear, hs] at h
  split at h
  · obtain ⟨⟨n, rest'⟩, hdigits, hpair⟩ := map_eq_ok_iff.1 h
    obtain ⟨ds, hds, -, rfl, rfl⟩ := exists_of_readDigits (by simp) hdigits
    cases hpair
    exact ⟨_, .minus hds, rfl⟩
  · obtain ⟨⟨n, rest'⟩, hdigits, hpair⟩ := map_eq_ok_iff.1 h
    obtain ⟨ds, hds, -, rfl, rfl⟩ := exists_of_readDigits (by simp) hdigits
    cases hpair
    exact ⟨_, .plus hds, rfl⟩
  · obtain ⟨⟨n, rest'⟩, hdigits, hpair⟩ := map_eq_ok_iff.1 h
    obtain ⟨ds, hds, hlength, rfl, rfl⟩ := exists_of_readDigits (by decide) hdigits
    cases hpair
    exact ⟨_, .plain hds (hlength 4 rfl), rfl⟩

theorem WritesYear.exists_cons (h : WritesYear year y) :
    ∃ c t, year = c :: t ∧ isBlank c = false := by
  cases h with
  | plain hds hlength =>
      obtain ⟨c, t, rfl, hc⟩ := hds.exists_cons
      exact ⟨c, t, rfl, isBlank_of_isDigit hc⟩
  | plus hds => exact ⟨'+', _, rfl, by decide⟩
  | minus hds => exact ⟨'-', _, rfl, by decide⟩

theorem WritesPart.last_not_isBlank (h : WritesPart part n) (front : List Char) :
    ∀ c ∈ (front ++ part).getLast?, isBlank c = false := by
  obtain ⟨-, hds, -⟩ := h
  intro c hc
  rw [← List.append_assoc, List.getLast?_append_of_ne_nil _ hds.ne_nil] at hc
  exact isBlank_of_isDigit (hds.isDigit c (List.mem_of_getLast? hc))

end Parts

theorem parted_hyphen (s : List Char) : Parted ('-' :: s) := parted_cons (by decide)

theorem WritesCivil.bare (h : WritesCivil s y m j) : Bare s := by
  obtain ⟨year, month, day, hyear, -, hday, rfl⟩ := h
  refine ⟨?_, ?_⟩
  · obtain ⟨c, t, rfl, hc⟩ := hyear.exists_cons
    rintro d ⟨⟩
    exact hc
  · have happend : year ++ '-' :: (month ++ '-' :: day) =
        (year ++ '-' :: (month ++ ['-'])) ++ day := by simp
    rw [happend]
    exact hday.last_not_isBlank _

/-- No text of this form has the form with other numbers. -/
theorem WritesCivil.unique {y' : ℤ} {m' j' : ℕ} (h : WritesCivil s y m j)
    (h' : WritesCivil s y' m' j') : y = y' ∧ m = m' ∧ j = j' := by
  obtain ⟨year, month, day, hyear, hmonth, hday, rfl⟩ := h
  obtain ⟨year', month', day', hyear', hmonth', hday', hs⟩ := h'
  -- Reading a number tells what stands behind it, where the next one is read in its turn.
  have hfirst := hyear.scanYear_eq (parted_hyphen (month ++ '-' :: day))
  rw [hs, hyear'.scanYear_eq (parted_hyphen _), Except.ok.injEq, Prod.mk.injEq] at hfirst
  have hsecond := hmonth.readDigits_eq (parted_hyphen day)
  rw [← (List.cons.inj hfirst.2).2, hmonth'.readDigits_eq (parted_hyphen _), Except.ok.injEq,
    Prod.mk.injEq] at hsecond
  have hthird := hday.readDigits_eq parted_nil
  rw [← (List.cons.inj hsecond.2).2, hday'.readDigits_eq parted_nil, Except.ok.injEq,
    Prod.mk.injEq] at hthird
  exact ⟨hfirst.1.symm, hsecond.1.symm, hthird.1.symm⟩

theorem readCivil_eq_ok_iff {c : Civil} (hs : Bare s) :
    readCivil s = .ok c ↔ WritesCivil s c.year c.month.number c.day ∧
      (-2147483648 ≤ c.year ∧ c.year ≤ 2147483647) ∧ 1 ≤ c.day ∧ c.day ≤ 31 := by
  simp only [readCivil, bind_eq_ok_iff, Prod.exists, readYear_eq_ok_iff, readHyphen_eq_ok_iff,
    readMonth_eq_ok_iff, readDay_eq_ok_iff]
  constructor
  · rintro ⟨y, -, ⟨hyear, hy⟩, behindYear, rfl, m, -, hmonth, behindMonth, rfl, j, behindDay,
      ⟨hday, hj⟩, h⟩
    split_ifs at h with hempty
    cases h
    rw [List.isEmpty_iff.1 hempty] at hday
    obtain ⟨year, hyear', rfl⟩ := exists_writesYear (trimLeft_eq_self hs.first) hyear
    obtain ⟨month, hmonth', rfl⟩ := exists_writesPart hmonth
    obtain ⟨day, hday', rfl⟩ := exists_writesPart hday
    rw [List.append_nil]
    exact ⟨⟨year, month, day, hyear', hmonth', hday', rfl⟩, hy, hj⟩
  · rintro ⟨⟨year, month, day, hyear, hmonth, hday, rfl⟩, hy, hj⟩
    have hdigits := hday.readDigits_eq parted_nil
    rw [List.append_nil] at hdigits
    exact ⟨_, _, ⟨hyear.scanYear_eq (parted_hyphen _), hy⟩, _, rfl, _, _,
      hmonth.readDigits_eq (parted_hyphen _), _, rfl, _, _, ⟨hdigits, hj⟩, rfl⟩

variable {text : String} {d : Date}

theorem ofCivil?_eq_some_iff {c : Civil} : ofCivil? c = some d ↔ d.civil = c := by
  constructor
  · exact civil_of_ofCivil?
  · rintro rfl
    exact d.ofCivil?_civil

theorem writes_iff : Writes text y m j ↔ WritesCivil (trim text.toList) y m j := by
  constructor
  · rintro ⟨s, hs, hpadded⟩
    rwa [trim_eq_iff.2 ⟨hpadded, hs.bare⟩]
  · exact fun h => ⟨_, h, padded_trim _⟩

theorem read_eq_ok_iff_readCivil :
    read text = .ok d ↔ readCivil (trim text.toList) = .ok d.civil := by
  unfold read
  cases readCivil (trim text.toList) with
  | error fault => simp
  | ok c =>
      dsimp only
      rw [Except.ok.injEq, eq_comm (a := c), ← ofCivil?_eq_some_iff]
      cases ofCivil? c <;> simp

/-- A text is read as a date when it writes the three numbers of this date. -/
theorem read_eq_ok_iff : read text = .ok d ↔ Writes text d.year d.month.number d.day := by
  have hfirst := d.firstYear_le
  have hlast := d.year_le_lastYear
  have hday := And.intro d.one_le_day d.day_le
  rw [read_eq_ok_iff_readCivil, readCivil_eq_ok_iff (bare_trim _), writes_iff]
  rw [year_eq, month_eq, day_eq] at *
  exact and_iff_left ⟨by omega, hday⟩

/-- Blanks around a text do not change which date it is read as. -/
theorem read_eq_ok_congr {text' : String} (h : trim text.toList = trim text'.toList) :
    read text = .ok d ↔ read text' = .ok d := by
  rw [read_eq_ok_iff_readCivil, read_eq_ok_iff_readCivil, h]

theorem read_eq_ok_iff_of_writes (h : Writes text y m j) :
    read text = .ok d ↔ d.year = y ∧ d.month.number = m ∧ d.day = j := by
  rw [read_eq_ok_iff]
  constructor
  · intro hd
    rw [writes_iff] at h hd
    exact hd.unique h
  · rintro ⟨rfl, rfl, rfl⟩
    exact h

/-- A text of the right form is read when its year is one of the axis and has such a day. -/
theorem exists_read_eq_ok_iff (h : Writes text y m j) :
    (∃ d, read text = .ok d) ↔ (-262143 ≤ y ∧ y ≤ 262142) ∧
      ∃ month : Month, month.number = m ∧ 1 ≤ j ∧ j ≤ month.length (isLeapYear y) := by
  simp only [read_eq_ok_iff_of_writes h]
  constructor
  · rintro ⟨d, rfl, rfl, rfl⟩
    have hday := d.day_le_lastDayOfMonth
    rw [d.lastDayOfMonth_eq] at hday
    exact ⟨⟨d.firstYear_le, d.year_le_lastYear⟩, d.month, rfl, d.one_le_day, hday⟩
  · rintro ⟨⟨hfirst, hlast⟩, month, rfl, hday⟩
    obtain ⟨d, hd⟩ := exists_civil_eq (c := ⟨y, month, j⟩) hday hfirst hlast
    refine ⟨d, ?_⟩
    rw [year_eq, month_eq, day_eq, hd]
    exact ⟨rfl, rfl, rfl⟩

theorem exists_of_read_eq_error {e : Error} (h : read text = .error e) :
    ∃ fault, e = .unreadableDate text fault := by
  unfold read at h
  split at h
  · cases h
    exact ⟨_, rfl⟩
  · split at h
    · cases h
    · cases h
      exact ⟨_, rfl⟩

end Date

end Recurrence
