import Mathlib.Data.List.TakeWhile
import ProofFrame.Contract.Bounds
import ProofFrame.Lib.Ascii
import ProofFrame.Lib.Calendar
import ProofFrame.Lib.Digits
import ProofFrame.Lib.Steps

/-!
# Date bounds

A date bound is a count, or a calendar date of ten bytes.  The reader of dates
behind the length guard takes more than `YYYY-MM-DD`: white space before a number, a
sign before the year, a month or a day of one digit.
-/

namespace ProofFrame

open Lib Lib.Run

/-! ## The reader of dates -/

/-- At least one digit, at most `width` of them. -/
def takeNumber (width : ℕ) (chars : List Char) : Option (ℕ × List Char) :=
  let digits := (chars.takeWhile Char.isDigit).take width
  if digits = [] then none else some (Nat.ofDigitChars 10 digits 0, chars.drop digits.length)

/-- A year has four digits at most, unless it has a sign. -/
def takeYear (chars : List Char) : Option (ℤ × List Char) :=
  match chars with
  | '-' :: rest => (takeNumber rest.length rest).map fun (year, rest) => (-(year : ℤ), rest)
  | '+' :: rest => (takeNumber rest.length rest).map fun (year, rest) => ((year : ℤ), rest)
  | chars => (takeNumber 4 chars).map fun (year, rest) => ((year : ℤ), rest)

def takeHyphen (chars : List Char) : Option (List Char) :=
  match chars with
  | '-' :: rest => some rest
  | _ => none

/-- What `NaiveDate::parse_from_str` is assumed to read with `%Y-%m-%d`. -/
def spelledDate (chars : List Char) : Option Date := do
  let (year, rest) ← takeYear (chars.dropWhile isWhiteSpace)
  let rest ← takeHyphen rest
  let (month, rest) ← takeNumber 2 (rest.dropWhile isWhiteSpace)
  let rest ← takeHyphen rest
  let (day, rest) ← takeNumber 2 (rest.dropWhile isWhiteSpace)
  if rest = [] ∧ -262143 ≤ year ∧ year ≤ 262142 then Date.ofParts year month day else none

/-! ## One spelling -/

/-- The text is the complete calendar form of the date. -/
inductive IsoDate (date : Date) : List Char → Prop
  | intro {year month day : List Char} (digits : (year ++ month ++ day).all Char.isDigit = true)
      (year_length : year.length = 4) (month_length : month.length = 2)
      (day_length : day.length = 2) (year_eq : date.year = Nat.ofDigitChars 10 year 0)
      (month_eq : date.month = Nat.ofDigitChars 10 month 0)
      (day_eq : date.day = Nat.ofDigitChars 10 day 0) :
      IsoDate date (year ++ '-' :: (month ++ '-' :: day))

/-- Date bounds of both widths are read from counts and complete calendar dates, without
overflow. -/
def ReadsOneSpelling [Crates] (bound : BoundAst) (path : String) : Prop :=
  let text := bound.asText
  (∀ typed, parseBound bound .date32 path = .ok typed ↔
    ∃ value, typed = .i64 value ∧ InSigned 32 value ∧ (parseSigned 32 text = some value ∨
      ∃ date : Date, IsoDate date text.toList ∧ value = date.dayNumber)) ∧
  ∀ typed, parseBound bound .date64 path = .ok typed ↔
    ∃ value, typed = .i64 value ∧ InSigned 64 value ∧ (parseSigned 64 text = some value ∨
      ∃ date : Date, IsoDate date text.toList ∧ value = date.dayNumber * millisecondsPerDay)

/-- A text of ten bytes spells a date completely, if it spells one. -/
def SpelledCompletely (text : String) : Prop :=
  text.utf8ByteSize = 10 → ∀ date, spelledDate text.toList = some date → IsoDate date text.toList

/-! ## Reading -/

variable {chars rest : List Char} {width : ℕ}

theorem takeNumber_eq_some {number : ℕ} (h : takeNumber width chars = some (number, rest)) :
    ∃ digits ≠ [], digits.all Char.isDigit = true ∧ chars = digits ++ rest := by
  unfold takeNumber at h
  dsimp only at h
  split at h
  · cases h
  rename_i hne
  cases h
  refine ⟨_, hne, ?_, ?_⟩
  · apply List.all_eq_true.mpr
    intro c hc
    exact List.mem_takeWhile_imp (List.mem_of_mem_take hc)
  · have hprefix : (chars.takeWhile Char.isDigit).take width <+: chars :=
      (List.take_prefix _ _).trans (List.takeWhile_prefix _)
    exact List.prefix_iff_eq_append.mp hprefix |>.symm

theorem takeNumber_append {digits : List Char} (hne : digits ≠ [])
    (hdigits : digits.all Char.isDigit = true) (hwidth : digits.length = width)
    (hrest : rest.takeWhile Char.isDigit = []) :
    takeNumber width (digits ++ rest) = some (Nat.ofDigitChars 10 digits 0, rest) := by
  unfold takeNumber
  rw [List.takeWhile_append_of_pos (List.all_eq_true.mp hdigits), hrest, List.append_nil,
    List.take_of_length_le hwidth.le, if_neg hne, List.drop_left]

theorem isWhiteSpace_of_isDigit {c : Char} (h : c.isDigit = true) : isWhiteSpace c = false := by
  have hrange := isDigit_iff.mp h
  simp only [isWhiteSpace, List.contains_eq_mem, List.mem_cons, List.not_mem_nil]
  simp
  omega

/-- No white space stands in front of a number. -/
theorem dropWhile_digits {digits : List Char} (hne : digits ≠ [])
    (hdigits : digits.all Char.isDigit = true) :
    (digits ++ rest).dropWhile isWhiteSpace = digits ++ rest := by
  obtain ⟨c, digits, rfl⟩ := List.exists_cons_of_ne_nil hne
  have hspace := isWhiteSpace_of_isDigit (List.all_eq_true.mp hdigits c List.mem_cons_self)
  rw [List.cons_append, List.dropWhile_cons_of_neg (by rw [hspace]; decide)]

theorem takeYear_append {digits : List Char} (hdigits : digits.all Char.isDigit = true)
    (hlength : digits.length = 4) (hrest : rest.takeWhile Char.isDigit = []) :
    takeYear (digits ++ rest) = some ((Nat.ofDigitChars 10 digits 0 : ℤ), rest) := by
  have hne : digits ≠ [] := List.ne_nil_of_length_eq_add_one hlength
  have htake := takeNumber_append hne hdigits hlength hrest
  obtain ⟨c, digits, rfl⟩ := List.exists_cons_of_ne_nil hne
  have hc : c.isDigit = true := List.all_eq_true.mp hdigits c List.mem_cons_self
  unfold takeYear
  split
  · rename_i heq
    rw [List.cons_append] at heq
    rw [(List.cons.inj heq).1] at hc
    exact absurd hc (by decide)
  · rename_i heq
    rw [List.cons_append] at heq
    rw [(List.cons.inj heq).1] at hc
    exact absurd hc (by decide)
  · rw [htake]
    rfl

/-- A complete calendar date is read. -/
theorem IsoDate.spelledDate_eq {date : Date} (h : IsoDate date chars) :
    spelledDate chars = some date := by
  obtain ⟨digits, hyearLength, hmonthLength, hdayLength, hyear, hmonth, hday⟩ := h
  rename_i year month day
  simp only [List.all_append, Bool.and_eq_true] at digits
  obtain ⟨⟨hyearDigits, hmonthDigits⟩, hdayDigits⟩ := digits
  have hyearNe : year ≠ [] := List.ne_nil_of_length_eq_add_one hyearLength
  have hmonthNe : month ≠ [] := List.ne_nil_of_length_eq_add_one hmonthLength
  have hdayNe : day ≠ [] := List.ne_nil_of_length_eq_add_one hdayLength
  have hyearTake := @takeYear_append ('-' :: (month ++ '-' :: day)) year hyearDigits hyearLength rfl
  have hmonthTake := @takeNumber_append ('-' :: day) 2 month hmonthNe hmonthDigits hmonthLength rfl
  have hdayTake := @takeNumber_append [] 2 day hdayNe hdayDigits hdayLength rfl
  have hdaySpace := @dropWhile_digits [] day hdayNe hdayDigits
  rw [List.append_nil] at hdayTake hdaySpace
  have hbound := ofDigitChars_lt hyearDigits
  rw [hyearLength] at hbound
  have hparts := Date.ofParts_eq_some.mpr ⟨hyear, hmonth, hday⟩
  simp only [spelledDate, dropWhile_digits hyearNe hyearDigits, hyearTake, takeHyphen,
    dropWhile_digits hmonthNe hmonthDigits, hmonthTake, hdaySpace, hdayTake, hparts,
    Option.bind_eq_bind, Option.bind_some, true_and]
  rw [if_pos (by omega)]

theorem takeYear_eq_some {year : ℤ} (h : takeYear chars = some (year, rest)) :
    ∃ sign ∈ [[], ['+'], ['-']], ∃ digits ≠ [], digits.all Char.isDigit = true ∧
      chars = sign ++ digits ++ rest := by
  unfold takeYear at h
  split at h
  · obtain ⟨⟨number, _⟩, htake, hnumber⟩ := Option.map_eq_some_iff.mp h
    cases hnumber
    obtain ⟨digits, hne, hdigits, rfl⟩ := takeNumber_eq_some htake
    exact ⟨['-'], by simp, digits, hne, hdigits, rfl⟩
  · obtain ⟨⟨number, _⟩, htake, hnumber⟩ := Option.map_eq_some_iff.mp h
    cases hnumber
    obtain ⟨digits, hne, hdigits, rfl⟩ := takeNumber_eq_some htake
    exact ⟨['+'], by simp, digits, hne, hdigits, rfl⟩
  · obtain ⟨⟨number, _⟩, htake, hnumber⟩ := Option.map_eq_some_iff.mp h
    cases hnumber
    obtain ⟨digits, hne, hdigits, rfl⟩ := takeNumber_eq_some htake
    exact ⟨[], by simp, digits, hne, hdigits, rfl⟩

theorem spelledDate_hyphen {date : Date} (h : spelledDate chars = some date) :
    ∃ front ≠ [], ∃ rest, chars = front ++ '-' :: rest := by
  unfold spelledDate at h
  obtain ⟨⟨year, rest⟩, hyear, h⟩ := Option.bind_eq_some_iff.mp h
  obtain ⟨after, hhyphen, -⟩ := Option.bind_eq_some_iff.mp h
  obtain ⟨sign, -, digits, hne, -, hspelled⟩ := takeYear_eq_some hyear
  have hrest : rest = '-' :: after := by
    unfold takeHyphen at hhyphen
    split at hhyphen
    · rw [Option.some.inj hhyphen]
    · cases hhyphen
  refine ⟨chars.takeWhile isWhiteSpace ++ (sign ++ digits), ?_, after, ?_⟩
  · simp [hne]
  · rw [List.append_assoc, ← hrest, ← hspelled, List.takeWhile_append_dropWhile]

theorem parseDigits_eq_none (h : '-' ∈ chars) : parseDigits chars = none := by
  apply if_neg
  rintro ⟨-, hdigits⟩
  exact absurd (List.all_eq_true.mp hdigits _ h) (by decide)

/-- A date is no integer: a hyphen follows its year. -/
theorem parseSigned_of_spelledDate {text : String} {date : Date}
    (h : spelledDate text.toList = some date) (bits : ℕ) : parseSigned bits text = none := by
  obtain ⟨front, hne, rest, htext⟩ := spelledDate_hyphen h
  obtain ⟨c, front, rfl⟩ := List.exists_cons_of_ne_nil hne
  unfold parseSigned parseInteger
  rw [htext, List.cons_append]
  have htail : '-' ∈ front ++ '-' :: rest := by simp
  split <;> rename_i heq
  · rw [← (List.cons.inj heq).2, parseDigits_eq_none htail]
    rfl
  · rw [← (List.cons.inj heq).2, parseDigits_eq_none htail]
    rfl
  · rw [parseDigits_eq_none (List.mem_cons_of_mem _ htail)]
    rfl

/-! ## The guard -/

theorem IsoDate.digit_or_hyphen {date : Date} (h : IsoDate date chars) {c : Char} (hc : c ∈ chars) :
    c = '-' ∨ c.isDigit = true := by
  obtain ⟨digits, -, -, -, -, -, -⟩ := h
  rename_i year month day
  by_cases hhyphen : c = '-'
  · exact .inl hhyphen
  · refine .inr (List.all_eq_true.mp digits c ?_)
    simpa [hhyphen] using hc

theorem IsoDate.length_eq {date : Date} (h : IsoDate date chars) : chars.length = 10 := by
  obtain ⟨-, hyearLength, hmonthLength, hdayLength, -, -, -⟩ := h
  simp [hyearLength, hmonthLength, hdayLength]

theorem IsoDate.utf8ByteSize_eq {date : Date} {text : String} (h : IsoDate date text.toList) :
    text.utf8ByteSize = 10 := by
  have hascii : IsAscii text.toList := by
    intro c hc
    rcases h.digit_or_hyphen hc with rfl | hdigit
    · decide
    · have := isDigit_iff.mp hdigit
      omega
  rw [utf8ByteSize_of_ascii hascii, h.length_eq]

/-- Days of years of four digits, and the milliseconds of them, fit. -/
theorem IsoDate.fits {date : Date} (h : IsoDate date chars) :
    InSigned 32 date.dayNumber ∧ InSigned 64 (date.dayNumber * millisecondsPerDay) := by
  obtain ⟨digits, hyearLength, -, -, hyear, -, -⟩ := h
  rename_i year month day
  simp only [List.all_append, Bool.and_eq_true] at digits
  have hbound := ofDigitChars_lt digits.1.1
  rw [hyearLength] at hbound
  have hday := date.day_of_year_lt
  have hpos := date.one_le_day
  have hlow : -719528 ≤ date.dayNumber := by
    unfold Date.dayNumber daysBeforeYear
    omega
  have hhigh : date.dayNumber < 3000000 := by
    unfold Date.dayNumber daysBeforeYear
    omega
  refine ⟨⟨by omega, by omega⟩, ?_⟩
  unfold millisecondsPerDay
  exact ⟨by omega, by omega⟩

/-! ## Reading bounds -/

variable [Crates]

/-- What is behind the length guard, given how dates are read. -/
theorem isoDays_eq_some {text : String}
    (hread : Crates.parseDate text = (spelledDate text.toList).map Date.dayNumber) {days : ℤ} :
    isoDays text = some days ↔ text.utf8ByteSize = 10 ∧
      ∃ date, spelledDate text.toList = some date ∧ date.dayNumber = days := by
  unfold isoDays
  by_cases hsize : text.utf8ByteSize = 10
  · rw [if_neg (not_not.mpr hsize), hread, Option.map_eq_some_iff]
    simp [hsize]
  · rw [if_pos hsize]
    simp [hsize]

omit [Crates] in
theorem inSigned_of_parseSigned {bits : ℕ} {text : String} {value : ℤ}
    (h : parseSigned bits text = some value) : InSigned bits value := by
  unfold parseSigned parseInteger at h
  exact of_decide_eq_true (Option.filter_eq_some_iff.mp h).2

omit [Crates] in
theorem or_eq_some {count : Option ℤ} {calendar : Option ℤ} {value : ℤ} {P : Prop}
    (hcalendar : calendar = some value ↔ P) (hcount : P → count = none) :
    count.or calendar = some value ↔ count = some value ∨ P := by
  cases count with
  | none => simp [hcalendar]
  | some found =>
      have hnot : ¬P := fun h => by cases hcount h
      simp [hnot]

/-- **Date bounds have one spelling where no other has ten bytes.**  A bound of either width is a
count or a complete calendar date, if and only if the text is no other ten-byte spelling of a
date that the reader of dates takes. -/
theorem readsOneSpelling_iff (bound : BoundAst) (path : String)
    (hread : Crates.parseDate bound.asText =
      (spelledDate bound.asText.toList).map Date.dayNumber) :
    ReadsOneSpelling bound path ↔ SpelledCompletely bound.asText := by
  have hdays : ∀ days, isoDays bound.asText = some days ↔ bound.asText.utf8ByteSize = 10 ∧
      ∃ date, spelledDate bound.asText.toList = some date ∧ date.dayNumber = days :=
    fun days => isoDays_eq_some hread
  unfold ReadsOneSpelling SpelledCompletely
  simp only [parseBound, map_eq_ok, required_eq_ok]
  generalize bound.asText = text at *
  constructor
  -- a text of ten bytes that is read as a date is no count, so it is a complete date
  · rintro ⟨hdate32, -⟩ hsize date hdate
    have hcount := parseSigned_of_spelledDate hdate 32
    have haccepted := (hdate32 (.i64 date.dayNumber)).mp ⟨_, by
      rw [hcount, Option.none_or]
      exact (hdays _).mpr ⟨hsize, date, hdate, rfl⟩, rfl⟩
    obtain ⟨value, -, -, hvalue | ⟨iso, hiso, -⟩⟩ := haccepted
    · rw [hcount] at hvalue
      cases hvalue
    · have hsame := hiso.spelledDate_eq
      rw [hdate] at hsame
      rw [Option.some.inj hsame]
      exact hiso
  · intro hcomplete
    have hiso : ∀ days, isoDays text = some days ↔
        ∃ date : Date, IsoDate date text.toList ∧ days = date.dayNumber := by
      intro days
      rw [hdays]
      constructor
      · rintro ⟨hsize, date, hdate, rfl⟩
        exact ⟨date, hcomplete hsize date hdate, rfl⟩
      · rintro ⟨date, hdate, rfl⟩
        exact ⟨hdate.utf8ByteSize_eq, date, hdate.spelledDate_eq, rfl⟩
    have hmilliseconds : ∀ value, (isoDays text).map (· * millisecondsPerDay) = some value ↔
        ∃ date : Date, IsoDate date text.toList ∧ value = date.dayNumber * millisecondsPerDay := by
      intro value
      rw [Option.map_eq_some_iff]
      constructor
      · rintro ⟨days, hvalue, rfl⟩
        obtain ⟨date, hdate, rfl⟩ := (hiso days).mp hvalue
        exact ⟨date, hdate, rfl⟩
      · rintro ⟨date, hdate, rfl⟩
        exact ⟨_, (hiso _).mpr ⟨date, hdate, rfl⟩, rfl⟩
    -- days, and then milliseconds
    refine ⟨fun typed => ?_, fun typed => ?_⟩
    · constructor
      · rintro ⟨value, hvalue, rfl⟩
        rw [or_eq_some (hiso value) fun h =>
          parseSigned_of_spelledDate h.choose_spec.1.spelledDate_eq 32]
          at hvalue
        refine ⟨value, rfl, ?_, hvalue⟩
        rcases hvalue with hcount | ⟨date, hdate, rfl⟩
        · exact inSigned_of_parseSigned hcount
        · exact hdate.fits.1
      · rintro ⟨value, rfl, -, hvalue⟩
        refine ⟨value, ?_, rfl⟩
        rwa [or_eq_some (hiso value) fun h =>
          parseSigned_of_spelledDate h.choose_spec.1.spelledDate_eq 32]
    · constructor
      · rintro ⟨value, hvalue, rfl⟩
        rw [or_eq_some (hmilliseconds value) fun h =>
          parseSigned_of_spelledDate h.choose_spec.1.spelledDate_eq 64] at hvalue
        refine ⟨value, rfl, ?_, hvalue⟩
        rcases hvalue with hcount | ⟨date, hdate, rfl⟩
        · exact inSigned_of_parseSigned hcount
        · exact hdate.fits.2
      · rintro ⟨value, rfl, -, hvalue⟩
        refine ⟨value, ?_, rfl⟩
        rwa [or_eq_some (hmilliseconds value) fun h =>
          parseSigned_of_spelledDate h.choose_spec.1.spelledDate_eq 64]

/-- Crates with the reader of dates that is assumed. -/
@[reducible] def Crates.lenientDates : Crates where
  __ := Crates.zeroDigests
  parseDate text := (spelledDate text.toList).map Date.dayNumber

omit [Crates] in
/-- Leading white space makes up for the zero a month lacks. -/
theorem not_readsOneSpelling_padded : let _ : Crates := Crates.lenientDates
    ¬ReadsOneSpelling (.text " 2024-1-01") "$" := by
  intro _ hreads
  have haccepted : parseBound (.text " 2024-1-01") .date32 "$" = .ok (.i64 19723) := by
    decide +kernel
  obtain ⟨value, -, -, hvalue | ⟨date, hdate, -⟩⟩ := (hreads.1 _).mp haccepted
  · have hnone : parseSigned 32 " 2024-1-01" = none := by decide +kernel
    rw [BoundAst.asText, hnone] at hvalue
    cases hvalue
  · have hspace := hdate.digit_or_hyphen (show ' ' ∈ " 2024-1-01".toList by decide)
    exact absurd hspace (by decide)

omit [Crates] in
theorem readsOneSpelling_iff_complete : let _ : Crates := Crates.lenientDates
    SpelledCompletely "2024-02-29" ∧ ReadsOneSpelling (.text "2024-02-29") "$" := by
  intro _
  have hread : spelledDate "2024-02-29".toList = Date.ofParts 2024 2 29 := by decide +kernel
  have htext : "2024-02-29".toList =
      ['2', '0', '2', '4'] ++ '-' :: (['0', '2'] ++ '-' :: ['2', '9']) := by decide +kernel
  have hcomplete : SpelledCompletely "2024-02-29" := by
    intro _ date hdate
    rw [hread, Date.ofParts_eq_some] at hdate
    obtain ⟨hyear, hmonth, hday⟩ := hdate
    rw [htext]
    exact ⟨by decide, rfl, rfl, rfl, hyear, hmonth, hday⟩
  exact ⟨hcomplete, (readsOneSpelling_iff (.text "2024-02-29") "$" rfl).mpr hcomplete⟩

end ProofFrame
