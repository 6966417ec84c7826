import Mathlib.Algebra.BigOperators.Intervals
import Mathlib.Algebra.Order.BigOperators.Group.Finset
import Mathlib.Tactic.Ring

/-!
# The Gregorian calendar

Dates of the calendar extended to all years, and the days between them and the
first of January 1970.
-/

namespace ProofFrame.Lib

def IsLeap (year : ℤ) : Prop := 4 ∣ year ∧ (¬100 ∣ year ∨ 400 ∣ year)

instance (year : ℤ) : Decidable (IsLeap year) := inferInstanceAs (Decidable (_ ∧ _))

def daysInMonth (year : ℤ) (month : ℕ) : ℕ :=
  if month = 2 then (if IsLeap year then 29 else 28)
  else if month ∈ [4, 6, 9, 11] then 30 else 31

structure Date where
  year : ℤ
  month : ℕ
  day : ℕ
  one_le_month : 1 ≤ month
  month_le : month ≤ 12
  one_le_day : 1 ≤ day
  day_le : day ≤ daysInMonth year month
  deriving DecidableEq

/-- The date of these parts, if there is one. -/
def Date.ofParts (year : ℤ) (month day : ℕ) : Option Date :=
  if h : 1 ≤ month ∧ month ≤ 12 ∧ 1 ≤ day ∧ day ≤ daysInMonth year month then
    some ⟨year, month, day, h.1, h.2.1, h.2.2.1, h.2.2.2⟩
  else none

/-- The days of the years from year 0 up to the year. -/
def daysBeforeYear (year : ℤ) : ℤ :=
  365 * year + ((year + 3) / 4 - (year + 99) / 100 + (year + 399) / 400)

/-- The days of the year before the month. -/
def daysBeforeMonth (year : ℤ) (month : ℕ) : ℕ := ∑ m ∈ Finset.Ico 1 month, daysInMonth year m

/-- The days from the first of January 1970 to the date. -/
def Date.dayNumber (date : Date) : ℤ :=
  daysBeforeYear date.year + daysBeforeMonth date.year date.month + (date.day - 1) - 719528

/-- The second date is the day after the first. -/
inductive Date.Next (first second : Date) : Prop
  | day (year : second.year = first.year) (month : second.month = first.month)
      (day : second.day = first.day + 1)
  | month (year : second.year = first.year) (month : second.month = first.month + 1)
      (last : first.day = daysInMonth first.year first.month) (day : second.day = 1)
  | year (year : second.year = first.year + 1) (december : first.month = 12)
      (last : first.day = 31) (january : second.month = 1) (day : second.day = 1)

/-! ## Parts of a date -/

theorem Date.ofParts_eq_some {year : ℤ} {month day : ℕ} {date : Date} :
    Date.ofParts year month day = some date ↔
      date.year = year ∧ date.month = month ∧ date.day = day := by
  unfold Date.ofParts
  constructor
  · intro h
    split at h
    · obtain rfl := Option.some.inj h
      exact ⟨rfl, rfl, rfl⟩
    · cases h
  · rintro ⟨rfl, rfl, rfl⟩
    rw [dif_pos ⟨date.one_le_month, date.month_le, date.one_le_day, date.day_le⟩]

/-! ## Days -/

theorem daysBeforeYear_succ (year : ℤ) :
    daysBeforeYear (year + 1) = daysBeforeYear year + if IsLeap year then 366 else 365 := by
  unfold daysBeforeYear
  by_cases h : IsLeap year
  · rw [if_pos h]
    unfold IsLeap at h
    omega
  · rw [if_neg h]
    unfold IsLeap at h
    omega

theorem daysBeforeMonth_succ (year : ℤ) {month : ℕ} (h : 1 ≤ month) :
    daysBeforeMonth year (month + 1) = daysBeforeMonth year month + daysInMonth year month :=
  Finset.sum_Ico_succ_top h _

/-- The months make up the year. -/
theorem daysBeforeMonth_thirteen (year : ℤ) :
    daysBeforeMonth year 13 = if IsLeap year then 366 else 365 := by
  by_cases h : IsLeap year <;> simp [daysBeforeMonth, Finset.sum_Ico_succ_top, daysInMonth, h]

theorem daysBeforeMonth_mono (year : ℤ) : Monotone (daysBeforeMonth year) :=
  fun _ _ h => Finset.sum_le_sum_of_subset (Finset.Ico_subset_Ico_right h)

/-- A date is in its year. -/
theorem Date.day_of_year_lt (date : Date) :
    daysBeforeMonth date.year date.month + (date.day - 1) < 366 := by
  have hyear := daysBeforeMonth_mono date.year (show date.month + 1 ≤ 13 from by
    have := date.month_le
    omega)
  rw [daysBeforeMonth_succ _ date.one_le_month, daysBeforeMonth_thirteen] at hyear
  have hday := date.day_le
  have hpos := date.one_le_day
  split at hyear <;> omega

/-- The days are numbered one after the other. -/
theorem Date.Next.dayNumber_eq {first second : Date} (h : Date.Next first second) :
    second.dayNumber = first.dayNumber + 1 := by
  unfold Date.dayNumber
  cases h with
  | day year month day =>
      rw [year, month, day]
      push_cast
      ring
  | month year month last day =>
      rw [year, month, day, daysBeforeMonth_succ _ first.one_le_month, last]
      push_cast
      ring
  | year year december last january day =>
      have hwhole := @daysBeforeMonth_succ first.year 12 (by decide)
      rw [daysBeforeMonth_thirteen] at hwhole
      rw [year, january, day, daysBeforeYear_succ, december, last]
      have hdecember : daysInMonth first.year 12 = 31 := rfl
      have hempty : daysBeforeMonth (first.year + 1) 1 = 0 := rfl
      rw [hdecember] at hwhole
      rw [hempty]
      split at hwhole <;> rename_i hleap
      · rw [if_pos hleap]
        push_cast
        omega
      · rw [if_neg hleap]
        push_cast
        omega

example : (Date.ofParts 1970 1 1).map Date.dayNumber = some 0 := by decide

end ProofFrame.Lib
