import ProofFrame.Execution.Total
import ProofFrame.Lib.Ieee754.Summation

/-!
# Accumulators

What the accumulators are for, in rational numbers: a sum of doubles with what
rounding has taken from it, and a rounded running mean.  The accumulators follow
them as long as they stay among the doubles, and reach NaN with the first value
that takes them out.
-/

namespace ProofFrame

open Lib Lib.Run Lib.Ieee754

/-! ## Sums and means of rationals -/

/-- A sum of doubles, rounded after each of them, and what rounding has taken from it. -/
structure CompensatedSum where
  sum : ℚ
  lost : Rounded
  deriving DecidableEq

namespace CompensatedSum

/-- Add a finite value, unless the sum leaves the doubles. -/
def add (total : CompensatedSum) (value : F64) : Option CompensatedSum :=
  if value.isFinite ∧ |total.sum + value.toRat| < overflow then
    let next := nearestFloat (total.sum + value.toRat)
    some { sum := next, lost := total.lost.add (total.sum + value.toRat - next) }
  else none

theorem add_eq_some {total : CompensatedSum} {value : F64} (hvalue : value.isFinite = true)
    (hsum : |total.sum + value.toRat| < overflow) : total.add value =
      some { sum := nearestFloat (total.sum + value.toRat)
             lost := total.lost.add
               (total.sum + value.toRat - nearestFloat (total.sum + value.toRat)) } :=
  if_pos ⟨hvalue, hsum⟩

/-- The sum of the values in their order, where it stays among the doubles. -/
def of (values : List F64) : Option CompensatedSum := values.foldlM add ⟨0, .finite 0⟩

/-- The sum together with what it has lost. -/
def total (sum : CompensatedSum) : Rounded := sum.lost.add sum.sum

theorem of_append_singleton (values : List F64) (value : F64) :
    of (values ++ [value]) = (of values).bind (add · value) := by
  rw [of, List.foldlM_append]
  show (of values).bind _ = _
  congr 1
  funext total
  exact bind_pure _

end CompensatedSum

/-- A mean of doubles, rounded after each of them. -/
structure RunningMean where
  count : ℕ
  mean : ℚ
  deriving DecidableEq

namespace RunningMean

/-- Move the mean towards a finite value, unless their distance leaves the doubles. -/
def add (running : RunningMean) (value : F64) : Option RunningMean :=
  if value.isFinite ∧ |value.toRat - running.mean| < overflow then
    let share :=
      nearestFloat (value.toRat - running.mean) / nearestFloat ((running.count + 1 : ℕ) : ℤ)
    some { count := running.count + 1, mean := nearestFloat (running.mean + nearestFloat share) }
  else none

/-- The mean of the values in their order, where their distances stay among the doubles. -/
def of (values : List F64) : Option RunningMean := values.foldlM add ⟨0, 0⟩

theorem of_append_singleton (values : List F64) (value : F64) :
    of (values ++ [value]) = (of values).bind (add · value) := by
  rw [of, List.foldlM_append]
  show (of values).bind _ = _
  congr 1
  funext running
  exact bind_pure _

end RunningMean

/-! ## Compensated sums -/

namespace Neumaier

/-- The values in turn. -/
def addFloats (total : Neumaier) (values : List F64) : Neumaier := values.foldl add total

/-- The plain sum of the values, in order. -/
def floatSum (values : List F64) : F64 := values.foldl Ieee.add (.zero false)

theorem sum_addFloats (values : List F64) : (addFloats new values).sum = floatSum values := by
  induction values using List.reverseRecOn with
  | nil => rfl
  | append_singleton values value ih =>
      rw [addFloats, floatSum, List.foldl_append, List.foldl_append, ← floatSum, ← ih]
      rfl

variable {total : Neumaier} {value : F64}

/-- What an addition loses is a finite word, where the sum stays finite. -/
theorem isFinite_compensated (hsum : (total.sum.add value).isFinite = true) :
    (if total.sum.abs.ge value.abs then (total.sum.sub (total.sum.add value)).add value
      else (value.sub (total.sum.add value)).add total.sum).isFinite = true := by
  have hleft := Ieee.isFinite_left_of_add hsum
  have hright := Ieee.isFinite_right_of_add hsum
  have hge : total.sum.abs.ge value.abs = true ↔ |value.toRat| ≤ |total.sum.toRat| := by
    rw [← Ieee.toRat_abs, ← Ieee.toRat_abs]
    exact Ieee.ge_iff_of_finite hleft hright
  split
  · exact Ieee.isFinite_lost hleft hright hsum (hge.mp ‹_›)
  · rename_i hless
    rw [hge, not_le] at hless
    rw [Ieee.add_symm total.sum] at hsum ⊢
    exact Ieee.isFinite_lost hright hleft hsum hless.le

/-- It is what rounding has taken from the sum. -/
theorem toRat_compensated (hsum : (total.sum.add value).isFinite = true) :
    (if total.sum.abs.ge value.abs then (total.sum.sub (total.sum.add value)).add value
      else (value.sub (total.sum.add value)).add total.sum).toRat =
        total.sum.toRat + value.toRat - (total.sum.add value).toRat := by
  have hleft := Ieee.isFinite_left_of_add hsum
  have hright := Ieee.isFinite_right_of_add hsum
  have hge : total.sum.abs.ge value.abs = true ↔ |value.toRat| ≤ |total.sum.toRat| := by
    rw [← Ieee.toRat_abs, ← Ieee.toRat_abs]
    exact Ieee.ge_iff_of_finite hleft hright
  split
  · exact Ieee.toRat_lost hsum (hge.mp ‹_›)
  · rename_i hless
    rw [hge, not_le] at hless
    rw [Ieee.add_symm total.sum] at hsum ⊢
    rw [Ieee.toRat_lost hsum hless.le, add_comm total.sum.toRat]

/-- The accumulator holds the sum and what it has lost. -/
structure Follows (total : Neumaier) (exact : CompensatedSum) : Prop where
  sum : Represents total.sum exact.sum
  compensation : exact.lost.IsWord total.compensation

theorem follows_new : Neumaier.new.Follows ⟨0, .finite 0⟩ :=
  ⟨represents_zero _, represents_zero _⟩

theorem Follows.isFinite_add_iff {exact : CompensatedSum} (h : total.Follows exact) :
    (total.sum.add value).isFinite = true ↔
      value.isFinite = true ∧ |exact.sum + value.toRat| < overflow := by
  constructor
  · intro hsum
    have hvalue := Ieee.isFinite_right_of_add hsum
    rw [Ieee.add_of_finite h.sum.finite hvalue, h.sum.toRat_eq, isFinite_ofRat_iff] at hsum
    exact ⟨hvalue, hsum⟩
  · rintro ⟨hvalue, hsum⟩
    rw [Ieee.add_of_finite h.sum.finite hvalue, h.sum.toRat_eq]
    exact isFinite_ofRat_iff.mpr hsum

theorem Follows.add {exact next : CompensatedSum} (h : total.Follows exact)
    (hnext : exact.add value = some next) : (total.add value).Follows next := by
  unfold CompensatedSum.add at hnext
  split at hnext
  case isFalse => cases hnext
  rename_i hadds
  cases hnext
  have hfinite := h.isFinite_add_iff.mpr hadds
  have hrounded : (total.sum.add value).toRat = nearestFloat (exact.sum + value.toRat) := by
    rw [Ieee.toRat_add h.sum.finite hadds.1, h.sum.toRat_eq]
  refine ⟨⟨hfinite, hrounded⟩, h.compensation.add ⟨isFinite_compensated hfinite, ?_⟩⟩
  rw [← hrounded, ← h.sum.toRat_eq]
  exact toRat_compensated hfinite

theorem Follows.isWord_value {exact : CompensatedSum} (h : total.Follows exact) :
    exact.total.IsWord total.value := by
  rw [Neumaier.value, Ieee.add_symm]
  exact h.compensation.add h.sum

/-- The accumulator follows the sum of the values it has added. -/
theorem follows_addFloats {values : List F64} :
    ∀ {exact : CompensatedSum}, CompensatedSum.of values = some exact →
      (addFloats new values).Follows exact := by
  induction values using List.reverseRecOn with
  | nil =>
      rintro _ ⟨⟩
      exact follows_new
  | append_singleton values value ih =>
      intro exact h
      rw [CompensatedSum.of_append_singleton] at h
      obtain ⟨before, hbefore, hadd⟩ := Option.bind_eq_some_iff.mp h
      rw [addFloats, List.foldl_append]
      exact (ih hbefore).add hadd

/-- The plain sum is finite as long as the values can be added among the doubles. -/
theorem isSome_of_iff (values : List F64) :
    (CompensatedSum.of values).isSome = true ↔ (floatSum values).isFinite = true := by
  induction values using List.reverseRecOn with
  | nil => exact iff_of_true rfl (by decide)
  | append_singleton values value ih =>
      have hsum : floatSum (values ++ [value]) = (addFloats new values).sum.add value := by
        rw [sum_addFloats, floatSum, List.foldl_append]
        rfl
      rw [CompensatedSum.of_append_singleton, hsum]
      cases hvalues : CompensatedSum.of values with
      | none =>
          rw [hvalues, ← sum_addFloats] at ih
          exact iff_of_false Bool.false_ne_true fun h =>
            Bool.false_ne_true (ih.mpr (Ieee.isFinite_left_of_add h))
      | some exact =>
          rw [(follows_addFloats hvalues).isFinite_add_iff, Option.bind_some, CompensatedSum.add]
          split
          · exact iff_of_true rfl ‹_›
          · exact iff_of_false Bool.false_ne_true ‹_›

/-- A finite sum with what it lost, which is not NaN. -/
structure Sound (total : Neumaier) : Prop where
  sum : total.sum.isFinite = true
  compensation : total.compensation.isNaN = false

theorem Sound.isNaN_value (h : total.Sound) : total.value.isNaN = false :=
  Ieee.isNaN_add_of_isFinite h.sum h.compensation

theorem Sound.add (h : total.Sound) (hsum : (total.sum.add value).isFinite = true) :
    (total.add value).Sound := by
  refine ⟨hsum, ?_⟩
  show (total.compensation.add _).isNaN = false
  rw [Ieee.add_symm]
  exact Ieee.isNaN_add_of_isFinite (isFinite_compensated hsum) h.compensation

/-- A sum that has left the finite words, and its value with it. -/
structure Broken (total : Neumaier) : Prop where
  sum : total.sum.isFinite = false
  value : total.value.isNaN = true

/-- Where a sum becomes infinite, what it lost is the opposite infinity or NaN. -/
theorem broken_add (hsum : (total.sum.add value).isFinite = false) :
    (total.add value).Broken := by
  refine ⟨hsum, ?_⟩
  show ((total.sum.add value).add (total.compensation.add _)).isNaN = true
  rcases Ieee.isInfinite_or_isNaN hsum with hinfinite | hnan
  · generalize total.sum.add value = next at hinfinite
    have hopposite : next.neg.isInfinite = true := hinfinite
    -- through every sum the opposite infinity stays what it is, unless it becomes NaN
    have hswallow : ∀ x y : F64, ((x.sub next).add y).isNaN = true ∨ (x.sub next).add y = next.neg := by
      intro x y
      rcases Ieee.isNaN_or_add_eq x hopposite with hnan | heq
      · exact .inl (Ieee.isNaN_add_left hnan)
      · rw [Ieee.sub, heq, Ieee.add_symm]
        exact Ieee.isNaN_or_add_eq y hopposite
    have hlost : ∀ lost : F64, lost.isNaN = true ∨ lost = next.neg →
        (next.add (total.compensation.add lost)).isNaN = true := by
      rintro lost (hnan | rfl)
      · exact Ieee.isNaN_add_right (Ieee.isNaN_add_right hnan)
      · rcases Ieee.isNaN_or_add_eq total.compensation hopposite with hnan | heq
        · exact Ieee.isNaN_add_right hnan
        · rw [heq]
          exact Ieee.isNaN_add_of_opposite hinfinite hopposite (by simp)
    apply hlost
    split
    · exact hswallow total.sum value
    · exact hswallow value total.sum
  · exact Ieee.isNaN_add_left hnan

/-- A compensated sum is a number exactly where the plain sum is finite. -/
theorem isNaN_value_iff (values : List F64) :
    (addFloats new values).value.isNaN = false ↔ (floatSum values).isFinite = true := by
  have hrun : ((addFloats new values).Sound ∨ (addFloats new values).Broken) := by
    induction values using List.reverseRecOn with
    | nil => exact .inl ⟨by decide, by decide⟩
    | append_singleton values value ih =>
        rw [addFloats, List.foldl_append]
        show Sound (add (addFloats new values) value) ∨ Broken (add (addFloats new values) value)
        by_cases hsum : ((addFloats new values).sum.add value).isFinite = true
        · left
          rcases ih with hsound | hbroken
          · exact hsound.add hsum
          · have hfinite := Ieee.isFinite_left_of_add hsum
            rw [hbroken.sum] at hfinite
            cases hfinite
        · exact .inr (broken_add (Bool.not_eq_true _ ▸ hsum))
  rw [← sum_addFloats]
  rcases hrun with hsound | hbroken
  · exact iff_of_true hsound.isNaN_value hsound.sum
  · exact iff_of_false (by rw [hbroken.value]; decide) (by rw [hbroken.sum]; decide)

end Neumaier

/-! ## Running moments -/

theorem natCast_le_ofInt (least : ℕ) {count : ℕ} (hleast : least ≤ 2 ^ 53) (h : least ≤ count) :
    (least : ℚ) ≤ (Ieee.ofInt count : F64).toRat := by
  have hexact : nearestFloat ((least : ℤ) : ℚ) = ((least : ℤ) : ℚ) :=
    (isDouble_of_natAbs_le (by simpa using hleast)).2
  rw [Int.cast_natCast] at hexact
  rw [Ieee.ofInt, toRat_ofRat, Int.cast_natCast, ← hexact]
  exact nearestFloat_mono (by exact_mod_cast h)

/-- A number of rows as a divisor. -/
theorem positive_ofInt {count : ℕ} (hpos : count ≠ 0) (hlt : count < 2 ^ 64) :
    Ieee.Positive (Ieee.ofInt count) := by
  constructor
  · refine isFinite_ofRat_of_le ?_
    rw [Int.cast_natCast, abs_of_nonneg (by positivity)]
    exact_mod_cast hlt.le
  · have hone := natCast_le_ofInt 1 (by norm_num) (Nat.one_le_iff_ne_zero.mpr hpos)
    rw [Nat.cast_one] at hone
    linarith

namespace Moments

variable {moments : Moments} {value : F64}

/-- A mean that is no finite number becomes NaN with the next value. -/
theorem isNaN_mean_of_not_finite (hmean : moments.mean.isFinite = false)
    (hcount : moments.count + 1 < 2 ^ 64) : (moments.add value).mean.isNaN = true := by
  show (moments.mean.add ((value.sub moments.mean).div _)).isNaN = true
  have hpositive := positive_ofInt (Nat.succ_ne_zero moments.count) hcount
  rcases Ieee.isInfinite_or_isNaN hmean with hinfinite | hnan
  · have hopposite : moments.mean.neg.isInfinite = true := hinfinite
    rcases Ieee.isNaN_or_add_eq value hopposite with hnan | heq
    · exact Ieee.isNaN_add_right (Ieee.isNaN_div_left hnan)
    · rw [Ieee.sub, heq, hpositive.div_infinite hopposite]
      exact Ieee.isNaN_add_of_opposite hinfinite hopposite (by simp)
  · exact Ieee.isNaN_add_left hnan

/-- From a finite mean, only NaN leads to NaN. -/
theorem isNaN_mean_iff (hmean : moments.mean.isFinite = true) (hcount : moments.count + 1 < 2 ^ 64) :
    (moments.add value).mean.isNaN = false ↔ value.isNaN = false := by
  show (moments.mean.add ((value.sub moments.mean).div _)).isNaN = false ↔ _
  have hpositive := positive_ofInt (Nat.succ_ne_zero moments.count) hcount
  constructor
  · intro h
    by_contra hvalue
    rw [Bool.not_eq_false] at hvalue
    have hnan : (value.sub moments.mean).isNaN = true := Ieee.isNaN_add_left hvalue
    rw [Ieee.isNaN_add_right (Ieee.isNaN_div_left hnan)] at h
    cases h
  · intro hvalue
    have hdelta : (value.sub moments.mean).isNaN = false := by
      rw [Ieee.sub, Ieee.add_symm]
      exact Ieee.isNaN_add_of_isFinite hmean hvalue
    exact Ieee.isNaN_add_of_isFinite hmean (hpositive.isNaN_div hdelta)

/-- A finite mean, the zero at first, over a sum of squares. -/
structure Sound (moments : Moments) : Prop where
  mean : moments.mean.isFinite = true
  sumSquares : Ieee.Nonneg moments.sumSquares
  first : moments.count = 0 → moments.mean = .zero false

/-- A mean that has left the finite words, and the deviation with it. -/
structure Broken (moments : Moments) : Prop where
  mean : moments.mean.isFinite = false
  sumSquares : moments.sumSquares.isNaN = true ∨ moments.sumSquares = .infinity true

/-- How the next mean comes from the mean and the value. -/
theorem Sound.toRat_mean (h : moments.Sound) (hcount : moments.count + 1 < 2 ^ 64)
    (hdelta : (value.sub moments.mean).isFinite = true) :
    (moments.add value).mean.toRat = nearestFloat (moments.mean.toRat +
      nearestFloat (nearestFloat (value.toRat - moments.mean.toRat) /
        (Ieee.ofInt (moments.count.succ : ℕ) : F64).toRat)) := by
  have hpositive := positive_ofInt (Nat.succ_ne_zero moments.count) hcount
  have hway := Ieee.toRat_sub (Ieee.isFinite_left_of_add hdelta) h.mean
  have hquotient : ((value.sub moments.mean).div (Ieee.ofInt (moments.count.succ : ℕ))).toRat =
      nearestFloat (nearestFloat (value.toRat - moments.mean.toRat) /
        (Ieee.ofInt (moments.count.succ : ℕ) : F64).toRat) := by
    rw [hpositive.div_finite hdelta, toRat_ofRat, hway]
  have hone : (1 : ℚ) ≤ (Ieee.ofInt (moments.count.succ : ℕ) : F64).toRat := by
    have hleast := natCast_le_ofInt 1 (by norm_num) (Nat.succ_pos moments.count)
    rwa [Nat.cast_one] at hleast
  have hfinite : ((value.sub moments.mean).div (Ieee.ofInt (moments.count.succ : ℕ))).isFinite =
      true := by
    refine Ieee.isFinite_of_abs_le hdelta ?_
    rw [hquotient, ← hway]
    refine Ieee.abs_nearestFloat_le hdelta ?_
    rw [abs_div, abs_of_pos hpositive.toRat_pos]
    exact div_le_self (abs_nonneg _) hone
  rw [← hquotient]
  exact Ieee.toRat_add h.mean hfinite

/-- The share of the distance that is added to the mean. -/
theorem Sound.share (h : moments.Sound) (hcount : moments.count + 1 < 2 ^ 64)
    (hdelta : (value.sub moments.mean).isFinite = true) :
    ∃ share : ℚ, (moments.add value).mean.toRat = nearestFloat (moments.mean.toRat + share) ∧
      (0 ≤ value.toRat - moments.mean.toRat →
        0 ≤ share ∧ share ≤ value.toRat - moments.mean.toRat) ∧
      (value.toRat - moments.mean.toRat ≤ 0 →
        share ≤ 0 ∧ value.toRat - moments.mean.toRat ≤ share) := by
  have hvalue := Ieee.isFinite_left_of_add hdelta
  refine ⟨_, h.toRat_mean hcount hdelta, ?_⟩
  rcases Nat.eq_zero_or_pos moments.count with hzero | hpos
  · -- the first value is its own mean
    have hsame : (Ieee.ofInt (moments.count.succ : ℕ) : F64).toRat = 1 := by
      rw [hzero]
      exact toRat_one
    have hmean : moments.mean.toRat = 0 := by
      rw [h.first hzero]
      simp [Ieee.toRat, Ieee.zero]
    rw [hsame, hmean, sub_zero, div_one, Ieee.nearestFloat_toRat hvalue, Ieee.nearestFloat_toRat hvalue]
    exact ⟨fun h => ⟨h, le_rfl⟩, fun h => ⟨h, le_rfl⟩⟩
  · have htwo := natCast_le_ofInt 2 (by norm_num) (Nat.succ_le_succ hpos)
    rw [Nat.cast_two] at htwo
    exact Ieee.share_between htwo value moments.mean

/-- The next mean lies between the mean and the value. -/
theorem Sound.mean_between (h : moments.Sound) (hcount : moments.count + 1 < 2 ^ 64)
    (hdelta : (value.sub moments.mean).isFinite = true) :
    (moments.mean.toRat ≤ value.toRat → moments.mean.toRat ≤ (moments.add value).mean.toRat ∧
      (moments.add value).mean.toRat ≤ value.toRat) ∧
    (value.toRat ≤ moments.mean.toRat → value.toRat ≤ (moments.add value).mean.toRat ∧
      (moments.add value).mean.toRat ≤ moments.mean.toRat) := by
  obtain ⟨share, hmean, hup, hdown⟩ := h.share hcount hdelta
  have hvalue := Ieee.nearestFloat_toRat (Ieee.isFinite_left_of_add hdelta)
  have hself := Ieee.nearestFloat_toRat h.mean
  rw [hmean]
  refine ⟨fun hle => ?_, fun hle => ?_⟩
  · obtain ⟨hlow, hhigh⟩ := hup (by linarith)
    exact ⟨hself.symm.trans_le (nearestFloat_mono (by linarith)),
      (nearestFloat_mono (by linarith)).trans_eq hvalue⟩
  · obtain ⟨hhigh, hlow⟩ := hdown (by linarith)
    exact ⟨hvalue.symm.trans_le (nearestFloat_mono (by linarith)),
      (nearestFloat_mono (by linarith)).trans_eq hself⟩

theorem Sound.isFinite_mean (h : moments.Sound) (hcount : moments.count + 1 < 2 ^ 64)
    (hdelta : (value.sub moments.mean).isFinite = true) :
    (moments.add value).mean.isFinite = true := by
  have hvalue := Ieee.isFinite_left_of_add hdelta
  have hbetween : |(moments.add value).mean.toRat| ≤ max |moments.mean.toRat| |value.toRat| := by
    obtain ⟨hup, hdown⟩ := h.mean_between hcount hdelta
    rcases le_total moments.mean.toRat value.toRat with hle | hle
    · exact abs_le_max_abs_abs (hup hle).1 (hup hle).2
    · rw [max_comm]
      exact abs_le_max_abs_abs (hdown hle).1 (hdown hle).2
  rcases le_total |moments.mean.toRat| |value.toRat| with hmax | hmax
  · rw [max_eq_right hmax] at hbetween
    exact Ieee.isFinite_of_abs_le hvalue hbetween
  · rw [max_eq_left hmax] at hbetween
    exact Ieee.isFinite_of_abs_le h.mean hbetween

theorem Sound.add (h : moments.Sound) (hcount : moments.count + 1 < 2 ^ 64)
    (hdelta : (value.sub moments.mean).isFinite = true) : (moments.add value).Sound := by
  have hvalue := Ieee.isFinite_left_of_add hdelta
  have hmean := h.isFinite_mean hcount hdelta
  obtain ⟨hup, hdown⟩ := h.mean_between hcount hdelta
  have hrest := Ieee.toRat_sub hvalue hmean
  have hway := Ieee.toRat_sub hvalue h.mean
  have hfinite : (value.sub (moments.add value).mean).isFinite = true := by
    refine Ieee.isFinite_of_abs_le hdelta ?_
    rw [hrest, hway]
    rcases le_total moments.mean.toRat value.toRat with hle | hle
    · have hnear := (hup hle).2
      rw [abs_of_nonneg (Ieee.nearestFloat_nonneg (by linarith)),
        abs_of_nonneg (Ieee.nearestFloat_nonneg (by linarith))]
      exact nearestFloat_mono (by linarith [(hup hle).1])
    · have hnear := (hdown hle).1
      rw [abs_of_nonpos (Ieee.nearestFloat_nonpos (by linarith)),
        abs_of_nonpos (Ieee.nearestFloat_nonpos (by linarith))]
      exact neg_le_neg (nearestFloat_mono (by linarith [(hdown hle).2]))
  refine ⟨hmean, ?_, fun hzero => absurd hzero (Nat.succ_ne_zero _)⟩
  show Ieee.Nonneg (moments.sumSquares.add
    ((value.sub moments.mean).mul (value.sub (moments.add value).mean)))
  rw [Ieee.mul_of_finite hdelta hfinite]
  refine h.sumSquares.add (Ieee.nonneg_ofRat ?_ _)
  -- both distances point the same way
  rw [hrest, hway]
  rcases le_total moments.mean.toRat value.toRat with hle | hle
  · exact mul_nonneg (Ieee.nearestFloat_nonneg (by linarith))
      (Ieee.nearestFloat_nonneg (by linarith [(hup hle).2]))
  · exact mul_nonneg_of_nonpos_of_nonpos (Ieee.nearestFloat_nonpos (by linarith))
      (Ieee.nearestFloat_nonpos (by linarith [(hdown hle).1]))

/-- Where a value has no finite distance to the mean, mean and deviation are lost. -/
theorem broken_add (hcount : moments.count + 1 < 2 ^ 64)
    (hdelta : (value.sub moments.mean).isFinite = false) : (moments.add value).Broken := by
  have hpositive := positive_ofInt (Nat.succ_ne_zero moments.count) hcount
  have hspread : ∀ product : F64, product.isNaN = true ∨ product = .infinity true →
      (moments.sumSquares.add product).isNaN = true ∨
        moments.sumSquares.add product = .infinity true := by
    rintro product (hnan | rfl)
    · exact .inl (Ieee.isNaN_add_right hnan)
    · exact Ieee.isNaN_or_add_eq _ (Ieee.isInfinite_infinity true)
  have hmean : (moments.add value).mean =
      moments.mean.add ((value.sub moments.mean).div (Ieee.ofInt ((moments.count + 1 : ℕ) : ℤ))) := rfl
  have hsquares : (moments.add value).sumSquares = moments.sumSquares.add
      ((value.sub moments.mean).mul (value.sub (moments.add value).mean)) := rfl
  rcases Ieee.isInfinite_or_isNaN hdelta with hinfinite | hnan
  · rw [hpositive.div_infinite hinfinite] at hmean
    rcases Ieee.isNaN_or_add_eq moments.mean hinfinite with hnan | heq
    · refine ⟨Ieee.isFinite_of_isNaN (hmean ▸ hnan), ?_⟩
      rw [hsquares]
      refine hspread _ (.inl (Ieee.isNaN_mul_right (Ieee.isNaN_add_right ?_)))
      rw [Ieee.isNaN_neg, hmean]
      exact hnan
    · rw [heq] at hmean
      refine ⟨Ieee.isFinite_of_isInfinite (hmean ▸ hinfinite), ?_⟩
      rw [hsquares, hmean]
      refine hspread _ ?_
      rcases Ieee.isNaN_or_add_eq value (y := (value.sub moments.mean).neg) hinfinite with hnan | heq
      · exact .inl (Ieee.isNaN_mul_right hnan)
      · right
        have hback : value.sub (value.sub moments.mean) = (value.sub moments.mean).neg := heq
        rw [hback, @Ieee.mul_infinities _ (value.sub moments.mean).neg hinfinite hinfinite,
          Ieee.negative_neg]
        cases (value.sub moments.mean).negative <;> rfl
  · constructor
    · rw [hmean]
      exact Ieee.isFinite_of_isNaN (Ieee.isNaN_add_right (Ieee.isNaN_div_left hnan))
    · rw [hsquares]
      exact hspread _ (.inl (Ieee.isNaN_mul_left hnan))

theorem Broken.add (h : moments.Broken) (hcount : moments.count + 1 < 2 ^ 64) :
    (moments.add value).Broken := by
  have hnan : (moments.add value).mean.isNaN = true := isNaN_mean_of_not_finite h.mean hcount
  refine ⟨Ieee.isFinite_of_isNaN hnan, .inl ?_⟩
  show (moments.sumSquares.add (Ieee.mul _ (value.sub (moments.add value).mean))).isNaN = true
  exact Ieee.isNaN_add_right (Ieee.isNaN_mul_right (Ieee.isNaN_add_right hnan))

/-! ## Columns -/

/-- The moments of the values, in order. -/
def observed (values : List F64) : Moments := values.foldl Moments.add .new

@[simp] theorem observed_append_singleton (values : List F64) (value : F64) :
    observed (values ++ [value]) = (observed values).add value := by
  rw [observed, List.foldl_append]
  rfl

@[simp] theorem count_observed (values : List F64) : (observed values).count = values.length := by
  induction values using List.reverseRecOn with
  | nil => rfl
  | append_singleton values value ih =>
      rw [observed_append_singleton, List.length_append, List.length_singleton, ← ih]
      rfl

/-- A column whose mean stays finite is sound, and every other one broken. -/
theorem sound_or_broken (values : List F64) (hrows : values.length < 2 ^ 64) :
    (observed values).Sound ∨ (observed values).Broken := by
  induction values using List.reverseRecOn with
  | nil =>
      exact .inl ⟨by decide, ⟨by decide, by simp [observed, new, Ieee.toRat, Ieee.zero]⟩,
        fun _ => rfl⟩
  | append_singleton values value ih =>
      rw [List.length_append, List.length_singleton] at hrows
      have hcount : (observed values).count + 1 < 2 ^ 64 := by
        rwa [count_observed]
      rw [observed_append_singleton]
      rcases ih (by omega) with hsound | hbroken
      · by_cases hdelta : (value.sub (observed values).mean).isFinite = true
        · exact .inl (hsound.add hcount hdelta)
        · exact .inr (broken_add hcount (Bool.not_eq_true _ ▸ hdelta))
      · exact .inr (hbroken.add hcount)

/-- The moments hold the mean. -/
structure Follows (moments : Moments) (running : RunningMean) : Prop where
  sound : moments.Sound
  count_eq : moments.count = running.count
  mean_eq : moments.mean.toRat = running.mean

theorem Follows.isFinite_sub_iff {running : RunningMean} (h : moments.Follows running) :
    (value.sub moments.mean).isFinite = true ↔
      value.isFinite = true ∧ |value.toRat - running.mean| < overflow := by
  have hsub (hvalue : value.isFinite = true) : (value.sub moments.mean).isFinite = true ↔
      |value.toRat - running.mean| < overflow := by
    rw [Ieee.sub, @Ieee.add_of_finite _ _ value moments.mean.neg hvalue h.sound.mean,
      isFinite_ofRat_iff, Ieee.toRat_neg, h.mean_eq, sub_eq_add_neg]
  constructor
  · intro hdelta
    have hvalue := Ieee.isFinite_left_of_add hdelta
    exact ⟨hvalue, (hsub hvalue).mp hdelta⟩
  · rintro ⟨hvalue, hdistance⟩
    exact (hsub hvalue).mpr hdistance

theorem Follows.add {running next : RunningMean} (h : moments.Follows running)
    (hcount : moments.count + 1 < 2 ^ 64) (hnext : running.add value = some next) :
    (moments.add value).Follows next := by
  unfold RunningMean.add at hnext
  split at hnext
  case isFalse => cases hnext
  rename_i hmoves
  cases hnext
  have hdelta := h.isFinite_sub_iff.mpr hmoves
  refine ⟨h.sound.add hcount hdelta, congrArg (· + 1) h.count_eq, ?_⟩
  rw [h.sound.toRat_mean hcount hdelta, h.mean_eq, h.count_eq, Ieee.ofInt, toRat_ofRat]

/-- The moments follow the mean of the values they have seen. -/
theorem follows_observed {values : List F64} (hrows : values.length < 2 ^ 64) :
    ∀ {running : RunningMean}, RunningMean.of values = some running →
      (observed values).Follows running := by
  induction values using List.reverseRecOn with
  | nil =>
      rintro _ ⟨⟩
      refine ⟨⟨by decide, ⟨by decide, ?_⟩, fun _ => rfl⟩, rfl, ?_⟩ <;>
        simp [observed, new, Ieee.toRat, Ieee.zero]
  | append_singleton values value ih =>
      rw [List.length_append, List.length_singleton] at hrows
      intro running h
      rw [RunningMean.of_append_singleton] at h
      obtain ⟨before, hbefore, hadd⟩ := Option.bind_eq_some_iff.mp h
      rw [observed_append_singleton]
      exact (ih (by omega) hbefore).add (by rwa [count_observed]) hadd

/-- The mean is finite as long as every value has a distance to it among the doubles. -/
theorem isSome_of_iff {values : List F64} (hrows : values.length < 2 ^ 64) :
    (RunningMean.of values).isSome = true ↔ (observed values).mean.isFinite = true := by
  induction values using List.reverseRecOn with
  | nil => exact iff_of_true rfl (by decide)
  | append_singleton values value ih =>
      rw [List.length_append, List.length_singleton] at hrows
      have hcount : (observed values).count + 1 < 2 ^ 64 := by rwa [count_observed]
      have ih := ih (by omega)
      rw [RunningMean.of_append_singleton, observed_append_singleton]
      cases hvalues : RunningMean.of values with
      | none =>
          rw [hvalues] at ih
          have hmean : (observed values).mean.isFinite = false := by
            rw [← Bool.not_eq_true, ← ih]
            exact Bool.false_ne_true
          have hnan := @isNaN_mean_of_not_finite _ value hmean hcount
          exact iff_of_false Bool.false_ne_true
            (by rw [Ieee.isFinite_of_isNaN hnan]; exact Bool.false_ne_true)
      | some running =>
          have hfollows := follows_observed (by omega) hvalues
          rw [Option.bind_some, RunningMean.add]
          split
          · rename_i hmoves
            exact iff_of_true rfl
              (hfollows.sound.isFinite_mean hcount (hfollows.isFinite_sub_iff.mpr hmoves))
          · rename_i hleaves
            rw [← hfollows.isFinite_sub_iff, Bool.not_eq_true] at hleaves
            exact iff_of_false Bool.false_ne_true
              (by rw [(broken_add hcount hleaves).mean]; exact Bool.false_ne_true)

/-- A standard deviation is a number exactly where the running mean is finite. -/
theorem isNaN_stdDev_iff {values : List F64} (hrows : values.length < 2 ^ 64) {deviation : F64}
    (hdeviation : (observed values).stdDev = some deviation) :
    deviation.isNaN = false ↔ (observed values).mean.isFinite = true := by
  rw [stdDev, count_observed] at hdeviation
  split at hdeviation
  · cases hdeviation
  · rename_i hne
    obtain rfl := Option.some.inj hdeviation
    have hpositive := positive_ofInt hne hrows
    rcases sound_or_broken values hrows with hsound | hbroken
    · exact iff_of_true (hsound.sumSquares.div hpositive).isNaN_sqrt hsound.mean
    · refine iff_of_false ?_ (by rw [hbroken.mean]; decide)
      rw [Bool.not_eq_false]
      rcases hbroken.sumSquares with hnan | hinfinite
      · have hquotient := Ieee.isNaN_div_left (y := Ieee.ofInt values.length) hnan
        rw [Ieee.sqrt, if_pos hquotient]
        exact Ieee.isNaN_nan
      · rw [hinfinite]
        exact Ieee.isNaN_sqrt_div hpositive

/-- A mean is a number exactly where the mean before the last value is finite and that value is
a number. -/
theorem isNaN_mean_append {values : List F64} {value : F64} (hrows : values.length + 1 < 2 ^ 64) :
    (observed (values ++ [value])).mean.isNaN = false ↔
      (observed values).mean.isFinite = true ∧ value.isNaN = false := by
  have hcount : (observed values).count + 1 < 2 ^ 64 := by rwa [count_observed]
  rw [observed_append_singleton]
  by_cases hmean : (observed values).mean.isFinite = true
  · rw [isNaN_mean_iff hmean hcount]
    exact (and_iff_right hmean).symm
  · have hnan : ((observed values).add value).mean.isNaN = true :=
      isNaN_mean_of_not_finite (Bool.not_eq_true _ ▸ hmean) hcount
    exact iff_of_false (by rw [hnan]; decide) fun h => hmean h.1

end Moments

/-! ## Finite values -/

/-- A fold that succeeds has taken every item. -/
theorem forall_of_foldlM_eq_some {σ α : Type} {step : σ → α → Option σ} {P : α → Prop}
    (hstep : ∀ state item next, step state item = some next → P item) {items : List α} :
    ∀ {state last : σ}, items.foldlM step state = some last → ∀ item ∈ items, P item := by
  induction items with
  | nil => simp
  | cons item items ih =>
      intro state last h
      obtain ⟨next, hnext, hlast⟩ := Option.bind_eq_some_iff.mp h
      exact List.forall_mem_cons.mpr ⟨hstep state item next hnext, ih hlast⟩

/-- A sum among the doubles has finite values only. -/
theorem CompensatedSum.isFinite_of_isSome {values : List F64}
    (h : (CompensatedSum.of values).isSome = true) : ∀ value ∈ values, value.isFinite = true := by
  obtain ⟨last, hlast⟩ := Option.isSome_iff_exists.mp h
  refine forall_of_foldlM_eq_some (fun total value next hnext => ?_) hlast
  unfold add at hnext
  split at hnext
  · rename_i hadds
    exact hadds.1
  · cases hnext

/-- So has a mean. -/
theorem RunningMean.isFinite_of_isSome {values : List F64}
    (h : (RunningMean.of values).isSome = true) : ∀ value ∈ values, value.isFinite = true := by
  obtain ⟨last, hlast⟩ := Option.isSome_iff_exists.mp h
  refine forall_of_foldlM_eq_some (fun running value next hnext => ?_) hlast
  unfold add at hnext
  split at hnext
  · rename_i hmoves
    exact hmoves.1
  · cases hnext

/-! ## Moderate values -/

/-- At most `2 ^ 52` finite values, far from the largest double. -/
structure Moderate (values : List F64) : Prop where
  length_le : values.length ≤ 2 ^ 52
  cells : ∀ value ∈ values, value.isFinite = true ∧ |value.toRat| ≤ 2 ^ 850

namespace Moderate

variable {values : List F64}

theorem of_append_singleton {value : F64} (h : Moderate (values ++ [value])) :
    Moderate values ∧ value.isFinite = true ∧ |value.toRat| ≤ 2 ^ 850 := by
  have hlength := h.length_le
  rw [List.length_append] at hlength
  exact ⟨⟨by omega, fun other hother => h.cells other (List.mem_append_left _ hother)⟩,
    h.cells value (by simp)⟩

/-- The sum and what it has lost grow with the number of the values. -/
theorem exists_sum (h : Moderate values) :
    ∃ sum lost : ℚ, CompensatedSum.of values = some ⟨sum, .finite lost⟩ ∧
      |sum| ≤ values.length * 2 ^ 850 ∧ |lost| ≤ values.length * 2 ^ 904 := by
  induction values using List.reverseRecOn with
  | nil => exact ⟨0, 0, rfl, by simp, by simp⟩
  | append_singleton values value ih =>
      obtain ⟨hvalues, hvalue, hsize⟩ := h.of_append_singleton
      obtain ⟨sum, lost, hof, hsum, hlost⟩ := ih hvalues
      have hlength := h.length_le
      rw [List.length_append, List.length_singleton] at hlength ⊢
      have hcount : ((values.length + 1 : ℕ) : ℚ) = values.length + 1 := Nat.cast_succ _
      have hadds : |sum + value.toRat| ≤ (values.length + 1 : ℕ) * 2 ^ 850 := by
        rw [hcount, add_mul, one_mul]
        exact (abs_add_le _ _).trans (add_le_add hsum hsize)
      have hnext := abs_nearestFloat_le_mul_two_pow hlength (by norm_num) hadds
      have hloses : |lost + (sum + value.toRat - nearestFloat (sum + value.toRat))| ≤
          (values.length + 1 : ℕ) * 2 ^ 904 := by
        have hbound : ((values.length + 1 : ℕ) : ℚ) * 2 ^ 850 ≤ 2 ^ 52 * 2 ^ 850 := by
          gcongr
          exact_mod_cast hlength
        have hstep : |sum + value.toRat - nearestFloat (sum + value.toRat)| ≤ 2 ^ 904 := by
          calc |sum + value.toRat - nearestFloat (sum + value.toRat)|
              ≤ |sum + value.toRat| + |nearestFloat (sum + value.toRat)| := abs_sub _ _
            _ ≤ 2 ^ 52 * 2 ^ 850 + 2 ^ 52 * 2 ^ 850 :=
                add_le_add (hadds.trans hbound) (hnext.trans hbound)
            _ ≤ 2 ^ 54 * 2 ^ 850 := by
                have hpos : (0 : ℚ) < 2 ^ 850 := by positivity
                generalize (2 : ℚ) ^ 850 = limit at hpos
                linarith
            _ = 2 ^ 904 := (pow_add 2 54 850).symm
        rw [hcount, add_mul, one_mul]
        exact (abs_add_le _ _).trans (add_le_add hlost hstep)
      refine ⟨_, _, ?_, hnext, abs_nearestFloat_le_mul_two_pow hlength (by norm_num) hloses⟩
      have hsmall := hadds.trans_lt (mul_two_pow_lt_overflow hlength (by norm_num))
      have hkept := hloses.trans_lt (mul_two_pow_lt_overflow hlength (by norm_num))
      rw [CompensatedSum.of_append_singleton, hof, Option.bind_some,
        @CompensatedSum.add_eq_some ⟨sum, .finite lost⟩ _ hvalue hsmall, Rounded.finite_add,
        Rounded.of, if_pos hkept]

/-- The total is a double. -/
theorem exists_total (h : Moderate values) :
    ∃ exact total, CompensatedSum.of values = some exact ∧ exact.total = .finite total := by
  obtain ⟨sum, lost, hof, hsum, hlost⟩ := h.exists_sum
  have htotal : |lost + sum| ≤ (values.length : ℕ) * 2 ^ 905 := by
    have hpow : (2 : ℚ) ^ 905 = 2 ^ 904 + 2 ^ 904 := (pow_succ 2 904).trans (mul_two _)
    have hless : (2 : ℚ) ^ 850 ≤ 2 ^ 904 := pow_le_pow_right₀ (by norm_num) (by norm_num)
    have hlength : (0 : ℚ) ≤ values.length := Nat.cast_nonneg _
    rw [hpow, mul_add]
    exact (abs_add_le _ _).trans
      (add_le_add hlost (hsum.trans (mul_le_mul_of_nonneg_left hless hlength)))
  have hsmall := htotal.trans_lt (mul_two_pow_lt_overflow h.length_le (by norm_num))
  exact ⟨_, _, hof, by rw [CompensatedSum.total, Rounded.finite_add, Rounded.of, if_pos hsmall]⟩

/-- The mean stays among the values. -/
theorem exists_mean (h : Moderate values) :
    ∃ running, RunningMean.of values = some running ∧ |running.mean| ≤ 2 ^ 850 := by
  induction values using List.reverseRecOn with
  | nil => exact ⟨⟨0, 0⟩, rfl, by simp⟩
  | append_singleton values value ih =>
      obtain ⟨hvalues, hvalue, hsize⟩ := h.of_append_singleton
      obtain ⟨running, hof, hmean⟩ := ih hvalues
      have hrows : values.length + 1 < 2 ^ 64 := by
        have hlength := hvalues.length_le
        omega
      have hdistance : |value.toRat - running.mean| < overflow := by
        have hpow : (2 : ℚ) ^ 851 = 2 ^ 850 + 2 ^ 850 := (pow_succ 2 850).trans (mul_two _)
        refine ((abs_sub _ _).trans (add_le_add hsize hmean)).trans_lt ?_
        rw [← hpow]
        exact two_pow_lt_overflow (by norm_num)
      have hadd : running.add value = some _ := if_pos ⟨hvalue, hdistance⟩
      refine ⟨_, by rw [RunningMean.of_append_singleton, hof, Option.bind_some, hadd], ?_⟩
      have hfollows := Moments.follows_observed (by omega) hof
      have hcount : (Moments.observed values).count + 1 < 2 ^ 64 := by
        rwa [Moments.count_observed]
      have hdelta := hfollows.isFinite_sub_iff.mpr ⟨hvalue, hdistance⟩
      rw [← (hfollows.add hcount hadd).mean_eq]
      obtain ⟨hup, hdown⟩ := hfollows.sound.mean_between hcount hdelta
      rw [← hfollows.mean_eq, abs_le] at hmean
      rw [abs_le] at hsize ⊢
      rcases le_total (Moments.observed values).mean.toRat value.toRat with hle | hle
      · exact ⟨hmean.1.trans (hup hle).1, (hup hle).2.trans hsize.2⟩
      · exact ⟨hsize.1.trans (hdown hle).1, (hdown hle).2.trans hmean.2⟩

end Moderate

end ProofFrame
