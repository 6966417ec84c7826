import Mathlib.Algebra.Order.Field.Basic
import Mathlib.Data.Nat.Log
import Mathlib.Data.Rat.Cast.Order
import Mathlib.Tactic.FieldSimp
import Mathlib.Tactic.Linarith
import Mathlib.Tactic.Positivity
import Mathlib.Tactic.Ring

/-!
# Decimal digits

The number a list of decimal digits spells, and the fraction it spells behind a
decimal point.
-/

namespace ProofFrame.Lib

variable {digits more : List Char}

theorem ofDigitChars_append_zero : Nat.ofDigitChars 10 (digits ++ more) 0 =
    10 ^ more.length * Nat.ofDigitChars 10 digits 0 + Nat.ofDigitChars 10 more 0 := by
  rw [Nat.ofDigitChars_append, Nat.ofDigitChars_eq_ofDigitChars_zero]

theorem ofDigitChars_cons_zero {c : Char} : Nat.ofDigitChars 10 (c :: digits) 0 =
    10 ^ digits.length * (c.toNat - 48) + Nat.ofDigitChars 10 digits 0 := by
  rw [Nat.ofDigitChars_cons, Nat.ofDigitChars_eq_ofDigitChars_zero, Nat.mul_zero, Nat.zero_add]
  rfl

theorem isDigit_iff {c : Char} : c.isDigit = true ↔ 48 ≤ c.toNat ∧ c.toNat ≤ 57 := by
  simp only [Char.isDigit, Bool.and_eq_true, decide_eq_true_eq]
  exact Iff.rfl

theorem digit_eq_zero {c : Char} (hc : c.isDigit = true) : c.toNat - 48 = 0 ↔ c = '0' := by
  have hrange := isDigit_iff.mp hc
  constructor
  · intro hzero
    have hnat : c.toNat = 48 := by omega
    exact Char.toNat_inj.mp hnat
  · rintro rfl
    rfl

theorem ofDigitChars_lt (h : digits.all Char.isDigit = true) :
    Nat.ofDigitChars 10 digits 0 < 10 ^ digits.length := by
  induction digits with
  | nil => simp
  | cons c digits ih =>
      rw [List.all_cons, Bool.and_eq_true] at h
      have hrange := isDigit_iff.mp h.1
      have hlt := ih h.2
      rw [ofDigitChars_cons_zero, List.length_cons, pow_succ]
      have hdigit : 10 ^ digits.length * (c.toNat - 48) ≤ 10 ^ digits.length * 9 :=
        Nat.mul_le_mul_left _ (by omega)
      omega

/-- Only zeros spell zero. -/
theorem ofDigitChars_eq_zero (h : digits.all Char.isDigit = true) :
    Nat.ofDigitChars 10 digits 0 = 0 ↔ digits.any (· ≠ '0') = false := by
  induction digits with
  | nil => simp
  | cons c digits ih =>
      rw [List.all_cons, Bool.and_eq_true] at h
      rw [ofDigitChars_cons_zero, Nat.add_eq_zero_iff, ih h.2, Nat.mul_eq_zero,
        or_iff_right (by positivity), digit_eq_zero h.1, List.any_cons, Bool.or_eq_false_iff]
      simp

/-- The length of a numeral. -/
theorem length_toDigits (n : ℕ) : (Nat.toDigits 10 n).length = Nat.log 10 n + 1 := by
  refine le_antisymm ?_ ?_
  · rw [Nat.length_toDigits_le_iff (by decide) (by omega)]
    exact Nat.lt_pow_succ_log_self (by decide) n
  · by_contra hlt
    have hle : (Nat.toDigits 10 n).length ≤ Nat.log 10 n := by omega
    have hpos : 0 < (Nat.toDigits 10 n).length := Nat.length_toDigits_pos
    rw [Nat.length_toDigits_le_iff (by decide) (by omega)] at hle
    have hlog : n ≠ 0 := by
      rintro rfl
      rw [Nat.log_zero_right] at hlt
      omega
    exact absurd (Nat.pow_log_le_self 10 hlog) (not_le.mpr hle)

/-- The number digits spell behind a decimal point. -/
def fractionOf (digits : List Char) : ℚ := Nat.ofDigitChars 10 digits 0 / 10 ^ digits.length

theorem fractionOf_nonneg (digits : List Char) : 0 ≤ fractionOf digits := by
  unfold fractionOf
  positivity

theorem fractionOf_lt_one (h : digits.all Char.isDigit = true) : fractionOf digits < 1 := by
  rw [fractionOf, div_lt_one (by positivity)]
  exact_mod_cast ofDigitChars_lt h

theorem fractionOf_eq_zero (h : digits.all Char.isDigit = true) :
    fractionOf digits = 0 ↔ digits.any (· ≠ '0') = false := by
  rw [fractionOf, div_eq_zero_iff, or_iff_left (by positivity), Nat.cast_eq_zero,
    ofDigitChars_eq_zero h]

/-- Shifting the point right moves the leading digits in front of it. -/
theorem fractionOf_append : fractionOf (digits ++ more) * 10 ^ digits.length =
    Nat.ofDigitChars 10 digits 0 + fractionOf more := by
  rw [fractionOf, fractionOf, ofDigitChars_append_zero, List.length_append, pow_add]
  push_cast
  field_simp

end ProofFrame.Lib
