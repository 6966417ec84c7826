import ProofFrame.Lib.Ieee754.Widening

/-!
# The 64-bit format

Its unit and the words of some powers of two.
-/

namespace ProofFrame.Lib.Ieee754

theorem unit_eq : unit 11 52 = 2 ^ (-1074 : ℤ) := by
  rw [unit]
  norm_num

/-- The word of the number one counts `2 ^ 1074` units. -/
theorem units_one : units 52 (1023 * 2 ^ 52) = 2 ^ 1074 := by
  have hword : 1023 * 2 ^ 52 = 1022 * 2 ^ 52 + 2 ^ 52 := by norm_num
  rw [hword, units_binade le_rfl (by norm_num), pow_add 2 52 1022]

theorem two_pow_mul_unit : ((2 ^ 1074 : ℕ) : ℚ) * unit 11 52 = 1 := by
  rw [unit_eq, Nat.cast_pow, Nat.cast_ofNat, ← zpow_natCast, ← zpow_add₀ (by norm_num)]
  simp

theorem ofRat_one : (Ieee.ofRat 1 false : F64) =
    ⟨false, 1023 * 2 ^ 52, by decide⟩ := by
  refine Ieee.ofRat_eq (n := 1023 * 2 ^ 52) (by norm_num [infinityIndex]) ?_
  rw [units_one, two_pow_mul_unit, if_neg (by decide), mul_one]

theorem ofInt_one : (Ieee.ofInt 1 : F64) = Ieee.ofRat 1 false := by
  rw [Ieee.ofInt, Int.cast_one]

theorem isFinite_one : (Ieee.ofRat 1 false : F64).isFinite = true := by
  rw [ofRat_one]
  decide

theorem toRat_one : (Ieee.ofRat 1 false : F64).toRat = 1 := by
  rw [ofRat_one, Ieee.toRat, if_neg (by decide), units_one, one_mul, two_pow_mul_unit]

/-- The word of a power of two from one up. -/
theorem units_two_pow (exponent : ℕ) :
    units 52 ((1022 + exponent) * 2 ^ 52 + 2 ^ 52) = 2 ^ 1074 * 2 ^ exponent := by
  rw [units_binade le_rfl (by norm_num), pow_add, ← mul_assoc, ← pow_add]

/-- Unsigned 64-bit words, and their differences, are far from the largest float. -/
theorem isFinite_ofRat_of_le {value : ℚ} {zeroSign : Bool} (h : |value| ≤ 2 ^ 64) :
    (Ieee.ofRat value zeroSign : F64).isFinite = true := by
  refine Ieee.isFinite_ofRat (n := (1022 + 64) * 2 ^ 52 + 2 ^ 52) (by norm_num [infinityIndex]) ?_
  have hvalue : ((2 ^ 1074 * 2 ^ 64 : ℕ) : ℚ) * unit 11 52 = 2 ^ 64 := by
    rw [Nat.cast_mul, mul_right_comm, two_pow_mul_unit, one_mul]
    norm_num
  rw [units_two_pow, hvalue]
  exact h

/-! ## Rounding -/

/-- The float nearest to a rational, as the rational it is. -/
def nearestFloat (q : ℚ) : ℚ := (Ieee.ofRat q false : F64).toRat

/-- The sign of a rounded zero is not part of its value. -/
theorem toRat_ofRat (q : ℚ) (zeroSign : Bool) :
    (Ieee.ofRat q zeroSign : F64).toRat = nearestFloat q := by
  rw [nearestFloat, Ieee.toRat_eq, Ieee.toRat_eq, Ieee.key_ofRat, Ieee.key_ofRat]

theorem nearestFloat_mono {p q : ℚ} (h : p ≤ q) : nearestFloat p ≤ nearestFloat q := by
  rw [nearestFloat, nearestFloat, ← not_lt, Ieee.toRat_lt_toRat, not_lt]
  exact Ieee.key_ofRat_mono h _ _

/-! ## Exact arithmetic -/

/-- The rational is a float, so rounding leaves it alone. -/
def IsDouble (q : ℚ) : Prop := (Ieee.ofRat q false : F64).isFinite = true ∧ nearestFloat q = q

/-- The float is a number, and this one. -/
structure Represents (x : F64) (q : ℚ) : Prop where
  finite : x.isFinite = true
  toRat_eq : x.toRat = q

theorem IsDouble.represents {q : ℚ} (h : IsDouble q) (zeroSign : Bool) :
    Represents (Ieee.ofRat q zeroSign) q :=
  ⟨h.1, (toRat_ofRat q zeroSign).trans h.2⟩

namespace Represents

variable {x y : F64} {p q : ℚ}

theorem isDouble (h : Represents x q) : IsDouble q := by
  have hlt : x.magnitude < infinityIndex 11 52 := of_decide_eq_true h.finite
  have hround : Ieee.ofRat q x.negative = x := by
    rw [@Ieee.ofRat_eq _ _ _ x.negative hlt _ (h.toRat_eq ▸ rfl)]
  have hvalue := toRat_ofRat q x.negative
  rw [hround, h.toRat_eq] at hvalue
  refine ⟨?_, hvalue.symm⟩
  rw [← h.finite, ← hround]
  rfl

theorem neg (h : Represents x q) : Represents x.neg (-q) where
  finite := h.finite
  toRat_eq := by
    rw [← h.toRat_eq]
    unfold Ieee.toRat Ieee.neg
    cases x.negative <;> simp

theorem add (hx : Represents x p) (hy : Represents y q) (h : IsDouble (p + q)) :
    Represents (x.add y) (p + q) := by
  rw [Ieee.add_of_finite hx.finite hy.finite, hx.toRat_eq, hy.toRat_eq]
  exact h.represents _

theorem sub (hx : Represents x p) (hy : Represents y q) (h : IsDouble (p - q)) :
    Represents (x.sub y) (p - q) := by
  rw [sub_eq_add_neg] at h ⊢
  exact hx.add hy.neg h

end Represents

theorem represents_zero (negative : Bool) : Represents (Ieee.zero negative) 0 :=
  ⟨by cases negative <;> decide, by simp [Ieee.toRat, Ieee.zero]⟩

/-- A word counts every integer of 53 bits. -/
theorem exists_integer_word {count : ℕ} (h : count ≤ 2 ^ 53) :
    ∃ n < infinityIndex 11 52, ((units 52 n : ℕ) : ℚ) * unit 11 52 = count := by
  have hword : ∃ n, units 52 n = 2 ^ 1074 * count := by
    rcases h.lt_or_eq with hlt | rfl
    · obtain ⟨n, hn⟩ := @exists_units 52 1074 _ hlt
      exact ⟨n, hn.trans (mul_comm _ _)⟩
    · exact ⟨_, units_two_pow 53⟩
  obtain ⟨n, hn⟩ := hword
  have hle : n ≤ (1022 + 53) * 2 ^ 52 + 2 ^ 52 := by
    rw [← @units_le_units 52, hn, units_two_pow]
    exact Nat.mul_le_mul_left _ h
  refine ⟨n, hle.trans_lt (by norm_num [infinityIndex]), ?_⟩
  rw [hn, Nat.cast_mul, mul_right_comm, two_pow_mul_unit, one_mul]

/-- Integers of 53 bits are floats. -/
theorem isDouble_of_natAbs_le {value : ℤ} (h : value.natAbs ≤ 2 ^ 53) : IsDouble value := by
  obtain ⟨n, hn, hvalue⟩ := exists_integer_word h
  have hword : Represents ⟨decide (value < 0), n, hn.trans infinityIndex_lt⟩ value := by
    refine ⟨decide_eq_true hn, ?_⟩
    show (if decide (value < 0) = true then -1 else 1) * ((units 52 n : ℕ) * unit 11 52 : ℚ) = value
    rw [hvalue]
    by_cases hneg : value < 0
    · rw [if_pos (decide_eq_true hneg)]
      have habs : (value.natAbs : ℤ) = -value := Int.ofNat_natAbs_of_nonpos hneg.le
      have hcast : ((value.natAbs : ℤ) : ℚ) = -value := by rw [habs, Int.cast_neg]
      rw [Int.cast_natCast] at hcast
      rw [hcast]
      ring
    · rw [if_neg (by simpa using hneg)]
      have habs : (value.natAbs : ℤ) = value := Int.natAbs_of_nonneg (not_lt.mp hneg)
      have hcast : ((value.natAbs : ℤ) : ℚ) = value := by rw [habs]
      rw [Int.cast_natCast] at hcast
      rw [hcast, one_mul]
  exact hword.isDouble

end ProofFrame.Lib.Ieee754
