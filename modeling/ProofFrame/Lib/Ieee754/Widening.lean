import ProofFrame.Lib.Ieee754.Order

/-!
# Widening

A word of a narrow format is a word of every wider one, so a conversion to the
wider format and back leaves a finite word where it is.
-/

namespace ProofFrame.Lib.Ieee754

variable {eb mb eb' mb' : ℕ}

/-- A short significand at any exponent is the magnitude of a word. -/
theorem exists_units (exponent : ℕ) : ∀ {significand : ℕ}, significand < 2 ^ (mb + 1) →
    ∃ n, units mb n = significand * 2 ^ exponent := by
  induction exponent with
  | zero =>
      intro significand h
      rcases Nat.lt_or_ge significand (2 ^ mb) with hlt | hge
      · exact ⟨significand, by rw [units_of_lt hlt, pow_zero, mul_one]⟩
      · refine ⟨0 * 2 ^ mb + significand, units_binade hge ?_⟩
        rw [pow_succ] at h
        omega
  | succ exponent ih =>
      intro significand h
      rcases Nat.lt_or_ge significand (2 ^ mb) with hlt | hge
      · obtain ⟨n, hn⟩ := @ih (2 * significand) (by rw [pow_succ]; omega)
        refine ⟨n, ?_⟩
        rw [hn, pow_succ]
        ring
      · refine ⟨(exponent + 1) * 2 ^ mb + significand, units_binade hge ?_⟩
        rw [pow_succ] at h
        omega

/-- A magnitude is a short significand at an exponent. -/
theorem units_eq_significand (n : ℕ) :
    ∃ significand exponent, significand < 2 ^ (mb + 1) ∧
      units mb n = significand * 2 ^ exponent := by
  rcases Nat.lt_or_ge n (2 ^ mb) with hlt | hge
  · refine ⟨n, 0, ?_, ?_⟩
    · rw [pow_succ]
      omega
    · rw [units_of_lt hlt, pow_zero, mul_one]
  · obtain ⟨k, m, rfl, hlow, hhigh⟩ := exists_binade hge
    refine ⟨m, k, ?_, units_binade hlow hhigh.le⟩
    rw [pow_succ]
    omega

theorem units_infinityIndex (h : 2 ≤ 2 ^ eb) :
    units mb (infinityIndex eb mb) = 2 ^ (mb + (2 ^ eb - 2)) := by
  have hindex : infinityIndex eb mb = (2 ^ eb - 2) * 2 ^ mb + 2 ^ mb := by
    rw [infinityIndex, ← Nat.succ_mul]
    congr 1
    omega
  rw [hindex, units_binade le_rfl (by omega), pow_add]

namespace Ieee

/-- There and back, from a format whose unit is `2 ^ d` units of the other and whose largest words
the other has. -/
theorem convert_convert {d : ℕ} (hunit : unit eb mb = 2 ^ d * unit eb' mb')
    (hmb : mb ≤ mb') (heb : 2 ≤ 2 ^ eb) (heb' : 2 ≤ 2 ^ eb')
    (hrange : mb + (2 ^ eb - 2) + d ≤ mb' + (2 ^ eb' - 2)) {x : Ieee eb mb}
    (hx : x.isFinite = true) : ((x.convert : Ieee eb' mb').convert : Ieee eb mb) = x := by
  have hlt : x.magnitude < infinityIndex eb mb := of_decide_eq_true hx
  obtain ⟨significand, exponent, hshort, hunits⟩ := @units_eq_significand mb x.magnitude
  obtain ⟨n, hn⟩ := @exists_units mb' (exponent + d) significand
    (hshort.trans_le (Nat.pow_le_pow_right two_pos (by omega)))
  have hwide : units mb' n = units mb x.magnitude * 2 ^ d := by
    rw [hn, hunits, pow_add, mul_assoc]
  have hfinite : n < infinityIndex eb' mb' := by
    refine units_strictMono.lt_iff_lt.mp (?_ : units mb' n < _)
    have hbelow : units mb x.magnitude < 2 ^ (mb + (2 ^ eb - 2)) :=
      units_infinityIndex heb ▸ units_strictMono hlt
    calc units mb' n = units mb x.magnitude * 2 ^ d := hwide
      _ < 2 ^ (mb + (2 ^ eb - 2)) * 2 ^ d := Nat.mul_lt_mul_of_pos_right hbelow (Nat.two_pow_pos d)
      _ = 2 ^ (mb + (2 ^ eb - 2) + d) := (pow_add ..).symm
      _ ≤ 2 ^ (mb' + (2 ^ eb' - 2)) := Nat.pow_le_pow_right two_pos hrange
      _ = units mb' (infinityIndex eb' mb') := (units_infinityIndex heb').symm
  have hrat : (units mb x.magnitude : ℚ) * unit eb mb = units mb' n * unit eb' mb' := by
    rw [hwide, hunit]
    push_cast
    ring
  have hforth : (x.convert : Ieee eb' mb') = ⟨x.negative, n, hfinite.trans infinityIndex_lt⟩ := by
    rw [convert_eq_of_finite hx]
    exact ofRat_eq hfinite (by rw [toRat, hrat])
  rw [hforth, convert_eq_of_finite (decide_eq_true hfinite)]
  refine (ofRat_eq hlt ?_).trans rfl
  rw [toRat]
  exact congrArg _ hrat.symm

end Ieee

/-- A finite 32-bit word survives the 64-bit format. -/
theorem F32.convert_convert {x : F32} (hx : x.isFinite = true) :
    ((x.convert : F64).convert : F32) = x := by
  refine Ieee.convert_convert (d := 925) ?_ (by norm_num) (by norm_num) (by norm_num)
    (by norm_num) hx
  rw [unit, unit, ← zpow_natCast, ← zpow_add₀ (by norm_num)]
  norm_num

end ProofFrame.Lib.Ieee754
