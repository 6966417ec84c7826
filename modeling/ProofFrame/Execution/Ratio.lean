import ProofFrame.Contract.Document
import ProofFrame.Execution.DatasetState
import ProofFrame.Lib.Ieee754.Double

/-!
# Ratios against their bounds

A ratio rule compares a quotient of two counts with a float.  The comparison takes
the float apart and cross-multiplies, so it is the comparison of two rationals.
-/

namespace ProofFrame

open Lib Lib.Run Lib.Ieee754

/-! ## Trailing zeros -/

theorem filter_range_downward {p : ℕ → Bool} (hp : ∀ {a b : ℕ}, a ≤ b → p b = true → p a = true)
    (n : ℕ) : ∀ b < ((List.range n).filter p).length, p b = true := by
  induction n with
  | zero => simp
  | succ n ih =>
      rw [List.range_succ, List.filter_append]
      intro b hb
      cases hn : p n with
      | true =>
          have hle : ((List.range n).filter p).length ≤ n :=
            (List.length_filter_le p _).trans_eq List.length_range
          refine hp ?_ hn
          simp only [hn, List.filter_cons_of_pos, List.filter_nil, List.length_append,
            List.length_singleton] at hb
          omega
      | false =>
          refine ih b ?_
          simpa [hn] using hb

/-- As many zeros as are counted can be shifted out. -/
theorem two_pow_trailingZeros_dvd (word : ℕ) : 2 ^ trailingZeros word ∣ word := by
  rcases Nat.eq_zero_or_pos (trailingZeros word) with hzero | hpos
  · rw [hzero, pow_zero]
    exact one_dvd _
  · have hbit := filter_range_downward (p := fun bit => word % 2 ^ (bit + 1) = 0)
      (fun {a b} hab hb => by
        have hdvd : 2 ^ (a + 1) ∣ word :=
          (pow_dvd_pow 2 (by omega)).trans (Nat.dvd_of_mod_eq_zero (of_decide_eq_true hb))
        exact decide_eq_true (Nat.mod_eq_zero_of_dvd hdvd))
      64 (trailingZeros word - 1) (by rw [← trailingZeros]; omega)
    have hsucc : trailingZeros word - 1 + 1 = trailingZeros word := by omega
    rw [hsucc] at hbit
    exact Nat.dvd_of_mod_eq_zero (of_decide_eq_true hbit)

/-! ## Bounds -/

/-- A bound a contract may state, other than negative zero. -/
structure RatioBound (bound : F64) : Prop where
  finite : bound.isFinite = true
  nonneg : (Ieee.zero false).le bound = true
  le_one : bound.le (Ieee.ofRat 1 false) = true
  ne_negativeZero : bound ≠ Ieee.zero true

theorem ratioBound_of_validate {path name : String} {bound : F64}
    (h : ContractAstV2.validateRatioBound path (name, some bound) = .ok ())
    (hzero : bound ≠ Ieee.zero true) : RatioBound bound := by
  have hvalid := rejectIf_eq_ok.mp h
  simp only [Option.any_some, Bool.or_eq_true, Bool.not_eq_true', Bool.and_eq_false_iff,
    not_or, Bool.not_eq_false] at hvalid
  exact ⟨hvalid.1, hvalid.2.1, hvalid.2.2, hzero⟩

namespace RatioBound

variable {bound : F64}

theorem negative (h : RatioBound bound) : bound.negative = false := by
  have hle := (Ieee.le_iff_of_finite (by decide) h.finite).mp h.nonneg
  by_contra hnegative
  rw [Bool.not_eq_false] at hnegative
  rw [← not_lt, Ieee.toRat_lt_toRat, not_lt] at hle
  have hzero : (bound.magnitude : ℕ) = 0 := by
    have hkey : (0 : ℤ) ≤ -((bound.magnitude : ℕ) : ℤ) := by
      simpa [Ieee.key, Ieee.zero, hnegative] using hle
    omega
  exact h.ne_negativeZero (Ieee.ext hnegative (Fin.ext hzero))

theorem magnitude_le (h : RatioBound bound) : (bound.magnitude : ℕ) ≤ 1023 * 2 ^ 52 := by
  have hle := h.le_one
  rw [ofRat_one, Ieee.le_iff_of_finite h.finite (by decide), ← not_lt, Ieee.toRat_lt_toRat,
    not_lt] at hle
  have hkey : ((bound.magnitude : ℕ) : ℤ) ≤ ((1023 * 2 ^ 52 : ℕ) : ℤ) := by
    simpa [Ieee.key, h.negative] using hle
  exact_mod_cast hkey

theorem toBits_eq (h : RatioBound bound) : bound.toBits = bound.magnitude := by
  simp [Ieee.toBits, h.negative]

theorem toRat_eq (h : RatioBound bound) :
    bound.toRat = units 52 bound.magnitude * unit 11 52 := by
  simp [Ieee.toRat, h.negative]

end RatioBound

/-! ## The parts of a bound -/

/-- The exponent field of a bound. -/
def boundExponent (bound : F64) : ℕ := bound.toBits / 2 ^ 52 % 2 ^ 11

/-- The fraction of a bound with its leading bit. -/
def boundSignificand (bound : F64) : ℕ := 2 ^ 52 + bound.toBits % 2 ^ 52

/-- The power of two under the significand, as the 32-bit word it is cast to. -/
def boundShift (bound : F64) : ℕ := ((1075 - (boundExponent bound : ℤ)) % 2 ^ 32).toNat

/-- The factors of two that the significand and its denominator share. -/
def boundCancelled (bound : F64) : ℕ := min (trailingZeros (boundSignificand bound)) (boundShift bound)

/-- The numerator of a bound in lowest terms. -/
def boundNumerator (bound : F64) : ℕ := boundSignificand bound / 2 ^ boundCancelled bound

/-- The power of two under a bound in lowest terms. -/
def boundDenominatorShift (bound : F64) : ℕ := boundShift bound - boundCancelled bound

/-- A bound strictly between zero and one, with an exponent of its own. -/
structure NormalBound (bound : F64) : Prop extends RatioBound bound where
  lt_one : (bound.magnitude : ℕ) < 1023 * 2 ^ 52
  exponent_ne : boundExponent bound ≠ 0

namespace NormalBound

variable {bound : F64}

theorem exponent_eq (h : NormalBound bound) :
    boundExponent bound = (bound.magnitude : ℕ) / 2 ^ 52 := by
  rw [boundExponent, h.toBits_eq, Nat.mod_eq_of_lt]
  have hlt := h.lt_one
  omega

theorem exponent_range (h : NormalBound bound) :
    1 ≤ boundExponent bound ∧ boundExponent bound ≤ 1022 := by
  have hne := h.exponent_ne
  have hlt := h.lt_one
  have heq := h.exponent_eq
  omega

theorem shift_eq (h : NormalBound bound) : boundShift bound = 1075 - boundExponent bound := by
  have hrange := h.exponent_range
  rw [boundShift]
  omega

theorem significand_lt (bound : F64) : boundSignificand bound < 2 ^ 53 := by
  rw [boundSignificand]
  omega

theorem significand_eq (bound : F64) :
    boundSignificand bound = boundNumerator bound * 2 ^ boundCancelled bound := by
  refine (Nat.div_mul_cancel (dvd_trans ?_ (two_pow_trailingZeros_dvd _))).symm
  exact pow_dvd_pow 2 (min_le_left _ _)

theorem numerator_lt (bound : F64) : boundNumerator bound < 2 ^ 53 :=
  (Nat.div_le_self _ _).trans_lt (significand_lt bound)

/-- The value of a bound is the fraction the comparison takes it for. -/
theorem toRat_eq (h : NormalBound bound) :
    bound.toRat = boundNumerator bound / 2 ^ boundDenominatorShift bound := by
  obtain ⟨hlow, hhigh⟩ := h.exponent_range
  have hnot : ¬((bound.magnitude : ℕ) < 2 ^ 52) := by
    have heq := h.exponent_eq
    omega
  have hunits : units 52 bound.magnitude =
      boundSignificand bound * 2 ^ (boundExponent bound - 1) := by
    rw [units, if_neg hnot, ← h.exponent_eq, boundSignificand, h.toBits_eq]
  have hshift : boundDenominatorShift bound + boundCancelled bound = boundShift bound :=
    Nat.sub_add_cancel (min_le_right _ _)
  have hexponent : boundCancelled bound + (boundExponent bound - 1) +
      boundDenominatorShift bound = 1074 := by
    rw [h.shift_eq] at hshift
    omega
  rw [h.toRatioBound.toRat_eq, hunits, significand_eq, eq_div_iff (by positivity)]
  calc ((boundNumerator bound * 2 ^ boundCancelled bound * 2 ^ (boundExponent bound - 1) : ℕ) : ℚ) *
        unit 11 52 * 2 ^ boundDenominatorShift bound
      = boundNumerator bound * (((2 ^ (boundCancelled bound + (boundExponent bound - 1) +
          boundDenominatorShift bound) : ℕ) : ℚ) * unit 11 52) := by
        rw [pow_add, pow_add]
        push_cast
        ring
    _ = boundNumerator bound := by rw [hexponent, two_pow_mul_unit, mul_one]

end NormalBound

/-! ## The comparison -/

theorem compareFractionToBound_eq {numerator denominator : ℕ} {bound : F64}
    (hdenominator : denominator ≠ 0) (hlow : bound.le (.zero false) = false)
    (hhigh : bound.ge (Ieee.ofInt 1) = false) :
    compareFractionToBound numerator denominator bound =
      (let extreme := if numerator = 0 then Ordering.lt else .gt
      if boundExponent bound = 0 then extreme
      else if 128 ≤ boundDenominatorShift bound then extreme
      else if 2 ^ 128 ≤ numerator * 2 ^ boundDenominatorShift bound then .gt
      else compare (numerator * 2 ^ boundDenominatorShift bound)
        (denominator * boundNumerator bound)) := by
  rw [compareFractionToBound, if_neg hdenominator, if_neg (by rw [hlow]; decide),
    if_neg (by rw [hhigh]; decide)]
  rfl

/-- A bound too small for a 64-bit denominator is only met by zero. -/
theorem extreme_eq {numerator denominator : ℕ} {value : ℚ} (hdenominator : denominator < 2 ^ 64)
    (hpositive : denominator ≠ 0) (hvalue : 0 < value) (hsmall : value * 2 ^ 64 ≤ 1) :
    (if numerator = 0 then Ordering.lt else .gt) =
      compare ((numerator : ℚ) / denominator) value := by
  by_cases hzero : numerator = 0
  · rw [if_pos hzero, hzero, Nat.cast_zero, zero_div, compare_lt_iff_lt.mpr hvalue]
  · rw [if_neg hzero]
    refine (compare_gt_iff_gt.mpr ?_).symm
    have hpos : (0 : ℚ) < denominator := by exact_mod_cast Nat.pos_of_ne_zero hpositive
    have hlt : (denominator : ℚ) < 2 ^ 64 := by exact_mod_cast hdenominator
    have hone : (1 : ℚ) ≤ numerator := by exact_mod_cast Nat.one_le_iff_ne_zero.mpr hzero
    rw [lt_div_iff₀ hpos]
    calc value * denominator < value * 2 ^ 64 := by gcongr
      _ ≤ 1 := hsmall
      _ ≤ numerator := hone

/-- Multiplying out compares the fractions. -/
theorem compare_cross {numerator denominator significand shift : ℕ} (hpositive : denominator ≠ 0) :
    compare (numerator * 2 ^ shift) (denominator * significand) =
      compare ((numerator : ℚ) / denominator) (significand / 2 ^ shift) := by
  have hpos : (0 : ℚ) < denominator := by exact_mod_cast Nat.pos_of_ne_zero hpositive
  have hpow : (0 : ℚ) < 2 ^ shift := by positivity
  refine compare_congr ?_ ?_
  · rw [div_lt_div_iff₀ hpos hpow, mul_comm (significand : ℚ)]
    exact_mod_cast Iff.rfl
  · rw [div_lt_div_iff₀ hpow hpos, mul_comm (significand : ℚ)]
    exact_mod_cast Iff.rfl

/-- The right product stays far inside the word. -/
theorem denominator_mul_lt {denominator : ℕ} (hdenominator : denominator < 2 ^ 64) (bound : F64) :
    denominator * boundNumerator bound < 2 ^ 117 :=
  calc denominator * boundNumerator bound
      ≤ denominator * 2 ^ 53 := by gcongr; exact (NormalBound.numerator_lt bound).le
    _ < 2 ^ 64 * 2 ^ 53 := by gcongr
    _ = 2 ^ 117 := by norm_num

/-- The shift of a significand stays inside its 64-bit word. -/
theorem boundCancelled_lt (bound : F64) : boundCancelled bound < 64 := by
  have hpos : 0 < boundSignificand bound := by
    rw [boundSignificand]
    positivity
  have hle : 2 ^ boundCancelled bound ≤ boundSignificand bound :=
    Nat.le_of_dvd hpos ((pow_dvd_pow 2 (min_le_left _ _)).trans (two_pow_trailingZeros_dvd _))
  have hlt := hle.trans_lt (NormalBound.significand_lt bound)
  have hcancelled := (Nat.pow_lt_pow_iff_right (by decide)).mp hlt
  omega

namespace RatioBound

variable {bound : F64}

theorem compare_zero (h : RatioBound bound) :
    (Ieee.zero false).totalCmp bound = compare 0 bound.toRat := by
  have hkey := Ieee.compare_key (Ieee.zero false) bound
  have hzero : (Ieee.zero false : F64).toRat = 0 := by simp [Ieee.toRat, Ieee.zero]
  rw [hzero] at hkey
  rw [← hkey]
  simp [Ieee.totalCmp, Ieee.totalKey, Ieee.key, h.negative, Ieee.zero]

theorem toRat_nonneg (h : RatioBound bound) : 0 ≤ bound.toRat := by
  rw [h.toRat_eq]
  have hunit := @unit_pos 11 52
  positivity

/-- A subnormal bound is too small for a 64-bit denominator. -/
theorem subnormal_small (h : RatioBound bound) (hone : (bound.magnitude : ℕ) < 1023 * 2 ^ 52)
    (hexponent : boundExponent bound = 0) : bound.toRat * 2 ^ 64 ≤ 1 := by
  have hlt : (bound.magnitude : ℕ) < 2 ^ 52 := by
    rw [boundExponent, h.toBits_eq] at hexponent
    omega
  rw [h.toRat_eq, units_of_lt hlt, unit_eq]
  have hmagnitude : ((bound.magnitude : ℕ) : ℚ) ≤ 2 ^ (52 : ℤ) := by
    exact_mod_cast hlt.le
  calc ((bound.magnitude : ℕ) : ℚ) * 2 ^ (-1074 : ℤ) * 2 ^ 64
      ≤ 2 ^ (52 : ℤ) * 2 ^ (-1074 : ℤ) * 2 ^ 64 := by
        have hunit : (0 : ℚ) ≤ 2 ^ (-1074 : ℤ) := zpow_nonneg (by norm_num) _
        gcongr
    _ = (2 : ℚ) ^ (52 : ℤ) * 2 ^ (-1074 : ℤ) * 2 ^ (64 : ℤ) := by norm_cast
    _ = (2 : ℚ) ^ (-958 : ℤ) := by
        rw [← zpow_add₀ (by norm_num), ← zpow_add₀ (by norm_num)]
        norm_num
    _ ≤ 1 := zpow_le_one_of_nonpos₀ (by norm_num) (by norm_num)

/-- The order of a ratio and a bound is the order of the rationals. -/
theorem compareFractionToBound_eq_compare (h : RatioBound bound) (numerator : ℕ) {denominator : ℕ}
    (hdenominator : denominator < 2 ^ 64) :
    compareFractionToBound numerator denominator bound =
      compare ((numerator : ℚ) / denominator) bound.toRat := by
  by_cases hpositive : denominator = 0
  · rw [compareFractionToBound, if_pos hpositive, hpositive, Nat.cast_zero, div_zero,
      h.compare_zero]
  have hpos : (0 : ℚ) < denominator := by exact_mod_cast Nat.pos_of_ne_zero hpositive
  -- bounds of zero and one are compared without multiplying
  by_cases hlow : bound.le (.zero false) = true
  · have hzero : bound.toRat = 0 := by
      rw [Ieee.le_iff_of_finite h.finite (by decide)] at hlow
      refine le_antisymm (hlow.trans_eq ?_) h.toRat_nonneg
      simp [Ieee.toRat, Ieee.zero]
    rw [compareFractionToBound, if_neg hpositive, if_pos hlow, hzero]
    refine compare_congr ?_ ?_
    · exact iff_of_false (Nat.not_lt_zero _) (not_lt.mpr (by positivity))
    · rw [lt_div_iff₀ hpos, zero_mul, Nat.cast_pos]
  by_cases hhigh : bound.ge (Ieee.ofInt 1) = true
  · have hone : bound.toRat = 1 := by
      rw [ofInt_one, Ieee.ge_iff_of_finite h.finite isFinite_one, toRat_one] at hhigh
      have hle := (Ieee.le_iff_of_finite h.finite isFinite_one).mp h.le_one
      rw [toRat_one] at hle
      exact le_antisymm hle hhigh
    rw [compareFractionToBound, if_neg hpositive, if_neg hlow, if_pos hhigh, hone]
    refine compare_congr ?_ ?_
    · rw [div_lt_one hpos, Nat.cast_lt]
    · rw [one_lt_div hpos, Nat.cast_lt]
  rw [compareFractionToBound_eq hpositive (Bool.not_eq_true _ ▸ hlow)
    (Bool.not_eq_true _ ▸ hhigh)]
  have hvalue : 0 < bound.toRat := by
    by_contra hle
    refine hlow ((Ieee.le_iff_of_finite h.finite (by decide)).mpr ((not_lt.mp hle).trans_eq ?_))
    simp [Ieee.toRat, Ieee.zero]
  have hone : (bound.magnitude : ℕ) < 1023 * 2 ^ 52 := by
    refine lt_of_le_of_ne h.magnitude_le fun heq => hhigh ?_
    rw [ofInt_one, Ieee.ge_iff_of_finite h.finite isFinite_one, ofRat_one]
    exact le_of_eq (congrArg Ieee.toRat (Ieee.ext h.negative.symm (Fin.ext heq.symm)))
  dsimp only
  by_cases hexponent : boundExponent bound = 0
  · rw [if_pos hexponent]
    exact extreme_eq hdenominator hpositive hvalue (h.subnormal_small hone hexponent)
  have hnormal : NormalBound bound := ⟨h, hone, hexponent⟩
  rw [if_neg hexponent, hnormal.toRat_eq]
  -- a shift that 128 bits do not take leaves the bound below every ratio but zero
  by_cases hshift : 128 ≤ boundDenominatorShift bound
  · rw [if_pos hshift, ← hnormal.toRat_eq]
    refine extreme_eq hdenominator hpositive hvalue ?_
    rw [hnormal.toRat_eq, div_mul_eq_mul_div, div_le_one (by positivity)]
    have hnumerator : boundNumerator bound < 2 ^ 53 := NormalBound.numerator_lt bound
    calc (boundNumerator bound : ℚ) * 2 ^ 64 ≤ 2 ^ 53 * 2 ^ 64 := by
          gcongr
          exact_mod_cast hnumerator.le
      _ ≤ 2 ^ 128 := by norm_num
      _ ≤ 2 ^ boundDenominatorShift bound := by gcongr; norm_num
  rw [if_neg hshift]
  by_cases hleft : 2 ^ 128 ≤ numerator * 2 ^ boundDenominatorShift bound
  · rw [if_pos hleft, ← compare_cross hpositive]
    refine (compare_gt_iff_gt.mpr ?_).symm
    exact (denominator_mul_lt hdenominator bound).trans (lt_of_lt_of_le (by norm_num) hleft)
  · rw [if_neg hleft]
    exact compare_cross hpositive

end RatioBound

/-! ## The rules -/

theorem validateRatioBound_iff {path name : String} {bound : F64} :
    ContractAstV2.validateRatioBound path (name, some bound) = .ok () ↔
      bound.isFinite = true ∧ 0 ≤ bound.toRat ∧ bound.toRat ≤ 1 := by
  have hzero : (Ieee.zero false : F64).toRat = 0 := by simp [Ieee.toRat, Ieee.zero]
  have hvalid : ContractAstV2.validateRatioBound path (name, some bound) = .ok () ↔
      bound.isFinite = true ∧ (Ieee.zero false).le bound = true ∧
        bound.le (Ieee.ofRat 1 false) = true := by
    refine rejectIf_eq_ok.trans ?_
    simp [not_or]
  rw [hvalid]
  refine and_congr_right fun hfinite => ?_
  rw [Ieee.le_iff_of_finite (by decide) hfinite, Ieee.le_iff_of_finite hfinite isFinite_one,
    toRat_one, hzero]

/-- No step of the comparison leaves its machine word. -/
structure FractionFits (denominator : ℕ) (bound : F64) : Prop where
  shift : (boundShift bound : ℤ) = 1075 - boundExponent bound
  cancelled : boundCancelled bound < 64
  product : denominator * boundNumerator bound < 2 ^ 128

theorem RatioBound.fractionFits {bound : F64} (h : RatioBound bound) {denominator : ℕ}
    (hdenominator : denominator < 2 ^ 64) : FractionFits denominator bound where
  shift := by
    have hle := h.magnitude_le
    have hexponent : boundExponent bound ≤ 1023 := by
      rw [boundExponent, h.toBits_eq]
      omega
    rw [boundShift]
    omega
  cancelled := boundCancelled_lt bound
  product := (denominator_mul_lt hdenominator bound).trans (by norm_num)

/-- A ratio is inside its range. -/
def RatioRangeAst.Holds (range : RatioRangeAst) (ratio : ℚ) : Prop :=
  (∀ min ∈ range.min, min.toRat ≤ ratio) ∧ ∀ max ∈ range.max, ratio ≤ max.toRat

/-- No bound is negative zero. -/
def RatioRangeAst.Unsigned (range : RatioRangeAst) : Prop :=
  ∀ bound, range.min = some bound ∨ range.max = some bound → bound ≠ Ieee.zero true

theorem ratioBound_of_validateRatio {range : RatioRangeAst} {path : String}
    (hvalid : ContractAstV2.validateRatio range path = .ok ()) {bound : F64}
    (hbound : range.min = some bound ∨ range.max = some bound) (hzero : bound ≠ Ieee.zero true) :
    RatioBound bound := by
  obtain ⟨_, hbounds, _⟩ := bind_eq_ok.mp hvalid
  have hall := forM_eq_ok.mp hbounds
  rcases hbound with hmin | hmax
  · refine @ratioBound_of_validate path "min" _ ?_ hzero
    rw [← hmin]
    exact hall _ (by simp)
  · refine @ratioBound_of_validate path "max" _ ?_ hzero
    rw [← hmax]
    exact hall _ (by simp)

theorem contains_iff {range : RatioRangeAst} {path : String}
    (hvalid : ContractAstV2.validateRatio range path = .ok ()) (hunsigned : range.Unsigned)
    (numerator : ℕ) {denominator : ℕ} (hdenominator : denominator < 2 ^ 64) :
    range.contains numerator denominator = true ↔ range.Holds (numerator / denominator) := by
  have hbound {bound : F64} (hbound : range.min = some bound ∨ range.max = some bound) :=
    ratioBound_of_validateRatio hvalid hbound (hunsigned bound hbound)
  rw [RatioRangeAst.contains, Bool.and_eq_true, Option.all_eq_true, Option.all_eq_true]
  refine and_congr ?_ ?_
  · refine forall₂_congr fun min hmin => ?_
    rw [(hbound (.inl hmin)).compareFractionToBound_eq_compare numerator hdenominator,
      decide_eq_true_iff, ne_eq, compare_lt_iff_lt, not_lt]
  · refine forall₂_congr fun max hmax => ?_
    rw [(hbound (.inr hmax)).compareFractionToBound_eq_compare numerator hdenominator,
      decide_eq_true_iff, ne_eq, compare_gt_iff_gt, not_lt]

theorem nullRatioFindings_eq_nil {rows nulls : ℕ} {ratio : RatioPlan} :
    nullRatioFindings rows ratio nulls = [] ↔ ratio.range.contains nulls rows = true := by
  rw [nullRatioFindings]
  split <;> simp [*]

theorem DistinctState.exists_ratio_finding {X : Type} {state : DistinctState X}
    {range : RatioRangeAst} (hrange : state.ratioRange = some range) (rows exactDistinct : ℕ) :
    (∃ finding ∈ state.findings rows exactDistinct, finding.rule = "distinct_ratio") ↔
      range.contains (exactDistinct + if state.sawNull then 1 else 0) rows = false := by
  rw [findings, hrange]
  generalize (exactDistinct + if state.sawNull = true then 1 else 0) = distinct
  constructor
  · rintro ⟨finding, hmem, hrule⟩
    rcases List.mem_append.mp hmem with hcount | hratio
    · split at hcount
      · exact absurd hcount List.not_mem_nil
      · split at hcount
        · exact absurd hcount List.not_mem_nil
        · rw [List.mem_singleton.mp hcount] at hrule
          have hname : ¬"distinct_count" = "distinct_ratio" := by decide
          exact absurd hrule hname
    · by_contra hcontains
      rw [Bool.not_eq_false] at hcontains
      simp [hcontains] at hratio
  · intro hcontains
    simp only [hcontains]
    exact ⟨⟨"distinct_ratio", state.column, none, "Exact distinct ratio `" ++
      (shownRatio distinct rows).display ++ "` is outside the contract range"⟩,
      List.mem_append_right _ (List.mem_singleton_self _), rfl⟩

/-- A ratio is compared with an admitted bound as the rational it is, inside its machine
words, and a ratio rule is broken by exactly the ratios outside its range. -/
theorem compareFractionToBound_exact (numerator denominator : ℕ)
    (hdenominator : denominator < 2 ^ 64) :
    (∀ path name bound,
      (ContractAstV2.validateRatioBound path (name, some bound) = .ok () ↔
        bound.isFinite = true ∧ 0 ≤ bound.toRat ∧ bound.toRat ≤ 1) ∧
      (ContractAstV2.validateRatioBound path (name, some bound) = .ok () →
        bound ≠ Ieee.zero true →
          compareFractionToBound numerator denominator bound =
            compare ((numerator : ℚ) / denominator) bound.toRat ∧
          FractionFits denominator bound)) ∧
    ∀ path range, ContractAstV2.validateRatio range path = .ok () → range.Unsigned →
      (∀ plan : RatioPlan, plan.range = range →
        (nullRatioFindings denominator plan numerator = [] ↔
          range.Holds ((numerator : ℚ) / denominator))) ∧
      ∀ (X : Type) (state : DistinctState X) (exactDistinct : ℕ), state.ratioRange = some range →
        numerator = exactDistinct + (if state.sawNull then 1 else 0) →
        ((∃ finding ∈ state.findings denominator exactDistinct,
            finding.rule = "distinct_ratio") ↔
          ¬range.Holds ((numerator : ℚ) / denominator)) := by
  refine ⟨fun path name bound => ⟨validateRatioBound_iff, fun hvalid hzero => ?_⟩,
    fun path range hvalid hunsigned => ⟨?_, ?_⟩⟩
  · have hbound := ratioBound_of_validate hvalid hzero
    exact ⟨hbound.compareFractionToBound_eq_compare numerator hdenominator,
      hbound.fractionFits hdenominator⟩
  · rintro plan rfl
    rw [nullRatioFindings_eq_nil, contains_iff hvalid hunsigned numerator hdenominator]
  · rintro X state exactDistinct hrange rfl
    rw [state.exists_ratio_finding hrange, ← Bool.not_eq_true,
      contains_iff hvalid hunsigned _ hdenominator]

/-- One half. -/
def half : F64 := ⟨false, 1022 * 2 ^ 52, by norm_num⟩

theorem compareFractionToBound_exact_half :
    compareFractionToBound (2 ^ 63) (2 ^ 64 - 1) half =
      compare (((2 ^ 63 : ℕ) : ℚ) / (2 ^ 64 - 1 : ℕ)) half.toRat ∧
    (nullRatioFindings (2 ^ 64 - 1) ⟨0, "value", ⟨none, some half⟩, .i64⟩ (2 ^ 63) = [] ↔
      RatioRangeAst.Holds ⟨none, some half⟩ (((2 ^ 63 : ℕ) : ℚ) / (2 ^ 64 - 1 : ℕ))) := by
  have hexact := compareFractionToBound_exact (2 ^ 63) (2 ^ 64 - 1) (by norm_num)
  have hone : half.le (Ieee.ofRat 1 false) = true := by
    rw [ofRat_one]
    decide
  have hbound (path name : String) :
      ContractAstV2.validateRatioBound path (name, some half) = .ok () := by
    refine rejectIf_eq_ok.mpr ?_
    rw [Option.any_some, hone]
    decide
  have hrange : ContractAstV2.validateRatio ⟨none, some half⟩ "$" = .ok () := by
    refine bind_eq_ok.mpr ⟨(), forM_eq_ok.mpr ?_, rfl⟩
    intro bound hmem
    simp only [List.mem_cons, List.not_mem_nil, or_false] at hmem
    rcases hmem with rfl | rfl
    · rfl
    · exact hbound _ _
  have hunsigned : RatioRangeAst.Unsigned ⟨none, some half⟩ := by
    rintro bound (hmin | hmax)
    · exact absurd hmin (by simp)
    · rw [← Option.some.inj hmax]
      decide
  exact ⟨((hexact.1 "$" "max" half).2 (hbound _ _) (by decide)).1,
    (hexact.2 "$" _ hrange hunsigned).1 _ rfl⟩

end ProofFrame
