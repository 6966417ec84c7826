import ProofFrame.Lib.Ieee754.Double

/-!
# Words that are no finite numbers

How infinities and NaN go through a sum, a quotient and a square root of doubles,
and which sums of finite words are finite again.
-/

namespace ProofFrame.Lib.Ieee754

namespace Ieee

variable {x y : F64}

/-! ## Classes -/

@[simp] theorem isNaN_nan : (nan : F64).isNaN = true := by decide

@[simp] theorem isFinite_nan : (nan : F64).isFinite = false := by decide

theorem isInfinite_or_isNaN (h : x.isFinite = false) : x.isInfinite = true ∨ x.isNaN = true := by
  simp only [isFinite, isInfinite, isNaN, decide_eq_false_iff_not, decide_eq_true_iff] at *
  omega

theorem isFinite_of_isInfinite (h : x.isInfinite = true) : x.isFinite = false := by
  simp only [isFinite, isInfinite, decide_eq_false_iff_not, decide_eq_true_iff] at *
  omega

theorem isFinite_of_isNaN (h : x.isNaN = true) : x.isFinite = false := by
  simp only [isFinite, isNaN, decide_eq_false_iff_not, decide_eq_true_iff] at *
  omega

theorem isNaN_of_isInfinite (h : x.isInfinite = true) : x.isNaN = false := by
  simp only [isInfinite, isNaN, decide_eq_false_iff_not, decide_eq_true_iff] at *
  omega

theorem eq_infinity (h : x.isInfinite = true) : x = infinity x.negative :=
  Ieee.ext rfl (Fin.ext (of_decide_eq_true h))

@[simp] theorem isInfinite_infinity (negative : Bool) :
    (infinity negative : F64).isInfinite = true := decide_eq_true rfl

@[simp] theorem isFinite_neg : x.neg.isFinite = x.isFinite := rfl

@[simp] theorem isInfinite_neg : x.neg.isInfinite = x.isInfinite := rfl

@[simp] theorem isNaN_neg : x.neg.isNaN = x.isNaN := rfl

@[simp] theorem negative_neg : x.neg.negative = !x.negative := rfl

@[simp] theorem toRat_neg : x.neg.toRat = -x.toRat := by
  unfold toRat neg
  cases x.negative <;> simp

/-- The magnitudes of two words that are numbers are ordered as their values. -/
theorem isFinite_of_abs_le (hy : y.isFinite = true) (h : |x.toRat| ≤ |y.toRat|) :
    x.isFinite = true := by
  rw [← toRat_abs, ← toRat_abs, ← not_lt, toRat_lt_toRat, not_lt] at h
  have hkey : ((x.magnitude : ℕ) : ℤ) ≤ (y.magnitude : ℕ) := h
  have hlt : (y.magnitude : ℕ) < infinityIndex 11 52 := of_decide_eq_true hy
  exact decide_eq_true (by omega)

/-! ## Sums -/

theorem add_symm (x y : F64) : x.add y = y.add x := by
  unfold add
  rw [Bool.or_comm, Bool.and_comm x.negative, add_comm x.toRat]
  cases hx : x.isInfinite <;> cases hy : y.isInfinite <;> simp
  rw [eq_infinity hx, eq_infinity hy]
  cases x.negative <;> cases y.negative <;> rfl

@[simp] theorem isNaN_add_left (h : x.isNaN = true) : (x.add y).isNaN = true := by
  rw [add, h, Bool.true_or, if_pos rfl]
  exact isNaN_nan

@[simp] theorem isNaN_add_right (h : y.isNaN = true) : (x.add y).isNaN = true := by
  rw [add_symm]
  exact isNaN_add_left h

theorem isNaN_add_of_opposite (hx : x.isInfinite = true) (hy : y.isInfinite = true)
    (h : x.negative ≠ y.negative) : (x.add y).isNaN = true := by
  have hsign : (x.negative != y.negative) = true := bne_iff_ne.mpr h
  rw [add, isNaN_of_isInfinite hx, isNaN_of_isInfinite hy, if_neg (by decide), if_pos hx, hy, hsign,
    Bool.true_and, if_pos rfl]
  exact isNaN_nan

/-- An infinity swallows what is added to it. -/
theorem add_eq_of_isInfinite (hx : x.isInfinite = true) (h : (x.add y).isNaN = false) :
    x.add y = x := by
  have hnan : y.isNaN = false := by
    by_contra hnan
    rw [isNaN_add_right (Bool.not_eq_false _ ▸ hnan)] at h
    cases h
  rw [add, isNaN_of_isInfinite hx, hnan, if_neg (by decide), if_pos hx] at h ⊢
  split at h
  · rw [isNaN_nan] at h
    cases h
  · rw [if_neg ‹_›]

theorem isNaN_or_add_eq (x : F64) (hy : y.isInfinite = true) :
    (x.add y).isNaN = true ∨ x.add y = y := by
  by_cases hnan : (x.add y).isNaN = true
  · exact .inl hnan
  · rw [add_symm] at hnan ⊢
    exact .inr (add_eq_of_isInfinite hy (Bool.not_eq_true _ ▸ hnan))

/-- Only finite words have a finite sum. -/
theorem isFinite_left_of_add (h : (x.add y).isFinite = true) : x.isFinite = true := by
  by_contra hx
  have hnan := isNaN_of_isFinite h
  rcases isInfinite_or_isNaN (Bool.not_eq_true _ ▸ hx) with hinfinite | hx
  · rw [add_eq_of_isInfinite hinfinite hnan] at h
    exact hx h
  · rw [isNaN_add_left hx] at hnan
    cases hnan

theorem isFinite_right_of_add (h : (x.add y).isFinite = true) : y.isFinite = true := by
  rw [add_symm] at h
  exact isFinite_left_of_add h

/-- A sum of a finite word with one that is not NaN is not NaN. -/
theorem isNaN_add_of_isFinite (hx : x.isFinite = true) (hy : y.isNaN = false) :
    (x.add y).isNaN = false := by
  rw [add, isNaN_of_isFinite hx, hy, if_neg (by decide), isInfinite_of_isFinite hx,
    if_neg (by decide)]
  split
  · exact hy
  · exact isNaN_ofRat _ _

theorem toRat_add (hx : x.isFinite = true) (hy : y.isFinite = true) :
    (x.add y).toRat = nearestFloat (x.toRat + y.toRat) := by
  rw [add_of_finite hx hy, toRat_ofRat]

theorem toRat_sub (hx : x.isFinite = true) (hy : y.isFinite = true) :
    (x.sub y).toRat = nearestFloat (x.toRat - y.toRat) := by
  rw [sub, @toRat_add _ y.neg hx hy, toRat_neg, sub_eq_add_neg]

/-! ## Rounding -/

theorem nearestFloat_toRat (hx : x.isFinite = true) : nearestFloat x.toRat = x.toRat :=
  (Represents.isDouble ⟨hx, rfl⟩).2

theorem nearestFloat_zero : nearestFloat 0 = 0 := (represents_zero false).isDouble.2

theorem nearestFloat_nonneg {q : ℚ} (h : 0 ≤ q) : 0 ≤ nearestFloat q := by
  have hmono := nearestFloat_mono h
  rwa [nearestFloat_zero] at hmono

theorem nearestFloat_nonpos {q : ℚ} (h : q ≤ 0) : nearestFloat q ≤ 0 := by
  have hmono := nearestFloat_mono h
  rwa [nearestFloat_zero] at hmono

/-- Values of opposite signs add up to less than the larger of them. -/
theorem abs_add_le_max {p q : ℚ} (h : p ≤ 0 ∧ 0 ≤ q ∨ 0 ≤ p ∧ q ≤ 0) : |p + q| ≤ max |p| |q| := by
  rcases h with ⟨hp, hq⟩ | ⟨hp, hq⟩
  · rw [abs_of_nonpos hp, abs_of_nonneg hq, abs_le]
    constructor
    · linarith [le_max_left (-p) q]
    · linarith [le_max_right (-p) q]
  · rw [abs_of_nonneg hp, abs_of_nonpos hq, abs_le]
    constructor
    · linarith [le_max_right p (-q)]
    · linarith [le_max_left p (-q)]

theorem abs_nearestFloat_le (hx : x.isFinite = true) {q : ℚ} (h : |q| ≤ |x.toRat|) :
    |nearestFloat q| ≤ |x.toRat| := by
  have habs : nearestFloat |x.toRat| = |x.toRat| := by
    rw [← toRat_abs]
    exact nearestFloat_toRat hx
  have hneg : nearestFloat (-|x.toRat|) = -|x.toRat| := by
    rw [← toRat_abs, ← toRat_neg]
    exact nearestFloat_toRat hx
  rw [abs_le] at h ⊢
  exact ⟨hneg.symm.trans_le (nearestFloat_mono h.1), (nearestFloat_mono h.2).trans_eq habs⟩

/-- Finite words of opposite signs have a finite sum. -/
theorem isFinite_add_of_opposite (hx : x.isFinite = true) (hy : y.isFinite = true)
    (h : x.toRat ≤ 0 ∧ 0 ≤ y.toRat ∨ 0 ≤ x.toRat ∧ y.toRat ≤ 0) : (x.add y).isFinite = true := by
  have hle := abs_add_le_max h
  rcases le_total |x.toRat| |y.toRat| with hmax | hmax
  · rw [max_eq_right hmax] at hle
    refine isFinite_of_abs_le hy ?_
    rw [toRat_add hx hy]
    exact abs_nearestFloat_le hy hle
  · rw [max_eq_left hmax] at hle
    refine isFinite_of_abs_le hx ?_
    rw [toRat_add hx hy]
    exact abs_nearestFloat_le hx hle

/-- What a rounded sum has lost of the smaller summand is a finite word again. -/
theorem isFinite_lost (hx : x.isFinite = true) (hy : y.isFinite = true)
    (hsum : (x.add y).isFinite = true) (hle : |y.toRat| ≤ |x.toRat|) :
    ((x.sub (x.add y)).add y).isFinite = true := by
  have hnext := toRat_add hx hy
  have hself := nearestFloat_toRat hx
  rw [abs_le] at hle
  have hsub : (x.sub (x.add y)).isFinite = true ∧
      (x.sub (x.add y)).toRat = nearestFloat (x.toRat - (x.add y).toRat) := by
    -- the sum has the sign of the larger summand
    have hfinite : (x.sub (x.add y)).isFinite = true := by
      refine isFinite_add_of_opposite hx hsum ?_
      rw [toRat_neg, hnext]
      rcases le_total 0 x.toRat with hsign | hsign
      · rw [abs_of_nonneg hsign] at hle
        exact .inr ⟨hsign, neg_nonpos.mpr (nearestFloat_nonneg (by linarith))⟩
      · rw [abs_of_nonpos hsign] at hle
        exact .inl ⟨hsign, neg_nonneg.mpr (nearestFloat_nonpos (by linarith))⟩
    exact ⟨hfinite, toRat_sub hx hsum⟩
  refine isFinite_add_of_opposite hsub.1 hy ?_
  rw [hsub.2, hnext]
  -- it lies on the side of the larger summand that the smaller one points to
  rcases le_total 0 y.toRat with hsign | hsign
  · refine .inl ⟨nearestFloat_nonpos (sub_nonpos.mpr ?_), hsign⟩
    exact hself.symm.trans_le (nearestFloat_mono (by linarith))
  · refine .inr ⟨nearestFloat_nonneg (sub_nonneg.mpr ?_), hsign⟩
    exact (nearestFloat_mono (by linarith)).trans_eq hself

/-! ## Products and quotients -/

@[simp] theorem isNaN_mul_left (h : x.isNaN = true) : (x.mul y).isNaN = true := by
  rw [mul, h, Bool.true_or, if_pos rfl]
  exact isNaN_nan

@[simp] theorem isNaN_mul_right (h : y.isNaN = true) : (x.mul y).isNaN = true := by
  rw [mul, h, Bool.or_true, if_pos rfl]
  exact isNaN_nan

theorem magnitude_ne_zero (h : x.isInfinite = true) : (x.magnitude : ℕ) ≠ 0 := by
  rw [show (x.magnitude : ℕ) = infinityIndex 11 52 from of_decide_eq_true h]
  decide

theorem mul_infinities (hx : x.isInfinite = true) (hy : y.isInfinite = true) :
    x.mul y = infinity (x.negative != y.negative) := by
  rw [mul, isNaN_of_isInfinite hx, isNaN_of_isInfinite hy, hx, if_neg (by decide),
    if_pos (Bool.true_or _), decide_eq_false (magnitude_ne_zero hx),
    decide_eq_false (magnitude_ne_zero hy)]
  rfl

theorem mul_of_finite (hx : x.isFinite = true) (hy : y.isFinite = true) :
    x.mul y = ofRat (x.toRat * y.toRat) (x.negative != y.negative) := by
  rw [mul, isNaN_of_isFinite hx, isNaN_of_isFinite hy, isInfinite_of_isFinite hx,
    isInfinite_of_isFinite hy]
  rfl

@[simp] theorem isNaN_div_left (h : x.isNaN = true) : (x.div y).isNaN = true := by
  rw [div, h, Bool.true_or, if_pos rfl]
  exact isNaN_nan

/-- A finite positive word. -/
structure Positive (y : F64) : Prop where
  finite : y.isFinite = true
  toRat_pos : 0 < y.toRat

namespace Positive

theorem magnitude_ne_zero (h : Positive y) : (y.magnitude : ℕ) ≠ 0 := by
  intro hzero
  have hpos := h.toRat_pos
  rw [toRat, hzero, units_zero] at hpos
  simp at hpos

theorem negative (h : Positive y) : y.negative = false := by
  by_contra hnegative
  rw [Bool.not_eq_false] at hnegative
  have hunit := @unit_pos 11 52
  have hpos := h.toRat_pos
  have hnonneg : (0 : ℚ) ≤ units 52 y.magnitude * unit 11 52 := by positivity
  rw [toRat, hnegative, if_pos rfl] at hpos
  linarith

theorem div_infinite (h : Positive y) (hx : x.isInfinite = true) : x.div y = x := by
  rw [div, isNaN_of_isInfinite hx, isNaN_of_isFinite h.finite, isInfinite_of_isFinite h.finite,
    if_neg (by decide), if_pos hx, if_neg (by decide), h.negative, Bool.bne_false]
  exact (eq_infinity hx).symm

theorem div_finite (h : Positive y) (hx : x.isFinite = true) :
    x.div y = ofRat (x.toRat / y.toRat) (x.negative != y.negative) := by
  rw [div, isNaN_of_isFinite hx, isNaN_of_isFinite h.finite, isInfinite_of_isFinite hx,
    isInfinite_of_isFinite h.finite, if_neg (by decide), if_neg (by decide), if_neg (by decide),
    if_neg h.magnitude_ne_zero]

/-- A quotient is NaN only if the dividend is. -/
theorem isNaN_div (h : Positive y) (hx : x.isNaN = false) : (x.div y).isNaN = false := by
  cases hfinite : x.isFinite with
  | true =>
      rw [h.div_finite hfinite]
      exact isNaN_ofRat _ _
  | false =>
      have hinfinite := (isInfinite_or_isNaN hfinite).resolve_right (by rw [hx]; decide)
      rw [h.div_infinite hinfinite]
      exact hx

end Positive

/-- The square root of a share of the negative infinity. -/
theorem isNaN_sqrt_div (h : Positive y) : (((infinity true).div y).sqrt).isNaN = true := by
  rw [h.div_infinite (isInfinite_infinity true)]
  decide

/-! ## Shares of a difference -/

theorem units_succ_le {n : ℕ} (h : n ≠ 0) : units 52 (n + 1) ≤ 2 * units 52 n := by
  by_cases hn : 2 ^ 52 ≤ n
  · obtain ⟨k, m, rfl, hlow, hhigh⟩ := @exists_binade 52 n hn
    rw [add_assoc, units_binade hlow hhigh.le, units_binade (by omega) (by omega), ← mul_assoc]
    exact Nat.mul_le_mul_right _ (by omega)
  · have hsucc : units 52 (n + 1) = n + 1 := by
      rcases (Nat.succ_le_of_lt (not_le.mp hn)).lt_or_eq with hlt | heq
      · exact units_of_lt hlt
      · have hpow := @units_binade 52 0 (2 ^ 52) le_rfl (by norm_num)
        rw [Nat.succ_eq_add_one] at heq
        rw [heq]
        simpa using hpow
    rw [hsucc, units_of_lt (not_le.mp hn)]
    omega

theorem nearestFloat_eq {q : ℚ} (h : 0 ≤ q) : nearestFloat (q * unit 11 52) =
    units 52 (min (roundIndex 52 q) (infinityIndex 11 52)) * unit 11 52 := by
  have hunit := @unit_pos 11 52
  have hnonneg : 0 ≤ q * unit 11 52 := by positivity
  rw [nearestFloat, toRat, ofRat, roundMagnitude, abs_of_nonneg hnonneg,
    mul_div_cancel_right₀ _ hunit.ne']
  simp [hnonneg.not_gt]

theorem nearestFloat_le {q : ℚ} (h : 0 ≤ q) {n : ℕ} (hround : roundIndex 52 q ≤ n) :
    nearestFloat (q * unit 11 52) ≤ units 52 n * unit 11 52 := by
  rw [nearestFloat_eq h]
  have hunits : units 52 (min (roundIndex 52 q) (infinityIndex 11 52)) ≤ units 52 n :=
    units_le_units.mpr ((min_le_left _ _).trans hround)
  have hunit := @unit_pos 11 52
  gcongr

/-- The rounded half of a rounded whole number of units is no larger than it. -/
theorem nearestFloat_div_le (count : ℕ) {parts : ℚ} (hparts : 2 ≤ parts) :
    nearestFloat (nearestFloat (count * unit 11 52) / parts) ≤ count * unit 11 52 := by
  have hunit := @unit_pos 11 52
  rcases Nat.eq_zero_or_pos count with rfl | hpos
  · simp [nearestFloat_zero]
  obtain ⟨hlow, hhigh⟩ := @floorIndex_spec 52 count
  generalize floorIndex 52 count = index at hlow hhigh
  have hne : index ≠ 0 := by
    rintro rfl
    rw [units_of_lt (by norm_num)] at hhigh
    omega
  -- the whole lies below the next word, which is at most twice the word below the whole
  have hwhole : nearestFloat (count * unit 11 52) ≤ units 52 (index + 1) * unit 11 52 :=
    nearestFloat_le (by positivity) (roundIndex_le (by exact_mod_cast hhigh.le))
  have hdouble : ((units 52 (index + 1) : ℕ) : ℚ) ≤ 2 * (units 52 index : ℕ) := by
    exact_mod_cast units_succ_le hne
  have hhalf : nearestFloat (count * unit 11 52) / parts ≤ units 52 index * unit 11 52 := by
    rw [div_le_iff₀ (by linarith)]
    calc nearestFloat (count * unit 11 52) ≤ units 52 (index + 1) * unit 11 52 := hwhole
      _ ≤ 2 * (units 52 index : ℕ) * unit 11 52 := by gcongr
      _ = units 52 index * unit 11 52 * 2 := by ring
      _ ≤ units 52 index * unit 11 52 * parts := by gcongr
  calc nearestFloat (nearestFloat (count * unit 11 52) / parts)
      ≤ nearestFloat (units 52 index * unit 11 52) := nearestFloat_mono hhalf
    _ ≤ units 52 index * unit 11 52 := nearestFloat_le (by positivity) (roundIndex_units index).le
    _ ≤ count * unit 11 52 := by
        gcongr

/-- A finite word is a whole number of units. -/
theorem exists_units_eq (x y : F64) (h : 0 ≤ x.toRat - y.toRat) :
    ∃ count : ℕ, x.toRat - y.toRat = count * unit 11 52 := by
  have hunit := @unit_pos 11 52
  have hdiff : x.toRat - y.toRat =
      ((signedUnits 52 x.key - signedUnits 52 y.key : ℤ) : ℚ) * unit 11 52 := by
    rw [toRat_eq, toRat_eq]
    push_cast
    ring
  rw [hdiff] at h ⊢
  have hnonneg : (0 : ℚ) ≤ ((signedUnits 52 x.key - signedUnits 52 y.key : ℤ) : ℚ) :=
    nonneg_of_mul_nonneg_left h hunit
  have hcast : (0 : ℤ) ≤ signedUnits 52 x.key - signedUnits 52 y.key := by exact_mod_cast hnonneg
  refine ⟨(signedUnits 52 x.key - signedUnits 52 y.key).toNat, ?_⟩
  congr 1
  exact_mod_cast (Int.toNat_of_nonneg hcast).symm

theorem nearestFloat_neg (q : ℚ) : nearestFloat (-q) = -nearestFloat q := by
  by_cases hzero : q = 0
  · rw [hzero, neg_zero, nearestFloat_zero, neg_zero]
  have hword : (ofRat (-q) false : F64) = (ofRat q false).neg := by
    unfold ofRat neg
    rw [if_neg (neg_ne_zero.mpr hzero), if_neg hzero, abs_neg]
    congr 1
    rcases lt_or_gt_of_ne hzero with hneg | hpos
    · simp [hneg, hneg.le]
    · simp [hpos, hpos.not_gt]
  rw [nearestFloat, hword, toRat_neg, nearestFloat]

/-- A rounded share of the rounded way from one word to another leads towards it, and not past. -/
theorem share_between {parts : ℚ} (hparts : 2 ≤ parts) (x y : F64) :
    (0 ≤ x.toRat - y.toRat →
      0 ≤ nearestFloat (nearestFloat (x.toRat - y.toRat) / parts) ∧
        nearestFloat (nearestFloat (x.toRat - y.toRat) / parts) ≤ x.toRat - y.toRat) ∧
    (x.toRat - y.toRat ≤ 0 →
      nearestFloat (nearestFloat (x.toRat - y.toRat) / parts) ≤ 0 ∧
        x.toRat - y.toRat ≤ nearestFloat (nearestFloat (x.toRat - y.toRat) / parts)) := by
  have hforward : ∀ x y : F64, 0 ≤ x.toRat - y.toRat →
      0 ≤ nearestFloat (nearestFloat (x.toRat - y.toRat) / parts) ∧
        nearestFloat (nearestFloat (x.toRat - y.toRat) / parts) ≤ x.toRat - y.toRat := by
    intro x y h
    have hnonneg := nearestFloat_nonneg h
    refine ⟨nearestFloat_nonneg (by positivity), ?_⟩
    obtain ⟨count, hcount⟩ := exists_units_eq x y h
    rw [hcount]
    exact nearestFloat_div_le count hparts
  refine ⟨hforward x y, fun h => ?_⟩
  -- the way back is the way there with the sign changed
  have hback := hforward y x (by linarith)
  have hflip : nearestFloat (nearestFloat (y.toRat - x.toRat) / parts) =
      -nearestFloat (nearestFloat (x.toRat - y.toRat) / parts) := by
    rw [← neg_sub x.toRat, nearestFloat_neg, neg_div, nearestFloat_neg]
  rw [hflip] at hback
  exact ⟨by linarith [hback.1], by linarith [hback.2]⟩

/-! ## Values that are not negative -/

/-- A word that is zero, positive or the positive infinity. -/
structure Nonneg (x : F64) : Prop where
  not_nan : x.isNaN = false
  toRat_nonneg : 0 ≤ x.toRat

theorem Nonneg.negative (h : Nonneg x) (hmagnitude : (x.magnitude : ℕ) ≠ 0) :
    x.negative = false := by
  by_contra hnegative
  rw [Bool.not_eq_false] at hnegative
  have hunit := @unit_pos 11 52
  have hpos : (0 : ℚ) < units 52 x.magnitude * unit 11 52 := by
    have hunits : 0 < units 52 x.magnitude :=
      (Nat.pos_of_ne_zero hmagnitude).trans_le (le_units _)
    positivity
  have hnonneg := h.toRat_nonneg
  rw [toRat, hnegative, if_pos rfl] at hnonneg
  linarith

theorem Nonneg.negative_of_isInfinite (h : Nonneg x) (hx : x.isInfinite = true) :
    x.negative = false := h.negative (magnitude_ne_zero hx)

theorem nonneg_ofRat {q : ℚ} (h : 0 ≤ q) (zeroSign : Bool) : Nonneg (ofRat q zeroSign) := by
  refine ⟨isNaN_ofRat q zeroSign, ?_⟩
  rw [toRat_ofRat]
  exact nearestFloat_nonneg h

theorem Nonneg.add (hx : Nonneg x) (hy : Nonneg y) : Nonneg (x.add y) := by
  have hinfinite : ∀ {x y : F64}, Nonneg x → Nonneg y → x.isInfinite = true → x.add y = x := by
    intro x y hx hy h
    rw [Ieee.add, hx.not_nan, hy.not_nan, if_neg (by decide), if_pos h]
    refine if_neg ?_
    rw [Bool.and_eq_true, bne_iff_ne]
    rintro ⟨h', hsign⟩
    exact hsign ((hx.negative_of_isInfinite h).trans (hy.negative_of_isInfinite h').symm)
  cases hxInfinite : x.isInfinite with
  | true =>
      rw [hinfinite hx hy hxInfinite]
      exact hx
  | false =>
      cases hyInfinite : y.isInfinite with
      | true =>
          rw [add_symm, hinfinite hy hx hyInfinite]
          exact hy
      | false =>
          rw [Ieee.add, hx.not_nan, hy.not_nan, hxInfinite, hyInfinite]
          exact nonneg_ofRat (add_nonneg hx.toRat_nonneg hy.toRat_nonneg) _

theorem Nonneg.div (hx : Nonneg x) (hy : Positive y) : Nonneg (x.div y) := by
  cases hfinite : x.isFinite with
  | true =>
      rw [hy.div_finite hfinite]
      exact nonneg_ofRat (div_nonneg hx.toRat_nonneg hy.toRat_pos.le) _
  | false =>
      have hinfinite := (isInfinite_or_isNaN hfinite).resolve_right (by rw [hx.not_nan]; decide)
      rw [hy.div_infinite hinfinite]
      exact hx

theorem Nonneg.isNaN_sqrt (h : Nonneg x) : x.sqrt.isNaN = false := by
  rw [sqrt, h.not_nan, if_neg (by decide)]
  by_cases hzero : (x.magnitude : ℕ) = 0
  · rw [if_pos hzero]
    exact h.not_nan
  · rw [if_neg hzero, h.negative hzero, if_neg (by decide)]
    split
    · exact h.not_nan
    · refine decide_eq_false ?_
      rw [not_lt]
      exact min_le_right _ _

end Ieee

end ProofFrame.Lib.Ieee754
