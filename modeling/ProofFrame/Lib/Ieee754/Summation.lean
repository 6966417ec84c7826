import ProofFrame.Lib.Ieee754.Special

/-!
# Sums of two doubles

Counted in units, the finite doubles are the integers with short significands.
What rounding takes from the sum of two of them is a third one, and the two
subtractions that recover it round nothing.  Past `overflow` a sum rounds to an
infinity, which `Rounded` tells from the doubles.
-/

namespace ProofFrame.Lib.Ieee754

/-! ## Short integers -/

/-- An integer whose significand has at most 53 bits. -/
def Short (z : ℤ) : Prop := ∃ (significand : ℤ) (exponent : ℕ),
  |significand| < 2 ^ 53 ∧ z = significand * 2 ^ exponent

namespace Short

variable {x y z : ℤ}

theorem neg (h : Short z) : Short (-z) := by
  obtain ⟨m, k, hm, rfl⟩ := h
  exact ⟨-m, k, by rwa [abs_neg], by ring⟩

theorem of_abs_lt (h : |z| < 2 ^ 53) : Short z := ⟨z, 0, h, by ring⟩

theorem double (h : Short z) : Short (2 * z) := by
  obtain ⟨m, k, hm, rfl⟩ := h
  exact ⟨m, k + 1, hm, by ring⟩

/-- A short integer is a multiple of a power of two that it does not exceed by much. -/
theorem exists_dvd (h : Short z) : ∃ k : ℕ, (2 : ℤ) ^ k ∣ z ∧ |z| < 2 ^ 53 * 2 ^ k := by
  obtain ⟨m, k, hm, rfl⟩ := h
  refine ⟨k, Dvd.intro_left m rfl, ?_⟩
  rw [abs_mul, abs_of_pos (by positivity : (0 : ℤ) < 2 ^ k)]
  exact mul_lt_mul_of_pos_right hm (by positivity)

theorem of_dvd {k : ℕ} (hdvd : (2 : ℤ) ^ k ∣ z) (h : |z| ≤ 2 ^ 53 * 2 ^ k) : Short z := by
  obtain ⟨m, rfl⟩ := hdvd
  have hpos : (0 : ℤ) < 2 ^ k := by positivity
  rw [abs_mul, abs_of_pos hpos, mul_comm] at h
  have hm : |m| ≤ 2 ^ 53 := le_of_mul_le_mul_right h hpos
  rcases hm.lt_or_eq with hlt | heq
  · exact ⟨m, k, hlt, mul_comm _ _⟩
  · -- the first significand of 54 bits is even
    rcases abs_choice m with habs | habs
    · refine ⟨2 ^ 52, k + 1, by norm_num, ?_⟩
      rw [← habs, heq]
      ring
    · refine ⟨-2 ^ 52, k + 1, by norm_num, ?_⟩
      rw [← neg_neg m, ← habs, heq]
      ring

/-- What two short integers make up is short, if it exceeds neither of them. -/
theorem of_combination (hx : Short x) (hy : Short y)
    (hdvd : ∀ k : ℕ, (2 : ℤ) ^ k ∣ x → (2 : ℤ) ^ k ∣ y → (2 : ℤ) ^ k ∣ z)
    (hzx : |z| ≤ |x|) (hzy : |z| ≤ |y|) : Short z := by
  obtain ⟨j, hj, hjx⟩ := hx.exists_dvd
  obtain ⟨k, hk, hky⟩ := hy.exists_dvd
  rcases le_total j k with hle | hle
  · exact of_dvd (hdvd j hj ((pow_dvd_pow 2 hle).trans hk)) (hzx.trans hjx.le)
  · exact of_dvd (hdvd k ((pow_dvd_pow 2 hle).trans hj) hk) (hzy.trans hky.le)

end Short

/-- The magnitudes of words are the short ones. -/
theorem short_units (n : ℕ) : Short (units 52 n) := by
  obtain ⟨m, k, hm, hn⟩ := @units_eq_significand 52 n
  refine ⟨m, k, ?_, ?_⟩
  · rw [Nat.abs_cast]
    exact_mod_cast hm
  · rw [hn]
    push_cast
    ring

theorem exists_units_of_short {z : ℤ} (h : Short z) : ∃ n, units 52 n = z.natAbs := by
  obtain ⟨m, k, hm, rfl⟩ := h
  have hm : m.natAbs < 2 ^ (52 + 1) := by
    rw [Int.abs_eq_natAbs] at hm
    exact_mod_cast hm
  obtain ⟨n, hn⟩ := @exists_units 52 k _ hm
  refine ⟨n, ?_⟩
  rw [hn, Int.natAbs_mul, Int.natAbs_pow]
  rfl

/-! ## Rounding of integers -/

/-- A count of units, rounded. -/
def roundNat (t : ℕ) : ℕ := units 52 (roundIndex 52 t)

/-- The words on both sides of a count, and which of them is nearer. -/
theorem roundNat_spec (t : ℕ) : ∃ n, units 52 n ≤ t ∧ t < units 52 (n + 1) ∧
    (roundNat t = units 52 n ∧ 2 * t ≤ units 52 n + units 52 (n + 1) ∨
      roundNat t = units 52 (n + 1) ∧ units 52 n + units 52 (n + 1) ≤ 2 * t) := by
  obtain ⟨hlow, hhigh⟩ := @floorIndex_spec 52 t
  refine ⟨floorIndex 52 t, hlow, hhigh, ?_⟩
  unfold roundNat roundIndex
  rw [Nat.floor_natCast]
  dsimp only
  split_ifs with hless hmore heven
  · exact .inl ⟨rfl, by exact_mod_cast hless.le⟩
  · exact .inr ⟨rfl, by exact_mod_cast hmore.le⟩
  · exact .inl ⟨rfl, by exact_mod_cast not_lt.mp hmore⟩
  · exact .inr ⟨rfl, by exact_mod_cast not_lt.mp hless⟩

theorem roundNat_units (n : ℕ) : roundNat (units 52 n) = units 52 n := by
  rw [roundNat, roundIndex_units]

theorem roundNat_mono : Monotone roundNat := fun _ _ h =>
  units_le_units.mpr (roundIndex_mono (by exact_mod_cast h))

/-- No word is nearer than the rounded count. -/
theorem roundNat_nearest (t n : ℕ) :
    |(t : ℤ) - roundNat t| ≤ |(t : ℤ) - units 52 n| := by
  obtain ⟨i, hlow, hhigh, hround⟩ := roundNat_spec t
  have hside : units 52 n ≤ units 52 i ∨ units 52 (i + 1) ≤ units 52 n := by
    rcases Nat.lt_or_ge n (i + 1) with hlt | hge
    · exact .inl (units_le_units.mpr (Nat.le_of_lt_succ hlt))
    · exact .inr (units_le_units.mpr hge)
  simp only [le_abs, abs_le]
  omega

/-- Rounding moves a count by at most one part in `2 ^ 53`. -/
theorem roundNat_close (t : ℕ) : 2 ^ 53 * |(t : ℤ) - roundNat t| ≤ t := by
  obtain ⟨i, hlow, hhigh, hround⟩ := roundNat_spec t
  rcases Nat.lt_or_ge i (2 ^ 52) with hlt | hge
  · -- every count below is a word
    have hnext : units 52 (i + 1) ≤ i + 1 := by
      rcases (Nat.succ_le_of_lt hlt).lt_or_eq with hlt | heq
      · exact (units_of_lt hlt).le
      · rw [Nat.succ_eq_add_one] at heq
        rw [heq]
        have hsecond : units 52 (2 ^ 52) = 2 ^ 52 := by
          simpa using @units_binade 52 0 (2 ^ 52) le_rfl (by norm_num)
        exact hsecond.le
    have hexact : roundNat t = t := by
      rw [units_of_lt hlt] at hlow hround
      omega
    rw [hexact, sub_self, abs_zero, mul_zero]
    exact Int.natCast_nonneg t
  · obtain ⟨k, m, rfl, hm, hm'⟩ := @exists_binade 52 i hge
    rw [add_assoc] at hhigh hround
    rw [units_binade hm hm'.le] at hlow hround
    rw [units_binade (by omega) (by omega)] at hhigh hround
    have hwidth : 2 ^ 52 * 2 ^ k ≤ t := (Nat.mul_le_mul_right _ hm).trans hlow
    have hnext : (m + 1) * 2 ^ k = m * 2 ^ k + 2 ^ k := Nat.succ_mul _ _
    rw [hnext] at hhigh hround
    have herror : 2 * |(t : ℤ) - roundNat t| ≤ 2 ^ k := by
      generalize m * 2 ^ k = low at hlow hhigh hround
      have hpow : ((2 ^ k : ℕ) : ℤ) = 2 ^ k := by push_cast; rfl
      rw [← hpow]
      generalize 2 ^ k = width at hhigh hround
      have : |(t : ℤ) - roundNat t| ≤ (width : ℤ) / 2 := by
        rw [abs_le]
        omega
      omega
    calc 2 ^ 53 * |(t : ℤ) - roundNat t| = 2 ^ 52 * (2 * |(t : ℤ) - roundNat t|) := by ring
      _ ≤ 2 ^ 52 * 2 ^ k := by gcongr
      _ ≤ t := by exact_mod_cast hwidth

/-- An integer of units, rounded. -/
def roundInt (z : ℤ) : ℤ := z.sign * roundNat z.natAbs

theorem roundInt_natCast (t : ℕ) : roundInt t = roundNat t := by
  rcases Nat.eq_zero_or_pos t with rfl | hpos
  · simp [roundInt, roundNat]
  · rw [roundInt, Int.sign_eq_one_of_pos (by exact_mod_cast hpos), one_mul, Int.natAbs_natCast]

theorem roundInt_neg (z : ℤ) : roundInt (-z) = -roundInt z := by
  rw [roundInt, roundInt, Int.sign_neg, Int.natAbs_neg, neg_mul]

theorem short_roundInt (z : ℤ) : Short (roundInt z) := by
  obtain ⟨t, rfl | rfl⟩ := z.eq_nat_or_neg
  · rw [roundInt_natCast]
    exact short_units _
  · rw [roundInt_neg, roundInt_natCast]
    exact (short_units _).neg

theorem roundInt_of_short {z : ℤ} (h : Short z) : roundInt z = z := by
  obtain ⟨n, hn⟩ := exists_units_of_short h
  rw [roundInt, ← hn, roundNat_units, hn]
  exact Int.sign_mul_natAbs z

theorem roundInt_nonneg {z : ℤ} (h : 0 ≤ z) : 0 ≤ roundInt z := by
  obtain ⟨t, rfl⟩ := Int.eq_ofNat_of_zero_le h
  rw [roundInt_natCast]
  exact Int.natCast_nonneg _

theorem roundInt_mono : Monotone roundInt := by
  intro x y hxy
  rcases le_total 0 x with hx | hx
  · obtain ⟨s, rfl⟩ := Int.eq_ofNat_of_zero_le hx
    obtain ⟨t, rfl⟩ := Int.eq_ofNat_of_zero_le (hx.trans hxy)
    rw [roundInt_natCast, roundInt_natCast]
    exact_mod_cast roundNat_mono (by exact_mod_cast hxy)
  · have hflip (z : ℤ) : roundInt z = -roundInt (-z) := by rw [roundInt_neg, neg_neg]
    rw [hflip x]
    rcases le_total 0 y with hy | hy
    · exact (neg_nonpos.mpr (roundInt_nonneg (by omega))).trans (roundInt_nonneg hy)
    · rw [hflip y, neg_le_neg_iff]
      obtain ⟨s, hs⟩ := Int.eq_ofNat_of_zero_le (neg_nonneg.mpr hx)
      obtain ⟨t, ht⟩ := Int.eq_ofNat_of_zero_le (neg_nonneg.mpr hy)
      rw [hs, ht, roundInt_natCast, roundInt_natCast]
      exact_mod_cast roundNat_mono (by omega)

theorem roundInt_nearest (z : ℤ) {y : ℤ} (hy : Short y) : |z - roundInt z| ≤ |z - y| := by
  have hnat : ∀ (t : ℕ) {y : ℤ}, Short y → |(t : ℤ) - roundInt t| ≤ |(t : ℤ) - y| := by
    intro t y hy
    rw [roundInt_natCast]
    rcases le_total 0 y with hsign | hsign
    · obtain ⟨n, hn⟩ := exists_units_of_short hy
      have hnear := roundNat_nearest t n
      rw [hn] at hnear
      rwa [Int.natAbs_of_nonneg hsign] at hnear
    · have hnear := roundNat_nearest t 0
      rw [units_zero, Nat.cast_zero, sub_zero, Nat.abs_cast] at hnear
      refine hnear.trans (le_abs.mpr (.inl ?_))
      omega
  obtain ⟨t, rfl | rfl⟩ := z.eq_nat_or_neg
  · exact hnat t hy
  · have herror : -(t : ℤ) - roundInt (-t) = -(t - roundInt t) := by
      rw [roundInt_neg]
      ring
    have hdistance : -(t : ℤ) - y = -(t - -y) := by ring
    rw [herror, hdistance, abs_neg, abs_neg]
    exact hnat t hy.neg

theorem roundInt_close (z : ℤ) : 2 ^ 53 * |z - roundInt z| ≤ |z| := by
  obtain ⟨t, rfl | rfl⟩ := z.eq_nat_or_neg
  · rw [roundInt_natCast, Nat.abs_cast]
    exact roundNat_close t
  · rw [roundInt_neg, roundInt_natCast, neg_sub_neg, abs_neg, Nat.abs_cast, abs_sub_comm]
    exact roundNat_close t

/-- Rounding keeps the zero bits at the end. -/
theorem dvd_roundInt {k : ℕ} {z : ℤ} (h : (2 : ℤ) ^ k ∣ z) : (2 : ℤ) ^ k ∣ roundInt z := by
  by_cases hsmall : |z| ≤ 2 ^ 53 * 2 ^ k
  · rwa [roundInt_of_short (.of_dvd h hsmall)]
  · obtain ⟨j, hj, hlt⟩ := (short_roundInt z).exists_dvd
    refine (pow_dvd_pow 2 ?_).trans hj
    by_contra hless
    have hbound : Short (2 ^ 53 * 2 ^ k) := ⟨1, 53 + k, by norm_num, by ring⟩
    have hlarge : 2 ^ 53 * 2 ^ k ≤ |roundInt z| := by
      rcases le_total 0 z with hsign | hsign
      · rw [abs_of_nonneg hsign] at hsmall
        have hmono := roundInt_mono (not_le.mp hsmall).le
        rw [roundInt_of_short hbound] at hmono
        exact hmono.trans (le_abs_self _)
      · rw [abs_of_nonpos hsign] at hsmall
        have hmono := roundInt_mono (not_le.mp hsmall).le
        rw [roundInt_of_short hbound, roundInt_neg] at hmono
        exact hmono.trans (neg_le_abs _)
    have hpow : (2 : ℤ) ^ j ≤ 2 ^ k := pow_le_pow_right₀ (by norm_num) (not_le.mp hless).le
    linarith [hlarge.trans_lt hlt]

/-! ## What a sum loses -/

section Sums

variable {a b : ℤ}

/-- What rounding takes from a sum is short. -/
theorem short_lost (ha : Short a) (hb : Short b) : Short (a + b - roundInt (a + b)) := by
  refine ha.of_combination hb (fun k hka hkb => ?_) ?_ ?_
  · exact dvd_sub (dvd_add hka hkb) (dvd_roundInt (dvd_add hka hkb))
  · simpa using roundInt_nearest (a + b) hb
  · simpa using roundInt_nearest (a + b) ha

/-- The larger summand less the rounded sum is short. -/
theorem short_sub_roundInt (ha : Short a) (hb : Short b) (hle : |b| ≤ |a|) :
    Short (a - roundInt (a + b)) := by
  have hpositive : ∀ {a b : ℤ}, Short a → Short b → |b| ≤ a → Short (a - roundInt (a + b)) := by
    intro a b ha hb hle
    have hexact : Short (a + b) → Short (a - roundInt (a + b)) := by
      intro h
      rw [roundInt_of_short h, sub_add_cancel_left]
      exact hb.neg
    have hkept := roundInt_of_short ha
    rw [abs_le] at hle
    have hdvd : ∀ k : ℕ, (2 : ℤ) ^ k ∣ a → (2 : ℤ) ^ k ∣ roundInt (a + b) →
        (2 : ℤ) ^ k ∣ a - roundInt (a + b) := fun _ => dvd_sub
    rcases le_total 0 b with hsign | hsign
    · -- the sum lies between the larger summand and its double
      have hlow := roundInt_mono (by omega : a ≤ a + b)
      have hhigh := roundInt_mono (by omega : a + b ≤ 2 * a)
      rw [roundInt_of_short ha.double] at hhigh
      refine ha.of_combination (short_roundInt _) hdvd ?_ ?_ <;>
        rw [abs_le] <;> rw [le_abs, neg_le, le_abs] <;> omega
    · by_cases hclose : a ≤ -2 * b
      · -- summands that nearly cancel have an exact sum
        refine hexact (ha.of_combination hb (fun _ => dvd_add) ?_ ?_) <;>
          rw [abs_le] <;> rw [le_abs, neg_le, le_abs] <;> omega
      · by_cases hsmall : a < 2 ^ 53
        · exact hexact (.of_abs_lt (by rw [abs_lt]; omega))
        · -- the sum lies between half the larger summand and all of it
          obtain ⟨m, k, hm, hmk⟩ := ha
          have hk : k ≠ 0 := by
            rintro rfl
            rw [pow_zero, mul_one] at hmk
            rw [abs_lt] at hm
            omega
          obtain ⟨j, rfl⟩ := Nat.exists_eq_succ_of_ne_zero hk
          have hhalf : Short (m * 2 ^ j) := ⟨m, j, hm, rfl⟩
          have hdouble : a = 2 * (m * 2 ^ j) := by rw [hmk, pow_succ]; ring
          have hlow := roundInt_mono (by omega : m * 2 ^ j ≤ a + b)
          have hhigh := roundInt_mono (by omega : a + b ≤ a)
          rw [roundInt_of_short hhalf] at hlow
          refine Short.of_combination ⟨m, j + 1, hm, hmk⟩ (short_roundInt _) hdvd ?_ ?_ <;>
            rw [abs_le] <;> rw [le_abs, neg_le, le_abs] <;> omega
  rcases le_total 0 a with hsign | hsign
  · rw [abs_of_nonneg hsign] at hle
    exact hpositive ha hb hle
  · rw [abs_of_nonpos hsign, ← abs_neg b] at hle
    have hflip := (hpositive ha.neg hb.neg hle).neg
    rwa [← neg_add, roundInt_neg, neg_sub, sub_neg_eq_add, neg_add_eq_sub] at hflip

end Sums

/-! ## Words -/

namespace Ieee

variable {x y : F64}

theorem exists_short (x : F64) : ∃ z : ℤ, Short z ∧ x.toRat = z * unit 11 52 := by
  refine ⟨signedUnits 52 x.key, ?_, x.toRat_eq⟩
  unfold signedUnits
  split
  · exact short_units _
  · exact (short_units _).neg

/-- An integer of units is rounded as an integer. -/
theorem nearestFloat_units {z : ℤ}
    (h : (ofRat (z * unit 11 52) false : F64).isFinite = true) :
    nearestFloat (z * unit 11 52) = roundInt z * unit 11 52 := by
  have hunit := @unit_pos 11 52
  have hnat : ∀ t : ℕ, (ofRat ((t : ℤ) * unit 11 52) false : F64).isFinite = true →
      nearestFloat ((t : ℤ) * unit 11 52) = roundInt t * unit 11 52 := by
    intro t h
    rw [Int.cast_natCast] at h ⊢
    have hlt : min (roundIndex 52 (|(t : ℚ) * unit 11 52| / unit 11 52)) (infinityIndex 11 52) <
        infinityIndex 11 52 := of_decide_eq_true h
    rw [abs_of_nonneg (by positivity), mul_div_cancel_right₀ _ hunit.ne'] at hlt
    rw [nearestFloat_eq (by positivity), min_eq_left (by omega), roundInt_natCast]
    rfl
  obtain ⟨t, rfl | rfl⟩ := z.eq_nat_or_neg
  · exact hnat t h
  · have hword : (ofRat ((t : ℤ) * unit 11 52) false : F64).isFinite = true := by
      have hmagnitude : |((-(t : ℤ) : ℤ) : ℚ) * unit 11 52| = |((t : ℤ) : ℚ) * unit 11 52| := by
        rw [Int.cast_neg, neg_mul, abs_neg]
      unfold isFinite ofRat at h ⊢
      rwa [hmagnitude] at h
    rw [Int.cast_neg, neg_mul, nearestFloat_neg, hnat t hword, roundInt_neg, Int.cast_neg, neg_mul]

theorem nearestFloat_of_short {z : ℤ} (hz : Short z)
    (h : (ofRat (z * unit 11 52) false : F64).isFinite = true) :
    nearestFloat (z * unit 11 52) = z * unit 11 52 := by
  rw [nearestFloat_units h, roundInt_of_short hz]

theorem isFinite_ofRat_of_add (h : (x.add y).isFinite = true) :
    (ofRat (x.toRat + y.toRat) false : F64).isFinite = true := by
  rw [add_of_finite (isFinite_left_of_add h) (isFinite_right_of_add h)] at h
  exact h

/-- What a sum lost is recovered without rounding, from the larger summand first. -/
theorem toRat_lost (hsum : (x.add y).isFinite = true) (hle : |y.toRat| ≤ |x.toRat|) :
    ((x.sub (x.add y)).add y).toRat = x.toRat + y.toRat - (x.add y).toRat := by
  have hx := isFinite_left_of_add hsum
  have hy := isFinite_right_of_add hsum
  have hlost := isFinite_lost hx hy hsum hle
  have hsub := isFinite_left_of_add hlost
  have hrest : (ofRat (x.toRat - (x.add y).toRat) false : F64).isFinite = true := by
    have hrest := isFinite_ofRat_of_add hsub
    rwa [toRat_neg, ← sub_eq_add_neg] at hrest
  have hback := isFinite_ofRat_of_add hlost
  rw [toRat_add hsub hy]
  rw [toRat_sub hx hsum] at hback ⊢
  have hnext := isFinite_ofRat_of_add hsum
  rw [toRat_add hx hy] at hrest hback ⊢
  obtain ⟨a, ha, hxa⟩ := exists_short x
  obtain ⟨b, hb, hyb⟩ := exists_short y
  have hunit := @unit_pos 11 52
  rw [hxa, hyb] at hle hnext hrest hback ⊢
  rw [abs_mul, abs_mul, mul_le_mul_iff_left₀ (abs_pos.mpr hunit.ne')] at hle
  rw [← add_mul, ← Int.cast_add] at hnext hrest hback ⊢
  rw [nearestFloat_units hnext] at hrest hback ⊢
  rw [← sub_mul, ← Int.cast_sub] at hrest hback ⊢
  rw [nearestFloat_of_short (short_sub_roundInt ha hb (by exact_mod_cast hle)) hrest] at hback ⊢
  rw [← add_mul, ← Int.cast_add] at hback ⊢
  rw [sub_add_eq_add_sub] at hback ⊢
  rw [nearestFloat_of_short (short_lost ha hb) hback]
  push_cast
  ring

end Ieee

section Integers

variable {value : ℤ}

/-- An integer in units. -/
theorem units_of_int (z : ℤ) : ((2 ^ 1074 * z : ℤ) : ℚ) * unit 11 52 = z := by
  have hone := two_pow_mul_unit
  rw [Nat.cast_pow] at hone
  rw [Int.cast_mul, Int.cast_pow, Int.cast_ofNat, mul_right_comm]
  exact (congrArg (· * (z : ℚ)) hone).trans (one_mul _)

/-- A rounded integer is one. -/
theorem exists_nearestFloat_eq (h : (Ieee.ofRat value false : F64).isFinite = true) :
    ∃ rounded : ℤ, nearestFloat value = rounded := by
  rw [← units_of_int] at h ⊢
  obtain ⟨rounded, hrounded⟩ := @dvd_roundInt 1074 (2 ^ 1074 * value) (Dvd.intro _ rfl)
  refine ⟨rounded, ?_⟩
  rw [Ieee.nearestFloat_units h, hrounded, units_of_int]

/-- Rounding an integer takes at most one part in `2 ^ 53`. -/
theorem nearestFloat_close (h : (Ieee.ofRat value false : F64).isFinite = true) :
    2 ^ 53 * |(value : ℚ) - nearestFloat value| ≤ |(value : ℚ)| := by
  have hunit := @unit_pos 11 52
  rw [← units_of_int] at h ⊢
  generalize 2 ^ 1074 * value = count at h ⊢
  rw [Ieee.nearestFloat_units h, ← sub_mul, ← Int.cast_sub, abs_mul, abs_mul, ← mul_assoc]
  gcongr
  exact_mod_cast roundInt_close count

end Integers

/-! ## Past the largest double -/

/-- Halfway from the largest double to the next power of two. -/
def overflow : ℚ := 2 ^ 1024 - 2 ^ 970

theorem overflow_pos : 0 < overflow := by
  have hless : (2 : ℚ) ^ 970 < 2 ^ 1024 := pow_lt_pow_right₀ (by norm_num) (by norm_num)
  exact sub_pos.mpr hless

/-- The middle between the last finite word and the word of infinity. -/
theorem overflow_eq : 2 * overflow = (units 52 (2045 * 2 ^ 52 + (2 ^ 53 - 1)) +
    units 52 (2045 * 2 ^ 52 + 2 ^ 53) : ℕ) * unit 11 52 := by
  have hunit : (2 : ℚ) ^ 2045 * unit 11 52 = 2 * 2 ^ 970 := by
    have hone := two_pow_mul_unit
    have hsplit : (2 : ℚ) ^ 2045 = 2 ^ 971 * 2 ^ 1074 := pow_add 2 971 1074
    rw [Nat.cast_pow, Nat.cast_ofNat] at hone
    rw [hsplit, mul_assoc, hone, mul_one]
    exact pow_succ' 2 970
  have hpow : (2 : ℚ) ^ 1024 = 2 ^ 54 * 2 ^ 970 := pow_add 2 54 970
  rw [units_binade (by norm_num) (by norm_num), units_binade (by norm_num) (by norm_num), ← add_mul,
    Nat.cast_mul, Nat.cast_pow, Nat.cast_ofNat, mul_assoc, hunit, overflow, hpow]
  generalize (2 : ℚ) ^ 970 = half
  push_cast
  ring

/-- A count past the last finite word is rounded up from the middle on. -/
theorem roundIndex_lt_infinityIndex_iff {q : ℚ} :
    roundIndex 52 q < infinityIndex 11 52 ↔ 2 * q <
      (units 52 (2045 * 2 ^ 52 + (2 ^ 53 - 1)) + units 52 (2045 * 2 ^ 52 + 2 ^ 53) : ℕ) := by
  have hindex : infinityIndex 11 52 = 2045 * 2 ^ 52 + 2 ^ 53 := by norm_num [infinityIndex]
  have hlast : 2045 * 2 ^ 52 + (2 ^ 53 - 1) + 1 = infinityIndex 11 52 := by
    norm_num [infinityIndex]
  have hodd : (2045 * 2 ^ 52 + (2 ^ 53 - 1)) % 2 ≠ 0 := by norm_num
  rw [← hindex]
  generalize 2045 * 2 ^ 52 + (2 ^ 53 - 1) = last at hlast hodd ⊢
  rw [← hlast]
  have hnext : ((units 52 last : ℕ) : ℚ) < units 52 (last + 1) := by
    exact_mod_cast units_lt_succ last
  push_cast
  rcases lt_or_ge q (units 52 last) with hbelow | hfrom
  · have hle := roundIndex_le hbelow.le
    exact iff_of_true (by omega) (by linarith)
  · rcases lt_or_ge q (units 52 (last + 1)) with hbetween | hpast
    · have hfloor : floorIndex 52 ⌊q⌋₊ = last := by
        refine le_antisymm (Nat.le_of_lt_succ (not_le.mp fun hle => ?_)) ?_
        · have hunits := (Nat.le_floor_iff ((Nat.cast_nonneg _).trans hfrom)).mp (le_floorIndex.mp hle)
          linarith
        · exact le_floorIndex.mpr (Nat.le_floor hfrom)
      unfold roundIndex
      rw [hfloor]
      dsimp only
      split_ifs with hless hmore
      · exact iff_of_true last.lt_succ_self hless
      · exact iff_of_false (lt_irrefl _) hless
      · exact iff_of_false (lt_irrefl _) hless
    · have hle := @roundIndex_mono 52 _ _ hpast
      rw [roundIndex_units] at hle
      exact iff_of_false (by omega) (by linarith)

theorem isFinite_ofRat_iff {q : ℚ} {zeroSign : Bool} :
    (Ieee.ofRat q zeroSign : F64).isFinite = true ↔ |q| < overflow := by
  have hunit := @unit_pos 11 52
  have hmiddle := overflow_eq
  have hword : (Ieee.ofRat q zeroSign : F64).isFinite = true ↔
      min (roundIndex 52 (|q| / unit 11 52)) (infinityIndex 11 52) < infinityIndex 11 52 :=
    decide_eq_true_iff
  rw [hword, min_lt_iff, or_iff_left (lt_irrefl _), roundIndex_lt_infinityIndex_iff, ← mul_div_assoc,
    div_lt_iff₀ hunit, ← hmiddle]
  constructor <;> intro h <;> linarith

theorem two_pow_lt_overflow {n : ℕ} (hn : n ≤ 970) : (2 : ℚ) ^ n < overflow := by
  have hpow : (2 : ℚ) ^ 1024 = 2 ^ 54 * 2 ^ 970 := pow_add 2 54 970
  have hlarge : (2 : ℚ) ^ n ≤ 2 ^ 970 := pow_le_pow_right₀ (by norm_num) hn
  have hpos : (0 : ℚ) < 2 ^ 970 := by positivity
  rw [overflow, hpow]
  generalize (2 : ℚ) ^ 970 = limit at hlarge hpos
  linarith

/-- What is too small for a limit to grow by rounding. -/
theorem abs_nearestFloat_le_of_absorbed {limit slack q : ℚ}
    (h : nearestFloat (limit + slack) = limit) (hq : |q| ≤ limit + slack) :
    |nearestFloat q| ≤ limit := by
  rw [abs_le] at hq ⊢
  constructor
  · calc -limit = nearestFloat (-(limit + slack)) := by rw [Ieee.nearestFloat_neg, h]
      _ ≤ nearestFloat q := nearestFloat_mono hq.1
  · exact (nearestFloat_mono hq.2).trans_eq h

theorem mul_two_pow_lt_overflow {k n : ℕ} (hk : k ≤ 2 ^ 52) (hn : n ≤ 918) :
    (k * 2 ^ n : ℚ) < overflow := by
  have hk : (k : ℚ) ≤ 2 ^ 52 := by exact_mod_cast hk
  calc (k * 2 ^ n : ℚ) ≤ 2 ^ 52 * 2 ^ n := by gcongr
    _ = 2 ^ (52 + n) := (pow_add 2 52 n).symm
    _ < overflow := two_pow_lt_overflow (by omega)

/-- Few bits, times a power of two. -/
theorem nearestFloat_mul_two_pow {k n : ℕ} (hk : k ≤ 2 ^ 52) (hn : n ≤ 918) :
    nearestFloat (k * 2 ^ n) = k * 2 ^ n := by
  have hinteger : ((2 ^ 1074 * (k * 2 ^ n) : ℤ) : ℚ) * unit 11 52 = k * 2 ^ n := by
    rw [units_of_int]
    push_cast
    rfl
  have hshort : Short (2 ^ 1074 * (k * 2 ^ n)) := by
    refine ⟨k, 1074 + n, ?_, by rw [pow_add, mul_left_comm]⟩
    rw [Nat.abs_cast]
    exact_mod_cast hk.trans_lt (by norm_num)
  have hsmall : |(k * 2 ^ n : ℚ)| < overflow := by
    rw [abs_of_nonneg (by positivity)]
    exact mul_two_pow_lt_overflow hk hn
  have hfinite := @isFinite_ofRat_iff _ false |>.mpr hsmall
  rw [← hinteger] at hfinite ⊢
  exact Ieee.nearestFloat_of_short hshort hfinite

theorem abs_nearestFloat_le_mul_two_pow {k n : ℕ} (hk : k ≤ 2 ^ 52) (hn : n ≤ 918) {q : ℚ}
    (hq : |q| ≤ k * 2 ^ n) : |nearestFloat q| ≤ k * 2 ^ n := by
  have habsorbed : nearestFloat (k * 2 ^ n + 0) = k * 2 ^ n := by
    rw [add_zero, nearestFloat_mul_two_pow hk hn]
  exact abs_nearestFloat_le_of_absorbed habsorbed (by rwa [add_zero])

/-- A rational rounded to a double, or the side on which it lies past them. -/
inductive Rounded where
  | finite (value : ℚ)
  | beyond (negative : Bool)
  deriving DecidableEq

namespace Rounded

/-- Round a rational. -/
def of (q : ℚ) : Rounded :=
  if |q| < overflow then .finite (nearestFloat q) else .beyond (decide (q < 0))

/-- Add a rational and round.  What is past the doubles stays there. -/
def add : Rounded → ℚ → Rounded
  | finite value, q => of (value + q)
  | beyond negative, _ => beyond negative

theorem finite_add (value q : ℚ) : (finite value).add q = of (value + q) := rfl

/-- The word is this. -/
def IsWord (x : F64) : Rounded → Prop
  | finite value => Represents x value
  | beyond negative => x = Ieee.infinity negative

theorem of_isDouble {q : ℚ} (h : IsDouble q) : of q = finite q := by
  rw [of, if_pos (isFinite_ofRat_iff.mp h.1), h.2]

theorem isWord_ofRat {q : ℚ} {zeroSign : Bool} : (of q).IsWord (Ieee.ofRat q zeroSign) := by
  unfold of
  split
  · exact ⟨isFinite_ofRat_iff.mpr ‹_›, toRat_ofRat q zeroSign⟩
  · rename_i hlarge
    have hword : (Ieee.ofRat q zeroSign : F64).isFinite = false := by
      rwa [← Bool.not_eq_true, isFinite_ofRat_iff]
    have hinfinite := (Ieee.isInfinite_or_isNaN hword).resolve_right (by
      rw [Ieee.isNaN_ofRat]
      decide)
    have hsign : (Ieee.ofRat q zeroSign : F64).negative = decide (q < 0) := by
      refine if_neg ?_
      rintro rfl
      exact hlarge (by rw [abs_zero]; exact overflow_pos)
    show Ieee.ofRat q zeroSign = Ieee.infinity (decide (q < 0))
    rw [← hsign]
    exact Ieee.eq_infinity hinfinite

/-- A word and a finite one add up as the rationals do. -/
theorem IsWord.add {x y : F64} {rounded : Rounded} {q : ℚ} (hx : rounded.IsWord x)
    (hy : Represents y q) : (rounded.add q).IsWord (x.add y) := by
  cases rounded with
  | finite value =>
      have hx : Represents x value := hx
      rw [Ieee.add_of_finite hx.finite hy.finite, hx.toRat_eq, hy.toRat_eq]
      exact isWord_ofRat
  | beyond negative =>
      obtain rfl : x = Ieee.infinity negative := hx
      have hinfinite := Ieee.isInfinite_infinity negative
      rw [Ieee.add_symm]
      refine (Ieee.isNaN_or_add_eq y hinfinite).resolve_left ?_
      rw [Ieee.isNaN_add_of_isFinite hy.finite (Ieee.isNaN_of_isInfinite hinfinite)]
      decide

end Rounded

end ProofFrame.Lib.Ieee754
