import Mathlib.Data.Int.ConditionallyCompleteOrder
import ProofFrame.Lib.Ieee754.Arithmetic

/-!
# The order of the words

The words of a format are ordered as the rationals they stand for, and rounding
respects the order.  So a comparison of two words is one of two rationals, and a
comparison of two rounded rationals can only lose a difference, never make one up.
-/

namespace ProofFrame.Lib.Ieee754

variable {eb mb : ℕ}

theorem compare_congr {α β : Type} [LinearOrder α] [LinearOrder β] {a b : α} {c d : β}
    (hlt : a < b ↔ c < d) (hgt : b < a ↔ d < c) : compare a b = compare c d := by
  rcases lt_trichotomy a b with h | h | h
  · rw [compare_lt_iff_lt.mpr h, compare_lt_iff_lt.mpr (hlt.mp h)]
  · have heq : c = d := le_antisymm (not_lt.mp fun hlt' => h.not_gt (hgt.mpr hlt'))
      (not_lt.mp fun hlt' => h.not_lt (hlt.mpr hlt'))
    rw [compare_eq_iff_eq.mpr h, compare_eq_iff_eq.mpr heq]
  · rw [compare_gt_iff_gt.mpr h, compare_gt_iff_gt.mpr (hgt.mp h)]

/-- The value of the word at a position of the numeric order, in units. -/
def signedUnits (mb : ℕ) (key : ℤ) : ℤ :=
  if 0 ≤ key then units mb key.toNat else -(units mb (-key).toNat)

theorem signedUnits_strictMono : StrictMono (signedUnits mb) := by
  intro x y hxy
  unfold signedUnits
  have hmono := @units_strictMono mb
  by_cases hx : 0 ≤ x
  · rw [if_pos hx, if_pos (hx.trans hxy.le)]
    exact_mod_cast hmono (by omega : x.toNat < y.toNat)
  · rw [if_neg hx]
    have hpos : 0 < units mb (-x).toNat := (by omega : 0 < (-x).toNat).trans_le (le_units _)
    by_cases hy : 0 ≤ y
    · rw [if_pos hy]
      omega
    · rw [if_neg hy]
      have hlt : units mb (-y).toNat < units mb (-x).toNat := hmono (by omega)
      omega

namespace Ieee

variable {x y : Ieee eb mb}

theorem toRat_eq (x : Ieee eb mb) : x.toRat = signedUnits mb x.key * unit eb mb := by
  unfold toRat key signedUnits
  cases x.negative with
  | false => simp
  | true =>
      rcases Nat.eq_zero_or_pos x.magnitude with h | h
      · simp [h]
      · have hneg : ¬(0 : ℤ) ≤ -((x.magnitude : ℕ) : ℤ) := by omega
        rw [if_pos rfl, if_pos rfl, if_neg hneg]
        simp

theorem toRat_abs (x : Ieee eb mb) : x.abs.toRat = |x.toRat| := by
  have hunit := @unit_pos eb mb
  have hnonneg : (0 : ℚ) ≤ units mb x.magnitude * unit eb mb := by positivity
  unfold abs toRat
  cases x.negative with
  | true => simp [abs_of_nonneg hnonneg]
  | false => simp [abs_of_nonneg hnonneg]

theorem toRat_lt_toRat : x.toRat < y.toRat ↔ x.key < y.key := by
  rw [toRat_eq, toRat_eq, mul_lt_mul_iff_left₀ unit_pos, Int.cast_lt]
  exact signedUnits_strictMono.lt_iff_lt

theorem compare_key (x y : Ieee eb mb) : compare x.key y.key = compare x.toRat y.toRat :=
  compare_congr toRat_lt_toRat.symm toRat_lt_toRat.symm

theorem partialCmp_of_not_nan (hx : x.isNaN = false) (hy : y.isNaN = false) :
    x.partialCmp y = some (compare x.key y.key) := by
  simp [partialCmp, hx, hy]

theorem isNaN_of_isFinite (hx : x.isFinite = true) : x.isNaN = false := by
  have hlt : x.magnitude < infinityIndex eb mb := of_decide_eq_true hx
  exact decide_eq_false (by omega)

theorem isInfinite_of_isFinite (hx : x.isFinite = true) : x.isInfinite = false := by
  have hlt : x.magnitude < infinityIndex eb mb := of_decide_eq_true hx
  exact decide_eq_false (by omega)

/-- The sum of two numbers is the exact one, rounded once. -/
theorem add_of_finite (hx : x.isFinite = true) (hy : y.isFinite = true) :
    x.add y = ofRat (x.toRat + y.toRat) (x.negative && y.negative) := by
  simp [add, isNaN_of_isFinite hx, isNaN_of_isFinite hy, isInfinite_of_isFinite hx,
    isInfinite_of_isFinite hy]

theorem partialCmp_of_finite (hx : x.isFinite = true) (hy : y.isFinite = true) :
    x.partialCmp y = some (compare x.toRat y.toRat) := by
  rw [partialCmp_of_not_nan (isNaN_of_isFinite hx) (isNaN_of_isFinite hy), compare_key]

theorem le_iff_of_finite (hx : x.isFinite = true) (hy : y.isFinite = true) :
    x.le y = true ↔ x.toRat ≤ y.toRat := by
  simp only [le, lt, partialCmp_of_finite hx hy, Bool.or_eq_true, beq_iff_eq, Option.some.injEq,
    compare_lt_iff_lt, compare_eq_iff_eq]
  exact le_iff_lt_or_eq.symm

theorem gt_iff_of_not_nan (hx : x.isNaN = false) (hy : y.isNaN = false) :
    x.gt y = true ↔ y.toRat < x.toRat := by
  rw [gt, partialCmp_of_not_nan hx hy, beq_iff_eq, Option.some.injEq, compare_gt_iff_gt,
    toRat_lt_toRat]

theorem ge_iff_of_finite (hx : x.isFinite = true) (hy : y.isFinite = true) :
    x.ge y = true ↔ y.toRat ≤ x.toRat := by
  simp only [ge, gt, partialCmp_of_finite hx hy, Bool.or_eq_true, beq_iff_eq, Option.some.injEq,
    compare_gt_iff_gt, compare_eq_iff_eq]
  rw [le_iff_lt_or_eq]
  exact or_congr_right eq_comm

/-- A rational that is the value of a word rounds to it. -/
theorem ofRat_eq {n : ℕ} {negative : Bool} (hn : n < infinityIndex eb mb) {q : ℚ}
    (hq : q = (if negative then -1 else 1) * (units mb n * unit eb mb)) :
    ofRat q negative = (⟨negative, n, hn.trans infinityIndex_lt⟩ : Ieee eb mb) := by
  have hunit := @unit_pos eb mb
  have habs : |q| / unit eb mb = units mb n := by
    have hvalue : |q| = units mb n * unit eb mb := by
      rw [hq, abs_mul]
      have hsign : |(if negative then -1 else 1 : ℚ)| = 1 := by
        cases negative <;> simp
      rw [hsign, one_mul, abs_of_nonneg (by positivity)]
    rw [hvalue, mul_div_assoc, div_self hunit.ne', mul_one]
  have hsign : (if q = 0 then negative else decide (q < 0)) = negative := by
    rcases Nat.eq_zero_or_pos n with rfl | hpos
    · rw [if_pos (by rw [hq]; simp)]
    · have hmagnitude : (0 : ℚ) < units mb n * unit eb mb := by
        have hunits : 0 < units mb n := hpos.trans_le (le_units n)
        positivity
      cases negative with
      | true =>
          have hneg : q < 0 := by rw [hq]; simpa using hmagnitude
          rw [if_neg hneg.ne, decide_eq_true hneg]
      | false =>
          have hnonneg : 0 < q := by rw [hq]; simpa using hmagnitude
          rw [if_neg hnonneg.ne', decide_eq_false (not_lt.mpr hnonneg.le)]
  rw [ofRat, hsign, habs]
  congr 1
  exact Fin.ext (by rw [roundMagnitude]; simpa using hn.le)

theorem convert_eq_of_finite {x : Ieee eb mb} (hx : x.isFinite = true) :
    (x.convert : Ieee eb' mb') = ofRat x.toRat x.negative := by
  have hlt : x.magnitude < infinityIndex eb mb := of_decide_eq_true hx
  have hnan : x.isNaN = false := decide_eq_false (by omega)
  have hinfinite : x.isInfinite = false := decide_eq_false (by omega)
  simp [convert, hnan, hinfinite]

/-- A rational no larger than a finite word rounds to a finite word. -/
theorem isFinite_ofRat {n : ℕ} (hn : n < infinityIndex eb mb) {q : ℚ} {zeroSign : Bool}
    (h : |q| ≤ units mb n * unit eb mb) : (ofRat q zeroSign : Ieee eb mb).isFinite = true := by
  refine decide_eq_true ?_
  have hle : roundIndex mb (|q| / unit eb mb) ≤ n :=
    roundIndex_le ((div_le_iff₀ unit_pos).mpr h)
  exact (min_le_left _ _).trans_lt (hle.trans_lt hn)

theorem isNaN_ofRat (q : ℚ) (zeroSign : Bool) : (ofRat q zeroSign : Ieee eb mb).isNaN = false := by
  refine decide_eq_false ?_
  rw [not_lt]
  exact min_le_right _ _

theorem key_ofRat (q : ℚ) (zeroSign : Bool) : (ofRat q zeroSign : Ieee eb mb).key =
    if q < 0 then -(@roundMagnitude eb mb (|q| / unit eb mb) : ℤ)
      else @roundMagnitude eb mb (|q| / unit eb mb) := by
  unfold key ofRat
  rcases lt_trichotomy q 0 with h | h | h
  · simp [h, h.ne]
  · subst h
    cases zeroSign <;> simp [roundMagnitude]
  · simp [h.not_gt, h.ne']

/-- Rounding respects the order. -/
theorem key_ofRat_mono {p q : ℚ} (h : p ≤ q) (s t : Bool) :
    (ofRat p s : Ieee eb mb).key ≤ (ofRat q t : Ieee eb mb).key := by
  have hmono : ∀ {a b : ℚ}, a ≤ b →
      (@roundMagnitude eb mb (a / unit eb mb) : ℕ) ≤
        @roundMagnitude eb mb (b / unit eb mb) := fun hab =>
    min_le_min_right _ (roundIndex_mono (by gcongr; exact unit_pos.le))
  rw [key_ofRat, key_ofRat]
  by_cases hp : p < 0
  · rw [if_pos hp]
    by_cases hq : q < 0
    · rw [if_pos hq, abs_of_neg hp, abs_of_neg hq]
      have := hmono (neg_le_neg h)
      omega
    · rw [if_neg hq]
      omega
  · rw [if_neg hp, if_neg (by linarith)]
    rw [abs_of_nonneg (not_lt.mp hp), abs_of_nonneg ((not_lt.mp hp).trans h)]
    exact_mod_cast hmono h

end Ieee

end ProofFrame.Lib.Ieee754
