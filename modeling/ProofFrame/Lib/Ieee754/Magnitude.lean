import Mathlib.Data.Nat.Log
import Mathlib.Data.Rat.Floor
import Mathlib.Order.Monotone.Basic
import Mathlib.Tactic.Linarith
import Mathlib.Tactic.Ring

/-!
# Magnitudes of a binary interchange format

Without its sign bit, a binary floating-point word is a natural number: the
exponent field above the `mb` bits of the fraction.  Below the index of infinity
these numbers enumerate the finite magnitudes in increasing order, and every
magnitude is a whole multiple of the smallest one.  `units mb n` is that
multiple for the word `n`.

`roundIndex` rounds a nonnegative rational, counted in units, to the nearest
word, ties to the even word.  Two facts about it carry all the arithmetic:
rounding is monotone, and it leaves a representable magnitude where it is.
-/

namespace ProofFrame.Lib.Ieee754

variable {mb : ℕ}

/-- The magnitude of word `n`, as a multiple of the smallest positive one. -/
def units (mb n : ℕ) : ℕ :=
  if n < 2 ^ mb then n else (2 ^ mb + n % 2 ^ mb) * 2 ^ (n / 2 ^ mb - 1)

/-- The largest word whose magnitude is at most `t` units. -/
def floorIndex (mb t : ℕ) : ℕ :=
  if t < 2 ^ mb then t
  else (Nat.log2 t - mb) * 2 ^ mb + t / 2 ^ (Nat.log2 t - mb)

/-- Round to nearest, ties to even: `q` is counted in units. -/
def roundIndex (mb : ℕ) (q : ℚ) : ℕ :=
  let n := floorIndex mb ⌊q⌋₊
  let middle : ℚ := units mb n + units mb (n + 1)
  if 2 * q < middle then n
  else if middle < 2 * q then n + 1
  else if n % 2 = 0 then n else n + 1

/-! ## The words enumerate the magnitudes -/

/-- The word with exponent field `k + 1` and significand `m`; the upper end of a
binade is the lower end of the next one. -/
theorem units_binade {k m : ℕ} (hlow : 2 ^ mb ≤ m) (hhigh : m ≤ 2 * 2 ^ mb) :
    units mb (k * 2 ^ mb + m) = m * 2 ^ k := by
  have hpos : 0 < 2 ^ mb := Nat.two_pow_pos mb
  have hnot : ¬ k * 2 ^ mb + m < 2 ^ mb := by omega
  rw [units, if_neg hnot]
  rcases hhigh.lt_or_eq with hlt | heq
  · obtain ⟨r, rfl⟩ := Nat.exists_eq_add_of_le hlow
    have hr : r < 2 ^ mb := by omega
    have hsplit : k * 2 ^ mb + (2 ^ mb + r) = r + (k + 1) * 2 ^ mb := by ring
    rw [hsplit, Nat.add_mul_mod_self_right, Nat.mod_eq_of_lt hr,
      Nat.add_mul_div_right _ _ hpos, Nat.div_eq_of_lt hr]
    simp
  · have hsplit : k * 2 ^ mb + m = (k + 2) * 2 ^ mb := by rw [heq]; ring
    rw [hsplit, Nat.mul_mod_left, Nat.mul_div_cancel _ hpos, heq]
    have hexp : k + 2 - 1 = k + 1 := by omega
    rw [hexp, pow_succ]
    ring

theorem units_of_lt {n : ℕ} (h : n < 2 ^ mb) : units mb n = n := by
  rw [units, if_pos h]

@[simp] theorem units_zero : units mb 0 = 0 := units_of_lt (Nat.two_pow_pos mb)

/-- Every word past the subnormal ones has an exponent and a significand. -/
theorem exists_binade {n : ℕ} (h : 2 ^ mb ≤ n) :
    ∃ k m, n = k * 2 ^ mb + m ∧ 2 ^ mb ≤ m ∧ m < 2 * 2 ^ mb := by
  have hpos : 0 < 2 ^ mb := Nat.two_pow_pos mb
  have hdiv : 1 ≤ n / 2 ^ mb := (Nat.one_le_div_iff hpos).mpr h
  refine ⟨n / 2 ^ mb - 1, 2 ^ mb + n % 2 ^ mb, ?_, Nat.le_add_right _ _, ?_⟩
  · obtain ⟨k, hk⟩ : ∃ k, n / 2 ^ mb = k + 1 := ⟨n / 2 ^ mb - 1, by omega⟩
    have hn := Nat.div_add_mod n (2 ^ mb)
    rw [hk] at hn ⊢
    rw [Nat.add_sub_cancel]
    calc n = 2 ^ mb * (k + 1) + n % 2 ^ mb := hn.symm
      _ = k * 2 ^ mb + (2 ^ mb + n % 2 ^ mb) := by ring
  · have := Nat.mod_lt n hpos
    omega

theorem units_lt_succ (n : ℕ) : units mb n < units mb (n + 1) := by
  by_cases hn : 2 ^ mb ≤ n
  · obtain ⟨k, m, rfl, hlow, hhigh⟩ := exists_binade hn
    rw [Nat.add_assoc, units_binade hlow hhigh.le, units_binade (by omega) (by omega)]
    exact Nat.mul_lt_mul_of_pos_right m.lt_succ_self (Nat.two_pow_pos k)
  · rw [units_of_lt (not_le.mp hn)]
    by_cases hs : n + 1 < 2 ^ mb
    · rw [units_of_lt hs]
      exact n.lt_succ_self
    · have heq : n + 1 = 0 * 2 ^ mb + 2 ^ mb := by omega
      rw [heq, units_binade le_rfl (by omega)]
      omega

theorem units_strictMono : StrictMono (units mb) := strictMono_nat_of_lt_succ units_lt_succ

theorem units_le_units {m n : ℕ} : units mb m ≤ units mb n ↔ m ≤ n :=
  units_strictMono.le_iff_le

theorem le_units (n : ℕ) : n ≤ units mb n := units_strictMono.id_le n

/-! ## The largest word below a count of units -/

theorem floorIndex_spec (t : ℕ) :
    units mb (floorIndex mb t) ≤ t ∧ t < units mb (floorIndex mb t + 1) := by
  by_cases ht : t < 2 ^ mb
  · rw [floorIndex, if_pos ht, units_of_lt ht]
    refine ⟨le_rfl, ?_⟩
    exact lt_of_eq_of_lt (units_of_lt ht).symm (units_lt_succ t)
  · have hne : t ≠ 0 := by
      have := Nat.two_pow_pos mb
      omega
    have hlog : mb ≤ Nat.log2 t := (Nat.le_log2 hne).mpr (not_lt.mp ht)
    rw [floorIndex, if_neg ht]
    obtain ⟨k, hk⟩ := Nat.exists_eq_add_of_le hlog
    have hsub : Nat.log2 t - mb = k := by omega
    rw [hsub]
    have hk0 : 0 < 2 ^ k := Nat.two_pow_pos k
    have hlow : 2 ^ mb ≤ t / 2 ^ k := by
      rw [Nat.le_div_iff_mul_le hk0, ← pow_add, ← hk]
      exact Nat.log2_self_le hne
    have hhigh : t / 2 ^ k < 2 * 2 ^ mb := by
      rw [Nat.div_lt_iff_lt_mul hk0]
      calc t < 2 ^ (Nat.log2 t + 1) := Nat.lt_log2_self
        _ = 2 * 2 ^ mb * 2 ^ k := by rw [hk, pow_succ, pow_add]; ring
    rw [Nat.add_assoc, units_binade hlow hhigh.le, units_binade (by omega) (by omega)]
    refine ⟨Nat.div_mul_le_self t _, ?_⟩
    exact Nat.lt_mul_of_div_lt (Nat.lt_succ_self _) hk0

/-- `floorIndex` is the upper adjoint of `units`. -/
theorem le_floorIndex {n t : ℕ} : n ≤ floorIndex mb t ↔ units mb n ≤ t := by
  obtain ⟨hlow, hhigh⟩ := @floorIndex_spec mb t
  constructor
  · intro h
    exact (units_le_units.mpr h).trans hlow
  · intro h
    by_contra hgt
    exact absurd (hhigh.trans_le (units_le_units.mpr (not_le.mp hgt))) (not_lt.mpr h)

theorem floorIndex_mono : Monotone (floorIndex mb) := by
  intro s t hst
  exact le_floorIndex.mpr ((floorIndex_spec s).1.trans hst)

@[simp] theorem floorIndex_units (n : ℕ) : floorIndex mb (units mb n) = n :=
  le_antisymm (units_le_units.mp (floorIndex_spec _).1) (le_floorIndex.mpr le_rfl)

/-! ## Rounding -/

theorem floorIndex_le_roundIndex (q : ℚ) : floorIndex mb ⌊q⌋₊ ≤ roundIndex mb q := by
  simp only [roundIndex]
  split_ifs <;> omega

theorem roundIndex_le_succ (q : ℚ) : roundIndex mb q ≤ floorIndex mb ⌊q⌋₊ + 1 := by
  simp only [roundIndex]
  split_ifs <;> omega

/-- Rounding is monotone. -/
theorem roundIndex_mono : Monotone (roundIndex mb) := by
  intro x y hxy
  have hfloor : floorIndex mb ⌊x⌋₊ ≤ floorIndex mb ⌊y⌋₊ := floorIndex_mono (Nat.floor_mono hxy)
  rcases hfloor.lt_or_eq with hlt | heq
  · calc roundIndex mb x ≤ floorIndex mb ⌊x⌋₊ + 1 := roundIndex_le_succ x
      _ ≤ floorIndex mb ⌊y⌋₊ := hlt
      _ ≤ roundIndex mb y := floorIndex_le_roundIndex y
  · -- both lie between the same two words, so only the side of the middle counts
    simp only [roundIndex, heq]
    split_ifs <;> first | omega | linarith

/-- A representable magnitude is its own rounding. -/
@[simp] theorem roundIndex_units (n : ℕ) : roundIndex mb (units mb n) = n := by
  have hlt : (2 * (units mb n : ℚ)) < units mb n + units mb (n + 1) := by
    have : (units mb n : ℚ) < units mb (n + 1) := by exact_mod_cast units_lt_succ n
    linarith
  simp only [roundIndex, Nat.floor_natCast, floorIndex_units, if_pos hlt]

theorem roundIndex_le {n : ℕ} {q : ℚ} (h : q ≤ units mb n) : roundIndex mb q ≤ n := by
  have := @roundIndex_mono mb _ _ h
  rwa [roundIndex_units] at this

@[simp] theorem roundIndex_zero : roundIndex mb 0 = 0 := by
  simpa using @roundIndex_units mb 0

end ProofFrame.Lib.Ieee754
