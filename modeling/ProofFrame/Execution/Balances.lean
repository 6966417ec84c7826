import ProofFrame.Contract.Strictness
import ProofFrame.Execution.Integrity
import ProofFrame.Execution.Numbers

/-!
# Balances of integers

A balance adds the cells of its columns as doubles and keeps beside each sum what
rounding took from it.  Integers never take these sums past the doubles
(`exists_of_floats`), so the verdict compares two rounded totals.  While what is
lost fits into a double itself, they are the totals of the cells, with each cell and
each total rounded once (`KeepsTotal.roundedTotal_eq`).
-/

namespace ProofFrame

open Lib Lib.Run Lib.Ieee754

/-! ## Totals -/

/-- Integers, as the doubles nearest to them. -/
def floats (values : List ℤ) : List F64 := values.map Ieee.ofInt

/-- The exact total of these doubles. -/
def floatTotal (values : List ℤ) : ℚ := (values.map fun value : ℤ => nearestFloat value).sum

/-- What rounding takes from the sums of the values fits into a double. -/
def LowBitsFit (values : List ℤ) : Prop :=
  ∀ earlier, earlier <+: values → values.length * (|floatTotal earlier| + 2 ^ 53) ≤ 2 ^ 106

/-- No value and no partial total needs rounding. -/
structure ExactTotals (values : List ℤ) : Prop where
  cells : ∀ value ∈ values, IsDouble value
  totals : ∀ earlier, earlier <+: values → IsDouble (earlier.sum : ℤ)

/-- The sum of the values, with what it has lost, is their total. -/
def KeepsTotal (values : List ℤ) : Prop := LowBitsFit values ∨ ExactTotals values

@[simp] theorem floatTotal_append_singleton (values : List ℤ) (value : ℤ) :
    floatTotal (values ++ [value]) = floatTotal values + nearestFloat value := by
  simp [floatTotal]

theorem floats_append_singleton (values : List ℤ) (value : ℤ) :
    floats (values ++ [value]) = floats values ++ [Ieee.ofInt value] := by
  simp [floats]

/-- A cell of 64 bits. -/
theorem represents_ofInt {value : ℤ} (h : |value| ≤ 2 ^ 64) :
    Represents (Ieee.ofInt value) (nearestFloat value) :=
  ⟨isFinite_ofRat_of_le (by exact_mod_cast h), toRat_ofRat _ _⟩

theorem exists_cell {value : ℤ} (h : |value| ≤ 2 ^ 64) :
    ∃ cell : ℤ, Represents (Ieee.ofInt value) cell ∧ nearestFloat value = cell ∧
      |(cell : ℚ)| ≤ 2 ^ 64 := by
  have hvalue := represents_ofInt h
  obtain ⟨cell, hcell⟩ := exists_nearestFloat_eq hvalue.finite
  refine ⟨cell, hcell ▸ hvalue, hcell, ?_⟩
  rw [← hcell]
  have hlimit : nearestFloat (2 ^ 64 + 0) = 2 ^ 64 := by decide +kernel
  refine abs_nearestFloat_le_of_absorbed hlimit ?_
  rw [add_zero]
  exact_mod_cast h

/-- One cell more, while the sum stays among the doubles. -/
theorem of_floats_append_singleton {values : List ℤ} {value : ℤ} {sum lost cell : ℚ}
    (hof : CompensatedSum.of (floats values) = some ⟨sum, .finite lost⟩)
    (hvalue : Represents (Ieee.ofInt value) cell) (hadds : |sum + cell| < overflow) :
    CompensatedSum.of (floats (values ++ [value])) = some ⟨nearestFloat (sum + cell),
      Rounded.of (lost + (sum + cell - nearestFloat (sum + cell)))⟩ := by
  have hadd := @CompensatedSum.add_eq_some ⟨sum, .finite lost⟩ _ hvalue.finite
    (by rwa [hvalue.toRat_eq])
  rw [hvalue.toRat_eq, Rounded.finite_add] at hadd
  rw [floats_append_singleton, CompensatedSum.of_append_singleton, hof, Option.bind_some, hadd]

/-- However many cells there are, the sum and what it has lost stay among the doubles: cells are
absorbed by a sum that has grown large. -/
theorem exists_of_floats {values : List ℤ} (hcells : ∀ value ∈ values, |value| ≤ 2 ^ 64) :
    ∃ (sum : ℤ) (lost : ℚ), CompensatedSum.of (floats values) = some ⟨sum, .finite lost⟩ ∧
      |(sum : ℚ)| ≤ 2 ^ 118 ∧ |lost| ≤ 2 ^ 120 := by
  induction values using List.reverseRecOn with
  | nil => exact ⟨0, 0, by simp [CompensatedSum.of, floats], by simp, by simp⟩
  | append_singleton values value ih =>
      obtain ⟨sum, lost, hof, hsum, hlost⟩ :=
        ih fun other hother => hcells other (List.mem_append_left _ hother)
      obtain ⟨cell, hvalue, -, hcell⟩ := exists_cell (hcells value (by simp))
      -- the doubles next to 2 ^ 118 are 2 ^ 66 apart, so a cell does not take the sum past it; of a
      -- loss below 2 ^ 66 the same is true next to 2 ^ 120
      have hsize : |((sum + cell : ℤ) : ℚ)| ≤ 2 ^ 118 + 2 ^ 64 := by
        push_cast
        exact (abs_add_le _ _).trans (add_le_add hsum hcell)
      have hadds : |((sum + cell : ℤ) : ℚ)| < overflow :=
        (hsize.trans (by norm_num)).trans_lt (two_pow_lt_overflow (by norm_num : 119 ≤ 970))
      have hfinite := @isFinite_ofRat_iff _ false |>.mpr hadds
      obtain ⟨next, hnext⟩ := exists_nearestFloat_eq hfinite
      have hclose := nearestFloat_close hfinite
      have hnextSize : |(next : ℚ)| ≤ 2 ^ 118 := by
        rw [← hnext]
        exact abs_nearestFloat_le_of_absorbed (by decide +kernel) hsize
      rw [hnext] at hclose
      have hmore : |lost + ((sum + cell : ℤ) - next : ℚ)| ≤ 2 ^ 120 + 2 ^ 66 := by
        refine (abs_add_le _ _).trans (add_le_add hlost ?_)
        linarith
      have hfits : |lost + ((sum + cell : ℤ) - next : ℚ)| < overflow :=
        (hmore.trans (by norm_num)).trans_lt (two_pow_lt_overflow (by norm_num : 121 ≤ 970))
      refine ⟨next, _, ?_, hnextSize, abs_nearestFloat_le_of_absorbed (by decide +kernel) hmore⟩
      rw [of_floats_append_singleton hof hvalue (by rwa [← Int.cast_add]), ← Int.cast_add, hnext,
        Rounded.of, if_pos hfits]

/-- The total a balance compares: the sum of the cells, rounded after each of them, together with
what rounding has taken from it, which is rounded after each of them as well. -/
def roundedTotal (values : List ℤ) : ℚ :=
  match CompensatedSum.of (floats values) with
  | some ⟨sum, .finite lost⟩ => nearestFloat (lost + sum)
  | _ => 0

theorem exists_roundedTotal {values : List ℤ} (hcells : ∀ value ∈ values, |value| ≤ 2 ^ 64) :
    ∃ exact, CompensatedSum.of (floats values) = some exact ∧
      exact.total = .finite (roundedTotal values) := by
  obtain ⟨sum, lost, hof, hsum, hlost⟩ := exists_of_floats hcells
  have hsize : |lost + sum| ≤ 2 ^ 121 := by
    refine (abs_add_le _ _).trans ?_
    linarith
  refine ⟨_, hof, ?_⟩
  rw [CompensatedSum.total, Rounded.finite_add, Rounded.of,
    if_pos (hsize.trans_lt (two_pow_lt_overflow (by norm_num))), roundedTotal, hof]

/-- While the partial totals are bounded, the sum loses a bounded integer, and nothing else is
rounded. -/
theorem exists_of_floats_of_bounded {values : List ℤ} {bound : ℚ}
    (hcells : ∀ value ∈ values, |value| ≤ 2 ^ 64)
    (htotals : ∀ earlier, earlier <+: values → |floatTotal earlier| + 2 ^ 53 ≤ bound)
    (hbound : values.length * bound ≤ 2 ^ 106) :
    ∃ sum lost : ℤ, CompensatedSum.of (floats values) = some ⟨sum, .finite lost⟩ ∧
      (sum + lost : ℚ) = floatTotal values ∧ 2 ^ 53 * |(lost : ℚ)| ≤ values.length * bound := by
  induction values using List.reverseRecOn with
  | nil => exact ⟨0, 0, by simp [CompensatedSum.of, floats], by simp [floatTotal], by simp⟩
  | append_singleton values value ih =>
      rw [List.length_append, List.length_singleton, Nat.cast_add, Nat.cast_one] at hbound ⊢
      have hpositive : (2 : ℚ) ^ 53 ≤ bound := by
        have hempty := htotals [] List.nil_prefix
        rw [show floatTotal [] = 0 from rfl, abs_zero, zero_add] at hempty
        exact hempty
      have hlength : (0 : ℚ) ≤ values.length := Nat.cast_nonneg _
      obtain ⟨sum, lost, hof, htotal, hlost⟩ := ih
        (fun other hother => hcells other (List.mem_append_left _ hother))
        (fun earlier hearlier => htotals earlier (hearlier.trans (List.prefix_append ..)))
        (by nlinarith)
      obtain ⟨cell, hvalue, hcell, -⟩ := exists_cell (hcells value (by simp))
      have hnew := htotals (values ++ [value]) (List.prefix_refl _)
      rw [floatTotal_append_singleton, hcell, ← htotal] at hnew ⊢
      -- the sum before rounding is the total less what was lost
      have hsum : |((sum + cell : ℤ) : ℚ)| ≤ bound := by
        have hsplit : ((sum + cell : ℤ) : ℚ) = (sum + lost + cell) - lost := by push_cast; ring
        rw [hsplit]
        refine (abs_sub _ _).trans ?_
        nlinarith
      have hadds : |((sum + cell : ℤ) : ℚ)| < overflow :=
        (hsum.trans (by nlinarith)).trans_lt (two_pow_lt_overflow (by norm_num : 106 ≤ 970))
      obtain ⟨next, hnext⟩ := exists_nearestFloat_eq (isFinite_ofRat_iff.mpr hadds)
      have hclose := nearestFloat_close (isFinite_ofRat_iff.mpr hadds)
      rw [hnext] at hclose
      -- rounding loses at most one part in 2 ^ 53 of a sum below the bound
      have hlost' : 2 ^ 53 * |((lost + (sum + cell - next) : ℤ) : ℚ)| ≤
          (values.length + 1) * bound := by
        have htriangle : |((lost + (sum + cell - next) : ℤ) : ℚ)| ≤
            |(lost : ℚ)| + |((sum + cell : ℤ) : ℚ) - next| := by
          push_cast
          exact abs_add_le _ _
        linarith
      have hdouble : IsDouble ((lost + (sum + cell - next) : ℤ) : ℚ) := by
        refine isDouble_of_natAbs_le ?_
        have hsmall : |((lost + (sum + cell - next) : ℤ) : ℚ)| ≤ 2 ^ 53 := by linarith
        have hcast : |lost + (sum + cell - next)| ≤ 2 ^ 53 := by exact_mod_cast hsmall
        rw [Int.abs_eq_natAbs] at hcast
        exact_mod_cast hcast
      refine ⟨next, lost + (sum + cell - next), ?_, ?_, hlost'⟩
      · rw [of_floats_append_singleton hof hvalue (by rwa [← Int.cast_add]), ← Int.cast_add, hnext,
          ← Rounded.of_isDouble hdouble]
        push_cast
        rfl
      · push_cast
        ring

/-- Where nothing is rounded, nothing is lost. -/
theorem of_floats_of_exact {values : List ℤ} (h : ExactTotals values) :
    CompensatedSum.of (floats values) = some ⟨(values.sum : ℤ), .finite 0⟩ ∧
      floatTotal values = (values.sum : ℤ) := by
  induction values using List.reverseRecOn with
  | nil => simp [CompensatedSum.of, floats, floatTotal]
  | append_singleton values value ih =>
      obtain ⟨hof, htotal⟩ := ih ⟨fun other hother => h.cells other (List.mem_append_left _ hother),
        fun earlier hearlier => h.totals earlier (hearlier.trans (List.prefix_append ..))⟩
      have hvalue := (h.cells value (by simp)).represents false
      have hsum := h.totals (values ++ [value]) (List.prefix_refl _)
      rw [List.sum_append, List.sum_singleton, Int.cast_add] at hsum ⊢
      have hzero : IsDouble 0 := (represents_zero false).isDouble
      constructor
      · rw [of_floats_append_singleton hof hvalue (isFinite_ofRat_iff.mp hsum.1), hsum.2, sub_self,
          add_zero, Rounded.of_isDouble hzero]
      · rw [floatTotal_append_singleton, htotal, (h.cells value (by simp)).2]

/-- A sum that keeps its total gives it rounded. -/
theorem KeepsTotal.roundedTotal_eq {values : List ℤ} (h : KeepsTotal values)
    (hcells : ∀ value ∈ values, |value| ≤ 2 ^ 64) :
    roundedTotal values = nearestFloat (floatTotal values) := by
  suffices hkept : ∃ exact, CompensatedSum.of (floats values) = some exact ∧
      exact.total = .finite (nearestFloat (floatTotal values)) by
    obtain ⟨exact, hof, htotal⟩ := hkept
    obtain ⟨other, hof', htotal'⟩ := exists_roundedTotal hcells
    obtain rfl := Option.some.inj (hof.symm.trans hof')
    exact Rounded.finite.inj (htotal'.symm.trans htotal)
  rcases h with hfit | hexact
  -- the bound of the partial totals is the one that the number of values leaves
  · rcases List.eq_nil_or_concat values with rfl | ⟨earlier, last, rfl⟩
    · refine ⟨_, rfl, ?_⟩
      have hzero : IsDouble 0 := (represents_zero false).isDouble
      rw [CompensatedSum.total, Rounded.finite_add, add_zero, Rounded.of_isDouble hzero]
      exact congrArg Rounded.finite hzero.2.symm
    · rw [List.concat_eq_append] at hfit hcells ⊢
      generalize hvalues : earlier ++ [last] = values at hfit hcells ⊢
      have hlength : (0 : ℚ) < values.length := by
        rw [← hvalues]
        simp
        positivity
      obtain ⟨sum, lost, hof, htotal, -⟩ := @exists_of_floats_of_bounded values
        (2 ^ 106 / values.length) hcells
        (fun earlier hearlier => by
          rw [le_div_iff₀ hlength, mul_comm]
          exact hfit earlier hearlier)
        (by rw [mul_div_cancel₀ _ hlength.ne'])
      have hone : (1 : ℚ) ≤ values.length := by exact_mod_cast hlength
      have hsmall := hfit values (List.prefix_refl _)
      have hadds : |floatTotal values| < overflow :=
        lt_of_le_of_lt (by nlinarith [abs_nonneg (floatTotal values)])
          (two_pow_lt_overflow (by norm_num : 106 ≤ 970))
      refine ⟨_, hof, ?_⟩
      rw [CompensatedSum.total, Rounded.finite_add, add_comm, htotal, Rounded.of, if_pos hadds]
  · obtain ⟨hof, htotal⟩ := of_floats_of_exact hexact
    have hsum := hexact.totals values (List.prefix_refl _)
    refine ⟨_, hof, ?_⟩
    rw [CompensatedSum.total, Rounded.finite_add, zero_add, Rounded.of_isDouble hsum, htotal, hsum.2]

/-! ## Short columns -/

theorem abs_floatTotal_le {values : List ℤ} (hcells : ∀ value ∈ values, |value| ≤ 2 ^ 64) :
    |floatTotal values| ≤ values.length * 2 ^ 65 := by
  induction values with
  | nil => simp [floatTotal]
  | cons value values ih =>
      have hrest := ih fun other hother => hcells other (List.mem_cons_of_mem _ hother)
      have hvalue := hcells value List.mem_cons_self
      have hcell : |nearestFloat value| ≤ 2 ^ 65 := by
        have hclose := nearestFloat_close (represents_ofInt hvalue).finite
        have hvalue : |(value : ℚ)| ≤ 2 ^ 64 := by exact_mod_cast hvalue
        have htriangle := abs_sub_abs_le_abs_sub (nearestFloat value) value
        rw [abs_sub_comm] at htriangle
        linarith
      have hsum : |floatTotal (value :: values)| ≤ |nearestFloat value| + |floatTotal values| := by
        rw [floatTotal, List.map_cons, List.sum_cons]
        exact abs_add_le _ _
      rw [List.length_cons, Nat.cast_succ]
      linarith

/-- At most `2 ^ 20` cells of 64 bits keep their total. -/
theorem keepsTotal_of_length_le {values : List ℤ} (hcells : ∀ value ∈ values, |value| ≤ 2 ^ 64)
    (hrows : values.length ≤ 2 ^ 20) : KeepsTotal values := by
  refine .inl fun earlier hearlier => ?_
  have htotal := abs_floatTotal_le fun value hvalue => hcells value (hearlier.subset hvalue)
  have hearlier : (earlier.length : ℚ) ≤ 2 ^ 20 := by
    exact_mod_cast hearlier.length_le.trans hrows
  have hrows : (values.length : ℚ) ≤ 2 ^ 20 := by exact_mod_cast hrows
  calc (values.length : ℚ) * (|floatTotal earlier| + 2 ^ 53)
      ≤ 2 ^ 20 * (2 ^ 20 * 2 ^ 65 + 2 ^ 53) := by
        refine mul_le_mul hrows ?_ (by positivity) (by positivity)
        linarith
    _ ≤ 2 ^ 106 := by norm_num

theorem floatTotal_eq_sum {values : List ℤ} (h : ∀ value ∈ values, IsDouble value) :
    floatTotal values = (values.sum : ℤ) := by
  rw [floatTotal, List.map_congr_left fun value hvalue => (h value hvalue).2]
  exact (map_list_sum (Int.castRingHom ℚ) values).symm

/-! ## The verdict -/

namespace BalanceState

theorem finish_eq_nil {state : BalanceState} : state.finish = [] ↔
    (state.left.asFloat.sub state.right.asFloat).abs.gt state.plan.tolerance = false := by
  rw [finish]
  split <;> simp [*]

/-- The verdict on two numbers depends on their rounded difference. -/
theorem finish_eq_nil_iff {plan : BalanceEqualPlan} (hfinite : plan.tolerance.isFinite = true)
    {l r : Neumaier} {left right : ℚ} (hl : Represents l.value left) (hr : Represents r.value right) :
    finish { plan, left := .float l, right := .float r } = [] ↔
      ¬plan.tolerance.toRat < |nearestFloat (left - right)| := by
  have hsub : l.value.sub r.value =
      Ieee.ofRat (left - right) (l.value.negative && !r.value.negative) := by
    rw [Ieee.sub, Ieee.add_of_finite hl.finite hr.neg.finite, hl.toRat_eq, hr.neg.toRat_eq,
      ← sub_eq_add_neg]
    rfl
  rw [finish_eq_nil, ← Bool.not_eq_true]
  show ¬(l.value.sub r.value).abs.gt plan.tolerance = true ↔ _
  have hnan : (Ieee.ofRat (left - right) (l.value.negative && !r.value.negative) : F64).abs.isNaN =
      false := Ieee.isNaN_ofRat (left - right) (l.value.negative && !r.value.negative)
  rw [hsub, Ieee.gt_iff_of_not_nan hnan (Ieee.isNaN_of_isFinite hfinite), Ieee.toRat_abs,
    toRat_ofRat]

end BalanceState

/-! ## Columns of integers -/

/-- The integers of a column, row after row. -/
def integersOf (index : ℕ) (batches : List RecordBatch) : List ℤ :=
  (columnValues Scalar.integer index batches).reduceOption

theorem length_integersOf_le (index : ℕ) (batches : List RecordBatch) :
    (integersOf index batches).length ≤ (batches.map RecordBatch.rows).sum := by
  refine (List.reduceOption_length_le _).trans ?_
  rw [columnValues, List.length_map]
  exact length_columnCells_le index batches

section Columns

variable {schema : Schema} {index : ℕ} {field : Field} {batches : List RecordBatch}

/-- A cell read as an integer. -/
def readsInteger (scalar : Scalar) (value : ℤ) : Prop := scalar.integer = some value

theorem carries_floats {dataType : DataType} {values : List (Option ℤ)}
    (h : Carries readsInteger index dataType batches values) :
    Carries readsNumber index dataType batches (values.map (Option.map Ieee.ofInt)) := by
  induction h with
  | nil => exact .nil
  | @cons batch batches array values rest hcolumn hdataType hcells _ ih =>
      rw [List.map_append]
      refine .cons hcolumn hdataType (List.forall₂_map_right_iff.mpr (hcells.imp ?_)) ih
      intro cell value hcell
      match cell, value, hcell with
      | none, none, _ => trivial
      | some (.scalar scalar), some value, hinteger =>
          have hinteger : scalar.integer = some value := hinteger
          show scalar.asF64 = some (Ieee.ofInt value)
          rw [Scalar.asF64, hinteger]

/-- The numbers of an integer column are its integers, which have 64 bits. -/
theorem numbers_of_integers (hfield : schema.fields[index]? = some field)
    (hinteger : (KernelKind.fromDataType field.dataType).isInteger = true)
    (hbatches : ∀ batch ∈ batches, batch.schema = schema) :
    (columnValues Scalar.asF64 index batches).reduceOption = floats (integersOf index batches) ∧
      ∀ value ∈ integersOf index batches, |value| ≤ 2 ^ 64 := by
  have hreads : ∀ value, field.dataType.Admits value →
      ∃ read : ℤ, CellReads readsInteger (some value) (some read) ∧ |read| ≤ 2 ^ 64 := by
    intro value hadmits
    generalize field.dataType = dataType at hinteger hadmits
    cases dataType with
    | int8 | int16 | int32 | int64 =>
        match value, hadmits with
        | .scalar (.signed value), hvalue =>
            have hlow := hvalue.1
            have hhigh := hvalue.2
            exact ⟨value, rfl, abs_le.mpr ⟨by omega, by omega⟩⟩
    | uint8 | uint16 | uint32 | uint64 =>
        match value, hadmits with
        | .scalar (.unsigned value), hvalue =>
            have hvalue : value < _ := hvalue
            exact ⟨value, rfl, abs_le.mpr ⟨by omega, by omega⟩⟩
    | _ => cases hinteger
  obtain ⟨values, hcarries, hbounded⟩ := exists_carries hfield hreads hbatches
  rw [integersOf, hcarries.columnValues_eq]
  refine ⟨?_, hbounded⟩
  rw [(carries_floats hcarries).columnValues_eq, floats, List.reduceOption_map]

end Columns

/-- Rounded totals, and their rounded difference, are on the side of the tolerance on which the
totals are. -/
def SameSide (tolerance : ℤ) (left right : List ℤ) (total total' : ℚ) : Prop :=
  (tolerance : ℚ) < |nearestFloat (total - total')| ↔ tolerance < |left.sum - right.sum|

instance (tolerance : ℤ) (left right : List ℤ) (total total' : ℚ) :
    Decidable (SameSide tolerance left right total total') :=
  inferInstanceAs (Decidable (_ ↔ _))

/-- Doubles whose totals have 52 bits are compared as they are. -/
theorem sameSide_of_le {tolerance : ℤ} {left right : List ℤ}
    (hcells : ∀ value ∈ left, value.natAbs ≤ 2 ^ 53)
    (hcells' : ∀ value ∈ right, value.natAbs ≤ 2 ^ 53)
    (htotal : left.sum.natAbs ≤ 2 ^ 52) (htotal' : right.sum.natAbs ≤ 2 ^ 52) :
    SameSide tolerance left right (nearestFloat (floatTotal left))
      (nearestFloat (floatTotal right)) := by
  have hdouble : IsDouble (left.sum : ℤ) := isDouble_of_natAbs_le (htotal.trans (by norm_num))
  have hdouble' : IsDouble (right.sum : ℤ) := isDouble_of_natAbs_le (htotal'.trans (by norm_num))
  have hdifference : (left.sum - right.sum).natAbs ≤ 2 ^ 53 := by omega
  rw [SameSide, floatTotal_eq_sum fun value hvalue => isDouble_of_natAbs_le (hcells value hvalue),
    floatTotal_eq_sum fun value hvalue => isDouble_of_natAbs_le (hcells' value hvalue), hdouble.2,
    hdouble'.2, ← Int.cast_sub, (isDouble_of_natAbs_le hdifference).2]
  exact_mod_cast Iff.rfl

/-- The rule is violated exactly if the totals are further apart than the tolerance. -/
def BalanceState.Exact (state : BalanceState) (batches : List RecordBatch) (tolerance : ℤ) : Prop :=
  state.finish ≠ [] ↔ tolerance <
    |(integersOf state.plan.left batches).sum - (integersOf state.plan.right batches).sum|

section Verdict

variable [Crates]

theorem BalanceState.exact_iff {schema : Schema} {plan : BalanceEqualPlan}
    (hcompiled : plan.CompiledFor schema) (hleft : plan.leftKernel.isInteger = true)
    (hright : plan.rightKernel.isInteger = true) {tolerance : ℤ}
    (htolerance : plan.tolerance.toRat = tolerance) {batches : List RecordBatch}
    (hbatches : ∀ batch ∈ batches, batch.schema = schema) {state : BalanceState}
    (hrun : BalanceState.observeBatches batches (.fresh plan) = .ok state) :
    state.Exact batches tolerance ↔
      SameSide tolerance (integersOf plan.left batches) (integersOf plan.right batches)
        (roundedTotal (integersOf plan.left batches))
        (roundedTotal (integersOf plan.right batches)) := by
  obtain ⟨⟨field, hfield, hkernel⟩, ⟨field', hfield', hkernel'⟩⟩ :=
    And.intro hcompiled.left hcompiled.right
  have hobserved := BalanceState.observeBatches_numbers hcompiled.left_numeric
    hcompiled.right_numeric
    (hkernel ▸ reads_of_isNumeric (hkernel ▸ hcompiled.left_numeric))
    (hkernel' ▸ reads_of_isNumeric (hkernel' ▸ hcompiled.right_numeric))
    (carries_numbers hfield (hkernel ▸ hcompiled.left_numeric) hbatches)
    (carries_numbers hfield' (hkernel' ▸ hcompiled.right_numeric) hbatches) .new .new
  obtain ⟨hnumbers, hcells⟩ := numbers_of_integers hfield (hkernel ▸ hleft) hbatches
  obtain ⟨hnumbers', hcells'⟩ := numbers_of_integers hfield' (hkernel' ▸ hright) hbatches
  rw [hnumbers, hnumbers'] at hobserved
  have hrun : BalanceState.observeBatches batches { plan, left := .float .new, right := .float .new } =
      .ok state := hrun
  rw [hobserved] at hrun
  cases hrun
  obtain ⟨exact, hof, htotal⟩ := exists_roundedTotal hcells
  obtain ⟨exact', hof', htotal'⟩ := exists_roundedTotal hcells'
  have hvalue := (Neumaier.follows_addFloats hof).isWord_value
  have hvalue' := (Neumaier.follows_addFloats hof').isWord_value
  rw [htotal] at hvalue
  rw [htotal'] at hvalue'
  rw [Exact, SameSide, ne_eq, BalanceState.finish_eq_nil_iff hcompiled.tolerance_finite hvalue hvalue',
    htolerance, not_not]

/-- At most `2 ^ 20` rows of small integers are balanced exactly. -/
theorem BalanceState.exact_of_le {schema : Schema} {plan : BalanceEqualPlan}
    (hcompiled : plan.CompiledFor schema) (hleft : plan.leftKernel.isInteger = true)
    (hright : plan.rightKernel.isInteger = true) {tolerance : ℤ}
    (htolerance : plan.tolerance.toRat = tolerance) {batches : List RecordBatch}
    (hbatches : ∀ batch ∈ batches, batch.schema = schema) {state : BalanceState}
    (hrun : BalanceState.observeBatches batches (.fresh plan) = .ok state)
    (hrows : (batches.map RecordBatch.rows).sum ≤ 2 ^ 20)
    (hcells : ∀ value ∈ integersOf plan.left batches, value.natAbs ≤ 2 ^ 53)
    (hcells' : ∀ value ∈ integersOf plan.right batches, value.natAbs ≤ 2 ^ 53)
    (htotal : (integersOf plan.left batches).sum.natAbs ≤ 2 ^ 52)
    (htotal' : (integersOf plan.right batches).sum.natAbs ≤ 2 ^ 52) :
    state.Exact batches tolerance := by
  have hkept {index : ℕ} (hsmall : ∀ value ∈ integersOf index batches, value.natAbs ≤ 2 ^ 53) :
      roundedTotal (integersOf index batches) =
        nearestFloat (floatTotal (integersOf index batches)) := by
    have hbounded : ∀ value ∈ integersOf index batches, |value| ≤ 2 ^ 64 := by
      intro value hvalue
      have hvalue := hsmall value hvalue
      rw [Int.abs_eq_natAbs]
      exact_mod_cast hvalue.trans (by norm_num)
    exact (keepsTotal_of_length_le hbounded
      ((length_integersOf_le index batches).trans hrows)).roundedTotal_eq hbounded
  rw [BalanceState.exact_iff hcompiled hleft hright htolerance hbatches hrun, hkept hcells,
    hkept hcells']
  exact sameSide_of_le hcells hcells' htotal htotal'

end Verdict

/-! ## Executions -/

end ProofFrame
