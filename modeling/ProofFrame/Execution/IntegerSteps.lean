import ProofFrame.Execution.Gaps
import ProofFrame.Lib.Ieee754.Double

/-!
# Steps between integers

A step between two integers is a float: the rounded difference of signed values, and
the rounded difference of the rounded values of unsigned ones.  So the rule counts
the exact steps where rounding leaves every step on its side of the threshold.
-/

namespace ProofFrame

open Lib Lib.Run Lib.Ieee754

/-! ## Families -/

/-- The two ways of subtracting integers. -/
inductive IntegerFamily where
  | signed
  | unsigned
  deriving DecidableEq

def KernelKind.family : KernelKind → Option IntegerFamily
  | .i8 | .i16 | .i32 | .i64 | .date32 | .date64 | .timestamp _ => some .signed
  | .u8 | .u16 | .u32 | .u64 => some .unsigned
  | _ => none

namespace IntegerFamily

def Admits : IntegerFamily → ℤ → Prop
  | signed, value => InSigned 64 value
  | unsigned, value => 0 ≤ value ∧ value < 2 ^ 64

instance : ∀ family value, Decidable (Admits family value)
  | signed, value => inferInstanceAs (Decidable (InSigned 64 value))
  | unsigned, value => inferInstanceAs (Decidable (0 ≤ value ∧ value < 2 ^ 64))

def measure : IntegerFamily → Measure ℤ
  | signed => .int
  | unsigned => ⟨fun value => .uint value.toNat,
      fun left right => (Ieee.ofInt right.toNat).sub (Ieee.ofInt left.toNat), fun _ _ => rfl⟩

/-- The number a value is subtracted as. -/
def operand : IntegerFamily → ℤ → ℚ
  | signed, value => value
  | unsigned, value => nearestFloat value

/-- Rounding leaves the step between two values on its side of the threshold. -/
def KeepsSide (family : IntegerFamily) (threshold left right : ℤ) : Prop :=
  threshold < right - left ↔
    nearestFloat threshold < nearestFloat (family.operand right - family.operand left)

end IntegerFamily

theorem isFinite_ofInt {value : ℤ} (hlow : 0 ≤ value) (hhigh : value < 2 ^ 64) :
    (Ieee.ofInt value : F64).isFinite = true := by
  refine isFinite_ofRat_of_le ?_
  rw [abs_of_nonneg (by exact_mod_cast hlow)]
  exact_mod_cast hhigh.le

theorem toRat_neg (value : F64) : value.neg.toRat = -value.toRat := by
  unfold Ieee.toRat Ieee.neg
  cases value.negative <;> simp

namespace IntegerFamily

theorem toRat_step {family : IntegerFamily} {left right : ℤ} (hleft : family.Admits left)
    (hright : family.Admits right) : (family.measure.step left right).toRat =
      nearestFloat (family.operand right - family.operand left) ∧
      (family.measure.step left right).isNaN = false := by
  cases family with
  | signed =>
      refine ⟨?_, Ieee.isNaN_ofRat _ _⟩
      show (Ieee.ofRat _ _ : F64).toRat = _
      rw [toRat_ofRat, operand, operand]
      push_cast
      rfl
  | unsigned =>
      have hleft' := isFinite_ofInt hleft.1 hleft.2
      have hright' := isFinite_ofInt hright.1 hright.2
      show ((Ieee.ofInt right.toNat : F64).sub (Ieee.ofInt left.toNat)).toRat = _ ∧
        ((Ieee.ofInt right.toNat : F64).sub (Ieee.ofInt left.toNat)).isNaN = false
      rw [Int.toNat_of_nonneg hleft.1, Int.toNat_of_nonneg hright.1, Ieee.sub,
        Ieee.add_of_finite hright' (by exact hleft')]
      refine ⟨?_, Ieee.isNaN_ofRat _ _⟩
      rw [toRat_ofRat, toRat_neg, ← sub_eq_add_neg]
      rfl

/-- What the rule counts as a gap. -/
theorem counts_iff {family : IntegerFamily} {plan : GapDetectionPlan} {schema : Schema}
    (hcompiled : plan.CompiledFor schema) {threshold : ℤ}
    (hthreshold : plan.expectedStep.toRat + plan.tolerance.toRat = threshold) {left right : ℤ}
    (hleft : family.Admits left) (hright : family.Admits right) :
    GapState.counts family.measure plan left right = true ↔
      nearestFloat threshold < nearestFloat (family.operand right - family.operand left) := by
  obtain ⟨hstep, hnan⟩ := toRat_step hleft hright
  rw [GapState.counts, GapState.isGap, hcompiled.threshold_eq, hthreshold,
    Ieee.gt_iff_of_not_nan hnan (Ieee.isNaN_ofRat _ _), hstep, toRat_ofRat]

/-- The rule counts a step exactly where rounding keeps its side. -/
theorem keepsSide_iff {family : IntegerFamily} {plan : GapDetectionPlan} {schema : Schema}
    (hcompiled : plan.CompiledFor schema) {threshold : ℤ}
    (hthreshold : plan.expectedStep.toRat + plan.tolerance.toRat = threshold) {left right : ℤ}
    (hleft : family.Admits left) (hright : family.Admits right) :
    family.KeepsSide threshold left right ↔
      GapState.counts family.measure plan left right = decide (threshold < right - left) := by
  rw [KeepsSide, ← counts_iff hcompiled hthreshold hleft hright]
  cases GapState.counts family.measure plan left right <;> simp

end IntegerFamily

/-! ## Initial parts of a column -/

section Prefix

variable {α : Type} {far far' : α → α → Bool}

/-- If every initial part has as many gaps either way, every step is judged the same. -/
theorem far_eq_of_lengths {values : List (Option α)}
    (h : ∀ n, (gapRows far (values.take n)).length = (gapRows far' (values.take n)).length) :
    ∀ pair ∈ adjacent values.reduceOption, far pair.1 pair.2 = far' pair.1 pair.2 := by
  induction values using List.reverseRecOn with
  | nil => simp
  | append_singleton values value ih =>
      have hbefore : ∀ n, (gapRows far (values.take n)).length =
          (gapRows far' (values.take n)).length := by
        intro n
        have hpart := h (min n values.length)
        rwa [List.take_append_of_le_length (min_le_right _ _), ← List.take_take,
          List.take_length] at hpart
      cases value with
      | none => simpa [List.reduceOption_append] using ih hbefore
      | some value =>
          have hall := h (values ++ [some value]).length
          have hvalues := hbefore values.length
          rw [List.take_length] at hall hvalues
          intro pair hmem
          rw [List.reduceOption_append, List.reduceOption_singleton, Option.toList_some,
            adjacent_append_singleton, List.mem_append] at hmem
          refine hmem.elim (ih hbefore pair) fun hlast => ?_
          rw [Option.mem_toList, Option.map_eq_some_iff] at hlast
          obtain ⟨last, hlast, rfl⟩ := hlast
          rw [length_gapRows, length_gapRows, List.reduceOption_append,
            List.reduceOption_singleton, Option.toList_some, adjacent_append_singleton, hlast,
            List.countP_append, List.countP_append, ← length_gapRows, ← length_gapRows, hvalues]
            at hall
          cases hfar : far last value <;> cases hfar' : far' last value <;>
            simp [hfar, hfar'] at hall ⊢

/-- If every step is judged the same, every initial part has the same gaps. -/
theorem gapRows_take_congr {values : List (Option α)}
    (h : ∀ pair ∈ adjacent values.reduceOption, far pair.1 pair.2 = far' pair.1 pair.2) (n : ℕ) :
    gapRows far (values.take n) = gapRows far' (values.take n) := by
  have hpart : ∀ pair ∈ adjacent (values.take n).reduceOption,
      far pair.1 pair.2 = far' pair.1 pair.2 := by
    intro pair hmem
    refine h pair ?_
    rw [← List.take_append_drop n values, List.reduceOption_append]
    exact adjacent_subset_append _ _ hmem
  rw [gapRows, gapRows]
  congr 1
  refine List.filter_congr fun pair hmem => ?_
  refine hpart (pair.1.1, pair.2.1) ?_
  rw [← map_fst_present, adjacent_map]
  exact List.mem_map_of_mem hmem

end Prefix

/-! ## The rule -/

/-- The rows that exact subtraction finds too far from the value before them. -/
def exactGaps (threshold : ℤ) (values : List (Option ℤ)) : List ℕ :=
  gapRows (fun left right => decide (threshold < right - left)) values

section Rule

variable [Crates]

/-- After every initial part of the column, in whatever batches, the rule has counted the exact
gaps, knows the first, and would be violated if they are too many. -/
def CountsExactly (plan : GapDetectionPlan) (family : IntegerFamily) (dataType : DataType)
    (threshold : ℤ) (values : List (Option ℤ)) : Prop :=
  ∀ n batches, Carries family.measure.reads plan.columnIndex dataType batches (values.take n) →
    ∃ state found, GapState.observeBatches batches 0 (.fresh plan) = .ok (state, found) ∧
      state.gaps = (exactGaps threshold (values.take n)).length ∧
      state.firstRow = (exactGaps threshold (values.take n)).head? ∧
      (state.finish = [] ↔ (exactGaps threshold (values.take n)).length ≤ plan.maxGaps)

/-- The other 64-bit type of integers. -/
def KernelKind.twin : KernelKind → Option (IntegerFamily × KernelKind × DataType)
  | .i64 => some (.unsigned, .u64, .uint64)
  | .u64 => some (.signed, .i64, .int64)
  | _ => none

/-- A column of the other 64-bit type with the same values has the same verdict, whatever the
rule allows. -/
def AgreesWithTwin (plan : GapDetectionPlan) (family : IntegerFamily) (dataType : DataType)
    (values : List (Option ℤ)) : Prop :=
  ∀ family' kernel dataType', plan.kernel.twin = some (family', kernel, dataType') →
    (∀ value ∈ values.reduceOption, family'.Admits value) →
    ∀ n maxGaps batches batches' state found state' found',
      Carries family.measure.reads plan.columnIndex dataType batches (values.take n) →
      Carries family'.measure.reads plan.columnIndex dataType' batches' (values.take n) →
      GapState.observeBatches batches 0 (.fresh { plan with maxGaps }) = .ok (state, found) →
      GapState.observeBatches batches' 0 (.fresh { plan with maxGaps, kernel }) =
        .ok (state', found') →
      (state.finish = [] ↔ state'.finish = [])

omit [Crates] in
/-- Rounding keeps the side of every step of the column, and of a column of the other 64-bit type
with the same values. -/
structure KeepsSides (plan : GapDetectionPlan) (family : IntegerFamily) (threshold : ℤ)
    (values : List (Option ℤ)) : Prop where
  own : ∀ pair ∈ adjacent values.reduceOption, family.KeepsSide threshold pair.1 pair.2
  twin : ∀ family' kernel dataType, plan.kernel.twin = some (family', kernel, dataType) →
    (∀ value ∈ values.reduceOption, family'.Admits value) →
    ∀ pair ∈ adjacent values.reduceOption, family'.KeepsSide threshold pair.1 pair.2

omit [Crates] in
theorem mem_of_mem_adjacent {α : Type} {items : List α} {pair : α × α}
    (h : pair ∈ adjacent items) : pair.1 ∈ items ∧ pair.2 ∈ items :=
  ⟨List.of_mem_zip h |>.1, List.mem_of_mem_tail (List.of_mem_zip h).2⟩

omit [Crates] in
theorem keepsSide_iff_counts {family : IntegerFamily} {plan : GapDetectionPlan} {schema : Schema}
    (hcompiled : plan.CompiledFor schema) {threshold : ℤ}
    (hthreshold : plan.expectedStep.toRat + plan.tolerance.toRat = threshold)
    {values : List (Option ℤ)} (hadmits : ∀ value ∈ values.reduceOption, family.Admits value)
    {pair : ℤ × ℤ} (hmem : pair ∈ adjacent values.reduceOption) :
    family.KeepsSide threshold pair.1 pair.2 ↔
      GapState.counts family.measure plan pair.1 pair.2 =
        (fun left right => decide (threshold < right - left)) pair.1 pair.2 :=
  IntegerFamily.keepsSide_iff hcompiled hthreshold (hadmits _ (mem_of_mem_adjacent hmem).1)
    (hadmits _ (mem_of_mem_adjacent hmem).2)

omit [Crates] in
/-- The rule's counts are exact on every initial part where rounding keeps the sides. -/
theorem keepsSide_iff_lengths {family : IntegerFamily} {plan : GapDetectionPlan} {schema : Schema}
    (hcompiled : plan.CompiledFor schema) {threshold : ℤ}
    (hthreshold : plan.expectedStep.toRat + plan.tolerance.toRat = threshold)
    {values : List (Option ℤ)} (hadmits : ∀ value ∈ values.reduceOption, family.Admits value) :
    (∀ n, (GapState.after family.measure plan (values.take n)).gaps =
      (exactGaps threshold (values.take n)).length) ↔
      ∀ pair ∈ adjacent values.reduceOption, family.KeepsSide threshold pair.1 pair.2 := by
  have hiff := fun pair (hmem : pair ∈ adjacent values.reduceOption) =>
    keepsSide_iff_counts hcompiled hthreshold hadmits hmem
  constructor
  · intro hlengths pair hmem
    exact (hiff pair hmem).mpr (far_eq_of_lengths hlengths pair hmem)
  · intro hkeeps n
    exact congrArg List.length
      (gapRows_take_congr (fun pair hmem => (hiff pair hmem).mp (hkeeps pair hmem)) n)

omit [Crates] in
theorem mem_take_reduceOption {values : List (Option ℤ)} {n : ℕ} {value : ℤ}
    (h : value ∈ (values.take n).reduceOption) : value ∈ values.reduceOption := by
  rw [List.reduceOption_mem_iff] at h ⊢
  exact List.mem_of_mem_take h

omit [Crates] in
theorem eq_of_le_iff {m n : ℕ} (h : ∀ bound, m ≤ bound ↔ n ≤ bound) : m = n :=
  le_antisymm ((h n).mpr le_rfl) ((h m).mp le_rfl)

omit [Crates] in
/-- The type of the other column is read by its kernel and holds the values. -/
theorem twin_cases {kernel kernel' : KernelKind} {family : IntegerFamily} {dataType : DataType}
    (h : kernel.twin = some (family, kernel', dataType)) :
    kernel'.isOrdered = true ∧ kernel'.reads dataType = true ∧ dataType.isScalar = true ∧
      dataType.hasValidity = true ∧
      ∀ value, family.Admits value → Holds family.measure.reads dataType value := by
  unfold KernelKind.twin at h
  split at h
  · cases h
    refine ⟨rfl, rfl, rfl, rfl, fun value hvalue => ⟨.unsigned value.toNat, ?_, rfl⟩⟩
    have hlow := hvalue.1
    have hhigh := hvalue.2
    show value.toNat < 2 ^ 64
    omega
  · cases h
    exact ⟨rfl, rfl, rfl, rfl, fun value hvalue => ⟨.signed value, hvalue, rfl⟩⟩
  · cases h

/-- The exact count, and the same verdict for the other 64-bit type, are what rounding leaves. -/
theorem countsExactly_iff {schema : Schema} {entry : GapDetectionAst × ℕ} {plan : GapDetectionPlan}
    (hcompile : compileGapDetection schema entry = .ok plan) {field : Field}
    (hfield : schema.fields[plan.columnIndex]? = some field) {family : IntegerFamily}
    {step tolerance : ℤ}
    (hstep : plan.expectedStep.toRat = step) (htolerance : plan.tolerance.toRat = tolerance)
    {batches : List RecordBatch} {values : List (Option ℤ)}
    (hcarries : Carries family.measure.reads plan.columnIndex field.dataType batches values)
    (hadmits : ∀ value ∈ values.reduceOption, family.Admits value) :
    CountsExactly plan family field.dataType (step + tolerance) values ∧
        AgreesWithTwin plan family field.dataType values ↔
      KeepsSides plan family (step + tolerance) values := by
  have hcompiled := compiledFor_of_compile hcompile
  have hthreshold : plan.expectedStep.toRat + plan.tolerance.toRat = ((step + tolerance : ℤ) : ℚ) := by
    rw [hstep, htolerance, Int.cast_add]
  obtain ⟨unit, hunit⟩ := hcompiled.exists_unit hfield
  obtain ⟨hscalar, hvalidity, -, -⟩ := stepUnit_cases hunit
  have hexists (n : ℕ) : ∃ batches,
      Carries family.measure.reads plan.columnIndex field.dataType batches (values.take n) :=
    exists_batches hscalar hvalidity
      (fun value hmem => hcarries.holds hscalar value (mem_take_reduceOption hmem)) _
  have hrun (maxGaps n : ℕ) {batches : List RecordBatch}
      (hpart : Carries family.measure.reads plan.columnIndex field.dataType batches (values.take n)) :
      ∃ found, GapState.observeBatches batches 0 (.fresh { plan with maxGaps }) =
        .ok (.after family.measure { plan with maxGaps } (values.take n), found) :=
    @GapState.observeBatches_fresh _ _ _ { plan with maxGaps } _ hcompiled.isOrdered
      (hcompiled.reads hfield) _ _ hpart
  constructor
  · rintro ⟨hexact, hagrees⟩
    -- the counts of every initial part are exact, so every pair of neighbours keeps its side
    have hown : ∀ n, (GapState.after family.measure plan (values.take n)).gaps =
        (exactGaps (step + tolerance) (values.take n)).length := by
      intro n
      obtain ⟨batches, hpart⟩ := hexists n
      obtain ⟨state, found, hstate, hgaps, -⟩ := hexact n batches hpart
      obtain ⟨_, hafter⟩ := hrun plan.maxGaps n hpart
      rw [hafter] at hstate
      cases hstate
      exact hgaps
    refine ⟨(keepsSide_iff_lengths hcompiled hthreshold hadmits).mp hown, ?_⟩
    intro family' kernel dataType htwin hadmits'
    obtain ⟨hordered, hreads, hscalar', hvalidity', hholds⟩ := twin_cases htwin
    refine (keepsSide_iff_lengths hcompiled hthreshold hadmits').mp fun n => ?_
    obtain ⟨batches, hpart⟩ := hexists n
    obtain ⟨batches', hpart'⟩ := @exists_batches _ family'.measure.reads _ hscalar'
      hvalidity' (values.take n)
      (fun value hmem => hholds value (hadmits' value (mem_take_reduceOption hmem))) plan.columnIndex
    rw [← hown n]
    -- two counts that no limit tells apart are equal
    refine (eq_of_le_iff fun maxGaps => ?_).symm
    obtain ⟨found, hstate⟩ := hrun maxGaps n hpart
    obtain ⟨found', hstate'⟩ := @GapState.observeBatches_fresh _ _ _
      { plan with maxGaps, kernel } _ hordered hreads _ _ hpart'
    have hsame := hagrees family' kernel dataType htwin hadmits' n maxGaps batches batches' _ _ _ _
      hpart hpart' hstate hstate'
    rwa [GapState.finish_eq_nil, GapState.finish_eq_nil] at hsame
  · rintro ⟨hkeeps, hkeeps'⟩
    have hown := (keepsSide_iff_lengths hcompiled hthreshold hadmits).mpr hkeeps
    refine ⟨fun n batches hpart => ?_, ?_⟩
    · obtain ⟨found, hstate⟩ := hrun plan.maxGaps n hpart
      refine ⟨_, found, hstate, hown n, ?_, ?_⟩
      · exact congrArg List.head? (gapRows_take_congr (fun pair hmem =>
          (keepsSide_iff_counts hcompiled hthreshold hadmits hmem).mp (hkeeps pair hmem)) n)
      · rw [GapState.finish_eq_nil, hown n]
        rfl
    · intro family' kernel dataType htwin hadmits' n maxGaps batches batches' state found state'
        found' hpart hpart' hstate hstate'
      obtain ⟨hordered, hreads, -⟩ := twin_cases htwin
      obtain ⟨_, hafter⟩ := hrun maxGaps n hpart
      obtain ⟨_, hafter'⟩ := @GapState.observeBatches_fresh _ _ _
        { plan with maxGaps, kernel } _ hordered hreads _ _ hpart'
      rw [hafter] at hstate
      rw [hafter'] at hstate'
      cases hstate
      cases hstate'
      have htwin := (keepsSide_iff_lengths hcompiled hthreshold hadmits').mpr
        (hkeeps' family' kernel dataType htwin hadmits') n
      rw [GapState.finish_eq_nil, GapState.finish_eq_nil]
      show (GapState.after family.measure plan (values.take n)).gaps ≤ maxGaps ↔
        (GapState.after family'.measure plan (values.take n)).gaps ≤ maxGaps
      rw [hown n, htwin]

end Rule

/-! ## A step made up -/

/-- The float 2. -/
def stepOfTwo : F64 := ⟨false, (1022 + 1) * 2 ^ 52 + 2 ^ 52, by norm_num⟩

theorem toRat_stepOfTwo : stepOfTwo.toRat = (2 : ℤ) := by
  have hunits := units_two_pow 1
  rw [Ieee.toRat, stepOfTwo, if_neg (by decide)]
  show 1 * ((units 52 ((1022 + 1) * 2 ^ 52 + 2 ^ 52) : ℕ) * unit 11 52 : ℚ) = _
  rw [hunits, Nat.cast_mul, mul_right_comm, two_pow_mul_unit]
  norm_num

theorem toRat_zeroFloat : zeroFloat.toRat = (0 : ℤ) := by
  simp [zeroFloat, Ieee.toRat, Ieee.zero]

def unsignedSchema : Schema := { fields := [.mk "value" .uint64 false []], metadata := [] }

/-- Steps of at most two. -/
def stepsOfTwo : GapDetectionAst :=
  { name := "steps", column := "value", expectedStep := stepOfTwo, tolerance := zeroFloat
    maxGaps := 0, nulls := .reject }

def stepsOfTwoPlan : GapDetectionPlan :=
  { columnIndex := 0, column := "value", name := "steps", expectedStep := stepOfTwo
    tolerance := zeroFloat, maxGaps := 0, nulls := .reject, kernel := .u64, unit := "units" }

theorem compile_stepsOfTwo [Crates] :
    compileGapDetection unsignedSchema (stepsOfTwo, 0) = .ok stepsOfTwoPlan := by
  rfl

/-- Two values past `2 ^ 53`, two apart: rounding moves them apart. -/
def wideValues : List (Option ℤ) := [some 9007199254740993, some 9007199254740995]

def wideBatch : RecordBatch := .ofColumn
  { field := .mk "value" .uint64 false []
    cells := [some (.scalar (.unsigned 9007199254740993)),
      some (.scalar (.unsigned 9007199254740995))]
    typed := by
      intro cell hcell
      simp only [List.mem_cons, List.not_mem_nil, or_false] at hcell
      rcases hcell with rfl | rfl
      · exact (by decide : 9007199254740993 < 2 ^ 64)
      · exact (by decide : 9007199254740995 < 2 ^ 64) }

theorem carries_wideBatch :
    Carries IntegerFamily.unsigned.measure.reads 0 .uint64 [wideBatch] wideValues := by
  rw [← List.append_nil wideValues]
  exact .cons rfl rfl (.cons rfl (.cons rfl .nil)) .nil

theorem countsExactly_iff_wide :
    let _ : Crates := Crates.zeroDigests
    CountsExactly stepsOfTwoPlan .unsigned .uint64 (2 + 0) wideValues ∧
        AgreesWithTwin stepsOfTwoPlan .unsigned .uint64 wideValues ↔
      KeepsSides stepsOfTwoPlan .unsigned (2 + 0) wideValues := by
  intro _
  have hfield : unsignedSchema.fields[stepsOfTwoPlan.columnIndex]? =
      some (.mk "value" .uint64 false []) := rfl
  refine countsExactly_iff compile_stepsOfTwo hfield toRat_stepOfTwo toRat_zeroFloat carries_wideBatch ?_
  decide

/-- The values are two apart, but the rounded values are four apart, and a gap is counted. -/
theorem wideStep_counted :
    let _ : Crates := Crates.zeroDigests
    compileGapDetection unsignedSchema (stepsOfTwo, 0) = .ok stepsOfTwoPlan ∧
      stepOfTwo.toRat = (2 : ℤ) ∧ zeroFloat.toRat = (0 : ℤ) ∧
      ¬CountsExactly stepsOfTwoPlan .unsigned .uint64 (2 + 0) wideValues := by
  intro _
  refine ⟨compile_stepsOfTwo, toRat_stepOfTwo, toRat_zeroFloat, fun hexact => ?_⟩
  obtain ⟨state, found, hstate, hgaps, -⟩ := hexact 2 [wideBatch] carries_wideBatch
  obtain ⟨_, hafter⟩ := @GapState.observeBatches_fresh _ IntegerFamily.unsigned.measure _
    stepsOfTwoPlan _ rfl rfl _ _ carries_wideBatch
  rw [hafter] at hstate
  cases hstate
  have hcounted : GapState.counts IntegerFamily.unsigned.measure stepsOfTwoPlan 9007199254740993
      9007199254740995 = true := by decide +kernel
  rw [GapState.after, length_gapRows] at hgaps
  have hone : (adjacent wideValues.reduceOption).countP (fun pair =>
      GapState.counts IntegerFamily.unsigned.measure stepsOfTwoPlan pair.1 pair.2) = 1 := by
    simpa [wideValues, List.reduceOption, adjacent] using hcounted
  have hnone : (exactGaps (2 + 0) (wideValues.take 2)).length = 0 := by decide
  rw [hnone] at hgaps
  exact absurd (hone.symm.trans hgaps) (by decide)

end ProofFrame
