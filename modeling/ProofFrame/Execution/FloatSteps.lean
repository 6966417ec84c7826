import ProofFrame.Execution.Gaps
import ProofFrame.Lib.Ieee754.Order
import ProofFrame.Lib.Ieee754.Special

/-!
# Steps between floats

A NaN is at no distance from anything, and two equal infinities are at none from each
other.  The rule's comparison takes such a step for a short one.
-/

namespace ProofFrame

open Lib Lib.Run Lib.Ieee754

/-! ## Distances -/

/-- The two floats have a numeric distance. -/
def HasDistance (previous next : F64) : Prop :=
  previous.isNaN = false ∧ next.isNaN = false ∧
    ¬(previous.isInfinite = true ∧ next.isInfinite = true ∧ previous.negative = next.negative)

theorem isNaN_sub_iff {previous next : F64} :
    (next.sub previous).isNaN = false ↔ HasDistance previous next := by
  unfold HasDistance
  rw [Ieee.sub, Ieee.add, Ieee.isNaN_neg, Ieee.isInfinite_neg]
  cases hnext : next.isNaN with
  | true => simp
  | false =>
      cases hprevious : previous.isNaN with
      | true => simp
      | false =>
          cases hinfinite : next.isInfinite with
          | false =>
              cases hinfinite' : previous.isInfinite with
              | false => simp [Ieee.isNaN_ofRat]
              | true => simp [hprevious]
          | true =>
              cases hinfinite' : previous.isInfinite with
              | false => simp [hnext]
              | true =>
                  cases hsign : next.negative <;> cases hsign' : previous.negative <;>
                    simp [Ieee.neg, hsign', hnext]

/-! ## The rule -/

/-- The distance of two values is a number not greater than the rule allows. -/
def shortStep (plan : GapDetectionPlan) (previous next : F64) : Bool :=
  (next.sub previous).le (plan.expectedStep.add plan.tolerance)

/-- How many neighbours fail to be a short step apart. -/
def failedSteps (plan : GapDetectionPlan) (values : List (Option F64)) : ℕ :=
  (adjacent values.reduceOption).countP fun pair => !shortStep plan pair.1 pair.2

/-- Whatever number of gaps the rule allows, it passes only where so few steps fail. -/
def NeverPassesUnmeasured [Crates] (plan : GapDetectionPlan) (batches : List RecordBatch)
    (values : List (Option F64)) : Prop :=
  ∀ maxGaps state found,
    GapState.observeBatches batches 0 (.fresh { plan with maxGaps }) = .ok (state, found) →
      state.finish = [] → failedSteps plan values ≤ maxGaps

theorem threshold_not_nan {plan : GapDetectionPlan} {schema : Schema}
    (h : plan.CompiledFor schema) : (plan.expectedStep.add plan.tolerance).isNaN = false := by
  rw [h.threshold_eq]
  exact Ieee.isNaN_ofRat _ _

/-- A step the rule counts fails to be short. -/
theorem not_shortStep_iff {plan : GapDetectionPlan} {schema : Schema} (h : plan.CompiledFor schema)
    (previous next : F64) : shortStep plan previous next = false ↔
      GapState.counts .float plan previous next = true ∨ ¬HasDistance previous next := by
  have hthreshold := threshold_not_nan h
  unfold shortStep GapState.counts GapState.isGap
  show _ ↔ (next.sub previous).gt _ = true ∨ _
  rw [← isNaN_sub_iff]
  cases hnan : (next.sub previous).isNaN with
  | true => simp [Ieee.le, Ieee.lt, Ieee.partialCmp, hnan]
  | false =>
      rw [Ieee.le, Ieee.lt, Ieee.gt, Ieee.partialCmp_of_not_nan hnan hthreshold]
      cases compare (next.sub previous).key (plan.expectedStep.add plan.tolerance).key <;> decide

/-- A step that is counted is a number. -/
theorem GapState.hasDistance_of_counts {plan : GapDetectionPlan} {previous next : F64}
    (h : counts .float plan previous next = true) : HasDistance previous next := by
  rw [← isNaN_sub_iff]
  have hgt : (next.sub previous).gt (plan.expectedStep.add plan.tolerance) = true := h
  by_contra hnan
  rw [Bool.not_eq_false] at hnan
  simp [Ieee.gt, Ieee.partialCmp, hnan] at hgt

/-- If no more items have the wider property, they have the narrower one too. -/
theorem forall_of_countP_le {α : Type} {p q : α → Bool} {items : List α}
    (hpq : ∀ item ∈ items, p item = true → q item = true)
    (hle : items.countP q ≤ items.countP p) : ∀ item ∈ items, q item = true → p item = true := by
  induction items with
  | nil => exact fun item h => absurd h List.not_mem_nil
  | cons first items ih =>
      have hrest := List.countP_mono_left fun item h => hpq item (List.mem_cons_of_mem _ h)
      have hfirst := hpq first List.mem_cons_self
      rw [List.countP_cons, List.countP_cons] at hle
      intro item hmem hq
      rcases List.mem_cons.mp hmem with rfl | hmem
      · by_contra hp
        rw [if_pos hq, if_neg hp] at hle
        omega
      · refine ih (fun item h => hpq item (List.mem_cons_of_mem _ h)) ?_ item hmem hq
        split at hle <;> split at hle
        · omega
        · omega
        · rename_i hq hp
          exact absurd (hfirst hp) hq
        · omega

/-- A step rule passes only where few enough steps fail, if all neighbours have a distance. -/
theorem neverPassesUnmeasured_iff [Crates] {schema : Schema} {entry : GapDetectionAst × ℕ}
    {plan : GapDetectionPlan} (hcompile : compileGapDetection schema entry = .ok plan)
    {field : Field} (hfield : schema.fields[plan.columnIndex]? = some field)
    {batches : List RecordBatch} {values : List (Option F64)}
    (hcarries : Carries Measure.float.reads plan.columnIndex field.dataType batches values) :
    NeverPassesUnmeasured plan batches values ↔
      ∀ pair ∈ adjacent values.reduceOption, HasDistance pair.1 pair.2 := by
  have hcompiled := compiledFor_of_compile hcompile
  have hcounted : ∀ pair : F64 × F64, GapState.counts .float plan pair.1 pair.2 = true →
      (!shortStep plan pair.1 pair.2) = true := by
    intro pair h
    rw [(not_shortStep_iff hcompiled _ _).mpr (.inl h)]
    rfl
  have hrun : ∀ maxGaps, ∃ found,
      GapState.observeBatches batches 0 (.fresh { plan with maxGaps }) =
        .ok (.after .float { plan with maxGaps } values, found) := fun maxGaps =>
    @GapState.observeBatches_fresh _ .float _ { plan with maxGaps } _ hcompiled.isOrdered
      (hcompiled.reads hfield) _ _ hcarries
  have hfailed : failedSteps plan values ≤ (GapState.after .float plan values).gaps ↔
      ∀ pair ∈ adjacent values.reduceOption, HasDistance pair.1 pair.2 := by
    rw [GapState.after, length_gapRows, failedSteps]
    constructor
    · intro hle pair hmem
      by_contra hdistance
      have hlong := forall_of_countP_le (fun pair _ => hcounted pair) hle pair hmem (by
        rw [(not_shortStep_iff hcompiled _ _).mpr (.inr hdistance)]
        rfl)
      exact hdistance (GapState.hasDistance_of_counts hlong)
    · intro hdistance
      refine List.countP_mono_left fun pair hmem hfails => ?_
      rw [Bool.not_eq_true'] at hfails
      exact ((not_shortStep_iff hcompiled _ _).mp hfails).resolve_right
        (not_not_intro (hdistance pair hmem))
  rw [← hfailed]
  constructor
  · intro hnever
    obtain ⟨found, hrun⟩ := hrun (GapState.after .float plan values).gaps
    exact hnever _ _ _ hrun (GapState.finish_eq_nil.mpr le_rfl)
  · intro hle maxGaps state found hstate hpasses
    obtain ⟨_, hrun⟩ := hrun maxGaps
    rw [hrun] at hstate
    cases hstate
    exact hle.trans (GapState.finish_eq_nil.mp hpasses)

/-! ## A missed step -/

/-- The float 1. -/
def unitFloat : F64 := ⟨false, 1023 * 2 ^ 52, by norm_num⟩

/-- A column of floats. -/
def floatColumn (values : List F64) : ArrowArray where
  field := .mk "value" .float64 false []
  cells := values.map fun value => some (.scalar (.float64 value))
  typed := by
    intro cell hcell
    obtain ⟨value, -, rfl⟩ := List.mem_map.mp hcell
    trivial

def floatSchema : Schema := { fields := [.mk "value" .float64 false []], metadata := [] }

/-- Steps of at most one. -/
def unitSteps : GapDetectionAst :=
  { name := "steps", column := "value", expectedStep := unitFloat, tolerance := zeroFloat
    maxGaps := 0, nulls := .reject }

def unitStepsPlan : GapDetectionPlan :=
  { columnIndex := 0, column := "value", name := "steps", expectedStep := unitFloat
    tolerance := zeroFloat, maxGaps := 0, nulls := .reject, kernel := .f64, unit := "units" }

theorem compile_unitSteps [Crates] :
    compileGapDetection floatSchema (unitSteps, 0) = .ok unitStepsPlan := by
  rfl

theorem carries_floatColumn (values : List F64) :
    Carries Measure.float.reads 0 .float64 [.ofColumn (floatColumn values)] (values.map some) := by
  rw [← List.append_nil (values.map some)]
  refine .cons rfl rfl ?_ .nil
  show List.Forall₂ _ (values.map _) (values.map some)
  rw [List.forall₂_map_left_iff, List.forall₂_map_right_iff]
  exact List.forall₂_same.mpr fun _ _ => rfl

theorem neverPassesUnmeasured_iff_ones :
    let _ : Crates := Crates.zeroDigests
    NeverPassesUnmeasured unitStepsPlan [.ofColumn (floatColumn [unitFloat, unitFloat])]
      [some unitFloat, some unitFloat] ↔
        ∀ pair ∈ adjacent [unitFloat, unitFloat], HasDistance pair.1 pair.2 := by
  intro _
  exact neverPassesUnmeasured_iff compile_unitSteps rfl (carries_floatColumn [unitFloat, unitFloat])

/-- Nothing is counted between a number and a NaN, so the rule passes. -/
theorem nan_passes :
    let _ : Crates := Crates.zeroDigests
    compileGapDetection floatSchema (unitSteps, 0) = .ok unitStepsPlan ∧
      ¬NeverPassesUnmeasured unitStepsPlan [.ofColumn (floatColumn [unitFloat, Ieee.nan])]
        [some unitFloat, some Ieee.nan] := by
  intro _
  refine ⟨compile_unitSteps, fun hnever => ?_⟩
  obtain ⟨found, hrun⟩ := @GapState.observeBatches_fresh _ .float _ unitStepsPlan _ rfl rfl _ _
    (carries_floatColumn [unitFloat, Ieee.nan])
  have hnone : GapState.counts .float unitStepsPlan unitFloat Ieee.nan = false := rfl
  have hgaps : (GapState.after .float unitStepsPlan [some unitFloat, some Ieee.nan]).gaps = 0 := by
    rw [GapState.after, length_gapRows]
    simp [adjacent, hnone]
  have hfailed := hnever 0 _ _ hrun (GapState.finish_eq_nil.mpr hgaps.le)
  have hshort : shortStep unitStepsPlan unitFloat Ieee.nan = false := rfl
  simp [failedSteps, adjacent, hshort] at hfailed

end ProofFrame
