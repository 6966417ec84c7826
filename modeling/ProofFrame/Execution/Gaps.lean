import ProofFrame.Contract.CompileDataset
import ProofFrame.Execution.ColumnRuns
import ProofFrame.Lib.Adjacent
import ProofFrame.Lib.Ieee754.Order

/-!
# What a step rule counts

A step rule goes through the values of its column that are not null, in whatever
batches they come, and counts the neighbours its float comparison calls too far
apart.
-/

namespace ProofFrame

open Lib Lib.Run Lib.Ieee754

/-! ## Plans -/

/-- What is known of a step rule that compiled against a schema. -/
structure GapDetectionPlan.CompiledFor (plan : GapDetectionPlan) (schema : Schema) : Prop where
  expectedStep_finite : plan.expectedStep.isFinite = true
  expectedStep_pos : plan.expectedStep.gt zeroFloat = true
  tolerance_finite : plan.tolerance.isFinite = true
  tolerance_nonneg : plan.tolerance.ge zeroFloat = true
  column : ∃ field unit, schema.fields[plan.columnIndex]? = some field ∧
    stepUnit field.dataType = some unit ∧ plan.kernel = .fromDataType field.dataType

theorem compiledFor_of_compile [Crates] {schema : Schema} {entry : GapDetectionAst × ℕ}
    {plan : GapDetectionPlan} (h : compileGapDetection schema entry = .ok plan) :
    plan.CompiledFor schema := by
  obtain ⟨_, hstep, h⟩ := bind_eq_ok.mp h
  obtain ⟨_, htolerance, h⟩ := bind_eq_ok.mp h
  obtain ⟨⟨index, field⟩, hcolumn, h⟩ := bind_eq_ok.mp h
  obtain ⟨unit, hunit, h⟩ := bind_eq_ok.mp h
  cases h
  have hresolve := required_eq_ok.mp hcolumn
  obtain ⟨found, -, hfield⟩ := Option.bind_eq_some_iff.mp hresolve
  obtain ⟨_, hget, heq⟩ := Option.map_eq_some_iff.mp hfield
  cases heq
  have hstep := rejectIf_eq_ok.mp hstep
  have htolerance := rejectIf_eq_ok.mp htolerance
  rw [Bool.not_eq_true, Bool.not_eq_false', Bool.and_eq_true] at hstep htolerance
  exact ⟨hstep.1, hstep.2, htolerance.1, htolerance.2, field, unit, hget,
    required_eq_ok.mp hunit, rfl⟩

namespace GapDetectionPlan.CompiledFor

variable {plan : GapDetectionPlan} {schema : Schema}

/-- The threshold is the rounded sum of two finite numbers. -/
theorem threshold_eq (h : plan.CompiledFor schema) : plan.expectedStep.add plan.tolerance =
    Ieee.ofRat (plan.expectedStep.toRat + plan.tolerance.toRat)
      (plan.expectedStep.negative && plan.tolerance.negative) :=
  Ieee.add_of_finite h.expectedStep_finite h.tolerance_finite

end GapDetectionPlan.CompiledFor

/-! ## Columns -/

/-- The types with a distance between their values. -/
theorem stepUnit_cases {dataType : DataType} {unit : String} (h : stepUnit dataType = some unit) :
    dataType.isScalar = true ∧ dataType.hasValidity = true ∧
      (KernelKind.fromDataType dataType).isOrdered = true ∧
      (KernelKind.fromDataType dataType).reads dataType = true := by
  unfold stepUnit at h
  split at h
  all_goals first
    | exact ⟨rfl, rfl, rfl, rfl⟩
    | exact ⟨rfl, rfl, rfl, decide_eq_true rfl⟩
    | cases h

namespace GapDetectionPlan.CompiledFor

variable {plan : GapDetectionPlan} {schema : Schema} {field : Field}

theorem isOrdered (h : plan.CompiledFor schema) : plan.kernel.isOrdered = true := by
  obtain ⟨field, unit, -, hunit, hkernel⟩ := h.column
  rw [hkernel]
  exact (stepUnit_cases hunit).2.2.1

theorem kernel_eq (h : plan.CompiledFor schema)
    (hfield : schema.fields[plan.columnIndex]? = some field) :
    plan.kernel = .fromDataType field.dataType := by
  obtain ⟨found, unit, hfound, -, hkernel⟩ := h.column
  rw [hfield] at hfound
  rw [Option.some.inj hfound, hkernel]

theorem exists_unit (h : plan.CompiledFor schema)
    (hfield : schema.fields[plan.columnIndex]? = some field) :
    ∃ unit, stepUnit field.dataType = some unit := by
  obtain ⟨found, unit, hfound, hunit, -⟩ := h.column
  rw [hfield] at hfound
  exact ⟨unit, Option.some.inj hfound ▸ hunit⟩

theorem reads (h : plan.CompiledFor schema)
    (hfield : schema.fields[plan.columnIndex]? = some field) :
    plan.kernel.reads field.dataType = true := by
  obtain ⟨unit, hunit⟩ := h.exists_unit hfield
  rw [h.kernel_eq hfield]
  exact (stepUnit_cases hunit).2.2.2

end GapDetectionPlan.CompiledFor

/-- How the values of a column are compared, and how far two of them are apart. -/
structure Measure (α : Type) where
  ordered : α → Ordered
  step : α → α → F64
  distance_eq : ∀ previous next,
    (ordered previous).distance (ordered next) = some (step previous next)

namespace Measure

def int : Measure ℤ := ⟨.int, fun left right => Ieee.ofInt (right - left), fun _ _ => rfl⟩

def uint : Measure ℕ :=
  ⟨.uint, fun left right => (Ieee.ofInt right).sub (Ieee.ofInt left), fun _ _ => rfl⟩

def float : Measure F64 := ⟨.float, fun left right => right.sub left, fun _ _ => rfl⟩

/-- A scalar that is read as the value. -/
def reads {α : Type} (measure : Measure α) (scalar : Scalar) (value : α) : Prop :=
  scalar.ordered = some (measure.ordered value)

end Measure

/-! ## Neighbours -/

section Neighbours

variable {α : Type}

/-- The values that are not null, each with its row. -/
def present (values : List (Option α)) : List (α × ℕ) :=
  values.zipIdx.filterMap fun (value, row) => value.map (·, row)

/-- Where a value does not follow the one before it as it should. -/
def gapRows (far : α → α → Bool) (values : List (Option α)) : List ℕ :=
  ((adjacent (present values)).filter fun pair => far pair.1.1 pair.2.1).map fun pair => pair.2.2

@[simp] theorem present_append_none (values : List (Option α)) :
    present (values ++ [none]) = present values := by
  simp [present, List.zipIdx_append]

@[simp] theorem present_append_some (values : List (Option α)) (value : α) :
    present (values ++ [some value]) = present values ++ [(value, values.length)] := by
  simp [present, List.zipIdx_append]

@[simp] theorem gapRows_append_none (far : α → α → Bool) (values : List (Option α)) :
    gapRows far (values ++ [none]) = gapRows far values := by
  rw [gapRows, present_append_none, ← gapRows]

@[simp] theorem gapRows_append_some (far : α → α → Bool) (values : List (Option α)) (value : α) :
    gapRows far (values ++ [some value]) = gapRows far values ++
      if (present values).getLast?.any (far ·.1 value) then [values.length] else [] := by
  rw [gapRows, present_append_some, adjacent_append_singleton, List.filter_append, List.map_append,
    ← gapRows]
  cases (present values).getLast? with
  | none => rfl
  | some last =>
      cases hfar : far last.1 value with
      | true => simp [hfar]
      | false => simp [hfar]

theorem map_fst_present (values : List (Option α)) :
    (present values).map Prod.fst = values.reduceOption := by
  have hfrom : ∀ start, (values.zipIdx start).filterMap
      (fun entry : Option α × ℕ => (entry.1.map fun value => (value, entry.2)).map Prod.fst) =
        values.reduceOption := by
    induction values with
    | nil => exact fun _ => rfl
    | cons value values ih =>
        intro start
        cases value with
        | none => simpa using ih (start + 1)
        | some value => simpa using ih (start + 1)
  rw [present, List.map_filterMap]
  exact hfrom 0

/-- As many rows as there are neighbours too far apart. -/
theorem length_gapRows (far : α → α → Bool) (values : List (Option α)) :
    (gapRows far values).length =
      (adjacent values.reduceOption).countP fun pair => far pair.1 pair.2 := by
  rw [gapRows, List.length_map, ← List.countP_eq_length_filter, ← map_fst_present, adjacent_map,
    List.countP_map]
  rfl

end Neighbours

/-! ## Runs -/

namespace GapState

variable {α : Type} (measure : Measure α)

/-- The state of a rule before the first batch. -/
def fresh (plan : GapDetectionPlan) : GapState := { plan, previous := none, gaps := 0, firstRow := none }

/-- Whether the rule counts a step between two values. -/
def counts (plan : GapDetectionPlan) (previous next : α) : Bool :=
  isGap plan (measure.step previous next)

/-- The state of a rule that has seen the values. -/
def after (plan : GapDetectionPlan) (values : List (Option α)) : GapState where
  plan := plan
  previous := (present values).getLast?.map (measure.ordered ·.1)
  gaps := (gapRows (counts measure plan) values).length
  firstRow := (gapRows (counts measure plan) values).head?

theorem finish_eq_nil {state : GapState} : state.finish = [] ↔ state.gaps ≤ state.plan.maxGaps := by
  rw [finish]
  split <;> simp [*]

variable [Crates]

/-- The rule goes through batches. -/
def observeBatches :
    List RecordBatch → ℕ → GapState → Except Fault (GapState × List Finding) :=
  observeAll observe

/-- What a rule records where it reads a cell: only that it rejects a null. -/
def nullFindings (plan : GapDetectionPlan) : Option α → ℕ → List Finding
  | none, row => if plan.nulls = .reject then
      [⟨"gap_detection", plan.column, some row, s!"Rule `{plan.name}` rejects null values"⟩] else []
  | some _, _ => []

theorem orderedValue_eq {kernel : KernelKind} (hordered : kernel.isOrdered = true)
    {array : ArrowArray} (hreads : kernel.reads array.dataType = true) {scalar : Scalar}
    {ordered : Ordered} (h : scalar.ordered = some ordered) :
    orderedValue kernel array (.scalar scalar) = .ok ordered := by
  have hdowncast : datasetDowncast kernel array = .ok () := if_pos hreads
  simp only [orderedValue, hordered, hdowncast, h]
  rfl

/-- One cell takes the state of the values before it to the state with its own value. -/
theorem observeCell_after {plan : GapDetectionPlan} (hordered : plan.kernel.isOrdered = true)
    {array : ArrowArray} (hreads : plan.kernel.reads array.dataType = true)
    (values : List (Option α)) {cell : Option Value} {value : Option α}
    (hcell : CellReads measure.reads cell value) :
    (after measure plan values).observeCell array cell values.length =
      .ok (after measure plan (values ++ [value]), nullFindings plan value values.length) := by
  match cell, value, hcell with
  | none, none, _ =>
      simp only [observeCell, after, present_append_none, gapRows_append_none, nullFindings]
      rfl
  | some (.scalar scalar), some value, hcell =>
      have hread := orderedValue_eq hordered hreads hcell
      simp only [observeCell, after, hread, present_append_some, gapRows_append_some,
        List.getLast?_append, List.getLast?_singleton, nullFindings]
      cases (present values).getLast? with
      | none => simp [stepFrom, bind, Except.bind]
      | some last =>
          have hstep : stepFrom (some (measure.ordered last.1)) (measure.ordered value) =
              .ok (some (measure.step last.1 value)) := by
            rw [stepFrom, measure.distance_eq]
          cases hcounts : counts measure plan last.1 value with
          | true =>
              have hgap : isGap plan (measure.step last.1 value) = true := hcounts
              simp [hstep, hgap, hcounts, bind, Except.bind, List.head?_append]
          | false =>
              have hgap : isGap plan (measure.step last.1 value) = false := hcounts
              simp [hstep, hgap, hcounts, bind, Except.bind]

/-- What a rule has counted at the end does not depend on the batches. -/
theorem observeBatches_fresh {plan : GapDetectionPlan} {dataType : DataType}
    (hordered : plan.kernel.isOrdered = true) (hreads : plan.kernel.reads dataType = true)
    {batches : List RecordBatch} {values : List (Option α)}
    (hcarries : Carries measure.reads plan.columnIndex dataType batches values) :
    ∃ found, observeBatches batches 0 (fresh plan) = .ok (after measure plan values, found) := by
  have hstep : ∀ (array : ArrowArray) (seen : List (Option α)) cell value,
      array.dataType = dataType → CellReads measure.reads cell value →
      observeCell (after measure plan seen) array cell seen.length =
        .ok (after measure plan (seen ++ [value]), nullFindings plan value seen.length) := by
    rintro array seen cell value rfl hcell
    exact observeCell_after measure hordered hreads seen hcell
  exact ⟨_, @observeAll_after _ _ measure.reads (after measure plan)
    (fun seen value => nullFindings plan value seen.length) observe
    (fun array state => state.observeCell array) plan.columnIndex _ (fun _ _ _ => rfl) hstep _ _
    hcarries []⟩

end GapState

end ProofFrame
