import ProofFrame.Contract.Compile

/-!
# Compilation of dataset rules

Every rule of the dataset families with its columns resolved, in the order in which
the families are compiled.
-/

namespace ProofFrame

open Lib Lib.Run Lib.Ieee754

variable [Crates]

/-! ## Columns -/

/-- A column of the schema, or an error at the path. -/
def requireColumn (schema : Schema) (column message path : String) : Except Fault (ℕ × Field) :=
  required (schema.resolve column) (contractError .missingColumn message (some path))

omit [Crates] in
theorem field_of_resolve {schema : Schema} {name : String} {found : ℕ × Field}
    (h : schema.resolve name = some found) : schema.fields[found.1]? = some found.2 := by
  obtain ⟨index, -, hfield⟩ := Option.bind_eq_some_iff.mp h
  obtain ⟨_, hget, heq⟩ := Option.map_eq_some_iff.mp hfield
  cases heq
  exact hget

omit [Crates] in
theorem field_of_requireColumn {schema : Schema} {name message path : String} {found : ℕ × Field}
    (h : requireColumn schema name message path = .ok found) :
    schema.fields[found.1]? = some found.2 :=
  field_of_resolve (required_eq_ok.mp h)

/-- The positions of the columns of a key. -/
def requireColumns (schema : Schema) (columns : List String) (what path : String) :
    Except Fault (List (ℕ × Field)) :=
  columns.zipIdx.mapM fun (column, position) =>
    requireColumn schema column s!"{what} column `{column}` is absent" s!"{path}[{position}]"

def kernelOf (column : ℕ × Field) : KernelKind := .fromDataType column.2.dataType

def KernelKind.isNumeric (kernel : KernelKind) : Bool := kernel.isInteger || kernel.isFloat

/-! ## Bounds -/

def zeroFloat : F64 := Ieee.zero false

def oneFloat : F64 := Ieee.ofRat 1 false

def invalidDatasetBound (message path : String) : Fault :=
  contractError .contractInvalidBound message (some path)

/-- A limit, where there is one, is finite. -/
def requireFinite (path : String) (limit : String × Option F64) : Except Fault Unit :=
  rejectIf (limit.2.any fun value => !value.isFinite)
    (invalidDatasetBound s!"`{limit.1}` must be a finite number" s!"{path}.{limit.1}")

def requireTolerance (tolerance : F64) (path : String) : Except Fault Unit :=
  rejectIf (!(tolerance.isFinite && Ieee.ge tolerance zeroFloat))
    (invalidDatasetBound "`tolerance` must be a finite non-negative number" s!"{path}.tolerance")

/-! ## Rules of a single column -/

def ratioPlan (schema : Schema) (rule : String) (entry : String × RatioRangeAst) :
    Except Fault RatioPlan := do
  let column ← requireColumn schema entry.1 s!"Dataset rule column `{entry.1}` is absent"
    s!"$.dataset_rules.{rule}.{entry.1}"
  .ok { columnIndex := column.1, column := entry.1, range := entry.2, kernel := kernelOf column }

def countPlan (schema : Schema) (entry : String × CountRangeAst) : Except Fault CountPlan := do
  let column ← requireColumn schema entry.1 s!"Distinct-count column `{entry.1}` is absent"
    s!"$.dataset_rules.distinct_count.{entry.1}"
  .ok { columnIndex := column.1, column := entry.1, range := entry.2, kernel := kernelOf column }

def compileMonotonicity (schema : Schema) (entry : MonotonicityAst × ℕ) :
    Except Fault MonotonicityPlan := do
  let rule := entry.1
  let column ← requireColumn schema rule.column s!"Monotonicity column `{rule.column}` is absent"
    s!"$.dataset_rules.monotonicity[{entry.2}].column"
  .ok { columnIndex := column.1, column := rule.column, name := rule.name
        direction := rule.direction, nulls := rule.nulls, kernel := kernelOf column }

/-- The unit a step is measured in, where the type has a distance. -/
def stepUnit : DataType → Option String
  | .int8 | .int16 | .int32 | .int64 | .uint8 | .uint16 | .uint32 | .uint64
  | .float32 | .float64 => some "units"
  | .date32 => some "days"
  | .date64 => some "milliseconds"
  | .timestamp .second _ => some "seconds"
  | .timestamp .millisecond _ => some "milliseconds"
  | .timestamp .microsecond _ => some "microseconds"
  | .timestamp .nanosecond _ => some "nanoseconds"
  | _ => none

def compileGapDetection (schema : Schema) (entry : GapDetectionAst × ℕ) :
    Except Fault GapDetectionPlan := do
  let rule := entry.1
  let path := s!"$.dataset_rules.gap_detection[{entry.2}]"
  rejectIf (!(rule.expectedStep.isFinite && Ieee.gt rule.expectedStep zeroFloat))
    (invalidDatasetBound "`expected_step` must be a finite positive number"
      s!"{path}.expected_step")
  requireTolerance rule.tolerance path
  let column ← requireColumn schema rule.column s!"Gap detection column `{rule.column}` is absent"
    s!"{path}.column"
  let unit ← required (stepUnit column.2.dataType) (contractError .unsupportedType
    s!"Gap detection needs an ordered numeric or temporal column; `{rule.column}` is `{Crates.displayType column.2.dataType}`"
    (some s!"{path}.column"))
  .ok { columnIndex := column.1, column := rule.column, name := rule.name
        expectedStep := rule.expectedStep, tolerance := rule.tolerance, maxGaps := rule.maxGaps
        nulls := rule.nulls, kernel := kernelOf column, unit }

/-- A bound of a total, read as `parse` reads it. -/
def totalBound {α : Type} (parse : String → Option α) (what path : String) (bound : Option BoundAst) :
    Except Fault (Option α) :=
  bound.mapM fun bound => required (parse bound.asText)
    (invalidDatasetBound s!"`{bound.asText}` is not {what} total bound" path)

/-- `sum_bounds`, in the arithmetic of the column. -/
def sumBounds (rule : SumAst) (kernel : KernelKind) (dataType : DataType) (path : String) :
    Except Fault SumBounds := do
  rejectIf (!kernel.isNumeric) (contractError .unsupportedType
    s!"A total needs a numeric column; `{rule.column}` is `{Crates.displayType dataType}`"
    (some s!"{path}.column"))
  if kernel.isInteger then
    SumBounds.integer <$> totalBound (parseSigned 128) "an integer" s!"{path}.min" rule.min
      <*> totalBound (parseSigned 128) "an integer" s!"{path}.max" rule.max
  else
    let parse := fun text => (Ieee.parse text : Option F64).filter Ieee.isFinite
    SumBounds.float <$> totalBound parse "a finite" s!"{path}.min" rule.min
      <*> totalBound parse "a finite" s!"{path}.max" rule.max

def compileSum (schema : Schema) (entry : SumAst × ℕ) : Except Fault SumPlan := do
  let rule := entry.1
  let path := s!"$.dataset_rules.sum[{entry.2}]"
  let column ← requireColumn schema rule.column s!"Sum column `{rule.column}` is absent"
    s!"{path}.column"
  let bounds ← sumBounds rule (kernelOf column) column.2.dataType path
  .ok { columnIndex := column.1, column := rule.column, name := rule.name
        kernel := kernelOf column, bounds }

def compileStatistic (schema : Schema) (kind : StatisticKind) (entry : StatisticAst × ℕ) :
    Except Fault StatisticPlan := do
  let rule := entry.1
  let path := s!"$.dataset_rules.{kind.label}[{entry.2}]"
  requireFinite path ("min", rule.min)
  requireFinite path ("max", rule.max)
  let column ← requireColumn schema rule.column s!"Statistic column `{rule.column}` is absent"
    s!"{path}.column"
  rejectIf (!(kernelOf column).isNumeric) (contractError .unsupportedType
    s!"A statistic needs a numeric column; `{rule.column}` is `{Crates.displayType column.2.dataType}`"
    (some s!"{path}.column"))
  .ok { columnIndex := column.1, column := rule.column, name := rule.name
        kernel := kernelOf column, kind, min := rule.min, max := rule.max }

def compileDominant (schema : Schema) (entry : DominantValueAst × ℕ) :
    Except Fault DominantValuePlan := do
  let rule := entry.1
  let path := s!"$.dataset_rules.max_dominant_value_ratio[{entry.2}]"
  rejectIf (!(rule.max.isFinite && Ieee.le zeroFloat rule.max && Ieee.le rule.max oneFloat))
    (invalidDatasetBound "`max` must be a ratio between 0 and 1" s!"{path}.max")
  let column ← requireColumn schema rule.column s!"Column `{rule.column}` is absent"
    s!"{path}.column"
  .ok { name := rule.name, column := rule.column, columnIndex := column.1, max := rule.max }

/-! ## Rules of several columns -/

def compileCompositeUnique (schema : Schema) (entry : CompositeUniqueAst × ℕ) :
    Except Fault CompositeUniquePlan := do
  let columns ← requireColumns schema entry.1.columns "Composite key"
    s!"$.dataset_rules.composite_unique[{entry.2}].columns"
  .ok { name := entry.1.name, columns := columns.map Prod.fst, nulls := entry.1.nulls }

def compileReference (schema : Schema) (entry : ReferenceAst × ℕ) : Except Fault ReferencePlan := do
  let rule := entry.1
  let columns ← requireColumns schema rule.columns "Reference key"
    s!"$.dataset_rules.references[{entry.2}].columns"
  .ok { name := rule.name, columns := columns.map Prod.fst, fields := columns.map Prod.snd
        reference := rule.reference, referenceColumns := rule.referenceColumns
        nulls := rule.nulls }

def compileMutuallyExclusive (schema : Schema) (entry : MutuallyExclusiveAst × ℕ) :
    Except Fault MutuallyExclusivePlan := do
  let rule := entry.1
  let path := s!"$.dataset_rules.mutually_exclusive[{entry.2}].columns"
  rejectIf (rule.columns.length < 2)
    (invalidDatasetBound "`mutually_exclusive` needs at least two columns" path)
  let columns ← requireColumns schema rule.columns "Mutually exclusive" path
  .ok { columns := columns.map Prod.fst, names := rule.columns, name := rule.name
        mode := rule.mode }

def compileConditionalUnique (schema : Schema) (entry : ConditionalUniqueAst × ℕ) :
    Except Fault ConditionalUniquePlan := do
  let rule := entry.1
  let path := s!"$.dataset_rules.conditional_unique[{entry.2}]"
  rejectIf (rule.columns = [])
    (invalidDatasetBound "`conditional_unique` needs at least one column" s!"{path}.columns")
  let columns ← requireColumns schema rule.columns "Conditional key" s!"{path}.columns"
  let predicate ← compileCompare rule.when schema s!"{path}.when"
  .ok { name := rule.name, columns := columns.map Prod.fst, nulls := rule.nulls, predicate }

def compileRowCountDelta (entry : RowCountDeltaAst × ℕ) : Except Fault RowCountDeltaPlan := do
  let rule := entry.1
  let path := s!"$.dataset_rules.row_count_delta[{entry.2}]"
  requireFinite path ("min_ratio", rule.minRatio)
  requireFinite path ("max_ratio", rule.maxRatio)
  rejectIf (rule.againstReference = "")
    (invalidDatasetBound "`against_reference` must name a dataset" s!"{path}.against_reference")
  .ok { name := rule.name, reference := rule.againstReference
        minRatio := rule.minRatio, maxRatio := rule.maxRatio }

/-- A side of a balance. -/
def numericColumn (schema : Schema) (column path : String) : Except Fault (ℕ × Field) := do
  let found ← requireColumn schema column s!"Column `{column}` is absent" path
  rejectIf (!(kernelOf found).isNumeric) (contractError .unsupportedType
    s!"A balance needs numeric columns; `{column}` is `{Crates.displayType found.2.dataType}`"
    (some path))
  .ok found

def compileBalance (schema : Schema) (entry : BalanceEqualAst × ℕ) :
    Except Fault BalanceEqualPlan := do
  let rule := entry.1
  let path := s!"$.dataset_rules.balance_equal[{entry.2}]"
  requireTolerance rule.tolerance path
  let left ← numericColumn schema rule.leftColumn s!"{path}.left_column"
  let right ← numericColumn schema rule.rightColumn s!"{path}.right_column"
  .ok { name := rule.name, left := left.1, right := right.1
        leftColumn := rule.leftColumn, rightColumn := rule.rightColumn
        leftKernel := kernelOf left, rightKernel := kernelOf right
        tolerance := rule.tolerance }

/-! ## Plans -/

def DatasetPlan.compile (source : ContractAstV2) (schema : Schema) : Except Fault DatasetPlan := do
  let rules := source.datasetRules
  let nullRatios ← rules.nullRatio.mapM (ratioPlan schema "null_ratio")
  let distinctCounts ← rules.distinctCount.mapM (countPlan schema)
  let distinctRatios ← rules.distinctRatio.mapM (ratioPlan schema "distinct_ratio")
  let compositeUnique ← rules.compositeUnique.zipIdx.mapM (compileCompositeUnique schema)
  let references ← rules.references.zipIdx.mapM (compileReference schema)
  let monotonicity ← rules.monotonicity.zipIdx.mapM (compileMonotonicity schema)
  let gapDetection ← rules.gapDetection.zipIdx.mapM (compileGapDetection schema)
  let mutuallyExclusive ← rules.mutuallyExclusive.zipIdx.mapM (compileMutuallyExclusive schema)
  let sums ← rules.sum.zipIdx.mapM (compileSum schema)
  let means ← rules.mean.zipIdx.mapM (compileStatistic schema .mean)
  let deviations ← rules.stdDev.zipIdx.mapM (compileStatistic schema .stdDev)
  let conditionalUnique ← rules.conditionalUnique.zipIdx.mapM (compileConditionalUnique schema)
  let rowCountDelta ← rules.rowCountDelta.zipIdx.mapM compileRowCountDelta
  let balanceEqual ← rules.balanceEqual.zipIdx.mapM (compileBalance schema)
  let dominantValue ← rules.maxDominantValueRatio.zipIdx.mapM (compileDominant schema)
  .ok { rowCount := rules.rowCount
        nullRatios, distinctCounts, distinctRatios, compositeUnique, references, monotonicity
        gapDetection, mutuallyExclusive, sums, statistics := means ++ deviations
        conditionalUnique, rowCountDelta, balanceEqual, dominantValue }

end ProofFrame
