import ProofFrame.Contract.Ast

/-!
# Compiled contracts

The execution plan: every rule with its columns resolved to positions of the
schema and its bounds in the arithmetic of the column.
-/

namespace ProofFrame

open Lib.Ieee754 (F32 F64)

/-- The kernel selected for an Arrow type. -/
inductive KernelKind where
  | boolean
  | i8 | i16 | i32 | i64
  | u8 | u16 | u32 | u64
  | f32 | f64
  | date32 | date64
  | decimal128 (precision : ℕ) (scale : ℤ)
  | timestamp (unit : TimeUnit)
  | utf8 | largeUtf8 | utf8View
  | binary | largeBinary | binaryView
  | nested
  | nullOnly
  deriving DecidableEq, Repr

namespace KernelKind

def fromDataType : DataType → KernelKind
  | .boolean => .boolean
  | .int8 => .i8
  | .int16 => .i16
  | .int32 => .i32
  | .int64 => .i64
  | .uint8 => .u8
  | .uint16 => .u16
  | .uint32 => .u32
  | .uint64 => .u64
  | .float32 => .f32
  | .float64 => .f64
  | .date32 => .date32
  | .date64 => .date64
  | .decimal128 precision scale => .decimal128 precision scale
  | .timestamp unit _ => .timestamp unit
  | .utf8 => .utf8
  | .largeUtf8 => .largeUtf8
  | .utf8View => .utf8View
  | .binary => .binary
  | .largeBinary => .largeBinary
  | .binaryView => .binaryView
  | .list _ | .largeList _ | .fixedSizeList _ _ | .struct _ | .map _ _ => .nested
  | _ => .nullOnly

def supportsBounds : KernelKind → Bool
  | .i8 | .i16 | .i32 | .i64 | .u8 | .u16 | .u32 | .u64 | .f32 | .f64
  | .date32 | .date64 | .decimal128 _ _ | .timestamp _ => true
  | _ => false

def supportsTextRules : KernelKind → Bool
  | .utf8 | .largeUtf8 | .utf8View => true
  | _ => false

def supportsUnique : KernelKind → Bool
  | .nullOnly => false
  | _ => true

/-- The kernels a total, a statistic or a balance reads. -/
def isInteger : KernelKind → Bool
  | .i8 | .i16 | .i32 | .i64 | .u8 | .u16 | .u32 | .u64 => true
  | _ => false

def isFloat : KernelKind → Bool
  | .f32 | .f64 => true
  | _ => false

end KernelKind

/-! ## Column rules -/

/-- A bound in the arithmetic of its column. -/
inductive TypedBound where
  | i64 (value : ℤ)
  | u64 (value : ℕ)
  | f32 (value : F32)
  | f64 (value : F64)
  | decimal128 (value : ℤ) (scale : ℤ)
  | timestamp (value : ℤ) (unit : TimeUnit)
  deriving DecidableEq

inductive NaNPolicy where
  | reject | allow
  deriving DecidableEq, Repr

/-- The rules of a column.  A pattern is the source text of its regular expression. -/
structure CompiledRules where
  required : Bool
  notNull : Bool
  unique : Bool
  min : Option TypedBound
  max : Option TypedBound
  nan : NaNPolicy
  validateNan : Bool
  pattern : Option String
  allowed : Option (List String)
  minLength : Option ℕ
  maxLength : Option ℕ
  deriving DecidableEq

structure ColumnPlan where
  columnIndex : ℕ
  field : Field
  kernel : KernelKind
  rules : CompiledRules
  deriving DecidableEq

/-! ## Row rules -/

inductive ScalarValuePlan where
  | boolean (value : Bool)
  | i64 (value : ℤ)
  | u64 (value : ℕ)
  | f64 (value : F64)
  | text (value : String)
  deriving DecidableEq

inductive OperandPlan where
  | column (columnIndex : ℕ) (field : Field) (kernel : KernelKind)
  | literal (value : ScalarValuePlan)
  deriving DecidableEq

namespace OperandPlan

def field : OperandPlan → Option Field
  | .column _ field _ => some field
  | .literal _ => none

def kernel : OperandPlan → Option KernelKind
  | .column _ _ kernel => some kernel
  | .literal _ => none

end OperandPlan

structure ComparePlan where
  left : OperandPlan
  op : CompareOpAst
  right : OperandPlan
  nulls : NullPolicyAst
  deriving DecidableEq

inductive RowPlanKind where
  | compare (plan : ComparePlan)
  | conditional (predicate : ComparePlan) (assertionColumn : ℕ) (assertionField : Field)
      (assertion : CompiledRules)
  deriving DecidableEq

structure RowPlan where
  name : String
  kind : RowPlanKind
  deriving DecidableEq

/-! ## Dataset rules -/

structure RatioPlan where
  columnIndex : ℕ
  column : String
  range : RatioRangeAst
  kernel : KernelKind
  deriving DecidableEq

structure CountPlan where
  columnIndex : ℕ
  column : String
  range : CountRangeAst
  kernel : KernelKind
  deriving DecidableEq

structure CompositeUniquePlan where
  name : String
  columns : List ℕ
  nulls : CompositeNullPolicyAst
  deriving DecidableEq

structure ReferencePlan where
  name : String
  columns : List ℕ
  fields : List Field
  reference : String
  referenceColumns : List String
  nulls : ReferenceNullPolicyAst
  deriving DecidableEq

structure BalanceEqualPlan where
  name : String
  left : ℕ
  right : ℕ
  leftColumn : String
  rightColumn : String
  leftKernel : KernelKind
  rightKernel : KernelKind
  tolerance : F64
  deriving DecidableEq

structure DominantValuePlan where
  name : String
  column : String
  columnIndex : ℕ
  max : F64
  deriving DecidableEq

structure RowCountDeltaPlan where
  name : String
  reference : String
  minRatio : Option F64
  maxRatio : Option F64
  deriving DecidableEq

structure ConditionalUniquePlan where
  name : String
  columns : List ℕ
  nulls : CompositeNullPolicyAst
  predicate : ComparePlan
  deriving DecidableEq

inductive StatisticKind where
  | mean | stdDev
  deriving DecidableEq, Repr

def StatisticKind.label : StatisticKind → String
  | .mean => "mean"
  | .stdDev => "std_dev"

structure StatisticPlan where
  columnIndex : ℕ
  column : String
  name : String
  kernel : KernelKind
  kind : StatisticKind
  min : Option F64
  max : Option F64
  deriving DecidableEq

inductive SumBounds where
  | integer (min max : Option ℤ)
  | float (min max : Option F64)
  deriving DecidableEq

structure SumPlan where
  columnIndex : ℕ
  column : String
  name : String
  kernel : KernelKind
  bounds : SumBounds
  deriving DecidableEq

structure MutuallyExclusivePlan where
  columns : List ℕ
  names : List String
  name : String
  mode : ExclusiveModeAst
  deriving DecidableEq

structure GapDetectionPlan where
  columnIndex : ℕ
  column : String
  name : String
  expectedStep : F64
  tolerance : F64
  maxGaps : ℕ
  nulls : MonotonicNullPolicyAst
  kernel : KernelKind
  unit : String
  deriving DecidableEq

structure MonotonicityPlan where
  columnIndex : ℕ
  column : String
  name : String
  direction : MonotonicDirectionAst
  nulls : MonotonicNullPolicyAst
  kernel : KernelKind
  deriving DecidableEq

structure DatasetPlan where
  rowCount : Option CountRangeAst
  nullRatios : List RatioPlan
  distinctCounts : List CountPlan
  distinctRatios : List RatioPlan
  compositeUnique : List CompositeUniquePlan
  references : List ReferencePlan
  monotonicity : List MonotonicityPlan
  gapDetection : List GapDetectionPlan
  mutuallyExclusive : List MutuallyExclusivePlan
  sums : List SumPlan
  statistics : List StatisticPlan
  conditionalUnique : List ConditionalUniquePlan
  rowCountDelta : List RowCountDeltaPlan
  balanceEqual : List BalanceEqualPlan
  dominantValue : List DominantValuePlan
  deriving DecidableEq

namespace DatasetPlan

/-- A plan without dataset rules. -/
def empty : DatasetPlan := ⟨none, [], [], [], [], [], [], [], [], [], [], [], [], [], []⟩

def isEmpty (plan : DatasetPlan) : Bool :=
  plan.rowCount.isNone && plan.nullRatios.isEmpty && plan.distinctCounts.isEmpty &&
    plan.distinctRatios.isEmpty && plan.compositeUnique.isEmpty && plan.references.isEmpty &&
    plan.monotonicity.isEmpty && plan.gapDetection.isEmpty && plan.mutuallyExclusive.isEmpty &&
    plan.sums.isEmpty && plan.statistics.isEmpty && plan.conditionalUnique.isEmpty &&
    plan.rowCountDelta.isEmpty && plan.balanceEqual.isEmpty && plan.dominantValue.isEmpty

theorem eq_empty_of_isEmpty {plan : DatasetPlan} (h : plan.isEmpty) : plan = empty := by
  cases plan
  simp only [isEmpty, Bool.and_eq_true, Option.isNone_iff_eq_none, List.isEmpty_iff] at h
  simp [empty, h]

end DatasetPlan

/-- A contract resolved against a schema. -/
structure CompiledContract where
  schema : Schema
  columns : List ColumnPlan
  rowPlans : List RowPlan
  datasetPlan : DatasetPlan
  version : ContractVersion
  maxFindings : ℕ
  deriving DecidableEq

end ProofFrame
