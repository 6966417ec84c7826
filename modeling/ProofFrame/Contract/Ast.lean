import ProofFrame.Arrow
import ProofFrame.Json

/-!
# The contract language

The syntax trees of both versions of the language, as the parser hands them to the
compiler.  A map of the source is a list of pairs in the order the map iterates it,
which is the order of its keys.
-/

namespace ProofFrame

open Lib.Ieee754 (F64)

/-! ## Column rules -/

inductive NaNPolicyAst where
  | reject | allow
  deriving DecidableEq, Repr

/-- A bound with its source spelling. -/
inductive BoundAst where
  | number (spelling : String)
  | text (spelling : String)
  deriving DecidableEq, Repr

def BoundAst.asText : BoundAst → String
  | .number spelling | .text spelling => spelling

structure RuleAst where
  required : Bool
  notNull : Bool
  unique : Bool
  min : Option BoundAst
  max : Option BoundAst
  nan : Option NaNPolicyAst
  pattern : Option String
  allowed : Option (List String)

inductive PrimitiveTypeAst where
  | boolean | int8 | int16 | int32 | int64 | uint8 | uint16 | uint32 | uint64
  | float32 | float64 | date32 | date64 | utf8 | largeUtf8 | utf8View
  | binary | largeBinary | binaryView
  deriving DecidableEq, Repr

inductive TimeUnitAst where
  | s | ms | us | ns
  deriving DecidableEq, Repr

inductive TypeAst where
  | primitive (type : PrimitiveTypeAst)
  | decimal128 (precision : ℕ) (scale : ℤ)
  | timestamp (unit : TimeUnitAst) (timezone : Option String)
  deriving DecidableEq, Repr

structure RuleAstV2 where
  required : Bool
  notNull : Bool
  unique : Bool
  expectedType : Option TypeAst
  min : Option BoundAst
  max : Option BoundAst
  nan : Option NaNPolicyAst
  pattern : Option String
  allowed : Option (List String)
  minLength : Option ℕ
  maxLength : Option ℕ

/-! ## Row rules -/

inductive CompareOpAst where
  | eq | ne | lt | lte | gt | gte
  deriving DecidableEq, Repr

inductive NullPolicyAst where
  | skip | fail | equal
  deriving DecidableEq, Repr

inductive OperandAst where
  | column (name : String)
  | literal (value : Json)

structure CompareAst where
  left : OperandAst
  op : CompareOpAst
  right : OperandAst
  nulls : NullPolicyAst

structure AssertionAst where
  column : String
  notNull : Bool
  min : Option BoundAst
  max : Option BoundAst
  nan : Option NaNPolicyAst
  pattern : Option String
  allowed : Option (List String)

structure RowRuleAst where
  name : String
  compare : Option CompareAst
  when : Option CompareAst
  assertion : Option AssertionAst

/-! ## Dataset rules -/

structure CountRangeAst where
  exact : Option ℕ
  min : Option ℕ
  max : Option ℕ
  deriving DecidableEq, Repr

structure RatioRangeAst where
  min : Option F64
  max : Option F64
  deriving DecidableEq

inductive MonotonicDirectionAst where
  | increasing | strictlyIncreasing | decreasing | strictlyDecreasing
  deriving DecidableEq, Repr

inductive MonotonicNullPolicyAst where
  | skip | reject
  deriving DecidableEq, Repr

inductive ExclusiveModeAst where
  | atMostOne | exactlyOne
  deriving DecidableEq, Repr

inductive CompositeNullPolicyAst where
  | equal | reject
  deriving DecidableEq, Repr

inductive ReferenceNullPolicyAst where
  | skip | reject
  deriving DecidableEq, Repr

structure StatisticAst where
  name : String
  column : String
  min : Option F64
  max : Option F64

structure SumAst where
  name : String
  column : String
  min : Option BoundAst
  max : Option BoundAst

structure MutuallyExclusiveAst where
  name : String
  columns : List String
  mode : ExclusiveModeAst

structure GapDetectionAst where
  name : String
  column : String
  expectedStep : F64
  tolerance : F64
  maxGaps : ℕ
  nulls : MonotonicNullPolicyAst

structure MonotonicityAst where
  name : String
  column : String
  direction : MonotonicDirectionAst
  nulls : MonotonicNullPolicyAst

structure CompositeUniqueAst where
  name : String
  columns : List String
  nulls : CompositeNullPolicyAst

structure BalanceEqualAst where
  name : String
  leftColumn : String
  rightColumn : String
  tolerance : F64

structure DominantValueAst where
  name : String
  column : String
  max : F64

structure RowCountDeltaAst where
  name : String
  againstReference : String
  minRatio : Option F64
  maxRatio : Option F64

structure ConditionalUniqueAst where
  name : String
  columns : List String
  when : CompareAst
  nulls : CompositeNullPolicyAst

structure ReferenceAst where
  name : String
  columns : List String
  reference : String
  referenceColumns : List String
  nulls : ReferenceNullPolicyAst

structure DatasetRulesAst where
  rowCount : Option CountRangeAst
  monotonicity : List MonotonicityAst
  gapDetection : List GapDetectionAst
  mutuallyExclusive : List MutuallyExclusiveAst
  sum : List SumAst
  mean : List StatisticAst
  stdDev : List StatisticAst
  compositeUnique : List CompositeUniqueAst
  conditionalUnique : List ConditionalUniqueAst
  rowCountDelta : List RowCountDeltaAst
  balanceEqual : List BalanceEqualAst
  maxDominantValueRatio : List DominantValueAst
  references : List ReferenceAst
  nullRatio : List (String × RatioRangeAst)
  distinctCount : List (String × CountRangeAst)
  distinctRatio : List (String × RatioRangeAst)

inductive ContractStatus where
  | active | draft
  deriving DecidableEq, Repr

/-- Why a suggestion left a rule out. -/
structure SuggestedReviewAst where
  column : String
  reason : String

/-- What a suggested contract was generated from. -/
structure SuggestedFromAst where
  proofframeVersion : String
  datasetFingerprint : String
  rowsObserved : ℕ
  uniquenessInferred : Bool
  review : List SuggestedReviewAst

/-! ## Documents -/

inductive ContractVersion where
  | v1 | v2
  deriving DecidableEq, Repr

structure ContractAst where
  version : ContractVersion
  columns : List (String × RuleAst)
  maxFindings : ℕ

structure ContractAstV2 where
  version : ContractVersion
  status : ContractStatus
  suggestedFrom : Option SuggestedFromAst
  columns : List (String × RuleAstV2)
  rowRules : List RowRuleAst
  datasetRules : DatasetRulesAst
  maxFindings : ℕ

inductive ContractDocument where
  | v1 (contract : ContractAst)
  | v2 (contract : ContractAstV2)

end ProofFrame
