import Mathlib.Data.List.Sort
import ProofFrame.Contract.Plan
import ProofFrame.Encoding.Fingerprint

/-!
# Digests of compiled contracts

What the digests of a compiled contract are hashed from.  Rule families that
were added later append their bytes only where the plan has such rules, so older
plans keep their digests.
-/

namespace ProofFrame

open Lib Lib.Ieee754

/-- `hash_part` of a text. -/
def textPart (text : String) : List UInt8 := lengthPrefixed (utf8Bytes text)

/-- A `u64` or `usize` in eight bytes. -/
def word (value : ℕ) : List UInt8 := Bytes.toLe 8 value

def flag (value : Bool) : UInt8 := if value then 1 else 0

def optionalPart {α : Type} (encode : α → List UInt8) : Option α → List UInt8
  | none => [0]
  | some value => 1 :: encode value

/-- The number of items, and the items. -/
def countedParts {α : Type} (encode : α → List UInt8) (items : List α) : List UInt8 :=
  word items.length ++ items.flatMap encode

/-- The items behind a separator, where there are any. -/
def appendedParts {α : Type} (separator : String) (encode : α → List UInt8) (items : List α) :
    List UInt8 :=
  if items.isEmpty then [] else domainSeparator separator ++ countedParts encode items

def floatPart (value : F64) : List UInt8 := Bytes.toLe 8 value.toBits

/-! ## Kernels and rules -/

def KernelKind.tag : KernelKind → UInt8
  | .boolean => 0
  | .i8 => 1
  | .i16 => 2
  | .i32 => 3
  | .i64 => 4
  | .u8 => 5
  | .u16 => 6
  | .u32 => 7
  | .u64 => 8
  | .f32 => 9
  | .f64 => 10
  | .date32 => 11
  | .date64 => 12
  | .decimal128 _ _ => 13
  | .timestamp _ => 14
  | .utf8 => 15
  | .largeUtf8 => 16
  | .binary => 17
  | .largeBinary => 18
  | .nested => 19
  | .nullOnly => 20
  | .utf8View => 21
  | .binaryView => 22

def kernelPart (kernel : KernelKind) : List UInt8 :=
  kernel.tag :: match kernel with
    | .decimal128 precision scale => UInt8.ofNat precision :: signedLe 1 scale
    | .timestamp unit => textPart unit.debug
    | _ => []

def boundPart : TypedBound → List UInt8
  | .i64 value => 0 :: signedLe 8 value
  | .u64 value => 1 :: word value
  | .f32 value => 2 :: Bytes.toLe 4 value.toBits
  | .f64 value => 3 :: floatPart value
  | .decimal128 value scale => 4 :: signedLe 1 scale ++ signedLe 16 value
  | .timestamp value unit => 5 :: signedLe 8 value ++ textPart unit.debug

def NaNPolicy.tag : NaNPolicy → UInt8
  | .reject => 0
  | .allow => 1

/-- The rules both versions of the plan digest cover. -/
def sharedRulesPart (rules : CompiledRules) : List UInt8 :=
  [flag rules.required, flag rules.notNull, flag rules.unique, flag rules.validateNan,
    rules.nan.tag] ++
  optionalPart boundPart rules.min ++ optionalPart boundPart rules.max ++
  optionalPart textPart rules.pattern ++
  optionalPart (fun values => countedParts textPart (values.insertionSort (· ≤ ·))) rules.allowed

/-- `hash_compiled_rules`. -/
def compiledRulesPart (rules : CompiledRules) : List UInt8 :=
  sharedRulesPart rules ++
  if rules.minLength.isSome || rules.maxLength.isSome then
    domainSeparator "proofframe:compiled-plan:length:v1" ++
      optionalPart word rules.minLength ++ optionalPart word rules.maxLength
  else []

/-- A column, with its rules encoded as the version of the plan does. -/
def columnPart (rulesPart : CompiledRules → List UInt8) (column : ColumnPlan) : List UInt8 :=
  word column.columnIndex ++ textPart column.field.name ++ kernelPart column.kernel ++
    rulesPart column.rules

/-! ## Row rules -/

def CompareOpAst.tag : CompareOpAst → UInt8
  | .eq => 0
  | .ne => 1
  | .lt => 2
  | .lte => 3
  | .gt => 4
  | .gte => 5

def NullPolicyAst.tag : NullPolicyAst → UInt8
  | .skip => 0
  | .fail => 1
  | .equal => 2

def operandPart : OperandPlan → List UInt8
  | .column columnIndex field kernel =>
      0 :: word columnIndex ++ textPart field.name ++ kernelPart kernel
  | .literal (.boolean value) => [1, 0, flag value]
  | .literal (.i64 value) => 1 :: 1 :: signedLe 8 value
  | .literal (.u64 value) => 1 :: 2 :: word value
  | .literal (.f64 value) => 1 :: 3 :: floatPart value
  | .literal (.text value) => 1 :: 4 :: textPart value

def comparePart (plan : ComparePlan) : List UInt8 :=
  operandPart plan.left ++ [plan.op.tag, plan.nulls.tag] ++ operandPart plan.right

def rowPlanPart (plan : RowPlan) : List UInt8 :=
  textPart plan.name ++ match plan.kind with
    | .compare compare => 0 :: comparePart compare
    | .conditional predicate assertionColumn assertionField assertion =>
        1 :: comparePart predicate ++ word assertionColumn ++ textPart assertionField.name ++
          compiledRulesPart assertion

/-! ## Dataset rules -/

def countRangePart (range : CountRangeAst) : List UInt8 :=
  optionalPart word range.exact ++ optionalPart word range.min ++ optionalPart word range.max

def ratioPart (ratio : RatioPlan) : List UInt8 :=
  word ratio.columnIndex ++ textPart ratio.column ++ optionalPart floatPart ratio.range.min ++
    optionalPart floatPart ratio.range.max ++ kernelPart ratio.kernel

def countPart (count : CountPlan) : List UInt8 :=
  word count.columnIndex ++ textPart count.column ++ countRangePart count.range ++
    kernelPart count.kernel

def CompositeNullPolicyAst.tag : CompositeNullPolicyAst → UInt8
  | .equal => 0
  | .reject => 1

def compositeUniquePart (rule : CompositeUniquePlan) : List UInt8 :=
  textPart rule.name ++ countedParts word rule.columns ++ [rule.nulls.tag]

def ReferenceNullPolicyAst.tag : ReferenceNullPolicyAst → UInt8
  | .skip => 0
  | .reject => 1

def referencePart (rule : ReferencePlan) : List UInt8 :=
  textPart rule.name ++ textPart rule.reference ++ word rule.columns.length ++
    ((rule.columns.zip rule.fields).flatMap fun (column, field) =>
      word column ++ textPart field.name ++ kernelPart (.fromDataType field.dataType)) ++
    rule.referenceColumns.flatMap textPart ++ [rule.nulls.tag]

def MonotonicDirectionAst.tag : MonotonicDirectionAst → UInt8
  | .increasing => 0
  | .strictlyIncreasing => 1
  | .decreasing => 2
  | .strictlyDecreasing => 3

def MonotonicNullPolicyAst.tag : MonotonicNullPolicyAst → UInt8
  | .skip => 0
  | .reject => 1

def monotonicityPart (rule : MonotonicityPlan) : List UInt8 :=
  textPart rule.name ++ word rule.columnIndex ++ textPart rule.column ++ kernelPart rule.kernel ++
    [rule.direction.tag, rule.nulls.tag]

def gapPart (rule : GapDetectionPlan) : List UInt8 :=
  textPart rule.name ++ word rule.columnIndex ++ textPart rule.column ++ kernelPart rule.kernel ++
    floatPart rule.expectedStep ++ floatPart rule.tolerance ++ word rule.maxGaps ++
    [rule.nulls.tag]

def ExclusiveModeAst.tag : ExclusiveModeAst → UInt8
  | .atMostOne => 0
  | .exactlyOne => 1

def exclusivePart (rule : MutuallyExclusivePlan) : List UInt8 :=
  textPart rule.name ++ countedParts word rule.columns ++ [rule.mode.tag]

def sumBoundsPart : SumBounds → List UInt8
  | .integer min max => 0 :: optionalPart (signedLe 16) min ++ optionalPart (signedLe 16) max
  | .float min max => 1 :: optionalPart floatPart min ++ optionalPart floatPart max

def sumPart (rule : SumPlan) : List UInt8 :=
  textPart rule.name ++ word rule.columnIndex ++ textPart rule.column ++ kernelPart rule.kernel ++
    sumBoundsPart rule.bounds

def StatisticKind.tag : StatisticKind → UInt8
  | .mean => 0
  | .stdDev => 1

def statisticPart (rule : StatisticPlan) : List UInt8 :=
  textPart rule.name ++ word rule.columnIndex ++ textPart rule.column ++ kernelPart rule.kernel ++
    [rule.kind.tag] ++ optionalPart floatPart rule.min ++ optionalPart floatPart rule.max

def conditionalUniquePart (rule : ConditionalUniquePlan) : List UInt8 :=
  textPart rule.name ++ countedParts word rule.columns ++ [rule.nulls.tag] ++
    comparePart rule.predicate

def rowCountDeltaPart (rule : RowCountDeltaPlan) : List UInt8 :=
  textPart rule.name ++ textPart rule.reference ++ optionalPart floatPart rule.minRatio ++
    optionalPart floatPart rule.maxRatio

def balancePart (rule : BalanceEqualPlan) : List UInt8 :=
  textPart rule.name ++ word rule.left ++ word rule.right ++ kernelPart rule.leftKernel ++
    kernelPart rule.rightKernel ++ floatPart rule.tolerance

def dominantPart (rule : DominantValuePlan) : List UInt8 :=
  textPart rule.name ++ word rule.columnIndex ++ textPart rule.column ++ floatPart rule.max

/-- `hash_dataset_plan`. -/
def datasetPlanPart (plan : DatasetPlan) : List UInt8 :=
  optionalPart countRangePart plan.rowCount ++ countedParts ratioPart plan.nullRatios ++
  countedParts countPart plan.distinctCounts ++ countedParts ratioPart plan.distinctRatios ++
  countedParts compositeUniquePart plan.compositeUnique ++
  appendedParts "proofframe:compiled-plan:references:v1" referencePart plan.references ++
  appendedParts "proofframe:compiled-plan:monotonicity:v1" monotonicityPart plan.monotonicity ++
  appendedParts "proofframe:compiled-plan:gap-detection:v1" gapPart plan.gapDetection ++
  appendedParts "proofframe:compiled-plan:mutually-exclusive:v1" exclusivePart
    plan.mutuallyExclusive ++
  appendedParts "proofframe:compiled-plan:sum:v1" sumPart plan.sums ++
  appendedParts "proofframe:compiled-plan:statistic:v1" statisticPart plan.statistics ++
  appendedParts "proofframe:compiled-plan:conditional-unique:v1" conditionalUniquePart
    plan.conditionalUnique ++
  appendedParts "proofframe:compiled-plan:row-count-delta:v1" rowCountDeltaPart
    plan.rowCountDelta ++
  appendedParts "proofframe:compiled-plan:balance-equal:v1" balancePart plan.balanceEqual ++
  appendedParts "proofframe:compiled-plan:dominant-value:v1" dominantPart plan.dominantValue

/-! ## Digests -/

namespace CompiledContract

variable [Crates]

/-- What `compiled_plan_digest_v2` hashes, given the digest of the schema. -/
def planPreimageV2 (plan : CompiledContract) (schemaDigest : Digest) : List UInt8 :=
  domainSeparator "proofframe:compiled-plan:v2" ++ schemaDigest.val ++ word plan.maxFindings ++
    plan.columns.flatMap (columnPart compiledRulesPart) ++
    countedParts rowPlanPart plan.rowPlans ++ datasetPlanPart plan.datasetPlan

/-- The same of a V1 plan. -/
def planPreimageV1 (plan : CompiledContract) (schemaDigest : Digest) : List UInt8 :=
  domainSeparator "proofframe:compiled-plan:v1" ++ schemaDigest.val ++ word plan.maxFindings ++
    plan.columns.flatMap (columnPart sharedRulesPart)

def compiledPlanDigest (plan : CompiledContract) : Except Fault String := do
  let schemaDigest ← canonicalSchemaDigest plan.schema
  .ok (match plan.version with
    | .v2 => taggedDigest "pf-plan-v2:" (Crates.blake3 (plan.planPreimageV2 schemaDigest))
    | .v1 => taggedDigest "pf-plan-v1:" (Crates.blake3 (plan.planPreimageV1 schemaDigest)))

def schemaDigest (plan : CompiledContract) : Except Fault String := do
  let digest ← canonicalSchemaDigest plan.schema
  .ok (taggedDigest "pf-schema-v1:"
    (Crates.blake3 (domainSeparator "proofframe:schema:v1" ++ digest.val)))

end CompiledContract

end ProofFrame
