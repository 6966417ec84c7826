import ProofFrame.Execution.Exclusive
import ProofFrame.Execution.Ordering
import ProofFrame.Execution.RowKernels
import ProofFrame.Execution.Total
import ProofFrame.Lib.SortedMap

/-!
# Dataset rules

The state of every rule over the whole dataset: created before the first batch,
updated by each batch, and turned into violations at the end.

`DatasetState X` is parametric in what holds the values of the rules that count
distinct ones.  The engine runs at `X := ExactState`.
-/

namespace ProofFrame

open Lib Lib.Run Lib.Ieee754 Distinct

/-! ## The states -/

structure DistinctState (X : Type) where
  columnIndex : ℕ
  column : String
  kernel : KernelKind
  countRange : Option CountRangeAst
  ratioRange : Option RatioRangeAst
  exact : X
  sawNull : Bool

structure CompositeState (X : Type) where
  plan : CompositeUniquePlan
  exact : X

structure ConditionalState (X : Type) where
  plan : ConditionalUniquePlan
  exact : X

structure DatasetState (X : Type) where
  rowCount : Option CountRangeAst
  nullRatios : List RatioPlan
  nullCounts : List ℕ
  distinct : List (DistinctState X)
  composites : List (CompositeState X)
  ordering : List OrderingState
  gaps : List GapState
  exclusive : List MutuallyExclusivePlan
  sums : List SumState
  statistics : List StatisticState
  conditional : List (ConditionalState X)
  balances : List BalanceState
  dominants : List DominantState

/-! ## Creation -/

inductive SpillPolicy where
  | auto | never
  deriving DecidableEq, Repr

/-- What the two distinct rules of one column ask for. -/
structure DistinctSpec where
  column : String
  kernel : KernelKind
  countRange : Option CountRangeAst
  ratioRange : Option RatioRangeAst

/-- The distinct rules by column: the last count rule of a column, joined by its ratio rules. -/
def distinctSpecs (plan : DatasetPlan) : List (ℕ × DistinctSpec) :=
  let counted := plan.distinctCounts.foldl (fun specs count =>
    SortedMap.insert count.columnIndex
      { column := count.column, kernel := count.kernel
        countRange := some count.range, ratioRange := none } specs) []
  plan.distinctRatios.foldl (fun specs ratio =>
    SortedMap.upsert ratio.columnIndex (fun
      | some spec => { spec with ratioRange := some ratio.range }
      | none => { column := ratio.column, kernel := ratio.kernel
                  countRange := none, ratioRange := some ratio.range }) specs) counted

/-- Whether a plan has a rule that counts distinct values. -/
def DatasetPlan.hasExact (plan : DatasetPlan) : Bool :=
  !plan.compositeUnique.isEmpty || !plan.distinctCounts.isEmpty ||
    !plan.distinctRatios.isEmpty || !plan.conditionalUnique.isEmpty

/-- The state of a plan, with the given holders of values. -/
def DatasetState.initial {X : Type} (plan : DatasetPlan) (maxMemoryBytes : ℕ)
    (distinct : List (DistinctState X)) (composites : List (CompositeState X))
    (conditional : List (ConditionalState X)) : DatasetState X :=
  { rowCount := plan.rowCount
    nullRatios := plan.nullRatios
    nullCounts := List.replicate plan.nullRatios.length 0
    distinct, composites, conditional
    ordering := plan.monotonicity.map fun rule => { plan := rule, previous := none }
    gaps := plan.gapDetection.map fun rule =>
      { plan := rule, previous := none, gaps := 0, firstRow := none }
    exclusive := plan.mutuallyExclusive
    sums := plan.sums.map .new
    statistics := plan.statistics.map fun rule => { plan := rule, moments := .new }
    balances := plan.balanceEqual.map fun rule =>
      { plan := rule, left := .float .new, right := .float .new }
    dominants := plan.dominantValue.map fun rule =>
      { plan := rule, counts := .new (maxMemoryBytes / 8) } }

/-- The path of a temporary directory; nothing depends on it. -/
def temporaryDirectory : String := "proofframe"

section Creation

variable {ω : Type} [Host ω]

/-- A temporary directory, if the condition asks for one. -/
def createDirectoryIf (condition : Bool) : Run ω Fault (Option String) := do
  whenever (condition = true) (ioOperation .createDirectory)
  pure (if condition then some temporaryDirectory else none)

/-- The exact state of a rule: it may ask for the whole budget, which its parent enforces. -/
def newExact (kind : ValueKind) (account : ResourceAccount) (directory : Option String)
    (rowCountHint : Option ℕ) : Run ω Fault ExactState :=
  ExactState.new kind (account.child account.limits.maxMemoryBytes account.limits.maxTempBytes)
    directory rowCountHint

def DatasetState.new (plan : DatasetPlan) (account : ResourceAccount) (rowCountHint : Option ℕ)
    (spill : SpillPolicy) : Run ω Fault (DatasetState ExactState) := do
  let directory ← createDirectoryIf (plan.hasExact && spill = .auto)
  let distinct ← (distinctSpecs plan).mapM fun (columnIndex, spec) => do
    let exact ← newExact (exactKind spec.kernel) account directory rowCountHint
    pure { columnIndex, column := spec.column, kernel := spec.kernel
           countRange := spec.countRange, ratioRange := spec.ratioRange, exact, sawNull := false }
  let composites ← plan.compositeUnique.mapM fun composite => do
    let exact ← newExact .bytes account directory rowCountHint
    pure { plan := composite, exact }
  let conditional ← plan.conditionalUnique.mapM fun rule => do
    let exact ← newExact .bytes account directory rowCountHint
    pure { plan := rule, exact }
  pure (.initial plan account.limits.maxMemoryBytes distinct composites conditional)

end Creation

/-! ## What the rows of a batch do -/

/-- The value an exact state holds for a cell. -/
def Scalar.exactValue : Scalar → OwnedValue
  | .boolean value => .u64 (if value then 1 else 0)
  | .signed value => .i64 (Int64.ofInt value)
  | .unsigned value => .u64 (UInt64.ofNat value)
  | .float32 value => .f64 (UInt64.ofNat value.toBits)
  | .float64 value => .f64 (UInt64.ofNat value.toBits)
  | .decimal value => .bytes (signedLe 16 value)
  | .text value => .bytes (utf8Bytes value)
  | .binary value => .bytes value

section Events

variable [Crates]

/-- `insert_exact_scalar`: the value of a non-null cell. -/
def exactScalar (kernel : KernelKind) (array : ArrowArray) (value : Value) :
    Except Fault OwnedValue := do
  match kernel with
  | .nested | .nullOnly =>
      .error (unsupportedType ("exact distinct for " ++ Crates.displayType array.dataType))
  | _ =>
      datasetDowncast kernel array
      match value with
      | .scalar scalar => .ok scalar.exactValue
      | _ => .error datasetDowncastFailed

/-- The events of a cell under a distinct rule. -/
def distinctEvents (kernel : KernelKind) (array : ArrowArray) (cell : Option Value) (row : ℕ) :
    Except Fault (List Event) :=
  match cell with
  | none => .ok []
  | some value => do
      let exact ← exactScalar kernel array value
      .ok [.insert exact row]

/-- The bytes of a composite key, and whether a part of it is null. -/
def compositeKey (columns : List ℕ) (batch : RecordBatch) (position : ℕ) :
    Except Fault (List UInt8 × Bool) :=
  columns.foldlM (fun (bytes, sawNull) index => do
    let array ← batch.column index
    let cell ← array.cell position
    match cell with
    | none => .ok (bytes ++ Bytes.toLe 8 index ++ [0], true)
    | some value => do
        let part ← appendScalar array.dataType value
        .ok (bytes ++ Bytes.toLe 8 index ++ 1 :: part, sawNull)) ([], false)

/-- The events of a row under a uniqueness rule over several columns. -/
def keyEvents (columns : List ℕ) (nulls : CompositeNullPolicyAst) (finding : ℕ → Finding)
    (batch : RecordBatch) (position row : ℕ) : Except Fault (List Event) := do
  let (key, sawNull) ← compositeKey columns batch position
  .ok (if sawNull ∧ nulls = .reject then [.record (finding row)] else [.insert (.bytes key) row])

def CompositeUniquePlan.rejectedNull (plan : CompositeUniquePlan) (row : ℕ) : Finding :=
  ⟨"composite_unique", "$dataset", some row, s!"Composite rule `{plan.name}` rejects null keys"⟩

def compositeEvents (plan : CompositeUniquePlan) (batch : RecordBatch) :
    ℕ → ℕ → Except Fault (List Event) :=
  keyEvents plan.columns plan.nulls plan.rejectedNull batch

def ConditionalUniquePlan.rejectedNull (plan : ConditionalUniquePlan) (row : ℕ) : Finding :=
  ⟨"conditional_unique", "$dataset", some row, s!"Rule `{plan.name}` rejects null keys"⟩

/-- Only the rows the predicate selects take part. -/
def conditionalUniqueEvents (plan : ConditionalUniquePlan) (batch : RecordBatch)
    (outcome : Option Bool × ℕ) (row : ℕ) : Except Fault (List Event) :=
  if outcome.1 = some true then
    keyEvents plan.columns plan.nulls plan.rejectedNull batch outcome.2 row
  else .ok []

end Events

/-! ## Update -/

/-- Add the nulls each ratio rule's column has in the batch. -/
def countNulls (batch : RecordBatch) (ratios : List RatioPlan) (counts : List ℕ) :
    Except Fault (List ℕ) :=
  (ratios.zip counts).mapM fun (ratio, count) => do
    let array ← batch.column ratio.columnIndex
    .ok (count + array.nullCount)

section Update

variable {ω : Type} [Host ω] [Crates]

/-- Update each state in turn. -/
def updateEach {σ : Type} (update : σ → ValidationState → Run ω Fault (σ × ValidationState)) :
    List σ → ValidationState → Run ω Fault (List σ × ValidationState)
  | [], validation => pure ([], validation)
  | state :: states, validation => do
      let (state, validation) ← update state validation
      let (states, validation) ← updateEach update states validation
      pure (state :: states, validation)

/-- A rule whose state is computed from the batch alone. -/
def recordObserved {σ : Type} (observe : σ → Except Fault (σ × List Finding)) (state : σ)
    (validation : ValidationState) : Run ω Fault (σ × ValidationState) := do
  let (state, findings) ← lift (observe state)
  let validation ← validation.recordAll findings
  pure (state, validation)

def DistinctState.update (batch : RecordBatch) (rowOffset : ℕ) (state : DistinctState ExactState)
    (validation : ValidationState) : Run ω Fault (DistinctState ExactState × ValidationState) := do
  let array ← lift (batch.column state.columnIndex)
  let (exact, validation) ←
    scanExact (distinctEvents state.kernel array) array.cells rowOffset state.exact validation
  pure ({ state with exact, sawNull := state.sawNull || array.cells.any Option.isNone }, validation)

def ConditionalState.update (batch : RecordBatch) (rowOffset : ℕ)
    (state : ConditionalState ExactState) (validation : ValidationState) :
    Run ω Fault (ConditionalState ExactState × ValidationState) := do
  let outcomes ← lift (scanPredicate state.plan.predicate batch)
  let (exact, validation) ←
    scanExact (conditionalUniqueEvents state.plan batch) outcomes.zipIdx rowOffset state.exact
      validation
  pure ({ state with exact }, validation)

def CompositeState.update (batch : RecordBatch) (rowOffset : ℕ) (state : CompositeState ExactState)
    (validation : ValidationState) : Run ω Fault (CompositeState ExactState × ValidationState) := do
  let (exact, validation) ←
    scanExact (compositeEvents state.plan batch) (List.range batch.rows) rowOffset state.exact
      validation
  pure ({ state with exact }, validation)

/-- `DatasetState::update`. -/
def DatasetState.update (state : DatasetState ExactState) (batch : RecordBatch) (rowOffset : ℕ)
    (validation : ValidationState) : Run ω Fault (DatasetState ExactState × ValidationState) := do
  let nullCounts ← lift (countNulls batch state.nullRatios state.nullCounts)
  let (distinct, validation) ← updateEach (DistinctState.update batch rowOffset) state.distinct validation
  let (ordering, validation) ←
    updateEach (recordObserved (OrderingState.observe · batch rowOffset)) state.ordering validation
  let (gaps, validation) ←
    updateEach (recordObserved (GapState.observe · batch rowOffset)) state.gaps validation
  let sums ← lift (state.sums.mapM (SumState.update batch))
  let statistics ← lift (state.statistics.mapM (StatisticState.update batch))
  let balances ← lift (state.balances.mapM (BalanceState.update batch))
  let dominants ← lift (state.dominants.mapM (DominantState.update batch))
  let (conditional, validation) ←
    updateEach (ConditionalState.update batch rowOffset) state.conditional validation
  let broken ← lift (state.exclusive.mapM (exclusiveFindings · batch rowOffset))
  let validation ← validation.recordAll broken.flatten
  let (composites, validation) ←
    updateEach (CompositeState.update batch rowOffset) state.composites validation
  pure ({ state with
    nullCounts, distinct, ordering, gaps, sums, statistics, balances, dominants, conditional
    composites }, validation)

end Update

/-! ## Finish -/

/-- The number of zero bits below the lowest one of a 64-bit word. -/
def trailingZeros (word : ℕ) : ℕ :=
  ((List.range 64).filter fun bit => word % 2 ^ (bit + 1) = 0).length

/-- Compare `numerator / denominator` with a bound, without rounding the quotient. -/
def compareFractionToBound (numerator denominator : ℕ) (bound : F64) : Ordering :=
  if denominator = 0 then (Ieee.zero false).totalCmp bound
  else if bound.le (.zero false) then compare numerator 0
  else if bound.ge (Ieee.ofInt 1) then compare numerator denominator
  else
    let bits : ℕ := bound.toBits
    let exponentBits : ℕ := bits / 2 ^ 52 % 2 ^ 11
    let extreme := if numerator = 0 then Ordering.lt else .gt
    if exponentBits = 0 then extreme
    else
      let significand := 2 ^ 52 + bits % 2 ^ 52
      let shift := ((1075 - (exponentBits : ℤ)) % 2 ^ 32).toNat
      let cancelled := min (trailingZeros significand) shift
      let boundNumerator := significand / 2 ^ cancelled
      let denominatorShift := shift - cancelled
      if 128 ≤ denominatorShift then extreme
      else
        let left := numerator * 2 ^ denominatorShift
        if 2 ^ 128 ≤ left then .gt
        else compare left (denominator * boundNumerator)

/-- Whether a count is inside its range. -/
def CountRangeAst.contains (range : CountRangeAst) (count : ℕ) : Bool :=
  range.exact.all (count = ·) && range.min.all (count ≥ ·) && range.max.all (count ≤ ·)

/-- Whether a ratio is inside its range. -/
def RatioRangeAst.contains (range : RatioRangeAst) (numerator denominator : ℕ) : Bool :=
  range.min.all (compareFractionToBound numerator denominator · ≠ .lt) &&
    range.max.all (compareFractionToBound numerator denominator · ≠ .gt)

/-- A ratio as a finding shows it. -/
def shownRatio (numerator denominator : ℕ) : F64 :=
  if denominator = 0 then .zero false else (Ieee.ofInt numerator).div (Ieee.ofInt denominator)

def rowCountFindings (rows : ℕ) : Option CountRangeAst → List Finding
  | none => []
  | some range =>
      if range.contains rows then [] else
        [⟨"row_count", "$dataset", none,
          s!"Dataset row count `{rows}` is outside the contract range"⟩]

def nullRatioFindings (rows : ℕ) (ratio : RatioPlan) (nulls : ℕ) : List Finding :=
  if ratio.range.contains nulls rows then [] else
    [⟨"null_ratio", ratio.column, none,
      "Null ratio `" ++ (shownRatio nulls rows).display ++ "` is outside the contract range"⟩]

/-- The violations of the rules that hold no exact state. -/
def DatasetState.scalarFindings {X : Type} (state : DatasetState X) (rows : ℕ) : List Finding :=
  state.balances.flatMap BalanceState.finish ++ state.dominants.flatMap DominantState.finish ++
    state.statistics.flatMap StatisticState.finish ++ state.sums.flatMap SumState.finish ++
    state.gaps.flatMap GapState.finish ++ rowCountFindings rows state.rowCount ++
    (state.nullRatios.zip state.nullCounts).flatMap fun (ratio, nulls) =>
      nullRatioFindings rows ratio nulls

/-- The violations of the distinct rules of a column, given the number its exact state counts. -/
def DistinctState.findings {X : Type} (state : DistinctState X) (rows exactDistinct : ℕ) :
    List Finding :=
  let distinct := exactDistinct + (if state.sawNull then 1 else 0)
  (match state.countRange with
    | none => []
    | some range =>
        if range.contains distinct then [] else
          [⟨"distinct_count", state.column, none,
            s!"Exact distinct count `{distinct}` is outside the contract range"⟩]) ++
  (match state.ratioRange with
    | none => []
    | some range =>
        if range.contains distinct rows then [] else
          [⟨"distinct_ratio", state.column, none,
            "Exact distinct ratio `" ++ (shownRatio distinct rows).display ++
            "` is outside the contract range"⟩])

def CompositeUniquePlan.duplicate (plan : CompositeUniquePlan) (row : ℕ) : Finding :=
  ⟨"composite_unique", "$dataset", some row, s!"Composite rule `{plan.name}` found a duplicate key"⟩

def ConditionalUniquePlan.duplicate (plan : ConditionalUniquePlan) (row : ℕ) : Finding :=
  ⟨"conditional_unique", "$dataset", some row,
    s!"Rule `{plan.name}` found a duplicate among the rows it selects"⟩

/-- Spill activity, summed over exact states. -/
structure SpillMetrics where
  spillBytes : ℕ
  exactRuns : ℕ
  deriving DecidableEq

namespace SpillMetrics

def zero : SpillMetrics := ⟨0, 0⟩

def add (metrics : SpillMetrics) (spillBytes runs : ℕ) : SpillMetrics :=
  ⟨metrics.spillBytes + spillBytes, metrics.exactRuns + runs⟩

end SpillMetrics

section Finish

variable {ω : Type} [Host ω] [Crates]

/-- Record the sampled duplicates and count the others. -/
def recordDuplicates (finding : ℕ → Finding) (summary : ExactSummary)
    (validation : ValidationState) : Run ω Fault ValidationState := do
  let samples := summary.duplicateSamples
  let validation ← validation.recordAll (samples.map fun sample => finding sample.duplicateRow.toNat)
  pure (validation.addCount (summary.duplicateCount - samples.length))

def DistinctState.finish (rows : ℕ) (carried : SpillMetrics × ValidationState)
    (state : DistinctState ExactState) : Run ω Fault (SpillMetrics × ValidationState) := do
  let (metrics, validation) := carried
  let summary ← state.exact.finish
  let validation ← validation.recordAll (state.findings rows summary.distinctCount)
  pure (metrics.add summary.metrics.spillBytes summary.metrics.runs, validation)

def CompositeState.finish (carried : SpillMetrics × ValidationState)
    (state : CompositeState ExactState) : Run ω Fault (SpillMetrics × ValidationState) := do
  let (metrics, validation) := carried
  let summary ← state.exact.finish
  let validation ← recordDuplicates state.plan.duplicate summary validation
  pure (metrics.add summary.metrics.spillBytes summary.metrics.runs, validation)

def ConditionalState.finish (carried : SpillMetrics × ValidationState)
    (state : ConditionalState ExactState) : Run ω Fault (SpillMetrics × ValidationState) := do
  let (metrics, validation) := carried
  let summary ← state.exact.finish
  let validation ← recordDuplicates state.plan.duplicate summary validation
  pure (metrics.add summary.metrics.spillBytes summary.metrics.runs, validation)

/-- `DatasetState::finish`. -/
def DatasetState.finish (state : DatasetState ExactState) (rows : ℕ)
    (validation : ValidationState) : Run ω Fault (SpillMetrics × ValidationState) := do
  let validation ← validation.recordAll (state.scalarFindings rows)
  let carried ← state.distinct.foldlM (DistinctState.finish rows) (SpillMetrics.zero, validation)
  let carried ← state.composites.foldlM CompositeState.finish carried
  state.conditional.foldlM ConditionalState.finish carried

end Finish

end ProofFrame
