import ProofFrame.Contract.Digest
import ProofFrame.Execution.References

/-!
# The engine

Execution of a compiled contract over a stream of record batches: the states are
created, every batch goes through the column rules, the row rules, the dataset
rules and the reference rules, and the states are finished in turn into one
report.
-/

namespace ProofFrame

open Lib Lib.Run Lib.Ieee754 Distinct

/-- Execution hints that do not alter contract semantics. -/
structure ExecutionOptions where
  rowCountHint : Option ℕ
  resources : ResourceLimits
  threads : Option ℕ
  spill : SpillPolicy
  deriving DecidableEq

structure ExecutionMetrics where
  peakMemoryBytes : ℕ
  peakTempBytes : ℕ
  spillBytes : ℕ
  exactRuns : ℕ
  capacityGrowthEvents : ℕ
  deriving DecidableEq

structure FastValidationReport where
  valid : Bool
  violationCount : ℕ
  truncated : Bool
  findings : List Finding
  rows : ℕ
  mode : String
  evaluatedColumns : List ℕ
  evaluatedIndices : List ℕ
  metrics : ExecutionMetrics
  resources : ResourceLimits
  compiledPlanDigest : String
  schemaDigest : String
  references : List ReferenceOutcome
  deriving DecidableEq

/-- How many findings a run of the plan keeps. -/
def findingLimit (plan : CompiledContract) (options : ExecutionOptions) : ℕ :=
  min plan.maxFindings options.resources.maxSamples

def readerSchemaDiffers : Fault :=
  .error (.schemaMismatch "reader schema differs from the schema used to compile the contract")

def batchSchemaChanged : Fault :=
  .error (.schemaMismatch "record batch schema changed after contract compilation")

/-! ## Row count comparisons -/

/-- What is wrong with a change of the row count. -/
def deltaReason (plan : RowCountDeltaPlan) (ratio : F64) : Option String :=
  if plan.minRatio.any ratio.lt then
    plan.minRatio.map fun minimum => "below the minimum " ++ minimum.display
  else if plan.maxRatio.any ratio.gt then
    plan.maxRatio.map fun maximum => "above the maximum " ++ maximum.display
  else none

def rowCountDeltaFinding (message : String) : Finding :=
  ⟨"row_count_delta", "$dataset", none, message⟩

/-- The violations of one `row_count_delta` rule, given the rows of the dataset it names. -/
def rowCountDeltaFindings (plan : RowCountDeltaPlan) (rows : ℕ) : Option ℕ → List Finding
  | none => []
  | some 0 =>
      [rowCountDeltaFinding
        s!"Rule `{plan.name}` compares against `{plan.reference}`, which has no rows"]
  | some (reference + 1) =>
      let counted : F64 := Ieee.ofInt (reference + 1 : ℕ)
      let ratio := ((Ieee.ofInt rows).sub counted).div counted
      match deltaReason plan ratio with
      | none => []
      | some reason =>
          [rowCountDeltaFinding (s!"Rule `{plan.name}` moved {ratio.display} against " ++
            s!"`{plan.reference}` ({rows} rows against {reference + 1}), which is {reason}")]

/-- `check_row_count_delta`. -/
def rowCountDeltas (plans : List RowCountDeltaPlan) (rows : ℕ) (counted : List (String × ℕ)) :
    List Finding :=
  plans.flatMap fun plan => rowCountDeltaFindings plan rows (SortedMap.find plan.reference counted)

/-! ## Uniqueness of columns -/

def duplicateValue (column : ColumnPlan) (row : ℕ) : Finding :=
  ⟨"unique", column.field.name, some row, "Duplicate value detected"⟩

/-- Everything one traversal accumulates. -/
structure ScanState where
  fingerprint : Option V2FingerprintState
  validation : ValidationState
  uniqueStates : List (Option ExactState)
  datasetState : DatasetState ExactState
  references : List (ReferenceEntry ExactState)
  rows : ℕ

section Execution

variable {ω : Type} [Host ω] [Crates]

/-- `initialize_unique_states`. -/
def initializeUniqueStates (plan : CompiledContract) (options : ExecutionOptions)
    (account : ResourceAccount) : Run ω Fault (List (Option ExactState)) := do
  let directory ← createDirectoryIf
    (plan.columns.any (fun column => column.rules.unique) && options.spill = .auto)
  plan.columns.mapM fun column => do
    if column.rules.unique then
      let exact ← newExact (exactKind column.kernel) account directory options.rowCountHint
      pure (some exact)
    else pure none

/-! ## The traversal -/

/-- The column rules over a batch; the pairs are the columns with their plan indices. -/
def scanColumns (batch : RecordBatch) (rows : ℕ) :
    List (ColumnPlan × ℕ) → List (Option ExactState) → ValidationState →
      Run ω Fault (List (Option ExactState) × ValidationState)
  | [], _, validation => pure ([], validation)
  | _ :: _, [], _ => throw outOfBounds
  | (column, planIndex) :: columns, exact :: uniqueStates, validation => do
      let array ← lift (batch.column column.columnIndex)
      let sink ← scanColumn column array rows
        { validation := validation.recordEvaluated planIndex (array.length - array.nullCount), exact }
      sink.validation.checkResources
      let (uniqueStates, validation) ← scanColumns batch rows columns uniqueStates sink.validation
      pure (sink.exact :: uniqueStates, validation)

def scanRowPlans (batch : RecordBatch) (rows : ℕ) (plans : List RowPlan)
    (validation : ValidationState) : Run ω Fault ValidationState :=
  plans.foldlM (fun validation plan => do
    let validation ← scanRowPlan plan batch rows validation
    validation.checkResources
    pure validation) validation

/-- One turn of `scan_reader`. -/
def scanBatch (plan : CompiledContract) (state : ScanState) (item : Except String RecordBatch) :
    Run ω Fault ScanState := do
  checkCancelled
  let batch ← lift (arrowItem item)
  failIf (batch.schema ≠ plan.schema) batchSchemaChanged
  let fingerprint ← lift (state.fingerprint.mapM (V2FingerprintState.update · batch))
  let (uniqueStates, validation) ←
    scanColumns batch state.rows plan.columns.zipIdx state.uniqueStates state.validation
  let validation ← scanRowPlans batch state.rows plan.rowPlans validation
  let (datasetState, validation) ← state.datasetState.update batch state.rows validation
  validation.checkResources
  let (references, validation) ←
    updateEach (ReferenceEntry.update batch state.rows) state.references validation
  validation.checkResources
  pure { fingerprint, validation, uniqueStates, datasetState, references
         rows := state.rows + batch.rows }

/-- `scan_reader`. -/
def scanReader (plan : CompiledContract) (items : List (Except String RecordBatch))
    (state : ScanState) : Run ω Fault ScanState :=
  items.foldlM (scanBatch plan) state

/-! ## Finishing -/

def recordDuplicateValue (column : ColumnPlan) (validation : ValidationState)
    (sample : DuplicateSample) : Run ω Fault ValidationState := do
  let validation ← validation.recordLazy (duplicateValue column sample.duplicateRow.toNat)
  validation.checkResources
  pure validation

def finishUniqueState (carried : SpillMetrics × ValidationState)
    (pair : ColumnPlan × Option ExactState) : Run ω Fault (SpillMetrics × ValidationState) := do
  let (metrics, validation) := carried
  match pair.2 with
  | none => pure (metrics, validation)
  | some exact => do
      let summary ← exact.finish
      let samples := summary.duplicateSamples
      let validation ← samples.foldlM (recordDuplicateValue pair.1) validation
      pure (metrics.add summary.metrics.spillBytes summary.metrics.runs,
        validation.addCount (summary.duplicateCount - samples.length))

/-- `finish_unique_states`. -/
def finishUniqueStates (plan : CompiledContract) (uniqueStates : List (Option ExactState))
    (validation : ValidationState) : Run ω Fault (SpillMetrics × ValidationState) :=
  (plan.columns.zip uniqueStates).foldlM finishUniqueState (SpillMetrics.zero, validation)

def buildReport (plan : CompiledContract) (options : ExecutionOptions) (account : ResourceAccount)
    (validation : ValidationState) (rows : ℕ) (metrics : SpillMetrics)
    (references : List ReferenceOutcome) : Run ω Fault FastValidationReport := do
  let outcome := validation.finish
  let peakMemoryBytes ← peakUsed account .memory
  let peakTempBytes ← peakUsed account .temp
  let compiledPlanDigest ← lift plan.compiledPlanDigest
  let schemaDigest ← lift plan.schemaDigest
  pure {
    valid := outcome.violationCount = 0
    violationCount := outcome.violationCount
    truncated := outcome.truncated
    findings := outcome.findings
    evaluatedColumns := outcome.evaluated
    evaluatedIndices := plan.columns.map ColumnPlan.columnIndex
    rows
    mode := "rules_only"
    metrics := { peakMemoryBytes, peakTempBytes, spillBytes := metrics.spillBytes
                 exactRuns := metrics.exactRuns, capacityGrowthEvents := 0 }
    resources := options.resources
    compiledPlanDigest, schemaDigest, references }

/-! ## Execution -/

/-- The states a run starts from, with the reference rules prepared and the datasets of the
`row_count_delta` rules counted. -/
structure Started where
  scan : ScanState
  prepared : List (PreparedReference SealedState)
  counted : List (String × ℕ)

/-- What `execute_reader_inner_with_account` does before the first batch. -/
def startExecution (reader : BatchReader) (plan : CompiledContract) (options : ExecutionOptions)
    (fingerprint : Bool) (account : ResourceAccount) (references : ReferenceBindings) :
    Run ω Fault Started := do
  failIf (reader.schema ≠ plan.schema) readerSchemaDiffers
  let fingerprint ← lift
    (if fingerprint then some <$> V2FingerprintState.new reader.schema [] else .ok none)
  let validation :=
    (ValidationState.newAccounted (findingLimit plan options) account).prepareEvaluated
      plan.columns.length
  let datasetState ←
    DatasetState.new plan.datasetPlan account options.rowCountHint options.spill
  let uniqueStates ← initializeUniqueStates plan options account
  -- row-count comparisons take their datasets first
  let delta ← countDeltaReferences plan.datasetPlan.rowCountDelta references
  let prepared ← prepare plan.datasetPlan.references delta.bindings plan.schema account
  let entries ← newReferenceEntries prepared account options.rowCountHint
  pure { scan := { fingerprint, validation, uniqueStates, datasetState, references := entries
                   rows := 0 }
         prepared, counted := delta.counted }

/-- What it does after the last batch. -/
def finishExecution (plan : CompiledContract) (options : ExecutionOptions)
    (account : ResourceAccount) (prepared : List (PreparedReference SealedState))
    (counted : List (String × ℕ)) (scan : ScanState) :
    Run ω Fault (FastValidationReport × Option Fingerprint) := do
  let (metrics, validation) ← finishUniqueStates plan scan.uniqueStates scan.validation
  let result ← finishReferences scan.references prepared (findingLimit plan options) validation
  let metrics := metrics.add result.metrics.spillBytes result.metrics.exactRuns
  let validation ← result.validation.recordAll
    (rowCountDeltas plan.datasetPlan.rowCountDelta scan.rows counted)
  let (datasetMetrics, validation) ← scan.datasetState.finish scan.rows validation
  validation.checkResources
  let report ← buildReport plan options account validation scan.rows
    (metrics.add datasetMetrics.spillBytes datasetMetrics.exactRuns) result.outcomes
  pure (report, scan.fingerprint.map V2FingerprintState.finish)

/-- `execute_reader_inner_with_account`. -/
def executeReaderInnerWithAccount (reader : BatchReader) (plan : CompiledContract)
    (options : ExecutionOptions) (fingerprint : Bool) (account : ResourceAccount)
    (references : ReferenceBindings) : Run ω Fault (FastValidationReport × Option Fingerprint) := do
  let started ← startExecution reader plan options fingerprint account references
  let scan ← scanReader plan reader.items started.scan
  finishExecution plan options account started.prepared started.counted scan

/-- `execute_reader_inner`. -/
def executeReaderInner (reader : BatchReader) (plan : CompiledContract)
    (options : ExecutionOptions) (fingerprint : Bool) (references : ReferenceBindings) :
    Run ω Fault (FastValidationReport × Option Fingerprint) :=
  executeReaderInnerWithAccount reader plan options fingerprint (.root options.resources) references

def executeReaderWithReferences (reader : BatchReader) (plan : CompiledContract)
    (options : ExecutionOptions) (references : ReferenceBindings) :
    Run ω Fault FastValidationReport :=
  Prod.fst <$> executeReaderInner reader plan options false references

def executeReader (reader : BatchReader) (plan : CompiledContract) (options : ExecutionOptions) :
    Run ω Fault FastValidationReport :=
  executeReaderWithReferences reader plan options []

/-- `execute_reader_with_fingerprint_and_references`. -/
def executeReaderWithFingerprintAndReferences (reader : BatchReader) (plan : CompiledContract)
    (options : ExecutionOptions) (references : ReferenceBindings) :
    Run ω Fault (FastValidationReport × Fingerprint) := do
  let (report, fingerprint) ← executeReaderInner reader plan options true references
  let fingerprint ← someOr fingerprint
    (.error (.invalidReceipt "V2 fingerprint state was not created"))
  pure (report, fingerprint)

end Execution

end ProofFrame
