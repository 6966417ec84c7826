import ProofFrame.Execution.Engine
import ProofFrame.Lib.WorkQueue

/-!
# Partitions

Validation of a dataset that comes as an ordered list of streams.  A plan with
global state goes through the partitions as one sequence.  Without global state
the partitions are validated separately, by workers on a shared queue, and the
reports are merged in the order of the partitions.

The workers run concurrently, so what a call ends in is a relation: it relates
the call to every outcome that some surroundings and some order of the workers'
steps lead to.
-/

namespace ProofFrame

open Lib Lib.Run

/-- `PartitionSequence`: the partitions one after the other. -/
def partitionSequence (readers : List BatchReader) (schema : Schema) : BatchReader :=
  { schema, items := readers.flatMap BatchReader.items }

def requiresGlobalState (plan : CompiledContract) : Bool :=
  !plan.datasetPlan.isEmpty || plan.columns.any fun column => column.rules.unique

/-! ## Merging reports -/

/-- The sums over the reports merged so far. -/
structure Merge where
  findings : List Finding
  rowOffset : ℕ
  violationCount : ℕ
  metrics : ExecutionMetrics
  evaluated : List ℕ
  indices : List ℕ

def Merge.start : Merge :=
  { findings := [], rowOffset := 0, violationCount := 0, metrics := ⟨0, 0, 0, 0, 0⟩
    evaluated := [], indices := [] }

/-- Add the counts of a report to the totals, which grow to the longer of the two. -/
def addCounts : List ℕ → List ℕ → List ℕ
  | total :: totals, part :: parts => (total + part) :: addCounts totals parts
  | [], parts => parts
  | totals, [] => totals

/-- A finding of a partition that starts at the given row. -/
def Finding.shift (rowOffset : ℕ) (finding : Finding) : Finding :=
  { finding with row := finding.row.map (rowOffset + ·) }

def Merge.add (limit : ℕ) (merge : Merge) (report : FastValidationReport) : Merge :=
  { violationCount := merge.violationCount + report.violationCount
    indices := if merge.indices.length < report.evaluatedIndices.length
      then report.evaluatedIndices else merge.indices
    evaluated := addCounts merge.evaluated report.evaluatedColumns
    findings := merge.findings ++
      (report.findings.take (limit - merge.findings.length)).map (Finding.shift merge.rowOffset)
    rowOffset := merge.rowOffset + report.rows
    metrics := {
      peakMemoryBytes := max merge.metrics.peakMemoryBytes report.metrics.peakMemoryBytes
      peakTempBytes := max merge.metrics.peakTempBytes report.metrics.peakTempBytes
      spillBytes := merge.metrics.spillBytes + report.metrics.spillBytes
      exactRuns := merge.metrics.exactRuns + report.metrics.exactRuns
      capacityGrowthEvents :=
        merge.metrics.capacityGrowthEvents + report.metrics.capacityGrowthEvents } }

/-- The sums over all reports. -/
def mergeAll (limit : ℕ) (reports : List FastValidationReport) : Merge :=
  reports.foldl (Merge.add limit) .start

section Partitions

variable [Crates]

def mergeReports (reports : List FastValidationReport) (plan : CompiledContract)
    (options : ExecutionOptions) : Except Fault FastValidationReport := do
  let merge := mergeAll (findingLimit plan options) reports
  let compiledPlanDigest ← plan.compiledPlanDigest
  let schemaDigest ← plan.schemaDigest
  .ok {
    valid := merge.violationCount = 0
    violationCount := merge.violationCount
    truncated := merge.findings.length < merge.violationCount
    findings := merge.findings
    evaluatedColumns := merge.evaluated
    evaluatedIndices := merge.indices
    rows := merge.rowOffset
    mode := "rules_only"
    metrics := merge.metrics
    resources := options.resources
    compiledPlanDigest, schemaDigest
    references := [] }

/-! ## Workers -/

/-- What the slot of a partition holds after its worker published. -/
abbrev PartitionResult : Type := Except ProofFrameError FastValidationReport

/-- The account of a partition: it may ask for the whole budget, which the root enforces. -/
def partitionAccount (options : ExecutionOptions) : ResourceAccount :=
  (ResourceAccount.root options.resources).child options.resources.maxMemoryBytes
    options.resources.maxTempBytes

/-- In some surroundings the validation of the partition ends so. -/
def PartitionEnds (plan : CompiledContract) (options : ExecutionOptions) (reader : BatchReader)
    (outcome : Except Fault FastValidationReport) : Prop :=
  ∃ (ω : Type) (_ : Host ω) (world : ω),
    ((executeReaderInnerWithAccount reader plan options false (partitionAccount options) [] :
      Run ω Fault _) world).map (fun ended => ended.1.1) = outcome

/-- The results a worker may publish for the partition. -/
def PartitionEnds.publishes (plan : CompiledContract) (options : ExecutionOptions)
    (reader : BatchReader) (result : PartitionResult) : Prop :=
  PartitionEnds plan options reader (result.mapError Fault.error)

/-- The worker of the partition may panic. -/
def PartitionEnds.panics (plan : CompiledContract) (options : ExecutionOptions)
    (reader : BatchReader) : Prop :=
  ∃ site, PartitionEnds plan options reader (.error (.panic site))

/-- The pools that validate the partitions with some number of workers; `available` is what the
host offers where the options do not say. -/
def PartitionPool (readers : List BatchReader) (plan : CompiledContract)
    (options : ExecutionOptions) (pool : WorkQueue.Pool BatchReader PartitionResult) : Prop :=
  ∃ available, 0 < available ∧
    WorkQueue.Reachable (PartitionEnds.publishes plan options) (PartitionEnds.panics plan options)
      readers (max 1 (min readers.length (options.threads.getD available))) pool

/-- The report in a slot. -/
def slotReport (slot : Option PartitionResult) (index : ℕ) : Except Fault FastValidationReport :=
  match slot with
  | some result => result.mapError Fault.error
  | none => .error (.error (.corruptData
      s!"partition worker did not publish logical result {index}"))

/-- What the caller makes of the slots. -/
def collectReports (slots : List (Option PartitionResult)) (plan : CompiledContract)
    (options : ExecutionOptions) : Except Fault FastValidationReport := do
  let reports ← slots.zipIdx.mapM fun (slot, index) => slotReport slot index
  mergeReports reports plan options

def partitionSchemaDiffers : Fault :=
  .error (.schemaMismatch "partition schema differs from the schema used to compile the contract")

def unusedReferenceDatasets : Fault :=
  contractError .referenceUnbound "No reference rule uses the bound reference datasets" none

/-- `check_partition_readers_with_references`: the outcomes a call may have. -/
inductive CheckPartitionReadersWithReferences (readers : List BatchReader)
    (plan : CompiledContract) (options : ExecutionOptions) (references : ReferenceBindings) :
    Except Fault FastValidationReport → Prop where
  | cancelled : CheckPartitionReadersWithReferences readers plan options references
      (.error (.error .cancelled))
  | schema (hschema : ∃ reader ∈ readers, reader.schema ≠ plan.schema) :
      CheckPartitionReadersWithReferences readers plan options references
        (.error partitionSchemaDiffers)
  | ordered {ω : Type} [Host ω] (world : ω)
      (hschema : ∀ reader ∈ readers, reader.schema = plan.schema)
      (hglobal : readers = [] ∨ requiresGlobalState plan = true) :
      CheckPartitionReadersWithReferences readers plan options references
        (((executeReaderWithReferences (partitionSequence readers plan.schema) plan options
          references : Run ω Fault _) world).map Prod.fst)
  | unused (hschema : ∀ reader ∈ readers, reader.schema = plan.schema) (hnonempty : readers ≠ [])
      (hlocal : requiresGlobalState plan = false) (hreferences : references ≠ []) :
      CheckPartitionReadersWithReferences readers plan options references
        (.error unusedReferenceDatasets)
  | independent {pool : WorkQueue.Pool BatchReader PartitionResult}
      (hschema : ∀ reader ∈ readers, reader.schema = plan.schema) (hnonempty : readers ≠ [])
      (hlocal : requiresGlobalState plan = false) (hreferences : references = [])
      (hpool : PartitionPool readers plan options pool) (hfinished : pool.Finished) :
      CheckPartitionReadersWithReferences readers plan options references
        (collectReports pool.results plan options)
  | panicked {pool : WorkQueue.Pool BatchReader PartitionResult}
      (hschema : ∀ reader ∈ readers, reader.schema = plan.schema) (hnonempty : readers ≠ [])
      (hlocal : requiresGlobalState plan = false) (hreferences : references = [])
      (hpool : PartitionPool readers plan options pool) (hpanicked : .crashed ∈ pool.workers) :
      CheckPartitionReadersWithReferences readers plan options references
        (.error (.panic "a scoped thread panicked"))

/-- `check_partition_readers`. -/
def CheckPartitionReaders (readers : List BatchReader) (plan : CompiledContract)
    (options : ExecutionOptions) : Except Fault FastValidationReport → Prop :=
  CheckPartitionReadersWithReferences readers plan options []

end Partitions

end ProofFrame
