import ProofFrame.Diff.Accumulator
import ProofFrame.Lib.SortedMap

/-!
# The keyed diff

Both paths of `diff_readers_with_options`.  The in-memory path indexes the rows
of each side by their canonical key.  The partitioned path distributes the rows
of each side over partitions by a hash of the key, and compares the sides one
partition at a time.

The partition files live in a temporary directory of the call, so a path stands
for the contents of its file.
-/

namespace ProofFrame.Diff

open Lib Lib.Run

instance linearOrderUInt8 : LinearOrder UInt8 where
  le_refl := UInt8.le_refl
  le_trans _ _ _ := UInt8.le_trans
  le_antisymm _ _ := UInt8.le_antisymm
  le_total := UInt8.le_total
  lt_iff_le_not_ge a b := by
    rw [UInt8.lt_iff_toNat_lt, UInt8.le_iff_toNat_le, UInt8.le_iff_toNat_le]
    omega
  toDecidableLE := inferInstance

structure DiffOptions where
  resources : ResourceLimits
  maxSamples : ℕ
  output : Option DiffOutput
  rowCountHints : Option (ℕ × ℕ)
  inputBytesHint : Option ℕ
  spill : SpillPolicy
  deriving DecidableEq

def maxPartitionRecordBytes : ℕ := 64 * 1024 * 1024

/-- `saturating_add` and `saturating_mul` of `u64`. -/
def saturate (n : ℕ) : ℕ := min n (2 ^ 64 - 1)

/-- `should_use_in_memory`. -/
def shouldUseInMemory (before after : BatchReader) (options : DiffOptions) : Bool :=
  if options.spill = .never then true
  else
    match options.rowCountHints, options.inputBytesHint with
    | some (beforeRows, afterRows), some inputBytes =>
        let rows := saturate (beforeRows + afterRows)
        let columns := max before.schema.fields.length after.schema.fields.length
        let perRow := saturate (256 + saturate (columns * 32))
        let estimate := saturate (saturate (inputBytes * 2) + saturate (rows * perRow))
        estimate ≤ saturate (options.resources.maxMemoryBytes * 3) / 4
    | _, _ => false

def normalizeColumns : Fault :=
  .error (.schemaMismatch "normalize columns before row-level diff")

def duplicateKey (record : KeyedEntry) : Fault := .error (.duplicateKey record.2.displayKey)

/-- The next batch of a side, of the schema the side declared. -/
def nextBatch {ω : Type} [Host ω] (schema : Schema) (changed : String)
    (item : Except String RecordBatch) : Run ω Fault RecordBatch := do
  checkCancelled
  let batch ← lift (arrowItem item)
  failIf (batch.schema ≠ schema) (.error (.schemaMismatch changed))
  pure batch

/-- The names of the columns in which two rows differ. -/
def changedColumns (columnNames : List String) (before after : RowEntry) : List String :=
  (((before.values.zip after.values).zip columnNames).filter fun (values, _) =>
    values.1 ≠ values.2).map Prod.snd

variable {ω : Type} [Host ω] [DiffCrates]

/-! ## In memory -/

/-- `InMemoryRows`. -/
structure InMemoryRows where
  signature : List ColumnSchema
  rows : ℕ
  entries : List KeyedEntry

/-- The loop variables of `collect_rows_in_memory`. -/
structure Collecting where
  entries : List KeyedEntry
  memory : Ledger
  rows : ℕ

/-- The turn of `collect_rows_in_memory` after the row is read. -/
def collectRecord (state : Collecting) (record : KeyedEntry) : Run ω Fault Collecting := do
  let memory ← state.memory.reserveAdditional (estimatedEntryBytes record)
  failIf ((SortedMap.find record.1 state.entries).isSome) (duplicateKey record)
  let rows ← checkedAdd "Diff row count overflowed" state.rows 1
  pure { entries := SortedMap.insert record.1 record.2 state.entries, memory, rows }

def collectRow (indexes : List ℕ) (batch : RecordBatch) (state : Collecting) (row : ℕ) :
    Run ω Fault Collecting := do
  let record ← lift (readRow indexes batch row)
  collectRecord state record

def collectBatch (schema : Schema) (indexes : List ℕ) (state : Collecting)
    (item : Except String RecordBatch) : Run ω Fault Collecting := do
  let batch ← nextBatch schema "record batch schema changed during in-memory diff" item
  (List.range batch.rows).foldlM (collectRow indexes batch) state

/-- `collect_rows_in_memory`. -/
def collectRowsInMemory (reader : BatchReader) (keys : List String) (account : ResourceAccount) :
    Run ω Fault InMemoryRows := do
  let indexes ← lift (keyIndexes keys reader.schema)
  let signature := schemaSignature reader.schema
  let memory := Ledger.memory (account.child account.limits.maxMemoryBytes 0)
  let state ← reader.items.foldlM (collectBatch reader.schema indexes)
    { entries := [], memory, rows := 0 }
  pure { signature, rows := state.rows, entries := state.entries }

/-- A row of the after side: added, changed or the same. -/
def compareAfterEntry (beforeEntries : List KeyedEntry) (columnNames : List String)
    (state : Accumulator × Ledger) (record : KeyedEntry) : Run ω Fault (Accumulator × Ledger) :=
  let (accumulator, temp) := state
  match SortedMap.find record.1 beforeEntries with
  | some beforeEntry =>
      if beforeEntry.hash ≠ record.2.hash then
        let columns := if accumulator.needsChangedDetail
          then changedColumns columnNames beforeEntry record.2 else []
        accumulator.addChanged record.2.displayKey columns temp
      else pure state
  | none => accumulator.addAdded record.2.displayKey temp

/-- A row of the before side: removed, or met on the after side already. -/
def compareBeforeEntry (inAfter : List UInt8 → Bool) (state : Accumulator × Ledger)
    (record : KeyedEntry) : Run ω Fault (Accumulator × Ledger) := do
  checkCancelled
  if inAfter record.1 then pure state else state.1.addRemoved record.2.displayKey state.2

/-- The numbers of a finished comparison. -/
def diffMetrics (partitions : ℕ) (account : ResourceAccount) (accumulator : Accumulator)
    (temp : Ledger) : Run ω Fault DiffMetrics := do
  let peakMemoryBytes ← peakUsed account .memory
  let peakTempBytes ← peakUsed account .temp
  pure { partitions, tempBytes := temp.used, peakMemoryBytes, peakTempBytes
         outputRecords := accumulator.outputRecords }

/-- `diff_readers_in_memory` up to the call of `finish`. -/
def diffReadersInMemory (before after : BatchReader) (keys : List String) (options : DiffOptions) :
    Run ω Fault (Accumulator × DiffMetrics) := do
  let account := ResourceAccount.root options.resources
  let before ← collectRowsInMemory before keys account
  let after ← collectRowsInMemory after keys account
  failIf (before.signature ≠ after.signature) normalizeColumns
  let sampleLimit := min options.maxSamples options.resources.maxSamples
  let columnNames := before.signature.map ColumnSchema.name
  let temp := Ledger.temp account
  let accumulator ←
    Accumulator.new keys before.rows after.rows sampleLimit options.output account
  let state ← after.entries.foldlM (fun state record => do
    checkCancelled
    compareAfterEntry before.entries columnNames state record) (accumulator, temp)
  let (accumulator, temp) ← before.entries.foldlM
    (compareBeforeEntry fun key => (SortedMap.find key after.entries).isSome) state
  let metrics ← diffMetrics 0 account accumulator temp
  pure (accumulator, metrics)

/-! ## Partitioned -/

/-- `PartitionedRows`. -/
structure PartitionedRows where
  signature : List ColumnSchema
  schemaDigest : Digest
  rows : ℕ
  paths : List (List UInt8)

/-- The loop variables of `partition_rows`. -/
structure Partitioning where
  writers : List PartitionWriter
  temp : Ledger
  rows : ℕ

/-- The turn of `partition_rows` after the row is read. -/
def partitionRecord (account : ResourceAccount) (state : Partitioning) (record : KeyedEntry) :
    Run ω Fault Partitioning := do
  let partition := rowPartition record.1
  let writer ← someOr state.writers[partition]? (.panic "writers[partition]")
  let (writer, temp) ← writer.writeRecord record
    (min maxPartitionRecordBytes account.limits.maxMemoryBytes)
    (reserve account .memory) state.temp.reserveAdditional
  let rows ← checkedAdd "Diff row count overflowed" state.rows 1
  pure { writers := state.writers.set partition writer, temp, rows }

def partitionRow (account : ResourceAccount) (indexes : List ℕ) (batch : RecordBatch)
    (state : Partitioning) (row : ℕ) : Run ω Fault Partitioning := do
  let record ← lift (readRow indexes batch row)
  partitionRecord account state record

def partitionBatch (account : ResourceAccount) (schema : Schema) (indexes : List ℕ)
    (state : Partitioning) (item : Except String RecordBatch) : Run ω Fault Partitioning := do
  let batch ← nextBatch schema "record batch schema changed during diff partitioning" item
  (List.range batch.rows).foldlM (partitionRow account indexes batch) state

/-- What `partition_rows` reserves for the headers of the files. -/
@[irreducible] def partitionHeaderBytes : ℕ := partitions * headerBytes

/-- What `partition_rows` reserves for the writers. -/
@[irreducible] def partitionWriterBytes : ℕ := partitions * (writerBufferBytes + 1024)

/-- `partition_rows`. -/
def partitionRows (reader : BatchReader) (keys : List String) (account : ResourceAccount)
    (temp : Ledger) : Run ω Fault (PartitionedRows × Ledger) := do
  let indexes ← lift (keyIndexes keys reader.schema)
  let signature := schemaSignature reader.schema
  let schemaDigest := signatureDigest signature
  let temp ← temp.reserveAdditional partitionHeaderBytes
  reserve account .memory partitionWriterBytes
  let writers ← (List.range partitions).mapM fun _ => PartitionWriter.create schemaDigest
  let state ← reader.items.foldlM (partitionBatch account reader.schema indexes)
    { writers, temp, rows := 0 }
  let paths ← state.writers.mapM PartitionWriter.finish
  pure ({ signature, schemaDigest, rows := state.rows, paths }, state.temp)

/-- The loop of `process_partition` over the before side. -/
def beforeTurn (state : PartitionReader × Ledger × List KeyedEntry) :
    Run ω Fault (Turn (PartitionReader × Ledger × List KeyedEntry) (Ledger × List KeyedEntry)) := do
  let (reader, memory, beforeRows) := state
  let (read, reader) ← reader.next
  match read with
  | none => pure (.leave (memory, beforeRows))
  | some record => do
      let memory ← memory.reserveAdditional (estimatedEntryBytes record)
      failIf ((SortedMap.find record.1 beforeRows).isSome) (duplicateKey record)
      pure (.again (reader, memory, SortedMap.insert record.1 record.2 beforeRows))

/-- The loop variables of `process_partition` over the after side. -/
structure Matching where
  reader : PartitionReader
  memory : Ledger
  /-- The keys of the after side seen so far. -/
  seenAfter : List (List UInt8)
  output : Accumulator × Ledger

/-- The loop of `process_partition` over the after side. -/
def afterTurn (beforeRows : List KeyedEntry) (columnNames : List String) (state : Matching) :
    Run ω Fault (Turn Matching Matching) := do
  let (read, reader) ← state.reader.next
  match read with
  | none => pure (.leave { state with reader })
  | some record => do
      let memory ← state.memory.reserveAdditional (record.1.length + 64)
      failIf (record.1 ∈ state.seenAfter) (duplicateKey record)
      let output ← compareAfterEntry beforeRows columnNames state.output record
      pure (.again { reader, memory, seenAfter := record.1 :: state.seenAfter, output })

/-- `process_partition`. -/
def processPartition (schemaDigest : Digest) (limits : PartitionLimits)
    (columnNames : List String) (account : ResourceAccount) (state : Accumulator × Ledger)
    (files : List UInt8 × List UInt8) : Run ω Fault (Accumulator × Ledger) := do
  checkCancelled
  let memory := Ledger.memory (account.child account.limits.maxMemoryBytes 0)
  let reader ← PartitionReader.open files.1 schemaDigest limits
  let (memory, beforeRows) ←
    loop .diverged beforeTurn (reader.remainingRecords + 1) (reader, memory, [])
  let reader ← PartitionReader.open files.2 schemaDigest limits
  let matched ← loop .diverged (afterTurn beforeRows columnNames) (reader.remainingRecords + 1)
    { reader, memory, seenAfter := [], output := state }
  beforeRows.foldlM (compareBeforeEntry fun key => key ∈ matched.seenAfter) matched.output

/-- The partitioned path up to the call of `finish`. -/
def diffReadersPartitioned (before after : BatchReader) (keys : List String)
    (options : DiffOptions) : Run ω Fault (Accumulator × DiffMetrics) := do
  ioOperation .createDirectory
  let account := ResourceAccount.root options.resources
  let temp := Ledger.temp account
  let (before, temp) ← partitionRows before keys account temp
  let (after, temp) ← partitionRows after keys account temp
  failIf (before.signature ≠ after.signature) normalizeColumns
  let sampleLimit := min options.maxSamples options.resources.maxSamples
  let columnNames := before.signature.map ColumnSchema.name
  let accumulator ←
    Accumulator.new keys before.rows after.rows sampleLimit options.output account
  failIf (2 ^ 32 ≤ columnNames.length) (corrupt "Diff schema exceeds u32 columns")
  let limits : PartitionLimits :=
    { maxRecordBytes := min maxPartitionRecordBytes options.resources.maxMemoryBytes
      maxColumns := columnNames.length }
  let (accumulator, temp) ← (before.paths.zip after.paths).foldlM
    (processPartition before.schemaDigest limits columnNames account) (accumulator, temp)
  let metrics ← diffMetrics partitions account accumulator temp
  pure (accumulator, metrics)

/-! ## The diff -/

/-- `diff_readers_with_options` up to the call of `finish`. -/
def compareReaders (before after : BatchReader) (keys : List String) (options : DiffOptions) :
    Run ω Fault (Accumulator × DiffMetrics) := do
  failIf (keys = []) (.error .noKeyColumns)
  checkCancelled
  if shouldUseInMemory before after options then diffReadersInMemory before after keys options
  else diffReadersPartitioned before after keys options

/-- `diff_readers_with_options`.  Only the call of `finish` has access to the disk. -/
def diffReadersWithOptions (before after : BatchReader) (keys : List String)
    (options : DiffOptions) (world : ω) (disk : Disk) : Except Fault (DiffReport × ω) × Disk :=
  match compareReaders before after keys options world with
  | .error fault => (.error fault, disk)
  | .ok ((accumulator, metrics), world) => accumulator.finish metrics world disk

end ProofFrame.Diff
