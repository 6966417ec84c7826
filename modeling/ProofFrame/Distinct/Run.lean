import ProofFrame.Crates
import ProofFrame.Distinct.Value
import ProofFrame.Execution.Resource
import ProofFrame.Lib.Sorted.Merge

/-!
# Sorted runs

A run is a temporary file of records in ascending order: a 60-byte header, the
payload, and in the header a checksum of the payload.  A run is written from one
sorted segment or compacted from other runs, and read back through a cursor
that checks the header, every length and the end of the file.

The temporary file belongs to its `RunMeta` alone, so its contents are a field
of it.
-/

namespace ProofFrame.Distinct

open Lib Lib.Run

def magic : List UInt8 := [0x50, 0x46, 0x52, 0x55, 0x4e, 0x30, 0x30, 0x31]

def version : ℕ := 1

def headerBytes : ℕ := 60

def maxRecordBytes : ℕ := 64 * 1024 * 1024

def verifyBufferBytes : ℕ := 4 * 1024

def mergeBufferBytes : ℕ := 256

def checksumOffset : ℕ := 28

def corrupt (message : String) : Fault := .error (.corruptData message)

structure RunMeta where
  /-- The contents of the temporary file at `path`. -/
  file : List UInt8
  kind : ValueKind
  records : ℕ
  payloadBytes : ℕ
  maxRecordBytes : ℕ
  checksum : Digest

def RunMeta.totalBytes (run : RunMeta) : ℕ := headerBytes + run.payloadBytes

variable {ω : Type} [Host ω]

/-! ## Writing -/

/-- The header of a run file. -/
def header (kind : ValueKind) (records payloadBytes : ℕ) (checksum : List UInt8) : List UInt8 :=
  magic ++ Bytes.toLe 2 version ++ [kind.tag, 0] ++ Bytes.toLe 8 records ++
    Bytes.toLe 8 payloadBytes ++ checksum

structure RunSpec where
  kind : ValueKind
  records : ℕ
  payloadBytes : ℕ
  checksum : Digest
  maxRecordBytes : ℕ

def writeRun (spec : RunSpec) (account : ResourceAccount) (payload : List UInt8) :
    Run ω Fault RunMeta := do
  let totalBytes ← checkedAdd "Exact run size overflowed u64" headerBytes spec.payloadBytes
  reserve account .temp totalBytes
  ioOperation .createFile
  ioOperation .writeFile
  ioOperation .syncFile
  pure
    { file := header spec.kind spec.records spec.payloadBytes spec.checksum.val ++ payload
      kind := spec.kind
      records := spec.records
      payloadBytes := spec.payloadBytes
      maxRecordBytes := spec.maxRecordBytes
      checksum := spec.checksum }

/-! ## Reading -/

/-- `read_exact_partition`: the next bytes of a reader. -/
def readExact (count : ℕ) (reader : List UInt8) : Run ω Fault (List UInt8 × List UInt8) := do
  ioOperation .readFile
  someOr (Bytes.split count reader) (corrupt "Exact run is truncated")

structure RunCursor where
  /-- The unread bytes of the file. -/
  reader : List UInt8
  kind : ValueKind
  remaining : ℕ
  payloadRemaining : ℕ

namespace RunCursor

/-- `RunCursor::open`. -/
def «open» (run : RunMeta) : Run ω Fault RunCursor := do
  ioOperation .openFile
  failIf (run.file.length ≠ headerBytes + run.payloadBytes) (corrupt "Exact run length does not match its header")
  let (magicBytes, reader) ← readExact 8 run.file
  failIf (magicBytes ≠ magic) (corrupt "Exact run magic is invalid")
  let (versionBytes, reader) ← readExact 2 reader
  failIf (Bytes.ofLe versionBytes ≠ version) (corrupt "Exact run version is unsupported")
  let (kindBytes, reader) ← readExact 2 reader
  let kind ← someOr (ValueKind.fromTag (kindBytes.headD 0))
    (corrupt "Exact run value kind is invalid")
  let (recordBytes, reader) ← readExact 8 reader
  let (payloadBytes, reader) ← readExact 8 reader
  let (checksum, reader) ← readExact 32 reader
  failIf (kind ≠ run.kind ∨ Bytes.ofLe recordBytes ≠ run.records ∨
      Bytes.ofLe payloadBytes ≠ run.payloadBytes ∨ checksum ≠ run.checksum.val)
    (corrupt "Exact run metadata changed after creation")
  pure { reader, kind, remaining := Bytes.ofLe recordBytes
         payloadRemaining := Bytes.ofLe payloadBytes }

/-- `RunCursor::read_payload`. -/
def readPayload (cursor : RunCursor) (count : ℕ) : Run ω Fault (List UInt8 × RunCursor) := do
  failIf (count > cursor.payloadRemaining) (corrupt "Exact run record crosses the payload boundary")
  let (bytes, reader) ← readExact count cursor.reader
  pure (bytes, { cursor with reader, payloadRemaining := cursor.payloadRemaining - count })

/-- `RunCursor::verify_end`. -/
def verifyEnd (cursor : RunCursor) : Run ω Fault Unit := do
  failIf (cursor.payloadRemaining ≠ 0) (corrupt "Exact run record count does not consume its payload")
  ioOperation .readFile
  failIf (cursor.reader ≠ []) (corrupt "Exact run contains trailing bytes")

/-- The value of the next record. -/
def readValue (cursor : RunCursor) : Run ω Fault (OwnedValue × RunCursor) := do
  match cursor.kind with
  | .i64 =>
      let (bytes, cursor) ← cursor.readPayload 8
      pure (.i64 (UInt64.ofNat (Bytes.ofLe bytes)).toInt64, cursor)
  | .u64 =>
      let (bytes, cursor) ← cursor.readPayload 8
      pure (.u64 (UInt64.ofNat (Bytes.ofLe bytes)), cursor)
  | .f64 =>
      let (bytes, cursor) ← cursor.readPayload 8
      pure (.f64 (UInt64.ofNat (Bytes.ofLe bytes)), cursor)
  | .bytes =>
      let (lengthBytes, cursor) ← cursor.readPayload 4
      let length := Bytes.ofLe lengthBytes
      failIf (length > Distinct.maxRecordBytes ∨ length > cursor.payloadRemaining - 8)
        (corrupt "Exact run byte length exceeds its bounded payload")
      let (bytes, cursor) ← cursor.readPayload length
      pure (.bytes bytes, cursor)

/-- `RunCursor::next`. -/
def next (cursor : RunCursor) : Run ω Fault (Option Record × RunCursor) := do
  if cursor.remaining = 0 then
    cursor.verifyEnd
    pure (none, cursor)
  else
    let (value, cursor) ← cursor.readValue
    let (rowBytes, cursor) ← cursor.readPayload 8
    pure (some { value, row := UInt64.ofNat (Bytes.ofLe rowBytes) },
      { cursor with remaining := cursor.remaining - 1 })

end RunCursor

variable [Crates]

/-- `verify_payload`: one cancellation check and one read per buffer. -/
def verifyPayload (run : RunMeta) : Run ω Fault Unit := do
  ioOperation .openFile
  failIf (run.file.length ≠ headerBytes + run.payloadBytes) (corrupt "Exact run length does not match its header")
  (List.range ((run.payloadBytes + verifyBufferBytes - 1) / verifyBufferBytes)).forM fun _ => do
    checkCancelled
    ioOperation .readFile
  failIf (Crates.blake3 ((run.file.drop headerBytes).take run.payloadBytes) ≠ run.checksum)
    (corrupt "Exact run payload checksum is invalid")

/-- `merge_memory_bytes`. -/
def mergeMemoryBytes (runs : List RunMeta) : Run ω Fault ℕ := do
  let overflow := "Exact merge size overflowed"
  let cursorBytes ← runs.foldlM (fun total run => do
    let fixed ← checkedAdd overflow mergeBufferBytes Crates.sizeOfRunCursor
    let fixed ← checkedAdd overflow fixed Crates.sizeOfMergeEntry
    let total ← checkedAdd overflow total fixed
    checkedAdd overflow total run.maxRecordBytes) 0
  checkedAdd overflow cursorBytes ((runs.map RunMeta.maxRecordBytes).foldl max 0)

/-! ## Merging -/

/-- The cursors of a merge and the heap of their next records. -/
structure MergeState where
  cursors : List RunCursor
  heap : List (Record × ℕ)

namespace MergeState

/-- Ask the source `run` for its next record. -/
def refill (state : MergeState) (run : ℕ) : Run ω Fault MergeState := do
  let cursor ← someOr state.cursors[run]? (.panic "cursors[entry.run]")
  let (record, cursor) ← cursor.next
  let cursors := state.cursors.set run cursor
  match record with
  | some record => pure { cursors, heap := Sorted.push (record, run) state.heap }
  | none => pure { state with cursors }

/-- The turns a loop over the merge can take. -/
def fuel (state : MergeState) : ℕ :=
  state.heap.length + (state.cursors.map RunCursor.remaining).sum + 1

end MergeState

/-- `open_merge_cursors`, which `merge` and `UniqueMerge::new` repeat. -/
def openMergeCursors (runs : List RunMeta) : Run ω Fault MergeState := do
  let cursors ← runs.mapM RunCursor.open
  (List.range cursors.length).foldlM MergeState.refill { cursors, heap := [] }

/-- The counters of a scan over sorted records. -/
structure Scan where
  distinctCount : ℕ
  duplicateCount : ℕ
  duplicateSamples : List (Record × Record)
  previous : Option Record

def Scan.start : Scan :=
  { distinctCount := 0, duplicateCount := 0, duplicateSamples := [], previous := none }

/-- The body of the scans: count the record as the first of its value or as a duplicate. -/
def Scan.observe (maxSamples : ℕ) (scan : Scan) (record : Record) : Scan :=
  match scan.previous with
  | some first =>
      if first.value = record.value then
        { scan with
          duplicateCount := scan.duplicateCount + 1
          duplicateSamples :=
            if scan.duplicateSamples.length < maxSamples
              then scan.duplicateSamples ++ [(first, record)] else scan.duplicateSamples }
      else
        { scan with distinctCount := scan.distinctCount + 1, previous := some record }
  | none => { scan with distinctCount := scan.distinctCount + 1, previous := some record }

/-- `cancellation.check()` on every 4096th iteration. -/
def checkEvery (iteration : ℕ) : Run ω Fault Unit :=
  if iteration % 0x1000 = 0 then checkCancelled else pure ()

/-- One turn of the loop of `merge`: pop, count, refill. -/
def mergeTurn (maxSamples : ℕ) :
    MergeState × Scan × ℕ → Run ω Fault (Turn (MergeState × Scan × ℕ) Scan)
  | (state, scan, iterations) =>
      match state.heap with
      | [] => pure (.leave scan)
      | (record, run) :: heap => do
          checkEvery iterations
          let state ← { state with heap }.refill run
          pure (.again (state, scan.observe maxSamples record, iterations + 1))

/-- The scan `merge` makes over all records of the runs. -/
def mergeScan (runs : List RunMeta) (account : ResourceAccount) : Run ω Fault Scan := do
  runs.forM verifyPayload
  reserve account .memory (← mergeMemoryBytes runs)
  let state ← openMergeCursors runs
  loop .diverged (mergeTurn account.limits.maxSamples) state.fuel (state, Scan.start, 0)

/-! ## Compaction -/

structure CompactionSpec where
  kind : ValueKind
  records : ℕ
  payloadBytes : ℕ
  maxRecordBytes : ℕ
  totalBytes : ℕ

/-- `compaction_spec`. -/
def compactionSpec (runs : List RunMeta) : Run ω Fault CompactionSpec := do
  let first ← someOr runs.head? (corrupt "Exact run compaction requires at least one run")
  failIf (∃ run ∈ runs, run.kind ≠ first.kind)
    (corrupt "Exact run compaction mixed incompatible value kinds")
  runs.forM verifyPayload
  let records ← runs.foldlM (fun total run =>
    checkedAdd "Exact compacted run record count overflowed u64" total run.records) 0
  let payloadBytes ← runs.foldlM (fun total run =>
    checkedAdd "Exact compacted run payload overflowed u64" total run.payloadBytes) 0
  let totalBytes ← checkedAdd "Exact compacted run size overflowed u64" headerBytes payloadBytes
  pure { kind := first.kind, records, payloadBytes, totalBytes
         maxRecordBytes := (runs.map RunMeta.maxRecordBytes).foldl max 0 }

/-- One turn of `merge_compacted_payload`; the payload written so far is the second component. -/
def compactTurn :
    MergeState × List UInt8 × ℕ → Run ω Fault (Turn (MergeState × List UInt8 × ℕ) (List UInt8 × ℕ))
  | (state, payload, writtenRecords) =>
      match state.heap with
      | [] => pure (.leave (payload, writtenRecords))
      | (record, run) :: heap => do
          checkEvery writtenRecords
          failIf (2 ^ 32 ≤ record.value.byteLength) (corrupt "Exact compacted byte value exceeds u32")
          ioOperation .writeFile
          let _ ← checkedAdd "Exact compacted run payload overflowed u64"
            payload.length record.encode.length
          let state ← { state with heap }.refill run
          pure (.again (state, payload ++ record.encode, writtenRecords + 1))

/-- `patch_compaction_checksum`: overwrite the checksum of the header. -/
def patchChecksum (file : List UInt8) (checksum : Digest) : List UInt8 :=
  file.take checksumOffset ++ checksum.val ++ file.drop (checksumOffset + 32)

/-- `compact`: merge the runs into one. -/
def compact (runs : List RunMeta) (account : ResourceAccount) : Run ω Fault RunMeta := do
  let spec ← compactionSpec runs
  reserve account .temp spec.totalBytes
  reserve account .memory (← mergeMemoryBytes runs)
  ioOperation .createFile
  ioOperation .writeFile
  let head := header spec.kind spec.records spec.payloadBytes (List.replicate 32 0)
  let state ← openMergeCursors runs
  let (payload, writtenRecords) ← loop .diverged compactTurn state.fuel (state, [], 0)
  failIf (writtenRecords ≠ spec.records ∨ payload.length ≠ spec.payloadBytes) (corrupt "Exact compacted run length changed during merge")
  let checksum := Crates.blake3 payload
  ioOperation .syncFile
  pure { file := patchChecksum (head ++ payload) checksum, kind := spec.kind
         records := spec.records, payloadBytes := spec.payloadBytes
         maxRecordBytes := spec.maxRecordBytes, checksum }

/-! ## The anti-join -/

/-- `UniqueMerge::new`. -/
def UniqueMerge.new (runs : List RunMeta) (account : ResourceAccount) : Run ω Fault MergeState := do
  runs.forM verifyPayload
  reserve account .memory (← mergeMemoryBytes runs)
  openMergeCursors runs

/-- Drop the entries that repeat `value`. -/
def skipTurn (value : OwnedValue) (state : MergeState) :
    Run ω Fault (Turn MergeState MergeState) :=
  match state.heap with
  | [] => pure (.leave state)
  | (record, run) :: heap =>
      if record.value ≠ value then pure (.leave state)
      else .again <$> { state with heap }.refill run

/-- `UniqueMerge::next_unique_with_row`: the next value with the lowest row that carried it. -/
def MergeState.nextUnique (state : MergeState) : Run ω Fault (Option Record × MergeState) := do
  checkCancelled
  match state.heap with
  | [] => pure (none, state)
  | (first, run) :: heap =>
      let state ← { state with heap }.refill run
      let state ← loop .diverged (skipTurn first.value) state.fuel state
      pure (some first, state)

structure AntiJoinSummary where
  leftDistinct : ℕ
  rightDistinct : ℕ
  missing : ℕ
  /-- The row of each sampled key. -/
  samples : List UInt64
  spillBytes : ℕ
  runs : ℕ
  deriving DecidableEq

/-- One side of the anti-join: the merge, the value in hand and how many were taken. -/
structure Side where
  merge : MergeState
  value : Option Record
  distinct : ℕ

/-- `next_counted` and `next_counted_with_row`. -/
def Side.advance (side : Side) : Run ω Fault Side := do
  let (value, merge) ← side.merge.nextUnique
  pure { merge, value, distinct := if value.isSome then side.distinct + 1 else side.distinct }

structure AntiJoin where
  left : Side
  right : Side
  missing : ℕ
  samples : List UInt64

/-- One turn of the main loop of `anti_join`. -/
def antiJoinTurn (maxSamples : ℕ) (join : AntiJoin) : Run ω Fault (Turn AntiJoin AntiJoin) := do
  match join.left.value with
  | none => pure (.leave join)
  | some left =>
      checkCancelled
      match join.right.value.map fun right => compare left.value right.value with
      | none | some .lt =>
          let side ← join.left.advance
          pure (.again { join with
            left := side
            missing := join.missing + 1
            samples := if join.samples.length < maxSamples
              then join.samples ++ [left.row] else join.samples })
      | some .gt => do
          let side ← join.right.advance
          pure (.again { join with right := side })
      | some .eq => do
          let left ← join.left.advance
          let right ← join.right.advance
          pure (.again { join with left, right })

/-- The loop that counts the remaining right values. -/
def drainTurn (side : Side) : Run ω Fault (Turn Side Side) := do
  match side.value with
  | none => pure (.leave side)
  | some _ =>
      checkCancelled
      .again <$> side.advance

/-- `anti_join`. -/
def antiJoin (left right : List RunMeta) (leftAccount rightAccount : ResourceAccount)
    (maxSamples : ℕ) : Run ω Fault AntiJoinSummary := do
  let left ← UniqueMerge.new left leftAccount
  let right ← UniqueMerge.new right rightAccount
  reserve leftAccount .memory (← checkedMul "Reference sample size overflowed" maxSamples 8)
  let fuel := left.fuel + right.fuel + 1
  let left ← Side.advance { merge := left, value := none, distinct := 0 }
  let right ← Side.advance { merge := right, value := none, distinct := 0 }
  let join ← loop .diverged (antiJoinTurn maxSamples) fuel
    { left, right, missing := 0, samples := [] }
  let right ← loop .diverged drainTurn fuel join.right
  pure { leftDistinct := join.left.distinct, rightDistinct := right.distinct
         missing := join.missing, samples := join.samples, spillBytes := 0, runs := 0 }

end ProofFrame.Distinct
