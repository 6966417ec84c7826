import ProofFrame.Distinct.Run

/-!
# Exact state

Bounded exact distinct and uniqueness state.  Values are buffered in a segment;
a full segment is enlarged when there is no directory to spill into, and is
otherwise sorted into a run, and more than 32 runs are compacted into one.
`finish` scans either the segment alone or the merge of all runs.
-/

namespace ProofFrame.Distinct

open Lib Lib.Run

def defaultFixedRecordsPerSegment : ℕ := 65536

def maxFixedRecordsPerSegment : ℕ := 2 ^ 25

def defaultByteRecordsPerSegment : ℕ := 16384

def maxByteRecordsPerSegment : ℕ := 2 ^ 24

def assumedBytesPerValue : ℕ := 32

def maxMergeFanIn : ℕ := 32

/-- `u32::MAX`. -/
def u32Max : ℕ := 2 ^ 32 - 1

def clamp (lo hi value : ℕ) : ℕ := max lo (min hi value)

/-- Ascending (value, row) order. -/
def sortRecords (records : List Record) : List Record := records.insertionSort (· ≤ ·)

variable {ω : Type} [Host ω]

/-! ## Fixed-width segments -/

/-- A value stored in eight bytes. -/
class FixedValue (α : Type) where
  kind : ValueKind
  intoOwned : α → OwnedValue
  kind_intoOwned : ∀ value, (intoOwned value).kind = kind
  kind_ne_bytes : kind ≠ .bytes

/-- `F64Bits`. -/
structure F64Bits where
  bits : UInt64

instance : FixedValue Int64 := ⟨.i64, .i64, fun _ => rfl, by decide⟩

instance : FixedValue UInt64 := ⟨.u64, .u64, fun _ => rfl, by decide⟩

instance : FixedValue F64Bits := ⟨.f64, fun value => .f64 value.bits, fun _ => rfl, by decide⟩

structure FixedRecord (α : Type) where
  value : α
  row : UInt64

/-- `size_of::<FixedRecord<T>>()`. -/
def sizeOfFixedRecord : ℕ := 16

structure FixedSegment (α : Type) where
  records : List (FixedRecord α)
  capacity : ℕ

structure FixedStore (α : Type) where
  segment : Option (FixedSegment α)
  desiredCapacity : ℕ

def FixedStore.new (α : Type) (hinted : ℕ) : FixedStore α :=
  { segment := none, desiredCapacity := clamp 1 maxFixedRecordsPerSegment hinted }

section Fixed

variable {α : Type} [FixedValue α]

def FixedRecord.toRecord (record : FixedRecord α) : Record :=
  { value := FixedValue.intoOwned record.value, row := record.row }

/-- The buffered records. -/
def FixedStore.contents (store : FixedStore α) : List Record :=
  match store.segment with
  | none => []
  | some segment => segment.records.map FixedRecord.toRecord

/-- One attempt of `allocate_fixed_segment`: a refused capacity is halved. -/
def allocateFixedTurn (account : ResourceAccount) (capacity : ℕ) :
    Run ω Fault (Turn ℕ (FixedSegment α)) := do
  let bytes ← checkedMul "Exact segment size overflowed" capacity sizeOfFixedRecord
  match ← tryReserve account .memory bytes with
  | .ok () => pure (.leave { records := [], capacity })
  | .error e =>
      if capacity > 1 ∧ e.code = .resourceLimit then pure (.again (max (capacity / 2) 1))
      else throw (.error e)

def allocateFixedSegment (desiredCapacity : ℕ) (account : ResourceAccount) :
    Run ω Fault (FixedSegment α) :=
  loop .diverged (allocateFixedTurn account) (desiredCapacity + 1) desiredCapacity

/-- The segment, allocated if there is none yet. -/
def FixedStore.openSegment (store : FixedStore α) (account : ResourceAccount) :
    Run ω Fault (FixedSegment α) :=
  match store.segment with
  | some segment => pure segment
  | none => allocateFixedSegment store.desiredCapacity account

def insertFixed (store : FixedStore α) (value : α) (row : UInt64) (account : ResourceAccount) :
    Run ω Fault (FixedStore α) := do
  let segment ← store.openSegment account
  pure { store with segment := some { segment with records := segment.records ++ [{ value, row }] } }

def growFixed (store : FixedStore α) (account : ResourceAccount) :
    Run ω Fault (FixedStore α) := do
  match store.segment with
  | none => pure store
  | some segment =>
      let extra := max segment.capacity 1
      let bytes ← checkedMul "Exact segment size overflowed" extra sizeOfFixedRecord
      reserve account .memory bytes
      pure { store with segment := some { segment with capacity := segment.capacity + extra } }

def fixedStoreIsFull (store : FixedStore α) : Bool :=
  match store.segment with
  | none => false
  | some segment => segment.records.length = segment.capacity

variable [Crates]

/-- `write_fixed`. -/
def writeFixed (kind : ValueKind) (records : List Record) (account : ResourceAccount) :
    Run ω Fault RunMeta := do
  let payloadBytes ← checkedMul "Exact run size overflowed u64" records.length 16
  let payload := encodeAll records
  writeRun { kind, records := records.length, payloadBytes
             checksum := Crates.blake3 payload, maxRecordBytes := 8 } account payload

/-- `spill_fixed`: the run, unless the segment is empty. -/
def spillFixed (store : FixedStore α) (account : ResourceAccount) :
    Run ω Fault (FixedStore α × Option RunMeta) := do
  let records := store.contents
  if records.isEmpty then
    pure ({ store with segment := none }, none)
  else
    let run ← writeFixed (FixedValue.kind α) (sortRecords records) account
    pure ({ store with segment := none }, some run)

end Fixed

/-! ## Byte segments -/

/-- A slice of the arena and the row it came from. -/
structure ByteIndex where
  offset : ℕ
  length : ℕ
  row : UInt64

/-- `size_of::<ByteIndex>()`. -/
def sizeOfByteIndex : ℕ := 16

def ByteIndex.value (index : ByteIndex) (arena : List UInt8) : List UInt8 :=
  (arena.drop index.offset).take index.length

def ByteIndex.toRecord (arena : List UInt8) (index : ByteIndex) : Record :=
  { value := .bytes (index.value arena), row := index.row }

structure ByteSegment where
  arena : List UInt8
  records : List ByteIndex
  recordCapacity : ℕ
  byteCapacity : ℕ

structure ByteStore where
  segment : Option ByteSegment
  desiredRecords : ℕ
  desired_pos : 1 ≤ desiredRecords

def ByteStore.new (hinted : ℕ) : ByteStore :=
  { segment := none, desiredRecords := clamp 1 maxByteRecordsPerSegment hinted
    desired_pos := le_max_left _ _ }

/-- The buffered records. -/
def ByteStore.contents (store : ByteStore) : List Record :=
  match store.segment with
  | none => []
  | some segment => segment.records.map (ByteIndex.toRecord segment.arena)

/-- One attempt of `allocate_byte_segment` with a record and a byte capacity. -/
def allocateByteTurn (account : ResourceAccount) (minimumBytes : ℕ) :
    ℕ × ℕ → Run ω Fault (Turn (ℕ × ℕ) ByteSegment)
  | (recordCapacity, byteCapacity) => do
      let indexBytes ← checkedMul "Exact byte index overflowed" recordCapacity sizeOfByteIndex
      let total ← checkedAdd "Exact byte arena overflowed" indexBytes byteCapacity
      match ← tryReserve account .memory total with
      | .ok () => pure (.leave { arena := [], records := [], recordCapacity, byteCapacity })
      | .error e =>
          if e.code = .resourceLimit ∧ (recordCapacity > 1 ∨ byteCapacity > minimumBytes) then
            pure (.again (max (recordCapacity / 2) 1, max (byteCapacity / 2) minimumBytes))
          else throw (.error e)

def allocateByteSegment (desiredRecords minimumBytes : ℕ) (account : ResourceAccount) :
    Run ω Fault ByteSegment :=
  let byteCapacity := clamp minimumBytes u32Max (desiredRecords * assumedBytesPerValue)
  loop .diverged (allocateByteTurn account minimumBytes) (desiredRecords + byteCapacity + 1)
    (desiredRecords, byteCapacity)

/-- The segment, allocated for at least `minimumBytes` if there is none yet. -/
def ByteStore.openSegment (store : ByteStore) (minimumBytes : ℕ) (account : ResourceAccount) :
    Run ω Fault ByteSegment :=
  match store.segment with
  | some segment => pure segment
  | none => allocateByteSegment store.desiredRecords minimumBytes account

def insertBytes (store : ByteStore) (value : List UInt8) (row : UInt64)
    (account : ResourceAccount) : Run ω Fault ByteStore := do
  failIf (value.length > u32Max)
    (.error (.resourceLimit "single exact value" value.length 0 u32Max))
  let segment ← store.openSegment value.length account
  failIf (segment.arena.length > u32Max) (.panic "byte capacity fits u32")
  let index := { offset := segment.arena.length, length := value.length, row }
  pure { store with
    segment := some { segment with
      arena := segment.arena ++ value
      records := segment.records ++ [index] } }

def growBytes (store : ByteStore) (valueLength : ℕ) (account : ResourceAccount) :
    Run ω Fault ByteStore := do
  match store.segment with
  | none => pure store
  | some segment =>
      let extraRecords :=
        if segment.records.length = segment.recordCapacity then max segment.recordCapacity 1 else 0
      let free := segment.byteCapacity - segment.arena.length
      let extraBytes :=
        if valueLength > free then max (max segment.byteCapacity (valueLength - free)) 1 else 0
      let grown := segment.byteCapacity + extraBytes
      failIf (grown > u32Max)
        (.error (.resourceLimit "exact_state_arena" extraBytes segment.byteCapacity u32Max))
      let indexBytes ← checkedMul "Exact byte index overflowed" extraRecords sizeOfByteIndex
      let bytes ← checkedAdd "Exact byte arena overflowed" indexBytes extraBytes
      reserve account .memory bytes
      pure { store with
        segment := some { segment with
          recordCapacity := segment.recordCapacity + extraRecords
          byteCapacity := grown } }

def byteStoreIsFull (store : ByteStore) (value : List UInt8) : Bool :=
  match store.segment with
  | none => false
  | some segment =>
      segment.records.length = segment.recordCapacity ∨
        value.length > segment.byteCapacity - segment.arena.length

variable [Crates]

/-- `write_bytes`. -/
def writeBytes (records : List Record) (account : ResourceAccount) : Run ω Fault RunMeta := do
  let payloadBytes ← records.foldlM (fun total record => do
    let total ← checkedAdd "Exact byte run overflowed u64" total 12
    checkedAdd "Exact byte run overflowed u64" total record.value.byteLength) 0
  let payload := encodeAll records
  writeRun { kind := .bytes, records := records.length, payloadBytes
             checksum := Crates.blake3 payload
             maxRecordBytes := (records.map fun record => record.value.byteLength).foldl max 0 } account payload

/-- `spill_bytes`: the run, unless the segment is empty. -/
def spillBytes (store : ByteStore) (account : ResourceAccount) :
    Run ω Fault (ByteStore × Option RunMeta) := do
  let records := store.contents
  if records.isEmpty then
    pure ({ store with segment := none }, none)
  else
    let run ← writeBytes (sortRecords records) account
    pure ({ store with segment := none }, some run)

/-! ## The state -/

def kindMismatch : Fault := corrupt "Value kind does not match the exact-state plan"

inductive Storage where
  | i64 (store : FixedStore Int64)
  | u64 (store : FixedStore UInt64)
  | f64 (store : FixedStore F64Bits)
  | bytes (store : ByteStore)

namespace Storage

/-- The kind of value the storage holds. -/
def kind : Storage → ValueKind
  | .i64 _ => .i64
  | .u64 _ => .u64
  | .f64 _ => .f64
  | .bytes _ => .bytes

/-- The buffered records. -/
def contents : Storage → List Record
  | .i64 store => store.contents
  | .u64 store => store.contents
  | .f64 store => store.contents
  | .bytes store => store.contents

def spill (account : ResourceAccount) : Storage → Run ω Fault (Storage × Option RunMeta)
  | .i64 store => (fun (store, run) => (.i64 store, run)) <$> spillFixed store account
  | .u64 store => (fun (store, run) => (.u64 store, run)) <$> spillFixed store account
  | .f64 store => (fun (store, run) => (.f64 store, run)) <$> spillFixed store account
  | .bytes store => (fun (store, run) => (.bytes store, run)) <$> spillBytes store account

/-- Whether the value needs room the segment does not have. -/
def isFull : Storage → OwnedValue → Except Fault Bool
  | .i64 store, .i64 _ => .ok (fixedStoreIsFull store)
  | .u64 store, .u64 _ => .ok (fixedStoreIsFull store)
  | .f64 store, .f64 _ => .ok (fixedStoreIsFull store)
  | .bytes store, .bytes value => .ok (byteStoreIsFull store value)
  | _, _ => .error kindMismatch

/-- Enlarge the segment; only the byte store has a use for the length. -/
def grow (value : OwnedValue) (account : ResourceAccount) : Storage → Run ω Fault Storage
  | .i64 store => .i64 <$> growFixed store account
  | .u64 store => .u64 <$> growFixed store account
  | .f64 store => .f64 <$> growFixed store account
  | .bytes store => .bytes <$> growBytes store value.byteLength account

def insert (row : UInt64) (account : ResourceAccount) : Storage → OwnedValue → Run ω Fault Storage
  | .i64 store, .i64 value => .i64 <$> insertFixed store value row account
  | .u64 store, .u64 value => .u64 <$> insertFixed store value row account
  | .f64 store, .f64 bits => .f64 <$> insertFixed store ⟨bits⟩ row account
  | .bytes store, .bytes value => .bytes <$> insertBytes store value row account
  | _, _ => throw kindMismatch

end Storage

/-- `ExactState`. -/
structure ExactState where
  storage : Storage
  runs : List RunMeta
  account : ResourceAccount
  directory : Option String
  compactions : ℕ
  maxMergeFanIn : ℕ

/-- `size_of::<DuplicateSample>()`. -/
def sizeOfDuplicateSample : ℕ := 16

structure DuplicateSample where
  firstRow : UInt64
  duplicateRow : UInt64
  deriving DecidableEq

structure ExactMetrics where
  runs : ℕ
  spillBytes : ℕ
  compactions : ℕ
  maxMergeFanIn : ℕ
  peakMemoryBytes : ℕ
  peakTempBytes : ℕ
  deriving DecidableEq

structure ExactSummary where
  distinctCount : ℕ
  duplicateCount : ℕ
  duplicateSamples : List DuplicateSample
  metrics : ExactMetrics
  deriving DecidableEq

namespace ExactState

/-- `ExactState::new_with_cancellation`. -/
def new (kind : ValueKind) (account : ResourceAccount) (directory : Option String)
    (rowCountHint : Option ℕ) : Run ω Fault ExactState := do
  whenever directory.isSome (ioOperation .openDirectory)
  let hinted := if directory.isSome then rowCountHint else none
  let storage := match kind with
    | .i64 => Storage.i64 (.new _ (hinted.getD defaultFixedRecordsPerSegment))
    | .u64 => Storage.u64 (.new _ (hinted.getD defaultFixedRecordsPerSegment))
    | .f64 => Storage.f64 (.new _ (hinted.getD defaultFixedRecordsPerSegment))
    | .bytes => Storage.bytes (.new (hinted.getD defaultByteRecordsPerSegment))
  let sampleBytes ←
    checkedMul "Exact sample size overflowed" account.limits.maxSamples sizeOfDuplicateSample
  reserve account .memory sampleBytes
  pure { storage, runs := [], account, directory, compactions := 0, maxMergeFanIn := 0 }

/-- `spill_target`: an error where there is no directory. -/
def spillTarget (state : ExactState) (held : ℕ) : Run ω Fault Unit :=
  failIf (state.directory.isNone) (.error (.resourceLimit "exact_state_values_without_spill" 1 held
    state.account.limits.maxMemoryBytes))

/-- `spill_current`. -/
def spillCurrent (state : ExactState) : Run ω Fault ExactState := do
  state.spillTarget state.storage.contents.length
  let (storage, run) ← state.storage.spill state.account
  pure { state with storage, runs := state.runs ++ run.toList }

/-- One turn of `compact_runs_if_needed`. -/
def compactTurn (state : ExactState) : Run ω Fault (Turn ExactState ExactState) := do
  if state.runs.length ≤ Distinct.maxMergeFanIn then pure (.leave state)
  else
    checkCancelled
    let inputs := state.runs.take Distinct.maxMergeFanIn
    state.spillTarget 0
    let compacted ← compact inputs state.account
    pure (.again { state with
      runs := compacted :: state.runs.drop Distinct.maxMergeFanIn
      compactions := state.compactions + 1
      maxMergeFanIn := max state.maxMergeFanIn inputs.length })

def compactRunsIfNeeded (state : ExactState) : Run ω Fault ExactState :=
  loop .diverged compactTurn (state.runs.length + 1) state

/-- Room for the value: grow where there is nowhere to spill to, otherwise spill and compact. -/
def makeRoom (state : ExactState) (value : OwnedValue) : Run ω Fault ExactState :=
  if state.directory.isNone then do
    let storage ← state.storage.grow value state.account
    pure { state with storage }
  else do
    let state ← state.spillCurrent
    state.compactRunsIfNeeded

/-- `ExactState::insert`. -/
def insert (state : ExactState) (value : OwnedValue) (row : UInt64) : Run ω Fault ExactState := do
  let needsSpill ← lift (state.storage.isFull value)
  let state ← (if needsSpill then state.makeRoom value else pure state)
  let storage ← state.storage.insert row state.account value
  { state with storage }.compactRunsIfNeeded

/-- `ExactState::seal`. -/
def «seal» (state : ExactState) : Run ω Fault ExactState := do
  checkCancelled
  let state ← state.spillCurrent
  state.compactRunsIfNeeded

/-- `finish_fixed_in_memory` and `finish_bytes_in_memory`: the scan of the sorted segment. -/
def scanInMemory (state : ExactState) : Run ω Fault Scan :=
  (sortRecords state.storage.contents).zipIdx.foldlM (fun scan (record, index) => do
    checkEvery index
    pure (scan.observe state.account.limits.maxSamples record)) Scan.start

/-- The summary of a scan. -/
def summarize (state : ExactState) (scan : Scan) (metrics : ExactMetrics) : Run ω Fault ExactSummary := do
  let peakMemoryBytes ← peakUsed state.account .memory
  let peakTempBytes ← peakUsed state.account .temp
  pure { distinctCount := scan.distinctCount
         duplicateCount := scan.duplicateCount
         duplicateSamples := scan.duplicateSamples.map fun (first, duplicate) =>
           { firstRow := first.row, duplicateRow := duplicate.row }
         metrics := { metrics with peakMemoryBytes, peakTempBytes } }

/-- `ExactState::finish`. -/
def finish (state : ExactState) : Run ω Fault ExactSummary := do
  if state.runs.isEmpty then
    let scan ← state.scanInMemory
    state.summarize scan ⟨0, 0, 0, 0, 0, 0⟩
  else
    let state ← state.seal
    let scan ← mergeScan state.runs state.account
    state.summarize scan
      { runs := state.runs.length
        spillBytes := (state.runs.map RunMeta.totalBytes).sum
        compactions := state.compactions
        maxMergeFanIn := max state.maxMergeFanIn state.runs.length
        peakMemoryBytes := 0
        peakTempBytes := 0 }

end ExactState

/-- `SealedState`: the runs of a finished state, kept readable. -/
structure SealedState where
  runs : List RunMeta
  account : ResourceAccount

def SealedState.seal (state : ExactState) : Run ω Fault SealedState := do
  let state ← state.seal
  pure { runs := state.runs, account := state.account }

/-- `anti_join_exact_states`. -/
def antiJoinExactStates (left : ExactState) (right : SealedState) (maxSamples : ℕ) :
    Run ω Fault AntiJoinSummary := do
  let left ← left.seal
  let summary ← antiJoin left.runs right.runs left.account right.account maxSamples
  pure { summary with
    spillBytes := (left.runs.map RunMeta.totalBytes).sum
    runs := left.runs.length }

end ProofFrame.Distinct
