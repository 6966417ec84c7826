import ProofFrame.Diff.PartitionSpec
import ProofFrame.Diff.Sink
import ProofFrame.Lib.Sorted.Bounded

/-!
# Accumulating a diff

Every difference found is an event: it is counted, written to the sink if there
is one, and its key is a candidate for the bounded samples of the report.
`Accumulator.Emitted` relates the accumulator to the sequence of all events so
far, and the step lemmas add one.
-/

namespace ProofFrame.Diff

open Lib Lib.Run Lib.Sorted

structure ChangedRow where
  key : String
  columns : List String
  deriving DecidableEq, Repr

structure DiffMetrics where
  partitions : ℕ
  tempBytes : ℕ
  peakMemoryBytes : ℕ
  peakTempBytes : ℕ
  outputRecords : ℕ
  deriving DecidableEq, Repr

structure DiffReport where
  keys : List String
  beforeRows : ℕ
  afterRows : ℕ
  addedCount : ℕ
  removedCount : ℕ
  changedCount : ℕ
  addedKeys : List String
  removedKeys : List String
  changed : List ChangedRow
  truncated : Bool
  metrics : DiffMetrics
  deriving DecidableEq, Repr

/-! ## Bounded samples -/

section Samples

variable {α : Type} (key : α → String)

/-- `should_retain_string` and `should_retain_changed`. -/
def shouldRetain (samples : List α) (candidate : String) (limit : ℕ) : Bool :=
  limit ≠ 0 && (decide (samples.length < limit) ||
    match samples.getLast? with
    | some last => decide (candidate < key last)
    | none => false)

/-- `retain_string` and `retain_changed`.  Where several samples match, `binary_search` may return
any of them; here it is the first. -/
def retain (samples : List α) (value : α) (limit : ℕ) : List α :=
  let position := (samples.takeWhile fun sample => key sample < key value).length
  let samples := samples.insertIdx position value
  if samples.length > limit then samples.dropLast else samples

variable {key} {limit : ℕ} {items samples : List α} {value : α}

end Samples

/-! ## The accumulator -/

structure Accumulator where
  keys : List String
  beforeRows : ℕ
  afterRows : ℕ
  sampleLimit : ℕ
  addedCount : ℕ
  removedCount : ℕ
  changedCount : ℕ
  added : List String
  removed : List String
  changed : List ChangedRow
  sink : Option AtomicSink
  outputLimit : ℕ
  outputRecords : ℕ
  sampleAccount : ResourceAccount

/-- `estimated_string_sample_bytes`: a text, a reservation, and the characters. -/
def estimatedStringSampleBytes (key : String) : ℕ := 24 + 32 + key.utf8ByteSize

/-- `estimated_changed_sample_bytes`. -/
def estimatedChangedSampleBytes (row : ChangedRow) : ℕ :=
  48 + 32 + row.key.utf8ByteSize + (row.columns.map fun column => 24 + column.utf8ByteSize).sum

namespace Accumulator

variable {ω : Type} [Host ω]

/-- `Accumulator::new`. -/
def new (keys : List String) (beforeRows afterRows sampleLimit : ℕ) (output : Option DiffOutput)
    (account : ResourceAccount) : Run ω Fault Accumulator := do
  let sink ← match output with
    | some output => some <$> AtomicSink.new output account
    | none => pure none
  pure
    { keys, beforeRows, afterRows, sampleLimit, addedCount := 0, removedCount := 0
      changedCount := 0, added := [], removed := [], changed := [], sink
      outputLimit := account.limits.maxOutputRecords, outputRecords := 0, sampleAccount := account }

/-- `needs_changed_detail`. -/
def needsChangedDetail (accumulator : Accumulator) : Bool :=
  accumulator.sink.isSome || accumulator.sampleLimit ≠ 0

/-- Charge a sample to the account and retain it, if it should be retained. -/
def sample {α : Type} (key : α → String) (samples : List α) (value : α) (limit : ℕ)
    (account : ResourceAccount) (bytes : ℕ) : Run ω Fault (List α) :=
  if shouldRetain key samples (key value) limit then do
    reserve account .memory bytes
    pure (retain key samples value limit)
  else pure samples

variable [DiffCrates]

/-- `emit`. -/
def emit (accumulator : Accumulator) (event : DiffEvent) (temp : Ledger) :
    Run ω Fault (Accumulator × Ledger) :=
  match accumulator.sink with
  | none => pure (accumulator, temp)
  | some sink => do
      failIf (accumulator.outputRecords ≥ accumulator.outputLimit)
        (.error (.resourceLimit "diff output records" 1 accumulator.outputRecords
          accumulator.outputLimit))
      let (sink, temp) ← sink.write event temp.reserveAdditional
      pure ({ accumulator with
        sink := some sink
        outputRecords := accumulator.outputRecords + 1 }, temp)

/-- `Accumulator::added`. -/
def addAdded (accumulator : Accumulator) (key : String) (temp : Ledger) :
    Run ω Fault (Accumulator × Ledger) := do
  let accumulator := { accumulator with addedCount := accumulator.addedCount + 1 }
  let (accumulator, temp) ← accumulator.emit { kind := .added, key, columns := none } temp
  let added ← sample id accumulator.added key accumulator.sampleLimit accumulator.sampleAccount
    (estimatedStringSampleBytes key)
  pure ({ accumulator with added }, temp)

/-- `Accumulator::removed`. -/
def addRemoved (accumulator : Accumulator) (key : String) (temp : Ledger) :
    Run ω Fault (Accumulator × Ledger) := do
  let accumulator := { accumulator with removedCount := accumulator.removedCount + 1 }
  let (accumulator, temp) ← accumulator.emit { kind := .removed, key, columns := none } temp
  let removed ← sample id accumulator.removed key accumulator.sampleLimit
    accumulator.sampleAccount (estimatedStringSampleBytes key)
  pure ({ accumulator with removed }, temp)

/-- `Accumulator::changed`. -/
def addChanged (accumulator : Accumulator) (key : String) (columns : List String) (temp : Ledger) :
    Run ω Fault (Accumulator × Ledger) := do
  let accumulator := { accumulator with changedCount := accumulator.changedCount + 1 }
  let (accumulator, temp) ←
    accumulator.emit { kind := .changed, key, columns := some columns } temp
  let row : ChangedRow := { key, columns }
  let changed ← sample ChangedRow.key accumulator.changed row accumulator.sampleLimit
    accumulator.sampleAccount (estimatedChangedSampleBytes row)
  pure ({ accumulator with changed }, temp)

omit [DiffCrates] in
/-- The report `finish` returns. -/
def report (accumulator : Accumulator) (metrics : DiffMetrics) : DiffReport :=
  let retained := accumulator.added.length + accumulator.removed.length + accumulator.changed.length
  let total := accumulator.addedCount + accumulator.removedCount + accumulator.changedCount
  { keys := accumulator.keys
    beforeRows := accumulator.beforeRows
    afterRows := accumulator.afterRows
    addedCount := accumulator.addedCount
    removedCount := accumulator.removedCount
    changedCount := accumulator.changedCount
    addedKeys := accumulator.added
    removedKeys := accumulator.removed
    changed := accumulator.changed
    truncated := total > retained
    metrics }

/-- `Accumulator::finish`. -/
def finish (accumulator : Accumulator) (metrics : DiffMetrics) (world : ω) (disk : Disk) :
    Except Fault (DiffReport × ω) × Disk :=
  match accumulator.sink with
  | none => (.ok (accumulator.report metrics, world), disk)
  | some sink =>
      match sink.finish world disk with
      | (.error fault, disk) => (.error fault, disk)
      | (.ok ((), world), disk) => (.ok (accumulator.report metrics, world), disk)

end Accumulator

/-! ## The events an accumulator has taken -/

/-- The keys of the events of a kind. -/
def keysOf (kind : EventKind) (events : List DiffEvent) : List String :=
  (events.filter (·.kind = kind)).map DiffEvent.key

/-- The rows of the events that report a change. -/
def changedRows (events : List DiffEvent) : List ChangedRow :=
  (events.filter (·.kind = .changed)).map fun event =>
    { key := event.key, columns := event.columns.getD [] }

/-- What an accumulator is set up with. -/
structure DiffSetup where
  keys : List String
  beforeRows : ℕ
  afterRows : ℕ
  sampleLimit : ℕ
  output : Option DiffOutput

variable {ω : Type} [Host ω] [DiffCrates] {setup : DiffSetup} {events : List DiffEvent}

/-- The sink, if there is one, has taken the events. -/
def SinkHolds (output : Option DiffOutput) (sink : Option AtomicSink) (events : List DiffEvent) :
    Prop :=
  match output, sink with
  | none, none => True
  | some output, some sink => sink.Holds output events
  | _, _ => False

/-- The accumulator has taken the events. -/
structure Accumulator.Emitted (accumulator : Accumulator) (setup : DiffSetup)
    (events : List DiffEvent) : Prop where
  keys_eq : accumulator.keys = setup.keys
  before_eq : accumulator.beforeRows = setup.beforeRows
  after_eq : accumulator.afterRows = setup.afterRows
  limit_eq : accumulator.sampleLimit = setup.sampleLimit
  added_count : accumulator.addedCount = (keysOf .added events).length
  removed_count : accumulator.removedCount = (keysOf .removed events).length
  changed_count : accumulator.changedCount = (changedRows events).length
  added_kept : Kept id setup.sampleLimit (keysOf .added events) accumulator.added
  removed_kept : Kept id setup.sampleLimit (keysOf .removed events) accumulator.removed
  changed_kept : Kept ChangedRow.key setup.sampleLimit (changedRows events) accumulator.changed
  sink_holds : SinkHolds setup.output accumulator.sink events
  records_eq : accumulator.outputRecords = if setup.output.isSome then events.length else 0

namespace Accumulator

variable {accumulator : Accumulator}

theorem sat_new (setup : DiffSetup) {account : ResourceAccount} :
    Sat (new setup.keys setup.beforeRows setup.afterRows setup.sampleLimit setup.output account :
      Run ω Fault _) (Emitted · setup []) Environmental := by
  unfold new
  cases houtput : setup.output with
  | none =>
      apply (sat_pure (Q := (· = none)) rfl).bind
      rintro _ rfl
      refine sat_pure ⟨rfl, rfl, rfl, rfl, rfl, rfl, rfl, .nil .., .nil .., .nil .., ?_, ?_⟩
      · rw [houtput]
        trivial
      · rw [houtput]
        rfl
  | some output =>
      apply (AtomicSink.sat_new.map (f := some) (R := fun sink => SinkHolds (some output) sink [])
        fun _ h => h).bind
      intro sink hsink
      refine sat_pure ⟨rfl, rfl, rfl, rfl, rfl, rfl, rfl, .nil .., .nil .., .nil .., ?_, ?_⟩
      · rw [houtput]
        exact hsink
      · rw [houtput]
        rfl

end Accumulator

end ProofFrame.Diff
