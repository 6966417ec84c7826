import ProofFrame.Execution.Engine
import ProofFrame.Profile.Fingerprint

/-!
# Profiles

A profile describes a dataset: its rows, its fingerprint, and for every column
the nulls, the range and, where asked for, the number of distinct values.  A
column with more distinct values than the budget can keep loses its count and
nothing else.
-/

namespace ProofFrame

open Lib Lib.Run Lib.Ieee754 Distinct

/-! ## Going on after a refusal -/

/-- The surroundings of a run that goes on after an error it caught: the world the error left. -/
class Resuming (ω : Type) extends Host ω where
  resume : ω → ω

instance : Resuming Granting where
  resume := id

/-- The value, or none where a resource limit was met; other faults are passed on. -/
def unlessLimited {ω α : Type} [Resuming ω] (m : Run ω Fault α) : Run ω Fault (Option α) :=
  fun world => match m world with
    | .ok (a, world') => .ok (some a, world')
    | .error (.error e) =>
        if e.code = .resourceLimit then .ok (none, Resuming.resume world) else .error (.error e)
    | .error fault => .error fault

/-! ## Columns -/

inductive DistinctMode where
  | none | exact
  deriving DecidableEq, Repr

/-- What is known of a column so far; the distinct values are held by an `X`. -/
structure ColumnState (X : Type) where
  nullCount : ℕ
  nonNullCount : ℕ
  distinct : Option X
  distinctLimited : Bool
  min : Option F64
  max : Option F64

/-- `f64::min`.  Of two zeros it may give either; here it gives the new one. -/
def minNumber (current number : F64) : F64 :=
  if current.isNaN then number
  else if number.isNaN then current
  else if current.lt number then current else number

/-- `f64::max`.  Of two zeros it may give either; here it gives the new one. -/
def maxNumber (current number : F64) : F64 :=
  if current.isNaN then number
  else if number.isNaN then current
  else if current.gt number then current else number

/-- `numeric_value`. -/
def numericValue : DataType → Value → Option F64
  | .float64, .scalar (.float64 value) => some value
  | .float32, .scalar (.float32 value) => some value.convert
  | .int8, .scalar (.signed value) | .int16, .scalar (.signed value)
  | .int32, .scalar (.signed value) | .int64, .scalar (.signed value)
  | .timestamp _ _, .scalar (.signed value) => some (Ieee.ofInt value)
  | .uint8, .scalar (.unsigned value) | .uint16, .scalar (.unsigned value)
  | .uint32, .scalar (.unsigned value) | .uint64, .scalar (.unsigned value) =>
      some (Ieee.ofInt value)
  | _, _ => none

namespace ColumnState

variable {X : Type}

def initial (distinct : Option X) : ColumnState X :=
  { nullCount := 0, nonNullCount := 0, distinct, distinctLimited := false, min := none, max := none }

def observeNull (state : ColumnState X) : ColumnState X :=
  { state with nullCount := state.nullCount + 1 }

/-- Everything a non-null cell changes but the distinct values. -/
def observeValue (state : ColumnState X) (dataType : DataType) (value : Value) : ColumnState X :=
  match numericValue dataType value with
  | none => { state with nonNullCount := state.nonNullCount + 1 }
  | some number =>
      { state with
        nonNullCount := state.nonNullCount + 1
        min := some (state.min.elim number (minNumber · number))
        max := some (state.max.elim number (maxNumber · number)) }

end ColumnState

structure ColumnProfile where
  name : String
  dataType : String
  nullCount : ℕ
  nonNullCount : ℕ
  distinctCount : Option ℕ
  distinctLimited : Bool
  min : Option F64
  max : Option F64
  deriving DecidableEq

structure Profile where
  rows : ℕ
  columns : List ColumnProfile
  fingerprint : String
  deriving DecidableEq

/-- The profile of a column, given its distinct count. -/
def ColumnState.profile [Crates] {X : Type} (state : ColumnState X) (field : Field)
    (distinctCount : Option ℕ) : ColumnProfile :=
  { name := field.name
    dataType := Crates.displayType field.dataType
    nullCount := state.nullCount
    nonNullCount := state.nonNullCount
    distinctCount
    distinctLimited := state.distinctLimited
    min := state.min
    max := state.max }

/-! ## Inspection -/

/-- The cells of a batch of the schema in row order, and then its rows are counted. -/
def traverseBatch {ω σ : Type} (schema : Schema) (changed : Fault)
    (visit : ℕ → σ → ArrowArray × ℕ → Run ω Fault σ) (count : σ → ℕ → σ) (state : σ)
    (item : Except String RecordBatch) : Run ω Fault σ := do
  let batch ← lift (arrowItem item)
  failIf (batch.schema ≠ schema) changed
  let state ← (List.range batch.rows).foldlM (fun state row =>
    batch.columns.zipIdx.foldlM (visit row) state) state
  pure (count state batch.rows)

/-- What the traversal has seen: what the hasher was fed, the columns and the rows. -/
structure Inspection (X : Type) where
  hasher : List UInt8
  states : List (ColumnState X)
  rows : ℕ

def profileSchemaChanged : Fault :=
  .error (.schemaMismatch "record batch schema changed during profiling")

section Inspect

variable {ω : Type} [Resuming ω] [Crates]

/-- `ColumnState::new`. -/
def ColumnState.new (mode : DistinctMode) (account : ResourceAccount) (directory : Option String)
    (rowCountHint : Option ℕ) (memoryShare : ℕ) : Run ω Fault (ColumnState ExactState) :=
  match mode with
  | .none => pure (.initial none)
  | .exact => do
      let distinct ← ExactState.new .bytes (account.child memoryShare account.limits.maxTempBytes)
        directory rowCountHint
      pure (.initial (some distinct))

/-- One more distinct value.  A column that meets a resource limit stops counting. -/
def ColumnState.insert (state : ColumnState ExactState) (valueKey : List UInt8) (globalRow : ℕ) :
    Run ω Fault (ColumnState ExactState) :=
  match state.distinct with
  | none => pure state
  | some distinct => do
      match ← unlessLimited (distinct.insert (.bytes valueKey) (UInt64.ofNat globalRow)) with
      | some distinct => pure { state with distinct := some distinct }
      | none => pure { state with distinct := none, distinctLimited := true }

/-- `inspect_cell`, without a contract. -/
def inspectCell (row : ℕ) (inspection : Inspection ExactState) (entry : ArrowArray × ℕ) :
    Run ω Fault (Inspection ExactState) := do
  let hasher ← lift (hashCell row inspection.hasher entry)
  let state ← someOr inspection.states[entry.2]? outOfBounds
  let cell ← lift (entry.1.cell row)
  match cell with
  | none => pure { inspection with
      hasher, states := inspection.states.set entry.2 state.observeNull }
  | some value => do
      let valueKey ← lift (canonicalValueBytes entry.1.dataType (some value))
      let state ← state.insert valueKey (inspection.rows + row)
      pure { inspection with
        hasher
        states := inspection.states.set entry.2 (state.observeValue entry.1.dataType value) }

/-- `BatchInspection::inspect`, and the count of the rows. -/
def inspectBatch (schema : Schema) : Inspection ExactState → Except String RecordBatch →
    Run ω Fault (Inspection ExactState) :=
  traverseBatch schema profileSchemaChanged inspectCell fun inspection rows =>
    { inspection with rows := inspection.rows + rows }

/-- The states of the columns before the first batch. -/
def newColumnStates (schema : Schema) (mode : DistinctMode) (resources : ResourceLimits)
    (rowCountHint : Option ℕ) (spill : SpillPolicy) : Run ω Fault (List (ColumnState ExactState)) := do
  let directory ← createDirectoryIf (mode = .exact && spill = .auto)
  schema.fields.mapM fun _ => ColumnState.new mode (.root resources) directory rowCountHint
    resources.maxMemoryBytes

/-- `finish_column_profiles`, for one column. -/
def finishColumnProfile (entry : Field × ColumnState ExactState) : Run ω Fault ColumnProfile :=
  match entry.2.distinct with
  | none => pure (entry.2.profile entry.1 none)
  | some distinct => do
      let summary ← distinct.finish
      pure (entry.2.profile entry.1 (some summary.distinctCount))

/-- What `inspect_batches` does after the last batch. -/
def finishProfile (schema : Schema) (inspection : Inspection ExactState) : Run ω Fault Profile := do
  let columns ← (schema.fields.zip inspection.states).mapM finishColumnProfile
  pure { rows := inspection.rows, columns, fingerprint := v1Text inspection.hasher }

/-- What `inspect_batches` does before the first batch. -/
def startInspection (schema : Schema) (mode : DistinctMode) (resources : ResourceLimits)
    (rowCountHint : Option ℕ) (spill : SpillPolicy) : Run ω Fault (Inspection ExactState) := do
  let states ← newColumnStates schema mode resources rowCountHint spill
  pure { hasher := profileHasher schema, states, rows := 0 }

/-- `inspect_batches`, without a contract. -/
def inspectBatches (reader : BatchReader) (mode : DistinctMode) (resources : ResourceLimits)
    (rowCountHint : Option ℕ) (spill : SpillPolicy) : Run ω Fault Profile := do
  let inspection ← startInspection reader.schema mode resources rowCountHint spill
  let inspection ← reader.items.foldlM (inspectBatch reader.schema) inspection
  finishProfile reader.schema inspection

def profileReaderWithResourcesAndHint (reader : BatchReader) (mode : DistinctMode)
    (resources : ResourceLimits) (rowCountHint : Option ℕ) : Run ω Fault Profile :=
  inspectBatches reader mode resources rowCountHint .auto

def profileReaderInMemory (reader : BatchReader) (mode : DistinctMode)
    (resources : ResourceLimits) : Run ω Fault Profile :=
  inspectBatches reader mode resources none .never

end Inspect

end ProofFrame
