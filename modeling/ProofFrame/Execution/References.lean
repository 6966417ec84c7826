import Mathlib.Data.String.Basic
import ProofFrame.Encoding.Fingerprint
import ProofFrame.Execution.DatasetState

/-!
# Reference rules

Referential integrity against datasets the caller binds to names.  Each bound
dataset is scanned once into a sealed state, the keys of the checked dataset are
collected while it is validated, and the two are anti-joined at the end.

As for the dataset rules, the states are parametric in what holds the keys.
-/

namespace ProofFrame

open Lib Lib.Run Distinct

/-! ## Bindings -/

/-- The datasets supplied for one execution, by name. -/
abbrev ReferenceBindings : Type := List (String × BatchReader)

/-- What a single reference rule was checked against. -/
structure ReferenceOutcome where
  name : String
  reference : String
  referenceFingerprint : String
  referenceRows : ℕ
  referenceDistinctKeys : ℕ
  checkedDistinctKeys : ℕ
  missingDistinctKeys : ℕ
  deriving DecidableEq

/-- A scanned reference dataset: its keys, its fingerprint and its rows. -/
structure ScannedReference (X : Type) where
  keys : X
  fingerprint : String
  rows : ℕ

structure PreparedReference (X : Type) where
  plan : ReferencePlan
  scanned : ScannedReference X

/-- The keys collected for a rule from the checked dataset. -/
structure ReferenceEntry (X : Type) where
  plan : ReferencePlan
  localKeys : X

def referenceCacheKey (plan : ReferencePlan) : String :=
  plan.referenceColumns.foldl (fun key column => key ++ "\u001f" ++ column) plan.reference

/-! ## Keys -/

/-- `types_match`: timestamps are compared by unit only. -/
def typesMatch : DataType → DataType → Bool
  | .timestamp left _, .timestamp right _ => left = right
  | left, right => left = right

section Keys

variable [Crates]

def ReferencePlan.missingColumn (plan : ReferencePlan) (column : String) : Fault :=
  contractError .missingColumn
    s!"Reference dataset `{plan.reference}` has no column `{column}` for rule `{plan.name}`" none

def ReferencePlan.typeMismatch (plan : ReferencePlan) (checked remote : DataType) (ordinal : ℕ) :
    Fault :=
  contractError .contractTypeMismatch
    (s!"Reference rule `{plan.name}` pairs `{Crates.displayType checked}` with " ++
      s!"`{Crates.displayType remote}` at key position {ordinal}") none

/-- The type the rule's local column has at a key position. -/
def ReferencePlan.localType (plan : ReferencePlan) (localSchema : Schema) (ordinal : ℕ) :
    Except Fault DataType :=
  match plan.columns[ordinal]? with
  | none => .error outOfBounds
  | some index =>
      match localSchema.fields[index]? with
      | none => .error outOfBounds
      | some field => .ok field.dataType

/-- The position of one key column in the reference dataset. -/
def resolveKeyColumn (plan : ReferencePlan) (localSchema referenceSchema : Schema)
    (column : String) (ordinal : ℕ) : Except Fault ℕ :=
  match referenceSchema.indexOf column with
  | none => .error (plan.missingColumn column)
  | some index => do
      let checked ← plan.localType localSchema ordinal
      match referenceSchema.fields[index]? with
      | none => .error outOfBounds
      | some field =>
          if typesMatch checked field.dataType then .ok index
          else .error (plan.typeMismatch checked field.dataType ordinal)

def resolveReferenceKey (plan : ReferencePlan) (localSchema referenceSchema : Schema) :
    Except Fault (List ℕ) :=
  plan.referenceColumns.zipIdx.mapM fun (column, ordinal) =>
    resolveKeyColumn plan localSchema referenceSchema column ordinal

/-- The parts of a key from the given columns and key positions on. -/
def encodeKeyParts (batch : RecordBatch) (row : ℕ) :
    List (ℕ × ℕ) → Except Fault (Option (List UInt8))
  | [] => .ok (some [])
  | (index, ordinal) :: rest => do
      let array ← batch.column index
      let cell ← array.cell row
      match cell with
      -- the columns after a null are not looked at
      | none => .ok none
      | some value => do
          let part ← appendScalar array.dataType value
          let key ← encodeKeyParts batch row rest
          .ok (key.map fun bytes => Bytes.toLe 8 ordinal ++ part ++ bytes)

/-- `encode_key`: the bytes of a composite key, unless it carries a null. -/
def encodeKey (batch : RecordBatch) (indexes : List ℕ) (row : ℕ) :
    Except Fault (Option (List UInt8)) :=
  encodeKeyParts batch row indexes.zipIdx

end Keys

/-! ## Preparation -/

def arrowItem (item : Except String RecordBatch) : Except Fault RecordBatch :=
  match item with
  | .ok batch => .ok batch
  | .error message => .error (.error (.arrow message))

/-- A reference dataset in the middle of its scan. -/
structure ReferenceScan (X : Type) where
  keys : X
  fingerprint : V2FingerprintState
  rows : ℕ

/-- The scans made so far, the readers left and the rules prepared. -/
structure Preparation (X : Type) where
  bindings : ReferenceBindings
  scanned : List (String × ScannedReference X)
  prepared : List (PreparedReference X)

def ReferencePlan.unbound (plan : ReferencePlan) : Fault :=
  contractError .referenceUnbound
    s!"Reference rule `{plan.name}` needs a dataset bound to `{plan.reference}`"
    (some s!"$.dataset_rules.references[{plan.name}]")

def unusedBindings (names : List String) : Fault :=
  let unused := ", ".intercalate names
  contractError .referenceUnbound s!"No reference rule uses the bound dataset(s): {unused}" none

def referenceChangedSchema (plan : ReferencePlan) : Fault :=
  .error (.schemaMismatch
    s!"reference dataset `{plan.reference}` changed schema while it was scanned")

def neverScanned : Fault := .panic "the reference was just scanned or already cached"

section Prepare

variable {ω : Type} [Host ω] [Crates]

/-- Insert the keys of a batch; a null is not an identity anything can match. -/
def insertKeys (indexes : List ℕ) (batch : RecordBatch) (rows : ℕ) (keys : ExactState) :
    Run ω Fault ExactState :=
  (List.range batch.rows).foldlM (fun keys row => do
    let key ← lift (encodeKey batch indexes row)
    match key with
    | some bytes => keys.insert (.bytes bytes) (UInt64.ofNat (rows + row))
    | none => pure keys) keys

def scanReferenceBatch (plan : ReferencePlan) (schema : Schema) (indexes : List ℕ)
    (scan : ReferenceScan ExactState) (item : Except String RecordBatch) :
    Run ω Fault (ReferenceScan ExactState) := do
  checkCancelled
  let batch ← lift (arrowItem item)
  failIf (batch.schema ≠ schema) (referenceChangedSchema plan)
  let fingerprint ← lift (scan.fingerprint.update batch)
  let keys ← insertKeys indexes batch scan.rows scan.keys
  pure { keys, fingerprint, rows := scan.rows + batch.rows }

def scanReference (plan : ReferencePlan) (reader : BatchReader) (localSchema : Schema)
    (account : ResourceAccount) : Run ω Fault (ScannedReference SealedState) := do
  let indexes ← lift (resolveReferenceKey plan localSchema reader.schema)
  ioOperation .createDirectory
  let keys ← newExact .bytes account (some temporaryDirectory) none
  let fingerprint ← lift (V2FingerprintState.new reader.schema [])
  let scan ← reader.items.foldlM (scanReferenceBatch plan reader.schema indexes)
    { keys, fingerprint, rows := 0 }
  let keys ← SealedState.seal scan.keys
  pure { keys, fingerprint := scan.fingerprint.finish.toTaggedString, rows := scan.rows }

/-- Scan the dataset bound to the rule's name, which consumes its reader. -/
def scanBound (localSchema : Schema) (account : ResourceAccount) (plan : ReferencePlan)
    (current : Preparation SealedState) : Run ω Fault (Preparation SealedState) := do
  let reader ← someOr (SortedMap.find plan.reference current.bindings) plan.unbound
  let scanned ← scanReference plan reader localSchema account
  pure { current with
    bindings := SortedMap.remove plan.reference current.bindings
    scanned := SortedMap.insert (referenceCacheKey plan) scanned current.scanned }

/-- The first rule that asks for the keys scans them, the others reuse its scan. -/
def scanUnlessCached (localSchema : Schema) (account : ResourceAccount) (plan : ReferencePlan)
    (current : Preparation SealedState) : Run ω Fault (Preparation SealedState) :=
  if (SortedMap.find (referenceCacheKey plan) current.scanned).isSome then pure current
  else scanBound localSchema account plan current

def prepareRule (localSchema : Schema) (account : ResourceAccount)
    (current : Preparation SealedState) (plan : ReferencePlan) :
    Run ω Fault (Preparation SealedState) := do
  let current ← scanUnlessCached localSchema account plan current
  let scanned ← someOr (SortedMap.find (referenceCacheKey plan) current.scanned) neverScanned
  pure { current with prepared := current.prepared ++ [{ plan, scanned }] }

/-- `prepare`: scan every bound dataset and reject a binding set that does not match the plan. -/
def prepare (plans : List ReferencePlan) (bindings : ReferenceBindings) (localSchema : Schema)
    (account : ResourceAccount) : Run ω Fault (List (PreparedReference SealedState)) := do
  let current ← plans.foldlM (prepareRule localSchema account)
    { bindings, scanned := [], prepared := [] }
  let unused := SortedMap.keys current.bindings
  failIf (unused ≠ []) (unusedBindings unused)
  pure current.prepared

end Prepare

/-! ## Row counts -/

def RowCountDeltaPlan.unbound (plan : RowCountDeltaPlan) : Fault :=
  contractError .referenceUnbound
    s!"Row count rule `{plan.name}` needs a dataset bound to `{plan.reference}`"
    (some s!"$.dataset_rules.row_count_delta[{plan.name}]")

/-- The rows counted so far, by dataset, and the readers left. -/
structure DeltaCounts where
  bindings : ReferenceBindings
  counted : List (String × ℕ)

section Counting

variable {ω : Type} [Host ω]

def countRows (items : List (Except String RecordBatch)) : Run ω Fault ℕ :=
  items.foldlM (fun rows item => do
    checkCancelled
    let batch ← lift (arrowItem item)
    pure (rows + batch.rows)) 0

def countRule (current : DeltaCounts) (plan : RowCountDeltaPlan) : Run ω Fault DeltaCounts :=
  if (SortedMap.find plan.reference current.counted).isSome then pure current
  else do
    let reader ← someOr (SortedMap.find plan.reference current.bindings) plan.unbound
    let rows ← countRows reader.items
    pure { bindings := SortedMap.remove plan.reference current.bindings
           counted := SortedMap.insert plan.reference rows current.counted }

/-- `count_delta_references`: the rows of every dataset a `row_count_delta` rule names. -/
def countDeltaReferences (plans : List RowCountDeltaPlan) (bindings : ReferenceBindings) :
    Run ω Fault DeltaCounts :=
  plans.foldlM countRule { bindings, counted := [] }

end Counting

/-! ## Collecting and comparing keys -/

def ReferencePlan.rejectedNull (plan : ReferencePlan) (row : ℕ) : Finding :=
  ⟨"references", "$dataset", some row, s!"Reference rule `{plan.name}` rejects null keys"⟩

/-- The column a missing key is reported on. -/
def ReferencePlan.reportedColumn (plan : ReferencePlan) : String :=
  (plan.fields.head?.map Field.name).getD "$dataset"

def ReferencePlan.missingKey (plan : ReferencePlan) (row : ℕ) : Finding :=
  ⟨"references", plan.reportedColumn, some row,
    s!"Reference rule `{plan.name}` found a key absent from `{plan.reference}`"⟩

/-- The events of a row under a reference rule. -/
def referenceEvents [Crates] (plan : ReferencePlan) (batch : RecordBatch) (position row : ℕ) :
    Except Fault (List Event) := do
  let key ← encodeKey batch plan.columns position
  .ok (match key with
    | some bytes => [.insert (.bytes bytes) row]
    | none => if plan.nulls = .reject then [.record (plan.rejectedNull row)] else [])

section State

variable {ω : Type} [Host ω] [Crates]

/-- `ReferenceState::new`. -/
def newReferenceEntries (prepared : List (PreparedReference SealedState))
    (account : ResourceAccount) (rowCountHint : Option ℕ) :
    Run ω Fault (List (ReferenceEntry ExactState)) := do
  whenever (prepared ≠ []) (ioOperation .createDirectory)
  prepared.mapM fun reference => do
    let localKeys ← newExact .bytes account (some temporaryDirectory) rowCountHint
    pure { plan := reference.plan, localKeys }

/-- `ReferenceState::update`, for one rule. -/
def ReferenceEntry.update (batch : RecordBatch) (rowOffset : ℕ) (entry : ReferenceEntry ExactState)
    (validation : ValidationState) :
    Run ω Fault (ReferenceEntry ExactState × ValidationState) := do
  let (localKeys, validation) ←
    scanExact (referenceEvents entry.plan batch) (List.range batch.rows) rowOffset entry.localKeys
      validation
  pure ({ entry with localKeys }, validation)

/-- What the reference rules leave behind. -/
structure ReferenceResult where
  outcomes : List ReferenceOutcome
  metrics : SpillMetrics
  validation : ValidationState

/-- `ReferenceState::finish`, for one rule. -/
def finishReference (maxSamples : ℕ) (result : ReferenceResult)
    (pair : ReferenceEntry ExactState × PreparedReference SealedState) :
    Run ω Fault ReferenceResult := do
  let (entry, reference) := pair
  let summary ← antiJoinExactStates entry.localKeys reference.scanned.keys maxSamples
  let validation ← result.validation.recordAll
    (summary.samples.map fun row => entry.plan.missingKey row.toNat)
  pure {
    outcomes := result.outcomes ++ [{
      name := entry.plan.name
      reference := entry.plan.reference
      referenceFingerprint := reference.scanned.fingerprint
      referenceRows := reference.scanned.rows
      referenceDistinctKeys := summary.rightDistinct
      checkedDistinctKeys := summary.leftDistinct
      missingDistinctKeys := summary.missing }]
    metrics := result.metrics.add summary.spillBytes summary.runs
    validation := validation.addCount (summary.missing - summary.samples.length) }

/-- `ReferenceState::finish`. -/
def finishReferences (entries : List (ReferenceEntry ExactState))
    (prepared : List (PreparedReference SealedState)) (maxSamples : ℕ)
    (validation : ValidationState) : Run ω Fault ReferenceResult :=
  (entries.zip prepared).foldlM (finishReference maxSamples)
    { outcomes := [], metrics := .zero, validation }

end State

end ProofFrame
