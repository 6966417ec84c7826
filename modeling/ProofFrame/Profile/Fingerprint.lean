import ProofFrame.Encoding.ValueEncoder
import ProofFrame.Execution.References

/-!
# Fingerprints of the first version

One hasher is fed the schema and then every cell in row order.  There are two
implementations: `fingerprintV1` streams the cells through the encoders of the
schema, and `updateHash`, which profiles and suggestions use, builds the
canonical bytes of each cell first.  They feed the same bytes.
-/

namespace ProofFrame

open Lib Lib.Run

variable [Crates]

/-! ## Streaming -/

/-- `EncodingPlan::for_schema`. -/
def encodingPlan (schema : Schema) : Except Fault (List ValueEncoder) :=
  schema.fields.mapM fun field => ValueEncoder.forDataType field.dataType

/-- One cell of a batch, with its encoder and its column. -/
def streamCell (batch : RecordBatch) (row : ℕ) (fed : List UInt8) (entry : ValueEncoder × ℕ) :
    Except Fault (List UInt8) := do
  let array ← batch.column entry.2
  let cell ← entry.1.updateV1 entry.2 array row
  .ok (fed ++ cell)

/-- What `fingerprint_v1` feeds its hasher for a batch. -/
def streamBatch (plan : List ValueEncoder) (batch : RecordBatch) (fed : List UInt8) :
    Except Fault (List UInt8) :=
  (List.range batch.rows).foldlM (fun fed row => plan.zipIdx.foldlM (streamCell batch row) fed) fed

def v1SchemaChanged : Fault :=
  .error (.schemaMismatch "record batch schema changed during V1 fingerprinting")

/-- What `fingerprint_v1` feeds its hasher before the first cell. -/
def v1Header (schema : Schema) : List UInt8 :=
  domainSeparator "pf-fp-v1" ++ (schema.fields.flatMap fun field =>
    domainSeparator "pf-schema-field-v1" ++ lengthPrefixed (utf8Bytes field.name) ++
      lengthPrefixed (utf8Bytes (Crates.displayType field.dataType)) ++
      [if field.nullable then 1 else 0]) ++ domainSeparator "pf-fp-body-v1"

/-- The turn of an item in the loop of `fingerprint_v1`. -/
def streamItem (schema : Schema) (plan : List ValueEncoder) (state : List UInt8 × ℕ)
    (item : Except String RecordBatch) : Except Fault (List UInt8 × ℕ) := do
  let batch ← arrowItem item
  rejectIf (batch.schema ≠ schema) v1SchemaChanged
  let fed ← streamBatch plan batch state.1
  .ok (fed, state.2 + batch.rows)

/-- `fingerprint_v1`. -/
def fingerprintV1 (reader : BatchReader) : Except Fault Fingerprint := do
  let plan ← encodingPlan reader.schema
  let (fed, rows) ← reader.items.foldlM (streamItem reader.schema plan) (v1Header reader.schema, 0)
  .ok { version := .v1, digest := Crates.blake3 fed, rows }

def fingerprintReader (reader : BatchReader) : Except Fault String := do
  let fingerprint ← fingerprintV1 reader
  .ok fingerprint.toTaggedString

/-! ## Cell by cell -/

/-- `update_schema_hash`. -/
def updateSchemaHash (name dataType : String) (nullable : Bool) : List UInt8 :=
  domainSeparator "pf-schema-field-v1" ++ lengthPrefixed (utf8Bytes name) ++
    lengthPrefixed (utf8Bytes dataType) ++ [if nullable then 1 else 0]

/-- `profile_hasher`: what the hasher is fed before the first cell. -/
def profileHasher (schema : Schema) : List UInt8 :=
  domainSeparator "pf-fp-v1" ++ (schema.fields.flatMap fun field =>
    updateSchemaHash field.name (Crates.displayType field.dataType) field.nullable) ++
    domainSeparator "pf-fp-body-v1"

/-- `update_hash`: what a cell adds to the hasher. -/
def updateHash (column : ℕ) (array : ArrowArray) (row : ℕ) : Except Fault (List UInt8) := do
  let cell ← array.cell row
  let encoded ← canonicalValueBytes array.dataType cell
  .ok (domainSeparator "pf-cell-v1" ++ Bytes.toLe 8 column ++ lengthPrefixed encoded)

/-- One cell of a batch. -/
def hashCell (row : ℕ) (fed : List UInt8) (entry : ArrowArray × ℕ) : Except Fault (List UInt8) := do
  let cell ← updateHash entry.2 entry.1 row
  .ok (fed ++ cell)

/-- The cells of a batch, row by row. -/
def hashBatch (batch : RecordBatch) (fed : List UInt8) : Except Fault (List UInt8) :=
  (List.range batch.rows).foldlM (fun fed row => batch.columns.zipIdx.foldlM (hashCell row) fed) fed

/-- The `pf-fp-v1` text of what a hasher was fed. -/
def v1Text (fed : List UInt8) : String := "pf-fp-v1:" ++ (Crates.blake3 fed).toHex

/-! ## Both feed the same -/

omit [Crates] in
theorem ArrowArray.admits_of_cell {array : ArrowArray} {row : ℕ} {cell : Option Value}
    (h : array.cell row = .ok cell) : array.dataType.AdmitsPresent cell := by
  unfold ArrowArray.cell at h
  split at h
  · rename_i hcell
    cases h
    exact (array.typed _ (List.mem_of_getElem? hcell)).present
  · cases h

/-- The streaming encoder feeds the canonical bytes behind their length. -/
theorem updateV1_eq_updateHash {array : ArrowArray} {encoder : ValueEncoder}
    (hencoder : ValueEncoder.forDataType array.dataType = .ok encoder) (column row : ℕ) :
    encoder.updateV1 column array row = updateHash column array row := by
  unfold ValueEncoder.updateV1 updateHash
  cases hcell : array.cell row with
  | error fault => rfl
  | ok cell =>
      have hadmits := ArrowArray.admits_of_cell hcell
      obtain ⟨bytes, hbytes⟩ := exists_canonicalValueBytes
        (ValueEncoder.encodable_of_forDataType hencoder) cell hadmits
      rw [ok_bind, ok_bind, hbytes, ok_bind]
      cases cell with
      | none =>
          rw [canonicalValueBytes] at hbytes
          cases hbytes
          rw [List.append_assoc]
          rfl
      | some value =>
          cases value with
          | scalar scalar =>
              have hscalar : array.dataType.AdmitsScalar scalar := by
                have hvalue := hadmits _ rfl
                cases hdataType : array.dataType <;> rw [hdataType] at hvalue <;> exact hvalue
              obtain ⟨raw, hraw⟩ := exists_scalarBytes hscalar
              rw [canonicalValueBytes, hraw] at hbytes
              cases hbytes
              obtain ⟨leaf, hleaf, -, hdirect⟩ := ValueEncoder.exists_leaf hencoder hscalar hraw
              dsimp only
              rw [hleaf, ok_bind, hdirect]
          | sequence items =>
              dsimp only
              rw [ValueEncoder.writeV1Value_eq hencoder _ [] hadmits hbytes, ok_bind,
                List.nil_append, List.append_assoc]
              rfl
          | record cells =>
              dsimp only
              rw [ValueEncoder.writeV1Value_eq hencoder _ [] hadmits hbytes, ok_bind,
                List.nil_append, List.append_assoc]
              rfl
          | raw bytes =>
              rw [canonicalValueBytes] at hbytes
              cases hbytes

/-- There is a plan exactly for the schemas whose types the encoder knows. -/
theorem supports_encodingPlan (schema : Schema) :
    Supports (encodingPlan schema) schema.encodable := by
  unfold encodingPlan Schema.encodable
  induction schema.fields with
  | nil => exact .ok _
  | cons field fields ih =>
      rw [List.mapM_cons, List.all_cons, Field.encodable_eq]
      exact (ValueEncoder.supports_forDataType field.dataType).bind fun _ _ => ih.map

/-- The arrays of a batch of the schema are read by the encoders of the schema. -/
theorem forall₂_encodingPlan {schema : Schema} {plan : List ValueEncoder} {batch : RecordBatch}
    (hplan : encodingPlan schema = .ok plan) (hschema : batch.schema = schema) :
    List.Forall₂ (fun (array : ArrowArray) encoder =>
      ValueEncoder.forDataType array.dataType = .ok encoder) batch.columns plan := by
  have hfields := mapM_eq_ok.mp hplan
  rw [← hschema, ← batch.fields_eq, List.forall₂_map_left_iff] at hfields
  exact hfields

/-- Two lists that are folded with their positions, the one looked up by position in the other. -/
theorem streamRow_eq {batch : RecordBatch} {plan : List ValueEncoder} {row : ℕ}
    {arrays : List ArrowArray} (h : List.Forall₂ (fun (array : ArrowArray) encoder =>
      ValueEncoder.forDataType array.dataType = .ok encoder) arrays plan) :
    ∀ {column : ℕ} {fed : List UInt8}, batch.columns.drop column = arrays →
      (plan.zipIdx column).foldlM (streamCell batch row) fed =
        (arrays.zipIdx column).foldlM (hashCell row) fed := by
  induction h with
  | nil => exact fun _ => rfl
  | @cons array encoder arrays plan hencoder _ ih =>
      intro column fed hdrop
      have harray : batch.columns[column]? = some array := by
        rw [← List.head?_drop, hdrop, List.head?_cons]
      have hrest : batch.columns.drop (column + 1) = arrays := by
        rw [← List.tail_drop, hdrop, List.tail_cons]
      have hcolumn : batch.column column = .ok array := by
        unfold RecordBatch.column
        rw [harray]
      rw [List.zipIdx_cons, List.zipIdx_cons, List.foldlM_cons, List.foldlM_cons, streamCell,
        hashCell, hcolumn, ok_bind, updateV1_eq_updateHash hencoder]
      cases updateHash column array row with
      | error fault => rfl
      | ok cell => exact ih hrest

theorem streamBatch_eq_hashBatch {schema : Schema} {plan : List ValueEncoder} {batch : RecordBatch}
    (hplan : encodingPlan schema = .ok plan) (hschema : batch.schema = schema) (fed : List UInt8) :
    streamBatch plan batch fed = hashBatch batch fed := by
  unfold streamBatch hashBatch
  congr 1
  funext fed row
  exact streamRow_eq (forall₂_encodingPlan hplan hschema) List.drop_zero

end ProofFrame
