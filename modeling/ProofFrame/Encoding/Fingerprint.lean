import ProofFrame.Encoding.Schema

/-!
# Dataset fingerprints

The second version of the dataset fingerprint: one hash per column, over the
cells in row order, and a root hash over the schema, the row count and the
columns.  The state keeps what each hasher was fed.
-/

namespace ProofFrame

open Lib

inductive FingerprintVersion where
  | v1 | v2
  deriving DecidableEq, Repr

def FingerprintVersion.prefixText : FingerprintVersion → String
  | .v1 => "pf-fp-v1:"
  | .v2 => "pf-fp-v2:"

structure Fingerprint where
  version : FingerprintVersion
  digest : Digest
  rows : ℕ
  deriving DecidableEq

/-- A byte in lowercase hexadecimal. -/
def hexByte (byte : UInt8) : List Char :=
  [Nat.digitChar (byte.toNat / 16), Nat.digitChar (byte.toNat % 16)]

/-- `to_hex`. -/
def Digest.toHex (digest : Digest) : String := String.ofList (digest.val.flatMap hexByte)

def Fingerprint.toTaggedString (fingerprint : Fingerprint) : String :=
  fingerprint.version.prefixText ++ fingerprint.digest.toHex

/-- `tagged_digest`. -/
def taggedDigest (tag : String) (digest : Digest) : String := tag ++ digest.toHex

section State

variable [Crates]

/-- `ValueEncoder::for_data_type`: whether there is an encoder; the type determines which. -/
def DataType.encoder (dataType : DataType) : Except Fault Unit := do
  let _ ← dataTypeBytes [] dataType
  .ok ()

/-- `ValueEncoder::update_v2`: what a cell adds to the hasher of its column. -/
def cellFingerprint (dataType : DataType) : Option Value → Except Fault (List UInt8)
  | none => .ok [0]
  | some (.scalar scalar) =>
      -- the direct encoders write the value without the tag of its type
      match scalarBytes dataType scalar with
      | some bytes => .ok (1 :: bytes.tail)
      | none => .error (unsupportedType (Crates.displayType dataType))
  | some value => do
      let encoded ← canonicalValueBytes dataType (some value)
      .ok (1 :: lengthPrefixed encoded)

/-- What an array adds to the hasher of its column. -/
def arrayFingerprint (dataType : DataType) : List (Option Value) → Except Fault (List UInt8)
  | [] => .ok []
  | cell :: cells => do
      let head ← cellFingerprint dataType cell
      let tail ← arrayFingerprint dataType cells
      .ok (head ++ tail)

/-- What the arrays of a batch add to the hashers of their columns. -/
def columnsFingerprint : List (List UInt8) → List ArrowArray → Except Fault (List (List UInt8))
  | column :: columns, array :: arrays => do
      let fed ← arrayFingerprint array.dataType array.cells
      let rest ← columnsFingerprint columns arrays
      .ok ((column ++ fed) :: rest)
  | columns, _ => .ok columns

structure V2FingerprintState where
  schema : Schema
  schemaDigest : Digest
  columns : List (List UInt8)
  rows : ℕ

namespace V2FingerprintState

def new (schema : Schema) (selected : List String) : Except Fault V2FingerprintState := do
  schema.fields.forM fun field => field.dataType.encoder
  let schemaDigest ← fingerprintSchema schema selected
  .ok { schema, schemaDigest, rows := 0
        columns := (List.range schema.fields.length).map fun column =>
          domainSeparator "pf-fp-v2-column" ++ Bytes.toLe 8 column }

def update (state : V2FingerprintState) (batch : RecordBatch) : Except Fault V2FingerprintState := do
  if batch.schema = state.schema then .ok () else
    .error (.error (.schemaMismatch "record batch schema changed during V2 fingerprinting"))
  let columns ← columnsFingerprint state.columns batch.columns
  .ok { state with columns, rows := state.rows + batch.rows }

def finish (state : V2FingerprintState) : Fingerprint :=
  { version := .v2
    rows := state.rows
    digest := Crates.blake3 (domainSeparator "pf-fp-v2" ++ state.schemaDigest.val ++
      Bytes.toLe 8 state.rows ++ Bytes.toLe 8 state.columns.length ++
      state.columns.zipIdx.flatMap fun (column, ordinal) =>
        Bytes.toLe 8 ordinal ++ (Crates.blake3 column).val) }

end V2FingerprintState

end State

/-! ## Encodable schemas have fingerprints -/

/-- A scalar the type admits has canonical bytes. -/
theorem exists_scalarBytes {dataType : DataType} {scalar : Scalar}
    (h : dataType.AdmitsScalar scalar) : ∃ bytes, scalarBytes dataType scalar = some bytes := by
  cases dataType <;> cases scalar <;>
    first
      | exact absurd h id
      | exact ⟨_, rfl⟩
      | (rename_i unit _ _; cases unit <;> exact ⟨_, rfl⟩)

/-- A cell of the type, null or not; nulls are unrestricted. -/
def DataType.AdmitsPresent (dataType : DataType) (cell : Option Value) : Prop :=
  ∀ value, cell = some value → dataType.Admits value

theorem Field.AdmitsCell.present {field : Field} {cell : Option Value} (h : field.AdmitsCell cell) :
    field.dataType.AdmitsPresent cell := by
  rintro value rfl
  cases field
  exact h

theorem Fields.AdmitCells.forall₂ {fields : Fields} {cells : List (Option Value)}
    (h : fields.AdmitCells cells) : List.Forall₂ Field.AdmitsCell fields.toList cells := by
  induction cells generalizing fields with
  | nil =>
      cases fields with
      | nil => exact .nil
      | cons field rest => exact absurd h id
  | cons cell cells ih =>
      cases fields with
      | nil => exact absurd h id
      | cons field rest => exact .cons h.1 (ih h.2)

section Supported

variable [Crates]

mutual

/-- The canonical bytes of a cell exist where the encoder knows its type. -/
theorem exists_canonicalValueBytes {dataType : DataType} (hencodable : dataType.encodable = true) :
    ∀ cell, dataType.AdmitsPresent cell → ∃ bytes, canonicalValueBytes dataType cell = .ok bytes
  | none, _ => ⟨[0], by rw [canonicalValueBytes]⟩
  | some (.scalar scalar), h => by
      have hadmits : dataType.AdmitsScalar scalar := by
        have := h _ rfl
        cases dataType <;> exact this
      obtain ⟨bytes, hbytes⟩ := exists_scalarBytes hadmits
      exact ⟨bytes, by rw [canonicalValueBytes, hbytes]⟩
  | some (.sequence items), h => by
      have hadmits := h _ rfl
      cases dataType with
      | list field | largeList field | map field _ =>
          rw [DataType.encodable, Field.encodable_eq] at hencodable
          obtain ⟨bytes, hbytes⟩ := exists_encodeChildren hencodable items fun item hitem =>
            Field.AdmitsCell.present (hadmits item hitem)
          simp only [canonicalValueBytes, encodeChildSequence, hbytes]
          exact ⟨_, rfl⟩
      | fixedSizeList field length =>
          rw [DataType.encodable, Field.encodable_eq] at hencodable
          obtain ⟨bytes, hbytes⟩ := exists_encodeChildren hencodable items fun item hitem =>
            Field.AdmitsCell.present (hadmits.2 item hitem)
          simp only [canonicalValueBytes, encodeChildSequence, hbytes]
          exact ⟨_, rfl⟩
      | _ => exact absurd hadmits id
  | some (.record cells), h => by
      have hadmits := h _ rfl
      cases dataType with
      | struct fields =>
          have hfields := (Fields.encodable_iff fields).mp hencodable
          obtain ⟨bytes, hbytes⟩ := exists_encodeStruct cells fields.toList hfields hadmits.forall₂
          simp only [canonicalValueBytes, hbytes]
          exact ⟨_, rfl⟩
      | _ => exact absurd hadmits id
  | some (.raw _), h => by
      -- the types whose contents are not read are not encodable
      have hadmits := h _ rfl
      cases dataType <;>
        first
          | exact absurd hadmits id
          | exact absurd (show false = true from hencodable) (by decide)
          | exact absurd (show true = false from hadmits) (by decide)

theorem exists_encodeChildren {dataType : DataType} (hencodable : dataType.encodable = true) :
    ∀ items : List (Option Value), (∀ item ∈ items, dataType.AdmitsPresent item) →
      ∃ bytes, encodeChildren dataType items = .ok bytes
  | [], _ => ⟨[], by rw [encodeChildren]⟩
  | item :: items, h => by
      obtain ⟨head, hhead⟩ :=
        exists_canonicalValueBytes hencodable item (h item (List.mem_cons_self ..))
      obtain ⟨tail, htail⟩ := exists_encodeChildren hencodable items fun other hother =>
        h other (List.mem_cons_of_mem _ hother)
      simp only [encodeChildren, hhead, htail]
      exact ⟨_, rfl⟩

theorem exists_encodeStruct : ∀ (cells : List (Option Value)) (fields : List Field),
    (∀ field ∈ fields, field.encodable = true) → List.Forall₂ Field.AdmitsCell fields cells →
      ∃ bytes, encodeStruct fields cells = .ok bytes
  | [], [], _, _ => ⟨[], by simp [encodeStruct]⟩
  | cell :: cells, field :: fields, hencodable, h => by
      cases h with
      | cons hcell hcells =>
          have hfield := hencodable field (List.mem_cons_self ..)
          rw [Field.encodable_eq] at hfield
          obtain ⟨head, hhead⟩ := exists_canonicalValueBytes hfield cell hcell.present
          obtain ⟨tail, htail⟩ := exists_encodeStruct cells fields
            (fun other hother => hencodable other (List.mem_cons_of_mem _ hother)) hcells
          simp only [encodeStruct, hhead, htail]
          exact ⟨_, rfl⟩

end

theorem exists_cellFingerprint {dataType : DataType} (hencodable : dataType.encodable = true)
    {cell : Option Value} (h : dataType.AdmitsPresent cell) :
    ∃ bytes, cellFingerprint dataType cell = .ok bytes := by
  obtain ⟨bytes, hbytes⟩ := exists_canonicalValueBytes hencodable cell h
  rcases cell with _ | ⟨scalar | items | fields | _⟩
  · exact ⟨[0], rfl⟩
  · rw [canonicalValueBytes] at hbytes
    cases hscalar : scalarBytes dataType scalar with
    | some raw => exact ⟨1 :: raw.tail, by rw [cellFingerprint, hscalar]⟩
    | none => simp [hscalar] at hbytes
  all_goals
    simp only [cellFingerprint, hbytes]
    exact ⟨_, rfl⟩

theorem exists_arrayFingerprint {dataType : DataType} (hencodable : dataType.encodable = true)
    {cells : List (Option Value)} (h : ∀ cell ∈ cells, dataType.AdmitsPresent cell) :
    ∃ bytes, arrayFingerprint dataType cells = .ok bytes := by
  induction cells with
  | nil => exact ⟨[], rfl⟩
  | cons cell cells ih =>
      obtain ⟨head, hhead⟩ := exists_cellFingerprint hencodable (h cell (List.mem_cons_self ..))
      obtain ⟨tail, htail⟩ := ih fun other hother => h other (List.mem_cons_of_mem _ hother)
      simp only [arrayFingerprint, hhead, htail]
      exact ⟨_, rfl⟩

theorem exists_columnsFingerprint {arrays : List ArrowArray}
    (hencodable : ∀ array ∈ arrays, array.field.encodable = true) (columns : List (List UInt8)) :
    ∃ fed, columnsFingerprint columns arrays = .ok fed := by
  induction columns generalizing arrays with
  | nil =>
      rw [columnsFingerprint]
      · exact ⟨[], rfl⟩
      · simp
  | cons column columns ih =>
      cases arrays with
      | nil =>
          rw [columnsFingerprint]
          · exact ⟨_, rfl⟩
          · simp
      | cons array arrays =>
          have harray := hencodable array (List.mem_cons_self ..)
          rw [Field.encodable_eq] at harray
          obtain ⟨head, hhead⟩ := exists_arrayFingerprint harray fun cell hcell =>
            (array.typed cell hcell).present
          obtain ⟨tail, htail⟩ := ih fun other hother =>
            hencodable other (List.mem_cons_of_mem _ hother)
          have hhead : arrayFingerprint array.dataType array.cells = .ok head := hhead
          simp only [columnsFingerprint, hhead, htail]
          exact ⟨_, rfl⟩

namespace V2FingerprintState

theorem supports_new (schema : Schema) (selected : List String) :
    Supports (new schema selected) schema.encodable := by
  have hencoders : Supports (schema.fields.forM fun field => field.dataType.encoder)
      schema.encodable := by
    rw [Schema.encodable]
    induction schema.fields with
    | nil => exact .ok ()
    | cons field fields ih =>
        have hfield : Supports field.dataType.encoder field.encodable := by
          rw [Field.encodable_eq]
          exact (supports_dataTypeBytes [] field.dataType).map
        exact hfield.bind fun _ _ => ih
  have hschema : Supports (fingerprintSchema schema selected) schema.encodable := by
    have h := supports_schemaFieldsBytes selected schema.fields.zipIdx
    rw [all_zipIdx_encodable] at h
    exact h.map.map
  rw [← Bool.and_self schema.encodable]
  exact hencoders.bind fun _ _ => hschema.map

/-- A batch of the schema is fingerprinted. -/
theorem exists_update {state : V2FingerprintState} {batch : RecordBatch}
    (hschema : batch.schema = state.schema) (hencodable : state.schema.encodable = true) :
    ∃ next, state.update batch = .ok next ∧ next.schema = state.schema ∧
      next.rows = state.rows + batch.rows := by
  have harrays : ∀ array ∈ batch.columns, array.field.encodable = true := by
    intro array harray
    have hfield : array.field ∈ state.schema.fields := by
      rw [← hschema, ← batch.fields_eq]
      exact List.mem_map_of_mem harray
    exact List.all_eq_true.mp hencodable array.field hfield
  obtain ⟨columns, hcolumns⟩ := exists_columnsFingerprint harrays state.columns
  refine ⟨{ state with columns, rows := state.rows + batch.rows }, ?_, rfl, rfl⟩
  rw [update, if_pos hschema, hcolumns]
  rfl

end V2FingerprintState

end Supported

end ProofFrame
