import ProofFrame.Execution.References
import ProofFrame.Diff.Partition

/-!
# Keyed rows

What a diff reads of a row: the canonical bytes of its key, the key as a text,
the canonical bytes of every cell, and a hash of these.
-/

namespace ProofFrame.Diff

open Lib Lib.Run

/-- Third-party functions that only the diff calls.  Serializing texts does not fail. -/
class DiffCrates extends Crates where
  /-- `array_value_to_string` of a non-null cell of the type. -/
  arrayValueToString : DataType → Value → Except String String
  /-- `serde_json::to_writer` of a diff event: its kind, its key and the changed columns. -/
  jsonEvent : String → String → Option (List String) → List UInt8
  /-- `serde_json::to_string` of a list of texts. -/
  jsonTexts : List String → String
  /-- A finished Arrow IPC file of the three columns of the event schema, one batch per row. -/
  ipcFile : List (String × String × Option String) → List UInt8

structure ColumnSchema where
  name : String
  dataType : String
  nullable : Bool
  deriving DecidableEq, Repr

section Crates

variable [Crates]

/-- `schema_signature`. -/
def schemaSignature (schema : Schema) : List ColumnSchema :=
  schema.fields.map fun field =>
    { name := field.name, dataType := Crates.displayType field.dataType, nullable := field.nullable }

/-- What `hash_bytes` feeds a hasher. -/
def hashBytes (bytes : List UInt8) : List UInt8 := lengthPrefixed bytes

/-- `signature_digest`. -/
def signatureDigest (signature : List ColumnSchema) : Digest :=
  Crates.blake3 (domainSeparator "proofframe:diff-schema:v2" ++ signature.flatMap fun field =>
    hashBytes (utf8Bytes field.name) ++ hashBytes (utf8Bytes field.dataType) ++
      [if field.nullable then 1 else 0])

omit [Crates] in
/-- The positions of the key columns. -/
def keyIndexes (keys : List String) (schema : Schema) : Except Fault (List ℕ) :=
  keys.mapM fun key => required (schema.indexOf key) (.error (.missingColumn key))

/-- What `row_hash` feeds its hasher. -/
def rowPreimage (values : List (Option (List UInt8))) : List UInt8 :=
  domainSeparator "proofframe:diff-row:v2" ++ values.flatMap fun
    | none => [0]
    | some bytes => 1 :: hashBytes bytes

/-- `row_hash`. -/
def rowHash (values : List (Option (List UInt8))) : Digest := Crates.blake3 (rowPreimage values)

/-- `row_partition`. -/
def rowPartition (key : List UInt8) : ℕ :=
  Bytes.ofLe ((Crates.blake3 key).val.take 8) % partitions

/-- The values of a row. -/
def rowValues (batch : RecordBatch) (row : ℕ) : Except Fault (List (Option (List UInt8))) :=
  batch.columns.mapM fun array => do
    match ← array.cell row with
    | none => .ok none
    | some value => some <$> canonicalValueBytes array.dataType (some value)

/-! ## Failures of the encoder -/

/-- The call ends with an error: it neither panics nor loops. -/
def IsError (fault : Fault) : Prop := ∃ error, fault = .error error

omit [Crates] in
theorem isError_error (error : ProofFrameError) : IsError (.error error) := ⟨error, rfl⟩

omit [Crates] in
theorem isError_of_coded {fault : Fault} {codes : List ErrorCode} (h : fault.Coded codes) :
    IsError fault := by
  cases fault with
  | error error => exact isError_error error
  | panic site => exact h.elim
  | diverged => exact h.elim

mutual

/-- The encoder of values rejects what it does not know. -/
theorem failsWith_canonicalValueBytes (dataType : DataType) :
    ∀ cell, FailsWith IsError (canonicalValueBytes dataType cell)
  | none => by
      rw [canonicalValueBytes]
      exact failsWith_ok
  | some (.scalar scalar) => by
      rw [canonicalValueBytes]
      cases scalarBytes dataType scalar with
      | some bytes => exact failsWith_ok
      | none => exact failsWith_error (isError_error _)
  | some (.sequence items) => by
      have hchildren : ∀ tag dataType,
          FailsWith IsError (encodeChildSequence tag dataType items) := by
        intro tag dataType
        rw [encodeChildSequence]
        apply (failsWith_encodeChildren dataType items).bind
        intro _ _
        exact failsWith_ok
      cases dataType with
      | list field | largeList field | fixedSizeList field _ | map field _ =>
          rw [canonicalValueBytes]
          exact hchildren _ _
      | _ =>
          simp only [canonicalValueBytes]
          exact failsWith_error (isError_error _)
  | some (.record cells) => by
      cases dataType with
      | struct fields =>
          rw [canonicalValueBytes]
          apply (failsWith_encodeStruct _ cells).bind
          intro _ _
          exact failsWith_ok
      | _ =>
          simp only [canonicalValueBytes]
          exact failsWith_error (isError_error _)
  | some (.raw _) => by
      rw [canonicalValueBytes]
      exact failsWith_error (isError_error _)

theorem failsWith_encodeChildren (dataType : DataType) :
    ∀ items, FailsWith IsError (encodeChildren dataType items)
  | [] => by
      rw [encodeChildren]
      exact failsWith_ok
  | item :: items => by
      rw [encodeChildren]
      apply (failsWith_canonicalValueBytes dataType item).bind
      intro _ _
      apply (failsWith_encodeChildren dataType items).bind
      intro _ _
      exact failsWith_ok

theorem failsWith_encodeStruct :
    ∀ (fields : List Field) (cells : List (Option Value)), FailsWith IsError (encodeStruct fields cells)
  | [], _ => by
      rw [encodeStruct]
      · exact failsWith_ok
      · simp
  | _ :: _, [] => by
      rw [encodeStruct]
      · exact failsWith_ok
      · simp
  | field :: fields, cell :: cells => by
      rw [encodeStruct]
      apply (failsWith_canonicalValueBytes field.dataType cell).bind
      intro _ _
      apply (failsWith_encodeStruct fields cells).bind
      intro _ _
      exact failsWith_ok

end

end Crates

/-! ## Records -/

variable [DiffCrates]

/-- `value_for_rules`. -/
def valueForRules (dataType : DataType) (value : Value) : Except Fault String :=
  match DiffCrates.arrayValueToString dataType value with
  | .ok text => .ok text
  | .error message => .error (.error (.arrow message))

/-- What one column adds to the canonical and to the displayed key. -/
def keyColumn (batch : RecordBatch) (row index : ℕ) : Except Fault (List UInt8 × String) := do
  let array ← batch.column index
  let cell ← array.cell row
  let value ← canonicalValueBytes array.dataType cell
  let display ← match cell with
    | none => .ok "<null>"
    | some value => valueForRules array.dataType value
  .ok (Bytes.toLe 8 index ++ Bytes.toLe 8 value.length ++ value, display)

/-- `diff_key`. -/
def diffKey (batch : RecordBatch) (indexes : List ℕ) (row : ℕ) :
    Except Fault (List UInt8 × String) := do
  let columns ← indexes.mapM (keyColumn batch row)
  .ok ((columns.map Prod.fst).flatten, String.intercalate "\u001f" (columns.map Prod.snd))

/-- The record of a row, which both paths build the same way. -/
def readRow (indexes : List ℕ) (batch : RecordBatch) (row : ℕ) : Except Fault KeyedEntry := do
  let (key, displayKey) ← diffKey batch indexes row
  let values ← rowValues batch row
  .ok (key, { displayKey, values, hash := rowHash values })

theorem readRow_eq_ok {indexes : List ℕ} {batch : RecordBatch} {row : ℕ} {record : KeyedEntry} :
    readRow indexes batch row = .ok record ↔
      diffKey batch indexes row = .ok (record.1, record.2.displayKey) ∧
        rowValues batch row = .ok record.2.values ∧ record.2.hash = rowHash record.2.values := by
  unfold readRow
  constructor
  · intro h
    obtain ⟨⟨key, displayKey⟩, hkey, h⟩ := bind_eq_ok.mp h
    obtain ⟨values, hvalues, h⟩ := bind_eq_ok.mp h
    cases h
    exact ⟨hkey, hvalues, rfl⟩
  · obtain ⟨key, ⟨displayKey, values, hash⟩⟩ := record
    rintro ⟨hkey, hvalues, hhash⟩
    dsimp only at hhash
    exact bind_eq_ok.mpr ⟨_, hkey, bind_eq_ok.mpr ⟨values, hvalues, by rw [hhash]⟩⟩

/-- `estimated_entry_bytes`; an `Option<Vec<u8>>` takes up 24 bytes. -/
def estimatedEntryBytes (record : KeyedEntry) : ℕ :=
  record.1.length + record.2.displayKey.utf8ByteSize +
    (record.2.values.filterMap id |>.map List.length).sum + record.2.values.length * 24 + 192

/-! ## Failures -/

section Rows

variable {indexes : List ℕ} {batch : RecordBatch} {row : ℕ}

theorem failsWith_valueForRules (dataType : DataType) (value : Value) :
    FailsWith IsError (valueForRules dataType value) := by
  unfold valueForRules
  split
  · exact failsWith_ok
  · exact failsWith_error (isError_error _)

end Rows

/-! ## Rows of scalars -/

section Flat

variable {indexes : List ℕ} {batch : RecordBatch} {row : ℕ}

/-- `canonicalValueBytes` of a cell that is null or a scalar. -/
def flatValueBytes (dataType : DataType) : Option Value → Except Fault (List UInt8)
  | none => .ok [0]
  | some (.scalar scalar) =>
      match scalarBytes dataType scalar with
      | some bytes => .ok bytes
      | none => .error (unsupportedType (Crates.displayType dataType))
  | some _ => .error (unsupportedType (Crates.displayType dataType))

theorem canonicalValueBytes_of_flat {dataType : DataType} {cell : Option Value}
    {bytes : List UInt8} (h : flatValueBytes dataType cell = .ok bytes) :
    canonicalValueBytes dataType cell = .ok bytes := by
  rcases cell with _ | ⟨scalar | items | fields | _⟩
  · rw [canonicalValueBytes, ← h]
    rfl
  · rw [canonicalValueBytes, ← h]
    rfl
  all_goals cases h

/-- `keyColumn` of a cell that is null or a scalar. -/
def flatKeyColumn (batch : RecordBatch) (row index : ℕ) : Except Fault (List UInt8 × String) := do
  let array ← batch.column index
  let cell ← array.cell row
  let value ← flatValueBytes array.dataType cell
  let display ← match cell with
    | none => .ok "<null>"
    | some value => valueForRules array.dataType value
  .ok (Bytes.toLe 8 index ++ Bytes.toLe 8 value.length ++ value, display)

/-- `rowValues` of a row of nulls and scalars. -/
def flatValues (batch : RecordBatch) (row : ℕ) : Except Fault (List (Option (List UInt8))) :=
  batch.columns.mapM fun array => do
    match ← array.cell row with
    | none => .ok none
    | some value => some <$> flatValueBytes array.dataType (some value)

/-- `readRow` of a row of nulls and scalars. -/
def flatRecord (indexes : List ℕ) (batch : RecordBatch) (row : ℕ) : Except Fault KeyedEntry := do
  let columns ← indexes.mapM (flatKeyColumn batch row)
  let values ← flatValues batch row
  .ok ((columns.map Prod.fst).flatten,
    { displayKey := String.intercalate "\u001f" (columns.map Prod.snd), values
      hash := rowHash values })

theorem keyColumn_of_flat {index : ℕ} {part : List UInt8 × String}
    (h : flatKeyColumn batch row index = .ok part) : keyColumn batch row index = .ok part := by
  obtain ⟨array, harray, h⟩ := bind_eq_ok.mp h
  obtain ⟨cell, hcell, h⟩ := bind_eq_ok.mp h
  obtain ⟨value, hvalue, h⟩ := bind_eq_ok.mp h
  exact bind_eq_ok.mpr ⟨array, harray, bind_eq_ok.mpr ⟨cell, hcell,
    bind_eq_ok.mpr ⟨value, canonicalValueBytes_of_flat hvalue, h⟩⟩⟩

theorem rowValues_of_flat {values : List (Option (List UInt8))}
    (h : flatValues batch row = .ok values) : rowValues batch row = .ok values := by
  apply mapM_eq_ok.mpr
  apply (mapM_eq_ok.mp h).imp
  intro array value h
  obtain ⟨cell, hcell, h⟩ := bind_eq_ok.mp h
  refine bind_eq_ok.mpr ⟨cell, hcell, ?_⟩
  cases cell with
  | none => exact h
  | some cell =>
      obtain ⟨bytes, hbytes, hvalue⟩ := map_eq_ok.mp h
      exact map_eq_ok.mpr ⟨bytes, canonicalValueBytes_of_flat hbytes, hvalue⟩

/-- Rows of nulls and scalars are read without recursion. -/
theorem readRow_of_flat {record : KeyedEntry} (h : flatRecord indexes batch row = .ok record) :
    readRow indexes batch row = .ok record := by
  obtain ⟨columns, hcolumns, h⟩ := bind_eq_ok.mp h
  obtain ⟨values, hvalues, h⟩ := bind_eq_ok.mp h
  cases h
  refine readRow_eq_ok.mpr ⟨?_, rowValues_of_flat hvalues, rfl⟩
  refine bind_eq_ok.mpr ⟨columns, mapM_eq_ok.mpr ?_, rfl⟩
  exact (mapM_eq_ok.mp hcolumns).imp fun _ _ => keyColumn_of_flat

/-- The records of a batch of nulls and scalars. -/
def flatRecords (indexes : List ℕ) (batch : RecordBatch) : List KeyedEntry :=
  ((List.range batch.rows).mapM (flatRecord indexes batch)).toOption.getD []

theorem mapM_readRow_of_flat
    (h : ((List.range batch.rows).mapM (flatRecord indexes batch)).toOption.isSome = true) :
    (List.range batch.rows).mapM (readRow indexes batch) = .ok (flatRecords indexes batch) := by
  cases hrecords : (List.range batch.rows).mapM (flatRecord indexes batch) with
  | error fault =>
      rw [hrecords] at h
      cases h
  | ok records =>
      rw [flatRecords, hrecords]
      exact mapM_eq_ok.mpr ((mapM_eq_ok.mp hrecords).imp fun _ _ => readRow_of_flat)

end Flat

end ProofFrame.Diff
