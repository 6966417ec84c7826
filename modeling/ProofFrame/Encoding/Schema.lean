import ProofFrame.Execution.Cells

/-!
# Canonical schemas

The bytes a schema is hashed from.  They exist exactly for the schemas whose
types, at every depth, are ones the value encoder knows.
-/

namespace ProofFrame

open Lib

/-- A domain separator: its text and a zero byte. -/
def domainSeparator (name : String) : List UInt8 := utf8Bytes name ++ [0]

/-- `update_optional_bytes`. -/
def optionalBytes : Option (List UInt8) → List UInt8
  | some bytes => 1 :: lengthPrefixed bytes
  | none => [0]

/-- `update_selected_metadata`. -/
def selectedMetadata (metadata : List (String × String)) (selected : List String) : List UInt8 :=
  Bytes.toLe 8 selected.length ++ selected.flatMap fun key =>
    lengthPrefixed (utf8Bytes key) ++ optionalBytes ((metadata.lookup key).map utf8Bytes)

def TimeUnit.schemaTag : TimeUnit → UInt8
  | .second => 1
  | .millisecond => 2
  | .microsecond => 3
  | .nanosecond => 4

section Preimage

variable [Crates]

mutual

/-- `update_field`. -/
def fieldBytes (selected : List String) (ordinal : ℕ) : Field → Except Fault (List UInt8)
  | .mk name dataType nullable metadata => do
      let typeBytes ← dataTypeBytes selected dataType
      .ok (domainSeparator "pf-field-v2" ++ Bytes.toLe 8 ordinal ++ lengthPrefixed (utf8Bytes name) ++
        (if nullable then 1 else 0) :: selectedMetadata metadata selected ++ typeBytes)

/-- `update_data_type`. -/
def dataTypeBytes (selected : List String) : DataType → Except Fault (List UInt8)
  | .int8 => .ok [1]
  | .int16 => .ok [2]
  | .int32 => .ok [3]
  | .int64 => .ok [4]
  | .uint8 => .ok [5]
  | .uint16 => .ok [6]
  | .uint32 => .ok [7]
  | .uint64 => .ok [8]
  | .float32 => .ok [9]
  | .float64 => .ok [10]
  | .date32 => .ok [11]
  | .date64 => .ok [12]
  | .timestamp unit timezone => .ok ([13, unit.schemaTag] ++ optionalBytes (timezone.map utf8Bytes))
  | .decimal128 precision scale => .ok ([17, UInt8.ofNat precision] ++ signedLe 1 scale)
  | .boolean => .ok [18]
  | .utf8 => .ok [19]
  | .largeUtf8 => .ok [20]
  | .utf8View => .ok [28]
  | .binary => .ok [21]
  | .largeBinary => .ok [22]
  | .binaryView => .ok [29]
  | .list field => do
      let child ← fieldBytes selected 0 field
      .ok (23 :: child)
  | .largeList field => do
      let child ← fieldBytes selected 0 field
      .ok (24 :: child)
  | .fixedSizeList field length => do
      let child ← fieldBytes selected 0 field
      .ok (25 :: Bytes.toLe 4 length ++ child)
  | .struct fields => do
      let children ← fieldsBytes selected 0 fields
      .ok (26 :: Bytes.toLe 8 fields.toList.length ++ children)
  | .map field sorted => do
      let child ← fieldBytes selected 0 field
      .ok (27 :: (if sorted then 1 else 0) :: child)
  | dataType => .error (unsupportedType (Crates.displayType dataType))

def fieldsBytes (selected : List String) (ordinal : ℕ) : Fields → Except Fault (List UInt8)
  | .nil => .ok []
  | .cons field rest => do
      let head ← fieldBytes selected ordinal field
      let tail ← fieldsBytes selected (ordinal + 1) rest
      .ok (head ++ tail)

end

/-- The fields of a schema with their ordinals. -/
def schemaFieldsBytes (selected : List String) : List (Field × ℕ) → Except Fault (List UInt8)
  | [] => .ok []
  | (field, ordinal) :: rest => do
      let head ← fieldBytes selected ordinal field
      let tail ← schemaFieldsBytes selected rest
      .ok (head ++ tail)

/-- What `fingerprint_schema` feeds its hasher. -/
def schemaPreimage (schema : Schema) (selected : List String) : Except Fault (List UInt8) := do
  let fields ← schemaFieldsBytes selected schema.fields.zipIdx
  .ok (domainSeparator "pf-schema-v2" ++ selectedMetadata schema.metadata selected ++
    Bytes.toLe 8 schema.fields.length ++ fields)

def fingerprintSchema (schema : Schema) (selected : List String) : Except Fault Digest := do
  let preimage ← schemaPreimage schema selected
  .ok (Crates.blake3 preimage)

/-- `canonical_schema_digest`. -/
def canonicalSchemaDigest (schema : Schema) : Except Fault Digest := fingerprintSchema schema []

end Preimage

/-! ## The types the encoder knows -/

mutual

/-- Whether the value encoder knows the type, at every depth. -/
def DataType.encodable : DataType → Bool
  | .list field | .largeList field | .fixedSizeList field _ | .map field _ => field.encodable
  | .struct fields => fields.encodable
  | dataType => dataType.isScalar

def Field.encodable : Field → Bool
  | .mk _ dataType _ _ => dataType.encodable

def Fields.encodable : Fields → Bool
  | .nil => true
  | .cons field rest => field.encodable && rest.encodable

end

theorem Field.encodable_eq (field : Field) : field.encodable = field.dataType.encodable := by
  cases field
  rfl

theorem Fields.encodable_iff (fields : Fields) :
    fields.encodable = true ↔ ∀ field ∈ fields.toList, field.encodable = true := by
  induction fields using Fields.rec (motive_1 := fun _ => True) (motive_2 := fun _ => True) with
  | nil => simp [Fields.encodable, Fields.toList]
  | cons field rest _ ih => simp [Fields.encodable, Fields.toList, ih]
  | _ => trivial

def Schema.encodable (schema : Schema) : Bool := schema.fields.all Field.encodable

/-- A pure step that returns a value exactly if the condition holds, and otherwise reports an
unsupported type. -/
def Supports {α : Type} (step : Except Fault α) (condition : Bool) : Prop :=
  match step with
  | .ok _ => condition = true
  | .error e => condition = false ∧ ∃ message, e = unsupportedType message

namespace Supports

variable {α β : Type} {step : Except Fault α} {condition : Bool}

theorem ok (a : α) : Supports (.ok a) true := rfl

theorem error (message : String) : Supports (.error (unsupportedType message) : Except Fault α) false :=
  ⟨rfl, message, rfl⟩

/-- One more step after a supported one. -/
theorem bind {f : α → Except Fault β} {condition' : Bool} (h : Supports step condition)
    (hf : ∀ a, step = .ok a → Supports (f a) condition') :
    Supports (step >>= f) (condition && condition') := by
  cases step with
  | ok a =>
      obtain rfl : condition = true := h
      exact hf a rfl
  | error e =>
      obtain ⟨rfl, hmessage⟩ := h
      exact ⟨rfl, hmessage⟩

theorem map {f : α → β} (h : Supports step condition) :
    Supports (step >>= fun a => .ok (f a)) condition := by
  have hbind : Supports (step >>= fun a => .ok (f a)) (condition && true) :=
    h.bind fun a _ => ok (f a)
  rwa [Bool.and_true] at hbind

theorem exists_ok (h : Supports step true) : ∃ a, step = .ok a := by
  cases step with
  | ok a => exact ⟨a, rfl⟩
  | error e => exact absurd h.1 (by simp)

theorem exists_error (h : Supports step false) : ∃ message, step = .error (unsupportedType message) := by
  cases step with
  | ok a => exact absurd h (by simp [Supports])
  | error e =>
      obtain ⟨_, message, rfl⟩ := h
      exact ⟨message, rfl⟩

end Supports

variable [Crates]

mutual

theorem supports_fieldBytes (selected : List String) (ordinal : ℕ) :
    ∀ field : Field, Supports (fieldBytes selected ordinal field) field.encodable
  | .mk _ dataType _ _ => (supports_dataTypeBytes selected dataType).map

theorem supports_dataTypeBytes (selected : List String) :
    ∀ dataType : DataType, Supports (dataTypeBytes selected dataType) dataType.encodable
  | .list field | .largeList field | .fixedSizeList field _ | .map field _ =>
      (supports_fieldBytes selected 0 field).map
  | .struct fields => (supports_fieldsBytes selected 0 fields).map
  | .int8 | .int16 | .int32 | .int64 | .uint8 | .uint16 | .uint32 | .uint64 | .float32 | .float64
  | .date32 | .date64 | .timestamp _ _ | .decimal128 _ _ | .boolean | .utf8 | .largeUtf8
  | .utf8View | .binary | .largeBinary | .binaryView => .ok _
  | .null | .float16 | .time32 _ | .time64 _ | .duration _ | .interval _ | .fixedSizeBinary _
  | .listView _ | .largeListView _ | .union _ _ | .dictionary _ _ | .decimal32 _ _
  | .decimal64 _ _ | .decimal256 _ _ | .runEndEncoded _ _ => .error _

theorem supports_fieldsBytes (selected : List String) (ordinal : ℕ) :
    ∀ fields : Fields, Supports (fieldsBytes selected ordinal fields) fields.encodable
  | .nil => .ok _
  | .cons field rest =>
      (supports_fieldBytes selected ordinal field).bind fun _ _ =>
        (supports_fieldsBytes selected (ordinal + 1) rest).map

end

theorem supports_schemaFieldsBytes (selected : List String) (fields : List (Field × ℕ)) :
    Supports (schemaFieldsBytes selected fields) (fields.all fun entry => entry.1.encodable) := by
  induction fields with
  | nil => exact .ok _
  | cons entry rest ih =>
      exact (supports_fieldBytes selected entry.2 entry.1).bind fun _ _ => ih.map

omit [Crates] in
theorem all_zipIdx_encodable (schema : Schema) :
    (schema.fields.zipIdx.all fun entry => entry.1.encodable) = schema.encodable := by
  show schema.fields.zipIdx.all (Field.encodable ∘ Prod.fst) = _
  rw [← List.all_map, List.zipIdx_map_fst]
  rfl

end ProofFrame
