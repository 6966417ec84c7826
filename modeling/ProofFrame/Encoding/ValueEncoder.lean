import ProofFrame.Encoding.Fingerprint
import ProofFrame.Lib.Steps

/-!
# The streaming value encoder

`ValueEncoder` is fixed from the type of a column and feeds a cell to the hasher
without building its bytes first: it predicts their length for the scalars, and
for the nested types writes them into one buffer, where the length of an element
is filled in once the element is there.

`writeV1Value_eq` says that what it writes are the canonical bytes, behind
whatever the buffer holds.
-/

namespace ProofFrame

open Lib

/-! ## Encoders -/

inductive ValueEncoder where
  | int8 | int16 | int32 | int64
  | uint8 | uint16 | uint32 | uint64
  | float32 | float64
  | date32 | date64
  | timestampSecond | timestampMillisecond | timestampMicrosecond | timestampNanosecond
  | decimal128
  | boolean
  | utf8 | largeUtf8 | utf8View
  | binary | largeBinary | binaryView
  | list (child : ValueEncoder)
  | largeList (child : ValueEncoder)
  | fixedSizeList (child : ValueEncoder)
  | struct (children : List ValueEncoder)
  | map (child : ValueEncoder)

namespace ValueEncoder

def scalarEncoder : DataType → Option ValueEncoder
  | .int8 => some .int8
  | .int16 => some .int16
  | .int32 => some .int32
  | .int64 => some .int64
  | .uint8 => some .uint8
  | .uint16 => some .uint16
  | .uint32 => some .uint32
  | .uint64 => some .uint64
  | .float32 => some .float32
  | .float64 => some .float64
  | .decimal128 _ _ => some .decimal128
  | .boolean => some .boolean
  | .utf8 => some .utf8
  | .largeUtf8 => some .largeUtf8
  | .utf8View => some .utf8View
  | .binary => some .binary
  | .largeBinary => some .largeBinary
  | .binaryView => some .binaryView
  | _ => none

def temporalEncoder : DataType → Option ValueEncoder
  | .date32 => some .date32
  | .date64 => some .date64
  | .timestamp .second _ => some .timestampSecond
  | .timestamp .millisecond _ => some .timestampMillisecond
  | .timestamp .microsecond _ => some .timestampMicrosecond
  | .timestamp .nanosecond _ => some .timestampNanosecond
  | _ => none

variable [Crates]

mutual

/-- `ValueEncoder::for_data_type`; the nested types are neither scalar nor temporal. -/
def forDataType : DataType → Except Fault ValueEncoder
  | .list field => .list <$> forField field
  | .largeList field => .largeList <$> forField field
  | .fixedSizeList field _ => .fixedSizeList <$> forField field
  | .struct fields => .struct <$> forFields fields
  | .map field _ => .map <$> forField field
  | dataType =>
      match scalarEncoder dataType with
      | some encoder => .ok encoder
      | none =>
          match temporalEncoder dataType with
          | some encoder => .ok encoder
          | none => .error (unsupportedType (Crates.displayType dataType))

def forField : Field → Except Fault ValueEncoder
  | .mk _ dataType _ _ => forDataType dataType

def forFields : Fields → Except Fault (List ValueEncoder)
  | .nil => .ok []
  | .cons field rest => do
      let encoder ← forField field
      let encoders ← forFields rest
      .ok (encoder :: encoders)

end

/-! ## Values -/

/-- What `value(row)` returns, as the encoders use it. -/
inductive Leaf where
  /-- The `to_le_bytes` of a number. -/
  | primitive (bytes : List UInt8)
  | boolean (value : Bool)
  | bytes (value : List UInt8)

def encoderMismatch : Fault := .panic "encoder is fixed from the Arrow schema"

/-- `downcast` and `value(row)`, for the encoders of scalars. -/
def leaf : ValueEncoder → DataType → Scalar → Except Fault Leaf
  | .int8, .int8, .signed value => .ok (.primitive (signedLe 1 value))
  | .int16, .int16, .signed value => .ok (.primitive (signedLe 2 value))
  | .int32, .int32, .signed value => .ok (.primitive (signedLe 4 value))
  | .int64, .int64, .signed value => .ok (.primitive (signedLe 8 value))
  | .uint8, .uint8, .unsigned value => .ok (.primitive (Bytes.toLe 1 value))
  | .uint16, .uint16, .unsigned value => .ok (.primitive (Bytes.toLe 2 value))
  | .uint32, .uint32, .unsigned value => .ok (.primitive (Bytes.toLe 4 value))
  | .uint64, .uint64, .unsigned value => .ok (.primitive (Bytes.toLe 8 value))
  | .float32, .float32, .float32 value => .ok (.primitive (Bytes.toLe 4 value.toBits))
  | .float64, .float64, .float64 value => .ok (.primitive (Bytes.toLe 8 value.toBits))
  | .date32, .date32, .signed value => .ok (.primitive (signedLe 4 value))
  | .date64, .date64, .signed value => .ok (.primitive (signedLe 8 value))
  | .timestampSecond, .timestamp .second _, .signed value
  | .timestampMillisecond, .timestamp .millisecond _, .signed value
  | .timestampMicrosecond, .timestamp .microsecond _, .signed value
  | .timestampNanosecond, .timestamp .nanosecond _, .signed value =>
      .ok (.primitive (signedLe 8 value))
  | .decimal128, .decimal128 _ _, .decimal value => .ok (.primitive (signedLe 16 value))
  | .boolean, .boolean, .boolean value => .ok (.boolean value)
  | .utf8, .utf8, .text value
  | .largeUtf8, .largeUtf8, .text value
  | .utf8View, .utf8View, .text value => .ok (.bytes (utf8Bytes value))
  | .binary, .binary, .binary value
  | .largeBinary, .largeBinary, .binary value
  | .binaryView, .binaryView, .binary value => .ok (.bytes value)
  | _, _, _ => .error encoderMismatch

/-- The tags in `write_v1_value`, but for the nested types and `Boolean`. -/
def writtenTag : ValueEncoder → UInt8
  | .int8 => 1
  | .int16 => 2
  | .int32 => 3
  | .int64 => 4
  | .uint8 => 5
  | .uint16 => 6
  | .uint32 => 7
  | .uint64 => 8
  | .float32 => 9
  | .float64 => 10
  | .date32 => 11
  | .date64 => 12
  | .timestampSecond => 13
  | .timestampMillisecond => 14
  | .timestampMicrosecond => 15
  | .timestampNanosecond => 16
  | .decimal128 => 17
  | .utf8 => 19
  | .largeUtf8 => 20
  | .utf8View => 28
  | .binary => 21
  | .largeBinary => 22
  | .binaryView => 29
  | _ => 0

/-- `write_bytes_value`. -/
def writeBytesValue (output : List UInt8) (tag : UInt8) (value : List UInt8) : List UInt8 :=
  output ++ [tag] ++ Bytes.toLe 8 value.length ++ value

def writeLeaf (output : List UInt8) (encoder : ValueEncoder) : Leaf → List UInt8
  | .primitive bytes => output ++ [encoder.writtenTag] ++ bytes
  | .boolean value => output ++ [18, if value then 1 else 0]
  | .bytes value => writeBytesValue output encoder.writtenTag value

/-- `write_len_prefixed`: eight bytes are kept free and filled in at the end. -/
def writeLenPrefixed (output : List UInt8) (write : List UInt8 → Except Fault (List UInt8)) :
    Except Fault (List UInt8) := do
  let lengthOffset := output.length
  let output := output ++ Bytes.toLe 8 0
  let valueOffset := output.length
  let output ← write output
  let length := output.length - valueOffset
  .ok (output.take lengthOffset ++ Bytes.toLe 8 length ++ output.drop valueOffset)

mutual

/-- `write_v1_value`: the cell is written behind what the buffer holds. -/
def writeV1Value (encoder : ValueEncoder) (dataType : DataType) :
    Option Value → List UInt8 → Except Fault (List UInt8)
  | none, output => .ok (output ++ [0])
  | some (.scalar scalar), output => do
      let leaf ← encoder.leaf dataType scalar
      .ok (writeLeaf output encoder leaf)
  | some (.sequence items), output =>
      match encoder, dataType with
      | .list child, .list field => writeChildSequence child field.dataType 23 items output
      | .largeList child, .largeList field => writeChildSequence child field.dataType 24 items output
      | .fixedSizeList child, .fixedSizeList field _ =>
          writeChildSequence child field.dataType 25 items output
      | .map child, .map field _ => writeChildSequence child field.dataType 27 items output
      | _, _ => .error encoderMismatch
  | some (.record cells), output =>
      match encoder, dataType with
      | .struct children, .struct fields =>
          writeColumns children fields.toList cells
            (output ++ [26] ++ Bytes.toLe 8 cells.length)
      | _, _ => .error encoderMismatch
  | some (.raw _), _ => .error encoderMismatch
termination_by cell => (sizeOf cell, 0)

/-- `write_child_sequence`. -/
def writeChildSequence (child : ValueEncoder) (dataType : DataType) (tag : UInt8)
    (items : List (Option Value)) (output : List UInt8) : Except Fault (List UInt8) :=
  writeItems child dataType items (output ++ [tag] ++ Bytes.toLe 8 items.length)
termination_by (sizeOf items, 1)

def writeItems (child : ValueEncoder) (dataType : DataType) :
    List (Option Value) → List UInt8 → Except Fault (List UInt8)
  | [], output => .ok output
  | item :: items, output => do
      let output ← writeLenPrefixed output fun output => child.writeV1Value dataType item output
      writeItems child dataType items output
termination_by items => (sizeOf items, 0)

/-- The columns of a struct next to their encoders. -/
def writeColumns : List ValueEncoder → List Field → List (Option Value) → List UInt8 →
    Except Fault (List UInt8)
  | encoder :: encoders, field :: fields, cell :: cells, output => do
      let output ← writeLenPrefixed output fun output =>
        encoder.writeV1Value field.dataType cell output
      writeColumns encoders fields cells output
  | _, _, _, output => .ok output
termination_by _ _ cells => (sizeOf cells, 0)

end

/-! ## Cells -/

/-- The tags in `update_v1`. -/
def directTag : ValueEncoder → UInt8
  | .int8 => 1
  | .int16 => 2
  | .int32 => 3
  | .int64 => 4
  | .uint8 => 5
  | .uint16 => 6
  | .uint32 => 7
  | .uint64 => 8
  | .float32 => 9
  | .float64 => 10
  | .date32 => 11
  | .date64 => 12
  | .timestampSecond => 13
  | .timestampMillisecond => 14
  | .timestampMicrosecond => 15
  | .timestampNanosecond => 16
  | .decimal128 => 17
  | .utf8 => 19
  | .largeUtf8 => 20
  | .utf8View => 28
  | .binary => 21
  | .largeBinary => 22
  | .binaryView => 29
  | _ => 0

/-- What `direct_primitive!`, `Boolean`, `direct_string!` and `direct_binary!` feed the hasher. -/
def directLeaf (encoder : ValueEncoder) : Leaf → List UInt8
  | .primitive bytes => Bytes.toLe 8 (1 + bytes.length) ++ [encoder.directTag] ++ bytes
  | .boolean value => Bytes.toLe 8 2 ++ [18, if value then 1 else 0]
  | .bytes value =>
      Bytes.toLe 8 (9 + value.length) ++ [encoder.directTag] ++ Bytes.toLe 8 value.length ++ value

/-- `ValueEncoder::update_v1`: what a cell adds to the hasher. -/
def updateV1 (encoder : ValueEncoder) (column : ℕ) (array : ArrowArray) (row : ℕ) :
    Except Fault (List UInt8) := do
  let header := domainSeparator "pf-cell-v1" ++ Bytes.toLe 8 column
  let cell ← array.cell row
  match cell with
  | none => .ok (header ++ Bytes.toLe 8 1 ++ [0])
  | some (.scalar scalar) => do
      let leaf ← encoder.leaf array.dataType scalar
      .ok (header ++ encoder.directLeaf leaf)
  | some value => do
      let scratch ← encoder.writeV1Value array.dataType (some value) []
      .ok (header ++ Bytes.toLe 8 scratch.length ++ scratch)

/-! ## The encoder of a type -/

theorem forField_eq (field : Field) : forField field = forDataType field.dataType := by
  cases field
  rw [forField]
  rfl

theorem forall₂_of_forFields : ∀ {fields : Fields} {encoders : List ValueEncoder},
    forFields fields = .ok encoders →
      List.Forall₂ (fun field encoder => forDataType field.dataType = .ok encoder) fields.toList
        encoders
  | .nil, _, h => by
      rw [forFields] at h
      cases h
      exact .nil
  | .cons field rest, _, h => by
      rw [forFields] at h
      obtain ⟨encoder, hencoder, h⟩ := bind_eq_ok.mp h
      obtain ⟨encoders, hencoders, h⟩ := bind_eq_ok.mp h
      cases h
      rw [forField_eq] at hencoder
      exact .cons hencoder (forall₂_of_forFields hencoders)

mutual

/-- There is an encoder exactly for the types the encoder knows. -/
theorem supports_forDataType : ∀ dataType : DataType,
    Supports (forDataType dataType) dataType.encodable
  | .list field | .largeList field | .fixedSizeList field _ | .map field _ =>
      (supports_forField field).map
  | .struct fields => (supports_forFields fields).map
  | .int8 | .int16 | .int32 | .int64 | .uint8 | .uint16 | .uint32 | .uint64 | .float32 | .float64
  | .date32 | .date64 | .timestamp .second _ | .timestamp .millisecond _
  | .timestamp .microsecond _ | .timestamp .nanosecond _ | .decimal128 _ _ | .boolean | .utf8
  | .largeUtf8 | .utf8View | .binary | .largeBinary | .binaryView => .ok _
  | .null | .float16 | .time32 _ | .time64 _ | .duration _ | .interval _ | .fixedSizeBinary _
  | .listView _ | .largeListView _ | .union _ _ | .dictionary _ _ | .decimal32 _ _
  | .decimal64 _ _ | .decimal256 _ _ | .runEndEncoded _ _ => .error _

theorem supports_forField : ∀ field : Field, Supports (forField field) field.encodable
  | .mk _ dataType _ _ => supports_forDataType dataType

theorem supports_forFields : ∀ fields : Fields, Supports (forFields fields) fields.encodable
  | .nil => .ok _
  | .cons field rest =>
      (supports_forField field).bind fun _ _ => (supports_forFields rest).map

end

theorem encodable_of_forDataType {dataType : DataType} {encoder : ValueEncoder}
    (h : forDataType dataType = .ok encoder) : dataType.encodable = true := by
  have hsupports := supports_forDataType dataType
  rw [h] at hsupports
  exact hsupports

/-! ## What is written are the canonical bytes -/

omit [Crates] in
/-- The length is filled in where the space for it was kept. -/
theorem writeLenPrefixed_eq {output bytes : List UInt8}
    {write : List UInt8 → Except Fault (List UInt8)}
    (h : ∀ buffer, write buffer = .ok (buffer ++ bytes)) :
    writeLenPrefixed output write = .ok (output ++ lengthPrefixed bytes) := by
  have hlength : (output ++ Bytes.toLe 8 0).length = output.length + 8 := by simp
  unfold writeLenPrefixed
  dsimp only
  rw [h, hlength]
  show Except.ok _ = Except.ok _
  have hkept : (output ++ Bytes.toLe 8 0 ++ bytes).take output.length = output := by
    rw [List.append_assoc, List.take_left' rfl]
  have hvalue : (output ++ Bytes.toLe 8 0 ++ bytes).drop (output.length + 8) = bytes := by
    rw [← hlength, List.drop_left' rfl]
  have hcount : (output ++ Bytes.toLe 8 0 ++ bytes).length - (output.length + 8) = bytes.length := by
    rw [List.length_append, hlength, Nat.add_sub_cancel_left]
  rw [hkept, hvalue, hcount, lengthPrefixed, List.append_assoc]

omit [Crates] in
theorem lengthPrefixed_primitive (tag : UInt8) (bytes : List UInt8) :
    Bytes.toLe 8 (1 + bytes.length) ++ [tag] ++ bytes = lengthPrefixed (tag :: bytes) := by
  rw [lengthPrefixed, List.length_cons, Nat.add_comm, List.append_assoc]
  rfl

omit [Crates] in
theorem lengthPrefixed_bytes (tag : UInt8) (value : List UInt8) :
    Bytes.toLe 8 (9 + value.length) ++ [tag] ++ Bytes.toLe 8 value.length ++ value =
      lengthPrefixed (tag :: lengthPrefixed value) := by
  have hlength : (tag :: lengthPrefixed value).length = 9 + value.length := by
    rw [List.length_cons, lengthPrefixed, List.length_append, Bytes.length_toLe]
    omega
  rw [lengthPrefixed, hlength]
  simp [lengthPrefixed]

/-- A scalar is written as its canonical bytes, of the length that is predicted. -/
theorem exists_leaf {dataType : DataType} {encoder : ValueEncoder} {scalar : Scalar}
    {bytes : List UInt8} (hencoder : forDataType dataType = .ok encoder)
    (hadmits : dataType.AdmitsScalar scalar) (hbytes : scalarBytes dataType scalar = some bytes) :
    ∃ leaf, encoder.leaf dataType scalar = .ok leaf ∧
      (∀ output, writeLeaf output encoder leaf = output ++ bytes) ∧
      encoder.directLeaf leaf = lengthPrefixed bytes := by
  cases dataType with
  | boolean =>
      cases scalar <;> first | exact absurd hadmits id | cases hbytes
      cases hencoder
      exact ⟨_, rfl, fun _ => rfl, rfl⟩
  | int8 | int16 | int32 | int64 | uint8 | uint16 | uint32 | uint64 | float32 | float64 | date32
  | date64 | decimal128 precision scale =>
      cases scalar <;> first | exact absurd hadmits id | cases hbytes
      cases hencoder
      refine ⟨_, rfl, fun output => ?_, lengthPrefixed_primitive _ _⟩
      rw [writeLeaf, List.append_assoc]
      rfl
  | timestamp unit timezone =>
      cases scalar <;> first | exact absurd hadmits id | skip
      cases unit <;> cases hbytes <;> cases hencoder <;>
        refine ⟨_, rfl, fun output => ?_, lengthPrefixed_primitive _ _⟩ <;>
        rw [writeLeaf, List.append_assoc] <;> rfl
  | utf8 | largeUtf8 | utf8View | binary | largeBinary | binaryView =>
      cases scalar <;> first | exact absurd hadmits id | cases hbytes
      cases hencoder
      refine ⟨_, rfl, fun output => ?_, lengthPrefixed_bytes _ _⟩
      rw [writeLeaf, writeBytesValue, List.append_assoc, List.append_assoc]
      rfl
  | _ => cases scalar <;> exact absurd hadmits id

mutual

/-- The buffer grows by the canonical bytes of the cell. -/
theorem writeV1Value_eq {dataType : DataType} {encoder : ValueEncoder}
    (hencoder : forDataType dataType = .ok encoder) :
    ∀ (cell : Option Value) {bytes : List UInt8} (output : List UInt8),
      dataType.AdmitsPresent cell → canonicalValueBytes dataType cell = .ok bytes →
      encoder.writeV1Value dataType cell output = .ok (output ++ bytes)
  | none, bytes, output, _, h => by
      rw [canonicalValueBytes] at h
      cases h
      rw [writeV1Value]
  | some (.scalar scalar), bytes, output, hadmits, h => by
      have hscalar : dataType.AdmitsScalar scalar := by
        have := hadmits _ rfl
        cases dataType <;> exact this
      obtain ⟨raw, hraw⟩ := exists_scalarBytes hscalar
      rw [canonicalValueBytes, hraw] at h
      cases h
      obtain ⟨leaf, hleaf, hwrites, -⟩ := exists_leaf hencoder hscalar hraw
      rw [writeV1Value, hleaf]
      exact congrArg Except.ok (hwrites output)
  | some (.sequence items), bytes, output, hadmits, h => by
      have hitems := hadmits _ rfl
      cases dataType with
      | list field | largeList field | map field _ =>
          obtain ⟨child, hchild, hchildren⟩ := map_eq_ok.mp hencoder
          cases hchildren
          rw [forField_eq] at hchild
          simp only [canonicalValueBytes] at h
          rw [writeV1Value]
          exact writeChildSequence_eq hchild items output
            (fun item hitem => (hitems item hitem).present) h
      -- what such a list admits says its length first, so its items come second
      | fixedSizeList field length =>
          obtain ⟨child, hchild, hchildren⟩ := map_eq_ok.mp hencoder
          cases hchildren
          rw [forField_eq] at hchild
          simp only [canonicalValueBytes] at h
          rw [writeV1Value]
          exact writeChildSequence_eq hchild items output
            (fun item hitem => (hitems.2 item hitem).present) h
      | _ => exact absurd hitems id
  | some (.record cells), bytes, output, hadmits, h => by
      have hcells := hadmits _ rfl
      cases dataType with
      | struct fields =>
          obtain ⟨children, hchildren, hstruct⟩ := map_eq_ok.mp hencoder
          cases hstruct
          simp only [canonicalValueBytes] at h
          obtain ⟨elements, helements, h⟩ := bind_eq_ok.mp h
          cases h
          rw [writeV1Value, writeColumns_eq cells _ (forall₂_of_forFields hchildren)
            hcells.forall₂ helements]
          simp
      | _ => exact absurd hcells id
  | some (.raw _), bytes, output, _, h => by
      rw [canonicalValueBytes] at h
      cases h
termination_by cell => (sizeOf cell, 0)

theorem writeChildSequence_eq {dataType : DataType} {child : ValueEncoder}
    (hchild : forDataType dataType = .ok child) {tag : UInt8} (items : List (Option Value))
    {bytes : List UInt8} (output : List UInt8) (hadmits : ∀ item ∈ items, dataType.AdmitsPresent item)
    (h : encodeChildSequence tag dataType items = .ok bytes) :
    writeChildSequence child dataType tag items output = .ok (output ++ bytes) := by
  rw [encodeChildSequence] at h
  obtain ⟨elements, helements, h⟩ := bind_eq_ok.mp h
  cases h
  rw [writeChildSequence, writeItems_eq hchild items _ hadmits helements]
  simp
termination_by (sizeOf items, 1)

theorem writeItems_eq {dataType : DataType} {child : ValueEncoder}
    (hchild : forDataType dataType = .ok child) :
    ∀ (items : List (Option Value)) {bytes : List UInt8} (output : List UInt8),
      (∀ item ∈ items, dataType.AdmitsPresent item) → encodeChildren dataType items = .ok bytes →
      writeItems child dataType items output = .ok (output ++ bytes)
  | [], bytes, output, _, h => by
      rw [encodeChildren] at h
      cases h
      rw [writeItems, List.append_nil]
  | item :: items, bytes, output, hadmits, h => by
      rw [encodeChildren] at h
      obtain ⟨element, helement, h⟩ := bind_eq_ok.mp h
      obtain ⟨rest, hrest, h⟩ := bind_eq_ok.mp h
      cases h
      rw [List.forall_mem_cons] at hadmits
      rw [writeItems, writeLenPrefixed_eq fun buffer =>
        writeV1Value_eq hchild item buffer hadmits.1 helement]
      show writeItems child dataType items _ = _
      rw [writeItems_eq hchild items _ hadmits.2 hrest, List.append_assoc]
termination_by items => (sizeOf items, 0)

theorem writeColumns_eq : ∀ (cells : List (Option Value)) {encoders : List ValueEncoder}
    {fields : List Field} {bytes : List UInt8} (output : List UInt8),
      List.Forall₂ (fun field encoder => forDataType field.dataType = .ok encoder) fields encoders →
      List.Forall₂ Field.AdmitsCell fields cells → encodeStruct fields cells = .ok bytes →
      writeColumns encoders fields cells output = .ok (output ++ bytes)
  | [], _, _, bytes, output, .nil, .nil, h => by
      rw [encodeStruct] at h
      · cases h
        rw [writeColumns, List.append_nil]
        simp
      · simp
  | cell :: cells, _, _, bytes, output, .cons hencoder hencoders, .cons hcell hcells, h => by
      rw [encodeStruct] at h
      obtain ⟨element, helement, h⟩ := bind_eq_ok.mp h
      obtain ⟨rest, hrest, h⟩ := bind_eq_ok.mp h
      cases h
      rw [writeColumns, writeLenPrefixed_eq fun buffer =>
        writeV1Value_eq hencoder cell buffer hcell.present helement]
      show writeColumns _ _ cells _ = _
      rw [writeColumns_eq cells _ hencoders hcells hrest, List.append_assoc]
termination_by cells => (sizeOf cells, 0)

end

end ValueEncoder

end ProofFrame
