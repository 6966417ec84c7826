import ProofFrame.Contract.Plan
import ProofFrame.Crates
import ProofFrame.Error
import ProofFrame.Lib.Bytes

/-!
# Reading cells

How the kernels get at the cells of a batch: columns by position, arrays by the
type a kernel was compiled for, and the canonical bytes of a cell.
-/

namespace ProofFrame

open Lib Lib.Ieee754

/-! ## Columns and rows -/

def outOfBounds : Fault := .panic "index out of bounds"

/-- `batch.column(index)`. -/
def RecordBatch.column (batch : RecordBatch) (index : ℕ) : Except Fault ArrowArray :=
  match batch.columns[index]? with
  | some array => .ok array
  | none => .error outOfBounds

/-- The cell of a row: `is_null(row)` and `value(row)`. -/
def ArrowArray.cell (array : ArrowArray) (row : ℕ) : Except Fault (Option Value) :=
  match array.cells[row]? with
  | some cell => .ok cell
  | none => .error outOfBounds

/-- Whether the kernel reads arrays of the type. -/
def KernelKind.reads : KernelKind → DataType → Bool
  | .boolean, .boolean
  | .i8, .int8 | .i16, .int16 | .i32, .int32 | .i64, .int64
  | .u8, .uint8 | .u16, .uint16 | .u32, .uint32 | .u64, .uint64
  | .f32, .float32 | .f64, .float64
  | .date32, .date32 | .date64, .date64
  | .decimal128 _ _, .decimal128 _ _
  | .utf8, .utf8 | .largeUtf8, .largeUtf8 | .utf8View, .utf8View
  | .binary, .binary | .largeBinary, .largeBinary | .binaryView, .binaryView => true
  | .timestamp unit, .timestamp unit' _ => unit = unit'
  | _, _ => false

def downcastFailed : Fault := .panic "kernel is fixed from the compiled Arrow schema"

/-- `downcast`: the array as the one the kernel reads. -/
def downcast (kernel : KernelKind) (array : ArrowArray) : Except Fault Unit :=
  if kernel.reads array.dataType then .ok () else .error downcastFailed

def datasetDowncastFailed : Fault := .panic "kernel matches the compiled Arrow array"

/-- `downcast` of the dataset rules. -/
def datasetDowncast (kernel : KernelKind) (array : ArrowArray) : Except Fault Unit :=
  if kernel.reads array.dataType then .ok () else .error datasetDowncastFailed

/-! ## Canonical bytes -/

/-- The UTF-8 bytes of a text. -/
def utf8Bytes (text : String) : List UInt8 := text.toList.flatMap String.utf8EncodeChar

/-- `to_le_bytes` of a two's complement integer of `8 * width` bits. -/
def signedLe (width : ℕ) (value : ℤ) : List UInt8 :=
  Bytes.toLe width (value % 2 ^ (8 * width)).toNat

/-- A length as eight bytes, and the bytes it counts. -/
def lengthPrefixed (bytes : List UInt8) : List UInt8 := Bytes.toLe 8 bytes.length ++ bytes

/-- The tag of the type and the bytes of the value. -/
def scalarBytes : DataType → Scalar → Option (List UInt8)
  | .int8, .signed value => some (1 :: signedLe 1 value)
  | .int16, .signed value => some (2 :: signedLe 2 value)
  | .int32, .signed value => some (3 :: signedLe 4 value)
  | .int64, .signed value => some (4 :: signedLe 8 value)
  | .uint8, .unsigned value => some (5 :: Bytes.toLe 1 value)
  | .uint16, .unsigned value => some (6 :: Bytes.toLe 2 value)
  | .uint32, .unsigned value => some (7 :: Bytes.toLe 4 value)
  | .uint64, .unsigned value => some (8 :: Bytes.toLe 8 value)
  | .float32, .float32 value => some (9 :: Bytes.toLe 4 value.toBits)
  | .float64, .float64 value => some (10 :: Bytes.toLe 8 value.toBits)
  | .date32, .signed value => some (11 :: signedLe 4 value)
  | .date64, .signed value => some (12 :: signedLe 8 value)
  | .timestamp .second _, .signed value => some (13 :: signedLe 8 value)
  | .timestamp .millisecond _, .signed value => some (14 :: signedLe 8 value)
  | .timestamp .microsecond _, .signed value => some (15 :: signedLe 8 value)
  | .timestamp .nanosecond _, .signed value => some (16 :: signedLe 8 value)
  | .decimal128 _ _, .decimal value => some (17 :: signedLe 16 value)
  | .boolean, .boolean value => some [18, if value then 1 else 0]
  | .utf8, .text value => some (19 :: lengthPrefixed (utf8Bytes value))
  | .largeUtf8, .text value => some (20 :: lengthPrefixed (utf8Bytes value))
  | .utf8View, .text value => some (28 :: lengthPrefixed (utf8Bytes value))
  | .binary, .binary value => some (21 :: lengthPrefixed value)
  | .largeBinary, .binary value => some (22 :: lengthPrefixed value)
  | .binaryView, .binary value => some (29 :: lengthPrefixed value)
  | _, _ => none

variable [Crates]

def unsupportedType (message : String) : Fault := .error (.unsupportedType message)

/-- `append_scalar`: the bytes a non-null cell adds to a key. -/
def appendScalar (dataType : DataType) (value : Value) : Except Fault (List UInt8) :=
  match value with
  | .scalar scalar =>
      match scalarBytes dataType scalar with
      | some bytes => .ok bytes
      | none => .error (unsupportedType ("composite uniqueness for " ++ Crates.displayType dataType))
  | _ => .error (unsupportedType ("composite uniqueness for " ++ Crates.displayType dataType))

mutual

/-- `canonical_value_bytes`. -/
def canonicalValueBytes (dataType : DataType) : Option Value → Except Fault (List UInt8)
  | none => .ok [0]
  | some (.scalar scalar) =>
      match scalarBytes dataType scalar with
      | some bytes => .ok bytes
      | none => .error (unsupportedType (Crates.displayType dataType))
  | some (.sequence items) =>
      match dataType with
      | .list field => encodeChildSequence 23 field.dataType items
      | .largeList field => encodeChildSequence 24 field.dataType items
      | .fixedSizeList field _ => encodeChildSequence 25 field.dataType items
      | .map field _ => encodeChildSequence 27 field.dataType items
      | _ => .error (unsupportedType (Crates.displayType dataType))
  | some (.record cells) =>
      match dataType with
      | .struct fields => do
          let elements ← encodeStruct fields.toList cells
          .ok (26 :: Bytes.toLe 8 cells.length ++ elements)
      | _ => .error (unsupportedType (Crates.displayType dataType))
  | some (.raw _) => .error (unsupportedType (Crates.displayType dataType))
termination_by cell => 2 * sizeOf cell

/-- `encode_child_sequence`: a tag, the number of elements, and each element with its length. -/
def encodeChildSequence (tag : UInt8) (dataType : DataType) (items : List (Option Value)) :
    Except Fault (List UInt8) := do
  let elements ← encodeChildren dataType items
  .ok (tag :: Bytes.toLe 8 items.length ++ elements)
termination_by 2 * sizeOf items + 1

def encodeChildren (dataType : DataType) : List (Option Value) → Except Fault (List UInt8)
  | [] => .ok []
  | item :: items => do
      let element ← canonicalValueBytes dataType item
      let rest ← encodeChildren dataType items
      .ok (lengthPrefixed element ++ rest)
termination_by items => 2 * sizeOf items

def encodeStruct : List Field → List (Option Value) → Except Fault (List UInt8)
  | field :: fields, cell :: cells => do
      let element ← canonicalValueBytes field.dataType cell
      let rest ← encodeStruct fields cells
      .ok (lengthPrefixed element ++ rest)
  | _, _ => .ok []
termination_by _ cells => 2 * sizeOf cells

end

end ProofFrame
