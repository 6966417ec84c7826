import ProofFrame.Lib.Ieee754.Arithmetic

/-!
# The Arrow data the engine reads

Schemas, arrays and record batches, as far as the engine looks at them.  A cell
is `none` where the validity bitmap marks a null; the types that carry no
validity buffer (`DataType.hasValidity`) never have such a cell, whatever their
logical nulls are, because the engine asks for physical nulls only.

The structures carry what the Arrow library guarantees of every value it builds:
the cells of an array have the array's type, and the columns of a batch have the
types and the length the batch declares.
-/

namespace ProofFrame

open Lib.Ieee754 (F32 F64)

inductive TimeUnit where
  | second | millisecond | microsecond | nanosecond
  deriving DecidableEq, Repr

/-- `Debug` of a time unit. -/
def TimeUnit.debug : TimeUnit → String
  | .second => "Second"
  | .millisecond => "Millisecond"
  | .microsecond => "Microsecond"
  | .nanosecond => "Nanosecond"

inductive IntervalUnit where
  | yearMonth | dayTime | monthDayNano
  deriving DecidableEq, Repr

inductive UnionMode where
  | sparse | dense
  deriving DecidableEq, Repr

mutual

inductive DataType where
  | null | boolean
  | int8 | int16 | int32 | int64
  | uint8 | uint16 | uint32 | uint64
  | float16 | float32 | float64
  | timestamp (unit : TimeUnit) (timezone : Option String)
  | date32 | date64
  | time32 (unit : TimeUnit) | time64 (unit : TimeUnit)
  | duration (unit : TimeUnit) | interval (unit : IntervalUnit)
  | binary | fixedSizeBinary (width : ℕ) | largeBinary | binaryView
  | utf8 | largeUtf8 | utf8View
  | list (field : Field) | listView (field : Field)
  | fixedSizeList (field : Field) (length : ℕ)
  | largeList (field : Field) | largeListView (field : Field)
  | struct (fields : Fields)
  | union (fields : Fields) (mode : UnionMode)
  | dictionary (key value : DataType)
  | decimal32 (precision : ℕ) (scale : ℤ) | decimal64 (precision : ℕ) (scale : ℤ)
  | decimal128 (precision : ℕ) (scale : ℤ) | decimal256 (precision : ℕ) (scale : ℤ)
  | map (field : Field) (sorted : Bool)
  | runEndEncoded (runEnds values : Field)
  deriving DecidableEq, Repr

inductive Field where
  | mk (name : String) (dataType : DataType) (nullable : Bool)
      (metadata : List (String × String))
  deriving DecidableEq, Repr

inductive Fields where
  | nil
  | cons (field : Field) (rest : Fields)
  deriving DecidableEq, Repr

end

namespace Field

def name : Field → String
  | .mk name _ _ _ => name

def dataType : Field → DataType
  | .mk _ dataType _ _ => dataType

def nullable : Field → Bool
  | .mk _ _ nullable _ => nullable

end Field

def Fields.toList : Fields → List Field
  | .nil => []
  | .cons field rest => field :: rest.toList

/-- An Arrow schema: its fields in order, and its metadata. -/
structure Schema where
  fields : List Field
  metadata : List (String × String)
  deriving DecidableEq, Repr

/-- The position of the first field called `name`. -/
def Schema.indexOf (schema : Schema) (name : String) : Option ℕ :=
  schema.fields.findIdx? fun field => field.name == name

/-- Whether arrays of the type have a validity buffer. -/
def DataType.hasValidity : DataType → Bool
  | .null | .union _ _ | .runEndEncoded _ _ => false
  | _ => true

/-- A cell of a type the engine reads value by value. -/
inductive Scalar where
  | boolean (value : Bool)
  | signed (value : ℤ)
  | unsigned (value : ℕ)
  | float32 (value : F32)
  | float64 (value : F64)
  | decimal (value : ℤ)
  | text (value : String)
  | binary (value : List UInt8)
  deriving DecidableEq

/-- A non-null cell.  Of the types the engine does not decode a cell is the `raw` bytes that the
Arrow library has for it, and only the library renders them. -/
inductive Value where
  | scalar (value : Scalar)
  | sequence (items : List (Option Value))
  | record (fields : List (Option Value))
  | raw (bytes : List UInt8)

/-- Whether `value` lies in the two's complement range of `bits` bits. -/
def InSigned (bits : ℕ) (value : ℤ) : Prop := -2 ^ (bits - 1) ≤ value ∧ value < 2 ^ (bits - 1)

instance (bits : ℕ) (value : ℤ) : Decidable (InSigned bits value) :=
  inferInstanceAs (Decidable (_ ∧ _))

/-- The scalars an array of the type may hold. -/
def DataType.AdmitsScalar : DataType → Scalar → Prop
  | .boolean, .boolean _ => True
  | .int8, .signed v => InSigned 8 v
  | .int16, .signed v => InSigned 16 v
  | .int32, .signed v | .date32, .signed v => InSigned 32 v
  | .int64, .signed v | .date64, .signed v | .timestamp _ _, .signed v => InSigned 64 v
  | .uint8, .unsigned v => v < 2 ^ 8
  | .uint16, .unsigned v => v < 2 ^ 16
  | .uint32, .unsigned v => v < 2 ^ 32
  | .uint64, .unsigned v => v < 2 ^ 64
  | .float32, .float32 _ => True
  | .float64, .float64 _ => True
  | .decimal128 _ _, .decimal v => InSigned 128 v
  -- offsets are `i32` or `i64`, the length in a view is `u32`
  | .utf8, .text v => v.utf8ByteSize < 2 ^ 31
  | .largeUtf8, .text v => v.utf8ByteSize < 2 ^ 63
  | .utf8View, .text v => v.utf8ByteSize < 2 ^ 32
  | .binary, .binary v => v.length < 2 ^ 31
  | .largeBinary, .binary v => v.length < 2 ^ 63
  | .binaryView, .binary v => v.length < 2 ^ 32
  | _, _ => False

/-- The types whose cells are scalars. -/
def DataType.isScalar : DataType → Bool
  | .boolean | .int8 | .int16 | .int32 | .int64 | .uint8 | .uint16 | .uint32 | .uint64
  | .float32 | .float64 | .timestamp _ _ | .date32 | .date64 | .decimal128 _ _
  | .utf8 | .largeUtf8 | .utf8View | .binary | .largeBinary | .binaryView => true
  | _ => false

mutual

/-- The cells of a non-null value of the type. -/
def DataType.Admits : DataType → Value → Prop
  | .list field, .sequence items | .largeList field, .sequence items
  | .map field _, .sequence items => ∀ item ∈ items, field.AdmitsCell item
  | .fixedSizeList field length, .sequence items =>
      items.length = length ∧ ∀ item ∈ items, field.AdmitsCell item
  | .struct fields, .record cells => fields.AdmitCells cells
  | dataType, .scalar value => dataType.AdmitsScalar value
  | .list _, .raw _ | .largeList _, .raw _ | .map _ _, .raw _ | .fixedSizeList _ _, .raw _
  | .struct _, .raw _ => False
  | dataType, .raw _ => dataType.isScalar = false
  | _, _ => False

/-- A cell of the field, null or not. -/
def Field.AdmitsCell : Field → Option Value → Prop
  | .mk _ dataType nullable _, none => nullable = true ∧ dataType.hasValidity = true
  | .mk _ dataType _ _, some value => dataType.Admits value

def Fields.AdmitCells : Fields → List (Option Value) → Prop
  | .nil, [] => True
  | .cons field rest, cell :: cells => field.AdmitsCell cell ∧ rest.AdmitCells cells
  | _, _ => False

end

/-- An array: its cells all belong to the field it is a column of. -/
structure ArrowArray where
  field : Field
  cells : List (Option Value)
  typed : ∀ cell ∈ cells, field.AdmitsCell cell

namespace ArrowArray

def dataType (array : ArrowArray) : DataType := array.field.dataType

def length (array : ArrowArray) : ℕ := array.cells.length

/-- The number of nulls in the validity bitmap. -/
def nullCount (array : ArrowArray) : ℕ := (array.cells.filter Option.isNone).length

end ArrowArray

/-- A record batch: one array per field of its schema, all of one length. -/
structure RecordBatch where
  schema : Schema
  rows : ℕ
  columns : List ArrowArray
  fields_eq : columns.map ArrowArray.field = schema.fields
  lengths_eq : ∀ array ∈ columns, array.length = rows

/-- A batch with one column. -/
def RecordBatch.ofColumn (array : ArrowArray) : RecordBatch where
  schema := { fields := [array.field], metadata := [] }
  rows := array.length
  columns := [array]
  fields_eq := rfl
  lengths_eq := by simp

/-- A nullable column of 64-bit integers. -/
def ArrowArray.ofInt64 (name : String) (values : List (Option Int64)) : ArrowArray where
  field := .mk name .int64 true []
  cells := values.map fun value => value.map fun value => .scalar (.signed value.toInt)
  typed := by
    intro cell hcell
    obtain ⟨value, -, rfl⟩ := List.mem_map.mp hcell
    cases value with
    | none => exact ⟨rfl, rfl⟩
    | some value => exact ⟨value.le_toInt, value.toInt_lt⟩

/-- A nullable column of texts. -/
def ArrowArray.ofUtf8 (name : String)
    (texts : List (Option { text : String // text.utf8ByteSize < 2 ^ 31 })) : ArrowArray where
  field := .mk name .utf8 true []
  cells := texts.map fun text => text.map fun text => .scalar (.text text.val)
  typed := by
    intro cell hcell
    obtain ⟨text, -, rfl⟩ := List.mem_map.mp hcell
    cases text with
    | none => exact ⟨rfl, rfl⟩
    | some text => exact text.property

/-- A batch with columns of one length. -/
def RecordBatch.ofColumns (rows : ℕ) (columns : List ArrowArray)
    (hlength : ∀ array ∈ columns, array.length = rows) : RecordBatch where
  schema := { fields := columns.map ArrowArray.field, metadata := [] }
  rows := rows
  columns := columns
  fields_eq := rfl
  lengths_eq := hlength

/-- A stream of record batches that declares a schema.  Its source may fail at any item, with a
message, and nothing but the caller's care makes the batches have the schema. -/
structure BatchReader where
  schema : Schema
  items : List (Except String RecordBatch)

end ProofFrame
