import ProofFrame.Contract.Document
import ProofFrame.Contract.Plan
import ProofFrame.Crates

/-!
# Bounds of a column

A bound keeps its source spelling until the column it bounds is known.  It is then
read as a value of the column's type, without rounding except to a float.
-/

namespace ProofFrame

open Lib Lib.Run Lib.Ieee754

/-! ## Order -/

/-- `TypedBound::compare`, which relates bounds of one type only. -/
def TypedBound.compare : TypedBound → TypedBound → Option Ordering
  | .i64 left, .i64 right => some (Ord.compare left right)
  | .u64 left, .u64 right => some (Ord.compare left right)
  | .f32 left, .f32 right => left.partialCmp right
  | .f64 left, .f64 right => left.partialCmp right
  | .decimal128 left leftScale, .decimal128 right rightScale =>
      if leftScale = rightScale then some (Ord.compare left right) else none
  | .timestamp left leftUnit, .timestamp right rightUnit =>
      if leftUnit = rightUnit then some (Ord.compare left right) else none
  | _, _ => none

/-! ## Integers -/

/-- `str::parse` of the digits of an integer. -/
def parseDigits (digits : List Char) : Option ℕ :=
  if digits ≠ [] ∧ digits.all Char.isDigit then some (Nat.ofDigitChars 10 digits 0) else none

/-- `str::parse` of an integer from `low` up to but not including `high`. -/
def parseInteger (signed : Bool) (low high : ℤ) (text : String) : Option ℤ :=
  let value : Option ℤ := match text.toList with
    | '+' :: digits => (parseDigits digits).map Int.ofNat
    | '-' :: digits => if signed then (parseDigits digits).map fun n : ℕ => -(n : ℤ) else none
    | digits => (parseDigits digits).map Int.ofNat
  value.filter fun value => low ≤ value ∧ value < high

def parseSigned (bits : ℕ) (text : String) : Option ℤ :=
  parseInteger true (-2 ^ (bits - 1)) (2 ^ (bits - 1)) text

def parseUnsigned (bits : ℕ) (text : String) : Option ℤ := parseInteger false 0 (2 ^ bits) text

/-- The value, if it fits in `bits` bits. -/
def checkedSigned (bits : ℕ) (value : ℤ) : Option ℤ :=
  if InSigned bits value then some value else none

/-! ## Dates and timestamps -/

/-- The path and the reason of a bound that is not one. -/
def invalidBound (what text path reason : String) : Fault :=
  contractError .contractInvalidBound s!"Invalid {what} `{text}` at {path}: {reason}" (some path)

def millisecondsPerDay : ℤ := 86400000

section Chrono

variable [Crates]

/-- `iso_days`: the days of a complete calendar date. -/
def isoDays (text : String) : Option ℤ :=
  if text.utf8ByteSize ≠ 10 then none else Crates.parseDate text

/-- The ticks of a second, and the nanoseconds of a tick. -/
def TimeUnit.ticks : TimeUnit → ℤ × ℕ
  | .second => (1, 1000000000)
  | .millisecond => (1000, 1000000)
  | .microsecond => (1000000, 1000)
  | .nanosecond => (1000000000, 1)

def parseTimestamp (source : String) (unit : TimeUnit) (path : String) : Except Fault TypedBound :=
  match parseSigned 64 source with
  | some value => .ok (.timestamp value unit)
  | none => do
      let (seconds, nanoseconds) ← required (Crates.parseRfc3339 source)
        (invalidBound "timestamp bound" source path
          "expected integer ticks or an ISO-8601 timestamp with an explicit UTC offset")
      let (scale, precision) := unit.ticks
      rejectIf (nanoseconds % precision ≠ 0) (invalidBound "timestamp bound" source path
        "fractional precision exceeds the Arrow timestamp unit; rounding is not allowed")
      let value ← required ((checkedSigned 64 (seconds * scale)).bind fun whole =>
          checkedSigned 64 (whole + (nanoseconds / precision : ℕ)))
        (invalidBound "timestamp bound" source path
          "timestamp exceeds the signed Arrow tick range")
      .ok (.timestamp value unit)

end Chrono

/-! ## Decimals -/

/-- White space at the ends of a text, which `trim` removes. -/
def isWhiteSpace (c : Char) : Bool :=
  (9 ≤ c.toNat ∧ c.toNat ≤ 13) || (0x2000 ≤ c.toNat ∧ c.toNat ≤ 0x200A) ||
    [0x20, 0x85, 0xA0, 0x1680, 0x2028, 0x2029, 0x202F, 0x205F, 0x3000].contains c.toNat

def hasOuterSpace (chars : List Char) : Bool :=
  chars.head?.any isWhiteSpace || chars.getLast?.any isWhiteSpace

/-- The integer part and the fraction of an unsigned decimal: digits with at most one point. -/
def splitDecimal (unsigned : List Char) : Option (List Char × List Char) :=
  let (whole, rest) := unsigned.span (· ≠ '.')
  let fraction := rest.drop 1
  if whole = [] ∨ !whole.all Char.isDigit ∨ !fraction.all Char.isDigit then none
  else some (whole, fraction)

/-- `str::parse::<i128>` of digits. -/
def parseI128 (digits : List Char) : Option ℤ :=
  ((parseDigits digits).map Int.ofNat).bind (checkedSigned 128)

/-- The magnitude of a decimal at a scale, or why it has none. -/
def decimalMagnitude (whole fraction : List Char) (scale : ℤ) : Except String ℤ :=
  if 0 ≤ scale then
    let scale := scale.toNat
    if (fraction.drop scale).any (· ≠ '0') then
      .error "fractional digits exceed the Arrow scale"
    else
      let retained := fraction.take scale
      required (parseI128 (whole ++ retained ++ List.replicate (scale - retained.length) '0'))
        "decimal magnitude exceeds i128"
  else do
    rejectIf (fraction.any (· ≠ '0')) "negative-scale decimals cannot contain a fractional value"
    let value ← required (parseI128 whole) "decimal magnitude exceeds i128"
    let divisor ← required (checkedSigned 128 (10 ^ scale.natAbs)) "decimal scale is too large"
    rejectIf (value % divisor ≠ 0) "value is not aligned to the negative Arrow scale"
    .ok (value / divisor)

/-- `decimal_digits`. -/
def decimalDigits (value : ℤ) : ℕ := Nat.log 10 value.natAbs + 1

/-- `parse_decimal`, with the reason where it fails. -/
def parseDecimalChars (source : List Char) (precision : ℕ) (scale : ℤ) : Except String ℤ := do
  rejectIf (source = [] ∨ hasOuterSpace source ∨ source.contains 'e' ∨ source.contains 'E')
    "expected a plain base-10 decimal"
  let (negative, unsigned) := match source with
    | '-' :: rest => (true, rest)
    | '+' :: rest => (false, rest)
    | _ => (false, source)
  rejectIf (unsigned = []) "missing decimal digits"
  let (whole, fraction) ← required (splitDecimal unsigned)
    "expected digits with at most one decimal point"
  let magnitude ← decimalMagnitude whole fraction scale
  let signed := if negative then -magnitude else magnitude
  rejectIf (decimalDigits signed > precision) "value exceeds the Arrow decimal precision"
  .ok signed

def parseDecimal (source : String) (precision : ℕ) (scale : ℤ) (path : String) : Except Fault ℤ :=
  match parseDecimalChars source.toList precision scale with
  | .ok value => .ok value
  | .error reason => .error (invalidBound "decimal bound" source path reason)

/-! ## Floats -/

/-- A finite float, or why there is none. -/
def parseFinite {eb mb : ℕ} (text path reason : String) : Except Fault (Ieee eb mb) := do
  let value ← required (Ieee.parse text) (invalidBound "bound" text path reason)
  rejectIf (!value.isFinite)
    (invalidBound "bound" text path "floating-point bounds must be finite")
  .ok value

/-! ## Bounds -/

variable [Crates]

def integerBound (make : ℤ → TypedBound) (value : Option ℤ) (text path domain : String) :
    Except Fault TypedBound := do
  let value ← required value
    (invalidBound "bound" text path s!"expected an integer in the {domain} domain")
  .ok (make value)

def parseBound (bound : BoundAst) (dataType : DataType) (path : String) :
    Except Fault TypedBound :=
  let text := bound.asText
  let u64 := fun value : ℤ => TypedBound.u64 value.toNat
  match dataType with
  | .int8 => integerBound .i64 (parseSigned 8 text) text path "Int8"
  | .int16 => integerBound .i64 (parseSigned 16 text) text path "Int16"
  | .int32 => integerBound .i64 (parseSigned 32 text) text path "Int32"
  | .int64 => integerBound .i64 (parseSigned 64 text) text path "Int64"
  | .uint8 => integerBound u64 (parseUnsigned 8 text) text path "UInt8"
  | .uint16 => integerBound u64 (parseUnsigned 16 text) text path "UInt16"
  | .uint32 => integerBound u64 (parseUnsigned 32 text) text path "UInt32"
  | .uint64 => integerBound u64 (parseUnsigned 64 text) text path "UInt64"
  | .date32 => TypedBound.i64 <$> required ((parseSigned 32 text).or (isoDays text))
      (invalidBound "bound" text path
        "expected `YYYY-MM-DD` or a day count in the Date32 domain")
  | .date64 => TypedBound.i64 <$> required
      ((parseSigned 64 text).or ((isoDays text).map (· * millisecondsPerDay)))
      (invalidBound "bound" text path
        "expected `YYYY-MM-DD` or a millisecond count in the Date64 domain")
  | .float32 => TypedBound.f32 <$> parseFinite text path "expected a finite 32-bit float"
  | .float64 => TypedBound.f64 <$> parseFinite text path "expected a finite 64-bit float"
  | .decimal128 precision scale =>
      (TypedBound.decimal128 · scale) <$> parseDecimal text precision scale path
  | .timestamp unit _ => parseTimestamp text unit path
  | _ => .error (contractError .contractTypeMismatch
      s!"Bounds are not supported for Arrow type `{Crates.displayType dataType}`" (some path))

end ProofFrame
