import ProofFrame.Execution.Cells
import ProofFrame.Lib.Ascii
import ProofFrame.Lib.Digits

/-!
# Checksums of identifiers

The two detectors that check a sum, over the bytes of a value and in the arithmetic
of the machine: a step that leaves its range has no result.
-/

namespace ProofFrame

open Lib

/-! ## Bytes -/

namespace AsciiByte

def isDigit (byte : UInt8) : Bool := 48 ≤ byte.toNat && byte.toNat ≤ 57

def isAlphabetic (byte : UInt8) : Bool :=
  65 ≤ byte.toNat && byte.toNat ≤ 90 || 97 ≤ byte.toNat && byte.toNat ≤ 122

def isAlphanumeric (byte : UInt8) : Bool := isAlphabetic byte || isDigit byte

/-- `is_ascii_whitespace`, which leaves out the vertical tab. -/
def isWhitespace (byte : UInt8) : Bool := [9, 10, 12, 13, 32].contains byte.toNat

def toUppercase (byte : UInt8) : ℕ :=
  if 97 ≤ byte.toNat ∧ byte.toNat ≤ 122 then byte.toNat - 32 else byte.toNat

end AsciiByte

/-- `str::is_ascii`. -/
def isAscii (value : String) : Bool := value.toList.all fun c => c.toNat < 128

/-- The value, if a `u32` holds it. -/
def checkedU32 (value : ℕ) : Option ℕ := if value < 2 ^ 32 then some value else none

/-- The difference of two bytes, if it is none below zero. -/
def checkedDifference (left right : ℕ) : Option ℕ := if right ≤ left then some (left - right) else none

/-! ## Account numbers -/

/-- `iban_remainder`. -/
def ibanRemainder (remainder : ℕ) (byte : UInt8) : Option ℕ :=
  if AsciiByte.isDigit byte then do
    let digit ← checkedDifference byte.toNat 48
    let scaled ← checkedU32 (remainder * 10)
    let sum ← checkedU32 (scaled + digit)
    some (sum % 97)
  else do
    let letter ← checkedDifference (AsciiByte.toUppercase byte) 65
    let number ← checkedU32 (letter + 10)
    let scaled ← checkedU32 (remainder * 100)
    let sum ← checkedU32 (scaled + number)
    some (sum % 97)

/-- `normalized_len` behind the bytes, unless one of them is out of place. -/
def normalizedLength : List UInt8 → ℕ → Option ℕ
  | [], length => some length
  | byte :: bytes, length =>
      if AsciiByte.isWhitespace byte then normalizedLength bytes length
      else
        let valid :=
          if length ≤ 1 then AsciiByte.isAlphabetic byte
          else if length ≤ 3 then AsciiByte.isDigit byte
          else AsciiByte.isAlphanumeric byte
        if valid then normalizedLength bytes (length + 1) else none

/-- `valid_iban`. -/
def validIban (value : String) : Option Bool :=
  if !isAscii value then some false
  else match normalizedLength (utf8Bytes value) 0 with
    | none => some false
    | some length =>
        if ¬(15 ≤ length ∧ length ≤ 34) then some false
        else do
          let bytes := (utf8Bytes value).filter fun byte => !AsciiByte.isWhitespace byte
          let remainder ← (bytes.drop 4 ++ bytes.take 4).foldlM ibanRemainder 0
          some (remainder == 1)

/-! ## Card numbers -/

/-- One byte of the sum of `luhn_filtered`, from the right. -/
def luhnStep (state : ℕ × Bool) (byte : UInt8) : Option (ℕ × Bool) :=
  if !AsciiByte.isDigit byte then some state
  else do
    let digit ← checkedDifference byte.toNat 48
    let digit ← if state.2 then do
        let twice ← checkedU32 (digit * 2)
        if 9 < twice then checkedDifference twice 9 else some twice
      else some digit
    let sum ← checkedU32 (state.1 + digit)
    some (sum, !state.2)

/-- `luhn_filtered`. -/
def luhnFiltered (value : String) : Option Bool :=
  let bytes := utf8Bytes value
  if ¬(13 ≤ bytes.length ∧ bytes.length ≤ 23) ∨ !isAscii value then some false
  else if !bytes.all fun byte => AsciiByte.isDigit byte || byte.toNat == 32 || byte.toNat == 45 then
    some false
  else
    let digitCount := bytes.countP AsciiByte.isDigit
    if ¬(13 ≤ digitCount ∧ digitCount ≤ 19) then some false
    else do
      let state ← bytes.reverse.foldlM luhnStep (0, false)
      some (state.1 % 10 == 0)

end ProofFrame
