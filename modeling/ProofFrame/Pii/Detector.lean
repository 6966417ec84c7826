import Mathlib.Data.List.DropRight
import ProofFrame.Contract.Bounds
import ProofFrame.Pii.Checksums

/-!
# The detector of personal data

`Detector::classify_cell` tries one kind after the other and reports the first that a
text is of.  Three of them rest on a pattern, two on a checksum.
-/

namespace ProofFrame

open Lib

/-! ## Kinds -/

inductive PiiKind where
  | email | ipv4 | iban | paymentCard | phone
  deriving DecidableEq, Repr

def PiiKind.label : PiiKind → String
  | .email => "email"
  | .ipv4 => "ipv4"
  | .iban => "iban"
  | .paymentCard => "payment_card"
  | .phone => "phone"

inductive Confidence where
  | high | medium | low
  deriving DecidableEq, Repr

def Confidence.label : Confidence → String
  | .high => "high"
  | .medium => "medium"
  | .low => "low"

structure Match where
  kind : PiiKind
  confidence : Confidence
  deriving DecidableEq, Repr

/-! ## Texts -/

/-- `str::trim`. -/
def trim (value : String) : String :=
  String.ofList ((value.toList.dropWhile isWhiteSpace).rdropWhile isWhiteSpace)

/-- `valid_ipv4`. -/
def validIpv4 (value : String) : Bool :=
  let parts := value.toList.splitOn '.'
  parts.length == 4 && parts.all fun part =>
    !part.isEmpty && (parseUnsigned 8 (String.ofList part)).isSome

/-- `phone_candidate`. -/
def phoneCandidate (value : String) : Bool :=
  let bytes := utf8Bytes value
  decide (8 ≤ bytes.length ∧ bytes.length ≤ 20) &&
    bytes.head?.any (fun byte => byte == 43 || AsciiByte.isDigit byte) &&
    bytes.all fun byte => AsciiByte.isDigit byte || [43, 32, 40, 41, 45].contains byte

/-- `digit_only_confidence`. -/
def digitOnlyConfidence (value : String) (numericColumn : Bool) (confidence : Confidence) :
    Confidence :=
  let digitOnly := value.toList.all Char.isDigit
  if numericColumn && digitOnly then .low else confidence

section Detector

variable [Crates]

/-- The compiled patterns, by their texts. -/
structure Detector where
  email : String
  ipv4 : String
  phone : String

/-- `Regex::new`. -/
def regexNew (pattern : String) : Except String String :=
  match Crates.regexError pattern with
  | none => .ok pattern
  | some message => .error message

def Detector.new : Except String Detector := do
  let email ← regexNew
    "(?i)^[a-z0-9.!#$%&'*+/=?^_`\x7b|\x7d~-]+@[a-z0-9](?:[a-z0-9-]\x7b0,61\x7d[a-z0-9])?(?:\\.[a-z0-9](?:[a-z0-9-]\x7b0,61\x7d[a-z0-9])?)+$"
  let ipv4 ← regexNew "^(?:\\d\x7b1,3\x7d\\.)\x7b3\x7d\\d\x7b1,3\x7d$"
  let phone ← regexNew "^\\+?[0-9][0-9 ()-]\x7b7,19\x7d$"
  .ok { email, ipv4, phone }

/-- `detector`, which expects the patterns to compile. -/
def detector : Except Fault Detector :=
  match Detector.new with
  | .ok detector => .ok detector
  | .error _ => .error (.panic "ProofFrame's built-in PII regular expressions must compile")

/-- An operation left the range of its type. -/
def arithmeticOverflow : Fault := .panic "arithmetic overflow"

/-- `classify_cell`. -/
def Detector.classifyCell (detector : Detector) (value : String) (numericColumn : Bool) :
    Except Fault (Option Match) :=
  let trimmed := trim value
  let bytes := utf8Bytes trimmed
  if bytes.contains 64 && Crates.regexMatch detector.email trimmed then
    .ok (some { kind := .email, confidence := .high })
  else if bytes.contains 46 && bytes.all (fun byte => AsciiByte.isDigit byte || byte == 46) &&
      Crates.regexMatch detector.ipv4 trimmed && validIpv4 trimmed then
    .ok (some { kind := .ipv4, confidence := .high })
  else do
    let iban ← Run.required (validIban trimmed) arithmeticOverflow
    if iban then .ok (some { kind := .iban, confidence := .high })
    else
      let card ← Run.required (luhnFiltered trimmed) arithmeticOverflow
      if card then
        .ok (some { kind := .paymentCard
                    confidence := digitOnlyConfidence trimmed numericColumn .high })
      else if phoneCandidate trimmed && Crates.regexMatch detector.phone trimmed then
        let digitCount := trimmed.toList.countP Char.isDigit
        if 8 ≤ digitCount ∧ digitCount ≤ 15 then
          .ok (some { kind := .phone
                      confidence := digitOnlyConfidence trimmed numericColumn .medium })
        else .ok none
      else .ok none

end Detector

end ProofFrame
