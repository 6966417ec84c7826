import ProofFrame.Diff.Rows
import ProofFrame.Lib.SortedMap
import ProofFrame.Pii.Detector
import ProofFrame.Receipt.Trust

/-!
# Scanning for personal data

`scan_pii_reader_with_options` classifies every cell of a dataset.  It counts what it
finds and keeps the first findings, in which a value is replaced by its fingerprint
under a key: one the caller manages, or one that lasts for the scan.
-/

namespace ProofFrame

open Lib Lib.Run

class PiiCrates extends Diff.DiffCrates where
  /-- `blake3::keyed_hash`. -/
  keyedHash : KeyBytes → List UInt8 → Digest

/-! ## Fingerprints -/

inductive PiiFingerprintMode where
  | stable | unlinkable
  deriving DecidableEq, Repr

structure PiiFingerprintOptions where
  mode : PiiFingerprintMode
  key : KeyBytes
  keyId : String

def PiiFingerprintOptions.stable (key : KeyBytes) (keyId : String) :
    Except Fault PiiFingerprintOptions := do
  rejectIf ((trim keyId).isEmpty)
    (.error (.invalidContract "stable PII fingerprints require a non-empty key_id"))
  .ok { mode := .stable, key, keyId }

def PiiFingerprintOptions.stableBase64 [Base64] (key keyId : String) :
    Except Fault PiiFingerprintOptions := do
  let malformed : Fault :=
    .error (.invalidContract "stable PII fingerprint_key must encode exactly 32 bytes")
  match Base64.decode key with
  | .error _ => .error malformed
  | .ok bytes =>
      if hlength : bytes.length = 32 then PiiFingerprintOptions.stable ⟨bytes, hlength⟩ keyId
      else .error malformed

section Scan

variable [PiiCrates]

/-- Options with a key from the system's source of randomness, which may fail. -/
def PiiFingerprintOptions.unlinkable (random : Except String KeyBytes) :
    Except Fault PiiFingerprintOptions :=
  match random with
  | .error message => .error (.error (.invalidContract message))
  | .ok key =>
      let identifier := PiiCrates.keyedHash key (domainSeparator "proofframe:pii-key-id:v2")
      .ok { mode := .unlinkable, key
            keyId := "run:" ++ String.ofList (identifier.toHex.toList.take 16) }

def privacyFingerprint (key : KeyBytes) (value : String) : String :=
  "pf-pii-v2:" ++ (PiiCrates.keyedHash key
    (domainSeparator "proofframe:privacy:v2" ++ utf8Bytes value)).toHex

/-! ## The report -/

structure PiiFinding where
  kind : PiiKind
  confidence : Confidence
  column : String
  row : ℕ
  valueFingerprint : String
  deriving DecidableEq, Repr

structure PiiReport where
  detected : Bool
  scannedRows : ℕ
  findingCount : ℕ
  countsByKind : List (String × ℕ)
  truncated : Bool
  findings : List PiiFinding
  fingerprintMode : PiiFingerprintMode
  keyId : String
  deriving DecidableEq, Repr

/-! ## The scan -/

/-- `is_numeric_array`. -/
def DataType.isNumericArray : DataType → Bool
  | .int8 | .int16 | .int32 | .int64 | .uint8 | .uint16 | .uint32 | .uint64 | .float32
  | .float64 => true
  | _ => false

/-- The text a cell is classified by. -/
def scannedText (dataType : DataType) (value : Value) : Except Fault String :=
  match dataType, value with
  | .utf8, .scalar (.text text) | .largeUtf8, .scalar (.text text) => .ok text
  | _, _ => Diff.valueForRules dataType value

/-- What the scan has seen. -/
structure PiiScan where
  findings : List PiiFinding
  counts : List (String × ℕ)
  scannedRows : ℕ
  totalFindings : ℕ

def piiSchemaChanged : Fault :=
  .error (.schemaMismatch "record batch schema changed during PII scanning")

variable (schema : Schema) (detector : Detector) (maxFindings : ℕ) (key : KeyBytes)

/-- Count a match, and keep a finding of it while there are few. -/
def PiiScan.record (scan : PiiScan) (found : Match) (text : String) (row column : ℕ) :
    Except Fault PiiScan := do
  let counted := { scan with
    totalFindings := scan.totalFindings + 1
    counts := SortedMap.upsert found.kind.label (fun count => count.getD 0 + 1) scan.counts }
  if counted.findings.length < maxFindings then
    let field ← required schema.fields[column]? outOfBounds
    .ok { counted with
      findings := counted.findings ++ [{
        kind := found.kind
        confidence := found.confidence
        column := field.name
        row := scan.scannedRows + row
        valueFingerprint := privacyFingerprint key text }] }
  else .ok counted

/-- The turn of a cell. -/
def scanPiiCell (row : ℕ) (scan : PiiScan) (entry : ArrowArray × ℕ) : Except Fault PiiScan := do
  match ← entry.1.cell row with
  | none => .ok scan
  | some value =>
      let text ← scannedText entry.1.dataType value
      match ← detector.classifyCell text entry.1.dataType.isNumericArray with
      | none => .ok scan
      | some found => scan.record schema maxFindings key found text row entry.2

def scanPiiBatch (scan : PiiScan) (item : Except String RecordBatch) : Except Fault PiiScan := do
  let batch ← arrowItem item
  rejectIf (batch.schema ≠ schema) piiSchemaChanged
  let scan ← (List.range batch.rows).foldlM (fun scan row =>
    batch.columns.zipIdx.foldlM (scanPiiCell schema detector maxFindings key row) scan) scan
  .ok { scan with scannedRows := scan.scannedRows + batch.rows }

end Scan

variable [PiiCrates]

/-- `scan_pii_reader_with_options`. -/
def scanPiiReaderWithOptions (reader : BatchReader) (maxFindings : ℕ)
    (fingerprint : PiiFingerprintOptions) : Except Fault PiiReport := do
  let detector ← detector
  let scan ← reader.items.foldlM (scanPiiBatch reader.schema detector maxFindings fingerprint.key)
    { findings := [], counts := [], scannedRows := 0, totalFindings := 0 }
  .ok { detected := 0 < scan.totalFindings
        scannedRows := scan.scannedRows
        findingCount := scan.totalFindings
        countsByKind := scan.counts
        truncated := scan.totalFindings > scan.findings.length
        findings := scan.findings
        fingerprintMode := fingerprint.mode
        keyId := fingerprint.keyId }

/-- `scan_pii_reader`, with what the system's source of randomness answers. -/
def scanPiiReader (reader : BatchReader) (maxFindings : ℕ) (random : Except String KeyBytes) :
    Except Fault PiiReport := do
  let fingerprint ← PiiFingerprintOptions.unlinkable random
  scanPiiReaderWithOptions reader maxFindings fingerprint

end ProofFrame
