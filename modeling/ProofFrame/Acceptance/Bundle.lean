import ProofFrame.Evidence.Report
import ProofFrame.Execution.Counts
import ProofFrame.Python.Value

/-!
# Acceptance of a file

A file is scanned once, the completed report is decided under a policy, and the
decision is bound into a bundle with the contract, the settings it was read with,
the report and the evidence.  A scan that could not complete is `unknown`.
-/

namespace ProofFrame.Acceptance

open Lib Lib.Run
open PyValue (update hasKeys setItem setDefault sortKeys sortedMembers membersFinite encode
  decodeText)

def policyVersion : String := "proofframe.acceptance-policy.v1"

def bundleVersion : String := "proofframe.acceptance.v1"

/-! ## Policies -/

structure Policy where
  maxViolations : ℕ
  minimumEvaluated : List (String × ℕ)

def Policy.toPy (policy : Policy) : PyValue := .dict [
  ("max_violations", .int policy.maxViolations),
  ("minimum_evaluated", .dict (policy.minimumEvaluated.map fun entry => (entry.1, .int entry.2))),
  ("version", .str policyVersion)]

/-- A non-negative integer that is not a `bool`. -/
def nonNegative : PyValue → Except PyError ℕ
  | .int value => if value < 0 then .error .value else .ok value.toNat
  | _ => .error .value

/-- `_policy`. -/
def readPolicy (value : Option (List (String × PyValue))) : Except PyError Policy := do
  let result := update
    [("version", .str policyVersion), ("max_violations", .int 0), ("minimum_evaluated", .dict [])]
    (value.getD [])
  rejectIf (!hasKeys result ["version", "max_violations", "minimum_evaluated"]) .value
  let version ← (PyValue.dict result).getItem "version"
  rejectIf (!version.equals policyVersion) .value
  let maxViolations ← (PyValue.dict result).getItem "max_violations" >>= nonNegative
  match ← (PyValue.dict result).getItem "minimum_evaluated" with
  | .dict items => do
      let minimumEvaluated ← items.mapM fun item =>
        (nonNegative item.2).map fun minimum => (item.1, minimum)
      .ok { maxViolations, minimumEvaluated := sortKeys minimumEvaluated }
  | _ => .error .value

/-! ## What is read -/

/-- What `check_with_evidence` returns.  The report counts in machine words, one count for each
evaluated column. -/
structure Checked where
  report : FastValidationReport
  contractSourceDigest : String
  evidence : EvidenceV2
  paired : report.evaluatedColumns.length = report.evaluatedIndices.length
  words : report.rows < 2 ^ 64 ∧ report.violationCount < 2 ^ 64 ∧
    (∀ count ∈ report.evaluatedColumns, count < 2 ^ 64) ∧
    ∀ index ∈ report.evaluatedIndices, index < 2 ^ 64

/-- The runs of the engine complete scans. -/
def Checked.ofRun {ω : Type} [Host ω] [Crates] {reader : BatchReader} {plan : CompiledContract}
    {options : ExecutionOptions} {references : ReferenceBindings} {world last : ω}
    {report : FastValidationReport} {fingerprint : Option Fingerprint}
    (h : executeReaderInner reader plan options true references world =
      .ok ((report, fingerprint), last))
    (words : report.rows < 2 ^ 64 ∧ report.violationCount < 2 ^ 64 ∧
      (∀ count ∈ report.evaluatedColumns, count < 2 ^ 64) ∧
      ∀ index ∈ report.evaluatedIndices, index < 2 ^ 64)
    (contractSourceDigest : String) (evidence : EvidenceV2) : Checked :=
  { report, contractSourceDigest, evidence, paired := length_evaluatedColumns h, words }

/-- An open reader: the names of its schema, and the scan of it under a contract. -/
structure Reader where
  names : List String
  checkWithEvidence : PyValue → Except PyError Checked

/-- A file to accept. -/
structure SourceFile where
  /-- The suffix, in lower case. -/
  suffix : String
  /-- `_open` with the settings. -/
  opened : PyValue → Except PyError Reader

/-- Where a bundle goes. -/
structure OutputFile where
  lexists : Bool
  /-- `_write_new` of the bytes. -/
  writeNew : List UInt8 → Except PyError Unit

structure Request where
  file : SourceFile
  contract : List (String × PyValue)
  policy : Option (List (String × PyValue))
  csvOptions : Option (List (String × PyValue))
  output : Option OutputFile
  privateKey : Option String
  maxOutputBytes : ℤ

/-- `contract`, with its version. -/
def readContract (contract : List (String × PyValue)) : Except PyError PyValue := do
  rejectIf (membersFinite contract = false) .value
  .ok (.dict (setDefault "version" (.str "proofframe.contract.v1")
    (sortKeys (sortedMembers contract))))

/-! ## Decisions -/

inductive Status where
  | accepted
  | rejected
  | unknown
  deriving DecidableEq

def Status.name : Status → String
  | .accepted => "accepted"
  | .rejected => "rejected"
  | .unknown => "unknown"

structure Decision where
  status : Status
  reasons : List String
  evaluated : List (String × ℕ)

def Decision.toPy (decision : Decision) : PyValue := .dict [
  ("status", .str decision.status.name),
  ("reasons", .list (decision.reasons.map .str)),
  ("evaluated", .dict (decision.evaluated.map fun entry => (entry.1, .int entry.2)))]

/-- Take the next evaluated column over under its name. -/
def nameEvaluated (names : List String) (evaluated : List (String × ℕ)) (pair : ℕ × ℕ) :
    Except PyError (List (String × ℕ)) := do
  let name ← required names[pair.1]? .index
  .ok (setItem name pair.2 evaluated)

/-- What a policy holds against a report. -/
def reasonsAgainst (policy : Policy) (violationCount : ℕ) (evaluated : List (String × ℕ)) :
    List String :=
  (if policy.maxViolations < violationCount then ["violation_limit_exceeded"] else []) ++
    (policy.minimumEvaluated.filter fun entry =>
      !(SortedMap.find entry.1 evaluated).any fun count => entry.2 ≤ count).map
      fun entry => "minimum_evaluated:" ++ entry.1

/-- `_decide`. -/
def decideReport (report : FastValidationReport) (names : List String) (policy : Policy) :
    Except PyError Decision := do
  let evaluated ←
    (report.evaluatedIndices.zip report.evaluatedColumns).foldlM (nameEvaluated names) []
  let reasons := reasonsAgainst policy report.violationCount evaluated
  .ok { status := if reasons.isEmpty then .accepted else .rejected, reasons, evaluated }

/-! ## Bundles -/

/-- The report and the evidence of a completed scan. -/
structure Scanned where
  report : PyValue
  evidence : PyValue

structure Payload where
  contract : PyValue
  contractId : String
  policy : Policy
  policyId : String
  readSettings : PyValue
  readSettingsId : String
  decision : Decision
  scanned : Option Scanned

def Payload.toPy (payload : Payload) : PyValue := .dict [
  ("version", .str bundleVersion),
  ("contract", payload.contract),
  ("contract_id", .str payload.contractId),
  ("policy", payload.policy.toPy),
  ("policy_id", .str payload.policyId),
  ("read_settings", payload.readSettings),
  ("read_settings_id", .str payload.readSettingsId),
  ("decision", payload.decision.toPy),
  ("report", match payload.scanned with
    | some scanned => scanned.report
    | none => .none),
  ("evidence", match payload.scanned with
    | some scanned => scanned.evidence
    | none => .none)]

structure BundleSignature where
  publicKey : String
  value : String

def BundleSignature.toPy (signature : BundleSignature) : PyValue := .dict [
  ("algorithm", .str "Ed25519"),
  ("public_key", .str signature.publicKey),
  ("value", .str signature.value)]

structure Bundle where
  payload : Payload
  sha256 : String
  signature : Option BundleSignature

def Bundle.toPy (bundle : Bundle) : PyValue := .dict [
  ("payload", bundle.payload.toPy),
  ("sha256", .str bundle.sha256),
  ("signature", match bundle.signature with
    | some signature => signature.toPy
    | none => .none)]

section Libraries

variable [PyLibraries]

/-- `_csv_options`: the settings, and the ones they are recorded as. -/
def csvSettings (value : Option (List (String × PyValue))) :
    Except PyError (PyValue × PyValue) := do
  let settings := update
    [("delimiter", .str ","), ("encoding", .str "utf8"), ("decimal_point", .str "."),
      ("column_types", .dict []), ("null_values", .list (PyLibraries.nullValues.map .str))]
    (value.getD [])
  rejectIf (!hasKeys settings
    ["delimiter", "encoding", "decimal_point", "column_types", "null_values"]) .value
  rejectIf (membersFinite settings = false) .value
  let settings := sortKeys (sortedMembers settings)
  match PyLibraries.csvOptionsError (.dict settings) with
  | some e => .error e
  | none => .ok (.dict settings, .dict (update settings
      [("block_size", .int (2 ^ 20)), ("strings_can_be_null", .bool true)]))

/-- `_read_plan`. -/
def readPlan (file : SourceFile) (csvOptions : Option (List (String × PyValue))) :
    Except PyError (PyValue × PyValue) := do
  rejectIf (file.suffix ≠ ".csv" ∧ file.suffix ≠ ".parquet") .value
  rejectIf (file.suffix = ".parquet" ∧ csvOptions.isSome) .value
  csvSettings csvOptions

def readSettings (file : SourceFile) (settings : PyValue) : PyValue := .dict [
  ("format", .str (String.ofList (file.suffix.toList.drop 1))),
  ("csv", if file.suffix = ".csv" then settings else .none)]

/-- The `try` block of `_scan`. -/
def scanReader (file : SourceFile) (contract settings : PyValue) (policy : Policy) :
    Except PyError (Scanned × Decision) := do
  let reader ← file.opened settings
  rejectIf (¬reader.names.Nodup) .value
  let checked ← reader.checkWithEvidence contract
  let report ← valueToPython (checked.report.withSource checked.contractSourceDigest)
  let evidence ← valueToPython checked.evidence.toJson.toValue
  let decision ← decideReport checked.report reader.names policy
  .ok (⟨report, evidence⟩, decision)

/-- `_scan`. -/
def scan (file : SourceFile) (contract settings : PyValue) (policy : Policy) :
    Except PyError (Option Scanned × Decision) :=
  match scanReader file contract settings policy with
  | .ok (scanned, decision) => .ok (some scanned, decision)
  | .error (.operational name) => .ok (none, { status := .unknown, reasons := [name], evaluated := [] })
  | .error e => .error e

/-- The key that `Ed25519PrivateKey.from_private_bytes` makes of a text. -/
def readPrivateKey (text : String) : Except PyError (List UInt8) := do
  let secret ← decodeText text
  rejectIf (secret.length ≠ 32) .value
  .ok secret

def signPayload (payload : Payload) (privateKey : String) : Except PyError BundleSignature := do
  let secret ← readPrivateKey privateKey
  let message ← payload.toPy.canonical
  .ok { publicKey := encode (PyLibraries.publicKey secret)
        value := encode (PyLibraries.sign secret message) }

def signWith (payload : Payload) : Option String → Except PyError (Option BundleSignature)
  | some privateKey => some <$> signPayload payload privateKey
  | none => .ok none

def writeTo : Option OutputFile → List UInt8 → Except PyError Unit
  | some output, bytes => output.writeNew bytes
  | none, _ => .ok ()

def acceptFile (request : Request) : Except PyError Bundle := do
  rejectIf (request.maxOutputBytes ≤ 0) .value
  let policy ← readPolicy request.policy
  let contract ← readContract request.contract
  let (settings, recorded) ← readPlan request.file request.csvOptions
  let readSettings := readSettings request.file recorded
  rejectIf (request.output.any OutputFile.lexists) (.operational "FileExistsError")
  let (scanned, decision) ← scan request.file contract settings policy
  let contractId ← contract.digest
  let policyId ← policy.toPy.digest
  let readSettingsId ← readSettings.digest
  let payload : Payload :=
    { contract, contractId, policy, policyId, readSettings, readSettingsId, decision, scanned }
  let sha256 ← payload.toPy.digest
  let signature ← signWith payload request.privateKey
  let bundle : Bundle := { payload, sha256, signature }
  let bytes ← bundle.toPy.canonical
  rejectIf (request.maxOutputBytes < bytes.length) (.operational "ResourceLimitError")
  writeTo request.output bytes
  .ok bundle

end Libraries

end ProofFrame.Acceptance
