import ProofFrame.Evidence.TaggedDigest
import ProofFrame.Execution.Resource
import ProofFrame.JsonText

/-!
# Evidence

The evidence of one completed check, the document it is written as, and the
claims it has to be consistent about.
-/

namespace ProofFrame

open Lib Lib.Run

/-! ## Parts of the documents -/

def FingerprintVersion.name : FingerprintVersion → String
  | .v1 => "v1"
  | .v2 => "v2"

def FingerprintVersion.named : String → Option FingerprintVersion
  | "v1" => some .v1
  | "v2" => some .v2
  | _ => none

/-- A `[u8; 32]`. -/
def Digest.toJson (digest : Digest) : Json :=
  .array (digest.val.map fun byte => .unsigned byte.toNat)

def Digest.ofJson (json : Json) : Option Digest := do
  let bytes ← Serde.list Serde.u8 json
  if h : bytes.length = 32 then some ⟨bytes, h⟩ else none

/-- The limits a program can hold: each one fits a machine word. -/
def ResourceLimits.Fits (limits : ResourceLimits) : Prop :=
  limits.maxMemoryBytes < 2 ^ 64 ∧ limits.maxTempBytes < 2 ^ 64 ∧
    limits.maxOutputRecords < 2 ^ 64 ∧ limits.maxSamples < 2 ^ 64

instance : DecidablePred ResourceLimits.Fits := fun limits => by
  unfold ResourceLimits.Fits
  infer_instance

abbrev HeldLimits : Type := { limits : ResourceLimits // limits.Fits }

def ResourceLimits.toJson (limits : ResourceLimits) : Json := .object [
  ("max_memory_bytes", .unsigned limits.maxMemoryBytes),
  ("max_temp_bytes", .unsigned limits.maxTempBytes),
  ("max_output_records", .unsigned limits.maxOutputRecords),
  ("max_samples", .unsigned limits.maxSamples)]

namespace HeldLimits

def toJson (limits : HeldLimits) : Json := limits.val.toJson

def ofJson (json : Json) : Option HeldLimits := do
  let field ← Serde.fields true
    ["max_memory_bytes", "max_temp_bytes", "max_output_records", "max_samples"] json
  let maxMemoryBytes ← Serde.required Serde.u64 (field "max_memory_bytes")
  let maxTempBytes ← Serde.required Serde.u64 (field "max_temp_bytes")
  let maxOutputRecords ← Serde.required Serde.u64 (field "max_output_records")
  let maxSamples ← Serde.required Serde.u64 (field "max_samples")
  some ⟨{ maxMemoryBytes := maxMemoryBytes.toNat, maxTempBytes := maxTempBytes.toNat
          maxOutputRecords := maxOutputRecords.toNat, maxSamples := maxSamples.toNat },
    maxMemoryBytes.toNat_lt, maxTempBytes.toNat_lt, maxOutputRecords.toNat_lt,
    maxSamples.toNat_lt⟩

end HeldLimits

/-! ## Evidence of a check -/

inductive EvidenceSchema where
  | v2
  deriving DecidableEq

def EvidenceSchema.name : EvidenceSchema → String
  | .v2 => "proofframe.evidence.v2"

def EvidenceSchema.named : String → Option EvidenceSchema
  | "proofframe.evidence.v2" => some .v2
  | _ => none

structure DatasetEvidence where
  fingerprintVersion : FingerprintVersion
  fingerprintDigest : Digest
  rows : UInt64
  deriving DecidableEq

structure EngineEvidence where
  name : String
  version : String
  deriving DecidableEq

structure ExecutionEvidence where
  operation : String
  resources : HeldLimits
  deriving DecidableEq

structure ResultEvidence where
  valid : Bool
  violationCount : UInt64
  outputRecords : UInt64
  truncated : Bool
  resultDigest : String
  reportDigest : String
  findingsDigest : String
  metricsDigest : String
  deriving DecidableEq

structure EvidenceV2 where
  schema : EvidenceSchema
  dataset : DatasetEvidence
  contractSourceDigest : String
  compiledPlanDigest : String
  schemaDigest : String
  engine : EngineEvidence
  execution : ExecutionEvidence
  result : ResultEvidence
  deriving DecidableEq

namespace DatasetEvidence

def toJson (dataset : DatasetEvidence) : Json := .object [
  ("fingerprint_version", .string dataset.fingerprintVersion.name),
  ("fingerprint_digest", dataset.fingerprintDigest.toJson),
  ("rows", .unsigned dataset.rows.toNat)]

def ofJson (json : Json) : Option DatasetEvidence := do
  let field ← Serde.fields true ["fingerprint_version", "fingerprint_digest", "rows"] json
  let fingerprintVersion ←
    Serde.required (Serde.variant FingerprintVersion.named) (field "fingerprint_version")
  let fingerprintDigest ← Serde.required Digest.ofJson (field "fingerprint_digest")
  let rows ← Serde.required Serde.u64 (field "rows")
  some { fingerprintVersion, fingerprintDigest, rows }

end DatasetEvidence

namespace EngineEvidence

def toJson (engine : EngineEvidence) : Json :=
  .object [("name", .string engine.name), ("version", .string engine.version)]

def ofJson (json : Json) : Option EngineEvidence := do
  let field ← Serde.fields true ["name", "version"] json
  let name ← Serde.required Serde.string (field "name")
  let version ← Serde.required Serde.string (field "version")
  some { name, version }

end EngineEvidence

namespace ExecutionEvidence

def toJson (execution : ExecutionEvidence) : Json := .object [
  ("operation", .string execution.operation), ("resources", execution.resources.toJson)]

def ofJson (json : Json) : Option ExecutionEvidence := do
  let field ← Serde.fields true ["operation", "resources"] json
  let operation ← Serde.required Serde.string (field "operation")
  let resources ← Serde.required HeldLimits.ofJson (field "resources")
  some { operation, resources }

end ExecutionEvidence

namespace ResultEvidence

def toJson (result : ResultEvidence) : Json := .object [
  ("valid", .bool result.valid),
  ("violation_count", .unsigned result.violationCount.toNat),
  ("output_records", .unsigned result.outputRecords.toNat),
  ("truncated", .bool result.truncated),
  ("result_digest", .string result.resultDigest),
  ("report_digest", .string result.reportDigest),
  ("findings_digest", .string result.findingsDigest),
  ("metrics_digest", .string result.metricsDigest)]

def ofJson (json : Json) : Option ResultEvidence := do
  let field ← Serde.fields true ["valid", "violation_count", "output_records", "truncated",
    "result_digest", "report_digest", "findings_digest", "metrics_digest"] json
  let valid ← Serde.required Serde.bool (field "valid")
  let violationCount ← Serde.required Serde.u64 (field "violation_count")
  let outputRecords ← Serde.required Serde.u64 (field "output_records")
  let truncated ← Serde.required Serde.bool (field "truncated")
  let resultDigest ← Serde.required Serde.string (field "result_digest")
  let reportDigest ← Serde.required Serde.string (field "report_digest")
  let findingsDigest ← Serde.required Serde.string (field "findings_digest")
  let metricsDigest ← Serde.required Serde.string (field "metrics_digest")
  some { valid, violationCount, outputRecords, truncated, resultDigest, reportDigest
         findingsDigest, metricsDigest }

end ResultEvidence

namespace EvidenceV2

def toJson (evidence : EvidenceV2) : Json := .object [
  ("schema", .string evidence.schema.name),
  ("dataset", evidence.dataset.toJson),
  ("contract_source_digest", .string evidence.contractSourceDigest),
  ("compiled_plan_digest", .string evidence.compiledPlanDigest),
  ("schema_digest", .string evidence.schemaDigest),
  ("engine", evidence.engine.toJson),
  ("execution", evidence.execution.toJson),
  ("result", evidence.result.toJson)]

def ofJson (json : Json) : Option EvidenceV2 := do
  let field ← Serde.fields true ["schema", "dataset", "contract_source_digest",
    "compiled_plan_digest", "schema_digest", "engine", "execution", "result"] json
  let schema ← Serde.required (Serde.variant EvidenceSchema.named) (field "schema")
  let dataset ← Serde.required DatasetEvidence.ofJson (field "dataset")
  let contractSourceDigest ← Serde.required Serde.string (field "contract_source_digest")
  let compiledPlanDigest ← Serde.required Serde.string (field "compiled_plan_digest")
  let schemaDigest ← Serde.required Serde.string (field "schema_digest")
  let engine ← Serde.required EngineEvidence.ofJson (field "engine")
  let execution ← Serde.required ExecutionEvidence.ofJson (field "execution")
  let result ← Serde.required ResultEvidence.ofJson (field "result")
  some { schema, dataset, contractSourceDigest, compiledPlanDigest, schemaDigest, engine
         execution, result }

/-! ## Consistency -/

/-- `char::is_whitespace`. -/
def isWhitespace (c : Char) : Bool :=
  let code := c.toNat
  (9 ≤ code && code ≤ 13) || (0x2000 ≤ code && code ≤ 0x200A) ||
    [0x20, 0x85, 0xA0, 0x1680, 0x2028, 0x2029, 0x202F, 0x205F, 0x3000].contains code

/-- Reject evidence whose claims are inconsistent. -/
def validate (evidence : EvidenceV2) : Except Fault Unit := do
  rejectIf (evidence.dataset.fingerprintVersion ≠ .v2)
    (invalidEvidence "V2 evidence requires the V2 dataset fingerprint")
  validateTaggedDigestAny evidence.contractSourceDigest ["pf-contract-v1:", "pf-contract-v2:"]
    "contract source"
  validateTaggedDigestAny evidence.compiledPlanDigest ["pf-plan-v1:", "pf-plan-v2:"]
    "compiled plan"
  validateTaggedDigest evidence.schemaDigest "pf-schema-v1:" "schema"
  validateTaggedDigest evidence.result.resultDigest "pf-result-v1:" "validation result"
  validateTaggedDigest evidence.result.reportDigest "pf-report-v1:" "validation report"
  validateTaggedDigest evidence.result.findingsDigest "pf-findings-v1:" "validation findings"
  validateTaggedDigest evidence.result.metricsDigest "pf-metrics-v1:" "validation metrics"
  rejectIf (evidence.engine.name ≠ "proofframe" ∨ evidence.engine.version.toList.all isWhitespace)
    (invalidEvidence "Evidence engine must be `proofframe` with a non-empty version")
  rejectIf (evidence.execution.operation ≠ "check")
    (invalidEvidence "V2 evidence supports only the `check` operation")
  rejectIf (evidence.result.valid ≠ (evidence.result.violationCount == 0))
    (invalidEvidence "Evidence validity must equal a zero violation count")
  rejectIf (evidence.result.violationCount < evidence.result.outputRecords)
    (invalidEvidence "Evidence output records exceed the violation count")
  rejectIf (evidence.execution.resources.val.maxSamples < evidence.result.outputRecords.toNat)
    (invalidEvidence "Evidence output records exceed the configured sample limit")
  rejectIf (evidence.result.truncated ≠
      decide (evidence.result.outputRecords < evidence.result.violationCount))
    (invalidEvidence "Evidence truncation does not match retained output records")

end EvidenceV2

/-! ## Digests of documents -/

section Digests

variable [Crates]

/-- `canonical`. -/
def canonical (json : Json) : Except Fault (List UInt8) :=
  (Crates.canonicalJson json).mapError invalidEvidence

/-- The hash of the canonical bytes of a document behind a domain separator. -/
def canonicalDigest (domain : String) (json : Json) : Except Fault Digest := do
  let bytes ← canonical json
  .ok (Crates.blake3 (domainSeparator domain ++ bytes))

def EvidenceV2.digestUnchecked (evidence : EvidenceV2) : Except Fault Digest :=
  canonicalDigest "proofframe:evidence:v2" evidence.toJson

def EvidenceV2.digest (evidence : EvidenceV2) : Except Fault Digest := do
  evidence.validate
  evidence.digestUnchecked

end Digests

/-! ## Evidence reads back -/

section RoundTrip

variable {view : Json → Json} (hview : Serde.View view)

include hview

theorem Digest.ofJson_view (digest : Digest) : Digest.ofJson (view digest.toJson) = some digest := by
  have hlist : Serde.list Serde.u8 (view (.array (digest.val.map _))) = some digest.val :=
    hview.list_map fun byte _ => hview.u8_value byte
  rw [Digest.toJson, Digest.ofJson, hlist]
  exact dif_pos digest.property

theorem HeldLimits.ofJson_view (limits : HeldLimits) :
    HeldLimits.ofJson (view limits.toJson) = some limits := by
  obtain ⟨limits, hmemory, htemp, houtput, hsamples⟩ := limits
  have hread : ∀ value < 2 ^ 64, Serde.u64 (view (.unsigned value)) = some (UInt64.ofNat value) := by
    intro value hvalue
    rw [Serde.u64, hview.unsigned_value hvalue, Option.map_some]
  rw [HeldLimits.toJson, ResourceLimits.toJson, HeldLimits.ofJson, hview.fields_members]
  · simp only [SortedMap.find_cons, String.reduceEq, ↓reduceIte, Option.map_some,
      Serde.Slot.ofMember_some, Serde.required_value, Option.bind_eq_bind, Option.bind_some,
      hread _ hmemory, hread _ htemp, hread _ houtput, hread _ hsamples,
      UInt64.toNat_ofNat_of_lt' hmemory, UInt64.toNat_ofNat_of_lt' htemp,
      UInt64.toNat_ofNat_of_lt' houtput,
      UInt64.toNat_ofNat_of_lt' hsamples]
  · rfl
  · decide

theorem FingerprintVersion.named_view (version : FingerprintVersion) :
    Serde.variant named (view (.string version.name)) = some version := by
  rw [hview.variant_name]
  cases version <;> rfl

theorem DatasetEvidence.ofJson_view (dataset : DatasetEvidence) :
    ofJson (view dataset.toJson) = some dataset := by
  rw [toJson, ofJson, hview.fields_members]
  · simp only [SortedMap.find_cons, String.reduceEq, ↓reduceIte, Option.map_some,
      Serde.Slot.ofMember_some, Serde.required_value, Option.bind_eq_bind, Option.bind_some,
      hview.u64_value,
      FingerprintVersion.named_view hview, Digest.ofJson_view hview]
  · rfl
  · decide

theorem EngineEvidence.ofJson_view (engine : EngineEvidence) :
    ofJson (view engine.toJson) = some engine := by
  rw [toJson, ofJson, hview.fields_members]
  · simp only [SortedMap.find_cons, String.reduceEq, ↓reduceIte, Option.map_some,
      Serde.Slot.ofMember_some, Serde.required_value, Option.bind_eq_bind, Option.bind_some,
      hview.string_text]
  · rfl
  · decide

theorem ExecutionEvidence.ofJson_view (execution : ExecutionEvidence) :
    ofJson (view execution.toJson) = some execution := by
  rw [toJson, ofJson, hview.fields_members]
  · simp only [SortedMap.find_cons, String.reduceEq, ↓reduceIte, Option.map_some,
      Serde.Slot.ofMember_some, Serde.required_value, Option.bind_eq_bind, Option.bind_some,
      hview.string_text,
      HeldLimits.ofJson_view hview]
  · rfl
  · decide

theorem ResultEvidence.ofJson_view (result : ResultEvidence) :
    ofJson (view result.toJson) = some result := by
  rw [toJson, ofJson, hview.fields_members]
  · simp only [SortedMap.find_cons, String.reduceEq, ↓reduceIte, Option.map_some,
      Serde.Slot.ofMember_some, Serde.required_value, Option.bind_eq_bind, Option.bind_some,
      hview.string_text,
      hview.bool_value, hview.u64_value]
  · rfl
  · decide

theorem EvidenceV2.ofJson_view (evidence : EvidenceV2) :
    ofJson (view evidence.toJson) = some evidence := by
  have hschema : Serde.variant EvidenceSchema.named (view (.string evidence.schema.name)) =
      some evidence.schema := by
    rw [hview.variant_name]
    cases evidence.schema
    rfl
  rw [toJson, ofJson, hview.fields_members]
  · simp only [SortedMap.find_cons, String.reduceEq, ↓reduceIte, Option.map_some,
      Serde.Slot.ofMember_some, Serde.required_value, Option.bind_eq_bind, Option.bind_some,
      hview.string_text, hschema,
      DatasetEvidence.ofJson_view hview, EngineEvidence.ofJson_view hview,
      ExecutionEvidence.ofJson_view hview, ResultEvidence.ofJson_view hview]
  · rfl
  · decide

end RoundTrip

/-! ## What a parser can follow -/

section Readable

variable {kept : String → Bool} (hkept : ∀ value : ℕ, kept value.repr = true)

include hkept

theorem Digest.readable (digest : Digest) : digest.toJson.Readable kept 1 :=
  .array (List.forall_mem_map.mpr fun byte _ => .unsigned hkept byte.toNat)

theorem HeldLimits.readable (limits : HeldLimits) : limits.toJson.Readable kept 1 :=
  .object rfl (by simp [Json.Readable.unsigned hkept])

theorem DatasetEvidence.readable (dataset : DatasetEvidence) : dataset.toJson.Readable kept 2 :=
  .object rfl (by
    simp [Json.Readable.string, Json.Readable.unsigned hkept, Digest.readable hkept])

omit hkept in
theorem EngineEvidence.readable (engine : EngineEvidence) : engine.toJson.Readable kept 1 :=
  .object rfl (by simp [Json.Readable.string])

theorem ExecutionEvidence.readable (execution : ExecutionEvidence) :
    execution.toJson.Readable kept 2 :=
  .object rfl (by simp [Json.Readable.string, HeldLimits.readable hkept])

theorem ResultEvidence.readable (result : ResultEvidence) : result.toJson.Readable kept 1 :=
  .object rfl (by
    simp [Json.Readable.string, Json.Readable.bool, Json.Readable.unsigned hkept])

theorem EvidenceV2.readable (evidence : EvidenceV2) : evidence.toJson.Readable kept 3 :=
  .object rfl (by
    simp [Json.Readable.string, DatasetEvidence.readable hkept, ExecutionEvidence.readable hkept,
      (EngineEvidence.readable _).mono (Nat.le_succ 1),
      (ResultEvidence.readable hkept _).mono (Nat.le_succ 1)])

end Readable

end ProofFrame
