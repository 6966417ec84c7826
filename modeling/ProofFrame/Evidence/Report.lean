import ProofFrame.Evidence.EvidenceV2
import ProofFrame.Execution.Engine

/-!
# Reports as documents

The document of a report, the digests that bind it, and the evidence of a check.
-/

namespace ProofFrame

open Lib Lib.Run

/-! ## The document of a report -/

def Finding.toJson (finding : Finding) : Json := .object [
  ("rule", .string finding.rule),
  ("column", .string finding.column),
  ("row", match finding.row with
    | some row => .unsigned row
    | none => .null),
  ("message", .string finding.message)]

def ExecutionMetrics.toJson (metrics : ExecutionMetrics) : Json := .object [
  ("peak_memory_bytes", .unsigned metrics.peakMemoryBytes),
  ("peak_temp_bytes", .unsigned metrics.peakTempBytes),
  ("spill_bytes", .unsigned metrics.spillBytes),
  ("exact_runs", .unsigned metrics.exactRuns),
  ("capacity_growth_events", .unsigned metrics.capacityGrowthEvents)]

def ReferenceOutcome.toJson (outcome : ReferenceOutcome) : Json := .object [
  ("name", .string outcome.name),
  ("reference", .string outcome.reference),
  ("reference_fingerprint", .string outcome.referenceFingerprint),
  ("reference_rows", .unsigned outcome.referenceRows),
  ("reference_distinct_keys", .unsigned outcome.referenceDistinctKeys),
  ("checked_distinct_keys", .unsigned outcome.checkedDistinctKeys),
  ("missing_distinct_keys", .unsigned outcome.missingDistinctKeys)]

namespace FastValidationReport

def members (report : FastValidationReport) : List (String × Json) := [
  ("valid", .bool report.valid),
  ("violation_count", .unsigned report.violationCount),
  ("truncated", .bool report.truncated),
  ("findings", .array (report.findings.map Finding.toJson)),
  ("rows", .unsigned report.rows),
  ("mode", .string report.mode),
  ("evaluated_columns", .array (report.evaluatedColumns.map .unsigned)),
  ("evaluated_indices", .array (report.evaluatedIndices.map .unsigned)),
  ("metrics", report.metrics.toJson),
  ("resources", report.resources.toJson),
  ("compiled_plan_digest", .string report.compiledPlanDigest),
  ("schema_digest", .string report.schemaDigest),
  ("references", .array (report.references.map ReferenceOutcome.toJson))]

def toJson (report : FastValidationReport) : Json := .object report.members

/-- The value the digests of a check are taken over: the report, with the digest of its contract. -/
def withSource (report : FastValidationReport) (contractSourceDigest : String) : Json :=
  (Json.object (report.members ++
    [("contract_source_digest", .string contractSourceDigest)])).toValue

end FastValidationReport

/-! ## What binds a report -/

section Digests

variable [Crates]

def taggedCanonicalDigest (tag domain : String) (value : Json) : Except Fault String := do
  let digest ← canonicalDigest domain value
  .ok (taggedDigest tag digest)

def requiredReportField (report : Json) (field : String) : Except Fault Json :=
  required (report.get field) (invalidEvidence s!"Validation report is missing `{field}`")

def validationResultDigest (report : Json) : Except Fault String := do
  let findings ← match report.get "findings" with
    | some (.array findings) => .ok findings
    | _ => .error (invalidEvidence "Validation report is missing `findings`")
  let valid ← requiredReportField report "valid"
  let violationCount ← requiredReportField report "violation_count"
  let truncated ← requiredReportField report "truncated"
  taggedCanonicalDigest "pf-result-v1:" "proofframe:validation-result:v1" (Json.object [
    ("valid", valid), ("violation_count", violationCount), ("truncated", truncated),
    ("output_records", .unsigned findings.length)]).toValue

/-- Limits as the machine words they are. -/
def ResourceLimits.held (limits : ResourceLimits) : HeldLimits :=
  ⟨{ maxMemoryBytes := limits.maxMemoryBytes % 2 ^ 64
     maxTempBytes := limits.maxTempBytes % 2 ^ 64
     maxOutputRecords := limits.maxOutputRecords % 2 ^ 64
     maxSamples := limits.maxSamples % 2 ^ 64 },
    Nat.mod_lt _ (by positivity), Nat.mod_lt _ (by positivity), Nat.mod_lt _ (by positivity),
    Nat.mod_lt _ (by positivity)⟩

end Digests

end ProofFrame
