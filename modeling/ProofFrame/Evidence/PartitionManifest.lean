import ProofFrame.Evidence.EvidenceV2

/-!
# Partition manifests

The evidence of an ordered list of partitions under one root digest.
-/

namespace ProofFrame

open Lib Lib.Run

inductive PartitionManifestSchema where
  | v1
  deriving DecidableEq

def PartitionManifestSchema.name : PartitionManifestSchema → String
  | .v1 => "proofframe.partition-manifest.v1"

def PartitionManifestSchema.named : String → Option PartitionManifestSchema
  | "proofframe.partition-manifest.v1" => some .v1
  | _ => none

structure PartitionEvidenceV1 where
  index : UInt64
  schemaDigest : String
  contractSourceDigest : String
  compiledPlanDigest : String
  rows : UInt64
  fingerprintVersion : FingerprintVersion
  fingerprintDigest : Digest
  resultDigest : String
  deriving DecidableEq

structure PartitionManifestV1 where
  schema : PartitionManifestSchema
  partitions : List PartitionEvidenceV1
  globalResultDigest : String
  resources : HeldLimits
  rootDigest : String
  deriving DecidableEq

namespace PartitionEvidenceV1

def toJson (partition : PartitionEvidenceV1) : Json := .object [
  ("index", .unsigned partition.index.toNat),
  ("schema_digest", .string partition.schemaDigest),
  ("contract_source_digest", .string partition.contractSourceDigest),
  ("compiled_plan_digest", .string partition.compiledPlanDigest),
  ("rows", .unsigned partition.rows.toNat),
  ("fingerprint_version", .string partition.fingerprintVersion.name),
  ("fingerprint_digest", partition.fingerprintDigest.toJson),
  ("result_digest", .string partition.resultDigest)]

def ofJson (json : Json) : Option PartitionEvidenceV1 := do
  let field ← Serde.fields true ["index", "schema_digest", "contract_source_digest",
    "compiled_plan_digest", "rows", "fingerprint_version", "fingerprint_digest",
    "result_digest"] json
  let index ← Serde.required Serde.u64 (field "index")
  let schemaDigest ← Serde.required Serde.string (field "schema_digest")
  let contractSourceDigest ← Serde.required Serde.string (field "contract_source_digest")
  let compiledPlanDigest ← Serde.required Serde.string (field "compiled_plan_digest")
  let rows ← Serde.required Serde.u64 (field "rows")
  let fingerprintVersion ←
    Serde.required (Serde.variant FingerprintVersion.named) (field "fingerprint_version")
  let fingerprintDigest ← Serde.required Digest.ofJson (field "fingerprint_digest")
  let resultDigest ← Serde.required Serde.string (field "result_digest")
  some { index, schemaDigest, contractSourceDigest, compiledPlanDigest, rows, fingerprintVersion
         fingerprintDigest, resultDigest }

/-- The schema, the contract and the plan the partition was checked with. -/
def identity (partition : PartitionEvidenceV1) : String × String × String :=
  (partition.schemaDigest, partition.contractSourceDigest, partition.compiledPlanDigest)

/-- What `validate_body_parts` asks of the partition at a position. -/
def validateAt (partition first : PartitionEvidenceV1) (position : ℕ) : Except Fault Unit := do
  rejectIf (partition.index ≠ UInt64.ofNat position)
    (invalidEvidence "Partition indices must be contiguous, unique, and logically ordered")
  rejectIf (partition.fingerprintVersion ≠ .v2)
    (invalidEvidence "Partition evidence requires V2 fingerprints")
  validateTaggedDigest partition.schemaDigest "pf-schema-v1:" "partition schema"
  validateTaggedDigestAny partition.contractSourceDigest ["pf-contract-v1:", "pf-contract-v2:"]
    "partition contract source"
  validateTaggedDigestAny partition.compiledPlanDigest ["pf-plan-v1:", "pf-plan-v2:"]
    "partition compiled plan"
  validateTaggedDigest partition.resultDigest "pf-partition-result-v1:" "partition result"
  rejectIf (partition.identity ≠ first.identity)
    (invalidEvidence "Every partition must bind the same schema, contract, and compiled plan")

end PartitionEvidenceV1

namespace PartitionManifestV1

def toJson (manifest : PartitionManifestV1) : Json := .object [
  ("schema", .string manifest.schema.name),
  ("partitions", .array (manifest.partitions.map PartitionEvidenceV1.toJson)),
  ("global_result_digest", .string manifest.globalResultDigest),
  ("resources", manifest.resources.toJson),
  ("root_digest", .string manifest.rootDigest)]

def ofJson (json : Json) : Option PartitionManifestV1 := do
  let field ← Serde.fields true
    ["schema", "partitions", "global_result_digest", "resources", "root_digest"] json
  let schema ← Serde.required (Serde.variant PartitionManifestSchema.named) (field "schema")
  let partitions ← Serde.required (Serde.list PartitionEvidenceV1.ofJson) (field "partitions")
  let globalResultDigest ← Serde.required Serde.string (field "global_result_digest")
  let resources ← Serde.required HeldLimits.ofJson (field "resources")
  let rootDigest ← Serde.required Serde.string (field "root_digest")
  some { schema, partitions, globalResultDigest, resources, rootDigest }

/-- `ManifestBody`. -/
def bodyJson (schema : PartitionManifestSchema) (partitions : List PartitionEvidenceV1)
    (globalResultDigest : String) (resources : HeldLimits) : Json := .object [
  ("schema", .string schema.name),
  ("partitions", .array (partitions.map PartitionEvidenceV1.toJson)),
  ("global_result_digest", .string globalResultDigest),
  ("resources", resources.toJson)]

def validateBodyParts (schema : PartitionManifestSchema) (partitions : List PartitionEvidenceV1)
    (globalResultDigest : String) : Except Fault Unit := do
  rejectIf (schema ≠ .v1) (invalidEvidence "Unsupported partition manifest schema")
  match partitions with
  | [] => .error (invalidEvidence "Partition manifest must contain at least one partition")
  | first :: _ => do
      validateTaggedDigest globalResultDigest "pf-result-v1:" "global partition result"
      partitions.zipIdx.forM fun (partition, position) => partition.validateAt first position

section Digests

variable [Crates]

def computeRootDigestParts (schema : PartitionManifestSchema)
    (partitions : List PartitionEvidenceV1) (globalResultDigest : String)
    (resources : HeldLimits) : Except Fault String := do
  let digest ← canonicalDigest "proofframe:partition-manifest:v1"
    (bodyJson schema partitions globalResultDigest resources)
  .ok (taggedDigest "pf-partition-root-v1:" digest)

def new (partitions : List PartitionEvidenceV1) (globalResultDigest : String)
    (resources : HeldLimits) : Except Fault PartitionManifestV1 := do
  validateBodyParts .v1 partitions globalResultDigest
  let rootDigest ← computeRootDigestParts .v1 partitions globalResultDigest resources
  .ok { schema := .v1, partitions, globalResultDigest, resources, rootDigest }

def computeRootDigest (manifest : PartitionManifestV1) : Except Fault String :=
  computeRootDigestParts manifest.schema manifest.partitions manifest.globalResultDigest
    manifest.resources

def validateBody (manifest : PartitionManifestV1) : Except Fault Unit :=
  validateBodyParts manifest.schema manifest.partitions manifest.globalResultDigest

def validate (manifest : PartitionManifestV1) : Except Fault Unit := do
  manifest.validateBody
  validateTaggedDigest manifest.rootDigest "pf-partition-root-v1:" "partition root"
  let root ← manifest.computeRootDigest
  rejectIf (manifest.rootDigest ≠ root)
    (invalidEvidence "Partition manifest root digest does not match its body")

def digestUnchecked (manifest : PartitionManifestV1) : Except Fault Digest := do
  let computed ← manifest.computeRootDigest
  match stripPrefix "pf-partition-root-v1:" computed with
  | none => .error (.panic "computed root has the required prefix")
  | some hex => do
      let bytes ← decodeHexPairs (utf8Bytes hex)
      if h : bytes.length = 32 then .ok ⟨bytes, h⟩
      else .error (.panic "index of the partition root digest")

def digest (manifest : PartitionManifestV1) : Except Fault Digest := do
  manifest.validate
  manifest.digestUnchecked

def maxManifestJsonBytes : ℕ := 1024 * 1024

def fromJson [SerdeJson] (source : String) : Except Fault PartitionManifestV1 := do
  rejectIf (maxManifestJsonBytes < (utf8Bytes source).length) (.error (.resourceLimit
    "partition manifest JSON" (utf8Bytes source).length 0 maxManifestJsonBytes))
  let manifest ← fromStr "PartitionManifestV1" ofJson source
  manifest.validate
  .ok manifest

end Digests

end PartitionManifestV1

/-! ## Manifests read back -/

section RoundTrip

variable {view : Json → Json} (hview : Serde.View view)

include hview

theorem PartitionEvidenceV1.ofJson_view (partition : PartitionEvidenceV1) :
    ofJson (view partition.toJson) = some partition := by
  rw [toJson, ofJson, hview.fields_members]
  · simp only [SortedMap.find_cons, String.reduceEq, ↓reduceIte, Option.map_some,
      Serde.Slot.ofMember_some, Serde.required_value, Option.bind_eq_bind, Option.bind_some,
      hview.string_text, hview.u64_value, FingerprintVersion.named_view hview,
      Digest.ofJson_view hview]
  · rfl
  · decide

theorem PartitionManifestV1.ofJson_view (manifest : PartitionManifestV1) :
    ofJson (view manifest.toJson) = some manifest := by
  have hschema : Serde.variant PartitionManifestSchema.named
      (view (.string manifest.schema.name)) = some manifest.schema := by
    rw [hview.variant_name]
    cases manifest.schema
    rfl
  have hpartitions : Serde.list PartitionEvidenceV1.ofJson
      (view (.array (manifest.partitions.map PartitionEvidenceV1.toJson))) =
      some manifest.partitions :=
    hview.list_map fun partition _ => PartitionEvidenceV1.ofJson_view hview partition
  rw [toJson, ofJson, hview.fields_members]
  · simp only [SortedMap.find_cons, String.reduceEq, ↓reduceIte, Option.map_some,
      Serde.Slot.ofMember_some, Serde.required_value, Option.bind_eq_bind, Option.bind_some,
      hview.string_text, hschema, hpartitions, HeldLimits.ofJson_view hview]
  · rfl
  · decide

end RoundTrip

section Readable

variable {kept : String → Bool} (hkept : ∀ value : ℕ, kept value.repr = true)

include hkept

theorem PartitionEvidenceV1.readable (partition : PartitionEvidenceV1) :
    partition.toJson.Readable kept 2 :=
  .object rfl (by
    simp [Json.Readable.string, Json.Readable.unsigned hkept, Digest.readable hkept])

theorem PartitionManifestV1.readable (manifest : PartitionManifestV1) :
    manifest.toJson.Readable kept 4 := by
  have hpartitions : (Json.array (manifest.partitions.map PartitionEvidenceV1.toJson)).Readable
      kept 3 := .array (List.forall_mem_map.mpr fun partition _ => partition.readable hkept)
  exact .object rfl (by
    simp [Json.Readable.string, hpartitions, (HeldLimits.readable hkept _).mono (by decide : 1 ≤ 3)])

end Readable

end ProofFrame
