import ProofFrame.Acceptance.Bundle

/-!
# Verification of a bundle

The check of a bundle without its file: the payload has the shape of an acceptance,
every digest is the one of what it names, and the signature is the pinned key's.
-/

namespace ProofFrame.Acceptance

open Lib Lib.Run
open PyValue (hasKeys Kind decode decodeText)

/-! ## Shapes -/

/-- Every field an acceptance payload must carry. -/
def payloadFields : List String :=
  ["version", "contract", "contract_id", "policy", "policy_id", "read_settings",
    "read_settings_id", "decision", "report", "evidence"]

def decisionStatuses : List String := ["accepted", "rejected", "unknown"]

/-- The fields of the native report, with their types. -/
def reportFields : List (String × Kind) := [
  ("valid", .bool), ("mode", .str), ("rows", .int), ("violation_count", .int),
  ("truncated", .bool), ("findings", .list), ("metrics", .dict), ("resources", .dict),
  ("evaluated_columns", .list), ("evaluated_indices", .list), ("schema_digest", .str),
  ("compiled_plan_digest", .str), ("contract_source_digest", .str)]

def evidenceSchema : String := "proofframe.evidence.v2"

def evidenceFields : List (String × Kind) := [
  ("schema", .str), ("dataset", .dict), ("engine", .dict), ("execution", .dict),
  ("result", .dict), ("schema_digest", .str), ("compiled_plan_digest", .str),
  ("contract_source_digest", .str)]

/-- Whether the value has the type; a `bool` is no count. -/
def hasKind (kind : Kind) (value : PyValue) : Bool :=
  if kind = .int ∧ value.isInstance .bool then false else value.isInstance kind

/-- `_typed`. -/
def typed (value : PyValue) (fields : List (String × Kind)) : Bool :=
  match value with
  | .dict items => fields.all fun field => (SortedMap.find field.1 items).any (hasKind field.2)
  | _ => false

/-- An `int` that is no `bool` and not negative. -/
def isCount : PyValue → Bool
  | .int value => 0 ≤ value
  | _ => false

/-- `value < 0`. -/
def isNegative : PyValue → Except PyError Bool
  | .int value => .ok (value < 0)
  | .bool _ => .ok false
  | .float value => .ok (value.lt (.zero false))
  | _ => .error .type

/-- The items of a list. -/
def itemsOf : PyValue → Except PyError (List PyValue)
  | .list items => .ok items
  | _ => .error .type

/-- `first and second`. -/
def both (first second : Except PyError Bool) : Except PyError Bool := do
  if ← first then second else .ok false

/-- `_counts_are_sane` -/
def countsAreSane (report : PyValue) : Except PyError Bool := do
  if ← report.getItem "rows" >>= isNegative then .ok false
  else if ← report.getItem "violation_count" >>= isNegative then .ok false
  else do
    let columns ← report.getItem "evaluated_columns" >>= itemsOf
    let indices ← report.getItem "evaluated_indices" >>= itemsOf
    if columns.length ≠ indices.length then .ok false
    else .ok (columns.all isCount && indices.all isCount)

/-- `_well_formed_decision`.  A status that cannot be hashed is not looked up. -/
def wellFormedDecision : PyValue → Except PyError Bool
  | .dict items =>
      if !hasKeys items ["status", "reasons", "evaluated"] then .ok false
      else do
        let status ← (PyValue.dict items).getItem "status"
        rejectIf (status.isInstance .list ∨ status.isInstance .dict) .type
        if !decisionStatuses.any status.equals then .ok false
        else do
          let evaluated ← (PyValue.dict items).getItem "evaluated"
          match ← (PyValue.dict items).getItem "reasons" with
          | .list reasons =>
              .ok (reasons.all (PyValue.isInstance · .str) && evaluated.isInstance .dict)
          | _ => .ok false
  | _ => .ok false

/-- `_scan_matches_decision`. -/
def scanMatchesDecision (payload : PyValue) : Except PyError Bool := do
  let status ← payload.getItem "decision" >>= (PyValue.getItem · "status")
  let report ← payload.getItem "report"
  let evidence ← payload.getItem "evidence"
  if status.equals "unknown" then .ok (report.isNone && evidence.isNone)
  else if !typed report reportFields then .ok false
  else if !(← countsAreSane report) then .ok false
  else if !typed evidence evidenceFields then .ok false
  else do
    let schema ← evidence.getItem "schema"
    .ok (schema.equals evidenceSchema)

/-- `_well_formed`. -/
def wellFormed : PyValue → Except PyError Bool
  | .dict items =>
      if !hasKeys items payloadFields then .ok false
      else both ((PyValue.dict items).getItem "decision" >>= wellFormedDecision)
        (both (scanMatchesDecision (.dict items)) do
          let fields ← ["contract", "policy", "read_settings"].mapM (PyValue.dict items).getItem
          .ok (fields.all (PyValue.isInstance · .dict)))
  | _ => .ok false

/-! ## The answers -/

structure Answers where
  valid : Bool
  intact : Bool
  authenticated : Bool
  deriving DecidableEq

def refused : Answers := ⟨false, false, false⟩

section Libraries

variable [PyLibraries]

/-- `holder[field] == _digest(value)`. -/
def isDigestOf (holder : PyValue) (field : String) (value : PyValue) : Except PyError Bool := do
  let recorded ← holder.getItem field
  let digest ← value.digest
  .ok (recorded.equals digest)

/-- The payload still binds to every digest. -/
def bindsDigests (bundle payload : PyValue) : Except PyError Bool :=
  both (wellFormed payload) (both
    (do
      let version ← payload.getItem "version"
      .ok (version.equals bundleVersion))
    (both (isDigestOf bundle "sha256" payload)
      (both (payload.getItem "contract" >>= isDigestOf payload "contract_id")
        (both (payload.getItem "policy" >>= isDigestOf payload "policy_id")
          (payload.getItem "read_settings" >>= isDigestOf payload "read_settings_id")))))

/-- Whether the signature is the key's in the bundle, and that key the pinned one.  There is no
answer where the signature is wrong. -/
def checkSignature (payload signature : PyValue) (expectedPublicKey : Option String) :
    Except PyError (Option Bool) := do
  let algorithm ← signature.getItem "algorithm"
  if !algorithm.equals "Ed25519" then .ok none
  else do
    let key ← signature.getItem "public_key" >>= decode
    rejectIf (PyLibraries.acceptsKey key = false) .value
    let value ← signature.getItem "value" >>= decode
    let message ← payload.canonical
    if !PyLibraries.verify key value message then .ok none
    else match expectedPublicKey with
      | none => .ok (some false)
      | some text => do
          let expected ← decodeText text
          .ok (some (expected = key))

/-- The `try` block of `verify_acceptance`. -/
def verifyBundle (bundle : PyValue) (expectedPublicKey : Option String) :
    Except PyError Answers := do
  let payload ← bundle.getItem "payload"
  let intact ← bindsDigests bundle payload
  let signature ← bundle.getItem "signature"
  if signature.isNone then .ok ⟨false, intact, false⟩
  else match ← checkSignature payload signature expectedPublicKey with
    | none => .ok refused
    | some authenticated => .ok ⟨intact && authenticated, intact, intact && authenticated⟩

def verifyAcceptance (bundle : PyValue) (expectedPublicKey : Option String) :
    Except PyError Answers :=
  match verifyBundle bundle expectedPublicKey with
  | .ok answers => .ok answers
  | .error e => if e.isMalformed then .ok refused else .error e

end Libraries

/-! ## A completed scan has its shape -/

theorem typed_dict {items : List (String × PyValue)} {fields : List (String × Kind)}
    (h : ∀ field ∈ fields, ∃ value, SortedMap.find field.1 items = some value ∧
      hasKind field.2 value = true) : typed (.dict items) fields = true := by
  rw [typed, List.all_eq_true]
  intro field hfield
  obtain ⟨value, hfind, hkind⟩ := h field hfield
  rw [hfind]
  exact hkind

section Shape

variable [PyLibraries]

theorem hasKind_of_list {items : List Json} {value : PyValue}
    (h : valueToPython (Json.array items).toValue = .ok value) : hasKind .list value = true := by
  rw [Json.toValue, valueToPython] at h
  obtain ⟨_, -, rfl⟩ := map_eq_ok.mp h
  rfl

theorem hasKind_of_object {members : List (String × Json)} {value : PyValue}
    (h : valueToPython (Json.object members).toValue = .ok value) : hasKind .dict value = true := by
  rw [Json.toValue, valueToPython] at h
  obtain ⟨_, -, rfl⟩ := map_eq_ok.mp h
  rfl

theorem hasKind_of_bool {flag : Bool} {value : PyValue}
    (h : valueToPython (Json.bool flag).toValue = .ok value) : hasKind .bool value = true := by
  rw [Json.toValue, valueToPython] at h
  cases h
  rfl

theorem eq_of_string {text : String} {value : PyValue}
    (h : valueToPython (Json.string text).toValue = .ok value) : value = .str text := by
  rw [Json.toValue, valueToPython] at h
  cases h
  rfl

theorem eq_of_unsigned {count : ℕ} {value : PyValue} (hcount : count < 2 ^ 64)
    (h : valueToPython (Json.unsigned count).toValue = .ok value) : value = .int count := by
  rw [Json.unsigned, Json.toValue, ← Json.unsigned, valueToPython_unsigned hcount] at h
  cases h
  rfl

theorem eq_of_counts {counts : List ℕ} {value : PyValue} (hcounts : ∀ count ∈ counts, count < 2 ^ 64)
    (h : valueToPython (Json.array (counts.map .unsigned)).toValue = .ok value) :
    value = .list (counts.map fun count : ℕ => .int count) := by
  have hitems : Json.toValues (counts.map .unsigned) = counts.map .unsigned := by
    rw [Serde.toValues_eq_map, List.map_map]
    exact List.map_congr_left fun count _ => by
      rw [Function.comp_apply, Json.unsigned, Json.toValue]
  rw [Json.toValue, hitems, valueToPython, itemsToPython_unsigned hcounts] at h
  cases h
  rfl

/-- The report of a completed scan is typed as a report, and its counts are sane. -/
theorem typed_report {checked : Checked} {report : PyValue}
    (h : valueToPython (checked.report.withSource checked.contractSourceDigest) = .ok report) :
    typed report reportFields = true ∧ countsAreSane report = .ok true := by
  obtain ⟨hrowsWord, hviolationsWord, hcolumnWords, hindexWords⟩ := checked.words
  have hnodup : ((checked.report.members ++
      [("contract_source_digest", Json.string checked.contractSourceDigest)]).map
        Prod.fst).Nodup := by
    simp [FastValidationReport.members]
  obtain ⟨items, rfl, hfind⟩ := find_valueToPython hnodup h
  obtain ⟨valid, hvalid, hvalidKind⟩ := hfind "valid" _ rfl
  obtain ⟨violations, hviolations, hviolationsValue⟩ := hfind "violation_count" _ rfl
  obtain ⟨truncated, htruncated, htruncatedKind⟩ := hfind "truncated" _ rfl
  obtain ⟨findings, hfindings, hfindingsKind⟩ := hfind "findings" _ rfl
  obtain ⟨rows, hrows, hrowsValue⟩ := hfind "rows" _ rfl
  obtain ⟨mode, hmode, hmodeKind⟩ := hfind "mode" _ rfl
  obtain ⟨columns, hcolumns, hcolumnsValue⟩ := hfind "evaluated_columns" _ rfl
  obtain ⟨indices, hindices, hindicesValue⟩ := hfind "evaluated_indices" _ rfl
  obtain ⟨metrics, hmetrics, hmetricsKind⟩ := hfind "metrics" _ rfl
  obtain ⟨resources, hresources, hresourcesKind⟩ := hfind "resources" _ rfl
  obtain ⟨plan, hplan, hplanKind⟩ := hfind "compiled_plan_digest" _ rfl
  obtain ⟨schema, hschema, hschemaKind⟩ := hfind "schema_digest" _ rfl
  obtain ⟨source, hsource, hsourceKind⟩ := hfind "contract_source_digest" _ rfl
  rw [eq_of_unsigned hrowsWord hrowsValue] at hrows
  rw [eq_of_unsigned hviolationsWord hviolationsValue] at hviolations
  rw [eq_of_counts hcolumnWords hcolumnsValue] at hcolumns
  rw [eq_of_counts hindexWords hindicesValue] at hindices
  rw [eq_of_string hmodeKind] at hmode
  rw [eq_of_string hplanKind] at hplan
  rw [eq_of_string hschemaKind] at hschema
  rw [eq_of_string hsourceKind] at hsource
  constructor
  · apply typed_dict
    intro field hfield
    simp only [reportFields, List.mem_cons, List.not_mem_nil, or_false] at hfield
    rcases hfield with rfl | rfl | rfl | rfl | rfl | rfl | rfl | rfl | rfl | rfl | rfl | rfl | rfl
    · exact ⟨_, hvalid, hasKind_of_bool hvalidKind⟩
    · exact ⟨_, hmode, rfl⟩
    · exact ⟨_, hrows, rfl⟩
    · exact ⟨_, hviolations, rfl⟩
    · exact ⟨_, htruncated, hasKind_of_bool htruncatedKind⟩
    · exact ⟨_, hfindings, hasKind_of_list hfindingsKind⟩
    · exact ⟨_, hmetrics, hasKind_of_object hmetricsKind⟩
    · exact ⟨_, hresources, hasKind_of_object hresourcesKind⟩
    · exact ⟨_, hcolumns, rfl⟩
    · exact ⟨_, hindices, rfl⟩
    · exact ⟨_, hschema, rfl⟩
    · exact ⟨_, hplan, rfl⟩
    · exact ⟨_, hsource, rfl⟩
  · have hcounts : ∀ counts : List ℕ,
        (counts.map fun count : ℕ => PyValue.int count).all isCount = true := by
      intro counts
      rw [List.all_map, List.all_eq_true]
      exact fun count _ => decide_eq_true (Int.natCast_nonneg count)
    have hnegative : ∀ count : ℕ, isNegative (.int count) = .ok false := fun count =>
      congrArg Except.ok (decide_eq_false (not_lt.mpr (Int.natCast_nonneg count)))
    rw [countsAreSane]
    simp only [PyValue.getItem_dict, hrows, hviolations, hcolumns, hindices, required, ok_bind,
      hnegative, Bool.false_eq_true, ↓reduceIte, itemsOf, List.length_map, checked.paired,
      hcounts, ne_eq, not_true_eq_false, Bool.and_self]

theorem typed_evidence {evidence : EvidenceV2} {value : PyValue}
    (h : valueToPython evidence.toJson.toValue = .ok value) :
    typed value evidenceFields = true ∧ value.getItem "schema" = .ok (.str evidenceSchema) := by
  rw [EvidenceV2.toJson] at h
  obtain ⟨items, rfl, hfind⟩ := find_valueToPython (by simp) h
  obtain ⟨schema, hschema, hschemaValue⟩ := hfind "schema" _ rfl
  obtain ⟨dataset, hdataset, hdatasetKind⟩ := hfind "dataset" _ rfl
  obtain ⟨source, hsource, hsourceValue⟩ := hfind "contract_source_digest" _ rfl
  obtain ⟨plan, hplan, hplanValue⟩ := hfind "compiled_plan_digest" _ rfl
  obtain ⟨columns, hcolumns, hcolumnsValue⟩ := hfind "schema_digest" _ rfl
  obtain ⟨engine, hengine, hengineKind⟩ := hfind "engine" _ rfl
  obtain ⟨execution, hexecution, hexecutionKind⟩ := hfind "execution" _ rfl
  obtain ⟨result, hresult, hresultKind⟩ := hfind "result" _ rfl
  rw [eq_of_string hschemaValue] at hschema
  rw [eq_of_string hsourceValue] at hsource
  rw [eq_of_string hplanValue] at hplan
  rw [eq_of_string hcolumnsValue] at hcolumns
  constructor
  · apply typed_dict
    intro field hfield
    simp only [evidenceFields, List.mem_cons, List.not_mem_nil, or_false] at hfield
    rcases hfield with rfl | rfl | rfl | rfl | rfl | rfl | rfl | rfl
    · exact ⟨_, hschema, rfl⟩
    · exact ⟨_, hdataset, hasKind_of_object hdatasetKind⟩
    · exact ⟨_, hengine, hasKind_of_object hengineKind⟩
    · exact ⟨_, hexecution, hasKind_of_object hexecutionKind⟩
    · exact ⟨_, hresult, hasKind_of_object hresultKind⟩
    · exact ⟨_, hcolumns, rfl⟩
    · exact ⟨_, hplan, rfl⟩
    · exact ⟨_, hsource, rfl⟩
  · rw [PyValue.getItem_dict, hschema]
    cases evidence.schema
    rfl

end Shape

end ProofFrame.Acceptance
