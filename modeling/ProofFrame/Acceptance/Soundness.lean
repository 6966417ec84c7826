import ProofFrame.Acceptance.Verification

/-!
# What an acceptance says

A decision follows the policy, a bundle verifies as what it is, and nothing that
was not signed verifies as valid.
-/

namespace ProofFrame.Acceptance

open Lib Lib.Run
open PyValue (hasKeys setItem find_setItem encode decodeText decodeText_encode
  failsWith_decodeText)

/-! ## Decisions follow the policy -/

/-- The count a report gives for a column: the one of the last evaluated index that names it. -/
def evaluatedCount (names : List String) (report : FastValidationReport) (name : String) :
    Option ℕ :=
  ((report.evaluatedIndices.zip report.evaluatedColumns).reverse.find? fun pair =>
    names[pair.1]? = some name).map Prod.snd

/-- The report meets the policy. -/
def Policy.Accepts (policy : Policy) (names : List String) (report : FastValidationReport) : Prop :=
  report.violationCount ≤ policy.maxViolations ∧
    ∀ entry ∈ policy.minimumEvaluated,
      ∃ count, evaluatedCount names report entry.1 = some count ∧ entry.2 ≤ count

theorem find_nameEvaluated {names : List String} {pairs : List (ℕ × ℕ)} {name : String}
    {evaluated evaluated' : List (String × ℕ)}
    (h : pairs.foldlM (nameEvaluated names) evaluated = .ok evaluated') :
    SortedMap.find name evaluated' =
      ((pairs.reverse.find? fun pair => names[pair.1]? = some name).map Prod.snd).or
        (SortedMap.find name evaluated) := by
  induction pairs generalizing evaluated with
  | nil =>
      cases h
      rfl
  | cons pair pairs ih =>
      rw [List.foldlM_cons] at h
      obtain ⟨next, hnext, h⟩ := bind_eq_ok.mp h
      obtain ⟨other, hother, hnext⟩ := bind_eq_ok.mp hnext
      cases hnext
      rw [ih h, find_setItem, List.reverse_cons, List.find?_append]
      have hname := required_eq_ok.mp hother
      cases (pairs.reverse.find? fun pair => decide (names[pair.1]? = some name)) with
      | some _ => rfl
      | none =>
          by_cases heq : other = name
          · simp [hname, heq]
          · simp [hname, heq]

theorem reasonsAgainst_eq_nil {policy : Policy} {violationCount : ℕ}
    {evaluated : List (String × ℕ)} :
    reasonsAgainst policy violationCount evaluated = [] ↔
      violationCount ≤ policy.maxViolations ∧ ∀ entry ∈ policy.minimumEvaluated,
        ∃ count, SortedMap.find entry.1 evaluated = some count ∧ entry.2 ≤ count := by
  rw [reasonsAgainst, List.append_eq_nil_iff, List.map_eq_nil_iff, List.filter_eq_nil_iff]
  refine and_congr ?_ (forall₂_congr fun entry _ => ?_)
  · by_cases h : policy.maxViolations < violationCount <;> simp [h]
    omega
  · cases SortedMap.find entry.1 evaluated <;> simp

/-- A decision on a report accepts it exactly if it meets the policy, and rejects it otherwise. -/
theorem decideReport_accepts {report : FastValidationReport} {names : List String}
    {policy : Policy} {decision : Decision}
    (h : decideReport report names policy = .ok decision) :
    (decision.status = .accepted ↔ policy.Accepts names report) ∧ decision.status ≠ .unknown := by
  obtain ⟨evaluated, hevaluated, h⟩ := bind_eq_ok.mp h
  cases h
  have hcount : ∀ name, SortedMap.find name evaluated = evaluatedCount names report name := by
    intro name
    rw [find_nameEvaluated hevaluated, SortedMap.find_nil, Option.or_none, evaluatedCount]
  have hreasons : reasonsAgainst policy report.violationCount evaluated = [] ↔
      policy.Accepts names report := by
    rw [reasonsAgainst_eq_nil, Policy.Accepts]
    simp only [hcount]
  rw [← hreasons]
  cases reasonsAgainst policy report.violationCount evaluated <;> simp

section Libraries

variable [PyLibraries]

/-! ## A scan that could not complete -/

mutual

/-- A native value fails to convert only as a contract error. -/
theorem failsWith_valueToPython : ∀ json : Json, FailsWith (· = .contract) (valueToPython json)
  | .null | .bool _ | .string _ => by
      rw [valueToPython]
      exact failsWith_ok
  | .number text => by
      rw [valueToPython]
      split
      · exact failsWith_ok
      · exact failsWith_ok
      · exact (failsWith_required (E := (· = PyError.contract)) rfl).map _
  | .array items => by
      rw [valueToPython]
      exact (failsWith_itemsToPython items).map _
  | .object members => by
      rw [valueToPython]
      exact (failsWith_membersToPython members).map _

theorem failsWith_itemsToPython : ∀ items, FailsWith (· = .contract) (itemsToPython items)
  | [] => failsWith_ok
  | item :: items => by
      rw [itemsToPython]
      exact (failsWith_valueToPython item).bind fun _ _ =>
        (failsWith_itemsToPython items).bind fun _ _ => failsWith_ok

theorem failsWith_membersToPython : ∀ members, FailsWith (· = .contract) (membersToPython members)
  | [] => failsWith_ok
  | (_, value) :: members => by
      rw [membersToPython]
      exact (failsWith_valueToPython value).bind fun _ _ =>
        (failsWith_membersToPython members).bind fun _ _ => failsWith_ok

end

/-- The scan of the request completes: it reads a reader, and the check of it returns. -/
def Request.Completes (request : Request) (reader : Reader) (checked : Checked) : Prop :=
  ∃ contract settings recorded, readContract request.contract = .ok contract ∧
    readPlan request.file request.csvOptions = .ok (settings, recorded) ∧
    request.file.opened settings = .ok reader ∧ reader.checkWithEvidence contract = .ok checked

/-- What a scan that returned did. -/
inductive Scans (file : SourceFile) (contract settings : PyValue) (policy : Policy) :
    Option Scanned → Decision → Prop
  | completed {reader checked scanned decision} (hopened : file.opened settings = .ok reader)
      (hchecked : reader.checkWithEvidence contract = .ok checked)
      (hreport : valueToPython (checked.report.withSource checked.contractSourceDigest) =
        .ok scanned.report)
      (hevidence : valueToPython checked.evidence.toJson.toValue = .ok scanned.evidence)
      (hdecision : decideReport checked.report reader.names policy = .ok decision) :
      Scans file contract settings policy (some scanned) decision
  | failed {reasons} (hfailed : ∀ reader, file.opened settings = .ok reader →
        ∀ checked, reader.checkWithEvidence contract ≠ .ok checked) :
      Scans file contract settings policy none
        { status := .unknown, reasons, evaluated := [] }

omit [PyLibraries] in
theorem failsWith_decideReport (report : FastValidationReport) (names : List String)
    (policy : Policy) : FailsWith (· = .index) (decideReport report names policy) := by
  refine FailsWith.bind (failsWith_foldlM fun _ _ _ => ?_) fun _ _ => failsWith_ok
  exact (failsWith_required (E := (· = PyError.index)) rfl).bind fun _ _ => failsWith_ok

theorem scans_of_scan {file : SourceFile} {contract settings : PyValue} {policy : Policy}
    {scanned : Option Scanned} {decision : Decision}
    (h : scan file contract settings policy = .ok (scanned, decision)) :
    Scans file contract settings policy scanned decision := by
  unfold scan at h
  split at h
  · rename_i completed decided hscan
    cases h
    obtain ⟨reader, hopened, hscan⟩ := bind_eq_ok.mp hscan
    obtain ⟨_, -, hscan⟩ := bind_eq_ok.mp hscan
    obtain ⟨checked, hchecked, hscan⟩ := bind_eq_ok.mp hscan
    obtain ⟨report, hreport, hscan⟩ := bind_eq_ok.mp hscan
    obtain ⟨evidence, hevidence, hscan⟩ := bind_eq_ok.mp hscan
    obtain ⟨_, hdecision, hscan⟩ := bind_eq_ok.mp hscan
    cases hscan
    exact .completed hopened hchecked hreport hevidence hdecision
  · rename_i name hscan
    cases h
    refine .failed fun reader hopened checked hchecked => ?_
    -- past the check, nothing fails as an operational error
    rw [scanReader, hopened, ok_bind] at hscan
    rcases bind_eq_error.mp hscan with hnodup | ⟨_, -, hscan⟩
    · cases (rejectIf_eq_error.mp hnodup).2
    rw [hchecked, ok_bind] at hscan
    rcases bind_eq_error.mp hscan with hreport | ⟨_, -, hscan⟩
    · cases failsWith_valueToPython _ _ hreport
    rcases bind_eq_error.mp hscan with hevidence | ⟨_, -, hscan⟩
    · cases failsWith_valueToPython _ _ hevidence
    rcases bind_eq_error.mp hscan with hdecision | ⟨_, -, hscan⟩
    · cases failsWith_decideReport _ _ _ _ hdecision
    cases hscan
  · cases h

/-! ## What a bundle that is produced holds -/

structure Produced (request : Request) (bundle : Bundle) : Prop where
  contract : readContract request.contract = .ok bundle.payload.contract
  scans : ∃ settings recorded, readPlan request.file request.csvOptions = .ok (settings, recorded) ∧
    bundle.payload.readSettings = readSettings request.file recorded ∧
    Scans request.file bundle.payload.contract settings bundle.payload.policy
      bundle.payload.scanned bundle.payload.decision
  contractId : bundle.payload.contract.digest = .ok bundle.payload.contractId
  policyId : bundle.payload.policy.toPy.digest = .ok bundle.payload.policyId
  readSettingsId : bundle.payload.readSettings.digest = .ok bundle.payload.readSettingsId
  sha256 : bundle.payload.toPy.digest = .ok bundle.sha256
  unsigned : request.privateKey = none → bundle.signature = none
  signed : ∀ privateKey, request.privateKey = some privateKey →
    ∃ signature, signPayload bundle.payload privateKey = .ok signature ∧
      bundle.signature = some signature

theorem produced_of_acceptFile {request : Request} {bundle : Bundle}
    (h : acceptFile request = .ok bundle) : Produced request bundle := by
  obtain ⟨_, -, h⟩ := bind_eq_ok.mp h
  obtain ⟨policy, -, h⟩ := bind_eq_ok.mp h
  obtain ⟨contract, hcontract, h⟩ := bind_eq_ok.mp h
  obtain ⟨⟨settings, recorded⟩, hplan, h⟩ := bind_eq_ok.mp h
  obtain ⟨_, -, h⟩ := bind_eq_ok.mp h
  obtain ⟨⟨scanned, decision⟩, hscan, h⟩ := bind_eq_ok.mp h
  obtain ⟨contractId, hcontractId, h⟩ := bind_eq_ok.mp h
  obtain ⟨policyId, hpolicyId, h⟩ := bind_eq_ok.mp h
  obtain ⟨readSettingsId, hreadSettingsId, h⟩ := bind_eq_ok.mp h
  obtain ⟨sha256, hsha256, h⟩ := bind_eq_ok.mp h
  obtain ⟨signature, hsignature, h⟩ := bind_eq_ok.mp h
  obtain ⟨_, -, h⟩ := bind_eq_ok.mp h
  obtain ⟨_, -, h⟩ := bind_eq_ok.mp h
  obtain ⟨_, -, h⟩ := bind_eq_ok.mp h
  cases h
  refine ⟨hcontract, ⟨settings, recorded, hplan, rfl, scans_of_scan hscan⟩, hcontractId, hpolicyId,
    hreadSettingsId, hsha256, fun hkey => ?_, fun privateKey hkey => ?_⟩
  · rw [hkey] at hsignature
    cases hsignature
    rfl
  · rw [hkey] at hsignature
    obtain ⟨signed, hsigned, hsignature⟩ := map_eq_ok.mp hsignature
    exact ⟨signed, hsigned, hsignature.symm⟩

/-! ## A bundle that is produced is intact -/

omit [PyLibraries] in
theorem wellFormedDecision_toPy (decision : Decision) :
    wellFormedDecision decision.toPy = .ok true := by
  have hkeys : hasKeys [("status", PyValue.str decision.status.name),
      ("reasons", .list (decision.reasons.map .str)),
      ("evaluated", .dict (decision.evaluated.map fun entry => (entry.1, .int entry.2)))]
      ["status", "reasons", "evaluated"] = true := rfl
  have hstatus : (decisionStatuses.any (PyValue.str decision.status.name).equals) = true := by
    cases decision.status <;> rfl
  have hreasons : (decision.reasons.map PyValue.str).all (PyValue.isInstance · .str) = true := by
    rw [List.all_map, List.all_eq_true]
    exact fun _ _ => rfl
  rw [Decision.toPy, wellFormedDecision, hkeys]
  simp only [Bool.not_true, Bool.false_eq_true, ↓reduceIte, PyValue.getItem_dict,
    SortedMap.find_cons, String.reduceEq, required, ok_bind, hstatus, hreasons]
  rfl

theorem scanMatchesDecision_toPy {file : SourceFile} {settings : PyValue} {payload : Payload}
    (h : Scans file payload.contract settings payload.policy payload.scanned payload.decision) :
    scanMatchesDecision payload.toPy = .ok true := by
  obtain ⟨contract, contractId, policy, policyId, readSettings, readSettingsId, decision,
    scanned⟩ := payload
  rw [scanMatchesDecision, Payload.toPy]
  simp only [PyValue.getItem_dict, SortedMap.find_cons, String.reduceEq, ↓reduceIte, required,
    ok_bind, Decision.toPy]
  cases h with
  | completed hopened hchecked hreport hevidence hdecision =>
      have hknown : (PyValue.str decision.status.name).equals "unknown" = false := by
        have hne := (decideReport_accepts hdecision).2
        cases hstatus : decision.status with
        | unknown => exact absurd hstatus hne
        | accepted => rfl
        | rejected => rfl
      obtain ⟨htyped, hsane⟩ := typed_report hreport
      obtain ⟨hevidenceTyped, hschema⟩ := typed_evidence hevidence
      simp only [hknown, htyped, hsane, hevidenceTyped, hschema, ok_bind, Bool.false_eq_true,
        ↓reduceIte, Bool.not_true]
      rfl
  | failed _ => rfl

theorem wellFormed_toPy {request : Request} {bundle : Bundle} (h : Produced request bundle) :
    wellFormed bundle.payload.toPy = .ok true := by
  obtain ⟨settings, recorded, -, hread, hscans⟩ := h.scans
  have hscan := scanMatchesDecision_toPy hscans
  have hcontract : bundle.payload.contract.isInstance .dict = true := by
    obtain ⟨_, -, hcontract⟩ := bind_eq_ok.mp h.contract
    rw [← Except.ok.inj hcontract]
    rfl
  have hsettings : bundle.payload.readSettings.isInstance .dict = true := by
    rw [hread]
    rfl
  have hkeys : ∀ items, bundle.payload.toPy = .dict items →
      hasKeys items payloadFields = true := by
    intro items hitems
    cases hitems
    rfl
  rw [Payload.toPy] at hscan ⊢
  rw [wellFormed, hkeys _ rfl, hscan]
  simp only [Bool.not_true, Bool.false_eq_true, ↓reduceIte, PyValue.getItem_dict,
    SortedMap.find_cons, String.reduceEq, required, ok_bind, wellFormedDecision_toPy, both,
    List.mapM_cons, List.mapM_nil, pure, Except.pure, List.all_cons, List.all_nil, hcontract,
    hsettings]
  rfl

/-- Every digest of a bundle that was produced is the one of what it names. -/
theorem bindsDigests_produced {request : Request} {bundle : Bundle} (h : Produced request bundle) :
    bindsDigests bundle.toPy bundle.payload.toPy = .ok true := by
  have hdigest : ∀ {items : List (String × PyValue)} {field digest : String} {value : PyValue},
      SortedMap.find field items = some (.str digest) → value.digest = .ok digest →
      isDigestOf (.dict items) field value = .ok true := by
    intro items field digest value hfield hvalue
    rw [isDigestOf, PyValue.getItem_dict, hfield, hvalue]
    exact congrArg Except.ok (decide_eq_true rfl)
  have hsha256 : isDigestOf bundle.toPy "sha256" bundle.payload.toPy = .ok true :=
    hdigest rfl h.sha256
  have hcontract : (bundle.payload.toPy.getItem "contract" >>=
      isDigestOf bundle.payload.toPy "contract_id") = .ok true := by
    show isDigestOf bundle.payload.toPy "contract_id" bundle.payload.contract = .ok true
    exact hdigest rfl h.contractId
  have hpolicy : (bundle.payload.toPy.getItem "policy" >>=
      isDigestOf bundle.payload.toPy "policy_id") = .ok true := by
    show isDigestOf bundle.payload.toPy "policy_id" bundle.payload.policy.toPy = .ok true
    exact hdigest rfl h.policyId
  have hsettings : (bundle.payload.toPy.getItem "read_settings" >>=
      isDigestOf bundle.payload.toPy "read_settings_id") = .ok true := by
    show isDigestOf bundle.payload.toPy "read_settings_id" bundle.payload.readSettings = .ok true
    exact hdigest rfl h.readSettingsId
  rw [bindsDigests, wellFormed_toPy h, hsha256, hcontract, hpolicy, hsettings]
  rfl

/-! ## What a bundle that is produced verifies as -/

omit [PyLibraries] in
theorem BundleSignature.isNone_toPy (signature : BundleSignature) :
    signature.toPy.isNone = false := rfl

/-- The private key of the request. -/
def Request.secret (request : Request) : Option (List UInt8) :=
  request.privateKey.bind fun privateKey => (readPrivateKey privateKey).toOption

/-- What the signer of the request signed verifies with its public key. -/
def SignerHolds (request : Request) (payload : Payload) : Prop :=
  ∀ secret message, request.secret = some secret → payload.toPy.canonical = .ok message →
    PyLibraries.acceptsKey (PyLibraries.publicKey secret) = true ∧
    PyLibraries.verify (PyLibraries.publicKey secret) (PyLibraries.sign secret message) message =
      true

theorem verifyAcceptance_unsigned {request : Request} {bundle : Bundle}
    (h : Produced request bundle) (hkey : request.privateKey = none) (expected : Option String) :
    verifyAcceptance bundle.toPy expected = .ok ⟨false, true, false⟩ := by
  have hsignature := h.unsigned hkey
  have hbinds := bindsDigests_produced h
  rw [Bundle.toPy, hsignature] at hbinds
  rw [verifyAcceptance, verifyBundle, Bundle.toPy, hsignature]
  simp only [PyValue.getItem_dict, SortedMap.find_cons, String.reduceEq, ↓reduceIte, required,
    ok_bind, hbinds]
  rfl

/-- The answers for a signed bundle, by the pinned key. -/
theorem verifyAcceptance_signed {request : Request} {bundle : Bundle} {privateKey : String}
    (h : Produced request bundle) (hkey : request.privateKey = some privateKey)
    (hsigner : SignerHolds request bundle.payload) (expected : Option String) :
    ∃ secret, request.secret = some secret ∧ verifyAcceptance bundle.toPy expected =
      match expected.map decodeText with
      | none => .ok ⟨false, true, false⟩
      | some (.ok key) =>
          .ok ⟨key = PyLibraries.publicKey secret, true, key = PyLibraries.publicKey secret⟩
      | some (.error _) => .ok refused := by
  obtain ⟨signature, hsign, hsignature⟩ := h.signed privateKey hkey
  obtain ⟨secret, hsecret, hsign⟩ := bind_eq_ok.mp hsign
  obtain ⟨message, hmessage, hsign⟩ := bind_eq_ok.mp hsign
  cases hsign
  have hheld : request.secret = some secret := by
    rw [Request.secret, hkey, Option.bind_some, hsecret]
    rfl
  obtain ⟨haccepts, hverify⟩ := hsigner secret message hheld hmessage
  refine ⟨secret, hheld, ?_⟩
  -- the key and the value of the signature read back as the bytes they were encoded from
  have hcheck : checkSignature bundle.payload.toPy (BundleSignature.toPy
      ⟨encode (PyLibraries.publicKey secret), encode (PyLibraries.sign secret message)⟩) expected =
        expected.elim (.ok (some false)) fun text => (decodeText text).map fun key =>
          some (decide (key = PyLibraries.publicKey secret)) := by
    rw [checkSignature, BundleSignature.toPy]
    simp only [PyValue.getItem_dict, SortedMap.find_cons, String.reduceEq, ↓reduceIte, required,
      ok_bind, PyValue.decode, decodeText_encode, haccepts, hverify, hmessage]
    cases expected <;> rfl
  have hbinds := bindsDigests_produced h
  rw [Bundle.toPy, hsignature] at hbinds
  rw [verifyAcceptance, verifyBundle, Bundle.toPy, hsignature]
  simp only [PyValue.getItem_dict, SortedMap.find_cons, String.reduceEq, ↓reduceIte, required,
    ok_bind, hbinds, hcheck, BundleSignature.isNone_toPy]
  cases expected with
  | none => rfl
  | some text =>
      rw [Option.map_some]
      cases hdecode : decodeText text with
      | ok key => simp [hdecode, Except.map, ok_bind]
      | error e =>
          cases failsWith_decodeText text e hdecode
          simp only [Option.elim_some, hdecode]
          rfl

/-! ## Any bundle at all -/

/-- A bundle verifies as valid only if the pinned key verifies its canonical payload. -/
theorem signed_of_valid {bundle : PyValue} {expected : Option String} {answers : Answers}
    (h : verifyAcceptance bundle expected = .ok answers) (hvalid : answers.valid = true) :
    ∃ text key payload message value, expected = some text ∧ decodeText text = .ok key ∧
      bundle.getItem "payload" = .ok payload ∧ payload.canonical = .ok message ∧
      PyLibraries.verify key value message = true := by
  unfold verifyAcceptance at h
  split at h
  case h_2 =>
    split at h
    · cases h
      cases hvalid
    · cases h
  rename_i found hfound
  cases h
  obtain ⟨payload, hpayload, hfound⟩ := bind_eq_ok.mp hfound
  obtain ⟨intact, -, hfound⟩ := bind_eq_ok.mp hfound
  obtain ⟨signature, -, hfound⟩ := bind_eq_ok.mp hfound
  split at hfound
  · cases hfound
    cases hvalid
  obtain ⟨checked, hchecked, hfound⟩ := bind_eq_ok.mp hfound
  cases checked with
  | none =>
      cases hfound
      cases hvalid
  | some authenticated =>
      cases hfound
      have hauthenticated : authenticated = true := (Bool.and_eq_true_iff.mp hvalid).2
      obtain ⟨algorithm, -, hchecked⟩ := bind_eq_ok.mp hchecked
      split at hchecked
      · cases hchecked
      obtain ⟨key, -, hchecked⟩ := bind_eq_ok.mp hchecked
      obtain ⟨_, -, hchecked⟩ := bind_eq_ok.mp hchecked
      obtain ⟨value, -, hchecked⟩ := bind_eq_ok.mp hchecked
      obtain ⟨message, hmessage, hchecked⟩ := bind_eq_ok.mp hchecked
      split at hchecked
      · cases hchecked
      rename_i hverify
      cases expected with
      | none =>
          cases hchecked
          cases hauthenticated
      | some text =>
          obtain ⟨pinned, hpinned, hchecked⟩ := bind_eq_ok.mp hchecked
          cases hchecked
          cases of_decide_eq_true hauthenticated
          exact ⟨text, key, payload, message, value, rfl, hpinned, hpayload, hmessage,
            by simpa using hverify⟩

/-- The messages whose signatures the key verifies are the ones its holder signed. -/
def Genuine (key : List UInt8) (signed : Set (List UInt8)) : Prop :=
  ∀ message value, PyLibraries.verify key value message = true → message ∈ signed

/-! ### There is always an answer -/

/-- The error is one that refuses the bundle. -/
def Malformed (e : PyError) : Prop := e.isMalformed = true

omit [PyLibraries] in
theorem failsWith_getItem (value : PyValue) (key : String) :
    FailsWith Malformed (value.getItem key) := by
  cases value with
  | dict items => exact failsWith_required rfl
  | _ => exact failsWith_error rfl

theorem failsWith_decode (value : PyValue) : FailsWith Malformed value.decode := by
  cases value with
  | str text =>
      intro e he
      cases failsWith_decodeText text e he
      rfl
  | _ => exact failsWith_error rfl

omit [PyLibraries] in
theorem failsWith_canonical (value : PyValue) : FailsWith Malformed value.canonical := by
  refine FailsWith.bind ?_ fun _ _ => failsWith_ok
  exact failsWith_rejectIf fun _ => rfl

omit [PyLibraries] in
theorem failsWith_malformed {c : Prop} [Decidable c] {e : PyError} (h : Malformed e) :
    FailsWith Malformed (rejectIf c e) := failsWith_rejectIf fun _ => h

omit [PyLibraries] in
theorem FailsWith.both {E : PyError → Prop} {first second : Except PyError Bool}
    (hfirst : FailsWith E first) (hsecond : FailsWith E second) :
    FailsWith E (both first second) := by
  refine hfirst.bind fun value _ => ?_
  cases value with
  | true => exact hsecond
  | false => exact failsWith_ok

omit [PyLibraries] in
theorem failsWith_countsAreSane (report : PyValue) : FailsWith Malformed (countsAreSane report) := by
  have hnegative : ∀ value, FailsWith Malformed (isNegative value) := by
    intro value
    cases value with
    | int _ | bool _ | float _ => exact failsWith_ok
    | _ => exact failsWith_error rfl
  have hitems : ∀ value, FailsWith Malformed (itemsOf value) := by
    intro value
    cases value with
    | list _ => exact failsWith_ok
    | _ => exact failsWith_error rfl
  refine FailsWith.bind ((failsWith_getItem _ _).bind fun value _ => hnegative value) fun rows _ => ?_
  cases rows with
  | true => exact failsWith_ok
  | false =>
      refine FailsWith.bind ((failsWith_getItem _ _).bind fun value _ => hnegative value)
        fun violations _ => ?_
      cases violations with
      | true => exact failsWith_ok
      | false =>
          refine FailsWith.bind ((failsWith_getItem _ _).bind fun value _ => hitems value)
            fun columns _ => ?_
          refine FailsWith.bind ((failsWith_getItem _ _).bind fun value _ => hitems value)
            fun indices _ => ?_
          split <;> exact failsWith_ok

omit [PyLibraries] in
theorem failsWith_wellFormedDecision (decision : PyValue) :
    FailsWith Malformed (wellFormedDecision decision) := by
  cases decision with
  | dict items =>
      rw [wellFormedDecision]
      split
      · exact failsWith_ok
      · refine (failsWith_getItem _ _).bind fun status _ => ?_
        refine FailsWith.bind (failsWith_malformed rfl) fun _ _ => ?_
        split
        · exact failsWith_ok
        · refine (failsWith_getItem _ _).bind fun evaluated _ => ?_
          refine (failsWith_getItem _ _).bind fun reasons _ => ?_
          cases reasons <;> exact failsWith_ok
  | _ => exact failsWith_ok

omit [PyLibraries] in
theorem failsWith_scanMatchesDecision (payload : PyValue) :
    FailsWith Malformed (scanMatchesDecision payload) := by
  refine FailsWith.bind ((failsWith_getItem _ _).bind fun _ _ => failsWith_getItem _ _)
    fun status _ => ?_
  refine (failsWith_getItem _ _).bind fun report _ => ?_
  refine (failsWith_getItem _ _).bind fun evidence _ => ?_
  split
  · exact failsWith_ok
  split
  · exact failsWith_ok
  refine (failsWith_countsAreSane _).bind fun sane _ => ?_
  split
  · exact failsWith_ok
  split
  · exact failsWith_ok
  · exact (failsWith_getItem _ _).bind fun _ _ => failsWith_ok

omit [PyLibraries] in
theorem failsWith_wellFormed (payload : PyValue) : FailsWith Malformed (wellFormed payload) := by
  cases payload with
  | dict items =>
      rw [wellFormed]
      split
      · exact failsWith_ok
      · refine FailsWith.both ((failsWith_getItem _ _).bind fun _ _ =>
          failsWith_wellFormedDecision _) (FailsWith.both (failsWith_scanMatchesDecision _) ?_)
        exact (failsWith_mapM fun _ _ => failsWith_getItem _ _).bind fun _ _ => failsWith_ok
  | _ => exact failsWith_ok

theorem failsWith_isDigestOf (holder : PyValue) (field : String) (value : PyValue) :
    FailsWith Malformed (isDigestOf holder field value) :=
  (failsWith_getItem _ _).bind fun _ _ =>
    ((failsWith_canonical _).bind fun _ _ => failsWith_ok).bind fun _ _ => failsWith_ok

theorem failsWith_bindsDigests (bundle payload : PyValue) :
    FailsWith Malformed (bindsDigests bundle payload) := by
  have hfield : ∀ name field : String,
      FailsWith Malformed (payload.getItem name >>= isDigestOf payload field) := fun _ _ =>
    (failsWith_getItem _ _).bind fun _ _ => failsWith_isDigestOf _ _ _
  refine FailsWith.both (failsWith_wellFormed _) (FailsWith.both ?_ (FailsWith.both
    (failsWith_isDigestOf _ _ _) (FailsWith.both (hfield _ _) (FailsWith.both (hfield _ _)
      (hfield _ _)))))
  exact (failsWith_getItem _ _).bind fun _ _ => failsWith_ok

theorem failsWith_checkSignature (payload signature : PyValue) (expected : Option String) :
    FailsWith Malformed (checkSignature payload signature expected) := by
  refine (failsWith_getItem _ _).bind fun algorithm _ => ?_
  split
  · exact failsWith_ok
  refine FailsWith.bind ((failsWith_getItem _ _).bind fun _ _ => failsWith_decode _) fun key _ => ?_
  refine FailsWith.bind (failsWith_malformed rfl) fun _ _ => ?_
  refine FailsWith.bind ((failsWith_getItem _ _).bind fun _ _ => failsWith_decode _)
    fun value _ => ?_
  refine (failsWith_canonical _).bind fun message _ => ?_
  split
  · exact failsWith_ok
  cases expected with
  | none => exact failsWith_ok
  | some text =>
      exact FailsWith.bind (failsWith_decode (.str text)) fun _ _ => failsWith_ok

/-- A bundle of any shape gets an answer. -/
theorem verifyAcceptance_total (bundle : PyValue) (expected : Option String) :
    ∃ answers, verifyAcceptance bundle expected = .ok answers := by
  have hfails : FailsWith Malformed (verifyBundle bundle expected) := by
    refine (failsWith_getItem _ _).bind fun payload _ => ?_
    refine (failsWith_bindsDigests _ _).bind fun intact _ => ?_
    refine (failsWith_getItem _ _).bind fun signature _ => ?_
    split
    · exact failsWith_ok
    · refine (failsWith_checkSignature _ _ _).bind fun checked _ => ?_
      cases checked <;> exact failsWith_ok
  unfold verifyAcceptance
  cases hverify : verifyBundle bundle expected with
  | ok answers => exact ⟨answers, rfl⟩
  | error e => exact ⟨refused, if_pos (hfails e hverify)⟩

/-! ## Acceptance -/

/-- What is to hold of a bundle that `acceptFile` produced, checked with a pinned key. -/
structure Binds (request : Request) (bundle : Bundle) (expected : Option String) : Prop where
  accepted_iff : ∀ reader checked, request.Completes reader checked →
    (bundle.payload.decision.status = .accepted ↔
      bundle.payload.policy.Accepts reader.names checked.report)
  unknown_iff : bundle.payload.decision.status = .unknown ↔
    ¬∃ reader checked, request.Completes reader checked
  intact : ∃ answers, verifyAcceptance bundle.toPy expected = .ok answers ∧ answers.intact = true
  valid_iff : ∃ answers, verifyAcceptance bundle.toPy expected = .ok answers ∧
    (answers.valid = true ↔ ∃ secret text, request.secret = some secret ∧ expected = some text ∧
      decodeText text = .ok (PyLibraries.publicKey secret))
  unpinned : ∀ other : PyValue, ∃ answers, verifyAcceptance other none = .ok answers ∧
    answers.valid = false
  altered : ∀ (other payload : PyValue) (pinned : String) (key : List UInt8)
    (signed : Set (List UInt8)), decodeText pinned = .ok key → Genuine key signed →
    other.getItem "payload" = .ok payload →
    (∀ message, payload.canonical = .ok message → message ∉ signed) →
    ∃ answers, verifyAcceptance other (some pinned) = .ok answers ∧ answers.valid = false

theorem completes_iff {request : Request} {bundle : Bundle} {settings recorded : PyValue}
    {reader : Reader} {checked : Checked}
    (hcontract : readContract request.contract = .ok bundle.payload.contract)
    (hplan : readPlan request.file request.csvOptions = .ok (settings, recorded)) :
    request.Completes reader checked ↔ request.file.opened settings = .ok reader ∧
      reader.checkWithEvidence bundle.payload.contract = .ok checked := by
  constructor
  · rintro ⟨contract, settings', recorded', hcontract', hplan', hopened, hchecked⟩
    rw [hcontract] at hcontract'
    rw [hplan] at hplan'
    cases hcontract'
    cases hplan'
    exact ⟨hopened, hchecked⟩
  · rintro ⟨hopened, hchecked⟩
    exact ⟨_, _, _, hcontract, hplan, hopened, hchecked⟩

theorem accepted_iff_of_produced {request : Request} {bundle : Bundle}
    (h : Produced request bundle) {reader : Reader} {checked : Checked}
    (hcompletes : request.Completes reader checked) :
    (bundle.payload.decision.status = .accepted ↔
      bundle.payload.policy.Accepts reader.names checked.report) ∧
    bundle.payload.decision.status ≠ .unknown := by
  obtain ⟨settings, recorded, hplan, -, hscans⟩ := h.scans
  obtain ⟨hopened, hchecked⟩ := (completes_iff h.contract hplan).mp hcompletes
  generalize bundle.payload.scanned = scanned at hscans
  generalize hdecided : bundle.payload.decision = decision at hscans
  cases hscans with
  | completed hopened' hchecked' _ _ hdecision =>
      rw [hopened] at hopened'
      cases hopened'
      rw [hchecked] at hchecked'
      cases hchecked'
      exact decideReport_accepts hdecision
  | failed hfailed => exact absurd hchecked (hfailed reader hopened checked)

theorem unknown_iff_of_produced {request : Request} {bundle : Bundle}
    (h : Produced request bundle) :
    bundle.payload.decision.status = .unknown ↔
      ¬∃ reader checked, request.Completes reader checked := by
  constructor
  · rintro hunknown ⟨reader, checked, hcompletes⟩
    exact (accepted_iff_of_produced h hcompletes).2 hunknown
  · intro hnone
    obtain ⟨settings, recorded, hplan, -, hscans⟩ := h.scans
    generalize bundle.payload.scanned = scanned at hscans
    generalize hdecided : bundle.payload.decision = decision at hscans
    cases hscans with
    | completed hopened hchecked _ _ _ =>
        exact absurd ⟨_, _, (completes_iff h.contract hplan).mpr ⟨hopened, hchecked⟩⟩ hnone
    | failed _ => rfl

theorem unpinned_invalid (other : PyValue) :
    ∃ answers, verifyAcceptance other none = .ok answers ∧ answers.valid = false := by
  obtain ⟨answers, hanswers⟩ := verifyAcceptance_total other none
  refine ⟨answers, hanswers, Bool.eq_false_iff.mpr fun hvalid => ?_⟩
  obtain ⟨_, _, _, _, _, hpinned, -⟩ := signed_of_valid hanswers hvalid
  cases hpinned

theorem altered_invalid {other payload : PyValue} {pinned : String} {key : List UInt8}
    {signed : Set (List UInt8)} (hkey : decodeText pinned = .ok key) (hgenuine : Genuine key signed)
    (hpayload : other.getItem "payload" = .ok payload)
    (hunsigned : ∀ message, payload.canonical = .ok message → message ∉ signed) :
    ∃ answers, verifyAcceptance other (some pinned) = .ok answers ∧ answers.valid = false := by
  obtain ⟨answers, hanswers⟩ := verifyAcceptance_total other (some pinned)
  refine ⟨answers, hanswers, Bool.eq_false_iff.mpr fun hvalid => ?_⟩
  obtain ⟨_, _, _, message, value, ⟨⟩, hkey', hpayload', hmessage, hverify⟩ :=
    signed_of_valid hanswers hvalid
  rw [hkey] at hkey'
  cases hkey'
  rw [hpayload] at hpayload'
  cases hpayload'
  exact hunsigned message hmessage (hgenuine message value hverify)

/-- The key that is pinned, if any, is the text of some bytes. -/
def Readable (expected : Option String) : Prop :=
  ∀ text, expected = some text → ∃ key, decodeText text = .ok key

/-- A produced bundle is intact and valid for its signer, unless it is signed and the key to compare
the signer's with is no text of bytes: then the whole check is refused. -/
theorem acceptFile_binds_iff (request : Request) (bundle : Bundle) (expected : Option String)
    (h : acceptFile request = .ok bundle) (hsigner : SignerHolds request bundle.payload) :
    Binds request bundle expected ↔ request.privateKey = none ∨ Readable expected := by
  have hproduced := produced_of_acceptFile h
  -- the rest of the claim holds of every bundle: what is left is the answer of the verification
  have hbinds : (∃ answers, verifyAcceptance bundle.toPy expected = .ok answers ∧
      answers.intact = true ∧ (answers.valid = true ↔ ∃ secret text,
        request.secret = some secret ∧ expected = some text ∧
          decodeText text = .ok (PyLibraries.publicKey secret))) →
      Binds request bundle expected := by
    rintro ⟨answers, hanswers, hintact, hvalid⟩
    exact
      { accepted_iff := fun _ _ hcompletes => (accepted_iff_of_produced hproduced hcompletes).1
        unknown_iff := unknown_iff_of_produced hproduced
        intact := ⟨answers, hanswers, hintact⟩
        valid_iff := ⟨answers, hanswers, hvalid⟩
        unpinned := unpinned_invalid
        altered := fun _ _ _ _ _ hkey hgenuine hpayload hunsigned =>
          altered_invalid hkey hgenuine hpayload hunsigned }
  -- unsigned, without a pinned key, with a readable one, and with one that is refused
  cases hkey : request.privateKey with
  | none =>
      refine iff_of_true (hbinds ⟨_, verifyAcceptance_unsigned hproduced hkey expected, rfl, ?_⟩)
        (.inl rfl)
      simp [Request.secret, hkey]
  | some privateKey =>
      obtain ⟨secret, hsecret, hanswers⟩ :=
        verifyAcceptance_signed hproduced hkey hsigner expected
      cases expected with
      | none =>
          refine iff_of_true (hbinds ⟨_, hanswers, rfl, ?_⟩) (.inr fun _ htext => nomatch htext)
          simp
      | some text =>
          rw [Option.map_some] at hanswers
          cases hdecode : decodeText text with
          | ok key =>
              rw [hdecode] at hanswers
              refine iff_of_true (hbinds ⟨_, hanswers, rfl, ?_⟩) (.inr ?_)
              · simp [hsecret, hdecode, eq_comm]
              · rintro _ ⟨⟩
                exact ⟨key, hdecode⟩
          | error e =>
              rw [hdecode] at hanswers
              refine iff_of_false (fun hbound => ?_) ?_
              · obtain ⟨answers, hanswers', hintact⟩ := hbound.intact
                rw [hanswers] at hanswers'
                cases hanswers'
                cases hintact
              · rintro (hnone | hreadable)
                · cases hnone
                · obtain ⟨key, hkey⟩ := hreadable text rfl
                  rw [hdecode] at hkey
                  cases hkey

end Libraries

/-! ### A signed bundle of a completed scan -/

/-- The private key of all zeros. -/
def zeroSecret : List UInt8 := List.replicate 32 0

def zeroDigestText : String := String.ofList ((List.replicate 32 (0 : UInt8)).flatMap hexByte)

/-- The check of three ids, of which one is null. -/
def idsChecked : Checked where
  report :=
    { valid := false, violationCount := 1, truncated := false
      findings := [⟨"not_null", "id", some 2, "null value"⟩], rows := 3, mode := "exact"
      evaluatedColumns := [2], evaluatedIndices := [0], metrics := ⟨0, 0, 0, 0, 0⟩
      resources := ⟨1000, 1000, 100, 100⟩
      compiledPlanDigest := "pf-plan-v1:" ++ zeroDigestText
      schemaDigest := "pf-schema-v1:" ++ zeroDigestText
      references := [] }
  contractSourceDigest := "pf-contract-v1:" ++ zeroDigestText
  evidence :=
    { schema := .v2
      dataset := ⟨.v2, ⟨zeroSecret, length_zeroBytes⟩, 3⟩
      contractSourceDigest := "pf-contract-v1:" ++ zeroDigestText
      compiledPlanDigest := "pf-plan-v1:" ++ zeroDigestText
      schemaDigest := "pf-schema-v1:" ++ zeroDigestText
      engine := ⟨"proofframe", "0.7.2"⟩
      execution := ⟨"check", ⟨⟨1000, 1000, 100, 100⟩, by decide⟩⟩
      result := ⟨false, 1, 1, false, "pf-result-v1:" ++ zeroDigestText,
        "pf-report-v1:" ++ zeroDigestText, "pf-findings-v1:" ++ zeroDigestText,
        "pf-metrics-v1:" ++ zeroDigestText⟩ }
  paired := rfl
  words := by decide

def idsFile : SourceFile where
  suffix := ".parquet"
  opened _ := .ok ⟨["id"], fun _ => .ok idsChecked⟩

/-- One violation is allowed, and two ids have to be evaluated. -/
def idsPolicy : Policy := ⟨1, [("id", 2)]⟩

def idsContract : PyValue := .dict [("version", .str "proofframe.contract.v1")]

/-- What the scan of the file finds, whatever the settings. -/
def idsScan : Scanned × Decision :=
  (@scanReader PyLibraries.blank idsFile idsContract .none idsPolicy).toOption.getD
    (⟨.none, .none⟩, { status := .unknown, reasons := [], evaluated := [] })

def idsBundle : Bundle where
  payload :=
    { contract := idsContract, contractId := zeroDigestText
      policy := idsPolicy, policyId := zeroDigestText
      readSettings := readSettings idsFile .none, readSettingsId := zeroDigestText
      decision := idsScan.2, scanned := some idsScan.1 }
  sha256 := zeroDigestText
  signature := some { publicKey := encode zeroSecret, value := encode (List.replicate 64 0) }

/-- A signed acceptance with just enough room for its bundle. -/
def idsRequest : Request where
  file := idsFile
  contract := []
  policy := some [("max_violations", .int 1), ("minimum_evaluated", .dict [("id", .int 2)])]
  csvOptions := none
  output := none
  privateKey := some (encode zeroSecret)
  maxOutputBytes := idsBundle.toPy.text.length + 1

theorem secret_idsRequest [PyLibraries] : idsRequest.secret = some zeroSecret := by
  show (readPrivateKey (encode zeroSecret)).toOption = some zeroSecret
  rw [readPrivateKey, decodeText_encode]
  rfl

theorem acceptFile_idsRequest : @acceptFile PyLibraries.blank idsRequest = .ok idsBundle := by
  let _ : PyLibraries := PyLibraries.blank
  have hplan : ∃ settings recorded, readPlan idsFile none = .ok (settings, recorded) :=
    ⟨_, _, rfl⟩
  obtain ⟨settings, recorded, hplan⟩ := hplan
  have hscan : scan idsFile idsContract settings idsPolicy = .ok (some idsScan.1, idsScan.2) := rfl
  have hcanonical : ∀ value : PyValue, value.isFinite = true →
      value.canonical = .ok (value.text.map fun c => UInt8.ofNat c.toNat) := by
    intro value hvalue
    rw [PyValue.canonical, hvalue]
    rfl
  have hpayload : idsBundle.payload.toPy.canonical = .ok _ := hcanonical _ (by decide +kernel)
  have hbundle : idsBundle.toPy.canonical = .ok _ := hcanonical _ (by decide +kernel)
  have hdigest : idsBundle.payload.toPy.digest = .ok zeroDigestText := by
    rw [PyValue.digest, hpayload]
    rfl
  have hsign : signWith idsBundle.payload (some (encode zeroSecret)) = .ok idsBundle.signature := by
    rw [signWith, signPayload, readPrivateKey, decodeText_encode, hpayload]
    rfl
  have hpositive : rejectIf (idsRequest.maxOutputBytes ≤ 0) PyError.value = .ok () := by
    refine rejectIf_eq_ok.mpr ?_
    show ¬((idsBundle.toPy.text.length : ℤ) + 1 ≤ 0)
    omega
  have hroom : rejectIf (idsRequest.maxOutputBytes <
      (idsBundle.toPy.text.map fun c => UInt8.ofNat c.toNat).length)
      (PyError.operational "ResourceLimitError") = .ok () := by
    refine rejectIf_eq_ok.mpr ?_
    rw [List.length_map]
    show ¬((idsBundle.toPy.text.length : ℤ) + 1 < idsBundle.toPy.text.length)
    omega
  refine bind_eq_ok.mpr ⟨(), hpositive, bind_eq_ok.mpr ⟨idsPolicy, rfl, ?_⟩⟩
  refine bind_eq_ok.mpr ⟨idsContract, rfl, bind_eq_ok.mpr ⟨(settings, recorded), hplan, ?_⟩⟩
  refine bind_eq_ok.mpr ⟨(), rfl, bind_eq_ok.mpr ⟨(some idsScan.1, idsScan.2), hscan, ?_⟩⟩
  refine bind_eq_ok.mpr ⟨zeroDigestText, rfl, bind_eq_ok.mpr ⟨zeroDigestText, rfl, ?_⟩⟩
  refine bind_eq_ok.mpr ⟨zeroDigestText, rfl, bind_eq_ok.mpr ⟨zeroDigestText, hdigest, ?_⟩⟩
  refine bind_eq_ok.mpr ⟨idsBundle.signature, hsign, ?_⟩
  exact bind_eq_ok.mpr ⟨_, hbundle, bind_eq_ok.mpr ⟨(), hroom, rfl⟩⟩

theorem signerHolds_idsRequest : @SignerHolds PyLibraries.blank idsRequest idsBundle.payload := by
  let _ : PyLibraries := PyLibraries.blank
  intro secret message hsecret _
  rw [secret_idsRequest] at hsecret
  cases hsecret
  exact ⟨rfl, rfl⟩

/-- The ids are accepted, and their bundle holds what it is to hold for whoever pins its signer. -/
theorem acceptFile_binds_iff_ids :
    idsBundle.payload.decision.status = .accepted ∧
      @Binds PyLibraries.blank idsRequest idsBundle (some (encode zeroSecret)) := by
  let _ : PyLibraries := PyLibraries.blank
  have hreadable : Readable (some (encode zeroSecret)) := by
    rintro _ ⟨⟩
    exact ⟨zeroSecret, decodeText_encode zeroSecret⟩
  exact ⟨rfl, (acceptFile_binds_iff idsRequest idsBundle (some (encode zeroSecret))
    acceptFile_idsRequest signerHolds_idsRequest).mpr (.inr hreadable)⟩

/-- Pinned to a text that is no key, it is not even intact. -/
theorem idsBundle_unreadable :
    @acceptFile PyLibraries.blank idsRequest = .ok idsBundle ∧
      ¬@Binds PyLibraries.blank idsRequest idsBundle (some "A") := by
  let _ : PyLibraries := PyLibraries.blank
  refine ⟨acceptFile_idsRequest, fun hbound => ?_⟩
  have hunreadable : decodeText "A" = .error .value := by decide +kernel
  obtain ⟨secret, -, hanswers⟩ := verifyAcceptance_signed
    (produced_of_acceptFile acceptFile_idsRequest)
    (show idsRequest.privateKey = some (encode zeroSecret) from rfl)
    signerHolds_idsRequest (some "A")
  rw [Option.map_some, hunreadable] at hanswers
  obtain ⟨answers, hanswers', hintact⟩ := hbound.intact
  rw [hanswers] at hanswers'
  cases hanswers'
  cases hintact

end ProofFrame.Acceptance
