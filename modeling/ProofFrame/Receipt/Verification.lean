import ProofFrame.Receipt.Legacy

/-!
# Verification of receipts

The entry points of the three kinds of receipt.  A receipt is valid only if its
signature verifies over its payload with the embedded key, the policy names that
key, and the document is valid; and what was signed is valid for whoever expects
the key.
-/

namespace ProofFrame

open Lib Lib.Run

inductive ReceiptSchema where
  | v2
  deriving DecidableEq

inductive PartitionReceiptSchema where
  | v1
  deriving DecidableEq

section Formats

variable [Crates]

/-- Receipts of the second version. -/
def receiptV2 : Format ReceiptSchema EvidenceV2 where
  schema := .v2
  schemaName := fun .v2 => "proofframe.receipt.v2"
  schemaNamed := fun
    | "proofframe.receipt.v2" => some .v2
    | _ => none
  typeName := "SignedReceiptV2"
  domain := "proofframe:receipt:v2"
  hashField := "evidence_hash"
  documentField := "evidence"
  toJson := EvidenceV2.toJson
  ofJson := EvidenceV2.ofJson
  validate := EvidenceV2.validate
  digestUnchecked := EvidenceV2.digestUnchecked
  hashOfValid := false

/-- Receipts of partition manifests. -/
def partitionReceiptV1 : Format PartitionReceiptSchema PartitionManifestV1 where
  schema := .v1
  schemaName := fun .v1 => "proofframe.partition-receipt.v1"
  schemaNamed := fun
    | "proofframe.partition-receipt.v1" => some .v1
    | _ => none
  typeName := "SignedPartitionReceiptV1"
  domain := "proofframe:partition-receipt:v1"
  hashField := "manifest_hash"
  documentField := "manifest"
  toJson := PartitionManifestV1.toJson
  ofJson := PartitionManifestV1.ofJson
  validate := PartitionManifestV1.validate
  digestUnchecked := PartitionManifestV1.digestUnchecked
  hashOfValid := true

theorem reads_receiptV2 : receiptV2.Reads where
  schema := fun .v2 => rfl
  document _ hview evidence := EvidenceV2.ofJson_view hview evidence
  names := by
    change ["schema", "algorithm", "engine_version", "issued_at_unix_ms", "evidence_hash",
      "evidence", "public_key"].Nodup
    decide

theorem reads_partitionReceiptV1 : partitionReceiptV1.Reads where
  schema := fun .v1 => rfl
  document _ hview manifest := PartitionManifestV1.ofJson_view hview manifest
  names := by
    change ["schema", "algorithm", "engine_version", "issued_at_unix_ms", "manifest_hash",
      "manifest", "public_key"].Nodup
    decide

end Formats

abbrev SignedReceiptV2 : Type := Signed ReceiptSchema EvidenceV2

abbrev SignedPartitionReceiptV1 : Type := Signed PartitionReceiptSchema PartitionManifestV1

section EntryPoints

variable [Crates] [Ed25519] [Base64]

def signV2 (evidence : EvidenceV2) (signing : KeyBytes) (clock : Except Fault UInt64) :
    Except Fault SignedReceiptV2 :=
  receiptV2.sign evidence signing clock

def verifyV2 (receipt : SignedReceiptV2) (trust : TrustPolicy) : Except Fault ReceiptVerification :=
  receiptV2.verify receipt trust

def signPartitionManifest (manifest : PartitionManifestV1) (signing : KeyBytes)
    (clock : Except Fault UInt64) : Except Fault SignedPartitionReceiptV1 :=
  partitionReceiptV1.sign manifest signing clock

def verifyPartitionManifestReceipt (receipt : SignedPartitionReceiptV1) (trust : TrustPolicy) :
    Except Fault ReceiptVerification :=
  partitionReceiptV1.verify receipt trust

variable [SerdeJson]

def signV2Json (evidenceJson privateKey : String) (clock : Except Fault UInt64) :
    Except Fault String := do
  let evidence ← fromStr "EvidenceV2" EvidenceV2.ofJson evidenceJson
  let signing ← decodeExact 32 privateKey "private key"
  let receipt ← signV2 evidence signing clock
  .ok (receiptV2.signedJson receipt).compact

/-- Verify a receipt of the first or the second version. -/
def verifyJsonWithPolicy (receiptJson : String) (trust : TrustPolicy) :
    Except Fault ReceiptVerification := do
  let value ← fromStr "Value" (some ∘ JsonValue.ofJson) receiptJson
  match (value.val.get "schema").bind Json.asStr with
  | some "proofframe.receipt.v2" => do
      let receipt ← fromValue "SignedReceiptV2" receiptV2.signedOfJson value.val
      verifyV2 receipt trust
  | some "proofframe.receipt.v1" => do
      let receipt ← fromValue "SignedReceipt" SignedReceipt.ofJson value.val
      let publicKey ← decodePublicKey receipt.unsigned.publicKey
      let verification ← verifyJson receiptJson
      let signerTrusted := trust.accepts publicKey
      .ok { valid := verification.valid && signerTrusted
            signatureValid := verification.signatureValid
            reportHashMatches := verification.reportHashMatches
            schemaSupported := verification.schemaSupported
            signerTrusted
            legacy := true }
  | _ => .ok { valid := false, signatureValid := false, reportHashMatches := false
               schemaSupported := false, signerTrusted := false, legacy := false }

def verifyJsonWithExpectedKey (receiptJson : String) (expectedPublicKey : Option String) :
    Except Fault ReceiptVerification := do
  let trust ← match expectedPublicKey with
    | some key => (decodePublicKey key).map .expectedKey
    | none => .ok .signatureOnly
  verifyJsonWithPolicy receiptJson trust

end EntryPoints

/-! ## Texts of receipts -/

section Texts

variable [Crates] [Ed25519] [Base64] [SerdeJson]

/-- The verification of a receipt that is all right. -/
def allValid (legacy : Bool) : ReceiptVerification :=
  { valid := true, signatureValid := true, reportHashMatches := true, schemaSupported := true
    signerTrusted := true, legacy }

/-- The text is read as the receipt, through the value of its document. -/
def ReadsAs {α : Type} (decode : Json → Option α) (text : String) (receipt : α) : Prop :=
  ∃ json, SerdeJson.parse text = .ok json ∧ decode json.toValue = some receipt

/-- `sign_v2_json` writes the text of a receipt that was signed. -/
theorem signV2Json_eq_ok {evidenceJson privateKey text : String} {clock : Except Fault UInt64}
    (h : signV2Json evidenceJson privateKey clock = .ok text) :
    ∃ evidence signing receipt, decodeExact 32 privateKey "private key" = .ok signing ∧
      signV2 evidence signing clock = .ok receipt ∧
      text = (receiptV2.signedJson receipt).compact := by
  obtain ⟨evidence, -, h⟩ := bind_eq_ok.mp h
  obtain ⟨signing, hsigning, h⟩ := bind_eq_ok.mp h
  obtain ⟨receipt, hreceipt, h⟩ := bind_eq_ok.mp h
  injection h with h
  exact ⟨evidence, signing, receipt, hsigning, hreceipt, h.symm⟩

/-- The kind of receipt a text is verified as, where it can be valid. -/
theorem verifyJsonWithPolicy_valid {text : String} {trust : TrustPolicy}
    {verification : ReceiptVerification} (h : verifyJsonWithPolicy text trust = .ok verification)
    (hvalid : verification.valid = true) :
    (∃ receipt, ReadsAs receiptV2.signedOfJson text receipt ∧
      verifyV2 receipt trust = .ok verification) ∨
    ∃ receipt legacy key, fromStr "SignedReceipt" SignedReceipt.ofJson text = .ok receipt ∧
      receipt.verify = .ok legacy ∧ legacy.valid = true ∧
      decodePublicKey receipt.unsigned.publicKey = .ok key ∧ trust.accepts key = true := by
  obtain ⟨value, hvalue, h⟩ := bind_eq_ok.mp h
  obtain ⟨json, hparse, hjson⟩ := fromStr_eq_ok.mp hvalue
  obtain rfl : JsonValue.ofJson json = value := Option.some.inj hjson
  split at h
  · obtain ⟨receipt, hreceipt, h⟩ := bind_eq_ok.mp h
    exact .inl ⟨receipt, ⟨json, hparse, fromValue_eq_ok.mp hreceipt⟩, h⟩
  · obtain ⟨valueReceipt, hvalueReceipt, h⟩ := bind_eq_ok.mp h
    obtain ⟨key, hkey, h⟩ := bind_eq_ok.mp h
    obtain ⟨legacy, hlegacy, h⟩ := bind_eq_ok.mp h
    obtain ⟨receipt, hreceipt, hverify⟩ := bind_eq_ok.mp hlegacy
    injection h with h
    subst h
    rw [Bool.and_eq_true] at hvalid
    obtain ⟨json', hparse', hdecode⟩ := fromStr_eq_ok.mp hreceipt
    rw [hparse] at hparse'
    injection hparse' with hparse'
    subst hparse'
    rw [SignedReceipt.publicKey_toValue hdecode (fromValue_eq_ok.mp hvalueReceipt)] at hkey
    exact .inr ⟨receipt, legacy, key, hreceipt, hverify, hvalid.1, hkey, hvalid.2⟩
  · injection h with h
    subst h
    cases hvalid

omit [Crates] [Ed25519] [Base64] in
/-- What the value of a written receipt says its schema is. -/
theorem schema_of_written (schema : String) (json : Json) {text : String}
    {members : List (String × Json)} (hjson : json = .object members)
    (hparse : SerdeJson.parse text = .ok json) (hnodup : (members.map Prod.fst).Nodup)
    (hschema : SortedMap.find "schema" members = some (.string schema)) :
    fromStr "Value" (some ∘ JsonValue.ofJson) text = .ok (JsonValue.ofJson json) ∧
      ((JsonValue.ofJson json).val.get "schema").bind Json.asStr = some schema := by
  refine ⟨fromStr_eq_ok.mpr ⟨json, hparse, rfl⟩, ?_⟩
  have hget : (JsonValue.ofJson json).val.get "schema" =
      (SortedMap.find "schema" members).map Json.toValue := by
    rw [hjson]
    exact Serde.view_toValue.get "schema" members hnodup
  rw [hget, hschema]
  rfl

theorem verifyJson_signedV2 {receipt : SignedReceiptV2}
    (hreads : ReadsBack (receiptV2.signedJson receipt)) (trust : TrustPolicy) :
    verifyJsonWithPolicy (receiptV2.signedJson receipt).compact trust = verifyV2 receipt trust := by
  obtain ⟨hvalue, hschema⟩ := schema_of_written "proofframe.receipt.v2"
    (receiptV2.signedJson receipt) rfl hreads (by simp) rfl
  have hdecode : fromValue "SignedReceiptV2" receiptV2.signedOfJson
      (JsonValue.ofJson (receiptV2.signedJson receipt)).val = .ok receipt :=
    fromValue_eq_ok.mpr (reads_receiptV2.signedOfJson_view Serde.view_toValue receipt)
  unfold verifyJsonWithPolicy
  rw [hvalue, ok_bind, hschema, hdecode]
  rfl

theorem verifyJson_signReport {receipt : SignedReceipt} (hreads : ReadsBack receipt.toJson)
    (hschema : receipt.unsigned.schema = "proofframe.receipt.v1")
    (hverify : receipt.verify = .ok { valid := true, signatureValid := true
                                      reportHashMatches := true, schemaSupported := true })
    {key : VerifyingKey} (hkey : decodePublicKey receipt.unsigned.publicKey = .ok key) :
    verifyJsonWithPolicy receipt.toJson.compact (.expectedKey key) = .ok (allValid true) := by
  obtain ⟨hvalue, hfound⟩ := schema_of_written receipt.unsigned.schema receipt.toJson rfl hreads
    (by simp [UnsignedReceipt.members]) rfl
  have htext : fromStr "SignedReceipt" SignedReceipt.ofJson receipt.toJson.compact = .ok receipt :=
    fromStr_compact hreads (SignedReceipt.ofJson_view Serde.view_id (fun value => value.property) _)
  have hvalueRead : fromValue "SignedReceipt" SignedReceipt.ofJson
      (JsonValue.ofJson receipt.toJson).val = .ok receipt :=
    fromValue_eq_ok.mpr (SignedReceipt.ofJson_view Serde.view_toValue
      (fun value => (Serde.toValue_toValue _).trans value.property) receipt)
  have htrust : (TrustPolicy.expectedKey key).accepts key = true := by
    simp [TrustPolicy.accepts]
  rw [hschema] at hfound
  unfold verifyJsonWithPolicy verifyJson
  rw [hvalue, ok_bind, hfound, hvalueRead]
  refine bind_eq_ok.mpr ⟨receipt, rfl, bind_eq_ok.mpr ⟨key, hkey, bind_eq_ok.mpr ⟨_,
    bind_eq_ok.mpr ⟨receipt, htext, hverify⟩, ?_⟩⟩⟩
  rw [htrust]
  rfl

/-- A text that is not read is not verified. -/
theorem verifyJson_refused {text message : String} (h : SerdeJson.parse text = .error message)
    (trust : TrustPolicy) : verifyJsonWithPolicy text trust = .error (.error (.json message)) := by
  unfold verifyJsonWithPolicy fromStr
  rw [h]
  rfl

omit [Ed25519] [Base64] in
theorem readsBack_receiptV2 {kept : String → Bool} (hparser : SerdeJson.Reads kept)
    (receipt : SignedReceiptV2) : ReadsBack (receiptV2.signedJson receipt) :=
  hparser.written _ ((Format.signedJson_readable _ hparser.unsigned
    (EvidenceV2.readable hparser.unsigned _)).mono (by decide))

omit [Ed25519] [Base64] in
theorem readsBack_partitionReceiptV1 {kept : String → Bool} (hparser : SerdeJson.Reads kept)
    (receipt : SignedPartitionReceiptV1) : ReadsBack (partitionReceiptV1.signedJson receipt) :=
  hparser.written _ ((Format.signedJson_readable _ hparser.unsigned
    (PartitionManifestV1.readable hparser.unsigned _)).mono (by decide))

theorem verifyJsonWithExpectedKey_some {key : VerifyingKey} {publicKey : String}
    (h : decodePublicKey publicKey = .ok key) (text : String) :
    verifyJsonWithExpectedKey text (some publicKey) =
      verifyJsonWithPolicy text (.expectedKey key) := by
  rw [verifyJsonWithExpectedKey, h]
  rfl

end Texts

/-! ## What valid receipts are -/

section Claims

variable [Crates] [Ed25519] [Base64]

/-- Signed by a trusted key, with evidence that is consistent. -/
def EvidenceAuthentic (receipt : SignedReceiptV2) (trust : TrustPolicy) : Prop :=
  Authentic trust receipt.unsigned.publicKey receipt.signature
    (receiptV2.message receipt.unsigned) ∧
  receipt.unsigned.document.validate = .ok ()

/-- Signed by a trusted key, with a manifest that is accepted. -/
def ManifestAuthentic (receipt : SignedPartitionReceiptV1) (trust : TrustPolicy) : Prop :=
  Authentic trust receipt.unsigned.publicKey receipt.signature
    (partitionReceiptV1.message receipt.unsigned) ∧
  receipt.unsigned.document.validate = .ok ()

/-- Signed by a trusted key. -/
def ReportAuthentic (receipt : SignedReceipt) (trust : TrustPolicy) : Prop :=
  Authentic trust receipt.unsigned.publicKey receipt.signature (canonical receipt.unsigned.toJson)

omit [Crates] in
theorem not_authentic_signatureOnly {publicKey signature : String}
    {message : Except Fault (List UInt8)} :
    ¬Authentic .signatureOnly publicKey signature message := by
  rintro ⟨key, bytes, sig, -, -, -, -, htrusted⟩
  exact htrusted

theorem verifyV2_valid {receipt : SignedReceiptV2} {trust : TrustPolicy}
    {verification : ReceiptVerification} (h : verifyV2 receipt trust = .ok verification)
    (hvalid : verification.valid = true) : EvidenceAuthentic receipt trust := by
  obtain ⟨hauthentic, hdocument, -⟩ := Format.verify_valid h hvalid
  exact ⟨hauthentic, hdocument⟩

theorem verifyPartition_valid {receipt : SignedPartitionReceiptV1} {trust : TrustPolicy}
    {verification : ReceiptVerification}
    (h : verifyPartitionManifestReceipt receipt trust = .ok verification)
    (hvalid : verification.valid = true) : ManifestAuthentic receipt trust := by
  obtain ⟨hauthentic, hdocument, -⟩ := Format.verify_valid h hvalid
  exact ⟨hauthentic, hdocument⟩

variable [SerdeJson]

theorem verifyJson_valid {text : String} {trust : TrustPolicy} {verification : ReceiptVerification}
    (h : verifyJsonWithPolicy text trust = .ok verification) (hvalid : verification.valid = true) :
    (∃ receipt, ReadsAs receiptV2.signedOfJson text receipt ∧ EvidenceAuthentic receipt trust) ∨
    ∃ receipt, fromStr "SignedReceipt" SignedReceipt.ofJson text = .ok receipt ∧
      ReportAuthentic receipt trust := by
  rcases verifyJsonWithPolicy_valid h hvalid with
    ⟨receipt, hreads, hverify⟩ | ⟨receipt, legacy, key, hreads, hverify, hlegacy, hkey, htrust⟩
  · exact .inl ⟨receipt, hreads, verifyV2_valid hverify hvalid⟩
  · exact .inr ⟨receipt, hreads, (SignedReceipt.verify_valid hverify hlegacy hkey htrust).1⟩

omit [SerdeJson] in
/-- A payload with the key and the signature of a signed one is that payload. -/
theorem unsigned_eq_of_authentic {σ δ : Type} {format : Format σ δ} (hreads : format.Reads)
    {documents : Set Json} (hdocuments : KeepsApart documents) {key : VerifyingKey}
    {messages : Set (List UInt8)} {signed : Set (List UInt8 × Signature)}
    (hunforgeable : Unforgeable key messages signed)
    {unsigned : Unsigned σ δ} {receipt : Signed σ δ}
    (hmem : format.unsignedJson unsigned ∈ documents)
    (hmem' : format.unsignedJson receipt.unsigned ∈ documents)
    (hmessages : ∀ bytes, format.message receipt.unsigned = .ok bytes → bytes ∈ messages)
    {bytes : List UInt8}
    {sig : Signature} (hmessage : format.message unsigned = .ok bytes)
    (hsigned : (bytes, sig) ∈ signed)
    (hkey : decodePublicKey receipt.unsigned.publicKey = .ok key)
    (hsig : decodeExact 64 receipt.signature "signature" = .ok sig) {trust : TrustPolicy}
    (h : Authentic trust receipt.unsigned.publicKey receipt.signature
      (format.message receipt.unsigned)) : receipt.unsigned = unsigned :=
  Format.unsigned_eq_of_message hreads hdocuments hmem hmem' hmessage
    (h.message_eq hkey hunforgeable hmessages hsig hsigned)

end Claims

/-- Verification is valid only for receipts a trusted key signed over a valid document, and it is
valid for what was signed, also when it is read back from its text; the text of a receipt of the
first version is read back if the parser can follow the report inside it. -/
theorem receipts_sound_complete [Crates] [Ed25519] [Base64] [SerdeJson]
    (hbase64 : ∀ bytes, Base64.decode (Base64.encode bytes) = .ok bytes)
    {kept : String → Bool} (hparser : SerdeJson.Reads kept) :
    -- only authentic receipts are valid
    (∀ receipt trust verification, verifyV2 receipt trust = .ok verification →
      verification.valid = true → EvidenceAuthentic receipt trust) ∧
    (∀ receipt trust verification, verifyPartitionManifestReceipt receipt trust = .ok verification →
      verification.valid = true → ManifestAuthentic receipt trust) ∧
    (∀ text trust verification, verifyJsonWithPolicy text trust = .ok verification →
      verification.valid = true →
      (∃ receipt, ReadsAs receiptV2.signedOfJson text receipt ∧ EvidenceAuthentic receipt trust) ∨
      ∃ receipt, fromStr "SignedReceipt" SignedReceipt.ofJson text = .ok receipt ∧
        ReportAuthentic receipt trust) ∧
    -- an edit that keeps the key and the signature keeps the payload
    (∀ documents key messages signed bytes sig, KeepsApart documents →
      Unforgeable key messages signed → (bytes, sig) ∈ signed →
      (∀ (unsigned : Unsigned ReceiptSchema EvidenceV2) (receipt : SignedReceiptV2) (trust : _),
        receiptV2.unsignedJson unsigned ∈ documents →
        receiptV2.unsignedJson receipt.unsigned ∈ documents →
        (∀ bytes, receiptV2.message receipt.unsigned = .ok bytes → bytes ∈ messages) →
        receiptV2.message unsigned = .ok bytes →
        decodePublicKey receipt.unsigned.publicKey = .ok key →
        decodeExact 64 receipt.signature "signature" = .ok sig →
        EvidenceAuthentic receipt trust → receipt.unsigned = unsigned) ∧
      (∀ (unsigned : Unsigned PartitionReceiptSchema PartitionManifestV1)
          (receipt : SignedPartitionReceiptV1) (trust : _),
        partitionReceiptV1.unsignedJson unsigned ∈ documents →
        partitionReceiptV1.unsignedJson receipt.unsigned ∈ documents →
        (∀ bytes, partitionReceiptV1.message receipt.unsigned = .ok bytes → bytes ∈ messages) →
        partitionReceiptV1.message unsigned = .ok bytes →
        decodePublicKey receipt.unsigned.publicKey = .ok key →
        decodeExact 64 receipt.signature "signature" = .ok sig →
        ManifestAuthentic receipt trust → receipt.unsigned = unsigned) ∧
      (∀ (unsigned : UnsignedReceipt) (receipt : SignedReceipt) (trust : _),
        unsigned.toJson ∈ documents → receipt.unsigned.toJson ∈ documents →
        (∀ bytes, canonical receipt.unsigned.toJson = .ok bytes → bytes ∈ messages) →
        canonical unsigned.toJson = .ok bytes →
        decodePublicKey receipt.unsigned.publicKey = .ok key →
        decodeExact 64 receipt.signature "signature" = .ok sig →
        ReportAuthentic receipt trust → receipt.unsigned = unsigned)) ∧
    -- without a key no receipt is valid
    ((∀ receipt verification, verifyV2 receipt .signatureOnly = .ok verification →
      verification.valid = false) ∧
    (∀ receipt verification,
      verifyPartitionManifestReceipt receipt .signatureOnly = .ok verification →
      verification.valid = false) ∧
    ∀ text verification, verifyJsonWithPolicy text .signatureOnly = .ok verification →
      verification.valid = false) ∧
    -- what was signed is valid for whoever expects the key, also as a text; a receipt of the first
    -- version exactly if its report can be enclosed
    (∀ evidence signing clock receipt, signV2 evidence signing clock = .ok receipt →
      SignatureHolds signing (receiptV2.message receipt.unsigned) →
      verifyV2 receipt (.expectedKey (Ed25519.verifyingKey signing)) = .ok (allValid false) ∧
      verifyJsonWithExpectedKey (receiptV2.signedJson receipt).compact
        (some receipt.unsigned.publicKey) = .ok (allValid false)) ∧
    (∀ manifest signing clock receipt, signPartitionManifest manifest signing clock = .ok receipt →
      SignatureHolds signing (partitionReceiptV1.message receipt.unsigned) →
      verifyPartitionManifestReceipt receipt (.expectedKey (Ed25519.verifyingKey signing)) =
        .ok (allValid false) ∧
      fromStr "SignedPartitionReceiptV1" partitionReceiptV1.signedOfJson
        (partitionReceiptV1.signedJson receipt).compact = .ok receipt) ∧
    ∀ reportJson privateKey clock receipt, signReport reportJson privateKey clock = .ok receipt →
      ∃ signing, decodeExact 32 privateKey "private key" = .ok signing ∧
        decodePublicKey receipt.unsigned.publicKey = .ok (Ed25519.verifyingKey signing) ∧
        (SignatureHolds signing (canonical receipt.unsigned.toJson) →
          (verifyJsonWithExpectedKey receipt.toJson.compact (some receipt.unsigned.publicKey) =
            .ok (allValid true) ↔ receipt.unsigned.report.Enclosable)) := by
  refine ⟨fun _ _ _ => verifyV2_valid, fun _ _ _ => verifyPartition_valid,
    fun _ _ _ => verifyJson_valid, ?_, ⟨?_, ?_, ?_⟩, ?_, ?_, ?_⟩
  · intro documents key messages signed bytes sig hdocuments hunforgeable hsigned
    refine ⟨?_, ?_, ?_⟩
    · intro unsigned receipt trust hmem hmem' hmessages hmessage hkey hsig h
      exact unsigned_eq_of_authentic reads_receiptV2 hdocuments hunforgeable hmem hmem' hmessages
        hmessage hsigned hkey hsig h.1
    · intro unsigned receipt trust hmem hmem' hmessages hmessage hkey hsig h
      exact unsigned_eq_of_authentic reads_partitionReceiptV1 hdocuments hunforgeable hmem hmem'
        hmessages hmessage hsigned hkey hsig h.1
    · intro unsigned receipt trust hmem hmem' hmessages hmessage hkey hsig h
      have hmessage' := Authentic.message_eq h hkey hunforgeable hmessages hsig hsigned
      exact UnsignedReceipt.eq_of_toJson
        (hdocuments.eq_of_canonical hmem' hmem hmessage' hmessage)
  · intro receipt verification h
    rw [← Bool.not_eq_true]
    exact fun hvalid => not_authentic_signatureOnly (verifyV2_valid h hvalid).1
  · intro receipt verification h
    rw [← Bool.not_eq_true]
    exact fun hvalid => not_authentic_signatureOnly (verifyPartition_valid h hvalid).1
  · intro text verification h
    rw [← Bool.not_eq_true]
    intro hvalid
    rcases verifyJson_valid h hvalid with ⟨_, -, hauthentic⟩ | ⟨_, -, hauthentic⟩
    · exact not_authentic_signatureOnly hauthentic.1
    · exact not_authentic_signatureOnly hauthentic
  · intro evidence signing clock receipt h hsign
    have hverify := Format.verify_sign hbase64 h hsign
    refine ⟨hverify, ?_⟩
    rw [verifyJsonWithExpectedKey_some (Format.publicKey_sign hbase64 h),
      verifyJson_signedV2 (readsBack_receiptV2 hparser receipt)]
    exact hverify
  · intro manifest signing clock receipt h hsign
    exact ⟨Format.verify_sign hbase64 h hsign,
      fromStr_compact (readsBack_partitionReceiptV1 hparser receipt)
        (reads_partitionReceiptV1.signedOfJson_view Serde.view_id receipt)⟩
  · intro reportJson privateKey clock receipt h
    obtain ⟨signing, hsigning, hkey, hschema, -, hverify⟩ := verify_signReport hbase64 h
    obtain ⟨hreads, hrefused⟩ := parse_signReport hparser h
    refine ⟨signing, hsigning, hkey, fun hsign => ⟨fun hvalid => ?_, fun hreport => ?_⟩⟩
    · by_contra hreport
      obtain ⟨message, hmessage⟩ := hrefused hreport
      rw [verifyJsonWithExpectedKey_some hkey, verifyJson_refused hmessage] at hvalid
      cases hvalid
    · rw [verifyJsonWithExpectedKey_some hkey]
      exact verifyJson_signReport (hreads hreport) hschema (hverify hsign) hkey

/-- Evidence of a check of no rows, where every digest is zero. -/
def blankEvidence : EvidenceV2 where
  schema := .v2
  dataset := { fingerprintVersion := .v2, fingerprintDigest := zeroDigest, rows := 0 }
  contractSourceDigest := taggedDigest "pf-contract-v2:" zeroDigest
  compiledPlanDigest := taggedDigest "pf-plan-v2:" zeroDigest
  schemaDigest := taggedDigest "pf-schema-v1:" zeroDigest
  engine := { name := "proofframe", version := engineVersion }
  execution := { operation := "check", resources := blankLimits false }
  result :=
    { valid := true, violationCount := 0, outputRecords := 0, truncated := false
      resultDigest := taggedDigest "pf-result-v1:" zeroDigest
      reportDigest := taggedDigest "pf-report-v1:" zeroDigest
      findingsDigest := taggedDigest "pf-findings-v1:" zeroDigest
      metricsDigest := taggedDigest "pf-metrics-v1:" zeroDigest }

theorem validate_blankEvidence : blankEvidence.validate = .ok () := by
  refine bind_eq_ok.mpr ⟨(), rejectIf_eq_ok.mpr (not_not.mpr rfl), ?_⟩
  refine bind_eq_ok.mpr ⟨(), validateTaggedDigestAny_eq_ok.mpr
    ⟨"pf-contract-v2:", by simp, isTagged_taggedDigest ..⟩, ?_⟩
  refine bind_eq_ok.mpr ⟨(), validateTaggedDigestAny_eq_ok.mpr
    ⟨"pf-plan-v2:", by simp, isTagged_taggedDigest ..⟩, ?_⟩
  refine bind_eq_ok.mpr ⟨(), validateTaggedDigest_eq_ok.mpr (isTagged_taggedDigest ..), ?_⟩
  refine bind_eq_ok.mpr ⟨(), validateTaggedDigest_eq_ok.mpr (isTagged_taggedDigest ..), ?_⟩
  refine bind_eq_ok.mpr ⟨(), validateTaggedDigest_eq_ok.mpr (isTagged_taggedDigest ..), ?_⟩
  refine bind_eq_ok.mpr ⟨(), validateTaggedDigest_eq_ok.mpr (isTagged_taggedDigest ..), ?_⟩
  refine bind_eq_ok.mpr ⟨(), validateTaggedDigest_eq_ok.mpr (isTagged_taggedDigest ..), ?_⟩
  rfl

/-- A report of arrays that stand in each other, one more than the number. -/
def nestedReport : ℕ → Json
  | 0 => .array []
  | depth + 1 => .array [nestedReport depth]

theorem readable_nestedReport (kept : String → Bool) (depth : ℕ) :
    (nestedReport depth).Readable kept (depth + 1) := by
  induction depth with
  | zero => exact .array (by simp)
  | succ depth ih => exact .array (by simpa using ih)

theorem nesting_nestedReport (depth : ℕ) : (nestedReport depth).nesting = depth + 1 := by
  induction depth with
  | zero => rfl
  | succ depth ih => simp [nestedReport, Json.nesting, Json.itemsNesting, ih]

theorem toValue_nestedReport (depth : ℕ) : (nestedReport depth).toValue = nestedReport depth := by
  induction depth with
  | zero => rfl
  | succ depth ih => simp [nestedReport, Json.toValue, Json.toValues, ih]

theorem isIJson_nestedReport (depth : ℕ) : (nestedReport depth).isIJson = true := by
  induction depth with
  | zero => rfl
  | succ depth ih => simp [nestedReport, Json.isIJson, Json.itemsIJson, ih]

section Nested

variable [Crates] [Ed25519] [Base64] [SerdeJson]
  (hbase64 : ∀ bytes, Base64.decode (Base64.encode bytes) = .ok bytes)
  (hcanonical : ∀ json, ∃ bytes, Crates.canonicalJson json = .ok bytes)
  {kept : String → Bool} (hparser : SerdeJson.Reads kept)

include hbase64 hcanonical hparser

/-- Every nested report that is read is signed. -/
theorem exists_signNested {depth : ℕ} (h : depth < maxNesting) (signing : KeyBytes) :
    ∃ receipt, signReport (nestedReport depth).compact (Base64.encode signing.val) (.ok 0) =
        .ok receipt ∧ receipt.unsigned.report.val = nestedReport depth := by
  have hread : fromStr "Value" (some ∘ JsonValue.ofJson) (nestedReport depth).compact =
      .ok (JsonValue.ofJson (nestedReport depth)) :=
    fromStr_eq_ok.mpr ⟨_, hparser.written _ ((readable_nestedReport kept depth).mono h), rfl⟩
  have hIJson : validateIJson (JsonValue.ofJson (nestedReport depth)).val = .ok () := by
    have hvalue : (JsonValue.ofJson (nestedReport depth)).val.isIJson = true := by
      rw [show (JsonValue.ofJson (nestedReport depth)).val = _ from toValue_nestedReport depth]
      exact isIJson_nestedReport depth
    exact rejectIf_eq_ok.mpr (by simp [hvalue])
  obtain ⟨bytes, hbytes⟩ := hcanonical (JsonValue.ofJson (nestedReport depth)).val
  let unsigned : UnsignedReceipt :=
    { schema := "proofframe.receipt.v1", algorithm := "Ed25519", engineVersion
      issuedAtUnixMs := 0, reportHash := (Crates.blake3 bytes).toHex
      report := JsonValue.ofJson (nestedReport depth)
      publicKey := Base64.encode (Ed25519.verifyingKey signing).val.val }
  obtain ⟨message, hmessage⟩ := hcanonical unsigned.toJson
  refine ⟨_, bind_eq_ok.mpr ⟨_, hread, bind_eq_ok.mpr ⟨(), hIJson, bind_eq_ok.mpr ⟨signing,
    decodeExact_encode hbase64 signing _, bind_eq_ok.mpr ⟨bytes, canonical_eq_ok.mpr hbytes,
    bind_eq_ok.mpr ⟨0, rfl, bind_eq_ok.mpr ⟨message, canonical_eq_ok.mpr hmessage, rfl⟩⟩⟩⟩⟩⟩, ?_⟩
  exact toValue_nestedReport depth

end Nested

theorem enclosable_nested {report : JsonValue} {depth : ℕ} (h : report.val = nestedReport depth) :
    report.Enclosable ↔ depth + 1 < maxNesting := by
  have hplain := (readable_nestedReport (fun _ => true) depth).plain
  rw [JsonValue.Enclosable, h, nesting_nestedReport]
  exact and_iff_left (all_uncrowded _ hplain)

/-- Crates that tell documents by how deeply they nest. -/
@[reducible] def Crates.tellingNesting : Crates := Crates.telling fun json => UInt8.ofNat json.nesting

/-- Evidence, a manifest and a report are signed, and their receipts are valid, also as texts; with
another report the last one is not authentic. -/
theorem receipts_sound_complete_blank :
    let _ : Crates := Crates.tellingNesting
    let _ : Ed25519 := Ed25519.lastByte
    let _ : Base64 := Base64.plain
    let _ : SerdeJson := SerdeJson.reader
    (∃ receipt : SignedReceiptV2, receipt.unsigned.document = blankEvidence ∧
      verifyJsonWithExpectedKey (receiptV2.signedJson receipt).compact
        (some receipt.unsigned.publicKey) = .ok (allValid false)) ∧
    (∃ receipt key, receipt.unsigned.document.partitions = [blankPartition 0] ∧
      verifyPartitionManifestReceipt receipt (.expectedKey key) = .ok (allValid false) ∧
      fromStr "SignedPartitionReceiptV1" partitionReceiptV1.signedOfJson
        (partitionReceiptV1.signedJson receipt).compact = .ok receipt) ∧
    ∃ receipt : SignedReceipt, receipt.unsigned.report.val = nestedReport 125 ∧
      verifyJsonWithExpectedKey receipt.toJson.compact (some receipt.unsigned.publicKey) =
        .ok (allValid true) ∧
      ∀ trust, ¬ReportAuthentic { receipt with unsigned := { receipt.unsigned with
        report := JsonValue.ofJson (nestedReport 124) } } trust := by
  intro crates ed25519 base64 serdeJson
  have hcanonical : ∀ json, ∃ bytes, Crates.canonicalJson json = .ok bytes := fun _ => ⟨_, rfl⟩
  have hsignature : ∀ {message : Except Fault (List UInt8)}, SignatureHolds zeroDigest message :=
    fun _ _ => decide_eq_true rfl
  obtain ⟨-, -, -, hedits, -, hevidence, hmanifest, hreport⟩ :=
    receipts_sound_complete Base64.plain_decode_encode SerdeJson.reads_reader
  refine ⟨?_, ?_, ?_⟩
  · obtain ⟨bytes, hbytes⟩ := hcanonical blankEvidence.toJson
    have hdigest : receiptV2.digest blankEvidence = .ok _ :=
      bind_eq_ok.mpr ⟨(), validate_blankEvidence, bind_eq_ok.mpr
        ⟨bytes, canonical_eq_ok.mpr hbytes, rfl⟩⟩
    obtain ⟨receipt, hreceipt, hdocument, -⟩ := Format.exists_sign hcanonical hdigest zeroDigest
    exact ⟨receipt, hdocument, (hevidence _ _ _ receipt hreceipt hsignature).2⟩
  · obtain ⟨manifest, h⟩ := exists_newBlank hcanonical 0 false
    obtain ⟨hvalid, hpartitions, -⟩ := PartitionManifestV1.new_eq_ok h
    obtain ⟨digest, hdigest, -⟩ := PartitionManifestV1.digest_eq_ok hvalid
    obtain ⟨receipt, hreceipt, hdocument, -⟩ :=
      Format.exists_sign hcanonical
        (show partitionReceiptV1.digest manifest = .ok digest from hdigest) zeroDigest
    exact ⟨receipt, _, by rw [hdocument, hpartitions]; rfl,
      hmanifest _ _ _ receipt hreceipt hsignature⟩
  · obtain ⟨receipt, hreceipt, hnested⟩ := exists_signNested Base64.plain_decode_encode hcanonical
      SerdeJson.reads_reader (by decide : 125 < maxNesting) zeroDigest
    obtain ⟨_, -, -, hvalid⟩ := hreport _ _ _ receipt hreceipt
    refine ⟨receipt, hnested, (hvalid fun _ _ => decide_eq_true rfl).mpr
      ((enclosable_nested hnested).mpr (by decide)), fun trust hauthentic => ?_⟩
    let edited : SignedReceipt := { receipt with unsigned := { receipt.unsigned with
      report := JsonValue.ofJson (nestedReport 124) } }
    have hother : edited.unsigned.report.val = nestedReport 124 := toValue_nestedReport 124
    obtain ⟨signing, -, hkey, -, hsig, -⟩ :=
      verify_signReport Base64.plain_decode_encode hreceipt
    have hdepth : receipt.unsigned.toJson.nesting = 127 := by
      rw [UnsignedReceipt.nesting_toJson, hnested, nesting_nestedReport]
    have hdepth' : edited.unsigned.toJson.nesting = 126 := by
      rw [UnsignedReceipt.nesting_toJson, hother, nesting_nestedReport]
    have hmessage : canonical receipt.unsigned.toJson = .ok ([] ++ [127]) :=
      canonical_eq_ok.mpr (congrArg (fun nesting => Except.ok [UInt8.ofNat nesting]) hdepth)
    have hapart : KeepsApart {receipt.unsigned.toJson, edited.unsigned.toJson} := by
      refine Crates.telling_keepsApart (Set.injOn_pair.mpr fun hkinds => ?_)
      change UInt8.ofNat _ = UInt8.ofNat _ at hkinds
      rw [hdepth, hdepth'] at hkinds
      exact absurd hkinds (by decide)
    have hunsigned := (hedits _ _ _ _ _ _ hapart (Ed25519.lastByte_unforgeable _ [])
      ⟨127, rfl⟩).2.2 receipt.unsigned edited trust (.inl rfl) (.inr rfl)
      (fun bytes hbytes => ⟨_, (Except.ok.inj hbytes).symm⟩) hmessage hkey (hsig _ hmessage)
      hauthentic
    rw [congrArg UnsignedReceipt.toJson hunsigned, hdepth] at hdepth'
    cases hdepth'

/-- A report as deep as the parser follows is signed, and the receipt is not read. -/
theorem nestedReport_refused :
    let _ : Crates := Crates.tellingNesting
    let _ : Ed25519 := Ed25519.lastByte
    let _ : Base64 := Base64.plain
    let _ : SerdeJson := SerdeJson.reader
    ∃ receipt : SignedReceipt,
      signJson (nestedReport 126).compact (Base64.encode zeroDigest.val) (.ok 0) =
        .ok receipt.toJson.compact ∧
      SignatureHolds zeroDigest (canonical receipt.unsigned.toJson) ∧
      decodePublicKey receipt.unsigned.publicKey = .ok (Ed25519.verifyingKey zeroDigest) ∧
      ∃ message, verifyJsonWithExpectedKey receipt.toJson.compact
        (some receipt.unsigned.publicKey) = .error (.error (.json message)) := by
  intro crates ed25519 base64 serdeJson
  obtain ⟨receipt, hreceipt, hnested⟩ := exists_signNested Base64.plain_decode_encode
    (fun _ => ⟨_, rfl⟩) SerdeJson.reads_reader (by decide : 126 < maxNesting) zeroDigest
  obtain ⟨signing, hsigning, hkey, -⟩ :=
    verify_signReport Base64.plain_decode_encode hreceipt
  rw [decodeExact_encode Base64.plain_decode_encode] at hsigning
  injection hsigning with hsigning
  subst hsigning
  obtain ⟨message, hmessage⟩ := (parse_signReport SerdeJson.reads_reader hreceipt).2
    fun henclosable => absurd ((enclosable_nested hnested).mp henclosable) (by decide)
  refine ⟨receipt, bind_eq_ok.mpr ⟨receipt, hreceipt, rfl⟩, fun _ _ => decide_eq_true rfl, hkey,
    message, ?_⟩
  rw [verifyJsonWithExpectedKey_some hkey, verifyJson_refused hmessage]

/-- The root digest binds the whole manifest, an accepted manifest is consistent, and the receipt
of a manifest is valid for no other manifest. -/
theorem partitionRoot_binds [Crates] [Ed25519] [Base64]
    (hbase64 : ∀ bytes, Base64.decode (Base64.encode bytes) = .ok bytes) {documents : Set Json}
    (hdocuments : KeepsApart documents) :
    -- no other manifest is accepted with the root of an accepted one
    (∀ manifest manifest' : PartitionManifestV1, manifest.body ∈ documents →
      manifest'.body ∈ documents → manifest.validate = .ok () → manifest' ≠ manifest →
      manifest'.rootDigest = manifest.rootDigest → manifest'.validate ≠ .ok ()) ∧
    -- accepted manifests are consistent, and spliced ones are rejected under any root
    (∀ manifest : PartitionManifestV1, manifest.validate = .ok () → manifest.Consistent) ∧
    (∀ (manifest : PartitionManifestV1) (root : String), ∀ partition ∈ manifest.partitions,
      ∀ other ∈ manifest.partitions, partition.identity ≠ other.identity →
      { manifest with rootDigest := root }.validate ≠ .ok ()) ∧
    -- a signature is valid for the manifest it was made for only
    (∀ manifest signing clock receipt bytes messages signed,
      signPartitionManifest manifest signing clock = .ok receipt →
      partitionReceiptV1.message receipt.unsigned = .ok bytes →
      Unforgeable (Ed25519.verifyingKey signing) messages signed →
      (bytes, Ed25519.sign signing bytes) ∈ signed →
      ∀ (receipt' : SignedPartitionReceiptV1) trust verification,
        partitionReceiptV1.unsignedJson receipt.unsigned ∈ documents →
        partitionReceiptV1.unsignedJson receipt'.unsigned ∈ documents →
        (∀ bytes, partitionReceiptV1.message receipt'.unsigned = .ok bytes → bytes ∈ messages) →
        receipt'.unsigned.document ≠ manifest → receipt'.signature = receipt.signature →
        receipt'.unsigned.publicKey = receipt.unsigned.publicKey →
        verifyPartitionManifestReceipt receipt' trust = .ok verification →
        verification.valid = false) := by
  refine ⟨?_, ?_, ?_, ?_⟩
  · intro manifest manifest' hmem hmem' h hne hroot h'
    exact hne (PartitionManifestV1.eq_of_root hdocuments hmem hmem' h h' hroot)
  · intro manifest h
    exact .of_validateBody (PartitionManifestV1.validate_eq_ok.mp h).1
  · intro manifest root partition hpartition other hother hne h
    have hconsistent :=
      PartitionManifestV1.Consistent.of_validateBody (PartitionManifestV1.validate_eq_ok.mp h).1
    obtain ⟨identity, hidentity⟩ := hconsistent.identity
    exact hne ((hidentity partition hpartition).trans (hidentity other hother).symm)
  · intro manifest signing clock receipt bytes messages signed hsign hmessage hunforgeable hsigned
      receipt' trust verification hmem hmem' hmessages hne hsignature hkey h
    rw [← Bool.not_eq_true]
    intro hvalid
    obtain ⟨hauthentic, -⟩ := verifyPartition_valid h hvalid
    obtain ⟨hdocument, hsigText⟩ := Format.signed_parts hsign hmessage
    have hunsigned : receipt'.unsigned = receipt.unsigned := by
      refine unsigned_eq_of_authentic reads_partitionReceiptV1 hdocuments hunforgeable hmem hmem'
        hmessages hmessage hsigned ?_ ?_ hauthentic
      · rw [hkey]
        exact Format.publicKey_sign hbase64 hsign
      · rw [hsignature, hsigText]
        exact decodeExact_encode hbase64 _ _
    exact hne (by rw [hunsigned, hdocument])

/-- Which limits a document of a manifest has, and whether a receipt is around it. -/
def manifestKind (json : Json) : UInt8 :=
  let samples := fun json : Json => match (json.get "resources").bind (Json.get "max_samples") with
    | some (.number text) => if text = "0" then 0 else 1
    | _ => 2
  match json.get "manifest" with
  | some manifest => 3 + samples manifest
  | none => samples json

/-- Of two manifests with one root one is rejected, and the receipt of the first is not valid for
the second, whatever hash it has. -/
theorem partitionRoot_binds_blank :
    let _ : Crates := Crates.telling manifestKind
    let _ : Ed25519 := Ed25519.lastByte
    let _ : Base64 := Base64.plain
    ∃ (manifest other : PartitionManifestV1) (receipt : SignedPartitionReceiptV1),
      manifest.validate = .ok () ∧ other.validate = .ok () ∧ receipt.unsigned.document = manifest ∧
      { other with rootDigest := manifest.rootDigest }.validate ≠ .ok () ∧
      ∀ hash trust verification,
        verifyPartitionManifestReceipt
          { receipt with unsigned := { receipt.unsigned with document := other, hash } } trust =
            .ok verification → verification.valid = false := by
  intro crates ed25519 base64
  obtain ⟨manifest, h⟩ := exists_newBlank (fun _ => ⟨_, rfl⟩) 0 false
  obtain ⟨other, hother⟩ := exists_newBlank (fun _ => ⟨_, rfl⟩) 0 true
  obtain ⟨hvalid, -, -, hresources⟩ := PartitionManifestV1.new_eq_ok h
  obtain ⟨hvalid', -, -, hresources'⟩ := PartitionManifestV1.new_eq_ok hother
  obtain ⟨digest, hdigest, -⟩ := PartitionManifestV1.digest_eq_ok hvalid
  obtain ⟨receipt, hreceipt, hdocument, -⟩ :=
    Format.exists_sign (fun _ => ⟨_, rfl⟩)
      (show partitionReceiptV1.digest manifest = .ok digest from hdigest) zeroDigest
  have hlimits : other.resources ≠ manifest.resources := by
    rw [hresources, hresources']
    decide +kernel
  have hne : other ≠ manifest := fun heq => hlimits (congrArg PartitionManifestV1.resources heq)
  have hbody : ∀ manifest : PartitionManifestV1, ∀ sample, manifest.resources = blankLimits sample →
      manifestKind manifest.body = if sample then 1 else 0 := by
    rintro manifest sample hresources
    rw [PartitionManifestV1.body, hresources]
    cases sample <;> rfl
  have hreceiptKind : ∀ unsigned : Unsigned PartitionReceiptSchema PartitionManifestV1, ∀ sample,
      unsigned.document.resources = blankLimits sample →
      manifestKind (partitionReceiptV1.unsignedJson unsigned) = if sample then 4 else 3 := by
    rintro unsigned sample hresources
    have hmanifest : (partitionReceiptV1.unsignedJson unsigned).get "manifest" =
        some unsigned.document.toJson := rfl
    rw [manifestKind, hmanifest, PartitionManifestV1.toJson, hresources]
    cases sample <;> rfl
  have hapart : ∀ hash : Digest, KeepsApart {manifest.body, other.body,
      partitionReceiptV1.unsignedJson receipt.unsigned,
      partitionReceiptV1.unsignedJson { receipt.unsigned with document := other, hash }} := by
    intro hash
    have hfirst := hbody manifest false hresources
    have hsecond := hbody other true hresources'
    have hthird := hreceiptKind receipt.unsigned false (hdocument ▸ hresources)
    have hfourth := hreceiptKind { receipt.unsigned with document := other, hash } true hresources'
    refine Crates.telling_keepsApart ?_
    rintro _ (rfl | rfl | rfl | rfl) _ (rfl | rfl | rfl | rfl) hkinds
    all_goals
      first
      | rfl
      | simp only [hfirst, hsecond, hthird, hfourth] at hkinds
        exact absurd hkinds (by decide)
  refine ⟨manifest, other, receipt, hvalid, hvalid', hdocument, ?_, ?_⟩
  · obtain ⟨hroot, -⟩ := partitionRoot_binds Base64.plain_decode_encode (hapart digest)
    refine hroot manifest { other with rootDigest := manifest.rootDigest } (.inl rfl)
      (.inr (.inl rfl)) hvalid (fun heq => ?_) rfl
    have hsame := congrArg PartitionManifestV1.resources heq
    exact hlimits hsame
  · intro hash trust verification h
    let forged : SignedPartitionReceiptV1 :=
      { receipt with unsigned := { receipt.unsigned with document := other, hash } }
    obtain ⟨-, -, -, hsigned⟩ := partitionRoot_binds Base64.plain_decode_encode (hapart hash)
    have hmessage : ∀ unsigned, partitionReceiptV1.message unsigned =
        .ok (domainSeparator partitionReceiptV1.domain ++
          [manifestKind (partitionReceiptV1.unsignedJson unsigned)]) := fun _ => rfl
    refine hsigned manifest zeroDigest (.ok 0) receipt _ _ _ hreceipt (hmessage _)
      (Ed25519.lastByte_unforgeable _ (domainSeparator partitionReceiptV1.domain))
      (Ed25519.lastByte_signed _ _ _) forged trust verification (.inr (.inr (.inl rfl)))
      (.inr (.inr (.inr rfl))) ?_ hne rfl rfl h
    intro bytes hbytes
    exact ⟨_, (Except.ok.inj ((hmessage _).symm.trans hbytes)).symm⟩

end ProofFrame
