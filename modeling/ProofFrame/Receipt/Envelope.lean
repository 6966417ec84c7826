import ProofFrame.Evidence.Binding
import ProofFrame.Receipt.Trust

/-!
# Signed envelopes

The second version of the receipt and the receipt of a partition manifest have one
shape: a document, its hash and the public key, and a signature over all of it.
Each is this envelope with its own names, domain and checks.
-/

namespace ProofFrame

open Lib Lib.Run

/-- The engine version the program was built as. -/
def engineVersion : String := "0.7.2"

structure ReceiptVerification where
  valid : Bool
  signatureValid : Bool
  reportHashMatches : Bool
  schemaSupported : Bool
  signerTrusted : Bool
  legacy : Bool
  deriving DecidableEq

/-- Supported schema, matching hash and a correct signature, by any key. -/
def ReceiptVerification.intact (verification : ReceiptVerification) : Bool :=
  verification.schemaSupported && verification.reportHashMatches && verification.signatureValid

section Decoding

variable [Ed25519] [Base64]

def decodeExact (length : ℕ) (encoded label : String) :
    Except Fault { bytes : List UInt8 // bytes.length = length } :=
  match Base64.decode encoded with
  | .error error => .error (invalidEvidence s!"Invalid {label}: {error}")
  | .ok bytes =>
      if h : bytes.length = length then .ok ⟨bytes, h⟩
      else .error (invalidEvidence s!"Invalid {label} length")

def decodePublicKey (encoded : String) : Except Fault VerifyingKey := do
  let bytes ← decodeExact 32 encoded "public key"
  match h : Ed25519.keyError bytes with
  | none => .ok ⟨bytes, h⟩
  | some error => .error (invalidEvidence s!"Invalid public key: {error}")

omit [Ed25519] in
theorem decodeExact_encode (hbase64 : ∀ bytes, Base64.decode (Base64.encode bytes) = .ok bytes)
    {length : ℕ} (bytes : { bytes : List UInt8 // bytes.length = length }) (label : String) :
    decodeExact length (Base64.encode bytes.val) label = .ok bytes := by
  rw [decodeExact, hbase64]
  exact dif_pos bytes.property

theorem decodePublicKey_encode (hbase64 : ∀ bytes, Base64.decode (Base64.encode bytes) = .ok bytes)
    (key : VerifyingKey) : decodePublicKey (Base64.encode key.val.val) = .ok key := by
  refine bind_eq_ok.mpr ⟨key.val, decodeExact_encode hbase64 key.val _, ?_⟩
  split
  · rfl
  · rename_i error herror
    rw [key.property] at herror
    cases herror

end Decoding

/-! ## The envelope -/

/-- What sets one kind of envelope apart: the schema it supports, the names of its fields, and
the checks of its document. -/
structure Format (σ δ : Type) where
  schema : σ
  schemaName : σ → String
  schemaNamed : String → Option σ
  typeName : String
  domain : String
  hashField : String
  documentField : String
  toJson : δ → Json
  ofJson : Json → Option δ
  validate : δ → Except Fault Unit
  digestUnchecked : δ → Except Fault Digest
  /-- Whether the hash matches only for a document that is valid. -/
  hashOfValid : Bool

structure Unsigned (σ δ : Type) where
  schema : σ
  algorithm : String
  engineVersion : String
  issuedAtUnixMs : UInt64
  hash : Digest
  document : δ
  publicKey : String

structure Signed (σ δ : Type) where
  schema : σ
  unsigned : Unsigned σ δ
  signature : String

namespace Format

variable {σ δ : Type} (format : Format σ δ)

def unsignedJson (unsigned : Unsigned σ δ) : Json := .object [
  ("schema", .string (format.schemaName unsigned.schema)),
  ("algorithm", .string unsigned.algorithm),
  ("engine_version", .string unsigned.engineVersion),
  ("issued_at_unix_ms", .unsigned unsigned.issuedAtUnixMs.toNat),
  (format.hashField, unsigned.hash.toJson),
  (format.documentField, format.toJson unsigned.document),
  ("public_key", .string unsigned.publicKey)]

def signedJson (receipt : Signed σ δ) : Json := .object [
  ("schema", .string (format.schemaName receipt.schema)),
  ("unsigned", format.unsignedJson receipt.unsigned),
  ("signature", .string receipt.signature)]

def unsignedOfJson (json : Json) : Option (Unsigned σ δ) := do
  let field ← Serde.fields true ["schema", "algorithm", "engine_version", "issued_at_unix_ms",
    format.hashField, format.documentField, "public_key"] json
  let schema ← Serde.required (Serde.variant format.schemaNamed) (field "schema")
  let algorithm ← Serde.required Serde.string (field "algorithm")
  let engineVersion ← Serde.required Serde.string (field "engine_version")
  let issuedAtUnixMs ← Serde.required Serde.u64 (field "issued_at_unix_ms")
  let hash ← Serde.required Digest.ofJson (field format.hashField)
  let document ← Serde.required format.ofJson (field format.documentField)
  let publicKey ← Serde.required Serde.string (field "public_key")
  some { schema, algorithm, engineVersion, issuedAtUnixMs, hash, document, publicKey }

def signedOfJson (json : Json) : Option (Signed σ δ) := do
  let field ← Serde.fields true ["schema", "unsigned", "signature"] json
  let schema ← Serde.required (Serde.variant format.schemaNamed) (field "schema")
  let unsigned ← Serde.required format.unsignedOfJson (field "unsigned")
  let signature ← Serde.required Serde.string (field "signature")
  some { schema, unsigned, signature }

/-- The document reads back in every view, and the names of the fields are different. -/
structure Reads : Prop where
  schema : ∀ schema, format.schemaNamed (format.schemaName schema) = some schema
  document : ∀ view, Serde.View view → ∀ document,
    format.ofJson (view (format.toJson document)) = some document
  names : ["schema", "algorithm", "engine_version", "issued_at_unix_ms", format.hashField,
    format.documentField, "public_key"].Nodup

section RoundTrip

variable {format} (hreads : format.Reads) {view : Json → Json} (hview : Serde.View view)

include hreads hview

theorem Reads.schema_view (schema : σ) :
    Serde.variant format.schemaNamed (view (.string (format.schemaName schema))) = some schema := by
  rw [hview.variant_name, hreads.schema]

theorem Reads.unsignedOfJson_view (unsigned : Unsigned σ δ) :
    format.unsignedOfJson (view (format.unsignedJson unsigned)) = some unsigned := by
  have hnames := hreads.names
  simp only [List.nodup_cons, List.mem_cons, List.not_mem_nil, or_false, not_or] at hnames
  obtain ⟨⟨-, -, -, hhash, hdoc, -⟩, ⟨-, -, hhash', hdoc', -⟩, ⟨-, hhash'', hdoc'', -⟩,
    ⟨hhash₃, hdoc₃, -⟩, ⟨hdoc₄, hhash₄⟩, hdoc₅, -⟩ := hnames
  rw [unsignedJson, unsignedOfJson, hview.fields_members]
  · simp only [SortedMap.find_cons, String.reduceEq, ↓reduceIte, Option.map_some,
      Serde.Slot.ofMember_some, Serde.required_value, Option.bind_eq_bind, Option.bind_some,
      hview.string_text, hview.u64_value, hreads.schema_view hview, Digest.ofJson_view hview,
      hreads.document view hview, hhash, hhash', hhash'', hhash₃, hhash₄, hdoc,
      hdoc', hdoc'', hdoc₃, hdoc₄, hdoc₅]
  · rfl
  · exact hreads.names

theorem Reads.signedOfJson_view (receipt : Signed σ δ) :
    format.signedOfJson (view (format.signedJson receipt)) = some receipt := by
  rw [signedJson, signedOfJson, hview.fields_members]
  · simp only [SortedMap.find_cons, String.reduceEq, ↓reduceIte, Option.map_some,
      Serde.Slot.ofMember_some, Serde.required_value, Option.bind_eq_bind, Option.bind_some,
      hview.string_text, hreads.schema_view hview, hreads.unsignedOfJson_view hview]
  · rfl
  · decide

end RoundTrip

/-- An envelope nests two levels deeper than its document. -/
theorem signedJson_readable {kept : String → Bool} (hkept : ∀ value : ℕ, kept value.repr = true)
    {depth : ℕ} {receipt : Signed σ δ}
    (h : (format.toJson receipt.unsigned.document).Readable kept (depth + 1)) :
    (format.signedJson receipt).Readable kept (depth + 3) := by
  have hhash := (receipt.unsigned.hash.readable hkept).mono (Nat.le_add_left 1 depth)
  have hunsigned : (format.unsignedJson receipt.unsigned).Readable kept (depth + 2) :=
    .object rfl (by
      simp [Json.Readable.string, Json.Readable.unsigned hkept, hhash, h])
  exact .object rfl (by simp [Json.Readable.string, hunsigned])

section Signing

variable [Crates] [Ed25519] [Base64]

/-- What is signed: the canonical bytes of the unsigned receipt behind the domain. -/
def message (unsigned : Unsigned σ δ) : Except Fault (List UInt8) := do
  let bytes ← canonical (format.unsignedJson unsigned)
  .ok (domainSeparator format.domain ++ bytes)

def digest (document : δ) : Except Fault Digest := do
  format.validate document
  format.digestUnchecked document

/-- Sign a document with a private key, at the time the clock gives. -/
def sign (document : δ) (signing : KeyBytes) (clock : Except Fault UInt64) :
    Except Fault (Signed σ δ) := do
  let issuedAtUnixMs ← clock
  let hash ← format.digest document
  let unsigned : Unsigned σ δ :=
    { schema := format.schema, algorithm := "Ed25519", engineVersion, issuedAtUnixMs, hash, document
      publicKey := Base64.encode (Ed25519.verifyingKey signing).val.val }
  let message ← format.message unsigned
  .ok { schema := format.schema, unsigned
        signature := Base64.encode (Ed25519.sign signing message).val }

def documentValid (document : δ) : Bool :=
  match format.validate document with
  | .ok _ => true
  | .error _ => false

def verify [DecidableEq σ] (receipt : Signed σ δ) (trust : TrustPolicy) :
    Except Fault ReceiptVerification := do
  let documentValid := format.documentValid receipt.unsigned.document
  let schemaSupported := receipt.schema = format.schema && receipt.unsigned.schema = format.schema &&
    receipt.unsigned.algorithm == "Ed25519" && documentValid
  let expectedHash ← format.digestUnchecked receipt.unsigned.document
  let reportHashMatches := expectedHash = receipt.unsigned.hash &&
    (!format.hashOfValid || documentValid)
  let publicKey ← decodePublicKey receipt.unsigned.publicKey
  let signature ← decodeExact 64 receipt.signature "signature"
  let message ← format.message receipt.unsigned
  let signatureValid := Ed25519.verifyStrict publicKey message signature
  let signerTrusted := trust.accepts publicKey
  .ok { valid := schemaSupported && reportHashMatches && signatureValid && signerTrusted
        signatureValid, reportHashMatches, schemaSupported, signerTrusted, legacy := false }

end Signing

end Format

/-! ## What a valid envelope is -/

/-- The signature verifies over the message with the embedded key, and the policy names the key. -/
def Authentic [Ed25519] [Base64] (trust : TrustPolicy) (publicKey signature : String)
    (message : Except Fault (List UInt8)) : Prop :=
  ∃ key bytes sig, decodePublicKey publicKey = .ok key ∧
    decodeExact 64 signature "signature" = .ok sig ∧ message = .ok bytes ∧
    Ed25519.verifyStrict key bytes sig = true ∧ key ∈ trust.trusted

namespace Format

variable {σ δ : Type} [DecidableEq σ] [Crates] [Ed25519] [Base64] {format : Format σ δ}

omit [DecidableEq σ] [Crates] [Ed25519] [Base64] in
theorem documentValid_iff {document : δ} :
    format.documentValid document = true ↔ format.validate document = .ok () := by
  unfold documentValid
  cases format.validate document <;> simp

/-- When a receipt is valid. -/
theorem verify_valid {receipt : Signed σ δ} {trust : TrustPolicy}
    {verification : ReceiptVerification} (h : format.verify receipt trust = .ok verification)
    (hvalid : verification.valid = true) :
    Authentic trust receipt.unsigned.publicKey receipt.signature (format.message receipt.unsigned) ∧
      format.validate receipt.unsigned.document = .ok () ∧
      format.digestUnchecked receipt.unsigned.document = .ok receipt.unsigned.hash ∧
      receipt.schema = format.schema ∧ receipt.unsigned.schema = format.schema ∧
      receipt.unsigned.algorithm = "Ed25519" := by
  obtain ⟨expected, hexpected, h⟩ := bind_eq_ok.mp h
  obtain ⟨key, hkey, h⟩ := bind_eq_ok.mp h
  obtain ⟨signature, hsignature, h⟩ := bind_eq_ok.mp h
  obtain ⟨message, hmessage, h⟩ := bind_eq_ok.mp h
  injection h with h
  subst h
  simp only [Bool.and_eq_true, decide_eq_true_eq, beq_iff_eq, documentValid_iff,
    TrustPolicy.accepts_iff] at hvalid
  obtain ⟨⟨⟨⟨⟨⟨hschema, hunsigned⟩, halgorithm⟩, hdocument⟩, hhash, -⟩, hverify⟩, htrusted⟩ := hvalid
  subst hhash
  exact ⟨⟨key, message, signature, hkey, hsignature, hmessage, hverify, htrusted⟩, hdocument,
    hexpected, hschema, hunsigned, halgorithm⟩

/-- A receipt is valid exactly if it is intact and its signer is trusted. -/
theorem valid_iff_intact {receipt : Signed σ δ} {trust : TrustPolicy}
    {verification : ReceiptVerification} (h : format.verify receipt trust = .ok verification) :
    verification.valid = true ↔
      verification.intact = true ∧ verification.signerTrusted = true := by
  obtain ⟨_, -, h⟩ := bind_eq_ok.mp h
  obtain ⟨_, -, h⟩ := bind_eq_ok.mp h
  obtain ⟨_, -, h⟩ := bind_eq_ok.mp h
  obtain ⟨_, -, h⟩ := bind_eq_ok.mp h
  injection h with h
  subst h
  rw [ReceiptVerification.intact, Bool.and_eq_true (_ && _) (trust.accepts _)]

omit [DecidableEq σ] in
theorem publicKey_sign (hbase64 : ∀ bytes, Base64.decode (Base64.encode bytes) = .ok bytes)
    {document : δ} {signing : KeyBytes} {clock : Except Fault UInt64} {receipt : Signed σ δ}
    (h : format.sign document signing clock = .ok receipt) :
    decodePublicKey receipt.unsigned.publicKey = .ok (Ed25519.verifyingKey signing) := by
  obtain ⟨issued, -, h⟩ := bind_eq_ok.mp h
  obtain ⟨hash, -, h⟩ := bind_eq_ok.mp h
  obtain ⟨message, -, h⟩ := bind_eq_ok.mp h
  injection h with h
  subst h
  exact decodePublicKey_encode hbase64 _

omit [DecidableEq σ] in
theorem signed_parts {document : δ} {signing : KeyBytes} {clock : Except Fault UInt64}
    {receipt : Signed σ δ} (h : format.sign document signing clock = .ok receipt)
    {bytes : List UInt8} (hmessage : format.message receipt.unsigned = .ok bytes) :
    receipt.unsigned.document = document ∧
      receipt.signature = Base64.encode (Ed25519.sign signing bytes).val := by
  obtain ⟨issued, -, h⟩ := bind_eq_ok.mp h
  obtain ⟨hash, -, h⟩ := bind_eq_ok.mp h
  obtain ⟨message, hmessage', h⟩ := bind_eq_ok.mp h
  injection h with h
  subst h
  rw [hmessage'] at hmessage
  injection hmessage with hmessage
  rw [hmessage]
  exact ⟨rfl, rfl⟩

omit [DecidableEq σ] in
/-- What has a digest is signed, where every document has canonical bytes. -/
theorem exists_sign (hcanonical : ∀ json, ∃ bytes, Crates.canonicalJson json = .ok bytes)
    {document : δ} {digest : Digest} (hdigest : format.digest document = .ok digest)
    (signing : KeyBytes) :
    ∃ receipt, format.sign document signing (.ok 0) = .ok receipt ∧
      receipt.unsigned.document = document ∧ receipt.unsigned.hash = digest := by
  let unsigned : Unsigned σ δ :=
    { schema := format.schema, algorithm := "Ed25519", engineVersion, issuedAtUnixMs := 0
      hash := digest, document
      publicKey := Base64.encode (Ed25519.verifyingKey signing).val.val }
  obtain ⟨bytes, hbytes⟩ := hcanonical (format.unsignedJson unsigned)
  have hmessage : format.message unsigned = .ok (domainSeparator format.domain ++ bytes) :=
    bind_eq_ok.mpr ⟨bytes, canonical_eq_ok.mpr hbytes, rfl⟩
  exact ⟨_, bind_eq_ok.mpr ⟨0, rfl, bind_eq_ok.mpr ⟨digest, hdigest,
    bind_eq_ok.mpr ⟨_, hmessage, rfl⟩⟩⟩, rfl, rfl⟩

/-- A receipt that was signed is valid for whoever expects the key it was signed with. -/
theorem verify_sign (hbase64 : ∀ bytes, Base64.decode (Base64.encode bytes) = .ok bytes)
    {document : δ} {signing : KeyBytes} {clock : Except Fault UInt64} {receipt : Signed σ δ}
    (h : format.sign document signing clock = .ok receipt)
    (hsign : SignatureHolds signing (format.message receipt.unsigned)) :
    format.verify receipt (.expectedKey (Ed25519.verifyingKey signing)) =
      .ok { valid := true, signatureValid := true, reportHashMatches := true
            schemaSupported := true, signerTrusted := true, legacy := false } := by
  obtain ⟨issued, -, h⟩ := bind_eq_ok.mp h
  obtain ⟨hash, hhash, h⟩ := bind_eq_ok.mp h
  obtain ⟨message, hmessage, h⟩ := bind_eq_ok.mp h
  obtain ⟨⟨⟩, hvalidate, hdigest⟩ := bind_eq_ok.mp hhash
  injection h with h
  subst h
  refine bind_eq_ok.mpr ⟨hash, hdigest, bind_eq_ok.mpr ⟨_, decodePublicKey_encode hbase64 _,
    bind_eq_ok.mpr ⟨_, decodeExact_encode hbase64 _ _, bind_eq_ok.mpr ⟨message, hmessage, ?_⟩⟩⟩⟩
  have hdocument := documentValid_iff.mpr hvalidate
  have htrusted : (TrustPolicy.expectedKey (Ed25519.verifyingKey signing)).accepts
      (Ed25519.verifyingKey signing) = true := by
    simp [TrustPolicy.accepts]
  simp [hdocument, hsign message hmessage, htrusted]

end Format

/-- A valid receipt with a signature that was signed has the message it was signed for. -/
theorem Authentic.message_eq [Ed25519] [Base64] {trust : TrustPolicy} {publicKey signature : String}
    {message : Except Fault (List UInt8)} (h : Authentic trust publicKey signature message)
    {key : VerifyingKey} (hkey : decodePublicKey publicKey = .ok key)
    {messages : Set (List UInt8)} {signed : Set (List UInt8 × Signature)}
    (hunforgeable : Unforgeable key messages signed)
    (hmessages : ∀ bytes, message = .ok bytes → bytes ∈ messages)
    {sig : Signature} (hsig : decodeExact 64 signature "signature" = .ok sig) {bytes : List UInt8}
    (hsigned : (bytes, sig) ∈ signed) : message = .ok bytes := by
  obtain ⟨key', bytes', sig', hkey', hsig', hmessage, hverify, -⟩ := h
  rw [hkey] at hkey'
  rw [hsig] at hsig'
  injection hkey' with hkey'
  injection hsig' with hsig'
  subst hkey' hsig'
  have hmem := hunforgeable.genuine bytes' (hmessages bytes' hmessage) _ hverify
  rw [hmessage, hunforgeable.single _ _ _ hmem hsigned]

namespace Format

variable {σ δ : Type} [Crates] {format : Format σ δ}

/-- Two payloads with one message are equal. -/
theorem unsigned_eq_of_message (hreads : format.Reads) {documents : Set Json}
    (hdocuments : KeepsApart documents) {unsigned unsigned' : Unsigned σ δ}
    (hmem : format.unsignedJson unsigned ∈ documents)
    (hmem' : format.unsignedJson unsigned' ∈ documents) {bytes : List UInt8}
    (h : format.message unsigned = .ok bytes) (h' : format.message unsigned' = .ok bytes) :
    unsigned' = unsigned := by
  obtain ⟨payload, hpayload, hbytes⟩ := bind_eq_ok.mp h
  obtain ⟨payload', hpayload', hbytes'⟩ := bind_eq_ok.mp h'
  injection hbytes with hbytes
  injection hbytes' with hbytes'
  have hpayloads : payload' = payload := List.append_cancel_left (hbytes'.trans hbytes.symm)
  subst hpayloads
  have hjson := hdocuments.eq_of_canonical hmem' hmem hpayload' hpayload
  have hread := hreads.unsignedOfJson_view Serde.view_id unsigned'
  rw [hjson, hreads.unsignedOfJson_view Serde.view_id unsigned] at hread
  exact (Option.some.inj hread).symm

end Format

end ProofFrame
