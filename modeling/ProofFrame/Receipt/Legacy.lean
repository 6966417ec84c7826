import ProofFrame.Receipt.Envelope

/-!
# Receipts of the first version

A receipt of the first version carries a whole report and is one flat object; its
fields are read next to members it does not know.
-/

namespace ProofFrame

open Lib Lib.Run

/-- A `Value`: no object has a key twice, and the keys are in order. -/
abbrev JsonValue : Type := { json : Json // json.toValue = json }

def JsonValue.ofJson (json : Json) : JsonValue := ⟨json.toValue, Serde.toValue_toValue json⟩

structure UnsignedReceipt where
  schema : String
  algorithm : String
  engineVersion : String
  issuedAtUnixMs : UInt64
  reportHash : String
  report : JsonValue
  publicKey : String

structure SignedReceipt where
  unsigned : UnsignedReceipt
  signature : String

/-- The result of verifying a receipt, whoever signed it. -/
structure Verification where
  valid : Bool
  signatureValid : Bool
  reportHashMatches : Bool
  schemaSupported : Bool
  deriving DecidableEq

namespace UnsignedReceipt

def members (unsigned : UnsignedReceipt) : List (String × Json) := [
  ("schema", .string unsigned.schema),
  ("algorithm", .string unsigned.algorithm),
  ("engine_version", .string unsigned.engineVersion),
  ("issued_at_unix_ms", .unsigned unsigned.issuedAtUnixMs.toNat),
  ("report_hash", .string unsigned.reportHash),
  ("report", unsigned.report.val),
  ("public_key", .string unsigned.publicKey)]

def toJson (unsigned : UnsignedReceipt) : Json := .object unsigned.members

end UnsignedReceipt

namespace SignedReceipt

def toJson (receipt : SignedReceipt) : Json :=
  .object (receipt.unsigned.members ++ [("signature", .string receipt.signature)])

def ofJson (json : Json) : Option SignedReceipt := do
  let field ← Serde.flattenedFields ["schema", "algorithm", "engine_version", "issued_at_unix_ms",
    "report_hash", "report", "public_key", "signature"] json
  let schema ← Serde.required Serde.string (field "schema")
  let algorithm ← Serde.required Serde.string (field "algorithm")
  let engineVersion ← Serde.required Serde.string (field "engine_version")
  let issuedAtUnixMs ← Serde.required Serde.u64 (field "issued_at_unix_ms")
  let reportHash ← Serde.required Serde.string (field "report_hash")
  let report ← Serde.required (some ∘ JsonValue.ofJson) (field "report")
  let publicKey ← Serde.required Serde.string (field "public_key")
  let signature ← Serde.required Serde.string (field "signature")
  some { unsigned := { schema, algorithm, engineVersion, issuedAtUnixMs, reportHash, report
                       publicKey }, signature }

end SignedReceipt

/-! ## Integers every reader agrees on -/

def maxSafeInteger : ℕ := 9007199254740991

def isIJsonNumber (text : String) : Bool :=
  match Serde.parseI64 text with
  | some value => value.natAbs ≤ maxSafeInteger
  | none => match (Serde.parseUnsigned text).filter (· < 2 ^ 64) with
    | some value => value ≤ maxSafeInteger
    | none => true

mutual

def Json.isIJson : Json → Bool
  | .number text => isIJsonNumber text
  | .array items => Json.itemsIJson items
  | .object members => Json.membersIJson members
  | .null | .bool _ | .string _ => true

def Json.itemsIJson : List Json → Bool
  | [] => true
  | item :: items => item.isIJson && Json.itemsIJson items

def Json.membersIJson : List (String × Json) → Bool
  | [] => true
  | (_, value) :: members => value.isIJson && Json.membersIJson members

end

def validateIJson (value : Json) : Except Fault Unit :=
  rejectIf (!value.isIJson)
    (invalidEvidence "Receipt integers must be within the I-JSON safe range")

/-! ## Signing and verifying -/

section Signing

variable [Crates] [Ed25519] [Base64] [SerdeJson]

/-- The receipt `sign_json` writes. -/
def signReport (reportJson privateKey : String) (clock : Except Fault UInt64) :
    Except Fault SignedReceipt := do
  let report ← fromStr "Value" (some ∘ JsonValue.ofJson) reportJson
  validateIJson report.val
  let signing ← decodeExact 32 privateKey "private key"
  let reportBytes ← canonical report.val
  let issuedAtUnixMs ← clock
  let unsigned : UnsignedReceipt :=
    { schema := "proofframe.receipt.v1", algorithm := "Ed25519", engineVersion, issuedAtUnixMs
      reportHash := (Crates.blake3 reportBytes).toHex, report
      publicKey := Base64.encode (Ed25519.verifyingKey signing).val.val }
  let message ← canonical unsigned.toJson
  .ok { unsigned, signature := Base64.encode (Ed25519.sign signing message).val }

def signJson (reportJson privateKey : String) (clock : Except Fault UInt64) :
    Except Fault String := do
  let receipt ← signReport reportJson privateKey clock
  .ok receipt.toJson.compact

/-- `verify_json`, once the text is read. -/
def SignedReceipt.verify (receipt : SignedReceipt) : Except Fault Verification := do
  validateIJson receipt.unsigned.report.val
  let schemaSupported := receipt.unsigned.schema == "proofframe.receipt.v1" &&
    receipt.unsigned.algorithm == "Ed25519"
  let reportBytes ← canonical receipt.unsigned.report.val
  let reportHashMatches := (Crates.blake3 reportBytes).toHex == receipt.unsigned.reportHash
  let publicKey ← decodePublicKey receipt.unsigned.publicKey
  let signature ← decodeExact 64 receipt.signature "signature"
  let message ← canonical receipt.unsigned.toJson
  let signatureValid := Ed25519.verifyStrict publicKey message signature
  .ok { valid := schemaSupported && reportHashMatches && signatureValid
        signatureValid, reportHashMatches, schemaSupported }

def verifyJson (receiptJson : String) : Except Fault Verification := do
  let receipt ← fromStr "SignedReceipt" SignedReceipt.ofJson receiptJson
  receipt.verify

end Signing

/-! ## Reading back -/

section RoundTrip

variable {view : Json → Json}

theorem JsonValue.ofJson_view (hvalue : ∀ value : JsonValue, (view value.val).toValue = value.val)
    (value : JsonValue) : ofJson (view value.val) = value :=
  Subtype.ext (hvalue value)

theorem SignedReceipt.ofJson_view (hview : Serde.View view)
    (hvalue : ∀ value : JsonValue, (view value.val).toValue = value.val)
    (receipt : SignedReceipt) : ofJson (view receipt.toJson) = some receipt := by
  have hfields : ∀ names members, members.map Prod.fst = names → names.Nodup →
      Serde.flattenedFields names (view (.object members)) =
        some fun name => .ofMember ((SortedMap.find name members).map view) := by
    intro names members hnames hnodup
    obtain ⟨entries, hentries⟩ := hview.object members
    rw [← hview.fields_members hnames hnodup, hentries]
    rfl
  rw [toJson, ofJson, hfields]
  · simp only [UnsignedReceipt.members, List.cons_append, List.nil_append, SortedMap.find_cons,
      String.reduceEq, ↓reduceIte, Option.map_some, Serde.Slot.ofMember_some,
      Serde.required_value, Option.bind_eq_bind, Option.bind_some, hview.string_text,
      hview.u64_value, Function.comp_apply, JsonValue.ofJson_view hvalue]
  · rfl
  · decide

theorem UnsignedReceipt.eq_of_toJson {unsigned unsigned' : UnsignedReceipt}
    (h : unsigned.toJson = unsigned'.toJson) : unsigned = unsigned' := by
  have hmembers : unsigned.members = unsigned'.members := Json.object.inj h
  have hread : ∀ unsigned : UnsignedReceipt, SignedReceipt.ofJson
      (SignedReceipt.toJson { unsigned, signature := "" }) = some { unsigned, signature := "" } :=
    fun unsigned => SignedReceipt.ofJson_view Serde.view_id (fun value => value.property) _
  have hsame := hread unsigned
  rw [SignedReceipt.toJson, hmembers] at hsame
  have heq := Option.some.inj (hsame.symm.trans (hread unsigned'))
  exact congrArg SignedReceipt.unsigned heq

/-- A text and its value are read as receipts of one key. -/
theorem SignedReceipt.publicKey_toValue {json : Json} {receipt receipt' : SignedReceipt}
    (h : ofJson json = some receipt) (h' : ofJson json.toValue = some receipt') :
    receipt'.unsigned.publicKey = receipt.unsigned.publicKey := by
  have hkey : ∀ {json : Json} {receipt : SignedReceipt}, ofJson json = some receipt →
      ∃ members, json = .object members ∧ members.countP (·.1 = "public_key") ≤ 1 ∧
        SortedMap.find "public_key" members = some (.string receipt.unsigned.publicKey) := by
    intro json receipt h
    simp only [ofJson, Option.bind_eq_bind, Option.bind_eq_some_iff, Option.some.injEq] at h
    obtain ⟨field, hfield, -, -, -, -, -, -, -, -, -, -, -, -, publicKey, hpublicKey, -, -, rfl⟩ := h
    cases json with
    | object members =>
        simp only [Serde.flattenedFields, Serde.fields] at hfield
        split at hfield
        · rename_i hdistinct
          injection hfield with hfield
          subst hfield
          refine ⟨members, rfl, hdistinct.1 "public_key" (by decide), ?_⟩
          obtain ⟨json, hslot, hstring⟩ := Serde.required_eq_some.mp hpublicKey
          rw [Serde.string_eq_some.mp hstring] at hslot
          cases hfind : SortedMap.find "public_key" members with
          | none => simp [hfind, Serde.Slot.ofMember] at hslot
          | some json => simpa [hfind, Serde.Slot.ofMember] using hslot
        · cases hfield
    | _ => cases hfield
  obtain ⟨members, rfl, hcount, hfind⟩ := hkey h
  obtain ⟨members', hmembers, -, hfind'⟩ := hkey h'
  rw [Json.toValue, Json.object.injEq] at hmembers
  rw [← hmembers, Serde.find_toMap hcount, hfind, SortedMap.find_nil, Option.or_none,
    Option.map_some, Json.toValue] at hfind'
  injection hfind' with hfind'
  injection hfind' with hfind'
  exact hfind'.symm

end RoundTrip

/-! ## What a parser can follow -/

/-- A report that leaves room for the receipt around it, and that has no object a parser takes for
a number. -/
def JsonValue.Enclosable (report : JsonValue) : Prop :=
  report.val.nesting < maxNesting ∧ report.val.all Json.isUncrowded = true

section Readable

variable {kept : String → Bool} (hkept : ∀ value : ℕ, kept value.repr = true)
  {receipt : SignedReceipt}

include hkept

theorem SignedReceipt.readable {depth : ℕ} (h : receipt.unsigned.report.val.Readable kept depth) :
    receipt.toJson.Readable kept (depth + 1) :=
  .object rfl (by
    simp [UnsignedReceipt.members, Json.Readable.string, Json.Readable.unsigned hkept, h])

theorem SignedReceipt.numbers
    (h : receipt.unsigned.report.val.all (Json.hasNumber kept) = true) :
    receipt.toJson.all (Json.hasNumber kept) = true := by
  have hissued := (@Json.Readable.unsigned kept 0 hkept
    receipt.unsigned.issuedAtUnixMs.toNat).numbers
  refine Json.allMembers_iff.mpr ?_
  simp [UnsignedReceipt.members, h, hissued, Json.all, Json.hasNumber]

omit hkept in
/-- The text of a receipt that is not to be followed. -/
theorem SignedReceipt.not_followed (h : ¬receipt.unsigned.report.Enclosable) :
    maxNesting < receipt.toJson.nesting ∨ receipt.toJson.all Json.isUncrowded = false := by
  have hreport : ("report", receipt.unsigned.report.val) ∈
      receipt.unsigned.members ++ [("signature", .string receipt.signature)] := by
    simp [UnsignedReceipt.members]
  rw [JsonValue.Enclosable, not_and_or, not_lt, Bool.not_eq_true] at h
  rcases h with hdeep | hcrowded
  · refine .inl (Nat.lt_succ_of_le (hdeep.trans ?_))
    exact Json.membersNesting_le_iff.mp le_rfl _ hreport
  · refine .inr (Bool.eq_false_iff.mpr fun hall => ?_)
    rw [SignedReceipt.toJson, Json.all, Bool.and_eq_true] at hall
    have huncrowded := Json.allMembers_iff.mp hall.2 _ hreport
    rw [hcrowded] at huncrowded
    cases huncrowded

end Readable

theorem UnsignedReceipt.nesting_toJson (unsigned : UnsignedReceipt) :
    unsigned.toJson.nesting = unsigned.report.val.nesting + 1 := by
  simp [toJson, members, Json.nesting, Json.membersNesting, Json.unsigned]

/-! ## What a valid receipt is -/

section Valid

variable [Crates] [Ed25519] [Base64]

theorem SignedReceipt.verify_valid {receipt : SignedReceipt} {verification : Verification}
    (h : receipt.verify = .ok verification) (hvalid : verification.valid = true) {key : VerifyingKey}
    (hkey : decodePublicKey receipt.unsigned.publicKey = .ok key) {trust : TrustPolicy}
    (htrust : trust.accepts key = true) :
    Authentic trust receipt.unsigned.publicKey receipt.signature
        (canonical receipt.unsigned.toJson) ∧
      validateIJson receipt.unsigned.report.val = .ok () ∧
      (∃ bytes, canonical receipt.unsigned.report.val = .ok bytes ∧
        receipt.unsigned.reportHash = (Crates.blake3 bytes).toHex) ∧
      receipt.unsigned.schema = "proofframe.receipt.v1" ∧
      receipt.unsigned.algorithm = "Ed25519" := by
  obtain ⟨⟨⟩, hIJson, h⟩ := bind_eq_ok.mp h
  obtain ⟨bytes, hbytes, h⟩ := bind_eq_ok.mp h
  obtain ⟨key', hkey', h⟩ := bind_eq_ok.mp h
  obtain ⟨signature, hsignature, h⟩ := bind_eq_ok.mp h
  obtain ⟨message, hmessage, h⟩ := bind_eq_ok.mp h
  rw [hkey] at hkey'
  injection hkey' with hkey'
  subst hkey'
  injection h with h
  subst h
  simp only [Bool.and_eq_true, beq_iff_eq] at hvalid
  obtain ⟨⟨⟨hschema, halgorithm⟩, hhash⟩, hverify⟩ := hvalid
  exact ⟨⟨key, message, signature, hkey, hsignature, hmessage, hverify,
    (trust.accepts_iff key).mp htrust⟩, hIJson, ⟨bytes, hbytes, hhash.symm⟩, hschema, halgorithm⟩

/-- The text of a receipt is read back exactly if its report can be enclosed. -/
theorem parse_signReport [SerdeJson] {kept : String → Bool} (hparser : SerdeJson.Reads kept)
    {reportJson privateKey : String} {clock : Except Fault UInt64} {receipt : SignedReceipt}
    (h : signReport reportJson privateKey clock = .ok receipt) :
    (receipt.unsigned.report.Enclosable → ReadsBack receipt.toJson) ∧
      (¬receipt.unsigned.report.Enclosable →
        ∃ message, SerdeJson.parse receipt.toJson.compact = .error message) := by
  obtain ⟨report, hreport, h⟩ := bind_eq_ok.mp h
  obtain ⟨json, hparse, hjson⟩ := fromStr_eq_ok.mp hreport
  obtain ⟨⟨⟩, -, h⟩ := bind_eq_ok.mp h
  obtain ⟨_, -, h⟩ := bind_eq_ok.mp h
  obtain ⟨_, -, h⟩ := bind_eq_ok.mp h
  obtain ⟨_, -, h⟩ := bind_eq_ok.mp h
  obtain ⟨_, -, h⟩ := bind_eq_ok.mp h
  injection h with h
  have hvalue : receipt.unsigned.report = JsonValue.ofJson json := by
    rw [← h]
    exact (Option.some.inj hjson).symm
  have hread := hparser.parsed _ _ hparse
  have hnumbers : receipt.unsigned.report.val.all (Json.hasNumber kept) = true := by
    rw [hvalue]
    exact numbers_toValue json hread.numbers
  constructor
  · rintro ⟨hnesting, huncrowded⟩
    rw [hvalue] at huncrowded
    have hplain : receipt.unsigned.report.val.all Json.isPlain = true := by
      rw [hvalue]
      exact plain_toValue json hread.plain huncrowded
    refine hparser.written _ (SignedReceipt.readable hparser.unsigned ⟨hnumbers, hplain, ?_⟩)
    exact Nat.le_of_lt_succ hnesting
  · intro hnot
    exact hparser.refused _ (SignedReceipt.numbers hparser.unsigned hnumbers)
      (SignedReceipt.not_followed hnot)

/-- A receipt that was signed verifies, with the key it was signed with. -/
theorem verify_signReport [SerdeJson]
    (hbase64 : ∀ bytes, Base64.decode (Base64.encode bytes) = .ok bytes)
    {reportJson privateKey : String} {clock : Except Fault UInt64} {receipt : SignedReceipt}
    (h : signReport reportJson privateKey clock = .ok receipt) :
    ∃ signing, decodeExact 32 privateKey "private key" = .ok signing ∧
      decodePublicKey receipt.unsigned.publicKey = .ok (Ed25519.verifyingKey signing) ∧
      receipt.unsigned.schema = "proofframe.receipt.v1" ∧
      (∀ message, canonical receipt.unsigned.toJson = .ok message →
        decodeExact 64 receipt.signature "signature" = .ok (Ed25519.sign signing message)) ∧
      (SignatureHolds signing (canonical receipt.unsigned.toJson) →
        receipt.verify = .ok { valid := true, signatureValid := true, reportHashMatches := true
                               schemaSupported := true }) := by
  obtain ⟨report, -, h⟩ := bind_eq_ok.mp h
  obtain ⟨⟨⟩, hIJson, h⟩ := bind_eq_ok.mp h
  obtain ⟨signing, hsigning, h⟩ := bind_eq_ok.mp h
  obtain ⟨bytes, hbytes, h⟩ := bind_eq_ok.mp h
  obtain ⟨issued, -, h⟩ := bind_eq_ok.mp h
  obtain ⟨message, hmessage, h⟩ := bind_eq_ok.mp h
  injection h with h
  subst h
  have hkey := decodePublicKey_encode hbase64 (Ed25519.verifyingKey signing)
  refine ⟨signing, hsigning, hkey, rfl, fun message' hmessage' => ?_, fun hsign => ?_⟩
  · rw [hmessage] at hmessage'
    injection hmessage' with hmessage'
    rw [← hmessage']
    exact decodeExact_encode hbase64 _ _
  refine bind_eq_ok.mpr ⟨(), hIJson, bind_eq_ok.mpr ⟨bytes, hbytes, bind_eq_ok.mpr ⟨_, hkey,
    bind_eq_ok.mpr ⟨_, decodeExact_encode hbase64 _ _, bind_eq_ok.mpr ⟨message, hmessage, ?_⟩⟩⟩⟩⟩
  simp [hsign message hmessage]

end Valid

end ProofFrame
