import ProofFrame.Encoding.Fingerprint
import ProofFrame.Lib.Steps

/-!
# Tagged digests

The texts in which evidence carries digests: a tag, and sixty-four lowercase
hexadecimal digits.  The text of a digest passes the check of its tag, and two
digests have different texts.
-/

namespace ProofFrame

open Lib Lib.Run

/-- `invalid_evidence`, and `invalid` of the partition manifest. -/
def invalidEvidence (message : String) : Fault := .error (.invalidReceipt message)

/-- `str::strip_prefix`. -/
def stripPrefix (tag text : String) : Option String :=
  if tag.toList.isPrefixOf text.toList then
    some (String.ofList (text.toList.drop tag.toList.length))
  else none

/-- `is_ascii_hexdigit` and not `is_ascii_uppercase`. -/
def isLowerHexDigit (byte : UInt8) : Bool :=
  (48 ≤ byte && byte ≤ 57) || (97 ≤ byte && byte ≤ 102)

/-- Sixty-four lowercase hexadecimal digits. -/
def isHexDigest (hex : String) : Bool :=
  (utf8Bytes hex).length = 64 && (utf8Bytes hex).all isLowerHexDigit

def validateTaggedDigest (value tag label : String) : Except Fault Unit :=
  match stripPrefix tag value with
  | none => .error (invalidEvidence s!"Evidence {label} digest has the wrong prefix")
  | some hex => rejectIf (!isHexDigest hex) (invalidEvidence
      s!"Evidence {label} digest must contain 64 lowercase hexadecimal characters")

def validateTaggedDigestAny (value : String) (tags : List String) (label : String) :
    Except Fault Unit :=
  rejectIf (!tags.any fun tag => (stripPrefix tag value).any isHexDigest) (invalidEvidence
    s!"Evidence {label} digest has an unsupported prefix or malformed digest")

/-- `decode_hex`. -/
def decodeHex (byte : UInt8) : Except Fault UInt8 :=
  if 48 ≤ byte ∧ byte ≤ 57 then .ok (byte - 48)
  else if 97 ≤ byte ∧ byte ≤ 102 then .ok (byte - 97 + 10)
  else .error (invalidEvidence "Partition root contains invalid hexadecimal")

/-- The bytes written as pairs of digits. -/
def decodeHexPairs : List UInt8 → Except Fault (List UInt8)
  | high :: low :: rest => do
      let high ← decodeHex high
      let low ← decodeHex low
      let rest ← decodeHexPairs rest
      .ok ((high <<< 4 ||| low) :: rest)
  | _ => .ok []

/-! ## The texts of digests -/

theorem stripPrefix_append (tag text : String) : stripPrefix tag (tag ++ text) = some text := by
  rw [stripPrefix, String.toList_append, if_pos (by simp), List.drop_left, String.ofList_toList]

/-- A digit is one byte, which the decoder reads back. -/
theorem utf8_digitChar : ∀ digit < 16, ∃ byte, String.utf8EncodeChar (Nat.digitChar digit) = [byte] ∧
    isLowerHexDigit byte = true ∧ decodeHex byte = .ok (UInt8.ofNat digit) := by
  have h : ∀ digit < 16, String.utf8EncodeChar (Nat.digitChar digit) =
      [UInt8.ofNat (Nat.digitChar digit).toNat] ∧
      isLowerHexDigit (UInt8.ofNat (Nat.digitChar digit).toNat) = true ∧
      decodeHex (UInt8.ofNat (Nat.digitChar digit).toNat) = .ok (UInt8.ofNat digit) := by
    decide +kernel
  exact fun digit hdigit => ⟨_, h digit hdigit⟩

theorem joinDigits (byte : UInt8) :
    UInt8.ofNat (byte.toNat / 16) <<< 4 ||| UInt8.ofNat (byte.toNat % 16) = byte := by
  have h : ∀ value < 256,
      UInt8.ofNat (value / 16) <<< 4 ||| UInt8.ofNat (value % 16) = UInt8.ofNat value := by
    decide +kernel
  rw [h byte.toNat byte.toNat_lt, UInt8.ofNat_toNat]

/-- The two digits of a byte. -/
theorem utf8_hexByte (byte : UInt8) : ∃ high low, (hexByte byte).flatMap String.utf8EncodeChar =
    [high, low] ∧ isLowerHexDigit high = true ∧ isLowerHexDigit low = true ∧
    ∀ rest, decodeHexPairs (high :: low :: rest) = (decodeHexPairs rest).map (byte :: ·) := by
  have hlt := byte.toNat_lt
  obtain ⟨high, hhigh, hhighHex, hhighDecode⟩ := utf8_digitChar (byte.toNat / 16) (by omega)
  obtain ⟨low, hlow, hlowHex, hlowDecode⟩ := utf8_digitChar (byte.toNat % 16) (by omega)
  refine ⟨high, low, ?_, hhighHex, hlowHex, ?_⟩
  · simp only [hexByte, List.flatMap_cons, List.flatMap_nil, hhigh, hlow, List.append_nil,
      List.singleton_append]
  · intro rest
    rw [decodeHexPairs, hhighDecode, hlowDecode]
    cases decodeHexPairs rest with
    | error fault => rfl
    | ok bytes => exact congrArg (fun b => Except.ok (b :: bytes)) (joinDigits byte)

theorem utf8Bytes_hex (bytes : List UInt8) :
    (utf8Bytes (String.ofList (bytes.flatMap hexByte))).length = 2 * bytes.length ∧
      (utf8Bytes (String.ofList (bytes.flatMap hexByte))).all isLowerHexDigit = true ∧
      decodeHexPairs (utf8Bytes (String.ofList (bytes.flatMap hexByte))) = .ok bytes := by
  unfold utf8Bytes
  rw [String.toList_ofList]
  induction bytes with
  | nil => exact ⟨rfl, rfl, rfl⟩
  | cons byte bytes ih =>
      obtain ⟨high, low, hdigits, hhigh, hlow, hdecode⟩ := utf8_hexByte byte
      obtain ⟨hlength, hhex, hrest⟩ := ih
      rw [List.flatMap_cons, List.flatMap_append, hdigits]
      refine ⟨?_, ?_, ?_⟩
      · rw [List.length_append, hlength, List.length_cons]
        simp only [List.length_cons, List.length_nil]
        omega
      · rw [List.all_append, hhex]
        simp [hhigh, hlow]
      · exact (hdecode _).trans (congrArg (Except.map (byte :: ·)) hrest)

theorem isHexDigest_toHex (digest : Digest) : isHexDigest digest.toHex = true := by
  obtain ⟨hlength, hhex, -⟩ := utf8Bytes_hex digest.val
  have hlength : (utf8Bytes digest.toHex).length = 64 := by
    rw [Digest.toHex, hlength, digest.property]
  rw [isHexDigest, hlength, Digest.toHex, hhex]
  rfl

theorem decodeHexPairs_toHex (digest : Digest) :
    decodeHexPairs (utf8Bytes digest.toHex) = .ok digest.val :=
  (utf8Bytes_hex digest.val).2.2

theorem Digest.toHex_injective {digest digest' : Digest} (h : digest.toHex = digest'.toHex) :
    digest = digest' := by
  have hbytes := decodeHexPairs_toHex digest
  rw [h, decodeHexPairs_toHex] at hbytes
  injection hbytes with hbytes
  exact Subtype.ext hbytes.symm

theorem taggedDigest_injective {tag : String} {digest digest' : Digest}
    (h : taggedDigest tag digest = taggedDigest tag digest') : digest = digest' := by
  have hstrip := congrArg (stripPrefix tag) h
  rw [taggedDigest, taggedDigest, stripPrefix_append, stripPrefix_append] at hstrip
  injection hstrip with hstrip
  exact Digest.toHex_injective hstrip

/-! ## What the checks accept -/

/-- The text is the tag followed by a digest in hexadecimal. -/
def IsTagged (tag value : String) : Prop :=
  ∃ hex, stripPrefix tag value = some hex ∧ isHexDigest hex = true

theorem isTagged_taggedDigest (tag : String) (digest : Digest) :
    IsTagged tag (taggedDigest tag digest) :=
  ⟨digest.toHex, stripPrefix_append .., isHexDigest_toHex digest⟩

theorem validateTaggedDigest_eq_ok {value tag label : String} :
    validateTaggedDigest value tag label = .ok () ↔ IsTagged tag value := by
  unfold validateTaggedDigest IsTagged
  cases stripPrefix tag value with
  | none => simp
  | some hex => simp [rejectIf_eq_ok]

theorem validateTaggedDigestAny_eq_ok {value label : String} {tags : List String} :
    validateTaggedDigestAny value tags label = .ok () ↔ ∃ tag ∈ tags, IsTagged tag value := by
  unfold validateTaggedDigestAny IsTagged
  simp [rejectIf_eq_ok, Option.any_eq_true]

end ProofFrame
