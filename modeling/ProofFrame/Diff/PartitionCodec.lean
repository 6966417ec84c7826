import ProofFrame.Diff.Partition

/-!
# The records of a partition

Decoding undoes encoding, field by field: each reading step of the source ends
in a value exactly if the bytes start with the encoding of that value, so one
equivalence per field serves both directions.  A step that ends in no value
reports a corrupt partition, and never asks for a buffer above the limit.
-/

namespace ProofFrame.Diff

open Lib Lib.Run

/-! ## Fields -/

theorem readExactCorrupt_eq_ok {count : ℕ} {reader bytes rest : List UInt8} :
    readExactCorrupt count reader = .ok (bytes, rest) ↔
      reader = bytes ++ rest ∧ bytes.length = count := by
  rw [readExactCorrupt, required_eq_ok, Bytes.split_eq_some]

theorem readUintExact_eq_ok {width n : ℕ} {reader rest : List UInt8} :
    readUintExact width reader = .ok (n, rest) ↔
      reader = Bytes.toLe width n ++ rest ∧ n < 256 ^ width := by
  rw [readUintExact, bind_eq_ok]
  constructor
  · rintro ⟨⟨bytes, rest'⟩, hread, h⟩
    obtain ⟨rfl, hlength⟩ := readExactCorrupt_eq_ok.mp hread
    cases h
    subst hlength
    exact ⟨by rw [Bytes.toLe_ofLe], Bytes.ofLe_lt bytes⟩
  · rintro ⟨rfl, hlt⟩
    refine ⟨_, readExactCorrupt_eq_ok.mpr ⟨rfl, Bytes.length_toLe width n⟩, ?_⟩
    dsimp only
    rw [Bytes.ofLe_toLe, Nat.mod_eq_of_lt hlt]

theorem readDigest_eq_ok {reader rest : List UInt8} {digest : Digest} :
    readDigest reader = .ok (digest, rest) ↔ reader = digest.val ++ rest := by
  unfold readDigest
  split
  · rename_i bytes rest' h
    have hsplit := Bytes.split_eq_some.mp h
    constructor
    · intro heq
      cases heq
      exact hsplit.1
    · rintro rfl
      obtain ⟨rfl, rfl⟩ := List.append_inj hsplit.1 (digest.property.trans hsplit.2.symm)
      rfl
  · rename_i h
    constructor
    · intro heq
      cases heq
    · rintro rfl
      rw [Bytes.split_append digest.property rest] at h
      cases h

theorem decodeBytesWithLength_eq_ok {reader bytes rest : List UInt8} {length maxBytes : ℕ} :
    decodeBytesWithLength reader length maxBytes = .ok (bytes, rest) ↔
      reader = bytes ++ rest ∧ bytes.length = length ∧ length ≤ maxBytes := by
  unfold decodeBytesWithLength newBuffer
  simp only [bind_eq_ok, rejectIf_eq_ok, readExactCorrupt_eq_ok, not_lt]
  constructor
  · rintro ⟨_, hle, _, _, h, hlength⟩
    exact ⟨h, hlength, hle⟩
  · rintro ⟨h, hlength, hle⟩
    exact ⟨(), hle, (), hle, h, hlength⟩

theorem decodeBytes_eq_ok {reader bytes rest : List UInt8} {maxBytes : ℕ} :
    decodeBytes reader maxBytes = .ok (bytes, rest) ↔
      reader = encodeBytes bytes ++ rest ∧ bytes.length ≤ maxBytes ∧ bytes.length < 2 ^ 64 := by
  rw [decodeBytes, bind_eq_ok]
  constructor
  · rintro ⟨⟨length, middle⟩, hread, h⟩
    obtain ⟨rfl, hlt⟩ := readUintExact_eq_ok.mp hread
    obtain ⟨rfl, rfl, hle⟩ := decodeBytesWithLength_eq_ok.mp h
    refine ⟨?_, hle, Nat.lt_of_lt_of_eq hlt (by norm_num)⟩
    rw [encodeBytes, List.append_assoc]
  · rintro ⟨rfl, hle, hlt⟩
    refine ⟨(bytes.length, bytes ++ rest), ?_, decodeBytesWithLength_eq_ok.mpr ⟨rfl, rfl, hle⟩⟩
    rw [readUintExact_eq_ok, encodeBytes, List.append_assoc]
    exact ⟨rfl, Nat.lt_of_lt_of_eq hlt (by norm_num)⟩

/-- The length of the value can be told from the one that stands for a null. -/
def ValueFits (maxBytes : ℕ) : Option (List UInt8) → Prop
  | none => True
  | some bytes => bytes.length ≤ maxBytes ∧ bytes.length < nullLength

theorem decodeValues_eq_ok {maxBytes : ℕ} {values : List (Option (List UInt8))}
    {rest : List UInt8} : ∀ {count : ℕ} {reader : List UInt8},
      decodeValues maxBytes count reader = .ok (values, rest) ↔
        reader = values.flatMap encodeValue ++ rest ∧ values.length = count ∧
          ∀ value ∈ values, ValueFits maxBytes value := by
  intro count
  induction count generalizing values with
  | zero =>
      intro reader
      rw [decodeValues]
      constructor
      · intro h
        cases h
        exact ⟨rfl, rfl, by simp⟩
      · rintro ⟨rfl, hlength, -⟩
        obtain rfl := List.length_eq_zero_iff.mp hlength
        rfl
  | succ count ih =>
      intro reader
      rw [decodeValues, bind_eq_ok]
      constructor
      · rintro ⟨⟨length, middle⟩, hread, h⟩
        obtain ⟨rfl, hlt⟩ := readUintExact_eq_ok.mp hread
        dsimp only at h
        split at h
        · obtain ⟨⟨values', rest'⟩, hvalues, h⟩ := bind_eq_ok.mp h
          cases h
          obtain ⟨rfl, rfl, hfits⟩ := ih.mp hvalues
          rename_i hnull
          refine ⟨?_, rfl, ?_⟩
          · rw [hnull, List.flatMap_cons, encodeValue, List.append_assoc]
          · exact List.forall_mem_cons.mpr ⟨trivial, hfits⟩
        · rename_i hnull
          obtain ⟨⟨bytes, middle'⟩, hbytes, h⟩ := bind_eq_ok.mp h
          obtain ⟨⟨values', rest'⟩, hvalues, h⟩ := bind_eq_ok.mp h
          cases h
          obtain ⟨rfl, rfl, hle⟩ := decodeBytesWithLength_eq_ok.mp hbytes
          obtain ⟨rfl, rfl, hfits⟩ := ih.mp hvalues
          -- the length of a null is the largest one, and this is another
          have hlength : bytes.length < nullLength := by
            have hlt : bytes.length < 2 ^ 64 := Nat.lt_of_lt_of_eq hlt (by norm_num)
            have hnull : bytes.length ≠ 2 ^ 64 - 1 := hnull
            unfold nullLength
            omega
          refine ⟨?_, rfl, List.forall_mem_cons.mpr ⟨⟨hle, hlength⟩, hfits⟩⟩
          rw [List.flatMap_cons, encodeValue, encodeBytes, List.append_assoc, List.append_assoc]
      · rintro ⟨rfl, hlength, hfits⟩
        cases values with
        | nil => simp at hlength
        | cons value values =>
            rw [List.length_cons, Nat.add_right_cancel_iff] at hlength
            have hvalues : decodeValues maxBytes count (values.flatMap encodeValue ++ rest) =
                .ok (values, rest) :=
              ih.mpr ⟨rfl, hlength, fun v hv => hfits v (List.mem_cons_of_mem _ hv)⟩
            cases value with
            | none =>
                refine ⟨(nullLength, values.flatMap encodeValue ++ rest), ?_, ?_⟩
                · rw [readUintExact_eq_ok, List.flatMap_cons, encodeValue, List.append_assoc]
                  exact ⟨rfl, by decide⟩
                · dsimp only
                  rw [if_pos rfl, hvalues]
                  rfl
            | some bytes =>
                obtain ⟨hle, hlt⟩ := hfits _ (List.mem_cons_self ..)
                refine ⟨(bytes.length, bytes ++ (values.flatMap encodeValue ++ rest)), ?_, ?_⟩
                · rw [readUintExact_eq_ok, List.flatMap_cons, encodeValue, encodeBytes,
                    List.append_assoc, List.append_assoc]
                  exact ⟨rfl, Nat.lt_trans hlt (by decide)⟩
                · dsimp only
                  rw [if_neg hlt.ne, decodeBytesWithLength_eq_ok.mpr ⟨rfl, rfl, hle⟩]
                  dsimp only [bind, Except.bind]
                  rw [hvalues]

theorem fromUTF8_eq_some {bytes : List UInt8} {text : String} :
    String.fromUTF8? bytes.toByteArray = some text ↔ bytes = utf8Bytes text := by
  have hbytes : bytes = utf8Bytes text ↔ bytes.toByteArray = text.toByteArray := by
    rw [← toByteArray_utf8Bytes, ByteArray.ext_iff, List.data_toByteArray, List.data_toByteArray,
      Array.mk.injEq]
  rw [hbytes]
  unfold String.fromUTF8?
  split
  · rename_i h
    constructor
    · intro heq
      cases heq
      rfl
    · intro heq
      rw [Option.some.injEq, ← String.toByteArray_inj]
      exact heq
  · rename_i h
    constructor
    · intro heq
      cases heq
    · intro heq
      rw [heq] at h
      exact absurd text.isValidUTF8 h

/-! ## Records -/

/-- Every field of the record is within the limits. -/
structure FieldsFit (limits : PartitionLimits) (record : KeyedEntry) : Prop where
  key_le : record.1.length ≤ limits.maxRecordBytes
  key_lt : record.1.length < 2 ^ 64
  display_le : (utf8Bytes record.2.displayKey).length ≤ limits.maxRecordBytes
  display_lt : (utf8Bytes record.2.displayKey).length < 2 ^ 64
  columns_le : record.2.values.length ≤ limits.maxColumns
  columns_lt : record.2.values.length < 2 ^ 32
  values_fit : ∀ value ∈ record.2.values, ValueFits limits.maxRecordBytes value

theorem decodeRecord_eq_ok {encoded : List UInt8} {limits : PartitionLimits}
    {record : KeyedEntry} :
    decodeRecord encoded limits = .ok record ↔
      encoded = encodeRecord record ∧ FieldsFit limits record := by
  unfold decodeRecord
  simp only [bind_eq_ok, Prod.exists, decodeBytes_eq_ok, required_eq_ok, fromUTF8_eq_some,
    readDigest_eq_ok, readUintExact_eq_ok, rejectIf_eq_ok, decodeValues_eq_ok, ne_eq, not_not,
    not_lt, Except.ok.injEq]
  constructor
  · rintro ⟨key, _, ⟨rfl, hkey, hkey'⟩, _, _, ⟨rfl, hdisplay, hdisplay'⟩, displayKey, rfl, hash, _, rfl,
      _, _, ⟨rfl, hcount⟩, _, hcolumns, values, _, ⟨rfl, rfl, hvalues⟩, _, rfl, rfl⟩
    refine ⟨?_, hkey, hkey', hdisplay, hdisplay', hcolumns, ?_, hvalues⟩
    · simp only [encodeRecord, List.append_assoc, List.append_nil]
    · exact Nat.lt_of_lt_of_eq hcount (by norm_num)
  · rintro ⟨rfl, h⟩
    refine ⟨record.1, _, ⟨?_, h.key_le, h.key_lt⟩, _, _, ⟨rfl, h.display_le, h.display_lt⟩, _, rfl,
      record.2.hash, _, rfl, _, _, ⟨rfl, ?_⟩, (), h.columns_le, record.2.values, [],
      ⟨(List.append_nil _).symm, rfl, h.values_fit⟩, (), rfl, rfl⟩
    · simp only [encodeRecord, List.append_assoc]
    · exact Nat.lt_of_lt_of_eq h.columns_lt (by norm_num)

/-- A record as the payload holds it: its length and its bytes. -/
def frame (record : KeyedEntry) : List UInt8 := encodeBytes (encodeRecord record)

def payload (records : List KeyedEntry) : List UInt8 := records.flatMap frame

theorem length_encodeBytes (bytes : List UInt8) : (encodeBytes bytes).length = 8 + bytes.length := by
  rw [encodeBytes, List.length_append, Bytes.length_toLe]

/-- The bytes a value takes up in a record. -/
def valueBytes : Option (List UInt8) → ℕ
  | some bytes => 8 + bytes.length
  | none => 8

theorem length_encodeValue (value : Option (List UInt8)) :
    (encodeValue value).length = valueBytes value := by
  cases value with
  | none => rfl
  | some bytes => exact length_encodeBytes bytes

theorem length_encodeRecord (record : KeyedEntry) :
    (encodeRecord record).length = 8 + record.1.length + 8 + record.2.displayKey.utf8ByteSize + 36 +
      (record.2.values.map valueBytes).sum := by
  have hvalues : (record.2.values.flatMap encodeValue).length =
      (record.2.values.map valueBytes).sum := by
    rw [List.length_flatMap]
    exact congrArg List.sum (List.map_congr_left fun value _ => length_encodeValue value)
  simp only [encodeRecord, List.length_append, length_encodeBytes, length_utf8Bytes,
    Bytes.length_toLe, record.2.hash.property, hvalues]
  omega

/-- A writer with the limit takes the record. -/
structure Writable (maxRecordBytes : ℕ) (record : KeyedEntry) : Prop where
  record_le : (encodeRecord record).length ≤ maxRecordBytes
  framed_lt : (encodeRecord record).length + 8 < 2 ^ 64
  columns_lt : record.2.values.length < 2 ^ 32

/-- The record is within the limits of a writer and of a reader. -/
structure Fits (limits : PartitionLimits) (record : KeyedEntry) : Prop
    extends Writable limits.maxRecordBytes record where
  columns_le : record.2.values.length ≤ limits.maxColumns

theorem Fits.fieldsFit {limits : PartitionLimits} {record : KeyedEntry} (h : Fits limits record) :
    FieldsFit limits record := by
  have hlength := length_encodeRecord record
  have hrecord := h.record_le
  have hframed := h.framed_lt
  have hdisplay := length_utf8Bytes record.2.displayKey
  refine ⟨by omega, by omega, by omega, by omega, h.columns_le, h.columns_lt, ?_⟩
  intro value hvalue
  have hle := List.le_sum_of_mem (List.mem_map_of_mem (f := valueBytes) hvalue)
  cases value with
  | none => trivial
  | some bytes =>
      have hbytes : valueBytes (some bytes) = 8 + bytes.length := rfl
      constructor
      · omega
      · unfold nullLength
        omega

/-! ## Errors -/

/-- The file is not what a writer leaves, or could not be read. -/
abbrev Corrupted : Fault → Prop := Fault.Coded [.corruptPartition]

theorem corrupted_corrupt (message : String) : Corrupted (corrupt message) :=
  List.mem_singleton.mpr rfl

theorem failsWith_readExactCorrupt {count : ℕ} {reader : List UInt8} :
    FailsWith Corrupted (readExactCorrupt count reader) :=
  failsWith_required (corrupted_corrupt _)

theorem failsWith_readUintExact {width : ℕ} {reader : List UInt8} :
    FailsWith Corrupted (readUintExact width reader) :=
  failsWith_readExactCorrupt.bind fun _ _ => failsWith_ok

theorem failsWith_readDigest {reader : List UInt8} : FailsWith Corrupted (readDigest reader) := by
  unfold readDigest
  split
  · exact failsWith_ok
  · exact failsWith_error (corrupted_corrupt _)

/-- The buffer is only allocated once its length has passed the check against the limit. -/
theorem failsWith_decodeBytesWithLength {reader : List UInt8} {length maxBytes : ℕ} :
    FailsWith Corrupted (decodeBytesWithLength reader length maxBytes) := by
  apply (failsWith_rejectIf fun _ => corrupted_corrupt _).bind
  intro _ hle
  apply (failsWith_rejectIf (E := Corrupted) fun hlt => absurd hlt (rejectIf_eq_ok.mp hle)).bind
  intro _ _
  exact failsWith_readExactCorrupt

theorem failsWith_decodeBytes {reader : List UInt8} {maxBytes : ℕ} :
    FailsWith Corrupted (decodeBytes reader maxBytes) :=
  failsWith_readUintExact.bind fun _ _ => failsWith_decodeBytesWithLength

theorem failsWith_decodeValues {maxBytes : ℕ} : ∀ {count : ℕ} {reader : List UInt8},
    FailsWith Corrupted (decodeValues maxBytes count reader) := by
  intro count
  induction count with
  | zero =>
      intro reader
      exact failsWith_ok
  | succ count ih =>
      intro reader
      apply failsWith_readUintExact.bind
      intro (length, rest) _
      dsimp only
      split
      · exact ih.bind fun _ _ => failsWith_ok
      · apply failsWith_decodeBytesWithLength.bind
        intro _ _
        exact ih.bind fun _ _ => failsWith_ok

theorem failsWith_decodeRecord {encoded : List UInt8} {limits : PartitionLimits} :
    FailsWith Corrupted (decodeRecord encoded limits) := by
  apply failsWith_decodeBytes.bind
  intro _ _
  apply failsWith_decodeBytes.bind
  intro _ _
  apply (failsWith_required (corrupted_corrupt _)).bind
  intro _ _
  apply failsWith_readDigest.bind
  intro _ _
  apply failsWith_readUintExact.bind
  intro _ _
  apply (failsWith_rejectIf fun _ => corrupted_corrupt _).bind
  intro _ _
  apply failsWith_decodeValues.bind
  intro _ _
  apply (failsWith_rejectIf fun _ => corrupted_corrupt _).bind
  intro _ _
  exact failsWith_ok

end ProofFrame.Diff
