import Mathlib.Data.Int.ModEq
import ProofFrame.Encoding.Fingerprint

/-!
# Keys determine their values

The bytes of a scalar start with a tag and tell where they end, so a sequence of
them can be taken apart again.  The tag stands for the type up to what does not
change a value: the timezone of a timestamp, the precision and scale of a
decimal.
-/

namespace ProofFrame

open Lib

/-! ## Texts and integers -/

theorem toByteArray_utf8Bytes (text : String) : (utf8Bytes text).toByteArray = text.toByteArray :=
  String.utf8Encode_toList

theorem utf8Bytes_injective : Function.Injective utf8Bytes := by
  intro text text' h
  rw [← String.toByteArray_inj, ← toByteArray_utf8Bytes, ← toByteArray_utf8Bytes, h]

theorem length_utf8Bytes (text : String) : (utf8Bytes text).length = text.utf8ByteSize := by
  rw [← List.size_toByteArray, toByteArray_utf8Bytes]
  rfl

theorem signedLe_injective {width : ℕ} {a b : ℤ} (h : signedLe width a = signedLe width b)
    (hwidth : 0 < width) (ha : InSigned (8 * width) a) (hb : InSigned (8 * width) b) : a = b := by
  have hpos : (0 : ℤ) < 2 ^ (8 * width) := by positivity
  have hbound : ∀ v : ℤ, (v % 2 ^ (8 * width)).toNat < 256 ^ width := by
    intro v
    have hlt := Int.emod_lt_of_pos v hpos
    have hpow : (256 : ℤ) ^ width = 2 ^ (8 * width) := by rw [pow_mul]; norm_num
    zify
    rw [Int.toNat_of_nonneg (Int.emod_nonneg v hpos.ne'), hpow]
    exact hlt
  have hmod := Bytes.toLe_injective (hbound a) (hbound b) h
  have heq : a % 2 ^ (8 * width) = b % 2 ^ (8 * width) := by
    rw [← Int.toNat_of_nonneg (Int.emod_nonneg a hpos.ne'),
      ← Int.toNat_of_nonneg (Int.emod_nonneg b hpos.ne'), hmod]
  -- two values of the range that agree modulo its size are equal
  obtain ⟨k, hk⟩ := Int.ModEq.dvd heq
  have hhalf : (2 : ℤ) ^ (8 * width) = 2 * 2 ^ (8 * width - 1) := by
    rw [← pow_succ']
    congr 1
    omega
  obtain ⟨ha₁, ha₂⟩ := ha
  obtain ⟨hb₁, hb₂⟩ := hb
  rw [hhalf] at hk
  have hpow : (0 : ℤ) < 2 ^ (8 * width - 1) := by positivity
  have hk₁ : k < 1 := by nlinarith
  have hk₂ : -1 < k := by nlinarith
  obtain rfl : k = 0 := by omega
  linarith

theorem toBits_lt {eb mb : ℕ} (x : Ieee754.Ieee eb mb) : x.toBits < 2 ^ (eb + mb + 1) := by
  have := x.magnitude.isLt
  rw [Ieee754.Ieee.toBits, pow_succ]
  split <;> omega

theorem toBits_injective {eb mb : ℕ} :
    Function.Injective (Ieee754.Ieee.toBits : Ieee754.Ieee eb mb → ℕ) := by
  rintro ⟨negative, magnitude⟩ ⟨negative', magnitude'⟩ h
  have hlt := magnitude.isLt
  have hlt' := magnitude'.isLt
  simp only [Ieee754.Ieee.toBits] at h
  have hmagnitude : magnitude = magnitude' := by
    apply Fin.ext
    split at h <;> split at h <;> omega
  subst hmagnitude
  cases negative <;> cases negative' <;> simp_all

/-! ## Scalars -/

/-- The type without what does not change a value. -/
def DataType.identity : DataType → DataType
  | .timestamp unit _ => .timestamp unit none
  | .decimal128 _ _ => .decimal128 0 0
  | dataType => dataType

/-- How many bytes follow the tag; a text or a binary value is preceded by its length instead. -/
def DataType.payloadWidth : DataType → Option ℕ
  | .boolean | .int8 | .uint8 => some 1
  | .int16 | .uint16 => some 2
  | .int32 | .uint32 | .float32 | .date32 => some 4
  | .int64 | .uint64 | .float64 | .date64 | .timestamp _ _ => some 8
  | .decimal128 _ _ => some 16
  | _ => none

/-- The type a tag stands for. -/
def typeOfTag : UInt8 → Option DataType
  | 1 => some .int8
  | 2 => some .int16
  | 3 => some .int32
  | 4 => some .int64
  | 5 => some .uint8
  | 6 => some .uint16
  | 7 => some .uint32
  | 8 => some .uint64
  | 9 => some .float32
  | 10 => some .float64
  | 11 => some .date32
  | 12 => some .date64
  | 13 => some (.timestamp .second none)
  | 14 => some (.timestamp .millisecond none)
  | 15 => some (.timestamp .microsecond none)
  | 16 => some (.timestamp .nanosecond none)
  | 17 => some (.decimal128 0 0)
  | 18 => some .boolean
  | 19 => some .utf8
  | 20 => some .largeUtf8
  | 21 => some .binary
  | 22 => some .largeBinary
  | 28 => some .utf8View
  | 29 => some .binaryView
  | _ => none

/-- How the bytes of a scalar are laid out: a tag, and a payload of the width of the type or
preceded by its length. -/
structure Framed (dataType : DataType) (bytes : List UInt8) (tag : UInt8) (payload : List UInt8) :
    Prop where
  bytes_eq : bytes = tag :: payload
  type_eq : typeOfTag tag = some dataType.identity
  layout : match dataType.identity.payloadWidth with
    | some width => payload.length = width
    | none => ∃ content, payload = lengthPrefixed content ∧ content.length < 256 ^ 8

theorem exists_framed {dataType : DataType} {scalar : Scalar} {bytes : List UInt8}
    (hadmits : dataType.AdmitsScalar scalar) (h : scalarBytes dataType scalar = some bytes) :
    ∃ tag payload, Framed dataType bytes tag payload := by
  have htext : ∀ (text : String) (bound : ℕ), text.utf8ByteSize < bound → bound ≤ 2 ^ 63 →
      (utf8Bytes text).length < 256 ^ 8 := by
    intro text bound hlt hle
    rw [length_utf8Bytes]
    omega
  cases dataType <;> cases scalar <;>
    first
      | exact absurd hadmits id
      | (cases h; exact ⟨_, _, rfl, rfl, Bytes.length_toLe _ _⟩)
      | (cases h; exact ⟨_, _, rfl, rfl, rfl⟩)
      | (cases h; exact ⟨_, _, rfl, rfl, _, rfl, htext _ _ hadmits (by decide)⟩)
      | (cases h; exact ⟨_, _, rfl, rfl, _, rfl, Nat.lt_trans hadmits (by decide)⟩)
      | (rename_i unit _ _; cases unit <;> cases h <;>
          exact ⟨_, _, rfl, rfl, Bytes.length_toLe _ _⟩)

/-- Framed bytes can be cut off the front of a sequence. -/
theorem Framed.append_inj {dataType dataType' : DataType} {bytes bytes' rest rest' : List UInt8}
    {tag tag' : UInt8} {payload payload' : List UInt8} (h : Framed dataType bytes tag payload)
    (h' : Framed dataType' bytes' tag' payload') (heq : bytes ++ rest = bytes' ++ rest') :
    dataType.identity = dataType'.identity ∧ bytes = bytes' ∧ rest = rest' := by
  rw [h.bytes_eq, h'.bytes_eq, List.cons_append, List.cons_append] at heq
  obtain ⟨rfl, hpayload⟩ := List.cons_eq_cons.mp heq
  have htype : dataType.identity = dataType'.identity :=
    Option.some.inj (h.type_eq.symm.trans h'.type_eq)
  have hlength : payload.length = payload'.length := by
    have hlayout := h.layout
    have hlayout' := h'.layout
    rw [← htype] at hlayout'
    cases hwidth : dataType.identity.payloadWidth with
    | some width =>
        rw [hwidth] at hlayout hlayout'
        exact hlayout.trans hlayout'.symm
    | none =>
        rw [hwidth] at hlayout hlayout'
        obtain ⟨content, rfl, hlt⟩ := hlayout
        obtain ⟨content', rfl, hlt'⟩ := hlayout'
        -- equal prefixes of eight bytes are equal lengths
        have hprefix := congrArg (List.take 8) hpayload
        simp only [lengthPrefixed, List.append_assoc] at hprefix
        rw [List.take_left' (Bytes.length_toLe 8 _), List.take_left' (Bytes.length_toLe 8 _)]
          at hprefix
        have hcontent := Bytes.toLe_injective hlt hlt' hprefix
        rw [lengthPrefixed, lengthPrefixed, List.length_append, List.length_append,
          Bytes.length_toLe, Bytes.length_toLe, hcontent]
  obtain ⟨rfl, rfl⟩ := List.append_inj hpayload hlength
  exact ⟨htype, by rw [h.bytes_eq, h'.bytes_eq], rfl⟩

/-- The bytes of a scalar depend on its type only through what changes a value. -/
theorem scalarBytes_identity (dataType : DataType) (scalar : Scalar) :
    scalarBytes dataType.identity scalar = scalarBytes dataType scalar := by
  cases dataType with
  | timestamp unit timezone => cases unit <;> cases scalar <;> rfl
  | decimal128 precision scale => cases scalar <;> rfl
  | _ => rfl

theorem admitsScalar_identity (dataType : DataType) (scalar : Scalar) :
    dataType.identity.AdmitsScalar scalar ↔ dataType.AdmitsScalar scalar := by
  cases dataType with
  | timestamp unit timezone => cases scalar <;> rfl
  | decimal128 precision scale => cases scalar <;> rfl
  | _ => rfl

theorem lengthPrefixed_injective {a b : List UInt8} (h : lengthPrefixed a = lengthPrefixed b) :
    a = b := by
  have hdrop := congrArg (List.drop 8) h
  rwa [lengthPrefixed, lengthPrefixed, List.drop_left' (Bytes.length_toLe 8 _),
    List.drop_left' (Bytes.length_toLe 8 _)] at hdrop

/-- Within one type, the bytes determine the scalar. -/
theorem scalarBytes_injective {dataType : DataType} {a b : Scalar} {bytes : List UInt8}
    (ha : dataType.AdmitsScalar a) (hb : dataType.AdmitsScalar b)
    (ha' : scalarBytes dataType a = some bytes) (hb' : scalarBytes dataType b = some bytes) :
    a = b := by
  have h : scalarBytes dataType a = scalarBytes dataType b := ha'.trans hb'.symm
  cases dataType with
  | int8 | int16 | int32 | int64 | date32 | date64 =>
      cases a <;> first | exact absurd ha id | skip
      cases b <;> first | exact absurd hb id | skip
      have hpayload := (List.cons.inj (Option.some.inj h)).2
      rw [signedLe_injective hpayload (by decide) ha hb]
  | timestamp unit timezone =>
      cases a <;> first | exact absurd ha id | skip
      cases b <;> first | exact absurd hb id | skip
      rename_i v w
      have hpayload : signedLe 8 v = signedLe 8 w := by
        cases unit <;> exact (List.cons.inj (Option.some.inj h)).2
      rw [signedLe_injective hpayload (by decide) ha hb]
  | decimal128 precision scale =>
      cases a <;> first | exact absurd ha id | skip
      cases b <;> first | exact absurd hb id | skip
      have hpayload := (List.cons.inj (Option.some.inj h)).2
      rw [signedLe_injective hpayload (by decide) ha hb]
  | uint8 | uint16 | uint32 | uint64 =>
      cases a <;> first | exact absurd ha id | skip
      cases b <;> first | exact absurd hb id | skip
      have hpayload := (List.cons.inj (Option.some.inj h)).2
      rw [Bytes.toLe_injective ha hb hpayload]
  | float32 | float64 =>
      cases a <;> first | exact absurd ha id | skip
      cases b <;> first | exact absurd hb id | skip
      have hpayload := (List.cons.inj (Option.some.inj h)).2
      rw [toBits_injective (Bytes.toLe_injective (toBits_lt _) (toBits_lt _) hpayload)]
  | boolean =>
      cases a <;> first | exact absurd ha id | skip
      cases b <;> first | exact absurd hb id | skip
      rename_i v w
      revert h
      cases v <;> cases w <;> decide
  | utf8 | largeUtf8 | utf8View =>
      cases a <;> first | exact absurd ha id | skip
      cases b <;> first | exact absurd hb id | skip
      have hpayload := (List.cons.inj (Option.some.inj h)).2
      rw [utf8Bytes_injective (lengthPrefixed_injective hpayload)]
  | binary | largeBinary | binaryView =>
      cases a <;> first | exact absurd ha id | skip
      cases b <;> first | exact absurd hb id | skip
      have hpayload := (List.cons.inj (Option.some.inj h)).2
      rw [lengthPrefixed_injective hpayload]
  | _ => cases a <;> exact absurd ha id

/-! ## Tuples -/

/-- A non-null part of a key: its value, and its type up to what does not change the value. -/
structure KeyPart where
  dataType : DataType
  scalar : Scalar
  deriving DecidableEq

/-- The part is a value of its type. -/
structure KeyPart.Typed (part : KeyPart) : Prop where
  identity_eq : part.dataType.identity = part.dataType
  admits : part.dataType.AdmitsScalar part.scalar

def KeyPart.bytes (part : KeyPart) : List UInt8 := (scalarBytes part.dataType part.scalar).getD []

/-- The bytes of the parts from the given key position on. -/
def encodeTuple : ℕ → List KeyPart → List UInt8
  | _, [] => []
  | ordinal, part :: parts => Bytes.toLe 8 ordinal ++ part.bytes ++ encodeTuple (ordinal + 1) parts

theorem KeyPart.Typed.exists_framed {part : KeyPart} (h : part.Typed) :
    scalarBytes part.dataType part.scalar = some part.bytes ∧
      ∃ tag payload, Framed part.dataType part.bytes tag payload := by
  obtain ⟨bytes, hbytes⟩ := exists_scalarBytes h.admits
  have hpart : part.bytes = bytes := by rw [KeyPart.bytes, hbytes]; rfl
  rw [hpart]
  exact ⟨hbytes, ProofFrame.exists_framed h.admits hbytes⟩

/-- The bytes of a part can be cut off the front of a sequence, and determine the part. -/
theorem KeyPart.Typed.append_inj {part part' : KeyPart} (h : part.Typed) (h' : part'.Typed)
    {rest rest' : List UInt8} (heq : part.bytes ++ rest = part'.bytes ++ rest') :
    part = part' ∧ rest = rest' := by
  obtain ⟨hbytes, tag, payload, hframed⟩ := h.exists_framed
  obtain ⟨hbytes', tag', payload', hframed'⟩ := h'.exists_framed
  obtain ⟨htype, hsame, hrest⟩ := hframed.append_inj hframed' heq
  rw [h.identity_eq, h'.identity_eq] at htype
  have hscalar : part.scalar = part'.scalar := by
    apply scalarBytes_injective h.admits _ hbytes
    · rw [htype, hsame]
      exact hbytes'
    · rw [htype]
      exact h'.admits
  refine ⟨?_, hrest⟩
  cases part
  cases part'
  rw [KeyPart.mk.injEq]
  exact ⟨htype, hscalar⟩

/-- The bytes of a key determine the values of its parts. -/
theorem encodeTuple_injective {parts : List KeyPart} :
    ∀ {parts' : List KeyPart} {ordinal : ℕ}, (∀ part ∈ parts, part.Typed) →
      (∀ part ∈ parts', part.Typed) → encodeTuple ordinal parts = encodeTuple ordinal parts' →
      parts = parts' := by
  induction parts with
  | nil =>
      intro parts' ordinal _ _ h
      cases parts' with
      | nil => rfl
      | cons part parts' =>
          have hlength := congrArg List.length h
          simp only [encodeTuple, List.length_append, Bytes.length_toLe, List.length_nil] at hlength
          omega
  | cons part parts ih =>
      intro parts' ordinal htyped htyped' h
      cases parts' with
      | nil =>
          have hlength := congrArg List.length h
          simp only [encodeTuple, List.length_append, Bytes.length_toLe, List.length_nil] at hlength
          omega
      | cons part' parts' =>
          rw [encodeTuple, encodeTuple, List.append_assoc, List.append_assoc] at h
          have h := List.append_cancel_left h
          obtain ⟨rfl, hrest⟩ := (htyped part (List.mem_cons_self ..)).append_inj
            (htyped' part' (List.mem_cons_self ..)) h
          rw [ih (fun other hother => htyped other (List.mem_cons_of_mem _ hother))
            (fun other hother => htyped' other (List.mem_cons_of_mem _ hother)) hrest]

end ProofFrame
