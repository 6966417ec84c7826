import ProofFrame.Encoding.Decoding

/-!
# Cells are read back from their bytes

A decoder of the bytes a cell adds to the hasher of its column.  Which decoder it
is depends on the type of the column, but not on the metadata inside the type.
-/

namespace ProofFrame

open Lib Lib.Decoder Lib.Ieee754

theorem ofBits_toBits {eb mb : ℕ} (x : Ieee eb mb) : Ieee.ofBits x.toBits = x := by
  have hlt := toBits_lt x
  obtain ⟨negative, magnitude⟩ := x
  have hmagnitude := magnitude.isLt
  rw [Ieee.ofBits, Nat.mod_eq_of_lt hlt]
  apply Ieee.ext
  · rw [Ieee.toBits]
    cases negative <;> simp
  · apply Fin.ext
    rw [Fin.ofNat, Ieee.toBits]
    cases negative
    · simpa using Nat.mod_eq_of_lt hmagnitude
    · simpa using Nat.mod_eq_of_lt hmagnitude

/-! ## Scalars -/

/-- The value behind the tag of its type. -/
noncomputable def scalarDecoder : DataType → Decoder Scalar
  | .boolean => .boolean <$> boolean
  | .int8 => .signed <$> signedDecoder 1
  | .int16 => .signed <$> signedDecoder 2
  | .int32 | .date32 => .signed <$> signedDecoder 4
  | .int64 | .date64 | .timestamp _ _ => .signed <$> signedDecoder 8
  | .uint8 => .unsigned <$> number 1
  | .uint16 => .unsigned <$> number 2
  | .uint32 => .unsigned <$> number 4
  | .uint64 => .unsigned <$> number 8
  | .float32 => (fun bits => .float32 (Ieee.ofBits bits)) <$> number 4
  | .float64 => (fun bits => .float64 (Ieee.ofBits bits)) <$> number 8
  | .decimal128 _ _ => .decimal <$> signedDecoder 16
  | .utf8 | .largeUtf8 | .utf8View => .text <$> textDecoder
  | .binary | .largeBinary | .binaryView => .binary <$> sized
  | _ => failure

/-- The bytes are a tag other than that of a null, and a value the decoder reads. -/
def ReadsTagged {α : Type} (decoder : Decoder α) (bytes : List UInt8) (a : α) : Prop :=
  ∃ tag payload, bytes = tag :: payload ∧ tag ≠ 0 ∧ Decodes decoder payload a

theorem decodes_float {eb mb width : ℕ} (f : Ieee eb mb → Scalar) (value : Ieee eb mb)
    (hwidth : 2 ^ (eb + mb + 1) ≤ 256 ^ width) :
    Decodes ((fun bits => f (Ieee.ofBits bits)) <$> number width)
      (Bytes.toLe width value.toBits) (f value) := by
  have hbits : value.toBits < 256 ^ width := (toBits_lt value).trans_le hwidth
  have hdecodes := (decodes_number hbits).map fun bits => f (Ieee.ofBits bits)
  rwa [ofBits_toBits] at hdecodes

theorem readsTagged_scalar {dataType : DataType} {scalar : Scalar} {bytes : List UInt8}
    (hadmits : dataType.AdmitsScalar scalar) (h : scalarBytes dataType scalar = some bytes) :
    ReadsTagged (scalarDecoder dataType) bytes scalar := by
  have hsigned : ∀ (width : ℕ) (value : ℤ), 0 < width → InSigned (8 * width) value →
      Decodes (Scalar.signed <$> signedDecoder width) (signedLe width value) (.signed value) :=
    fun width value hwidth hvalue => (decodes_signed hwidth hvalue).map Scalar.signed
  have hunsigned : ∀ (width value : ℕ), value < 256 ^ width →
      Decodes (Scalar.unsigned <$> number width) (Bytes.toLe width value) (.unsigned value) :=
    fun width value hvalue => (decodes_number hvalue).map Scalar.unsigned
  have htext : ∀ (text : String) (bound : ℕ), text.utf8ByteSize < bound → bound ≤ 2 ^ 63 →
      Decodes (Scalar.text <$> textDecoder) (lengthPrefixed (utf8Bytes text)) (.text text) := by
    intro text bound hlt hle
    rw [← length_utf8Bytes] at hlt
    exact (decodes_text (by omega)).map Scalar.text
  have hbinary : ∀ (bytes : List UInt8) (bound : ℕ), bytes.length < bound → bound ≤ 2 ^ 63 →
      Decodes (Scalar.binary <$> sized) (lengthPrefixed bytes) (.binary bytes) := by
    intro bytes bound hlt hle
    exact (decodes_sized (by omega)).map Scalar.binary
  cases dataType with
  | boolean =>
      cases scalar <;> first | exact absurd hadmits id | cases h
      exact ⟨18, _, rfl, by decide, (decodes_boolean _).map Scalar.boolean⟩
  | int8 | int16 | int32 | int64 | date32 | date64 =>
      cases scalar <;> first | exact absurd hadmits id | cases h
      exact ⟨_, _, rfl, by decide, hsigned _ _ (by decide) hadmits⟩
  | timestamp unit timezone =>
      cases scalar <;> first | exact absurd hadmits id | skip
      cases unit <;> cases h <;>
        exact ⟨_, _, rfl, by decide, hsigned _ _ (by decide) hadmits⟩
  | uint8 | uint16 | uint32 | uint64 =>
      cases scalar <;> first | exact absurd hadmits id | cases h
      exact ⟨_, _, rfl, by decide, hunsigned _ _ (Nat.lt_of_lt_of_le hadmits (by decide))⟩
  | float32 =>
      cases scalar <;> first | exact absurd hadmits id | cases h
      exact ⟨_, _, rfl, by decide, decodes_float Scalar.float32 _ (by decide)⟩
  | float64 =>
      cases scalar <;> first | exact absurd hadmits id | cases h
      exact ⟨_, _, rfl, by decide, decodes_float Scalar.float64 _ (by decide)⟩
  | decimal128 precision scale =>
      cases scalar <;> first | exact absurd hadmits id | cases h
      have hdecimal : InSigned (8 * 16) _ := hadmits
      exact ⟨_, _, rfl, by decide, (decodes_signed (by decide) hdecimal).map Scalar.decimal⟩
  | utf8 | largeUtf8 | utf8View =>
      cases scalar <;> first | exact absurd hadmits id | cases h
      exact ⟨_, _, rfl, by decide, htext _ _ hadmits (by decide)⟩
  | binary | largeBinary | binaryView =>
      cases scalar <;> first | exact absurd hadmits id | cases h
      exact ⟨_, _, rfl, by decide, hbinary _ _ hadmits (by decide)⟩
  | _ => cases scalar <;> exact absurd hadmits id

/-! ## Values -/

/-- A null, or the value behind its tag. -/
def presentDecoder (decoder : Decoder Value) : Decoder (Option Value) := do
  if (← byte) = 0 then pure none else some <$> decoder

mutual

/-- The value of the type behind its tag. -/
noncomputable def DataType.valueDecoder : DataType → Decoder Value
  | .list field | .largeList field | .fixedSizeList field _ | .map field _ =>
      .sequence <$> counted field.childDecoder
  | .struct fields => do
      let _ ← take 8
      .record <$> fields.childrenDecoder
  | dataType => .scalar <$> scalarDecoder dataType

/-- The cell of an element, behind its length. -/
noncomputable def Field.childDecoder : Field → Decoder (Option Value)
  | .mk _ dataType _ _ => do
      let _ ← take 8
      presentDecoder dataType.valueDecoder

noncomputable def Fields.childrenDecoder : Fields → Decoder (List (Option Value))
  | .nil => pure []
  | .cons field rest => do
      let head ← field.childDecoder
      let tail ← rest.childrenDecoder
      pure (head :: tail)

end

mutual

/-- The metadata of a type plays no part in its values. -/
theorem valueDecoder_select (selected : List String) :
    ∀ dataType : DataType, (dataType.select selected).valueDecoder = dataType.valueDecoder
  | .list field | .largeList field | .fixedSizeList field _ | .map field _ => by
      rw [DataType.select, DataType.valueDecoder, DataType.valueDecoder, childDecoder_select]
  | .struct fields => by
      rw [DataType.select, DataType.valueDecoder, DataType.valueDecoder, childrenDecoder_select]
  | .int8 | .int16 | .int32 | .int64 | .uint8 | .uint16 | .uint32 | .uint64 | .float32 | .float64
  | .date32 | .date64 | .timestamp _ _ | .decimal128 _ _ | .boolean | .utf8 | .largeUtf8
  | .utf8View | .binary | .largeBinary | .binaryView
  | .null | .float16 | .time32 _ | .time64 _ | .duration _ | .interval _ | .fixedSizeBinary _
  | .listView _ | .largeListView _ | .union _ _ | .dictionary _ _ | .decimal32 _ _
  | .decimal64 _ _ | .decimal256 _ _ | .runEndEncoded _ _ => rfl

theorem childDecoder_select (selected : List String) :
    ∀ field : Field, (field.select selected).childDecoder = field.childDecoder
  | .mk _ dataType _ _ => by
      rw [Field.select, Field.childDecoder, Field.childDecoder, valueDecoder_select selected dataType]

theorem childrenDecoder_select (selected : List String) :
    ∀ fields : Fields, (fields.select selected).childrenDecoder = fields.childrenDecoder
  | .nil => rfl
  | .cons field rest => by
      rw [Fields.select, Fields.childrenDecoder, Fields.childrenDecoder,
        childDecoder_select selected field, childrenDecoder_select selected rest]

end

theorem valueDecoder_of_admitsScalar {dataType : DataType} {scalar : Scalar}
    (h : dataType.AdmitsScalar scalar) :
    dataType.valueDecoder = Value.scalar <$> scalarDecoder dataType := by
  cases dataType <;> first
    | rfl
    | (cases scalar <;> exact absurd h id)

/-- A tag other than that of a null is followed by a value. -/
theorem decodes_present {decoder : Decoder Value} {tag : UInt8} {payload : List UInt8}
    {value : Value} (htag : tag ≠ 0) (h : Decodes decoder payload value) :
    Decodes (presentDecoder decoder) (tag :: payload) (some value) := by
  refine Decodes.cons ?_
  rw [if_neg htag]
  exact h.map some

theorem decodes_null (decoder : Decoder Value) : Decodes (presentDecoder decoder) [0] none :=
  (decodes_pure none).cons

theorem decodes_child {field : Field} {element : List UInt8} {item : Option Value}
    (h : Decodes (presentDecoder field.dataType.valueDecoder) element item) :
    Decodes field.childDecoder (lengthPrefixed element) item := by
  obtain ⟨name, dataType, nullable, metadata⟩ := field
  exact (decodes_take (Bytes.length_toLe 8 element.length)).bind h

theorem decodes_scalar {dataType : DataType} {scalar : Scalar} {bytes : List UInt8}
    (hadmits : dataType.AdmitsScalar scalar) (h : scalarBytes dataType scalar = some bytes) :
    Decodes (presentDecoder dataType.valueDecoder) bytes (some (.scalar scalar)) := by
  obtain ⟨tag, payload, rfl, htag, hpayload⟩ := readsTagged_scalar hadmits h
  rw [valueDecoder_of_admitsScalar hadmits]
  exact decodes_present htag (hpayload.map Value.scalar)

section Canonical

variable [Crates]

theorem length_le_encodeChildren {dataType : DataType} {items : List (Option Value)}
    {bytes : List UInt8} (h : encodeChildren dataType items = .ok bytes) :
    items.length ≤ bytes.length := by
  induction items generalizing bytes with
  | nil => exact Nat.zero_le _
  | cons item items ih =>
      rw [encodeChildren] at h
      obtain ⟨element, -, h⟩ := bind_eq_ok.mp h
      obtain ⟨rest, hrest, h⟩ := bind_eq_ok.mp h
      cases h
      have := ih hrest
      rw [List.length_append, length_lengthPrefixed, List.length_cons]
      omega

/-- A sequence behind the tag of its type and the number of its elements. -/
theorem decodes_sequence {field : Field} {tag : UInt8} {items : List (Option Value)}
    {bytes : List UInt8} (htag : tag ≠ 0)
    (h : encodeChildSequence tag field.dataType items = .ok bytes) (hlength : bytes.length < 2 ^ 64)
    (hitems : ∀ elements, encodeChildren field.dataType items = .ok elements →
      elements.length < 2 ^ 64 → Decodes (times field.childDecoder items.length) elements items) :
    Decodes (presentDecoder (Value.sequence <$> counted field.childDecoder)) bytes
      (some (.sequence items)) := by
  rw [encodeChildSequence] at h
  obtain ⟨elements, helements, h⟩ := bind_eq_ok.mp h
  cases h
  rw [List.length_append] at hlength
  have hcount := length_le_encodeChildren helements
  rw [List.cons_append]
  refine decodes_present htag (Decodes.map Value.sequence ?_)
  exact (decodes_number (by omega)).bind (hitems elements helements (by omega))

mutual

/-- The canonical bytes of a cell of the type stand for the cell. -/
theorem decodes_canonicalValueBytes {dataType : DataType} : ∀ (cell : Option Value)
    {bytes : List UInt8}, dataType.AdmitsPresent cell → canonicalValueBytes dataType cell = .ok bytes →
      bytes.length < 2 ^ 64 → Decodes (presentDecoder dataType.valueDecoder) bytes cell
  | none, bytes, _, h, _ => by
      rw [canonicalValueBytes, Except.ok.injEq] at h
      exact h ▸ decodes_null _
  | some (.scalar scalar), bytes, hadmits, h, _ => by
      have hscalar : dataType.AdmitsScalar scalar := by
        have := hadmits _ rfl
        cases dataType <;> exact this
      obtain ⟨raw, hraw⟩ := exists_scalarBytes hscalar
      rw [canonicalValueBytes, hraw] at h
      cases h
      exact decodes_scalar hscalar hraw
  | some (.sequence items), bytes, hadmits, h, hlength => by
      have hitems := hadmits _ rfl
      cases dataType with
      | list field | largeList field | map field _ =>
          simp only [canonicalValueBytes] at h
          exact decodes_sequence (by decide) h hlength fun elements helements hlt =>
            decodes_encodeChildren items (fun item hitem => (hitems item hitem).present) helements hlt
      | fixedSizeList field length =>
          simp only [canonicalValueBytes] at h
          exact decodes_sequence (by decide) h hlength fun elements helements hlt =>
            decodes_encodeChildren items (fun item hitem => (hitems.2 item hitem).present) helements hlt
      | _ => exact absurd hitems id
  | some (.record cells), bytes, hadmits, h, hlength => by
      have hcells := hadmits _ rfl
      cases dataType with
      | struct fields =>
          simp only [canonicalValueBytes] at h
          obtain ⟨elements, helements, h⟩ := bind_eq_ok.mp h
          cases h
          rw [List.length_append] at hlength
          rw [List.cons_append]
          refine decodes_present (by decide) ?_
          refine (decodes_take (Bytes.length_toLe 8 cells.length)).bind ?_
          exact (decodes_encodeStruct cells hcells helements (by omega)).map Value.record
      | _ => exact absurd hcells id
  | some (.raw _), bytes, _, h, _ => by
      rw [canonicalValueBytes] at h
      cases h

theorem decodes_encodeChildren {field : Field} : ∀ (items : List (Option Value))
    {bytes : List UInt8}, (∀ item ∈ items, field.dataType.AdmitsPresent item) →
      encodeChildren field.dataType items = .ok bytes → bytes.length < 2 ^ 64 →
      Decodes (times field.childDecoder items.length) bytes items
  | [], bytes, _, h, _ => by
      rw [encodeChildren] at h
      cases h
      exact decodes_pure []
  | item :: items, bytes, hadmits, h, hlength => by
      rw [encodeChildren] at h
      obtain ⟨element, helement, h⟩ := bind_eq_ok.mp h
      obtain ⟨rest, hrest, h⟩ := bind_eq_ok.mp h
      cases h
      rw [List.length_append, length_lengthPrefixed] at hlength
      rw [List.forall_mem_cons] at hadmits
      refine (decodes_child (decodes_canonicalValueBytes item hadmits.1 helement (by omega))).bind ?_
      exact (decodes_encodeChildren items hadmits.2 hrest (by omega)).bind_pure

theorem decodes_encodeStruct : ∀ (cells : List (Option Value)) {fields : Fields}
    {bytes : List UInt8}, fields.AdmitCells cells → encodeStruct fields.toList cells = .ok bytes →
      bytes.length < 2 ^ 64 → Decodes fields.childrenDecoder bytes cells
  | [], .nil, bytes, _, h, _ => by
      rw [Fields.toList, encodeStruct] at h
      · cases h
        exact decodes_pure []
      · simp
  | cell :: cells, .cons field rest, bytes, hadmits, h, hlength => by
      rw [Fields.toList, encodeStruct] at h
      obtain ⟨element, helement, h⟩ := bind_eq_ok.mp h
      obtain ⟨others, hothers, h⟩ := bind_eq_ok.mp h
      cases h
      rw [List.length_append, length_lengthPrefixed] at hlength
      have hcell : field.dataType.AdmitsPresent cell := hadmits.1.present
      refine (decodes_child (decodes_canonicalValueBytes cell hcell helement (by omega))).bind ?_
      exact (decodes_encodeStruct cells hadmits.2 hothers (by omega)).bind_pure
  | [], .cons _ _, _, hadmits, _, _ => absurd hadmits id
  | _ :: _, .nil, _, hadmits, _, _ => absurd hadmits id

end

end Canonical

end ProofFrame
