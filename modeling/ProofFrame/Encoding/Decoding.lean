import ProofFrame.Encoding.Keys
import ProofFrame.Lib.Decoder
import ProofFrame.Lib.Steps

/-!
# Schemas are read back from their bytes

A decoder of the bytes a schema is hashed from.  It returns the schema as far as
the bytes cover it: all of it but the metadata that was not selected
(`Schema.select`).
-/

namespace ProofFrame

open Lib Lib.Decoder

/-! ## Texts and signed integers -/

/-- A text behind its length. -/
noncomputable def textDecoder : Decoder String := Function.invFun utf8Bytes <$> sized

/-- A two's complement integer of `width` bytes. -/
def signedDecoder (width : ℕ) : Decoder ℤ :=
  (fun value : ℕ => if value < 2 ^ (8 * width - 1) then (value : ℤ) else value - 2 ^ (8 * width)) <$>
    number width

@[simp] theorem length_lengthPrefixed (bytes : List UInt8) :
    (lengthPrefixed bytes).length = 8 + bytes.length := by
  rw [lengthPrefixed, List.length_append, Bytes.length_toLe]

theorem decodes_text {text : String} (h : (utf8Bytes text).length < 2 ^ 64) :
    Decodes textDecoder (lengthPrefixed (utf8Bytes text)) text := by
  have hsized : Decodes sized (lengthPrefixed (utf8Bytes text)) (utf8Bytes text) :=
    decodes_sized (h.trans_eq (by norm_num))
  have htext := hsized.map (Function.invFun utf8Bytes)
  rwa [Function.leftInverse_invFun utf8Bytes_injective text] at htext

theorem decodes_signed {width : ℕ} {value : ℤ} (hwidth : 0 < width)
    (h : InSigned (8 * width) value) :
    Decodes (signedDecoder width) (signedLe width value) value := by
  have hpow : (2 : ℤ) ^ (8 * width) = 2 * 2 ^ (8 * width - 1) := by
    rw [← pow_succ']
    congr 1
    omega
  have hhalf : (0 : ℤ) < 2 ^ (8 * width - 1) := by positivity
  obtain ⟨hlow, hhigh⟩ := h
  have hnonneg := Int.emod_nonneg value (by omega : (2 : ℤ) ^ (8 * width) ≠ 0)
  have hlt := Int.emod_lt_of_pos value (by omega : (0 : ℤ) < 2 ^ (8 * width))
  have hbound : (value % 2 ^ (8 * width)).toNat < 256 ^ width := by
    have hbase : (256 : ℤ) ^ width = 2 ^ (8 * width) := by rw [pow_mul]; norm_num
    zify
    rw [Int.toNat_of_nonneg hnonneg, hbase]
    exact hlt
  have hdecodes := (decodes_number hbound).map fun value : ℕ =>
    if value < 2 ^ (8 * width - 1) then (value : ℤ) else value - 2 ^ (8 * width)
  have hvalue : (if (value % 2 ^ (8 * width)).toNat < 2 ^ (8 * width - 1)
      then ((value % 2 ^ (8 * width)).toNat : ℤ)
      else (value % 2 ^ (8 * width)).toNat - 2 ^ (8 * width)) = value := by
    rw [Int.toNat_of_nonneg hnonneg]
    rcases le_or_gt 0 value with hpos | hneg
    · rw [Int.emod_eq_of_lt hpos (by omega), if_pos]
      zify
      rwa [Int.toNat_of_nonneg hpos]
    · have hmod : value % 2 ^ (8 * width) = value + 2 ^ (8 * width) := by
        rw [← Int.add_emod_right, Int.emod_eq_of_lt (by omega) (by omega)]
      rw [hmod, if_neg]
      · omega
      · zify
        rw [Int.toNat_of_nonneg (by omega)]
        omega
  rw [hvalue] at hdecodes
  exact hdecodes

/-! ## What the bytes of a schema cover -/

/-- The selected entries of the metadata. -/
def selectMetadata (selected : List String) (metadata : List (String × String)) :
    List (String × String) :=
  selected.filterMap fun key => (metadata.lookup key).map fun value => (key, value)

mutual

/-- The type without the metadata that is not selected. -/
def DataType.select (selected : List String) : DataType → DataType
  | .list field => .list (field.select selected)
  | .largeList field => .largeList (field.select selected)
  | .fixedSizeList field length => .fixedSizeList (field.select selected) length
  | .struct fields => .struct (fields.select selected)
  | .map field sorted => .map (field.select selected) sorted
  | dataType => dataType

def Field.select (selected : List String) : Field → Field
  | .mk name dataType nullable metadata =>
      .mk name (dataType.select selected) nullable (selectMetadata selected metadata)

def Fields.select (selected : List String) : Fields → Fields
  | .nil => .nil
  | .cons field rest => .cons (field.select selected) (rest.select selected)

end

def Schema.select (selected : List String) (schema : Schema) : Schema where
  fields := schema.fields.map (Field.select selected)
  metadata := selectMetadata selected schema.metadata

mutual

/-- The numbers of the type lie in the machine types Arrow keeps them in: `u8` and `i8` for a
decimal, `i32` for the length of a list. -/
def DataType.Representable : DataType → Prop
  | .decimal128 precision scale => precision < 2 ^ 8 ∧ InSigned 8 scale
  | .fixedSizeList field length => length < 2 ^ 31 ∧ field.Representable
  | .list field | .largeList field | .map field _ => field.Representable
  | .struct fields => fields.Representable
  | _ => True

def Field.Representable : Field → Prop
  | .mk _ dataType _ _ => dataType.Representable

def Fields.Representable : Fields → Prop
  | .nil => True
  | .cons field rest => field.Representable ∧ rest.Representable

end

def Schema.Representable (schema : Schema) : Prop :=
  ∀ field ∈ schema.fields, field.Representable

/-! ## The decoder -/

/-- The selected keys with their values. -/
noncomputable def metadataDecoder : Decoder (List (String × Option String)) :=
  counted do
    let key ← textDecoder
    let value ← option textDecoder
    pure (key, value)

/-- The entries that have a value. -/
def presentEntries (entries : List (String × Option String)) : List (String × String) :=
  entries.filterMap fun (key, value) => value.map fun value => (key, value)

def timeUnitOfTag : UInt8 → Option TimeUnit
  | 1 => some .second
  | 2 => some .millisecond
  | 3 => some .microsecond
  | 4 => some .nanosecond
  | _ => none

mutual

/-- A field, nested at most `depth` deep. -/
noncomputable def fieldDecoder : ℕ → Decoder Field
  | 0 => failure
  | depth + 1 => do
      let _ ← take (domainSeparator "pf-field-v2").length
      let _ ← take 8
      let name ← textDecoder
      let nullable ← boolean
      let entries ← metadataDecoder
      let dataType ← dataTypeDecoder depth
      pure (.mk name dataType nullable (presentEntries entries))

noncomputable def dataTypeDecoder : ℕ → Decoder DataType
  | 0 => failure
  | depth + 1 => do
      match ← byte with
      | 13 => do
          let unit ← (timeUnitOfTag <$> byte) >>= fun unit => StateT.lift unit
          let timezone ← option textDecoder
          pure (.timestamp unit timezone)
      | 17 => do
          let precision ← number 1
          let scale ← signedDecoder 1
          pure (.decimal128 precision scale)
      | 23 => .list <$> fieldDecoder depth
      | 24 => .largeList <$> fieldDecoder depth
      | 25 => do
          let length ← number 4
          let field ← fieldDecoder depth
          pure (.fixedSizeList field length)
      | 26 => do
          let count ← number 8
          .struct <$> fieldsDecoder depth count
      | 27 => do
          let sorted ← boolean
          let field ← fieldDecoder depth
          pure (.map field sorted)
      | tag => StateT.lift (typeOfTag tag)

noncomputable def fieldsDecoder : ℕ → ℕ → Decoder Fields
  | 0, _ => failure
  | _ + 1, 0 => pure .nil
  | depth + 1, count + 1 => do
      let field ← fieldDecoder depth
      let rest ← fieldsDecoder depth count
      pure (.cons field rest)

end

/-! ## Reading the bytes back -/

theorem decodes_optionalText {text : Option String}
    (h : (optionalBytes (text.map utf8Bytes)).length < 2 ^ 64) :
    Decodes (option textDecoder) (optionalBytes (text.map utf8Bytes)) text := by
  cases text with
  | none => exact decodes_option_none textDecoder
  | some text =>
      refine decodes_option_some (decodes_text ?_)
      rw [Option.map_some, optionalBytes, List.length_cons, length_lengthPrefixed] at h
      omega

theorem decodes_selectedMetadata {metadata : List (String × String)} {selected : List String}
    (h : (selectedMetadata metadata selected).length < 2 ^ 64) :
    Decodes metadataDecoder (selectedMetadata metadata selected)
      (selected.map fun key => (key, metadata.lookup key)) := by
  rw [selectedMetadata, List.length_append] at h
  have hcount := length_le_length_flatMap (fun key : String =>
    lengthPrefixed (utf8Bytes key) ++ optionalBytes ((metadata.lookup key).map utf8Bytes))
    (fun key => by simp [lengthPrefixed]) selected
  refine decodes_counted (by omega) fun key hkey => ?_
  have hlength := length_le_flatMap (fun key : String =>
    lengthPrefixed (utf8Bytes key) ++ optionalBytes ((metadata.lookup key).map utf8Bytes)) hkey
  rw [List.length_append, length_lengthPrefixed] at hlength
  refine (decodes_text (by omega)).bind ?_
  exact (decodes_optionalText (by omega)).bind_pure

theorem presentEntries_lookup (selected : List String) (metadata : List (String × String)) :
    presentEntries (selected.map fun key => (key, metadata.lookup key)) =
      selectMetadata selected metadata := by
  rw [presentEntries, List.filterMap_map]
  rfl

section Preimage

variable {selected : List String}

/-- Every field has bytes of its own. -/
theorem length_le_fieldsBytes [Crates] : ∀ {fields : Fields} {ordinal : ℕ} {bytes : List UInt8},
    fieldsBytes selected ordinal fields = .ok bytes → fields.toList.length ≤ bytes.length
  | .nil, _, _, _ => Nat.zero_le _
  | .cons field rest, ordinal, bytes, hbytes => by
      obtain ⟨head, hhead, hbytes⟩ := bind_eq_ok.mp hbytes
      obtain ⟨tail, htail, hbytes⟩ := bind_eq_ok.mp hbytes
      cases hbytes
      have hrest := length_le_fieldsBytes htail
      obtain ⟨name, dataType, nullable, metadata⟩ := field
      obtain ⟨typeBytes, -, hhead⟩ := bind_eq_ok.mp hhead
      cases hhead
      rw [Fields.toList]
      simp only [List.length_cons, List.length_append]
      omega

/-- The bytes of a field around those of its type. -/
theorem decodes_fieldHeader {name : String} {nullable : Bool} {metadata : List (String × String)}
    {ordinal depth : ℕ} {selectedType : DataType} {typeBytes : List UInt8}
    (hname : (utf8Bytes name).length < 2 ^ 64)
    (hmetadata : (selectedMetadata metadata selected).length < 2 ^ 64)
    (h : Decodes (dataTypeDecoder depth) typeBytes selectedType) :
    Decodes (fieldDecoder (depth + 1))
      (domainSeparator "pf-field-v2" ++ (Bytes.toLe 8 ordinal ++ (lengthPrefixed (utf8Bytes name) ++
        ([if nullable then 1 else 0] ++ (selectedMetadata metadata selected ++ typeBytes)))))
      (.mk name selectedType nullable (selectMetadata selected metadata)) := by
  rw [fieldDecoder]
  refine (decodes_take rfl).bind ?_
  refine (decodes_take (Bytes.length_toLe 8 ordinal)).bind ?_
  refine (decodes_text hname).bind ?_
  refine (decodes_boolean nullable).bind ?_
  refine (decodes_selectedMetadata hmetadata).bind ?_
  rw [presentEntries_lookup]
  exact h.bind_pure

/-- The first byte of a type names its kind. -/
theorem decodes_typeTag {depth : ℕ} {tag : UInt8} {bytes : List UInt8} {dataType : DataType}
    {next : UInt8 → Decoder DataType} (hdecoder : dataTypeDecoder (depth + 1) = byte >>= next)
    (h : Decodes (next tag) bytes dataType) :
    Decodes (dataTypeDecoder (depth + 1)) (tag :: bytes) dataType := by
  rw [hdecoder]
  exact h.cons

variable [Crates]

mutual

theorem decodes_field : ∀ (field : Field) {depth ordinal : ℕ} {bytes : List UInt8},
    field.Representable → sizeOf field ≤ depth → fieldBytes selected ordinal field = .ok bytes →
      bytes.length < 2 ^ 64 → Decodes (fieldDecoder depth) bytes (field.select selected)
  | .mk name dataType nullable metadata, depth, ordinal, bytes, hrep, hdepth, hbytes, hlength => by
      rw [Field.mk.sizeOf_spec] at hdepth
      obtain ⟨depth, rfl⟩ : ∃ inner, depth = inner + 1 := ⟨depth - 1, by omega⟩
      obtain ⟨typeBytes, htype, hbytes⟩ := bind_eq_ok.mp hbytes
      cases hbytes
      simp only [List.append_assoc, List.cons_append, List.length_append, List.length_cons,
        length_lengthPrefixed] at hlength
      have hdecodes := decodes_dataType dataType hrep (by omega : sizeOf dataType ≤ depth)
        htype (by omega)
      have hname : (utf8Bytes name).length < 2 ^ 64 := by omega
      have hmetadata : (selectedMetadata metadata selected).length < 2 ^ 64 := by omega
      simp only [List.append_assoc, List.cons_append]
      exact decodes_fieldHeader hname hmetadata hdecodes

theorem decodes_dataType : ∀ (dataType : DataType) {depth : ℕ} {bytes : List UInt8},
    dataType.Representable → sizeOf dataType ≤ depth →
      dataTypeBytes selected dataType = .ok bytes → bytes.length < 2 ^ 64 →
      Decodes (dataTypeDecoder depth) bytes (dataType.select selected)
  | dataType, depth, bytes, hrep, hdepth, hbytes, hlength => by
      have hpos : 0 < sizeOf dataType := by cases dataType <;> simp
      obtain ⟨depth, rfl⟩ : ∃ inner, depth = inner + 1 := ⟨depth - 1, by omega⟩
      cases dataType with
      | int8 | int16 | int32 | int64 | uint8 | uint16 | uint32 | uint64 | float32 | float64
      | date32 | date64 | boolean | utf8 | largeUtf8 | utf8View | binary | largeBinary
      | binaryView =>
          cases hbytes
          exact fun rest => rfl
      | timestamp unit timezone =>
          cases hbytes
          simp only [List.cons_append, List.nil_append, List.length_cons] at hlength ⊢
          refine decodes_typeTag (by rw [dataTypeDecoder]) ?_
          have hunit : Decodes ((timeUnitOfTag <$> byte) >>= fun unit => StateT.lift unit)
              [unit.schemaTag] unit := by
            cases unit <;> exact fun rest => rfl
          exact hunit.bind (decodes_optionalText (by omega)).bind_pure
      | decimal128 precision scale =>
          cases hbytes
          refine decodes_typeTag (by rw [dataTypeDecoder]) ?_
          have hprecision : [UInt8.ofNat precision] = Bytes.toLe 1 precision := by
            have hmod : precision % 256 = precision := Nat.mod_eq_of_lt hrep.1
            rw [Bytes.toLe, Bytes.toLe, hmod]
          rw [hprecision]
          exact (decodes_number hrep.1).bind (decodes_signed (by decide) hrep.2).bind_pure
      | list field | largeList field =>
          obtain ⟨child, hchild, hbytes⟩ := bind_eq_ok.mp hbytes
          cases hbytes
          rw [List.length_cons] at hlength
          refine decodes_typeTag (by rw [dataTypeDecoder]) ?_
          simp only [DataType.list.sizeOf_spec, DataType.largeList.sizeOf_spec] at hdepth
          exact (decodes_field field hrep (by omega) hchild (by omega)).map _
      | fixedSizeList field length =>
          obtain ⟨child, hchild, hbytes⟩ := bind_eq_ok.mp hbytes
          cases hbytes
          rw [List.length_append] at hlength
          rw [List.cons_append]
          refine decodes_typeTag (by rw [dataTypeDecoder]) ?_
          rw [DataType.fixedSizeList.sizeOf_spec] at hdepth
          have hfits : length < 256 ^ 4 := Nat.lt_trans hrep.1 (by decide)
          refine (decodes_number hfits).bind ?_
          exact (decodes_field field hrep.2 (by omega) hchild (by omega)).bind_pure
      | struct fields =>
          obtain ⟨children, hchildren, hbytes⟩ := bind_eq_ok.mp hbytes
          cases hbytes
          rw [List.length_append] at hlength
          rw [List.cons_append]
          refine decodes_typeTag (by rw [dataTypeDecoder]) ?_
          rw [DataType.struct.sizeOf_spec] at hdepth
          have hcount := length_le_fieldsBytes hchildren
          refine (decodes_number (by omega)).bind ?_
          exact (decodes_fields fields hrep (by omega) hchildren (by omega)).map _
      | map field sorted =>
          obtain ⟨child, hchild, hbytes⟩ := bind_eq_ok.mp hbytes
          cases hbytes
          rw [List.length_cons, List.length_cons] at hlength
          refine decodes_typeTag (by rw [dataTypeDecoder]) ?_
          rw [DataType.map.sizeOf_spec] at hdepth
          refine (decodes_boolean sorted).bind ?_
          exact (decodes_field field hrep (by omega) hchild (by omega)).bind_pure
      | _ => cases hbytes

theorem decodes_fields : ∀ (fields : Fields) {depth ordinal : ℕ} {bytes : List UInt8},
    fields.Representable → sizeOf fields ≤ depth →
      fieldsBytes selected ordinal fields = .ok bytes → bytes.length < 2 ^ 64 →
      Decodes (fieldsDecoder depth fields.toList.length) bytes (fields.select selected)
  | .nil, depth, ordinal, bytes, hrep, hdepth, hbytes, hlength => by
      rw [Fields.nil.sizeOf_spec] at hdepth
      obtain ⟨depth, rfl⟩ : ∃ inner, depth = inner + 1 := ⟨depth - 1, by omega⟩
      cases hbytes
      rw [Fields.toList, List.length_nil, fieldsDecoder]
      exact decodes_pure _
  | .cons field rest, depth, ordinal, bytes, hrep, hdepth, hbytes, hlength => by
      rw [Fields.cons.sizeOf_spec] at hdepth
      obtain ⟨depth, rfl⟩ : ∃ inner, depth = inner + 1 := ⟨depth - 1, by omega⟩
      obtain ⟨head, hhead, hbytes⟩ := bind_eq_ok.mp hbytes
      obtain ⟨tail, htail, hbytes⟩ := bind_eq_ok.mp hbytes
      cases hbytes
      rw [List.length_append] at hlength
      rw [Fields.toList, List.length_cons, fieldsDecoder]
      refine (decodes_field field hrep.1 (by omega) hhead (by omega)).bind ?_
      exact (decodes_fields rest hrep.2 (by omega) htail (by omega)).bind_pure

end

/-! ## Schemas -/

/-- The selected metadata and the fields of a schema. -/
noncomputable def schemaDecoder (depth : ℕ) :
    Decoder (List (String × Option String) × List Field) := do
  let _ ← take (domainSeparator "pf-schema-v2").length
  let entries ← metadataDecoder
  let fields ← counted (fieldDecoder depth)
  pure (entries, fields)

theorem length_le_schemaFieldsBytes {entries : List (Field × ℕ)} {bytes : List UInt8}
    (h : schemaFieldsBytes selected entries = .ok bytes) : entries.length ≤ bytes.length := by
  induction entries generalizing bytes with
  | nil => exact Nat.zero_le _
  | cons entry rest ih =>
      obtain ⟨head, hhead, h⟩ := bind_eq_ok.mp h
      obtain ⟨tail, htail, h⟩ := bind_eq_ok.mp h
      cases h
      have hrest := ih htail
      obtain ⟨⟨name, dataType, nullable, metadata⟩, ordinal⟩ := entry
      obtain ⟨typeBytes, -, hhead⟩ := bind_eq_ok.mp hhead
      cases hhead
      simp only [List.length_cons, List.length_append]
      omega

theorem decodes_schemaFields {depth : ℕ} {entries : List (Field × ℕ)} {bytes : List UInt8}
    (hrep : ∀ entry ∈ entries, entry.1.Representable)
    (hdepth : ∀ entry ∈ entries, sizeOf entry.1 ≤ depth)
    (h : schemaFieldsBytes selected entries = .ok bytes) (hlength : bytes.length < 2 ^ 64) :
    Decodes (times (fieldDecoder depth) entries.length) bytes
      (entries.map fun entry => entry.1.select selected) := by
  induction entries generalizing bytes with
  | nil =>
      cases h
      exact decodes_pure []
  | cons entry rest ih =>
      obtain ⟨head, hhead, h⟩ := bind_eq_ok.mp h
      obtain ⟨tail, htail, h⟩ := bind_eq_ok.mp h
      cases h
      rw [List.length_append] at hlength
      rw [List.forall_mem_cons] at hrep hdepth
      refine (decodes_field entry.1 hrep.1 hdepth.1 hhead (by omega)).bind ?_
      exact (ih hrep.2 hdepth.2 htail (by omega)).bind_pure

theorem decodes_schemaPreimage {schema : Schema} {depth : ℕ} {bytes : List UInt8}
    (hrep : schema.Representable) (hdepth : sizeOf schema.fields ≤ depth)
    (h : schemaPreimage schema selected = .ok bytes) (hlength : bytes.length < 2 ^ 64) :
    Decodes (schemaDecoder depth) bytes
      (selected.map fun key => (key, schema.metadata.lookup key),
        schema.fields.map (Field.select selected)) := by
  obtain ⟨fields, hfields, h⟩ := bind_eq_ok.mp h
  cases h
  simp only [List.append_assoc, List.length_append] at hlength ⊢
  refine (decodes_take rfl).bind ?_
  refine (decodes_selectedMetadata (by omega)).bind ?_
  have hcount := length_le_schemaFieldsBytes hfields
  rw [List.length_zipIdx] at hcount
  have hentries : Decodes (times (fieldDecoder depth) schema.fields.length) fields
      (schema.fields.map (Field.select selected)) := by
    have hbound : ∀ entry ∈ schema.fields.zipIdx, sizeOf entry.1 ≤ depth := by
      intro entry hentry
      have hlt := List.sizeOf_lt_of_mem (List.fst_mem_of_mem_zipIdx hentry)
      omega
    have hdecodes := decodes_schemaFields
      (fun entry hentry => hrep entry.1 (List.fst_mem_of_mem_zipIdx hentry)) hbound hfields
      (by omega)
    have hmap : schema.fields.zipIdx.map (fun entry => entry.1.select selected) =
        schema.fields.map (Field.select selected) := by
      show schema.fields.zipIdx.map (Field.select selected ∘ Prod.fst) = _
      rw [← List.map_map, List.zipIdx_map_fst]
    rwa [List.length_zipIdx, hmap] at hdecodes
  exact ((decodes_number (by omega)).bind hentries).bind_pure

/-- The bytes of a schema determine which metadata keys were selected, and the schema up to the
metadata that was not. -/
theorem schemaPreimage_injective {schema schema' : Schema} {selected' : List String}
    {bytes : List UInt8} (hrep : schema.Representable) (hrep' : schema'.Representable)
    (h : schemaPreimage schema selected = .ok bytes)
    (h' : schemaPreimage schema' selected' = .ok bytes) (hlength : bytes.length < 2 ^ 64) :
    selected = selected' ∧ schema.select selected = schema'.select selected := by
  have hdepth : sizeOf schema.fields ≤ sizeOf schema.fields + sizeOf schema'.fields := by omega
  have hdepth' : sizeOf schema'.fields ≤ sizeOf schema.fields + sizeOf schema'.fields := by omega
  have hread := decodes_schemaPreimage hrep hdepth h hlength
  have hread' := decodes_schemaPreimage hrep' hdepth' h' hlength
  obtain ⟨hentries, hfields⟩ := Prod.mk.inj (hread.injective hread')
  have hselected : selected = selected' := by
    have hkeys := congrArg (List.map Prod.fst) hentries
    simpa [Function.comp_def] using hkeys
  subst hselected
  have hmetadata := congrArg presentEntries hentries
  rw [presentEntries_lookup, presentEntries_lookup] at hmetadata
  exact ⟨rfl, by rw [Schema.select, Schema.select, hfields, hmetadata]⟩

end Preimage

end ProofFrame
