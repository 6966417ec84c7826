import ProofFrame.Encoding.Cells
import ProofFrame.Table

/-!
# What a dataset fingerprint covers

`fingerprint_v2` feeds one hasher with the schema and one hasher for each column
with its cells.  What the hashers are fed, together with the number of rows,
determines the dataset up to the metadata that was not selected, and it does not
depend on how the rows come in batches.
-/

namespace ProofFrame

open Lib Lib.Decoder

/-! ## The rows of a reader -/

/-- The cells of a column, from the first row to the last. -/
def column (rows : List Row) (index : ℕ) : List (Option Value) :=
  rows.map fun row => (row[index]?).join

/-- All rows of a reader; an item that is an error has none. -/
def BatchReader.rows (reader : BatchReader) : List Row :=
  reader.items.flatMap fun item => match item with
    | .ok batch => batch.tuples
    | .error _ => []

theorem column_append (rows rows' : List Row) (index : ℕ) :
    column (rows ++ rows') index = column rows index ++ column rows' index :=
  List.map_append

theorem RecordBatch.column_tuples {batch : RecordBatch} {index : ℕ} {array : ArrowArray}
    (h : batch.columns[index]? = some array) : ProofFrame.column batch.tuples index = array.cells := by
  have hlength := batch.lengths_eq array (List.mem_of_getElem? h)
  rw [ArrowArray.length] at hlength
  have hcell : ∀ row, ((batch.row row)[index]?).join = (array.cells[row]?).join := by
    intro row
    rw [RecordBatch.row, List.getElem?_map, h]
    rfl
  rw [ProofFrame.column, RecordBatch.tuples, List.map_map]
  apply List.ext_getElem?
  intro row
  rw [List.getElem?_map]
  rcases Nat.lt_or_ge row batch.rows with hlt | hge
  · have hrow : row < array.cells.length := by omega
    rw [List.getElem?_range hlt, Option.map_some, Function.comp_apply, hcell,
      List.getElem?_eq_getElem hrow, Option.join_some]
  · rw [List.getElem?_eq_none (by rwa [List.length_range]), List.getElem?_eq_none (by omega)]
    rfl

theorem RecordBatch.length_of_mem_tuples {batch : RecordBatch} {row : Row} (h : row ∈ batch.tuples) :
    row.length = batch.schema.fields.length := by
  obtain ⟨index, -, rfl⟩ := List.mem_map.mp h
  rw [RecordBatch.row, List.length_map, ← batch.fields_eq, List.length_map]

/-- The rows are rows of the schema: one cell for each field, of its type. -/
structure Schema.HasRows (schema : Schema) (rows : List Row) : Prop where
  width_eq : ∀ row ∈ rows, row.length = schema.fields.length
  admits : ∀ index field, schema.fields[index]? = some field →
    ∀ cell ∈ column rows index, field.dataType.AdmitsPresent cell

theorem Schema.HasRows.append {schema : Schema} {rows rows' : List Row} (h : schema.HasRows rows)
    (h' : schema.HasRows rows') : schema.HasRows (rows ++ rows') := by
  constructor
  · rw [List.forall_mem_append]
    exact ⟨h.width_eq, h'.width_eq⟩
  · intro index field hfield
    rw [column_append, List.forall_mem_append]
    exact ⟨h.admits index field hfield, h'.admits index field hfield⟩

theorem RecordBatch.hasRows (batch : RecordBatch) : batch.schema.HasRows batch.tuples := by
  refine ⟨fun row hrow => RecordBatch.length_of_mem_tuples hrow, fun index field hfield => ?_⟩
  rw [← batch.fields_eq, List.getElem?_map, Option.map_eq_some_iff] at hfield
  obtain ⟨array, harray, rfl⟩ := hfield
  rw [RecordBatch.column_tuples harray]
  exact fun cell hcell => (array.typed cell hcell).present

/-- Rows of one width are determined by their columns. -/
theorem rows_ext {rows rows' : List Row} {width : ℕ} (hwidth : ∀ row ∈ rows, row.length = width)
    (hwidth' : ∀ row ∈ rows', row.length = width) (hlength : rows.length = rows'.length)
    (hcolumn : ∀ index < width, column rows index = column rows' index) : rows = rows' := by
  apply List.ext_getElem hlength
  intro row hrow hrow'
  have hleft := hwidth _ (List.getElem_mem hrow)
  have hright := hwidth' _ (List.getElem_mem hrow')
  apply List.ext_getElem (hleft.trans hright.symm)
  intro index hindex hindex'
  have hcells := congrArg (·[row]?) (hcolumn index (by omega))
  simp only [column, List.getElem?_map, List.getElem?_eq_getElem hrow,
    List.getElem?_eq_getElem hrow', Option.map_some, Option.some.injEq] at hcells
  rwa [List.getElem?_eq_getElem hindex, List.getElem?_eq_getElem hindex', Option.join_some,
    Option.join_some] at hcells

/-! ## The columns -/

/-- The cell a column hasher was fed. -/
noncomputable def hashedCellDecoder (dataType : DataType) : Decoder (Option Value) := do
  if (← byte) = 0 then pure none
  else if dataType.isScalar then (fun scalar => some (.scalar scalar)) <$> scalarDecoder dataType
  else do
    let _ ← take 8
    presentDecoder dataType.valueDecoder

theorem hashedCellDecoder_select (selected : List String) (dataType : DataType) :
    hashedCellDecoder (dataType.select selected) = hashedCellDecoder dataType := by
  have hscalar : (dataType.select selected).isScalar = dataType.isScalar := by
    cases dataType <;> rfl
  have hdecoder : scalarDecoder (dataType.select selected) = scalarDecoder dataType := by
    cases dataType <;> rfl
  rw [hashedCellDecoder, hashedCellDecoder, hscalar, hdecoder, valueDecoder_select]

theorem isScalar_of_admitsScalar {dataType : DataType} {scalar : Scalar}
    (h : dataType.AdmitsScalar scalar) : dataType.isScalar = true := by
  cases dataType <;> first
    | rfl
    | (cases scalar <;> exact absurd h id)

section Streams

variable [Crates]

theorem decodes_nestedCell {dataType : DataType} {value : Value} {bytes : List UInt8}
    (hscalar : dataType.isScalar = false) (hadmits : dataType.AdmitsPresent (some value))
    (h : (canonicalValueBytes dataType (some value) >>= fun encoded =>
      .ok (1 :: lengthPrefixed encoded)) = .ok bytes) (hlength : bytes.length < 2 ^ 64) :
    Decodes (hashedCellDecoder dataType) bytes (some value) := by
  obtain ⟨encoded, hencoded, h⟩ := bind_eq_ok.mp h
  cases h
  rw [List.length_cons, length_lengthPrefixed] at hlength
  refine Decodes.cons ?_
  rw [if_neg (by decide), if_neg (by rw [hscalar]; decide)]
  refine (decodes_take (Bytes.length_toLe 8 encoded.length)).bind ?_
  exact decodes_canonicalValueBytes (some value) hadmits hencoded (by omega)

theorem decodes_cellFingerprint {dataType : DataType} {cell : Option Value} {bytes : List UInt8}
    (hadmits : dataType.AdmitsPresent cell) (h : cellFingerprint dataType cell = .ok bytes)
    (hlength : bytes.length < 2 ^ 64) : Decodes (hashedCellDecoder dataType) bytes cell := by
  rcases cell with _ | ⟨scalar | items | cells | _⟩
  · cases h
    exact (decodes_pure none).cons
  · have hscalar : dataType.AdmitsScalar scalar := by
      have := hadmits _ rfl
      cases dataType <;> exact this
    obtain ⟨raw, hraw⟩ := exists_scalarBytes hscalar
    obtain ⟨tag, payload, rfl, -, hpayload⟩ := readsTagged_scalar hscalar hraw
    rw [cellFingerprint, hraw] at h
    cases h
    refine Decodes.cons ?_
    rw [if_neg (by decide), if_pos (isScalar_of_admitsScalar hscalar)]
    exact hpayload.map fun scalar => some (Value.scalar scalar)
  · refine decodes_nestedCell ?_ hadmits h hlength
    have := hadmits _ rfl
    cases dataType <;> first | rfl | exact absurd this id
  · refine decodes_nestedCell ?_ hadmits h hlength
    have := hadmits _ rfl
    cases dataType <;> first | rfl | exact absurd this id
  · rw [cellFingerprint] at h
    · rw [canonicalValueBytes] at h
      cases h
    · simp

theorem cellFingerprint_pos {dataType : DataType} {cell : Option Value} {bytes : List UInt8}
    (h : cellFingerprint dataType cell = .ok bytes) : 0 < bytes.length := by
  rcases cell with _ | ⟨scalar | items | cells | _⟩
  · cases h
    exact Nat.zero_lt_one
  · rw [cellFingerprint] at h
    split at h
    · cases h
      exact Nat.succ_pos _
    · cases h
  all_goals
    obtain ⟨encoded, -, h⟩ := bind_eq_ok.mp h
    cases h
    exact Nat.succ_pos _

theorem arrayFingerprint_append {dataType : DataType} {cells cells' : List (Option Value)}
    {bytes bytes' : List UInt8} (h : arrayFingerprint dataType cells = .ok bytes)
    (h' : arrayFingerprint dataType cells' = .ok bytes') :
    arrayFingerprint dataType (cells ++ cells') = .ok (bytes ++ bytes') := by
  induction cells generalizing bytes with
  | nil =>
      cases h
      exact h'
  | cons cell cells ih =>
      obtain ⟨head, hhead, h⟩ := bind_eq_ok.mp h
      obtain ⟨tail, htail, h⟩ := bind_eq_ok.mp h
      cases h
      rw [List.append_assoc]
      exact bind_eq_ok.mpr ⟨head, hhead, bind_eq_ok.mpr ⟨tail ++ bytes', ih htail, rfl⟩⟩

/-- Two columns that one decoder reads and that feed the same bytes have the same cells. -/
theorem arrayFingerprint_injective {dataType dataType' : DataType}
    (hdecoder : hashedCellDecoder dataType = hashedCellDecoder dataType')
    {cells : List (Option Value)} : ∀ {cells' : List (Option Value)} {bytes : List UInt8},
      (∀ cell ∈ cells, dataType.AdmitsPresent cell) →
      (∀ cell ∈ cells', dataType'.AdmitsPresent cell) →
      arrayFingerprint dataType cells = .ok bytes → arrayFingerprint dataType' cells' = .ok bytes →
      bytes.length < 2 ^ 64 → cells = cells' := by
  induction cells with
  | nil =>
      intro cells' bytes _ _ h h' _
      cases h
      cases cells' with
      | nil => rfl
      | cons cell cells' =>
          obtain ⟨head, hhead, h'⟩ := bind_eq_ok.mp h'
          obtain ⟨tail, htail, h'⟩ := bind_eq_ok.mp h'
          have hnil : head ++ tail = [] := Except.ok.inj h'
          have hpos := cellFingerprint_pos hhead
          rw [(List.append_eq_nil_iff.mp hnil).1] at hpos
          exact absurd hpos (Nat.lt_irrefl 0)
  | cons cell cells ih =>
      intro cells' bytes hadmits hadmits' h h' hlength
      obtain ⟨head, hhead, h⟩ := bind_eq_ok.mp h
      obtain ⟨tail, htail, h⟩ := bind_eq_ok.mp h
      cases h
      cases cells' with
      | nil =>
          have hnil : [] = head ++ tail := Except.ok.inj h'
          have hpos := cellFingerprint_pos hhead
          rw [(List.append_eq_nil_iff.mp hnil.symm).1] at hpos
          exact absurd hpos (Nat.lt_irrefl 0)
      | cons cell' cells' =>
          obtain ⟨head', hhead', h'⟩ := bind_eq_ok.mp h'
          obtain ⟨tail', htail', h'⟩ := bind_eq_ok.mp h'
          have hsplit : head' ++ tail' = head ++ tail := Except.ok.inj h'
          have hlength' := congrArg List.length hsplit
          rw [List.length_append, List.length_append] at hlength'
          rw [List.length_append] at hlength
          rw [List.forall_mem_cons] at hadmits hadmits'
          have hread := decodes_cellFingerprint hadmits.1 hhead (by omega)
          have hread' := decodes_cellFingerprint hadmits'.1 hhead' (by omega)
          rw [← hdecoder] at hread'
          obtain ⟨rfl, rfl⟩ := hread.unique hread' hsplit.symm
          rw [ih hadmits.2 hadmits'.2 htail htail' (by omega)]

/-! ## The metadata that is not selected plays no part -/

omit [Crates] in
theorem Field.dataType_select (selected : List String) (field : Field) :
    (field.select selected).dataType = field.dataType.select selected := by
  cases field
  rfl

mutual

theorem canonicalValueBytes_select {dataType : DataType} (selected : List String) :
    ∀ cell : Option Value, dataType.AdmitsPresent cell →
      canonicalValueBytes (dataType.select selected) cell = canonicalValueBytes dataType cell
  | none, _ => by rw [canonicalValueBytes, canonicalValueBytes]
  | some (.scalar scalar), h => by
      have := h _ rfl
      cases dataType <;> first | rfl | exact absurd this id
  | some (.sequence items), h => by
      have hitems := h _ rfl
      cases dataType with
      | list field | largeList field | map field _ =>
          simp only [DataType.select, canonicalValueBytes, encodeChildSequence,
            Field.dataType_select]
          rw [encodeChildren_select selected items fun item hitem => (hitems item hitem).present]
      | fixedSizeList field length =>
          simp only [DataType.select, canonicalValueBytes, encodeChildSequence,
            Field.dataType_select]
          rw [encodeChildren_select selected items fun item hitem => (hitems.2 item hitem).present]
      | _ => exact absurd hitems id
  | some (.record cells), h => by
      have hcells := h _ rfl
      cases dataType with
      | struct fields =>
          simp only [DataType.select, canonicalValueBytes]
          rw [encodeStruct_select selected cells hcells]
      | _ => exact absurd hcells id
  | some (.raw _), h => by
      have := h _ rfl
      cases dataType <;> first | rfl | exact absurd this id

theorem encodeChildren_select {dataType : DataType} (selected : List String) :
    ∀ items : List (Option Value), (∀ item ∈ items, dataType.AdmitsPresent item) →
      encodeChildren (dataType.select selected) items = encodeChildren dataType items
  | [], _ => by rw [encodeChildren, encodeChildren]
  | item :: items, h => by
      rw [List.forall_mem_cons] at h
      rw [encodeChildren, encodeChildren, canonicalValueBytes_select selected item h.1,
        encodeChildren_select selected items h.2]

theorem encodeStruct_select (selected : List String) : ∀ (cells : List (Option Value))
    {fields : Fields}, fields.AdmitCells cells →
      encodeStruct (fields.select selected).toList cells = encodeStruct fields.toList cells
  | [], .nil, _ => rfl
  | cell :: cells, .cons (.mk name dataType nullable metadata) rest, h => by
      rw [Fields.select, Fields.toList, Fields.toList, encodeStruct, encodeStruct,
        encodeStruct_select selected cells h.2]
      have hcell : dataType.AdmitsPresent cell := Field.AdmitsCell.present h.1
      rw [Field.select, Field.dataType, Field.dataType,
        canonicalValueBytes_select selected cell hcell]
  | [], .cons _ _, h => absurd h id
  | _ :: _, .nil, h => absurd h id

end

theorem cellFingerprint_select {dataType : DataType} (selected : List String) {cell : Option Value}
    (h : dataType.AdmitsPresent cell) :
    cellFingerprint (dataType.select selected) cell = cellFingerprint dataType cell := by
  have hcanonical := canonicalValueBytes_select selected cell h
  rcases cell with _ | ⟨scalar | items | cells | _⟩
  · rfl
  · have := h _ rfl
    cases dataType <;> first | rfl | exact absurd this id
  all_goals
    simp only [cellFingerprint, hcanonical]

theorem arrayFingerprint_select {dataType : DataType} (selected : List String)
    {cells : List (Option Value)} (h : ∀ cell ∈ cells, dataType.AdmitsPresent cell) :
    arrayFingerprint (dataType.select selected) cells = arrayFingerprint dataType cells := by
  induction cells with
  | nil => rfl
  | cons cell cells ih =>
      rw [List.forall_mem_cons] at h
      rw [arrayFingerprint, arrayFingerprint, cellFingerprint_select selected h.1, ih h.2]

omit [Crates] in
theorem lookup_selectMetadata {selected : List String} {metadata : List (String × String)}
    {key : String} (h : key ∈ selected) :
    (selectMetadata selected metadata).lookup key = metadata.lookup key := by
  induction selected with
  | nil => cases h
  | cons first rest ih =>
      have hrest : key ∈ rest → (selectMetadata rest metadata).lookup key = metadata.lookup key := ih
      rw [selectMetadata, List.filterMap_cons]
      cases hfirst : metadata.lookup first with
      | none =>
          rcases List.mem_cons.mp h with rfl | hmem
          · rw [Option.map_none, hfirst]
            by_cases hmem : key ∈ rest
            · exact (hrest hmem).trans hfirst
            · have habsent : ∀ entry ∈ selectMetadata rest metadata, entry.1 ≠ key := by
                rintro entry hentry rfl
                obtain ⟨other, hother, hvalue⟩ := List.mem_filterMap.mp hentry
                obtain ⟨value, -, rfl⟩ := Option.map_eq_some_iff.mp hvalue
                exact hmem hother
              exact List.lookup_eq_none_iff.mpr fun entry hentry =>
                bne_iff_ne.mpr (habsent entry hentry).symm
          · exact hrest hmem
      | some value =>
          rw [Option.map_some, List.lookup_cons]
          by_cases hkey : key = first
          · rw [beq_iff_eq.mpr hkey, hkey, hfirst]
          · rw [beq_eq_false_iff_ne.mpr hkey]
            exact hrest ((List.mem_cons.mp h).resolve_left hkey)

omit [Crates] in
theorem selectedMetadata_select (selected : List String) (metadata : List (String × String)) :
    selectedMetadata (selectMetadata selected metadata) selected =
      selectedMetadata metadata selected := by
  rw [selectedMetadata, selectedMetadata]
  congr 1
  apply List.flatMap_congr
  intro key hkey
  rw [lookup_selectMetadata hkey]

omit [Crates] in
theorem Fields.length_select (selected : List String) (fields : Fields) :
    (fields.select selected).toList.length = fields.toList.length := by
  cases fields with
  | nil => rfl
  | cons field rest =>
      rw [Fields.select, Fields.toList, Fields.toList, List.length_cons, List.length_cons,
        Fields.length_select selected rest]

mutual

theorem fieldBytes_select (selected : List String) (ordinal : ℕ) : ∀ field : Field,
    fieldBytes selected ordinal (field.select selected) = fieldBytes selected ordinal field
  | .mk name dataType nullable metadata => by
      rw [Field.select, fieldBytes, fieldBytes, dataTypeBytes_select selected dataType,
        selectedMetadata_select]

theorem dataTypeBytes_select (selected : List String) : ∀ dataType : DataType,
    dataTypeBytes selected (dataType.select selected) = dataTypeBytes selected dataType
  | .list field | .largeList field | .fixedSizeList field _ | .map field _ => by
      rw [DataType.select, dataTypeBytes, dataTypeBytes, fieldBytes_select selected 0 field]
  | .struct fields => by
      rw [DataType.select, dataTypeBytes, dataTypeBytes, fieldsBytes_select selected 0 fields,
        Fields.length_select]
  | .int8 | .int16 | .int32 | .int64 | .uint8 | .uint16 | .uint32 | .uint64 | .float32 | .float64
  | .date32 | .date64 | .timestamp _ _ | .decimal128 _ _ | .boolean | .utf8 | .largeUtf8
  | .utf8View | .binary | .largeBinary | .binaryView
  | .null | .float16 | .time32 _ | .time64 _ | .duration _ | .interval _ | .fixedSizeBinary _
  | .listView _ | .largeListView _ | .union _ _ | .dictionary _ _ | .decimal32 _ _
  | .decimal64 _ _ | .decimal256 _ _ | .runEndEncoded _ _ => rfl

theorem fieldsBytes_select (selected : List String) (ordinal : ℕ) : ∀ fields : Fields,
    fieldsBytes selected ordinal (fields.select selected) = fieldsBytes selected ordinal fields
  | .nil => rfl
  | .cons field rest => by
      rw [Fields.select, fieldsBytes, fieldsBytes, fieldBytes_select selected ordinal field,
        fieldsBytes_select selected (ordinal + 1) rest]

end

theorem schemaFieldsBytes_select (selected : List String) (fields : List Field) :
    ∀ start, schemaFieldsBytes selected ((fields.map (Field.select selected)).zipIdx start) =
      schemaFieldsBytes selected (fields.zipIdx start) := by
  induction fields with
  | nil => exact fun _ => rfl
  | cons field fields ih =>
      intro start
      rw [List.map_cons, List.zipIdx_cons, List.zipIdx_cons, schemaFieldsBytes, schemaFieldsBytes,
        fieldBytes_select, ih]

theorem schemaPreimage_select (schema : Schema) (selected : List String) :
    schemaPreimage (schema.select selected) selected = schemaPreimage schema selected := by
  rw [schemaPreimage, schemaPreimage, Schema.select, schemaFieldsBytes_select,
    selectedMetadata_select, List.length_map]

/-! ## The run -/

/-- One item of a reader: a batch, or the error of its source. -/
def V2FingerprintState.feed (state : V2FingerprintState) :
    Except String RecordBatch → Except Fault V2FingerprintState
  | .ok batch => state.update batch
  | .error message => .error (.error (.arrow message))

/-- The state `fingerprint_v2` finishes.  Its columns are all the bytes their hashers were fed. -/
def feedV2 (reader : BatchReader) (selected : List String) : Except Fault V2FingerprintState := do
  let state ← V2FingerprintState.new reader.schema selected
  reader.items.foldlM V2FingerprintState.feed state

/-- `fingerprint_v2`. -/
def fingerprintV2 (reader : BatchReader) (selected : List String) : Except Fault Fingerprint :=
  V2FingerprintState.finish <$> feedV2 reader selected

/-- What the hasher of a column is fed before its cells. -/
def columnHeader (index : ℕ) : List UInt8 :=
  domainSeparator "pf-fp-v2-column" ++ Bytes.toLe 8 index

/-- The state was fed the rows. -/
structure V2FingerprintState.Fed (state : V2FingerprintState) (schema : Schema) (rows : List Row) :
    Prop where
  schema_eq : state.schema = schema
  rows_eq : state.rows = rows.length
  length_eq : state.columns.length = schema.fields.length
  hasRows : schema.HasRows rows
  stream : ∀ index field, schema.fields[index]? = some field →
    ∃ fed, arrayFingerprint field.dataType (column rows index) = .ok fed ∧
      state.columns[index]? = some (columnHeader index ++ fed)

theorem fed_new {schema : Schema} {selected : List String} {state : V2FingerprintState}
    (h : V2FingerprintState.new schema selected = .ok state) : state.Fed schema [] := by
  obtain ⟨-, -, h⟩ := bind_eq_ok.mp h
  obtain ⟨digest, -, h⟩ := bind_eq_ok.mp h
  cases h
  refine ⟨rfl, rfl, by simp, ⟨by simp, by simp [column]⟩, fun index field hfield => ?_⟩
  have hlt := (List.getElem?_eq_some_iff.mp hfield).1
  refine ⟨[], rfl, ?_⟩
  rw [List.getElem?_map, List.getElem?_range hlt, List.append_nil]
  rfl

/-- The step lemma of the columns: each is fed the cells of its array. -/
theorem getElem?_columnsFingerprint {columns next : List (List UInt8)} {arrays : List ArrowArray}
    (h : columnsFingerprint columns arrays = .ok next) :
    next.length = columns.length ∧ ∀ (index : ℕ) (stream : List UInt8)
      (array : ArrowArray), columns[index]? = some stream →
      arrays[index]? = some array → ∃ fed, arrayFingerprint array.dataType array.cells = .ok fed ∧
        next[index]? = some (stream ++ fed) := by
  induction columns generalizing next arrays with
  | nil =>
      rw [columnsFingerprint] at h
      · cases h
        exact ⟨rfl, by simp⟩
      · simp
  | cons stream columns ih =>
      cases arrays with
      | nil =>
          rw [columnsFingerprint] at h
          · cases h
            exact ⟨rfl, by simp⟩
          · simp
      | cons array arrays =>
          obtain ⟨fed, hfed, h⟩ := bind_eq_ok.mp h
          obtain ⟨rest, hrest, h⟩ := bind_eq_ok.mp h
          cases h
          obtain ⟨hlength, hcolumns⟩ := ih hrest
          refine ⟨by rw [List.length_cons, List.length_cons, hlength], ?_⟩
          intro index stream' array' hstream harray
          cases index with
          | zero =>
              cases hstream
              cases harray
              exact ⟨fed, hfed, rfl⟩
          | succ index => exact hcolumns index stream' array' hstream harray

theorem V2FingerprintState.Fed.update {state next : V2FingerprintState} {schema : Schema}
    {rows : List Row} {batch : RecordBatch} (hfed : state.Fed schema rows)
    (h : state.update batch = .ok next) : next.Fed schema (rows ++ batch.tuples) := by
  have hbatch : batch.schema = schema := by
    by_contra hne
    rw [V2FingerprintState.update, if_neg (hfed.schema_eq ▸ hne)] at h
    cases h
  rw [V2FingerprintState.update, if_pos (hbatch.trans hfed.schema_eq.symm)] at h
  obtain ⟨_, -, hrest⟩ := bind_eq_ok.mp h
  obtain ⟨columns, hcolumns, hnext⟩ := bind_eq_ok.mp hrest
  obtain rfl := Except.ok.inj hnext
  obtain ⟨hlength, hnext⟩ := getElem?_columnsFingerprint hcolumns
  refine ⟨hfed.schema_eq, ?_, hlength.trans hfed.length_eq, ?_, fun index field hfield => ?_⟩
  · rw [List.length_append, RecordBatch.length_tuples, hfed.rows_eq]
  · exact hfed.hasRows.append (hbatch ▸ batch.hasRows)
  · obtain ⟨fed, hcells, hstream⟩ := hfed.stream index field hfield
    obtain ⟨array, harray, rfl⟩ : ∃ array, batch.columns[index]? = some array ∧
        array.field = field := by
      rwa [← hbatch, ← batch.fields_eq, List.getElem?_map, Option.map_eq_some_iff] at hfield
    obtain ⟨more, hmore, hnext⟩ := hnext index _ array hstream harray
    refine ⟨fed ++ more, ?_, by rw [hnext, List.append_assoc]⟩
    rw [column_append, RecordBatch.column_tuples harray]
    exact arrayFingerprint_append hcells hmore

/-- The run lemma: a run that ends in a state has fed it the rows of the reader. -/
theorem fed_feedV2 {reader : BatchReader} {selected : List String} {state : V2FingerprintState}
    (h : feedV2 reader selected = .ok state) : state.Fed reader.schema reader.rows := by
  obtain ⟨first, hfirst, h⟩ := bind_eq_ok.mp h
  refine foldlM_invariant (P := fun done (state : V2FingerprintState) =>
    state.Fed reader.schema (BatchReader.rows { reader with items := done })) (fed_new hfirst) ?_ h
  intro done item current next _ hcurrent hnext
  cases item with
  | error message => cases hnext
  | ok batch =>
      have hrows : BatchReader.rows { reader with items := done ++ [.ok batch] } =
          BatchReader.rows { reader with items := done } ++ batch.tuples := by
        simp [BatchReader.rows]
      rw [hrows]
      exact hcurrent.update hnext

/-! ## Fingerprinted datasets -/

/-- A dataset that was fingerprinted: a reader, the selected metadata keys and what the hashers were
fed.  A hasher takes fewer than 2⁶⁴ bytes. -/
structure HashedDataset where
  reader : BatchReader
  selected : List String
  representable : reader.schema.Representable
  preimage : List UInt8
  state : V2FingerprintState
  preimage_eq : schemaPreimage reader.schema selected = .ok preimage
  run : feedV2 reader selected = .ok state
  preimage_lt : preimage.length < 2 ^ 64
  columns_lt : ∀ stream ∈ state.columns, stream.length < 2 ^ 64

namespace HashedDataset

/-- What the schema hasher and the column hashers were fed, and the number of rows. -/
def streams (dataset : HashedDataset) : List UInt8 × List (List UInt8) × ℕ :=
  (dataset.preimage, dataset.state.columns, dataset.state.rows)

variable {dataset dataset' : HashedDataset}

/-- Where the columns have the same types, their streams determine the rows. -/
theorem rows_eq_of_columns {selected : List String}
    (hschema : dataset.reader.schema.select selected = dataset'.reader.schema.select selected)
    (hcolumns : dataset.state.columns = dataset'.state.columns)
    (hrows : dataset.state.rows = dataset'.state.rows) :
    dataset.reader.rows = dataset'.reader.rows := by
  have hfed := fed_feedV2 dataset.run
  have hfed' := fed_feedV2 dataset'.run
  have hfields := congrArg Schema.fields hschema
  have hwidth : dataset'.reader.schema.fields.length = dataset.reader.schema.fields.length := by
    simpa [Schema.select] using (congrArg List.length hfields).symm
  refine rows_ext hfed.hasRows.width_eq (hwidth ▸ hfed'.hasRows.width_eq) ?_ fun index hindex => ?_
  · rw [← hfed.rows_eq, ← hfed'.rows_eq, hrows]
  have hfield := List.getElem?_eq_getElem hindex
  have hfield' := List.getElem?_eq_getElem (hindex.trans_eq hwidth.symm)
  obtain ⟨fed, hcells, hstream⟩ := hfed.stream index _ hfield
  obtain ⟨fed', hcells', hstream'⟩ := hfed'.stream index _ hfield'
  have hsame : fed = fed' := by
    rw [hcolumns, hstream', Option.some.injEq] at hstream
    exact (List.append_cancel_left hstream).symm
  subst hsame
  have htype := congrArg (fun fields : List Field => fields[index]?.map Field.dataType) hfields
  simp only [Schema.select, List.getElem?_map, hfield, hfield', Option.map_some,
    Option.some.injEq, Field.dataType_select] at htype
  have hlength := dataset.columns_lt _ (List.mem_of_getElem? hstream)
  rw [List.length_append] at hlength
  refine arrayFingerprint_injective ?_ (hfed.hasRows.admits index _ hfield)
    (hfed'.hasRows.admits index _ hfield') hcells hcells' (by omega)
  rw [← hashedCellDecoder_select selected, htype, hashedCellDecoder_select]

/-- The streams are a function of the selected part of the schema and of the rows. -/
theorem streams_eq_of_rows (hselected : dataset.selected = dataset'.selected)
    (hschema : dataset.reader.schema.select dataset.selected =
      dataset'.reader.schema.select dataset.selected)
    (hrows : dataset.reader.rows = dataset'.reader.rows) : dataset.streams = dataset'.streams := by
  have hfed := fed_feedV2 dataset.run
  have hfed' := fed_feedV2 dataset'.run
  have hpreimage : dataset.preimage = dataset'.preimage := by
    have h := dataset.preimage_eq
    rw [← schemaPreimage_select, hschema, schemaPreimage_select, hselected,
      dataset'.preimage_eq] at h
    exact (Except.ok.inj h).symm
  have hfields := congrArg Schema.fields hschema
  have hwidth : dataset'.reader.schema.fields.length = dataset.reader.schema.fields.length := by
    simpa [Schema.select] using (congrArg List.length hfields).symm
  have hcolumns : dataset.state.columns = dataset'.state.columns := by
    apply List.ext_getElem?
    intro index
    rcases Nat.lt_or_ge index dataset.reader.schema.fields.length with hindex | hindex
    · have hfield := List.getElem?_eq_getElem hindex
      have hfield' := List.getElem?_eq_getElem (hindex.trans_eq hwidth.symm)
      obtain ⟨fed, hcells, hstream⟩ := hfed.stream index _ hfield
      obtain ⟨fed', hcells', hstream'⟩ := hfed'.stream index _ hfield'
      have htype := congrArg (fun fields : List Field => fields[index]?.map Field.dataType) hfields
      simp only [Schema.select, List.getElem?_map, hfield, hfield', Option.map_some,
        Option.some.injEq, Field.dataType_select] at htype
      have hsame : fed = fed' := by
        rw [← arrayFingerprint_select dataset.selected (hfed.hasRows.admits index _ hfield), htype,
          hrows, arrayFingerprint_select dataset.selected (hfed'.hasRows.admits index _ hfield'),
          hcells'] at hcells
        exact (Except.ok.inj hcells).symm
      rw [hstream, hstream', hsame]
    · rw [List.getElem?_eq_none (by rwa [hfed.length_eq]),
        List.getElem?_eq_none (by rwa [hfed'.length_eq, hwidth])]
  rw [streams, streams, hpreimage, hcolumns, hfed.rows_eq, hfed'.rows_eq, hrows]

/-- Two datasets feed the hashers the same bytes exactly if they agree in the selected keys, in the
schema as far as it is covered, and in all cells, however their rows come in batches. -/
theorem streams_eq_iff (dataset dataset' : HashedDataset) :
    dataset.streams = dataset'.streams ↔
      dataset.selected = dataset'.selected ∧
      dataset.reader.schema.select dataset.selected =
        dataset'.reader.schema.select dataset.selected ∧
      dataset.reader.rows = dataset'.reader.rows := by
  constructor
  · intro h
    obtain ⟨hpreimage, hcolumns, hrows⟩ : dataset.preimage = dataset'.preimage ∧
        dataset.state.columns = dataset'.state.columns ∧
        dataset.state.rows = dataset'.state.rows := by
      simpa [streams] using h
    have hpreimage' : schemaPreimage dataset'.reader.schema dataset'.selected =
        .ok dataset.preimage := hpreimage ▸ dataset'.preimage_eq
    obtain ⟨hselected, hschema⟩ := schemaPreimage_injective dataset.representable
      dataset'.representable dataset.preimage_eq hpreimage' dataset.preimage_lt
    exact ⟨hselected, hschema, rows_eq_of_columns hschema hcolumns hrows⟩
  · rintro ⟨hselected, hschema, hrows⟩
    exact streams_eq_of_rows hselected hschema hrows

end HashedDataset

end Streams

/-- A batch of a nullable column with a null in it. -/
example : letI := Crates.zeroDigests
    Nonempty HashedDataset := by
  let _ : Crates := Crates.zeroDigests
  let batch := RecordBatch.ofColumn (ArrowArray.ofInt64 "id" [some 7, none])
  let reader : BatchReader := { schema := batch.schema, items := [.ok batch] }
  obtain ⟨preimage, hpreimage⟩ : ∃ preimage, schemaPreimage reader.schema [] = .ok preimage :=
    ⟨_, rfl⟩
  obtain ⟨state, hstate⟩ : ∃ state, feedV2 reader [] = .ok state := ⟨_, rfl⟩
  refine ⟨reader, [], ?_, preimage, state, hpreimage, hstate, ?_, ?_⟩
  · intro field hfield
    rw [List.mem_singleton.mp hfield]
    trivial
  · cases hpreimage
    decide +kernel
  · cases hstate
    decide +kernel

end ProofFrame
