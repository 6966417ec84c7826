import ProofFrame.Encoding.Dataset
import ProofFrame.Execution.KeyTuples
import ProofFrame.Execution.Preparation

/-!
# Keys are injective

The key of a uniqueness rule names each column and marks its nulls; the key of a
reference rule names the positions only, and has no nulls.  Either way two rows
have the same key when they have the same cells.
-/

namespace ProofFrame

open Lib Lib.Run

/-! ## Cells of a key -/

/-- The cells of a row under the columns of a key. -/
def RecordBatch.keyCells (batch : RecordBatch) (columns : List ℕ) (row : ℕ) : List (Option Value) :=
  columns.map fun index => (batch.columns[index]?.bind fun array => array.cells[row]?).join

/-- The columns hold values a key can be built of, of types that may be compared. -/
def ComparableColumns (batch batch' : RecordBatch) (index index' : ℕ) : Prop :=
  ∃ array array', batch.columns[index]? = some array ∧ batch'.columns[index']? = some array' ∧
    array.dataType.isScalar = true ∧ array.dataType.Comparable array'.dataType

/-- The part of a key in a column. -/
def RecordBatch.keyPartAt (batch : RecordBatch) (row index : ℕ) : Option KeyPart :=
  batch.columns[index]?.bind (keyPart · row)

/-- What a column adds to the key of a uniqueness rule. -/
def compositePart (batch : RecordBatch) (row index : ℕ) : List UInt8 :=
  Bytes.toLe 8 index ++ match batch.keyPartAt row index with
    | none => [0]
    | some part => 1 :: part.bytes

/-- A cell of a scalar column is null, or a scalar that is a part of a key. -/
theorem keyPart_cases {array : ArrowArray} (hscalar : array.dataType.isScalar = true) {row : ℕ}
    (hrow : row < array.length) :
    (array.cells[row]? = some none ∧ keyPart array row = none) ∨
      ∃ scalar, array.cells[row]? = some (some (.scalar scalar)) ∧
        keyPart array row = some { dataType := array.dataType.identity, scalar } := by
  have hcell : array.cells[row]? = some array.cells[row] := List.getElem?_eq_getElem hrow
  have htyped := (array.typed _ (List.mem_of_getElem? hcell)).present
  unfold keyPart
  rw [hcell]
  generalize array.cells[row] = cell at htyped
  cases cell with
  | none => exact .inl ⟨rfl, rfl⟩
  | some value =>
      have hvalue := htyped value rfl
      change array.dataType.Admits value at hvalue
      cases value with
      | scalar scalar => exact .inr ⟨scalar, rfl, rfl⟩
      | sequence items =>
          revert hscalar hvalue
          cases array.dataType <;> simp [DataType.isScalar, DataType.Admits]
      | record cells =>
          revert hscalar hvalue
          cases array.dataType <;> simp [DataType.isScalar, DataType.Admits]
      | raw bytes =>
          revert hscalar hvalue
          cases array.dataType <;> simp [DataType.isScalar, DataType.Admits]

/-- A key can be built of the part of the row in the column. -/
structure KeyCell (batch : RecordBatch) (row index : ℕ) (array : ArrowArray) : Prop where
  column : batch.columns[index]? = some array
  isScalar : array.dataType.isScalar = true
  row_lt : row < array.length

theorem KeyCell.keyPartAt_eq {batch : RecordBatch} {row index : ℕ} {array : ArrowArray}
    (h : KeyCell batch row index array) : batch.keyPartAt row index = keyPart array row := by
  rw [RecordBatch.keyPartAt, h.column, Option.bind_some]

section Building

variable [Crates]

theorem appendScalar_keyPart {array : ArrowArray} {row : ℕ} {scalar : Scalar}
    (h : keyPart array row = some { dataType := array.dataType.identity, scalar }) :
    appendScalar array.dataType (.scalar scalar) =
      .ok (KeyPart.bytes { dataType := array.dataType.identity, scalar }) := by
  obtain ⟨hbytes, -⟩ := (keyPart_typed h).exists_framed
  rw [scalarBytes_identity] at hbytes
  unfold appendScalar
  dsimp only at hbytes ⊢
  rw [hbytes]

/-- What one column does to the key of a uniqueness rule. -/
def compositeStep (batch : RecordBatch) (row : ℕ) (state : List UInt8 × Bool) (index : ℕ) :
    Except Fault (List UInt8 × Bool) := do
  let array ← batch.column index
  let cell ← array.cell row
  match cell with
  | none => .ok (state.1 ++ Bytes.toLe 8 index ++ [0], true)
  | some value => do
      let part ← appendScalar array.dataType value
      .ok (state.1 ++ Bytes.toLe 8 index ++ 1 :: part, state.2)

theorem KeyCell.compositeStep_eq {batch : RecordBatch} {row index : ℕ} {array : ArrowArray}
    (h : KeyCell batch row index array) (state : List UInt8 × Bool) :
    ∃ sawNull, compositeStep batch row state index =
      .ok (state.1 ++ compositePart batch row index, sawNull) := by
  unfold compositeStep compositePart
  rw [h.keyPartAt_eq, column_eq_ok.mpr h.column, ok_bind]
  rcases keyPart_cases h.isScalar h.row_lt with ⟨hnull, hpart⟩ | ⟨scalar, hvalue, hpart⟩
  · refine ⟨true, ?_⟩
    rw [cell_eq_ok.mpr hnull, ok_bind, hpart, List.append_assoc]
  · refine ⟨state.2, ?_⟩
    rw [cell_eq_ok.mpr hvalue, ok_bind, hpart, List.append_assoc]
    dsimp only
    rw [appendScalar_keyPart hpart, ok_bind, List.append_assoc]

/-- The key of a uniqueness rule is built column by column. -/
theorem compositeKey_eq {batch : RecordBatch} {row : ℕ} {columns : List ℕ}
    (h : ∀ index ∈ columns, ∃ array, KeyCell batch row index array) :
    ∃ sawNull, compositeKey columns batch row =
      .ok (columns.flatMap (compositePart batch row), sawNull) := by
  have hfold : ∀ state : List UInt8 × Bool, ∃ sawNull,
      columns.foldlM (compositeStep batch row) state =
        .ok (state.1 ++ columns.flatMap (compositePart batch row), sawNull) := by
    induction columns with
    | nil =>
        intro state
        refine ⟨state.2, ?_⟩
        rw [List.flatMap_nil, List.append_nil]
        rfl
    | cons index columns ih =>
        intro state
        rw [List.forall_mem_cons] at h
        obtain ⟨array, hcell⟩ := h.1
        obtain ⟨sawNull, hstep⟩ := hcell.compositeStep_eq state
        obtain ⟨sawNull', hrest⟩ := ih h.2 (state.1 ++ compositePart batch row index, sawNull)
        refine ⟨sawNull', ?_⟩
        rw [List.foldlM_cons, hstep, ok_bind, hrest, List.flatMap_cons, List.append_assoc]
  exact hfold ([], false)

/-- The key of a reference rule is built where no part of it is null. -/
theorem encodeKey_eq {batch : RecordBatch} {row : ℕ} {columns : List ℕ}
    (h : ∀ index ∈ columns, ∃ array, KeyCell batch row index array) :
    encodeKey batch columns row = .ok ((keyTuple batch columns row).map (encodeTuple 0)) := by
  have hexists : ∀ ordinal, ∃ bytes, encodeKeyParts batch row (columns.zipIdx ordinal) = .ok bytes := by
    induction columns with
    | nil => exact fun _ => ⟨_, rfl⟩
    | cons index columns ih =>
        intro ordinal
        rw [List.forall_mem_cons] at h
        obtain ⟨array, hcell⟩ := h.1
        rw [List.zipIdx_cons, encodeKeyParts, column_eq_ok.mpr hcell.column, ok_bind]
        rcases keyPart_cases hcell.isScalar hcell.row_lt with
          ⟨hnull, -⟩ | ⟨scalar, hvalue, hpart⟩
        · exact ⟨none, by rw [cell_eq_ok.mpr hnull]; rfl⟩
        · obtain ⟨rest, hrest⟩ := ih h.2 (ordinal + 1)
          rw [cell_eq_ok.mpr hvalue, ok_bind]
          dsimp only
          rw [appendScalar_keyPart hpart, ok_bind, hrest]
          exact ⟨_, rfl⟩
  obtain ⟨bytes, hbytes⟩ := hexists 0
  have hencode : encodeKey batch columns row = .ok bytes := hbytes
  rw [hencode, encodeKey_eq_ok hencode]

end Building

/-! ## Comparing keys -/

theorem compositePart_append_inj {batch batch' : RecordBatch} {row row' index : ℕ}
    {rest rest' : List UInt8}
    (h : compositePart batch row index ++ rest = compositePart batch' row' index ++ rest') :
    batch.keyPartAt row index = batch'.keyPartAt row' index ∧ rest = rest' := by
  have htyped : ∀ {batch : RecordBatch} {row : ℕ} {part : KeyPart},
      batch.keyPartAt row index = some part → part.Typed := by
    intro batch row part hpart
    obtain ⟨array, -, harray⟩ := Option.bind_eq_some_iff.mp hpart
    exact keyPart_typed harray
  unfold compositePart at h
  rw [List.append_assoc, List.append_assoc] at h
  have h := List.append_cancel_left h
  cases hpart : batch.keyPartAt row index with
  | none =>
      cases hpart' : batch'.keyPartAt row' index with
      | none =>
          rw [hpart, hpart'] at h
          exact ⟨rfl, List.append_cancel_left h⟩
      | some part' =>
          rw [hpart, hpart'] at h
          exact absurd (List.cons.inj h).1 (by decide)
  | some part =>
      cases hpart' : batch'.keyPartAt row' index with
      | none =>
          rw [hpart, hpart'] at h
          exact absurd (List.cons.inj h).1 (by decide)
      | some part' =>
          rw [hpart, hpart'] at h
          obtain ⟨rfl, hrest⟩ := (htyped hpart).append_inj (htyped hpart') (List.cons.inj h).2
          exact ⟨rfl, hrest⟩

/-- The key of a uniqueness rule determines its parts. -/
theorem flatMap_compositePart_inj {batch batch' : RecordBatch} {row row' : ℕ} {columns : List ℕ} :
    columns.flatMap (compositePart batch row) = columns.flatMap (compositePart batch' row') ↔
      columns.map (batch.keyPartAt row) = columns.map (batch'.keyPartAt row') := by
  constructor
  · intro h
    induction columns with
    | nil => rfl
    | cons index columns ih =>
        rw [List.flatMap_cons, List.flatMap_cons] at h
        obtain ⟨hpart, hrest⟩ := compositePart_append_inj h
        rw [List.map_cons, List.map_cons, hpart, ih hrest]
  · intro h
    rw [List.flatMap_def, List.flatMap_def]
    congr 1
    apply List.map_congr_left
    intro index hindex
    rw [compositePart, compositePart, List.map_inj_left.mp h index hindex]

/-- Parts of comparable types are equal when the cells are. -/
theorem keyPart_eq_iff {array array' : ArrowArray} {row row' : ℕ}
    (hscalar : array.dataType.isScalar = true) (hscalar' : array'.dataType.isScalar = true)
    (htypes : array.dataType.Comparable array'.dataType) (hrow : row < array.length)
    (hrow' : row' < array'.length) :
    keyPart array row = keyPart array' row' ↔ array.cells[row]? = array'.cells[row']? := by
  have hidentity : array.dataType.identity = array'.dataType.identity := by
    rcases htypes with heq | ⟨unit, timezone, timezone', heq, heq'⟩
    · rw [heq]
    · rw [heq, heq']
      rfl
  rcases keyPart_cases hscalar hrow with ⟨hcell, hpart⟩ | ⟨scalar, hcell, hpart⟩ <;>
    rcases keyPart_cases hscalar' hrow' with ⟨hcell', hpart'⟩ | ⟨scalar', hcell', hpart'⟩ <;>
    rw [hcell, hpart, hcell', hpart'] <;> simp [hidentity]

theorem ComparableColumns.exists_keyCells {batch batch' : RecordBatch} {row row' index index' : ℕ}
    (h : ComparableColumns batch batch' index index') (hrow : row < batch.rows)
    (hrow' : row' < batch'.rows) :
    ∃ array array', KeyCell batch row index array ∧ KeyCell batch' row' index' array' ∧
      array.dataType.Comparable array'.dataType := by
  obtain ⟨array, array', hcolumn, hcolumn', hscalar, htypes⟩ := h
  have hscalar' : array'.dataType.isScalar = true := by
    rcases htypes with heq | ⟨unit, timezone, timezone', -, heq'⟩
    · rw [← heq]
      exact hscalar
    · rw [heq']
      rfl
  refine ⟨array, array', ⟨hcolumn, hscalar, ?_⟩, ⟨hcolumn', hscalar', ?_⟩, htypes⟩
  · rw [batch.lengths_eq array (List.mem_of_getElem? hcolumn)]
    exact hrow
  · rw [batch'.lengths_eq array' (List.mem_of_getElem? hcolumn')]
    exact hrow'

section Rows

variable {batch batch' : RecordBatch} {columns columns' : List ℕ} {row row' : ℕ}

/-- The parts of two keys are the same where the cells are. -/
theorem map_keyPartAt_eq_iff (htypes : List.Forall₂ (ComparableColumns batch batch') columns columns')
    (hrow : row < batch.rows) (hrow' : row' < batch'.rows) :
    columns.map (batch.keyPartAt row) = columns'.map (batch'.keyPartAt row') ↔
      batch.keyCells columns row = batch'.keyCells columns' row' := by
  induction htypes with
  | nil => simp [RecordBatch.keyCells]
  | @cons index index' columns columns' hindex htypes ih =>
      obtain ⟨array, array', hcell, hcell', hcomparable⟩ := hindex.exists_keyCells hrow hrow'
      unfold RecordBatch.keyCells at ih ⊢
      simp only [List.map_cons, List.cons.injEq, ih]
      refine and_congr_left' ?_
      rw [hcell.keyPartAt_eq, hcell'.keyPartAt_eq, hcell.column, hcell'.column,
        keyPart_eq_iff hcell.isScalar hcell'.isScalar hcomparable hcell.row_lt hcell'.row_lt]
      have hsome : ∀ {array : ArrowArray} {row : ℕ}, row < array.length →
          array.cells[row]? = some (array.cells[row]?).join := by
        intro array row hlt
        rw [List.getElem?_eq_getElem hlt]
        rfl
      rw [Option.bind_some, Option.bind_some, hsome hcell.row_lt, hsome hcell'.row_lt,
        Option.some.injEq]
      rfl

theorem keyTuple_eq_some {key : List KeyPart} :
    keyTuple batch columns row = some key ↔ columns.map (batch.keyPartAt row) = key.map some := by
  induction columns generalizing key with
  | nil => cases key <;> simp [keyTuple]
  | cons index columns ih =>
      rw [keyTuple_cons, Option.bind_eq_some_iff, List.map_cons]
      constructor
      · rintro ⟨part, hpart, hrest⟩
        obtain ⟨rest, htail, rfl⟩ := Option.map_eq_some_iff.mp hrest
        rw [ih.mp htail, List.map_cons]
        exact congrArg (· :: rest.map some) hpart
      · intro h
        cases key with
        | nil => cases h
        | cons part rest =>
            obtain ⟨hpart, hrest⟩ := List.cons.inj h
            exact ⟨part, hpart, Option.map_eq_some_iff.mpr ⟨rest, ih.mpr hrest, rfl⟩⟩

/-- A key is complete when no cell of it is null. -/
theorem keyTuple_eq_none (h : ∀ index ∈ columns, ∃ array, KeyCell batch row index array) :
    keyTuple batch columns row = none ↔ none ∈ batch.keyCells columns row := by
  induction columns with
  | nil => simp [keyTuple, RecordBatch.keyCells]
  | cons index columns ih =>
      rw [List.forall_mem_cons] at h
      obtain ⟨array, hcell⟩ := h.1
      have hrest := ih h.2
      unfold RecordBatch.keyCells at hrest ⊢
      rw [keyTuple_cons, List.map_cons, List.mem_cons, ← hrest, hcell.column, Option.bind_some,
        Option.bind_some]
      rcases keyPart_cases hcell.isScalar hcell.row_lt with ⟨hnull, hpart⟩ | ⟨scalar, hvalue, hpart⟩
      · rw [hnull, hpart]
        simp
      · rw [hvalue, hpart]
        simp

variable [Crates]

/-- **Keys are injective.**  Two rows have the same key under a uniqueness rule if and only if
they have the same cells in its columns, nulls included; two rows of the sides of a reference
rule that both have a key have the same one if and only if they have the same cells. -/
theorem keys_injective (htypes : List.Forall₂ (ComparableColumns batch batch') columns columns')
    (hrow : row < batch.rows) (hrow' : row' < batch'.rows) :
    (columns = columns' → ∃ key key' : List UInt8 × Bool, compositeKey columns batch row = .ok key ∧
      compositeKey columns' batch' row' = .ok key' ∧
      (key.1 = key'.1 ↔ batch.keyCells columns row = batch'.keyCells columns' row')) ∧
    ∃ key key' : Option (List UInt8), encodeKey batch columns row = .ok key ∧
      encodeKey batch' columns' row' = .ok key' ∧
      (key = none ↔ none ∈ batch.keyCells columns row) ∧
      (key' = none ↔ none ∈ batch'.keyCells columns' row') ∧
      ∀ bytes bytes', key = some bytes → key' = some bytes' →
        (bytes = bytes' ↔ batch.keyCells columns row = batch'.keyCells columns' row') := by
  have hcells : (∀ index ∈ columns, ∃ array, KeyCell batch row index array) ∧
      ∀ index ∈ columns', ∃ array, KeyCell batch' row' index array := by
    induction htypes with
    | nil => simp
    | cons hindex htypes ih =>
        obtain ⟨array, array', hcell, hcell', -⟩ := hindex.exists_keyCells hrow hrow'
        exact ⟨List.forall_mem_cons.mpr ⟨⟨array, hcell⟩, ih.1⟩,
          List.forall_mem_cons.mpr ⟨⟨array', hcell'⟩, ih.2⟩⟩
  have hparts := map_keyPartAt_eq_iff htypes hrow hrow'
  constructor
  · rintro rfl
    obtain ⟨sawNull, hkey⟩ := compositeKey_eq hcells.1
    obtain ⟨sawNull', hkey'⟩ := compositeKey_eq hcells.2
    exact ⟨_, _, hkey, hkey', flatMap_compositePart_inj.trans hparts⟩
  · refine ⟨_, _, encodeKey_eq hcells.1, encodeKey_eq hcells.2, ?_, ?_, ?_⟩
    · rw [Option.map_eq_none_iff, keyTuple_eq_none hcells.1]
    · rw [Option.map_eq_none_iff, keyTuple_eq_none hcells.2]
    · intro bytes bytes' hbytes hbytes'
      obtain ⟨key, hkey, rfl⟩ := Option.map_eq_some_iff.mp hbytes
      obtain ⟨key', hkey', rfl⟩ := Option.map_eq_some_iff.mp hbytes'
      rw [← hparts, keyTuple_eq_some.mp hkey, keyTuple_eq_some.mp hkey',
        (List.map_injective_iff.mpr (Option.some_injective KeyPart)).eq_iff]
      exact ⟨encodeTuple_injective (keyTuple_typed hkey) (keyTuple_typed hkey'),
        fun h => congrArg _ h⟩

end Rows

/-- Names in two columns: those of the first two rows read alike, and the last has no first name. -/
def nameBatch : RecordBatch := .ofColumns 3
  [.ofUtf8 "first" [some ⟨"ab", by decide⟩, some ⟨"a", by decide⟩, none],
    .ofUtf8 "last" [some ⟨"c", by decide⟩, some ⟨"bc", by decide⟩, some ⟨"c", by decide⟩]]
  (by decide)

/-- The names that read alike have different keys on both sides, and a null has no reference key. -/
theorem keys_injective_names : let _ : Crates := Crates.zeroDigests
    (∃ key key' : List UInt8 × Bool, compositeKey [0, 1] nameBatch 0 = .ok key ∧
      compositeKey [0, 1] nameBatch 1 = .ok key' ∧ key.1 ≠ key'.1) ∧
    (∃ bytes bytes' : List UInt8, encodeKey nameBatch [0, 1] 0 = .ok (some bytes) ∧
      encodeKey nameBatch [0, 1] 1 = .ok (some bytes') ∧ bytes ≠ bytes') ∧
    encodeKey nameBatch [0, 1] 2 = .ok none := by
  intro _
  have htypes : List.Forall₂ (ComparableColumns nameBatch nameBatch) [0, 1] [0, 1] :=
    .cons ⟨_, _, rfl, rfl, rfl, .inl rfl⟩ (.cons ⟨_, _, rfl, rfl, rfl, .inl rfl⟩ .nil)
  have hne : nameBatch.keyCells [0, 1] 0 ≠ nameBatch.keyCells [0, 1] 1 := by
    intro h
    have hfirst : some (Value.scalar (.text "ab")) = some (Value.scalar (.text "a")) :=
      (List.cons.inj h).1
    injections
    contradiction
  have hfirst : 0 < nameBatch.rows := by decide
  have hsecond : 1 < nameBatch.rows := by decide
  have hlast : 2 < nameBatch.rows := by decide
  obtain ⟨hcomposite, key, key', hkey, hkey', hnone, hnone', hkeys⟩ :=
    keys_injective htypes hfirst hsecond
  refine ⟨?_, ?_, ?_⟩
  · obtain ⟨key, key', hkey, hkey', hkeys⟩ := hcomposite rfl
    exact ⟨key, key', hkey, hkey', hkeys.not.mpr hne⟩
  · obtain ⟨bytes, rfl⟩ := Option.ne_none_iff_exists'.mp (hnone.not.mpr nofun)
    obtain ⟨bytes', rfl⟩ := Option.ne_none_iff_exists'.mp (hnone'.not.mpr nofun)
    exact ⟨bytes, bytes', hkey, hkey', (hkeys _ _ rfl rfl).not.mpr hne⟩
  · obtain ⟨-, key, -, hkey, -, hnone, -⟩ := keys_injective htypes hlast hfirst
    rw [hkey, hnone.mpr (.head _)]

end ProofFrame
