import ProofFrame.Encoding.Dataset
import ProofFrame.Execution.Meaning
import ProofFrame.Lib.Parts

/-!
# Batches in two parts

Every rule goes through a batch row by row and carries its state along.  So a
batch gives the same state and the same violations as its first rows and then
the others, up to the order of the violations of different rules.
-/

namespace ProofFrame

open Lib Lib.Run Lib.Ieee754

/-! ## Splitting a batch -/

/-- The cells of an array are those of the first part and then those of the second. -/
structure ArrowArray.Splits (whole left right : ArrowArray) : Prop where
  left_eq : left.field = whole.field
  right_eq : right.field = whole.field
  cells_eq : whole.cells = left.cells ++ right.cells

/-- The rows of a batch are those of the first part and then those of the second. -/
structure RecordBatch.Splits (whole left right : RecordBatch) : Prop where
  left_eq : left.schema = whole.schema
  right_eq : right.schema = whole.schema
  rows_eq : whole.rows = left.rows + right.rows
  columns : ∀ (index : ℕ) (array : ArrowArray), whole.columns[index]? = some array →
    ∃ first second, left.columns[index]? = some first ∧ right.columns[index]? = some second ∧
      array.Splits first second

theorem RecordBatch.length_columns (batch : RecordBatch) :
    batch.columns.length = batch.schema.fields.length := by
  rw [← batch.fields_eq, List.length_map]

theorem ArrowArray.Splits.dataType_left {whole left right : ArrowArray}
    (h : whole.Splits left right) : left.dataType = whole.dataType := by
  rw [ArrowArray.dataType, h.left_eq, ArrowArray.dataType]

theorem ArrowArray.Splits.dataType_right {whole left right : ArrowArray}
    (h : whole.Splits left right) : right.dataType = whole.dataType := by
  rw [ArrowArray.dataType, h.right_eq, ArrowArray.dataType]

/-- A column of a batch in two parts: out of range in all of them, or split as the batch is. -/
theorem RecordBatch.Splits.column {whole left right : RecordBatch} (h : whole.Splits left right)
    (index : ℕ) :
    (whole.column index = .error outOfBounds ∧ left.column index = .error outOfBounds ∧
      right.column index = .error outOfBounds) ∨
    ∃ array first second, whole.column index = .ok array ∧ left.column index = .ok first ∧
      right.column index = .ok second ∧ array.Splits first second ∧
      first.cells.length = left.rows ∧ second.cells.length = right.rows := by
  unfold RecordBatch.column
  cases harray : whole.columns[index]? with
  | none =>
      refine .inl ⟨rfl, ?_⟩
      rw [List.getElem?_eq_none_iff, RecordBatch.length_columns] at harray
      rw [List.getElem?_eq_none, List.getElem?_eq_none]
      · exact ⟨rfl, rfl⟩
      · rwa [RecordBatch.length_columns, h.right_eq]
      · rwa [RecordBatch.length_columns, h.left_eq]
  | some array =>
      obtain ⟨first, second, hfirst, hsecond, hsplits⟩ := h.columns index array harray
      refine .inr ⟨array, first, second, rfl, ?_, ?_, hsplits, ?_, ?_⟩
      · rw [hfirst]
      · rw [hsecond]
      · exact left.lengths_eq first (List.mem_of_getElem? hfirst)
      · exact right.lengths_eq second (List.mem_of_getElem? hsecond)

/-- Two columns of one field, one after the other. -/
def ArrowArray.append (left right : ArrowArray) (h : right.field = left.field) : ArrowArray where
  field := left.field
  cells := left.cells ++ right.cells
  typed := by
    rw [List.forall_mem_append]
    exact ⟨left.typed, h ▸ right.typed⟩

theorem ArrowArray.append_splits (left right : ArrowArray) (h : right.field = left.field) :
    (left.append right h).Splits left right :=
  ⟨rfl, h, rfl⟩

theorem exists_appendColumns : ∀ {lefts rights : List ArrowArray},
    rights.map ArrowArray.field = lefts.map ArrowArray.field →
    ∃ wholes : List ArrowArray, wholes.map ArrowArray.field = lefts.map ArrowArray.field ∧
      (∀ whole ∈ wholes, ∃ first ∈ lefts, ∃ second ∈ rights, whole.Splits first second) ∧
      ∀ (index : ℕ) (whole : ArrowArray), wholes[index]? = some whole →
        ∃ first second, lefts[index]? = some first ∧ rights[index]? = some second ∧ whole.Splits first second := by
  intro lefts
  induction lefts with
  | nil =>
      intro rights _
      exact ⟨[], rfl, by simp, by simp⟩
  | cons left lefts ih =>
      rintro (_ | ⟨right, rights⟩) h
      · cases h
      · rw [List.map_cons, List.map_cons, List.cons.injEq] at h
        obtain ⟨hfield, hfields⟩ := h
        obtain ⟨wholes, hmap, hmem, hindex⟩ := ih hfields
        have hsplits := left.append_splits right hfield
        refine ⟨left.append right hfield :: wholes, ?_, ?_, ?_⟩
        · rw [List.map_cons, hmap]
          rfl
        · rintro whole hwhole
          rcases List.mem_cons.mp hwhole with rfl | hwhole
          · exact ⟨left, List.mem_cons_self .., right, List.mem_cons_self .., hsplits⟩
          · obtain ⟨first, hfirst, second, hsecond, h⟩ := hmem whole hwhole
            exact ⟨first, List.mem_cons_of_mem _ hfirst, second, List.mem_cons_of_mem _ hsecond, h⟩
        · rintro (_ | index) whole hwhole
          · cases hwhole
            exact ⟨left, right, rfl, rfl, hsplits⟩
          · exact hindex index whole hwhole

/-- Two batches of one schema are the parts of a third. -/
theorem exists_splits {left right : RecordBatch} (h : right.schema = left.schema) :
    ∃ whole : RecordBatch, whole.Splits left right := by
  have hfields : right.columns.map ArrowArray.field = left.columns.map ArrowArray.field := by
    rw [right.fields_eq, left.fields_eq, h]
  obtain ⟨wholes, hmap, hmem, hindex⟩ := exists_appendColumns hfields
  refine ⟨{ schema := left.schema, rows := left.rows + right.rows, columns := wholes
            fields_eq := hmap.trans left.fields_eq, lengths_eq := ?_ }, rfl, h, rfl, hindex⟩
  intro whole hwhole
  obtain ⟨first, hfirst, second, hsecond, hsplits⟩ := hmem whole hwhole
  have hleft := left.lengths_eq first hfirst
  have hright := right.lengths_eq second hsecond
  rw [ArrowArray.length] at hleft hright ⊢
  rw [hsplits.cells_eq, List.length_append, hleft, hright]

/-- The rows of the whole are those of its parts. -/
theorem RecordBatch.Splits.tuples_eq {whole left right : RecordBatch}
    (h : whole.Splits left right) : whole.tuples = left.tuples ++ right.tuples := by
  refine rows_ext (fun row hrow => length_of_mem_tuples hrow) ?_ ?_ ?_
  · rw [List.forall_mem_append]
    refine ⟨fun row hrow => ?_, fun row hrow => ?_⟩
    · rw [length_of_mem_tuples hrow, h.left_eq]
    · rw [length_of_mem_tuples hrow, h.right_eq]
  · rw [List.length_append, length_tuples, length_tuples, length_tuples, h.rows_eq]
  · intro index hindex
    rw [← RecordBatch.length_columns] at hindex
    obtain ⟨first, second, hfirst, hsecond, hsplits⟩ :=
      h.columns index _ (List.getElem?_eq_getElem hindex)
    rw [column_append, column_tuples (List.getElem?_eq_getElem hindex), column_tuples hfirst,
      column_tuples hsecond, hsplits.cells_eq]

theorem ArrowArray.ext_cells {array array' : ArrowArray} (hfield : array.field = array'.field)
    (hcells : array.cells = array'.cells) : array = array' := by
  cases array
  cases array'
  dsimp only at hfield hcells
  subst hfield hcells
  rfl

/-- A batch is determined by its schema and its rows. -/
theorem RecordBatch.ext_tuples {batch batch' : RecordBatch} (hschema : batch.schema = batch'.schema)
    (htuples : batch.tuples = batch'.tuples) : batch = batch' := by
  have hrows : batch.rows = batch'.rows := by
    rw [← length_tuples, ← length_tuples, htuples]
  have hcolumns : batch.columns = batch'.columns := by
    apply List.ext_getElem
    · rw [length_columns, length_columns, hschema]
    · intro index hindex hindex'
      have hfield : (batch.columns.map ArrowArray.field)[index]? =
          (batch'.columns.map ArrowArray.field)[index]? := by
        rw [batch.fields_eq, batch'.fields_eq, hschema]
      have hcells := column_tuples (List.getElem?_eq_getElem hindex)
      rw [htuples, column_tuples (List.getElem?_eq_getElem hindex')] at hcells
      rw [List.getElem?_map, List.getElem?_map, List.getElem?_eq_getElem hindex,
        List.getElem?_eq_getElem hindex', Option.map_some, Option.map_some,
        Option.some.injEq] at hfield
      exact ArrowArray.ext_cells hfield hcells.symm
  cases batch
  cases batch'
  dsimp only at hschema hrows hcolumns
  subst hschema hrows hcolumns
  rfl

end ProofFrame
