import ProofFrame.Arrow

/-!
# The rows of a dataset

A reader delivers its rows in batches.  What a dataset is, apart from its
schema, is the sequence of its rows; two readers may split one sequence into
batches in different ways.
-/

namespace ProofFrame

/-- A row: the cells of its columns. -/
abbrev Row : Type := List (Option Value)

namespace RecordBatch

/-- A row of a batch. -/
def row (batch : RecordBatch) (index : ℕ) : Row :=
  batch.columns.map fun array => (array.cells[index]?).join

/-- The rows of a batch. -/
def tuples (batch : RecordBatch) : List Row := (List.range batch.rows).map batch.row

theorem length_tuples (batch : RecordBatch) : batch.tuples.length = batch.rows := by
  rw [tuples, List.length_map, List.length_range]

end RecordBatch

/-- The reader has the rows: every item is a batch of its schema. -/
def BatchReader.HasRows (reader : BatchReader) (rows : List Row) : Prop :=
  ∃ batches : List RecordBatch, reader.items = batches.map Except.ok ∧
    (∀ batch ∈ batches, batch.schema = reader.schema) ∧ rows = batches.flatMap RecordBatch.tuples

/-- The columns of a batch in a row: their fields and cells. -/
def RecordBatch.view (batch : RecordBatch) (index : ℕ) : List (Field × Option Value) :=
  batch.columns.map fun array => (array.field, (array.cells[index]?).join)

theorem RecordBatch.view_eq (batch : RecordBatch) (index : ℕ) :
    batch.view index = batch.schema.fields.zip (batch.row index) := by
  rw [← batch.fields_eq, RecordBatch.row, List.zip_map', RecordBatch.view]

theorem RecordBatch.cells_getElem {batch : RecordBatch} {index : ℕ} (h : index < batch.rows)
    {array : ArrowArray} (harray : array ∈ batch.columns) :
    array.cells[index]? = some (array.cells[index]?).join := by
  have hlt : index < array.cells.length := h.trans_eq (batch.lengths_eq array harray).symm
  rw [List.getElem?_eq_getElem hlt, Option.join_some]

end ProofFrame
