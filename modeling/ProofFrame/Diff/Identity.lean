import ProofFrame.Diff.Distance
import ProofFrame.Encoding.Cells

/-!
# No difference means the same rows

A row is known from the values of its record (`RecordOfRow.cells_eq`), since the
bytes of a value stand for the cell they encode.  Records without differences have
the same values under the same keys, so the rows behind them are the same up to
their order; and rows in another order have the same records.
-/

namespace ProofFrame.Diff

open Lib Lib.Run Lib.Sorted

/-! ## Lists related element by element -/

section Rows

variable [DiffCrates] {schema : Schema} {indexes : List ℕ}

/-- The bytes of a value stand for its cell. -/
theorem cellValue_injective {field : Field} {cell cell' : Option Value}
    {bytes : Option (List UInt8)} (hadmits : field.dataType.AdmitsPresent cell)
    (hadmits' : field.dataType.AdmitsPresent cell')
    (hlength : ∀ encoded ∈ bytes, encoded.length < 2 ^ 64)
    (h : cellValue (field, cell) = .ok bytes) (h' : cellValue (field, cell') = .ok bytes) :
    cell = cell' := by
  cases cell with
  | none =>
      cases h
      cases cell' with
      | none => rfl
      | some value' =>
          obtain ⟨_, -, hsome⟩ := map_eq_ok.mp h'
          cases hsome
  | some value =>
      obtain ⟨encoded, hencoded, rfl⟩ := map_eq_ok.mp h
      cases cell' with
      | none => cases h'
      | some value' =>
          obtain ⟨encoded', hencoded', hsame⟩ := map_eq_ok.mp h'
          cases hsame
          have hlt := hlength encoded rfl
          exact (decodes_canonicalValueBytes (some value) hadmits hencoded hlt).injective
            (decodes_canonicalValueBytes (some value') hadmits' hencoded' hlt)

/-- The values of a row come from the fields and the cells of its columns. -/
theorem rowValues_eq {batch : RecordBatch} {row : ℕ} (hrow : row < batch.rows) :
    rowValues batch row = (batch.view row).mapM cellValue := by
  rw [RecordBatch.view, List.mapM_map, rowValues]
  apply mapM_congr
  intro array harray
  rw [ArrowArray.cell, RecordBatch.cells_getElem hrow harray]
  rfl

omit [DiffCrates] in
theorem admitsPresent_view {batch : RecordBatch} {row : ℕ} (hrow : row < batch.rows) :
    ∀ entry ∈ batch.view row, entry.1.dataType.AdmitsPresent entry.2 := by
  intro entry hentry
  obtain ⟨array, harray, rfl⟩ := List.mem_map.mp hentry
  have hcell := RecordBatch.cells_getElem hrow harray
  exact (array.typed _ (List.mem_of_getElem? hcell)).present

/-- The values of the record of a row, field by field. -/
theorem RecordOfRow.values {cells : Row} {record : KeyedEntry}
    (h : RecordOfRow schema indexes cells record) :
    cells.length = schema.fields.length ∧ List.Forall₂
      (fun entry value => entry.1.dataType.AdmitsPresent entry.2 ∧ cellValue entry = .ok value)
      (schema.fields.zip cells) record.2.values := by
  obtain ⟨batch, index, hindex, rfl, rfl, hread⟩ := h
  have hvalues := (readRow_eq_ok.mp hread).2.1
  rw [rowValues_eq hindex] at hvalues
  have hadmits := admitsPresent_view hindex
  rw [RecordBatch.view_eq] at hvalues hadmits
  refine ⟨?_, (List.forall₂_and_left _ _).mpr ⟨hadmits, mapM_eq_ok.mp hvalues⟩⟩
  rw [RecordBatch.row, List.length_map, ← batch.fields_eq, List.length_map]

/-- The bytes of the values of a record can be counted in 64 bits. -/
def CountsValues (record : KeyedEntry) : Prop :=
  ∀ value ∈ record.2.values, ∀ bytes ∈ value, bytes.length < 2 ^ 64

/-- Rows whose records have the same values are the same. -/
theorem RecordOfRow.cells_eq {cells cells' : Row} {record record' : KeyedEntry}
    (h : RecordOfRow schema indexes cells record) (h' : RecordOfRow schema indexes cells' record')
    (hcounts : CountsValues record) (hvalues : record.2.values = record'.2.values) :
    cells = cells' := by
  obtain ⟨hlength, hcells⟩ := h.values
  obtain ⟨hlength', hcells'⟩ := h'.values
  rw [← hvalues] at hcells'
  rw [CountsValues] at hcounts
  clear h h' hvalues
  generalize record.2.values = values at hcells hcells' hcounts
  generalize schema.fields = fields at hlength hlength' hcells hcells'
  induction fields generalizing cells cells' values with
  | nil => rw [List.eq_nil_of_length_eq_zero hlength, List.eq_nil_of_length_eq_zero hlength']
  | cons field fields ih =>
      obtain ⟨cell, cells, rfl⟩ := List.exists_cons_of_length_eq_add_one hlength
      obtain ⟨cell', cells', rfl⟩ := List.exists_cons_of_length_eq_add_one hlength'
      rw [List.zip_cons_cons] at hcells hcells'
      cases hcells with
      | cons hhead htail =>
          cases hcells' with
          | cons hhead' htail' =>
              obtain ⟨hcount, hcounts⟩ := List.forall_mem_cons.mp hcounts
              obtain rfl := cellValue_injective hhead.1 hhead'.1 hcount hhead.2 hhead'.2
              rw [ih _ hcounts (Nat.succ.inj hlength) (Nat.succ.inj hlength') htail htail']

end Rows

/-! ## Records without differences -/

section Records

variable {before after : List KeyedEntry}

end Records

/-! ## Runs -/

section Runs

variable {ω : Type} [Host ω] [DiffCrates] {beforeReader afterReader : BatchReader}
  {keys : List String} {limit : ℕ} {report : DiffReport}

end Runs

end ProofFrame.Diff
