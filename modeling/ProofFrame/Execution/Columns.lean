import Mathlib.Data.List.ReduceOption
import ProofFrame.Execution.Cells
import ProofFrame.Lib.Steps

/-!
# The values of a column

A column of a stream of batches is a list of values, some of them null, under a
reading of its scalars.  How the list is cut into batches is forgotten.
-/

namespace ProofFrame

open Lib Lib.Run

theorem mem_columns_of_column {batch : RecordBatch} {index : ℕ} {array : ArrowArray}
    (h : batch.column index = .ok array) : array ∈ batch.columns := by
  unfold RecordBatch.column at h
  cases hget : batch.columns[index]? with
  | none => simp [hget] at h
  | some found =>
      rw [hget] at h
      cases h
      exact List.mem_of_getElem? hget

variable {α : Type}

/-- The cell holds the value, or both are null. -/
def CellReads (reads : Scalar → α → Prop) : Option Value → Option α → Prop
  | none, none => True
  | some (.scalar scalar), some value => reads scalar value
  | _, _ => False

/-- Batch after batch, the column is of the type and holds the values. -/
inductive Carries (reads : Scalar → α → Prop) (index : ℕ) (dataType : DataType) :
    List RecordBatch → List (Option α) → Prop
  | nil : Carries reads index dataType [] []
  | cons {batch : RecordBatch} {batches : List RecordBatch} {array : ArrowArray}
      {values rest : List (Option α)} (column_eq : batch.column index = .ok array)
      (dataType_eq : array.dataType = dataType)
      (cells : List.Forall₂ (CellReads reads) array.cells values)
      (carries : Carries reads index dataType batches rest) :
      Carries reads index dataType (batch :: batches) (values ++ rest)

/-- The type has a cell for the value. -/
def Holds (reads : Scalar → α → Prop) (dataType : DataType) (value : α) : Prop :=
  ∃ scalar : Scalar, dataType.AdmitsScalar scalar ∧ reads scalar value

variable {reads : Scalar → α → Prop} {index : ℕ} {dataType : DataType}

/-- Where the type holds nothing but values of the measure, a column of it has values. -/
theorem exists_carries {schema : Schema} {field : Field} (hfield : schema.fields[index]? = some field)
    {P : α → Prop}
    (hreads : ∀ value, field.dataType.Admits value →
      ∃ read, CellReads reads (some value) (some read) ∧ P read)
    {batches : List RecordBatch} (hbatches : ∀ batch ∈ batches, batch.schema = schema) :
    ∃ values, Carries reads index field.dataType batches values ∧
      ∀ value ∈ values.reduceOption, P value := by
  induction batches with
  | nil => exact ⟨[], .nil, by simp⟩
  | cons batch batches ih =>
      obtain ⟨rest, hrest, hP⟩ := ih fun batch h => hbatches batch (List.mem_cons_of_mem _ h)
      have hcolumns := batch.fields_eq
      rw [hbatches batch List.mem_cons_self] at hcolumns
      rw [← hcolumns, List.getElem?_map] at hfield
      obtain ⟨array, hget, rfl⟩ := Option.map_eq_some_iff.mp hfield
      have hcells : ∀ cells ⊆ array.cells, ∃ values, List.Forall₂ (CellReads reads) cells values ∧
          ∀ value ∈ values.reduceOption, P value := by
        intro cells hsub
        induction cells with
        | nil => exact ⟨[], .nil, by simp⟩
        | cons cell cells ih =>
            obtain ⟨values, hvalues, hall⟩ := ih (List.cons_subset.mp hsub).2
            have htyped := array.typed cell (List.cons_subset.mp hsub).1
            cases cell with
            | none => exact ⟨none :: values, .cons trivial hvalues, by simpa using hall⟩
            | some value =>
                obtain ⟨read, hread, hPread⟩ := hreads value (by
                  cases hfield : array.field
                  rw [hfield] at htyped
                  exact htyped)
                refine ⟨some read :: values, .cons hread hvalues, ?_⟩
                rw [List.reduceOption_cons_of_some, List.forall_mem_cons]
                exact ⟨hPread, hall⟩
      obtain ⟨values, hvalues, hall⟩ := hcells _ (List.Subset.refl _)
      refine ⟨values ++ rest, .cons ?_ rfl hvalues hrest, ?_⟩
      · rw [RecordBatch.column, hget]
      · intro value hmem
        rw [List.reduceOption_append, List.mem_append] at hmem
        exact hmem.elim (hall value) (hP value)

theorem admits_scalar (hscalar : dataType.isScalar = true) {scalar : Scalar} :
    dataType.Admits (.scalar scalar) ↔ dataType.AdmitsScalar scalar := by
  cases dataType with
  | list | largeList | fixedSizeList | struct | map => exact absurd hscalar (by simp [DataType.isScalar])
  | _ => exact Iff.rfl

/-- What a column carries, its type holds. -/
theorem Carries.holds (hscalar : dataType.isScalar = true) {batches : List RecordBatch}
    {values : List (Option α)} (h : Carries reads index dataType batches values) :
    ∀ value ∈ values.reduceOption, Holds reads dataType value := by
  induction h with
  | nil => simp
  | @cons batch batches array values rest hcolumn hdataType hcells hrest ih =>
      intro value hmem
      rw [List.reduceOption_append, List.mem_append] at hmem
      refine hmem.elim (fun hmem => ?_) (ih value)
      rw [List.reduceOption_mem_iff] at hmem
      obtain ⟨position, hposition, hget⟩ := List.getElem_of_mem hmem
      have hcell : position < array.cells.length := by
        rw [hcells.length_eq]
        exact hposition
      have hreads := hcells.get hcell hposition
      rw [List.get_eq_getElem, List.get_eq_getElem, hget] at hreads
      have htyped := array.typed _ (List.getElem_mem hcell)
      dsimp only at hreads
      generalize array.cells[position] = cell at hreads htyped
      cases hfield : array.field with
      | mk name type nullable metadata =>
      obtain rfl : type = dataType := by rw [← hdataType, ArrowArray.dataType, hfield]; rfl
      rw [hfield] at htyped
      match cell, hreads with
      | some (.scalar scalar), hordered =>
          exact ⟨scalar, (admits_scalar hscalar).mp htyped, hordered⟩

/-- Values that a type holds are carried by some column of it. -/
theorem exists_batches (hscalar : dataType.isScalar = true) (hvalidity : dataType.hasValidity = true)
    {values : List (Option α)} (h : ∀ value ∈ values.reduceOption, Holds reads dataType value)
    (index : ℕ) : ∃ batches, Carries reads index dataType batches values := by
  have hcells : ∃ cells, (∀ cell ∈ cells, (Field.mk "" dataType true []).AdmitsCell cell) ∧
      List.Forall₂ (CellReads reads) cells values := by
    induction values with
    | nil => exact ⟨[], by simp, .nil⟩
    | cons value values ih =>
        cases value with
        | none =>
            obtain ⟨cells, htyped, hreads⟩ := ih (by simpa using h)
            refine ⟨none :: cells, ?_, .cons trivial hreads⟩
            rw [List.forall_mem_cons]
            exact ⟨⟨rfl, hvalidity⟩, htyped⟩
        | some value =>
            rw [List.reduceOption_cons_of_some, List.forall_mem_cons] at h
            obtain ⟨cells, htyped, hreads⟩ := ih h.2
            obtain ⟨scalar, hadmits, hordered⟩ := h.1
            refine ⟨some (.scalar scalar) :: cells, ?_, .cons hordered hreads⟩
            rw [List.forall_mem_cons]
            exact ⟨(admits_scalar hscalar).mpr hadmits, htyped⟩
  obtain ⟨cells, htyped, hreads⟩ := hcells
  let array : ArrowArray := { field := .mk "" dataType true [], cells, typed := htyped }
  let batch : RecordBatch :=
    { schema := { fields := List.replicate (index + 1) array.field, metadata := [] }
      rows := cells.length
      columns := List.replicate (index + 1) array
      fields_eq := by simp
      lengths_eq := by
        intro array hmem
        rw [List.eq_of_mem_replicate hmem]
        rfl }
  refine ⟨[batch], ?_⟩
  rw [← List.append_nil values]
  have hcolumn : batch.column index = .ok array := by simp [RecordBatch.column, batch]
  exact .cons hcolumn rfl hreads .nil

/-! ## Values as they are -/

theorem admitsScalar_of_admits {dataType : DataType} {scalar : Scalar}
    (h : dataType.Admits (.scalar scalar)) : dataType.AdmitsScalar scalar := by
  cases dataType <;> exact h

theorem admitsScalar_of_cell {array : ArrowArray} {scalar : Scalar}
    (h : array.field.AdmitsCell (some (.scalar scalar))) : array.dataType.AdmitsScalar scalar := by
  rw [ArrowArray.dataType]
  cases hfield : array.field
  rw [hfield] at h
  exact admitsScalar_of_admits h

theorem any_isNone_eq {α : Type} {reads : Scalar → α → Prop} {cells : List (Option Value)}
    {values : List (Option α)} (h : List.Forall₂ (CellReads reads) cells values) :
    cells.any Option.isNone = values.any Option.isNone := by
  induction h with
  | nil => rfl
  | @cons cell value _ _ hcell _ ih =>
      rw [List.any_cons, List.any_cons, ih]
      match cell, value, hcell with
      | none, none, _ => rfl
      | some (.scalar _), some _, _ => rfl

/-- What a column carries, its type admits. -/
theorem Carries.admits {index : ℕ} {dataType : DataType} {batches : List RecordBatch}
    {values : List (Option Scalar)} (h : Carries Eq index dataType batches values) :
    ∀ value ∈ values.reduceOption, dataType.AdmitsScalar value := by
  induction h with
  | nil => simp
  | @cons batch batches array values rest hcolumn hdataType hcells _ ih =>
      intro value hmem
      rw [List.reduceOption_append, List.mem_append] at hmem
      refine hmem.elim (fun hmem => ?_) (ih value)
      obtain ⟨cell, hcell, hread⟩ := exists_of_forall₂ hcells.flip (List.reduceOption_mem_iff.mp hmem)
      match cell, hread with
      | some (.scalar _), rfl => exact hdataType ▸ admitsScalar_of_cell (array.typed _ hcell)

end ProofFrame
