import ProofFrame.Contract.CompileDataset
import ProofFrame.Execution.KeyTuples
import ProofFrame.Execution.SplitStates

/-!
# Mutual exclusion is counting

Two bitmaps stand for the number of columns that fill a row: whether it is at least
one, and whether it is at least two.  A column more is counted by the position of
its name in the rule, however often the name occurs.
-/

namespace ProofFrame

open Lib Lib.Run

/-- The row has a value in the column of the name. -/
def RecordBatch.fills (batch : RecordBatch) (row : ℕ) (name : String) : Bool :=
  ((batch.schema.indexOf name).bind fun index =>
    batch.columns[index]?.bind fun array => array.cells[row]?).join.isSome

variable {batch : RecordBatch}

/-- What the bitmaps say about the columns they have seen. -/
structure Marked (batch : RecordBatch) (seen : List String) (marks : List Bool × List Bool) :
    Prop where
  once_eq : marks.1 = (List.range batch.rows).map fun row => decide (1 ≤ seen.countP (batch.fills row))
  twice_eq : marks.2 = (List.range batch.rows).map fun row => decide (2 ≤ seen.countP (batch.fills row))

/-- A column of the batch next to its name. -/
def NamesColumn (batch : RecordBatch) (name : String) (index : ℕ) : Prop :=
  batch.schema.indexOf name = some index ∧ ∃ array, batch.columns[index]? = some array

theorem NamesColumn.exists_presentRows {name : String} {index : ℕ} (h : NamesColumn batch name index) :
    ∃ array, batch.column index = .ok array ∧
      presentRows array = (List.range batch.rows).map (batch.fills · name) := by
  obtain ⟨hname, array, hcolumn⟩ := h
  refine ⟨array, column_eq_ok.mpr hcolumn, ?_⟩
  have hlength : array.cells.length = batch.rows :=
    batch.lengths_eq array (List.mem_of_getElem? hcolumn)
  apply List.ext_getElem
  · simp [presentRows, hlength]
  · intro row hrow _
    have hlt : row < array.cells.length := by simpa [presentRows] using hrow
    simp [presentRows, RecordBatch.fills, hname, hcolumn, List.getElem?_eq_getElem hlt]

/-- A column more takes the bitmaps of the columns before it to those with it. -/
theorem Marked.markColumn {seen : List String} {marks : List Bool × List Bool}
    (h : Marked batch seen marks) {name : String} {index : ℕ} (hname : NamesColumn batch name index) :
    ∃ marks', ProofFrame.markColumn batch marks index = .ok marks' ∧
      Marked batch (seen ++ [name]) marks' := by
  obtain ⟨array, hcolumn, hpresent⟩ := hname.exists_presentRows
  refine ⟨_, by rw [ProofFrame.markColumn, hcolumn, ok_bind], ?_, ?_⟩
  · rw [h.once_eq, hpresent]
    apply List.ext_getElem
    · simp
    · intro row _ _
      cases hfills : batch.fills row name <;> simp [hfills, List.countP_append]
  · rw [h.twice_eq, h.once_eq, hpresent]
    apply List.ext_getElem
    · simp
    · intro row _ _
      cases hfills : batch.fills row name
      · simp [hfills, List.countP_append]
      · simp only [List.getElem_zipWith, List.getElem_map, List.getElem_range, hfills,
          List.countP_append, List.countP_singleton, if_true, Bool.and_true]
        rw [← Bool.decide_or, decide_eq_decide]
        omega

/-- The bitmaps of all the columns of a rule. -/
theorem Marked.foldlM {names : List String} {indexes : List ℕ}
    (hnames : List.Forall₂ (NamesColumn batch) names indexes) :
    ∀ {seen : List String} {marks : List Bool × List Bool}, Marked batch seen marks →
      ∃ marks', indexes.foldlM (ProofFrame.markColumn batch) marks = .ok marks' ∧
        Marked batch (seen ++ names) marks' := by
  induction hnames with
  | nil =>
      intro seen marks h
      rw [List.append_nil]
      exact ⟨marks, rfl, h⟩
  | @cons name index names indexes hname _ ih =>
      intro seen marks h
      obtain ⟨next, hnext, hmarked⟩ := h.markColumn hname
      obtain ⟨last, hlast, hall⟩ := ih hmarked
      rw [List.append_assoc] at hall
      exact ⟨last, by rw [List.foldlM_cons, hnext, ok_bind, hlast], hall⟩

theorem Marked.start : Marked batch []
    (List.replicate batch.rows false, List.replicate batch.rows false) := by
  constructor <;> simp [List.map_const']

end ProofFrame
