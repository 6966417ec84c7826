import ProofFrame.Execution.Columns
import ProofFrame.Execution.SplitStates
import ProofFrame.Lib.Steps

/-!
# Runs over a column

A rule that goes through a column cell by cell, with a state that is determined by
the values it has seen: what a step does to the state, the batches do.
-/

namespace ProofFrame

open Lib Lib.Run

variable {α σ : Type}

/-- What the steps record of the values, each behind those seen before it. -/
def recorded (record : List (Option α) → Option α → List Finding) :
    List (Option α) → List (Option α) → List Finding
  | _, [] => []
  | seen, value :: values => record seen value ++ recorded record (seen ++ [value]) values

/-- The rule goes through batches. -/
def observeAll (observe : σ → RecordBatch → ℕ → Except Fault (σ × List Finding)) :
    List RecordBatch → ℕ → σ → Except Fault (σ × List Finding)
  | [], _, state => .ok (state, [])
  | batch :: batches, rowOffset, state => do
      let (state, found) ← observe state batch rowOffset
      let (state, more) ← observeAll observe batches (rowOffset + batch.rows) state
      .ok (state, found ++ more)

theorem recorded_append (record : List (Option α) → Option α → List Finding)
    (seen values more : List (Option α)) :
    recorded record seen (values ++ more) =
      recorded record seen values ++ recorded record (seen ++ values) more := by
  induction values generalizing seen with
  | nil => rw [List.append_nil]; rfl
  | cons value values ih =>
      rw [List.cons_append, recorded, recorded, ih, List.append_assoc, List.append_assoc]
      rfl

variable {reads : Scalar → α → Prop} {after : List (Option α) → σ}
  {record : List (Option α) → Option α → List Finding}

/-- The cells of a batch take the state of the values before it to the state with its own. -/
theorem observeCells_after {step : σ → Option Value → ℕ → Except Fault (σ × List Finding)}
    (hstep : ∀ seen cell value, CellReads reads cell value →
      step (after seen) cell seen.length = .ok (after (seen ++ [value]), record seen value))
    {cells : List (Option Value)} {values : List (Option α)}
    (hcells : List.Forall₂ (CellReads reads) cells values) (seen : List (Option α)) :
    observeCells step cells seen.length (after seen) =
      .ok (after (seen ++ values), recorded record seen values) := by
  induction hcells generalizing seen with
  | nil =>
      rw [List.append_nil]
      rfl
  | @cons cell value cells values hcell _ ih =>
      have hrest := ih (seen ++ [value])
      rw [List.length_append, List.length_singleton, List.append_assoc] at hrest
      have hfirst : observeCells step [cell] seen.length (after seen) =
          .ok (after (seen ++ [value]), record seen value) := by
        simp only [observeCells, List.zipIdx_singleton, List.foldlM_cons, List.foldlM_nil,
          hstep seen cell value hcell]
        rfl
      have hcons : cell :: cells = [cell] ++ cells := rfl
      rw [hcons, observeCells_append, hfirst]
      show (observeCells _ _ _ _ >>= _) = _
      rw [List.length_singleton, hrest]
      rfl

/-- The batches take the state of the values before them to the state with their own. -/
theorem observeAll_after {observe : σ → RecordBatch → ℕ → Except Fault (σ × List Finding)}
    {step : ArrowArray → σ → Option Value → ℕ → Except Fault (σ × List Finding)} {index : ℕ}
    {dataType : DataType}
    (hobserve : ∀ seen batch rowOffset, observe (after seen) batch rowOffset =
      batch.column index >>= fun array => observeCells (step array) array.cells rowOffset (after seen))
    (hstep : ∀ array seen cell value, array.dataType = dataType → CellReads reads cell value →
      step array (after seen) cell seen.length = .ok (after (seen ++ [value]), record seen value))
    {batches : List RecordBatch} {values : List (Option α)}
    (hcarries : Carries reads index dataType batches values) (seen : List (Option α)) :
    observeAll observe batches seen.length (after seen) =
      .ok (after (seen ++ values), recorded record seen values) := by
  induction hcarries generalizing seen with
  | nil =>
      rw [List.append_nil]
      rfl
  | @cons batch batches array values rest hcolumn hdataType hcells _ ih =>
      have hfirst : observe (after seen) batch seen.length =
          .ok (after (seen ++ values), recorded record seen values) := by
        rw [hobserve, hcolumn, ok_bind]
        exact observeCells_after (fun seen cell value => hstep array seen cell value hdataType)
          hcells seen
      have hrows : batch.rows = values.length := by
        rw [← hcells.length_eq]
        exact (batch.lengths_eq array (mem_columns_of_column hcolumn)).symm
      rw [observeAll, hfirst, hrows, ← List.length_append, ok_bind]
      dsimp only
      rw [ih (seen ++ values), ok_bind, recorded_append, List.append_assoc]

end ProofFrame
