import ProofFrame.Execution.Cells
import ProofFrame.Validation

/-!
# Mutual exclusion

Presence bitmaps, combined column by column: `twice` marks the rows with two or
more values, `once` those with at least one.
-/

namespace ProofFrame

/-- The rows the validity bitmap of a column marks as present. -/
def presentRows (array : ArrowArray) : List Bool := array.cells.map Option.isSome

/-- `violations`: the rows of the batch that break the rule, as a bitmap. -/
def exclusiveViolations (plan : MutuallyExclusivePlan) (batch : RecordBatch) :
    Except Fault (List Bool) := do
  let unset := List.replicate batch.rows false
  let (once, twice) ← plan.columns.foldlM (fun (once, twice) index => do
    let column ← batch.column index
    let present := presentRows column
    .ok (List.zipWith or once present,
      List.zipWith or twice (List.zipWith and once present))) (unset, unset)
  .ok (match plan.mode with
    | .atMostOne => twice
    | .exactlyOne => List.zipWith or twice (once.map not))

/-- The names of the rule's columns that the row fills. -/
def filledColumns (plan : MutuallyExclusivePlan) (batch : RecordBatch) (row : ℕ) :
    Except Fault (List String) := do
  let filled ← (plan.columns.zip plan.names).mapM fun (index, name) => do
    let column ← batch.column index
    let cell ← column.cell row
    .ok (if cell.isSome then some name else none)
  .ok (filled.filterMap id)

/-- What the rule says about a row that breaks it. -/
def exclusiveMessage (plan : MutuallyExclusivePlan) (filled : List String) : String :=
  let names := ", ".intercalate filled
  match plan.mode with
  | .atMostOne =>
      s!"Rule `{plan.name}` allows at most one of its columns; this row fills {names}"
  | .exactlyOne =>
      if filled.isEmpty then
        s!"Rule `{plan.name}` needs exactly one of its columns; this row fills none"
      else s!"Rule `{plan.name}` needs exactly one of its columns; this row fills {names}"

/-- The violations of a rule in a batch. -/
def exclusiveFindings (plan : MutuallyExclusivePlan) (batch : RecordBatch) (rowOffset : ℕ) :
    Except Fault (List Finding) := do
  let broken ← exclusiveViolations plan batch
  let rows := (broken.zipIdx.filter Prod.fst).map Prod.snd
  rows.mapM fun row => do
    let filled ← filledColumns plan batch row
    .ok ⟨"mutually_exclusive", "$dataset", some (rowOffset + row), exclusiveMessage plan filled⟩

end ProofFrame
