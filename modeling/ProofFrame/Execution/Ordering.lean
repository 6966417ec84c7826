import ProofFrame.Execution.Cells
import ProofFrame.Lib.Ieee754.Decimal
import ProofFrame.Validation

/-!
# Ordering and step rules

One value of state per rule, compared with the value before it.
-/

namespace ProofFrame

open Lib Lib.Ieee754

/-- A value compared by its own order rather than by its encoding. -/
inductive Ordered where
  | int (value : ℤ)
  | uint (value : ℕ)
  | float (value : F64)
  | text (value : List UInt8)
  deriving DecidableEq

namespace Ordered

def compare : Ordered → Ordered → Option Ordering
  | .int left, .int right => some (Ord.compare left right)
  | .uint left, .uint right => some (Ord.compare left right)
  | .float left, .float right => some (left.totalCmp right)
  | .text left, .text right => some (compareOfLessAndEq left right)
  | _, _ => none

end Ordered

/-- The kernels whose values have an order. -/
def KernelKind.isOrdered : KernelKind → Bool
  | .binary | .largeBinary | .binaryView | .nested | .nullOnly => false
  | _ => true

/-- The value in the order the rules compare it. -/
def Scalar.ordered : Scalar → Option Ordered
  | .boolean value => some (.uint (if value then 1 else 0))
  | .signed value | .decimal value => some (.int value)
  | .unsigned value => some (.uint value)
  | .float32 value => some (.float value.convert)
  | .float64 value => some (.float value)
  | .text value => some (.text (utf8Bytes value))
  | .binary _ => none

/-- `ordered_value`, on a non-null cell. -/
def orderedValue [Crates] (kernel : KernelKind) (array : ArrowArray) (value : Value) :
    Except Fault Ordered := do
  if kernel.isOrdered then
    datasetDowncast kernel array
    match value with
    | .scalar scalar =>
        match scalar.ordered with
        | some ordered => .ok ordered
        | none => .error datasetDowncastFailed
    | _ => .error datasetDowncastFailed
  else .error (unsupportedType ("monotonicity for " ++ Crates.displayType array.dataType))

/-- Whether `next` may follow `previous` under `direction`. -/
def follows (direction : MonotonicDirectionAst) (previous next : Ordered) : Except Fault Bool :=
  match previous.compare next with
  | none => .error (.error (.corruptData "Monotonicity compared two different value kinds"))
  | some ordering => .ok (match direction with
      | .increasing => ordering = .lt ∨ ordering = .eq
      | .strictlyIncreasing => ordering = .lt
      | .decreasing => ordering = .gt ∨ ordering = .eq
      | .strictlyDecreasing => ordering = .gt)

def MonotonicDirectionAst.describe : MonotonicDirectionAst → String
  | .increasing => "must not decrease"
  | .strictlyIncreasing => "must increase"
  | .decreasing => "must not increase"
  | .strictlyDecreasing => "must decrease"

/-- The distance between two values, in the column's own units. -/
def Ordered.distance : Ordered → Ordered → Option F64
  | .int left, .int right => some (Ieee.ofInt (right - left))
  | .uint left, .uint right => some ((Ieee.ofInt right).sub (Ieee.ofInt left))
  | .float left, .float right => some (right.sub left)
  | _, _ => none

/-- Go through cells with a state, collecting what each step records. -/
def observeCells {σ : Type} (step : σ → Option Value → ℕ → Except Fault (σ × List Finding))
    (cells : List (Option Value)) (rowOffset : ℕ) (state : σ) : Except Fault (σ × List Finding) :=
  (cells.zipIdx rowOffset).foldlM (fun (state, findings) (cell, row) => do
    let (next, more) ← step state cell row
    .ok (next, findings ++ more)) (state, [])

/-! ## Monotonicity -/

/-- One ordering rule and the last value it accepted. -/
structure OrderingState where
  plan : MonotonicityPlan
  previous : Option Ordered

namespace OrderingState

variable [Crates]

def record (state : OrderingState) (row : ℕ) (message : String) : Finding :=
  ⟨"monotonicity", state.plan.column, some row, message⟩

def observeCell (state : OrderingState) (array : ArrowArray) (cell : Option Value) (row : ℕ) :
    Except Fault (OrderingState × List Finding) := do
  match cell with
  | none =>
      -- a null has no place in an order, and the previous value stays
      .ok (state, if state.plan.nulls = .reject then
        [state.record row s!"Rule `{state.plan.name}` rejects null values"] else [])
  | some value =>
      let next ← orderedValue state.plan.kernel array value
      let inOrder ← (match state.previous with
        | some previous => follows state.plan.direction previous next
        | none => .ok true)
      .ok ({ state with previous := some next }, if inOrder then [] else
        [state.record row (s!"Rule `{state.plan.name}` " ++ state.plan.direction.describe ++
          " but this row is out of order")])

def observe (state : OrderingState) (batch : RecordBatch) (rowOffset : ℕ) :
    Except Fault (OrderingState × List Finding) := do
  let array ← batch.column state.plan.columnIndex
  observeCells (observeCell · array) array.cells rowOffset state

end OrderingState

/-! ## Gap detection -/

/-- One step rule, the last value it saw, and how many gaps it has counted. -/
structure GapState where
  plan : GapDetectionPlan
  previous : Option Ordered
  gaps : ℕ
  firstRow : Option ℕ

namespace GapState

/-- Whether a step is longer than the rule allows. -/
def isGap (plan : GapDetectionPlan) (step : F64) : Bool :=
  step.gt (plan.expectedStep.add plan.tolerance)

/-- The distance from the last value, where there is one. -/
def stepFrom (previous : Option Ordered) (next : Ordered) : Except Fault (Option F64) :=
  match previous with
  | none => .ok none
  | some previous =>
      match previous.distance next with
      | some step => .ok (some step)
      | none => .error (.error (.corruptData "Gap detection compared two different value kinds"))

variable [Crates]

def observeCell (state : GapState) (array : ArrowArray) (cell : Option Value) (row : ℕ) :
    Except Fault (GapState × List Finding) := do
  match cell with
  | none =>
      .ok (state, if state.plan.nulls = .reject then
        [⟨"gap_detection", state.plan.column, some row,
          s!"Rule `{state.plan.name}` rejects null values"⟩] else [])
  | some value =>
      let next ← orderedValue state.plan.kernel array value
      let step ← stepFrom state.previous next
      let counted := if step.any (isGap state.plan) then
        { state with gaps := state.gaps + 1, firstRow := state.firstRow.or (some row) } else state
      .ok ({ counted with previous := some next }, [])

def observe (state : GapState) (batch : RecordBatch) (rowOffset : ℕ) :
    Except Fault (GapState × List Finding) := do
  let array ← batch.column state.plan.columnIndex
  observeCells (observeCell · array) array.cells rowOffset state

def finish (state : GapState) : List Finding :=
  if state.gaps ≤ state.plan.maxGaps then [] else
    [⟨"gap_detection", state.plan.column, state.firstRow,
      s!"Rule `{state.plan.name}` found {state.gaps} step(s) longer than " ++
      state.plan.expectedStep.display ++ " " ++ state.plan.unit ++
      " (allowed " ++ toString state.plan.maxGaps ++ ")"⟩]

end GapState

end ProofFrame
