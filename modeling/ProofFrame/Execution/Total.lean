import ProofFrame.Execution.Cells
import ProofFrame.Lib.Ieee754.Decimal
import ProofFrame.Validation

/-!
# Totals, statistics and frequencies

The accumulators of the rules over a whole column: exact integer totals,
compensated float totals, running moments, and the frequency of every value.
-/

namespace ProofFrame

open Lib Lib.Ieee754

/-! ## Totals -/

/-- A compensated sum and the low bits it lost. -/
structure Neumaier where
  sum : F64
  compensation : F64
  deriving DecidableEq

namespace Neumaier

def new : Neumaier := ⟨.zero false, .zero false⟩

def add (total : Neumaier) (value : F64) : Neumaier :=
  let next := total.sum.add value
  let lost :=
    if total.sum.abs.ge value.abs then (total.sum.sub next).add value
    else (value.sub next).add total.sum
  { sum := next, compensation := total.compensation.add lost }

def value (total : Neumaier) : F64 := total.sum.add total.compensation

end Neumaier

inductive Total where
  | integer (value : ℤ)
  | float (value : Neumaier)
  deriving DecidableEq

def i128Min : ℤ := -2 ^ 127

def i128Max : ℤ := 2 ^ 127 - 1

namespace Total

def addInteger (total : Total) (value : ℤ) : Except Fault Total :=
  match total with
  | .integer sum =>
      if i128Min ≤ sum + value ∧ sum + value ≤ i128Max then .ok (.integer (sum + value))
      else .error (.error (.corruptData "Column total left the 128-bit integer range"))
  | .float sum => .ok (.float (sum.add (Ieee.ofInt value)))

def addFloat (total : Total) (value : F64) : Total :=
  match total with
  | .integer sum =>
      .integer (max i128Min (min i128Max (sum + value.toIntSat i128Min i128Max)))
  | .float sum => .float (sum.add value)

def describe : Total → String
  | .integer value => toString value
  | .float value => value.value.display

def asFloat : Total → F64
  | .integer value => Ieee.ofInt value
  | .float value => value.value

end Total

/-- An integer cell. -/
def Scalar.integer : Scalar → Option ℤ
  | .signed value => some value
  | .unsigned value => some value
  | _ => none

/-- A float cell, widened. -/
def Scalar.float : Scalar → Option F64
  | .float32 value => some value.convert
  | .float64 value => some value
  | _ => none

/-- A numeric cell as `as f64` gives it. -/
def Scalar.asF64 (scalar : Scalar) : Option F64 :=
  match scalar.integer with
  | some value => some (Ieee.ofInt value)
  | none => scalar.float

/-- A cell of an array a kernel has been matched with. -/
def readCell {α : Type} (read : Scalar → Option α) : Value → Except Fault α
  | .scalar scalar =>
      match read scalar with
      | some a => .ok a
      | none => .error datasetDowncastFailed
  | _ => .error datasetDowncastFailed

/-- Fold the non-null cells in row order. -/
def foldCells {σ : Type} (step : σ → Value → Except Fault σ) (cells : List (Option Value))
    (state : σ) : Except Fault σ :=
  (cells.filterMap id).foldlM step state

section Accumulate

variable [Crates]

/-- Add every non-null value of the array to the total, in row order. -/
def accumulate (total : Total) (kernel : KernelKind) (array : ArrowArray) : Except Fault Total := do
  if kernel.isInteger then
    datasetDowncast kernel array
    foldCells (fun total value => do
      let value ← readCell Scalar.integer value
      total.addInteger value) array.cells total
  else if kernel.isFloat then
    datasetDowncast kernel array
    foldCells (fun total value => do
      let value ← readCell Scalar.float value
      .ok (total.addFloat value)) array.cells total
  else .error (unsupportedType ("total for " ++ Crates.displayType array.dataType))

end Accumulate

def belowMinimum (minimum : String) : String := "below the minimum " ++ minimum

def aboveMaximum (maximum : String) : String := "above the maximum " ++ maximum

/-- Why a float is unacceptable: the minimum is asked first. -/
def floatOutside (value : F64) (minimum maximum : Option F64) : Option String :=
  match minimum.filter value.lt, maximum.filter value.gt with
  | some minimum, _ => some (belowMinimum minimum.display)
  | none, some maximum => some (aboveMaximum maximum.display)
  | none, none => none

/-- Why an integer is unacceptable. -/
def integerOutside (value : ℤ) (minimum maximum : Option ℤ) : Option String :=
  match minimum.filter (value < ·), maximum.filter (value > ·) with
  | some minimum, _ => some (belowMinimum (toString minimum))
  | none, some maximum => some (aboveMaximum (toString maximum))
  | none, none => none

/-- `outside`: why the total is unacceptable, or none when it is inside its bounds. -/
def Total.outside : Total → SumBounds → Option String
  | .integer value, .integer minimum maximum => integerOutside value minimum maximum
  | .float value, .float minimum maximum => floatOutside value.value minimum maximum
  | _, _ => some "not comparable with its declared bounds"

/-! ## Moments -/

/-- Mean and squared distance from it, by Welford's recurrence. -/
structure Moments where
  count : ℕ
  mean : F64
  sumSquares : F64
  deriving DecidableEq

namespace Moments

def new : Moments := ⟨0, .zero false, .zero false⟩

def add (moments : Moments) (value : F64) : Moments :=
  let count := moments.count + 1
  let delta := value.sub moments.mean
  let mean := moments.mean.add (delta.div (Ieee.ofInt count))
  { count, mean, sumSquares := moments.sumSquares.add (delta.mul (value.sub mean)) }

/-- None when the column offered no value. -/
def observedMean (moments : Moments) : Option F64 :=
  if moments.count = 0 then none else some moments.mean

/-- Population standard deviation. -/
def stdDev (moments : Moments) : Option F64 :=
  if moments.count = 0 then none
  else some (moments.sumSquares.div (Ieee.ofInt moments.count)).sqrt

/-- The statistic a rule asks for. -/
def statistic (moments : Moments) : StatisticKind → Option F64
  | .mean => moments.observedMean
  | .stdDev => moments.stdDev

end Moments

/-- `observe`: feed every non-null value of the array to the moments, in row order. -/
def observeMoments [Crates] (moments : Moments) (kernel : KernelKind) (array : ArrowArray) :
    Except Fault Moments := do
  if kernel.isInteger || kernel.isFloat then
    datasetDowncast kernel array
    foldCells (fun moments value => do
      let value ← readCell Scalar.asF64 value
      .ok (moments.add value)) array.cells moments
  else .error (unsupportedType ("statistic for " ++ Crates.displayType array.dataType))

/-! ## Frequencies -/

/-- How often every value of a column occurs, within a memory budget. -/
structure Frequencies where
  counts : List (List UInt8 × ℕ)
  total : ℕ
  budget : ℕ
  used : ℕ

namespace Frequencies

def new (budget : ℕ) : Frequencies := { counts := [], total := 0, budget, used := 0 }

/-- What a key is charged: its bytes, the counter and the overhead of an entry. -/
def cost (key : List UInt8) : ℕ := key.length + 8 + 48

/-- One more occurrence of a key already counted. -/
def increment (key : List UInt8) : List (List UInt8 × ℕ) → List (List UInt8 × ℕ)
  | [] => []
  | (other, count) :: rest =>
      if other = key then (other, count + 1) :: rest else (other, count) :: increment key rest

def add (frequencies : Frequencies) (key : List UInt8) : Except Fault Frequencies :=
  let counted := { frequencies with total := frequencies.total + 1 }
  if counted.counts.any (·.1 = key) then
    .ok { counted with counts := increment key counted.counts }
  else
    let used := counted.used + cost key
    if used > counted.budget then
      .error (.error (.resourceLimit "dominant_value_map" (cost key) used counted.budget))
    else .ok { counted with counts := counted.counts ++ [(key, 1)], used }

/-- The most common value's share, and how many rows it held. -/
def dominant (frequencies : Frequencies) : Option (F64 × ℕ) :=
  if frequencies.total = 0 then none
  else (frequencies.counts.map Prod.snd).max?.map fun top : ℕ =>
    ((Ieee.ofInt top).div (Ieee.ofInt frequencies.total), top)

end Frequencies

/-! ## The rules -/

/-- One total rule and its running accumulator. -/
structure SumState where
  plan : SumPlan
  total : Total

namespace SumState

def new (plan : SumPlan) : SumState :=
  { plan
    total := match plan.bounds with
      | .integer _ _ => .integer 0
      | .float _ _ => .float .new }

def update [Crates] (batch : RecordBatch) (state : SumState) : Except Fault SumState := do
  let array ← batch.column state.plan.columnIndex
  let total ← accumulate state.total state.plan.kernel array
  .ok { state with total }

def finish (state : SumState) : List Finding :=
  match state.total.outside state.plan.bounds with
  | none => []
  | some reason =>
      [⟨"sum", state.plan.column, none,
        s!"Rule `{state.plan.name}` totals " ++ state.total.describe ++ ", which is " ++ reason⟩]

end SumState

/-- One statistic rule and the moments it has accumulated. -/
structure StatisticState where
  plan : StatisticPlan
  moments : Moments

namespace StatisticState

def update [Crates] (batch : RecordBatch) (state : StatisticState) : Except Fault StatisticState := do
  let array ← batch.column state.plan.columnIndex
  let moments ← observeMoments state.moments state.plan.kernel array
  .ok { state with moments }

def finish (state : StatisticState) : List Finding :=
  let plan := state.plan
  let label := plan.kind.label
  match state.moments.statistic plan.kind with
  | none =>
      [⟨label, plan.column, none, s!"Rule `{plan.name}` had no value to take a {label} from"⟩]
  | some observed =>
      match floatOutside observed plan.min plan.max with
      | none => []
      | some reason =>
          [⟨label, plan.column, none,
            s!"Rule `{plan.name}` has {label} " ++ observed.display ++
            s!" over {state.moments.count} value(s), which is " ++ reason⟩]

end StatisticState

/-- Two running totals that must meet. -/
structure BalanceState where
  plan : BalanceEqualPlan
  left : Total
  right : Total

namespace BalanceState

def update [Crates] (batch : RecordBatch) (state : BalanceState) : Except Fault BalanceState := do
  let left ← accumulate state.left state.plan.leftKernel (← batch.column state.plan.left)
  let right ← accumulate state.right state.plan.rightKernel (← batch.column state.plan.right)
  .ok { state with left, right }

def finish (state : BalanceState) : List Finding :=
  let plan := state.plan
  let left := state.left.asFloat
  let right := state.right.asFloat
  if (left.sub right).abs.gt plan.tolerance then
    [⟨"balance_equal", "$dataset", none,
      s!"Rule `{plan.name}` has `{plan.leftColumn}` totalling " ++ left.display ++
      s!" and `{plan.rightColumn}` totalling " ++ right.display⟩]
  else []

end BalanceState

/-- One column's value frequencies. -/
structure DominantState where
  plan : DominantValuePlan
  counts : Frequencies

namespace DominantState

/-- The key of a cell; a null counts as a value the column held. -/
def key [Crates] (array : ArrowArray) : Option Value → Except Fault (List UInt8)
  | none => .ok [0]
  | some value => do
      let bytes ← appendScalar array.dataType value
      .ok (1 :: bytes)

def update [Crates] (batch : RecordBatch) (state : DominantState) : Except Fault DominantState := do
  let array ← batch.column state.plan.columnIndex
  let counts ← array.cells.foldlM (fun counts cell => do
    let key ← key array cell
    counts.add key) state.counts
  .ok { state with counts }

def finish (state : DominantState) : List Finding :=
  let plan := state.plan
  match state.counts.dominant with
  | none => []
  | some (share, rows) =>
      if share.gt plan.max then
        [⟨"max_dominant_value_ratio", plan.column, none,
          s!"Rule `{plan.name}` has one value in {rows} row(s), a share of " ++ share.display ++
          ", above the maximum " ++ plan.max.display⟩]
      else []

end DominantState

end ProofFrame
