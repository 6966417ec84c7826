import ProofFrame.Execution.Meaning
import ProofFrame.Execution.Partition
import ProofFrame.Lib.Parts

/-!
# Row numbers

The rules of columns and of rows look at the cells of a row.  The number of the
row goes into what they record and nowhere else, so in rows that are counted
from somewhere else they find the same, at the rows counted from there.
-/

namespace ProofFrame

open Lib Lib.Run Lib.Ieee754

/-- The event at a row that is counted from the given row. -/
def Event.shift (rowOffset : ℕ) : Event → Event
  | .record finding => .record (finding.shift rowOffset)
  | .insert value row => .insert value (rowOffset + row)

theorem findingsOf_shift (rowOffset : ℕ) (events : List Event) :
    findingsOf (events.map (Event.shift rowOffset)) =
      (findingsOf events).map (Finding.shift rowOffset) := by
  rw [findingsOf, findingsOf, List.filterMap_map, List.map_filterMap]
  congr 1
  funext event
  cases event <;> rfl

/-! ## Rows -/

/-- What happens at a row depends on its number only in what is recorded. -/
def Shifts {ι : Type} (events : ι → ℕ → Except Fault (List Event)) : Prop :=
  ∀ item rowOffset row, events item (rowOffset + row) =
    List.map (Event.shift rowOffset) <$> events item row

theorem collectRows_shift {ι : Type} {events : ι → ℕ → Except Fault (List Event)}
    (h : Shifts events) (items : List ι) (rowOffset row : ℕ) :
    collectRows events items (rowOffset + row) =
      List.map (Event.shift rowOffset) <$> collectRows events items row := by
  have hzip : items.zipIdx (rowOffset + row) =
      (items.zipIdx row).map (Prod.map id (rowOffset + ·)) := by
    induction items generalizing row with
    | nil => rfl
    | cons item items ih =>
        rw [List.zipIdx_cons, List.zipIdx_cons, List.map_cons, ← ih, Nat.add_assoc]
        rfl
  unfold collectRows
  rw [hzip, List.foldlM_map]
  exact collect_map (f := fun entry : ι × ℕ => events entry.1 entry.2)
    (fun entry _ => h entry.1 rowOffset entry.2) []

/-! ## Kernels -/

section Kernels

variable {name : String} {rules : CompiledRules} (rowOffset row : ℕ)

/-- A violation that is recorded where a condition holds. -/
theorem shift_record_if {condition : Prop} [Decidable condition] (rule column message : String) :
    (if condition then [Event.record ⟨rule, column, some (rowOffset + row), message⟩] else []) =
      (if condition then [Event.record ⟨rule, column, some row, message⟩] else []).map
        (Event.shift rowOffset) := by
  split <;> rfl

theorem recordRange_shift {α : Type} [PartialOrd α] (value : α) (minimum maximum : Option α) :
    recordRange value minimum maximum name (rowOffset + row) =
      (recordRange value minimum maximum name row).map (Event.shift rowOffset) := by
  unfold recordRange
  rw [List.map_append, shift_record_if, shift_record_if]

theorem scanFloat_shift {eb mb : ℕ} (minimum maximum : Option (Ieee eb mb)) (value : Ieee eb mb) :
    scanFloat name rules minimum maximum value (rowOffset + row) =
      (scanFloat name rules minimum maximum value row).map (Event.shift rowOffset) := by
  unfold scanFloat
  rw [List.map_append]
  congr 1
  split
  · exact shift_record_if rowOffset row _ _ _
  · exact recordRange_shift rowOffset row value minimum maximum

theorem checkLength_shift (value : String) :
    checkLength rules name (rowOffset + row) value =
      (checkLength rules name row value).map (Event.shift rowOffset) := by
  unfold checkLength
  dsimp only
  rw [List.map_append, shift_record_if, shift_record_if]

end Kernels

section CellKernels

variable {name : String} {rules : CompiledRules}

/-- A kernel that reads its bounds first. -/
theorem shifts_bounded {α : Type} {bound : Option TypedBound → Except Fault (Option α)}
    {body : Option α → Option α → CellKernel} {kernel : CellKernel}
    (hbody : ∀ minimum maximum, Shifts (body minimum maximum))
    (h : (do
      let minimum ← bound rules.min
      let maximum ← bound rules.max
      .ok (body minimum maximum)) = .ok kernel) : Shifts kernel := by
  obtain ⟨minimum, -, h⟩ := bind_eq_ok.mp h
  obtain ⟨maximum, -, h⟩ := bind_eq_ok.mp h
  cases h
  exact hbody minimum maximum

/-- What a kernel of numbers does at a cell. -/
theorem shift_ordered {α : Type} [PartialOrd α] (value : α) (minimum maximum : Option α)
    (inserted : Distinct.OwnedValue) (rowOffset row : ℕ) :
    (Except.ok (recordRange value minimum maximum name (rowOffset + row) ++
        [.insert inserted (rowOffset + row)]) : Except Fault (List Event)) =
      List.map (Event.shift rowOffset) <$>
        .ok (recordRange value minimum maximum name row ++ [.insert inserted row]) := by
  rw [recordRange_shift]
  show _ = Except.ok (List.map _ _)
  rw [List.map_append]
  rfl

theorem shifts_scanSignedKernel {kernel : CellKernel}
    (h : scanSignedKernel name rules = .ok kernel) : Shifts kernel := by
  refine shifts_bounded (fun minimum maximum value rowOffset row => ?_) h
  split
  · exact shift_ordered _ minimum maximum _ rowOffset row
  · rfl

theorem shifts_scanUnsignedKernel {kernel : CellKernel}
    (h : scanUnsignedKernel name rules = .ok kernel) : Shifts kernel := by
  refine shifts_bounded (fun minimum maximum value rowOffset row => ?_) h
  split
  · exact shift_ordered _ minimum maximum _ rowOffset row
  · rfl

theorem shifts_scanTimestampKernel {kernel : CellKernel}
    (h : scanTimestampKernel name rules = .ok kernel) : Shifts kernel := by
  refine shifts_bounded (fun minimum maximum value rowOffset row => ?_) h
  split
  · exact shift_ordered _ minimum maximum _ rowOffset row
  · rfl

theorem shifts_scanDecimalKernel {kernel : CellKernel}
    (h : scanDecimalKernel name rules = .ok kernel) : Shifts kernel := by
  refine shifts_bounded (fun minimum maximum value rowOffset row => ?_) h
  split
  · exact shift_ordered _ minimum maximum _ rowOffset row
  · rfl

theorem shifts_scanFloat32Kernel {kernel : CellKernel}
    (h : scanFloat32Kernel name rules = .ok kernel) : Shifts kernel := by
  refine shifts_bounded (fun minimum maximum value rowOffset row => ?_) h
  split
  · exact congrArg Except.ok (scanFloat_shift rowOffset row minimum maximum _)
  · rfl

theorem shifts_scanFloat64Kernel {kernel : CellKernel}
    (h : scanFloat64Kernel name rules = .ok kernel) : Shifts kernel := by
  refine shifts_bounded (fun minimum maximum value rowOffset row => ?_) h
  split
  · exact congrArg Except.ok (scanFloat_shift rowOffset row minimum maximum _)
  · rfl

theorem shifts_scanBooleanKernel : Shifts scanBooleanKernel := by
  intro value rowOffset row
  unfold scanBooleanKernel
  split <;> rfl

theorem shifts_scanBinary : Shifts scanBinary := by
  intro value rowOffset row
  unfold scanBinary
  split <;> rfl

variable [Crates]

theorem shifts_scanStrings : Shifts (scanStrings name rules) := by
  intro value rowOffset row
  unfold scanStrings
  split
  · rw [checkLength_shift, shift_record_if, shift_record_if]
    show Except.ok _ = Except.ok (List.map _ _)
    rw [List.map_append, List.map_append, List.map_append]
    rfl
  · rfl

theorem shifts_scanFallback {dataType : DataType} {unique : Bool} :
    Shifts (scanFallback dataType unique) := by
  intro value rowOffset row
  unfold scanFallback
  cases unique with
  | false => rfl
  | true =>
      cases canonicalValueBytes dataType (some value) with
      | error => rfl
      | ok encoded => rfl

theorem ColumnPlan.shifts_cellKernel {plan : ColumnPlan} {dataType : DataType} {unique : Bool}
    {kernel : CellKernel} (h : plan.cellKernel dataType unique = .ok kernel) : Shifts kernel := by
  unfold ColumnPlan.cellKernel at h
  dsimp only at h
  cases hkernel : plan.kernel <;> rw [hkernel] at h
  case i8 | i16 | i32 | i64 | date32 | date64 => exact shifts_scanSignedKernel h
  case u8 | u16 | u32 | u64 => exact shifts_scanUnsignedKernel h
  case f32 => exact shifts_scanFloat32Kernel h
  case f64 => exact shifts_scanFloat64Kernel h
  case timestamp => exact shifts_scanTimestampKernel h
  case decimal128 => exact shifts_scanDecimalKernel h
  all_goals cases h
  case boolean => exact shifts_scanBooleanKernel
  case utf8 | largeUtf8 | utf8View => exact shifts_scanStrings
  case binary | largeBinary | binaryView => exact shifts_scanBinary
  case nested | nullOnly => exact shifts_scanFallback

omit [Crates] in
theorem ColumnPlan.shifts_cellEvents {plan : ColumnPlan} {kernel : CellKernel}
    (h : Shifts kernel) : Shifts (plan.cellEvents kernel) := by
  intro cell rowOffset row
  cases cell with
  | none => exact congrArg Except.ok (shift_record_if rowOffset row _ _ _)
  | some value => exact h value rowOffset row

/-- The rules of a column, over rows counted from somewhere else. -/
theorem ColumnPlan.events_shift (plan : ColumnPlan) (array : ArrowArray) (unique : Bool)
    (rowOffset row : ℕ) :
    plan.events array unique (rowOffset + row) =
      List.map (Event.shift rowOffset) <$> plan.events array unique row := by
  unfold ColumnPlan.events
  cases hkernel : plan.prepare array unique with
  | error => rfl
  | ok kernel =>
      have hshifts : Shifts kernel := ColumnPlan.shifts_cellKernel (cellKernel_of_prepare hkernel)
      exact collectRows_shift (ColumnPlan.shifts_cellEvents hshifts) array.cells rowOffset row

end CellKernels

/-! ## Row rules -/

section RowRules

variable {column ruleName : String}

theorem scanAssertionRange_shift {α : Type} [PartialOrd α] (value : α) (minimum maximum : Option α)
    (rowOffset row : ℕ) :
    scanAssertionRange column ruleName (rowOffset + row) value minimum maximum =
      (scanAssertionRange column ruleName row value minimum maximum).map
        (Event.shift rowOffset) := by
  unfold scanAssertionRange recordConditional
  rw [List.map_append, shift_record_if, shift_record_if]

theorem scanFloatAssertion_shift {eb mb : ℕ} (rules : CompiledRules) (value : Ieee eb mb)
    (minimum maximum : Option (Ieee eb mb)) (rowOffset row : ℕ) :
    scanFloatAssertion column ruleName (rowOffset + row) rules value minimum maximum =
      (scanFloatAssertion column ruleName row rules value minimum maximum).map
        (Event.shift rowOffset) := by
  unfold scanFloatAssertion
  split
  · exact shift_record_if rowOffset row _ _ _
  · exact scanAssertionRange_shift value minimum maximum rowOffset row

variable [Crates]

theorem scanTextAssertion_shift (rules : CompiledRules) (value : String) (rowOffset row : ℕ) :
    scanTextAssertion column ruleName (rowOffset + row) rules value =
      (scanTextAssertion column ruleName row rules value).map (Event.shift rowOffset) := by
  unfold scanTextAssertion recordConditional
  rw [List.map_append, shift_record_if, shift_record_if]

omit [Crates] in
/-- An assertion that reads its bounds first. -/
theorem shift_bounded {α : Type} {bound : Option TypedBound → Except Fault (Option α)}
    {rules : CompiledRules} {shifted events : Option α → Option α → List Event} {rowOffset : ℕ}
    (hevents : ∀ minimum maximum, shifted minimum maximum =
      (events minimum maximum).map (Event.shift rowOffset)) :
    (do .ok (shifted (← bound rules.min) (← bound rules.max)) : Except Fault (List Event)) =
      List.map (Event.shift rowOffset) <$>
        (do .ok (events (← bound rules.min) (← bound rules.max))) := by
  cases bound rules.min with
  | error => rfl
  | ok minimum =>
      cases bound rules.max with
      | error => rfl
      | ok maximum => exact congrArg Except.ok (hevents minimum maximum)

theorem scanAssertionValue_shift (kernel : KernelKind) (rules : CompiledRules) (value : Scalar)
    (rowOffset row : ℕ) :
    scanAssertionValue column ruleName (rowOffset + row) kernel rules value =
      List.map (Event.shift rowOffset) <$>
        scanAssertionValue column ruleName row kernel rules value := by
  cases value with
  | signed value =>
      cases kernel
      case i8 | i16 | i32 | i64 | date32 | date64 =>
        exact shift_bounded fun minimum maximum =>
          scanAssertionRange_shift value minimum maximum rowOffset row
      case timestamp =>
        exact shift_bounded fun minimum maximum =>
          scanAssertionRange_shift value minimum maximum rowOffset row
      all_goals rfl
  | unsigned value =>
      cases kernel
      case u8 | u16 | u32 | u64 =>
        exact shift_bounded fun minimum maximum =>
          scanAssertionRange_shift value minimum maximum rowOffset row
      all_goals rfl
  | float32 value =>
      cases kernel
      case f32 =>
        exact shift_bounded fun minimum maximum =>
          scanFloatAssertion_shift rules value minimum maximum rowOffset row
      all_goals rfl
  | float64 value =>
      cases kernel
      case f64 =>
        exact shift_bounded fun minimum maximum =>
          scanFloatAssertion_shift rules value minimum maximum rowOffset row
      all_goals rfl
  | decimal value =>
      cases kernel
      case decimal128 =>
        exact shift_bounded fun minimum maximum =>
          scanAssertionRange_shift value minimum maximum rowOffset row
      all_goals rfl
  | text value =>
      cases kernel
      case utf8 | largeUtf8 | utf8View =>
        exact congrArg Except.ok (scanTextAssertion_shift rules value rowOffset row)
      all_goals rfl
  | boolean | binary => cases kernel <;> rfl

theorem scanAssertionRow_shift (kernel : KernelKind) (rules : CompiledRules) (array : ArrowArray)
    (cell : Option Value) (rowOffset row : ℕ) :
    scanAssertionRow column ruleName (rowOffset + row) kernel rules array cell =
      List.map (Event.shift rowOffset) <$>
        scanAssertionRow column ruleName row kernel rules array cell := by
  cases cell with
  | none => exact congrArg Except.ok (shift_record_if rowOffset row _ _ _)
  | some value =>
      unfold scanAssertionRow
      dsimp only
      split
      any_goals rfl
      -- the kernels that read their values
      cases downcast kernel array with
      | error => rfl
      | ok =>
          cases value with
          | scalar scalar => exact scanAssertionValue_shift kernel rules scalar rowOffset row
          | _ => rfl

theorem RowPlan.shifts_prepare {plan : RowPlan} {batch : RecordBatch}
    {prepared : List (Option Bool × ℕ) × (Option Bool × ℕ → ℕ → Except Fault (List Event))}
    (h : plan.prepare batch = .ok prepared) : Shifts prepared.2 := by
  unfold RowPlan.prepare at h
  split at h
  · obtain ⟨outcomes, -, h⟩ := bind_eq_ok.mp h
    cases h
    intro outcome rowOffset row
    exact congrArg Except.ok (shift_record_if rowOffset row _ _ _)
  · obtain ⟨target, -, h⟩ := bind_eq_ok.mp h
    obtain ⟨outcomes, -, h⟩ := bind_eq_ok.mp h
    cases h
    intro outcome rowOffset row
    dsimp only
    unfold conditionalEvents
    by_cases hguard : outcome.1 = some true
    · rw [if_pos hguard, if_pos hguard]
      cases target.cell outcome.2 with
      | error => rfl
      | ok cell => exact scanAssertionRow_shift _ _ _ cell rowOffset row
    · rw [if_neg hguard, if_neg hguard]
      rfl

/-- A row rule, over rows counted from somewhere else. -/
theorem RowPlan.events_shift (plan : RowPlan) (batch : RecordBatch) (rowOffset row : ℕ) :
    plan.events batch (rowOffset + row) =
      List.map (Event.shift rowOffset) <$> plan.events batch row := by
  unfold RowPlan.events
  cases hprepared : plan.prepare batch with
  | error => rfl
  | ok prepared => exact collectRows_shift (RowPlan.shifts_prepare hprepared) _ rowOffset row

end RowRules

end ProofFrame
