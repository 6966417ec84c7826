import ProofFrame.Execution.Kernels

/-!
# Row rules

Comparisons between two operands of a row, and conditional assertions on the
rows a comparison selects.  A predicate gives one outcome per row: none where
the null policy skips the row.
-/

namespace ProofFrame

open Lib Lib.Run Lib.Ieee754

/-! ## Comparison -/

def nullOutcome (leftNull rightNull : Bool) (plan : ComparePlan) : Option Bool :=
  match plan.nulls with
  | .skip => none
  | .fail => some false
  | .equal => some (match plan.op with
      | .eq => leftNull && rightNull
      | .ne => leftNull != rightNull
      | .lt | .lte | .gt | .gte => false)

/-- `compare`. -/
def compareValues {α : Type} [PartialOrd α] (left right : α) (op : CompareOpAst) : Bool :=
  match op with
  | .eq => PartialOrd.eq left right
  | .ne => PartialOrd.ne left right
  | .lt => PartialOrd.lt left right
  | .lte => PartialOrd.le left right
  | .gt => PartialOrd.gt left right
  | .gte => PartialOrd.ge left right

/-- `compare` at the type both cells have. -/
def compareScalars (op : CompareOpAst) : Scalar → Scalar → Except Fault Bool
  | .boolean left, .boolean right => .ok (compareValues left right op)
  | .signed left, .signed right => .ok (compareValues left right op)
  | .unsigned left, .unsigned right => .ok (compareValues left right op)
  | .float32 left, .float32 right => .ok (compareValues left right op)
  | .float64 left, .float64 right => .ok (compareValues left right op)
  | .decimal left, .decimal right => .ok (compareValues left right op)
  | .text left, .text right => .ok (compareValues left right op)
  | _, _ => .error downcastFailed

/-- The outcome of a row, from the cells of its two operands. -/
def compareCells (plan : ComparePlan) : Option Value → Option Value → Except Fault (Option Bool)
  | some (.scalar left), some (.scalar right) => do
      let outcome ← compareScalars plan.op left right
      .ok (some outcome)
  | some _, some _ => .error downcastFailed
  | left, right => .ok (nullOutcome left.isNone right.isNone plan)

def KernelKind.debug : KernelKind → String
  | .boolean => "Boolean"
  | .i8 => "I8"
  | .i16 => "I16"
  | .i32 => "I32"
  | .i64 => "I64"
  | .u8 => "U8"
  | .u16 => "U16"
  | .u32 => "U32"
  | .u64 => "U64"
  | .f32 => "F32"
  | .f64 => "F64"
  | .date32 => "Date32"
  | .date64 => "Date64"
  | .decimal128 precision scale =>
      "Decimal128 \x7b precision: " ++ toString precision ++ ", scale: " ++ toString scale ++ " \x7d"
  | .timestamp unit => "Timestamp(" ++ unit.debug ++ ")"
  | .utf8 => "Utf8"
  | .largeUtf8 => "LargeUtf8"
  | .utf8View => "Utf8View"
  | .binary => "Binary"
  | .largeBinary => "LargeBinary"
  | .binaryView => "BinaryView"
  | .nested => "Nested"
  | .nullOnly => "NullOnly"

def OperandPlan.debugKernel (operand : OperandPlan) : String :=
  match operand.kernel with
  | some kernel => "Some(" ++ kernel.debug ++ ")"
  | none => "None"

/-- `unsupported`. -/
def unsupportedComparison (plan : ComparePlan) : Fault :=
  unsupportedType ("relational execution for " ++ plan.left.debugKernel ++ " and " ++
    plan.right.debugKernel)

/-! ## Predicates -/

/-- The kernels with a column-against-column comparison. -/
def KernelKind.comparesColumns : KernelKind → Bool
  | .binary | .largeBinary | .binaryView | .nested | .nullOnly => false
  | _ => true

def scanColumnPair (kernel : KernelKind) (left right : ArrowArray) (plan : ComparePlan) :
    Except Fault (List (Option Bool)) := do
  if kernel.comparesColumns then
    downcast kernel left
    downcast kernel right
    left.cells.zipIdx.mapM fun (cell, row) => do
      let other ← right.cell row
      compareCells plan cell other
  else .error (unsupportedComparison plan)

/-- `as` between signed integers: the low bits. -/
def castSigned (bits : ℕ) (value : ℤ) : ℤ := value.bmod (2 ^ bits)

/-- The literal at the type of the kernel, where the kernel has a comparison with a literal. -/
def literalScalar : KernelKind → ScalarValuePlan → Option Scalar
  | .boolean, .boolean value => some (.boolean value)
  | .i8, .i64 value => some (.signed (castSigned 8 value))
  | .i16, .i64 value => some (.signed (castSigned 16 value))
  | .i32, .i64 value | .date32, .i64 value => some (.signed (castSigned 32 value))
  | .i64, .i64 value | .date64, .i64 value | .timestamp _, .i64 value => some (.signed value)
  | .u8, .u64 value => some (.unsigned (value % 2 ^ 8))
  | .u16, .u64 value => some (.unsigned (value % 2 ^ 16))
  | .u32, .u64 value => some (.unsigned (value % 2 ^ 32))
  | .u64, .u64 value => some (.unsigned value)
  | .f32, .f64 value => some (.float32 value.convert)
  | .f64, .f64 value => some (.float64 value)
  | .utf8, .text value | .largeUtf8, .text value | .utf8View, .text value => some (.text value)
  | _, _ => none

/-- The literal, or the error of a kernel without one. -/
def requireLiteral (kernel : KernelKind) (literal : ScalarValuePlan) (plan : ComparePlan) :
    Except Fault Scalar :=
  match literalScalar kernel literal with
  | some scalar => .ok scalar
  | none => .error (unsupportedComparison plan)

/-- The array and the literal of a comparison, checked in the order the kernel checks them. -/
def literalOperand (kernel : KernelKind) (array : ArrowArray) (literal : ScalarValuePlan)
    (plan : ComparePlan) : Except Fault Scalar :=
  match kernel with
  | .decimal128 _ _ | .binary | .largeBinary | .binaryView | .nested | .nullOnly =>
      .error (unsupportedComparison plan)
  | .utf8 | .largeUtf8 | .utf8View => do
      let scalar ← requireLiteral kernel literal plan
      downcast kernel array
      .ok scalar
  | _ => do
      downcast kernel array
      requireLiteral kernel literal plan

def scanColumnLiteral (kernel : KernelKind) (array : ArrowArray) (literal : ScalarValuePlan)
    (literalIsLeft : Bool) (plan : ComparePlan) : Except Fault (List (Option Bool)) := do
  let scalar ← literalOperand kernel array literal plan
  array.cells.mapM fun cell =>
    if literalIsLeft then compareCells plan (some (.scalar scalar)) cell
    else compareCells plan cell (some (.scalar scalar))

/-- `scan_predicate`: the outcome of every row. -/
def scanPredicate (plan : ComparePlan) (batch : RecordBatch) : Except Fault (List (Option Bool)) := do
  match plan.left, plan.right with
  | .column left _ kernel, .column right _ _ =>
      scanColumnPair kernel (← batch.column left) (← batch.column right) plan
  | .column index _ kernel, .literal literal =>
      scanColumnLiteral kernel (← batch.column index) literal false plan
  | .literal literal, .column index _ kernel =>
      scanColumnLiteral kernel (← batch.column index) literal true plan
  | .literal _, .literal _ =>
      .error (.panic "literal-only comparisons are rejected during compilation")

/-! ## Conditional assertions -/

section Assertions

variable (column ruleName : String) (row : ℕ)

def recordConditional (assertion : String) : Event :=
  .record ⟨"conditional", column, some row, s!"Conditional rule `{ruleName}` failed `{assertion}`"⟩

def scanAssertionRange {α : Type} [PartialOrd α] (value : α) (minimum maximum : Option α) :
    List Event :=
  (if minimum.any (PartialOrd.lt value) then [recordConditional column ruleName row "min"] else []) ++
  (if maximum.any (PartialOrd.gt value) then [recordConditional column ruleName row "max"] else [])

def scanFloatAssertion {eb mb : ℕ} (rules : CompiledRules) (value : Ieee eb mb)
    (minimum maximum : Option (Ieee eb mb)) : List Event :=
  if value.isNaN then
    if rules.validateNan ∧ rules.nan = .reject then [recordConditional column ruleName row "nan"]
    else []
  else scanAssertionRange column ruleName row value minimum maximum

variable [Crates]

def scanTextAssertion (rules : CompiledRules) (value : String) : List Event :=
  (if rules.pattern.any (!Crates.regexMatch · value) then
    [recordConditional column ruleName row "pattern"] else []) ++
  (if rules.allowed.any (!·.contains value) then
    [recordConditional column ruleName row "allowed"] else [])

/-- The assertion on a non-null cell of an array the kernel reads. -/
def scanAssertionValue (kernel : KernelKind) (rules : CompiledRules) (value : Scalar) :
    Except Fault (List Event) := do
  match kernel, value with
  | .i8, .signed value | .i16, .signed value | .i32, .signed value | .i64, .signed value
  | .date32, .signed value | .date64, .signed value =>
      .ok (scanAssertionRange column ruleName row value (← signedBound rules.min)
        (← signedBound rules.max))
  | .u8, .unsigned value | .u16, .unsigned value | .u32, .unsigned value | .u64, .unsigned value =>
      .ok (scanAssertionRange column ruleName row value (← unsignedBound rules.min)
        (← unsignedBound rules.max))
  | .f32, .float32 value =>
      .ok (scanFloatAssertion column ruleName row rules value (← float32Bound rules.min)
        (← float32Bound rules.max))
  | .f64, .float64 value =>
      .ok (scanFloatAssertion column ruleName row rules value (← float64Bound rules.min)
        (← float64Bound rules.max))
  | .decimal128 _ _, .decimal value =>
      .ok (scanAssertionRange column ruleName row value (← decimalBound rules.min)
        (← decimalBound rules.max))
  | .timestamp _, .signed value =>
      .ok (scanAssertionRange column ruleName row value (← timestampBound rules.min)
        (← timestampBound rules.max))
  | .utf8, .text value | .largeUtf8, .text value | .utf8View, .text value =>
      .ok (scanTextAssertion column ruleName row rules value)
  | _, _ => .error downcastFailed

/-- `scan_assertion_row`, on the cell of the row. -/
def scanAssertionRow (kernel : KernelKind) (rules : CompiledRules) (array : ArrowArray)
    (cell : Option Value) : Except Fault (List Event) := do
  match cell with
  | none => .ok (if rules.notNull then [recordConditional column ruleName row "not_null"] else [])
  | some value =>
      match kernel with
      | .boolean => .ok []
      | .binary | .largeBinary | .binaryView | .nested | .nullOnly =>
          .error (unsupportedType ("conditional assertion for " ++
            Crates.displayType array.dataType))
      | _ =>
          downcast kernel array
          match value with
          | .scalar scalar => scanAssertionValue column ruleName row kernel rules scalar
          | _ => .error downcastFailed

end Assertions

/-! ## Row plans -/

def findingColumn (plan : ComparePlan) : String :=
  match plan.left.field, plan.right.field with
  | some field, _ => field.name
  | none, some field => field.name
  | none, none => "$row"

/-- The events of a row with the given outcome of a relational rule. -/
def compareEvents (name : String) (plan : ComparePlan) (outcome : Option Bool × ℕ) (row : ℕ) :
    List Event :=
  if outcome.1 = some false then
    [.record ⟨"compare", findingColumn plan, some row, s!"Relational rule `{name}` failed"⟩]
  else []

variable [Crates]

/-- The events of a row with the given outcome of the guard of a conditional rule. -/
def conditionalEvents (name : String) (target : ArrowArray) (field : Field) (assertion : CompiledRules)
    (outcome : Option Bool × ℕ) (row : ℕ) : Except Fault (List Event) := do
  if outcome.1 = some true then
    let cell ← target.cell outcome.2
    scanAssertionRow field.name name row (.fromDataType field.dataType) assertion target cell
  else .ok []

/-- What a row plan does at a row, from the outcome there and the position in the batch. -/
def RowPlan.prepare (plan : RowPlan) (batch : RecordBatch) :
    Except Fault (List (Option Bool × ℕ) × (Option Bool × ℕ → ℕ → Except Fault (List Event))) := do
  match plan.kind with
  | .compare compare =>
      let outcomes ← scanPredicate compare batch
      .ok (outcomes.zipIdx, fun outcome row => .ok (compareEvents plan.name compare outcome row))
  | .conditional predicate assertionColumn assertionField assertion =>
      let target ← batch.column assertionColumn
      let outcomes ← scanPredicate predicate batch
      .ok (outcomes.zipIdx, conditionalEvents plan.name target assertionField assertion)

/-- The events of a batch. -/
def RowPlan.events (plan : RowPlan) (batch : RecordBatch) (rowOffset : ℕ) :
    Except Fault (List Event) := do
  let (outcomes, kernel) ← plan.prepare batch
  collectRows kernel outcomes rowOffset

variable {ω : Type} [Host ω]

/-- `scan_row_plan`. -/
def scanRowPlan (plan : RowPlan) (batch : RecordBatch) (rowOffset : ℕ) (validation : ValidationState) :
    Run ω Fault ValidationState := do
  let (outcomes, kernel) ← lift (plan.prepare batch)
  let sink ← scanRows kernel outcomes rowOffset { validation, exact := none }
  pure sink.validation

theorem refines_scanRowPlan (keep : Keeping ω) {plan : RowPlan} {batch : RecordBatch}
    {rowOffset limit : ℕ} {evaluated : List ℕ} {findings : List Finding}
    {validation : ValidationState} (h : validation.Tracks limit evaluated findings) :
    Refines keep.Env (scanRowPlan plan batch rowOffset validation : Run ω Fault _)
      (plan.events batch rowOffset)
      (fun events next => next.Tracks limit evaluated (findings ++ findingsOf events)) := by
  have hsink : Sink.Received (keep.Holds .bytes) limit evaluated findings []
      { validation, exact := none } := by
    refine ⟨h, ?_⟩
    rintro _ ⟨⟩
  apply (refines_lift (S := Eq) fun _ _ => rfl).bind
  rintro ⟨outcomes, kernel⟩ _ _ rfl
  dsimp only
  rw [← bind_pure (collectRows kernel outcomes rowOffset)]
  apply (hsink.refines_scanRows keep nofun).bind
  intro events sink _ hsink
  exact refines_pure hsink.1.tracks

end ProofFrame
