import ProofFrame.Contract.Bounds

/-!
# Compilation of column and row rules

Rules are resolved against a schema: names become positions, bounds and literals
become values of the type of their column, and what the type does not support is
refused.
-/

namespace ProofFrame

open Lib Lib.Run Lib.Ieee754
open ContractAst (columnPath appendPath)

/-! ## Column rules -/

def NaNPolicy.ofAst : Option NaNPolicyAst → NaNPolicy
  | some .allow => .allow
  | some .reject | none => .reject

section Rules

variable [Crates]

def typeMismatch (column : String) (dataType : DataType) (rule expected : String) : Fault :=
  contractError .contractTypeMismatch
    s!"Rule `{rule}` on column `{column}` requires {expected} values, found `{Crates.displayType dataType}`"
    (some (appendPath (columnPath column) rule))

/-- What the type of a column does not support. -/
def checkSupport (column : String) (dataType : DataType) (kernel : KernelKind) (source : RuleAst) :
    Except Fault Unit := do
  rejectIf ((source.min.isSome || source.max.isSome) && !kernel.supportsBounds)
    (typeMismatch column dataType (if source.min.isSome then "min" else "max")
      "numeric, decimal, date, or timestamp")
  rejectIf (source.pattern.isSome && !kernel.supportsTextRules)
    (typeMismatch column dataType "pattern" "UTF-8")
  rejectIf (source.allowed.isSome && !kernel.supportsTextRules)
    (typeMismatch column dataType "allowed" "UTF-8")
  rejectIf (source.nan.isSome && !kernel.isFloat)
    (typeMismatch column dataType "nan" "floating point")
  rejectIf (source.unique && !kernel.supportsUnique)
    (typeMismatch column dataType "unique" "canonically encodable")

def compileBound (bound : Option BoundAst) (dataType : DataType) (path : String) :
    Except Fault (Option TypedBound) :=
  bound.mapM fun bound => parseBound bound dataType path

/-- Whether a lower bound is above an upper one. -/
def exceeds (min max : Option TypedBound) : Bool :=
  (Option.map₂ TypedBound.compare min max).join == some .gt

def compilePattern (column path : String) (pattern : String) : Except Fault String :=
  match Crates.regexError pattern with
  | none => .ok pattern
  | some error => .error (contractError .contractInvalidBound
      ("Invalid regular expression for column `" ++ column ++ "`: " ++ error) (some path))

def compileRules (column : String) (dataType : DataType) (kernel : KernelKind) (source : RuleAst)
    (length : Option ℕ × Option ℕ) : Except Fault CompiledRules := do
  let basePath := columnPath column
  checkSupport column dataType kernel source
  let min ← compileBound source.min dataType (appendPath basePath "min")
  let max ← compileBound source.max dataType (appendPath basePath "max")
  rejectIf (exceeds min max) (contractError .contractInvalidBound
    s!"Contract minimum exceeds maximum for column `{column}`" (some basePath))
  let pattern ← source.pattern.mapM (compilePattern column (appendPath basePath "pattern"))
  rejectIf ((Option.map₂ (fun low high => decide (low > high)) length.1 length.2).getD false)
    (contractError .contractInvalidBound
      s!"`min_length` exceeds `max_length` for column `{column}`"
      (some (appendPath basePath "min_length")))
  .ok {
    required := source.required
    notNull := source.notNull
    unique := source.unique
    min, max
    nan := .ofAst source.nan
    validateNan := source.nan.isSome || source.min.isSome || source.max.isSome
    pattern
    allowed := source.allowed
    minLength := length.1
    maxLength := length.2 }

/-! ## Comparisons -/

/-- A column of the schema with its position. -/
def Schema.resolve (schema : Schema) (name : String) : Option (ℕ × Field) :=
  (schema.indexOf name).bind fun index => (schema.fields[index]?).map (index, ·)

def compileColumn (column : String) (schema : Schema) (path : String) :
    Except Fault (ℕ × Field) :=
  required (schema.resolve column) (contractError .missingColumn
    s!"Relational column `{column}` is absent" (some s!"{path}.column"))

def OperandPlan.ofColumn (column : ℕ × Field) : OperandPlan :=
  .column column.1 column.2 (.fromDataType column.2.dataType)

/-- `Value::as_i64`, in the range of `bits` bits. -/
def Json.asSigned (bits : ℕ) : Json → Option ℤ
  | .number text => (parseSigned 64 text).bind (checkedSigned bits)
  | _ => none

/-- `Value::as_u64`, below `2 ^ bits`. -/
def Json.asUnsigned (bits : ℕ) : Json → Option ℕ
  | .number text => ((parseUnsigned 64 text).map Int.toNat).filter (· < 2 ^ bits)
  | _ => none

/-- `Value::as_f64`. -/
def Json.asF64 : Json → Option F64
  | .number text => (Ieee.parse text).filter Ieee.isFinite
  | _ => none

def Json.asBool : Json → Option Bool
  | .bool value => some value
  | _ => none

/-- The literal at the type of the column it is compared with. -/
def literalPlan (value : Json) : DataType → Option ScalarValuePlan
  | .boolean => value.asBool.map .boolean
  | .int8 => (value.asSigned 8).map .i64
  | .int16 => (value.asSigned 16).map .i64
  | .int32 | .date32 => (value.asSigned 32).map .i64
  | .int64 | .date64 | .timestamp _ _ => (value.asSigned 64).map .i64
  | .uint8 => (value.asUnsigned 8).map .u64
  | .uint16 => (value.asUnsigned 16).map .u64
  | .uint32 => (value.asUnsigned 32).map .u64
  | .uint64 => (value.asUnsigned 64).map .u64
  | .float32 => value.asF64.bind fun value =>
      let narrowed : F32 := value.convert
      if narrowed.isFinite then some (.f64 narrowed.convert) else none
  | .float64 => value.asF64.map .f64
  | .utf8 | .largeUtf8 | .utf8View => value.asStr.map .text
  | _ => none

def compileLiteral (value : Json) (dataType : DataType) (path : String) :
    Except Fault ScalarValuePlan :=
  required (literalPlan value dataType) (contractError .contractTypeMismatch
    s!"Literal is not representable as Arrow type `{Crates.displayType dataType}`" (some path))

/-- `invalid` of the row rules. -/
def invalidRule (message path : String) : Fault :=
  contractError .contractInvalidJson message (some path)

/-- Both operands; a literal takes the type of the column it is compared with. -/
def compileOperands (source : CompareAst) (schema : Schema) (path : String) :
    Except Fault (OperandPlan × OperandPlan) :=
  match source.left, source.right with
  | .column left, .column right => do
      let left ← compileColumn left schema s!"{path}.left"
      let right ← compileColumn right schema s!"{path}.right"
      .ok (.ofColumn left, .ofColumn right)
  | .column column, .literal literal => do
      let left ← compileColumn column schema s!"{path}.left"
      let value ← compileLiteral literal left.2.dataType s!"{path}.right.literal"
      .ok (.ofColumn left, .literal value)
  | .literal literal, .column column => do
      let right ← compileColumn column schema s!"{path}.right"
      let value ← compileLiteral literal right.2.dataType s!"{path}.left.literal"
      .ok (.literal value, .ofColumn right)
  | .literal _, .literal _ => .error (invalidRule
      "At least one relational operand must name an Arrow column" path)

/-- The kernel of a comparison. -/
def operandKernel (left right : OperandPlan) : Except Fault KernelKind :=
  required (left.kernel.or right.kernel)
    (.panic "relational comparisons always contain a column operand")

/-- Two columns have one type. -/
def checkOperandTypes (left right : OperandPlan) (path : String) : Except Fault Unit :=
  match left.field, right.field with
  | some left, some right => rejectIf (left.dataType ≠ right.dataType)
      (contractError .contractTypeMismatch
        s!"Relational operands have incompatible types `{Crates.displayType left.dataType}` and `{Crates.displayType right.dataType}`"
        (some path))
  | _, _ => .ok ()

/-- The kernels no comparison has. -/
def KernelKind.isIncomparable : KernelKind → Bool
  | .binary | .largeBinary | .binaryView | .nested | .nullOnly => true
  | _ => false

def compileCompare (source : CompareAst) (schema : Schema) (path : String) :
    Except Fault ComparePlan := do
  let (left, right) ← compileOperands source schema path
  checkOperandTypes left right path
  let kernel ← operandKernel left right
  rejectIf (kernel = .boolean ∧ source.op ≠ .eq ∧ source.op ≠ .ne)
    (contractError .contractTypeMismatch "Boolean relational rules support only `eq` and `ne`"
      (some s!"{path}.op"))
  rejectIf kernel.isIncomparable (contractError .contractTypeMismatch
    s!"Arrow type cannot be used in a relational rule at `{path}`" (some path))
  .ok { left, op := source.op, right, nulls := source.nulls }

/-! ## Row rules -/

/-- The rules of an assertion, which has no length of its own. -/
def AssertionAst.rules (assertion : AssertionAst) : RuleAst where
  required := false
  notNull := assertion.notNull
  unique := false
  min := assertion.min
  max := assertion.max
  nan := assertion.nan
  pattern := assertion.pattern
  allowed := assertion.allowed

/-- The branch of `RowPlan::compile` without a comparison. -/
def compileConditional (source : RowRuleAst) (schema : Schema) (path : String) :
    Except Fault RowPlanKind := do
  let predicate ← required source.when
    (invalidRule "Conditional row rule is missing `when`" path)
  let assertion ← required source.assertion
    (invalidRule "Conditional row rule is missing `assert`" path)
  let (index, field) ← required (schema.resolve assertion.column)
    (contractError .missingColumn
      s!"Conditional assertion column `{assertion.column}` is absent"
      (some s!"{path}.assert.column"))
  let compiled ← compileRules assertion.column field.dataType (.fromDataType field.dataType)
    assertion.rules (none, none)
  let predicate ← compileCompare predicate schema s!"{path}.when"
  .ok (.conditional predicate index field compiled)

/-- The kind of a plan.  A comparison leaves the other clauses unread. -/
def compileKind (source : RowRuleAst) (schema : Schema) (path : String) :
    Except Fault RowPlanKind :=
  match source.compare with
  | some compare => RowPlanKind.compare <$> compileCompare compare schema s!"{path}.compare"
  | none => compileConditional source schema path

def RowPlan.compile (source : RowRuleAst) (schema : Schema) (index : ℕ) : Except Fault RowPlan := do
  let kind ← compileKind source schema s!"$.row_rules[{index}]"
  .ok { name := source.name, kind }

end Rules

end ProofFrame
