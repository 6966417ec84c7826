import ProofFrame.Contract.CompileDataset

/-!
# Compilation of contracts

A contract against a schema: the types a contract requires are compared with those
the schema has, and every column with rules to run gets a plan, in schema order.
-/

namespace ProofFrame

open Lib Lib.Run
open ContractAst (columnPath appendPath)

/-! ## Required types -/

def PrimitiveTypeAst.dataType : PrimitiveTypeAst → DataType
  | .boolean => .boolean
  | .int8 => .int8
  | .int16 => .int16
  | .int32 => .int32
  | .int64 => .int64
  | .uint8 => .uint8
  | .uint16 => .uint16
  | .uint32 => .uint32
  | .uint64 => .uint64
  | .float32 => .float32
  | .float64 => .float64
  | .date32 => .date32
  | .date64 => .date64
  | .utf8 => .utf8
  | .largeUtf8 => .largeUtf8
  | .utf8View => .utf8View
  | .binary => .binary
  | .largeBinary => .largeBinary
  | .binaryView => .binaryView

def TimeUnitAst.unit : TimeUnitAst → TimeUnit
  | .s => .second
  | .ms => .millisecond
  | .us => .microsecond
  | .ns => .nanosecond

/-- The type a contract requires. -/
def TypeAst.dataType : TypeAst → DataType
  | .primitive type => type.dataType
  | .decimal128 precision scale => .decimal128 precision scale
  | .timestamp unit timezone => .timestamp unit.unit timezone

/-- `expected_type_matches`. -/
def expectedTypeMatches (expected : TypeAst) (actual : DataType) : Bool :=
  decide (actual = expected.dataType)

def PrimitiveTypeAst.debug : PrimitiveTypeAst → String
  | .boolean => "Boolean"
  | .int8 => "Int8"
  | .int16 => "Int16"
  | .int32 => "Int32"
  | .int64 => "Int64"
  | .uint8 => "Uint8"
  | .uint16 => "Uint16"
  | .uint32 => "Uint32"
  | .uint64 => "Uint64"
  | .float32 => "Float32"
  | .float64 => "Float64"
  | .date32 => "Date32"
  | .date64 => "Date64"
  | .utf8 => "Utf8"
  | .largeUtf8 => "LargeUtf8"
  | .utf8View => "Utf8View"
  | .binary => "Binary"
  | .largeBinary => "LargeBinary"
  | .binaryView => "BinaryView"

def TimeUnitAst.debug : TimeUnitAst → String
  | .s => "S"
  | .ms => "Ms"
  | .us => "Us"
  | .ns => "Ns"

/-- `Debug` of a required type. -/
def TypeAst.debug [DebugText] : TypeAst → String
  | .primitive type => "Primitive(" ++ type.debug ++ ")"
  | .decimal128 precision scale =>
      "Parameterized(Decimal128 \x7b precision: " ++ toString precision ++ ", scale: " ++
        toString scale ++ " \x7d)"
  | .timestamp unit timezone =>
      "Parameterized(Timestamp \x7b unit: " ++ unit.debug ++ ", timezone: " ++
        (match timezone with
          | none => "None"
          | some zone => "Some(" ++ DebugText.debug zone ++ ")") ++ " \x7d)"

/-! ## Which columns have rules -/

/-- `has_value_rules`, and `has_runtime_rules`. -/
def RuleAst.hasValueRules (rules : RuleAst) : Bool :=
  rules.notNull || rules.unique || rules.min.isSome || rules.max.isSome || rules.nan.isSome ||
    rules.pattern.isSome || rules.allowed.isSome

/-- `has_v2_value_rules`. -/
def RuleAstV2.hasValueRules (rules : RuleAstV2) : Bool :=
  rules.notNull || rules.unique || rules.minLength.isSome || rules.maxLength.isSome ||
    rules.expectedType.isSome || rules.min.isSome || rules.max.isSome || rules.nan.isSome ||
    rules.pattern.isSome || rules.allowed.isSome

/-- `v2_rules_as_v1`. -/
def RuleAstV2.asV1 (rules : RuleAstV2) : RuleAst where
  required := rules.required
  notNull := rules.notNull
  unique := rules.unique
  min := rules.min
  max := rules.max
  nan := rules.nan
  pattern := rules.pattern
  allowed := rules.allowed

def RuleAstV2.declaresLength (rules : RuleAstV2) : Bool :=
  rules.minLength.isSome || rules.maxLength.isSome

namespace CompiledContract

variable [Crates]

/-- The plan of a field of the schema that the contract has rules for. -/
def compileColumnPlan (entry : Field × ℕ) (rules : RuleAst) (length : Option ℕ × Option ℕ) :
    Except Fault ColumnPlan := do
  let field := entry.1
  let kernel := KernelKind.fromDataType field.dataType
  let rules ← compileRules field.name field.dataType kernel rules length
  .ok { columnIndex := entry.2, field, kernel, rules }

/-! ## V1 -/

/-- A column of a V1 contract that the schema does not have. -/
def checkColumnV1 (schema : Schema) (entry : String × RuleAst) : Except Fault Unit :=
  if (schema.indexOf entry.1).isSome then .ok ()
  else if entry.2.required then .error (contractError .missingColumn
    s!"Required contract column `{entry.1}` is absent from the Arrow schema"
    (some (columnPath entry.1)))
  else if entry.2.hasValueRules then .error (contractError .missingColumn
    s!"Contract column `{entry.1}` is absent from the Arrow schema" (some (columnPath entry.1)))
  else .ok ()

def planColumnV1 (contract : ContractAst) (entry : Field × ℕ) : Except Fault (Option ColumnPlan) :=
  match SortedMap.find entry.1.name contract.columns with
  | none => .ok none
  | some rules =>
      if !rules.hasValueRules then .ok none
      else some <$> compileColumnPlan entry rules (none, none)

/-- `CompiledContract::compile`. -/
def compile (contract : ContractAst) (schema : Schema) : Except Fault CompiledContract := do
  contract.columns.forM (checkColumnV1 schema)
  let columns ← schema.fields.zipIdx.mapM (planColumnV1 contract)
  .ok { schema, columns := columns.reduceOption, rowPlans := [], datasetPlan := .empty
        version := .v1, maxFindings := contract.maxFindings }

/-! ## V2 -/

variable [DebugText]

/-- A column of a V2 contract: it may be absent only without rules, and has the required type. -/
def checkColumnV2 (schema : Schema) (entry : String × RuleAstV2) : Except Fault Unit :=
  match schema.resolve entry.1 with
  | none => rejectIf (entry.2.required || entry.2.hasValueRules) (contractError .missingColumn
      s!"Contract column `{entry.1}` is absent from the Arrow schema" (some (columnPath entry.1)))
  | some (_, field) => match entry.2.expectedType with
      | none => .ok ()
      | some expected => rejectIf (!expectedTypeMatches expected field.dataType)
          (contractError .contractTypeMismatch
            ("Column `" ++ entry.1 ++ "` requires `" ++ expected.debug ++ "`, found `" ++
              Crates.displayType field.dataType ++ "`")
            (some (appendPath (columnPath entry.1) "type")))

def planColumnV2 (contract : ContractAstV2) (entry : Field × ℕ) :
    Except Fault (Option ColumnPlan) :=
  match SortedMap.find entry.1.name contract.columns with
  | none => .ok none
  | some rules =>
      -- a length is a rule of its own, which the V1 view does not have
      if !rules.asV1.hasValueRules && !rules.declaresLength then .ok none
      else some <$> compileColumnPlan entry rules.asV1 (rules.minLength, rules.maxLength)

/-- `compile_v2`. -/
def compileV2 (contract : ContractAstV2) (schema : Schema) : Except Fault CompiledContract := do
  contract.columns.forM (checkColumnV2 schema)
  let columns ← schema.fields.zipIdx.mapM (planColumnV2 contract)
  let rowPlans ← contract.rowRules.zipIdx.mapM fun entry => RowPlan.compile entry.1 schema entry.2
  let datasetPlan ← DatasetPlan.compile contract schema
  .ok { schema, columns := columns.reduceOption, rowPlans, datasetPlan, version := .v2
        maxFindings := contract.maxFindings }

/-- `compile_document`. -/
def compileDocument (document : ContractDocument) (schema : Schema) :
    Except Fault CompiledContract := do
  document.ensureActive
  match document with
  | .v1 contract => compile contract schema
  | .v2 contract => compileV2 contract schema

end CompiledContract

end ProofFrame
