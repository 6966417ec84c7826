import ProofFrame.Diff.Rows
import ProofFrame.Lib.Ieee754.Decimal
import ProofFrame.Profile.Inspection

/-!
# Full validation

`validate_reader` holds a dataset to a contract in the pass that profiles it.  A
cell is fed to the hasher and to the state of its column first, and then held to
the rule of its column, value by value and without a plan: numbers are compared
as 64-bit floats, texts as they are displayed, and a value comes again when its
canonical bytes do.
-/

namespace ProofFrame

open Lib Lib.Run Lib.Ieee754 Distinct
open Diff (DiffCrates valueForRules)

/-! ## Contracts -/

/-- The rules of a column. -/
structure ColumnContract where
  required : Bool
  notNull : Bool
  unique : Bool
  min : Option F64
  max : Option F64
  pattern : Option String
  allowed : Option (List String)

/-- A contract, its columns in the order in which the map iterates. -/
structure Contract where
  columns : List (String × ColumnContract)
  maxFindings : ℕ
  names_distinct : (columns.map Prod.fst).Nodup

def Contract.rule (contract : Contract) (name : String) : Option ColumnContract :=
  SortedMap.find name contract.columns

structure ValidationReport where
  valid : Bool
  violationCount : ℕ
  truncated : Bool
  findings : List Finding
  profile : Profile

/-- The default of `max_findings`. -/
def Contract.defaultMaxFindings : ℕ := 100

/-- The default limits. -/
def ResourceLimits.default : ResourceLimits where
  maxMemoryBytes := 512 * 1024 * 1024
  maxTempBytes := 4 * 1024 * 1024 * 1024
  maxOutputRecords := 100000
  maxSamples := 100

/-! ## Rules -/

/-- What the rules keep of a traversal: the violations, the values of the columns with a uniqueness
rule, and the compiled patterns. -/
structure RuleValidation where
  validation : ValidationState
  seenUnique : List (String × List (List UInt8))
  patterns : List (String × String)

def uniqueSetMissing : Fault := .panic "unique set initialized"

section Rules

variable {ω : Type} [Host ω] [DiffCrates]

/-- A required column that the schema does not have. -/
def recordMissing (schema : Schema) (column : String) (rule : ColumnContract)
    (validation : ValidationState) : Run ω Fault ValidationState :=
  if rule.required && (schema.indexOf column).isNone then
    validation.record
      { rule := "required", column, row := none
        message := s!"Required column `{column}` is missing" }
  else pure validation

/-- Compile the pattern of a column. -/
def preparePattern (column : String) (rule : ColumnContract) (patterns : List (String × String)) :
    Run ω Fault (List (String × String)) :=
  match rule.pattern with
  | none => pure patterns
  | some pattern => match Crates.regexError pattern with
      | none => pure (SortedMap.insert column pattern patterns)
      | some message => throw (.error (.regex message))

/-- A column of the contract, before the first batch. -/
def prepareColumn (schema : Schema) (rules : RuleValidation) (entry : String × ColumnContract) :
    Run ω Fault RuleValidation := do
  let validation ← recordMissing schema entry.1 entry.2 rules.validation
  let seenUnique :=
    if entry.2.unique then SortedMap.insert entry.1 [] rules.seenUnique else rules.seenUnique
  let patterns ← preparePattern entry.1 entry.2 rules.patterns
  pure { validation, seenUnique, patterns }

/-- `prepare_validation`. -/
def prepareValidation (schema : Schema) (contract : Option Contract) : Run ω Fault RuleValidation :=
  let rules : RuleValidation :=
    { validation := .new ((contract.map Contract.maxFindings).getD Contract.defaultMaxFindings)
      seenUnique := [], patterns := [] }
  match contract with
  | none => pure rules
  | some contract => contract.columns.foldlM (prepareColumn schema) rules

/-- A finding about a value, which its message shows. -/
def recordValue (dataType : DataType) (value : Value) (globalRow : ℕ) (column rule : String)
    (message : String → String) (validation : ValidationState) : Run ω Fault ValidationState := do
  let text ← lift (valueForRules dataType value)
  validation.record { rule, column, row := some globalRow, message := message text }

def duplicateMessage (text : String) : String := s!"Duplicate value `{text}`"

def belowMessage (minimum : F64) (text : String) : String :=
  s!"Value `{text}` is below {minimum.display}"

def aboveMessage (maximum : F64) (text : String) : String :=
  s!"Value `{text}` is above {maximum.display}"

/-- A bound that the value is outside of. -/
def recordBound (dataType : DataType) (value : Value) (globalRow : ℕ) (column rule : String)
    (message : F64 → String → String) (broken : Option F64) (validation : ValidationState) :
    Run ω Fault ValidationState :=
  match broken with
  | none => pure validation
  | some bound => recordValue dataType value globalRow column rule (message bound) validation

/-- `validate_numeric_rule`. -/
def validateNumericRule (dataType : DataType) (value : Value) (globalRow : ℕ) (column : String)
    (rule : ColumnContract) (validation : ValidationState) : Run ω Fault ValidationState :=
  if rule.min.isNone && rule.max.isNone then pure validation
  else do
    let numeric := numericValue dataType value
    let validation ← recordBound dataType value globalRow column "min" belowMessage
      (rule.min.filter fun minimum => numeric.any (·.lt minimum)) validation
    recordBound dataType value globalRow column "max" aboveMessage
      (rule.max.filter fun maximum => numeric.any (·.gt maximum)) validation

/-- The finding about a text that does not match the pattern. -/
def mismatched (pattern : Option String) (text : String) (globalRow : ℕ) (column : String) :
    Option Finding :=
  (pattern.filter fun pattern => !Crates.regexMatch pattern text).map fun pattern =>
    { rule := "pattern", column, row := some globalRow
      message := s!"Value `{text}` does not match `{pattern}`" }

/-- The finding about a text that is not allowed. -/
def unlisted (allowed : Option (List String)) (text : String) (globalRow : ℕ) (column : String) :
    Option Finding :=
  (allowed.filter fun allowed => !allowed.contains text).map fun _ =>
    { rule := "allowed", column, row := some globalRow
      message := s!"Value `{text}` is not in the allowlist" }

def recordSome (finding : Option Finding) (validation : ValidationState) :
    Run ω Fault ValidationState :=
  match finding with
  | none => pure validation
  | some finding => validation.record finding

/-- `validate_text_rule`. -/
def validateTextRule (dataType : DataType) (value : Value) (globalRow : ℕ) (column : String)
    (rule : ColumnContract) (patterns : List (String × String)) (validation : ValidationState) :
    Run ω Fault ValidationState :=
  let pattern := SortedMap.find column patterns
  if pattern.isNone && rule.allowed.isNone then pure validation
  else do
    let text ← lift (valueForRules dataType value)
    let validation ← recordSome (mismatched pattern text globalRow column) validation
    recordSome (unlisted rule.allowed text globalRow column) validation

/-- The uniqueness rule of a column: the value is new, or it is a duplicate. -/
def validateUniqueRule (dataType : DataType) (value : Value) (globalRow : ℕ) (column : String)
    (valueKey : List UInt8) (rule : ColumnContract) (rules : RuleValidation) :
    Run ω Fault RuleValidation :=
  if !rule.unique then pure rules
  else do
    let seen ← someOr (SortedMap.find column rules.seenUnique) uniqueSetMissing
    if seen.contains valueKey then do
      let validation ←
        recordValue dataType value globalRow column "unique" duplicateMessage rules.validation
      pure { rules with validation }
    else
      pure { rules with
        seenUnique := SortedMap.insert column (valueKey :: seen) rules.seenUnique }

/-- `validate_column_rule`. -/
def validateColumnRule (dataType : DataType) (value : Value) (globalRow : ℕ) (column : String)
    (valueKey : List UInt8) (rule : ColumnContract) (rules : RuleValidation) :
    Run ω Fault RuleValidation := do
  let rules ← validateUniqueRule dataType value globalRow column valueKey rule rules
  let validation ← validateNumericRule dataType value globalRow column rule rules.validation
  let validation ←
    validateTextRule dataType value globalRow column rule rules.patterns validation
  pure { rules with validation }

/-- A value of a column, which may have no rule. -/
def validateValue (dataType : DataType) (value : Value) (globalRow : ℕ) (column : String)
    (valueKey : List UInt8) (rule : Option ColumnContract) (rules : RuleValidation) :
    Run ω Fault RuleValidation :=
  match rule with
  | none => pure rules
  | some rule => validateColumnRule dataType value globalRow column valueKey rule rules

/-- A null of a column. -/
def validateNull (globalRow : ℕ) (column : String) (rule : Option ColumnContract)
    (rules : RuleValidation) : Run ω Fault RuleValidation :=
  if rule.any ColumnContract.notNull then do
    let validation ← rules.validation.record
      { rule := "not_null", column, row := some globalRow
        message := "Null value is not allowed" }
    pure { rules with validation }
  else pure rules

end Rules

/-! ## Inspection -/

section Inspect

variable {ω : Type} [Resuming ω] [DiffCrates]

/-- `inspect_cell`. -/
def inspectRuledCell (contract : Option Contract) (row : ℕ)
    (state : Inspection ExactState × RuleValidation) (entry : ArrowArray × ℕ) :
    Run ω Fault (Inspection ExactState × RuleValidation) := do
  let (inspection, rules) := state
  let column := entry.1.field.name
  let globalRow := inspection.rows + row
  let hasher ← lift (hashCell row inspection.hasher entry)
  let rule := contract.bind (·.rule column)
  let state ← someOr inspection.states[entry.2]? outOfBounds
  let cell ← lift (entry.1.cell row)
  match cell with
  | none => do
      let rules ← validateNull globalRow column rule rules
      pure ({ inspection with
        hasher, states := inspection.states.set entry.2 state.observeNull }, rules)
  | some value => do
      let valueKey ← lift (canonicalValueBytes entry.1.dataType (some value))
      let state ← state.insert valueKey globalRow
      let rules ← validateValue entry.1.dataType value globalRow column valueKey rule rules
      pure ({ inspection with
        hasher
        states := inspection.states.set entry.2 (state.observeValue entry.1.dataType value) },
        rules)

/-- `BatchInspection::inspect`, and the count of the rows. -/
def inspectRuledBatch (schema : Schema) (contract : Option Contract) :
    Inspection ExactState × RuleValidation → Except String RecordBatch →
      Run ω Fault (Inspection ExactState × RuleValidation) :=
  traverseBatch schema profileSchemaChanged (inspectRuledCell contract) fun state rows =>
    ({ state.1 with rows := state.1.rows + rows }, state.2)

/-- `inspect_batches`. -/
def inspectRuledBatches (reader : BatchReader) (contract : Option Contract) (mode : DistinctMode)
    (resources : ResourceLimits) (rowCountHint : Option ℕ) (spill : SpillPolicy) :
    Run ω Fault (Profile × ValidationOutcome) := do
  let inspection ← startInspection reader.schema mode resources rowCountHint spill
  let rules ← prepareValidation reader.schema contract
  let state ← reader.items.foldlM (inspectRuledBatch reader.schema contract) (inspection, rules)
  let profile ← finishProfile reader.schema state.1
  pure (profile, state.2.validation.finish)

/-- `validate_reader`. -/
def validateReader (reader : BatchReader) (contract : Contract) : Run ω Fault ValidationReport := do
  let inspected ← inspectRuledBatches reader (some contract) .exact .default none .auto
  pure {
    valid := inspected.2.violationCount = 0
    violationCount := inspected.2.violationCount
    truncated := inspected.2.truncated
    findings := inspected.2.findings
    profile := inspected.1 }

end Inspect

end ProofFrame
