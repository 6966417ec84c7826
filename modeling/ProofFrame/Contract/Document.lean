import ProofFrame.Contract.Readers
import ProofFrame.JsonText
import ProofFrame.Lib.PartialOrd
import ProofFrame.Lib.Steps

/-!
# Contract documents

How the text of a contract becomes a syntax tree.  The keys of a document are
checked before it is deserialised, so that an error can name the place of a key;
what the deserialisers cannot say about a tree is checked after.
-/

namespace ProofFrame

open Lib Lib.Run Lib.Ieee754

/-- `{:?}` of a text, which escapes what does not print. -/
class DebugText where
  debug : String → String

/-- The text as it stands between quotes in a document. -/
def quotedText (text : String) : String := String.ofList (quoted text)

/-! ## Keys -/

/-- Reject the first key that is not known, at the path `pathOf` gives it. -/
def rejectUnknown (members : List (String × Json)) (allowed : List String)
    (pathOf : String → String) : Except Fault Unit :=
  match members.find? fun member => member.1 ∉ allowed with
  | some (field, _) => .error (contractError .contractUnknownField
      s!"Unknown contract field `{field}`" (some (pathOf field)))
  | none => .ok ()

/-- Run a check on every item with its position. -/
def forEach {α : Type} (check : ℕ → α → Except Fault Unit) (items : List α) : Except Fault Unit :=
  items.zipIdx.forM fun (item, index) => check index item

/-! ## V1 -/

namespace ContractAst

def rootFields : List String := ["columns", "max_findings", "version"]

def ruleFields : List String :=
  ["allowed", "max", "min", "nan", "not_null", "pattern", "required", "unique"]

def isIdentifier (value : String) : Bool :=
  match value.toList with
  | [] => false
  | first :: rest =>
      (first == '_' || first.isAlpha) && rest.all fun c => c == '_' || c.isAlphanum

def appendPath (parent segment : String) : String :=
  if isIdentifier segment then s!"{parent}.{segment}" else s!"{parent}[{quotedText segment}]"

def columnPath (column : String) : String := appendPath "$.columns" column

def validateRule (member : String × Json) : Except Fault Unit :=
  match member.2 with
  | .object rule => rejectUnknown rule ruleFields (appendPath (columnPath member.1))
  | _ => .error (contractError .contractInvalidJson
      s!"Rules for column `{member.1}` must be a JSON object" (some (columnPath member.1)))

def validateColumns : Option Json → Except Fault Unit
  | none => .ok ()
  | some (.object columns) => columns.forM validateRule
  | some _ => .error (contractError .contractInvalidJson
      "Contract field `columns` must be a JSON object" (some "$.columns"))

def validateKnownFields : Json → Except Fault Unit
  | .object root => do
      rejectUnknown root rootFields (appendPath "$")
      validateColumns (SortedMap.find "columns" root)
  | _ => .error (contractError .contractInvalidJson
      "A contract document must be a JSON object" none)

variable [SerdeJson] [SerdeContent]

/-- `ContractAst::from_json`, from the value of the text. -/
def fromValue (value : Json) : Except Fault ContractAst := do
  rejectIf (value.get "status").isSome (contractError .contractUnknownField
    "The field `status` belongs to V2: set version to \"proofframe.contract.v2\"; omitted Python versions default to V1"
    (some "$.version"))
  validateKnownFields value
  let contract ← required (Reader.contractAst.read value) (contractError .contractInvalidJson
    ("Invalid contract value: " ++ SerdeJson.valueError "ContractAst" value) none)
  rejectIf (contract.version ≠ .v1) (contractError .contractInvalidJson
    "ContractAst accepts only proofframe.contract.v1; use ContractDocument for V2"
    (some "$.version"))
  .ok contract

end ContractAst

/-! ## V2 -/

namespace ContractAstV2

def invalid (message path : String) : Fault :=
  contractError .contractInvalidJson message (some path)

def object (json : Json) (path : String) : Except Fault (List (String × Json)) :=
  match json with
  | .object members => .ok members
  | _ => .error (invalid "Expected a JSON object" path)

/-- The value is an object whose keys are known. -/
def knownObject (json : Json) (allowed : List String) (path : String) : Except Fault Unit := do
  let members ← object json path
  rejectUnknown members allowed fun field => s!"{path}.{field}"

/-- The same of a field that may be left out. -/
def knownField (members : List (String × Json)) (field : String) (allowed : List String)
    (path : String) : Except Fault Unit :=
  match SortedMap.find field members with
  | none => .ok ()
  | some json => knownObject json allowed s!"{path}.{field}"

def rootFields : List String :=
  ["columns", "dataset_rules", "max_findings", "row_rules", "status", "suggested_from", "version"]

def columnFields : List String :=
  ["allowed", "max", "max_length", "min", "min_length", "nan", "not_null", "pattern", "required",
    "type", "unique"]

def rowRuleFields : List String := ["assert", "compare", "name", "when"]

def compareFields : List String := ["left", "nulls", "op", "right"]

def assertionFields : List String :=
  ["allowed", "column", "max", "min", "nan", "not_null", "pattern"]

def validateColumnFields : Option Json → Except Fault Unit
  | none => .ok ()
  | some columns => do
      let columns ← object columns "$.columns"
      columns.forM fun (name, rules) => knownObject rules columnFields s!"$.columns.{name}"

def validateRowRuleFields (index : ℕ) (rule : Json) : Except Fault Unit := do
  let path := s!"$.row_rules[{index}]"
  let rule ← object rule path
  rejectUnknown rule rowRuleFields fun field => s!"{path}.{field}"
  knownField rule "compare" compareFields path
  knownField rule "when" compareFields path
  knownField rule "assert" assertionFields path

def validateRowRulesFields : Option Json → Except Fault Unit
  | none => .ok ()
  | some (.array rules) => forEach validateRowRuleFields rules
  | some _ => .error (invalid "row_rules must be an array" "$.row_rules")

def validateKnownFields (value : Json) : Except Fault Unit := do
  let root ← object value "$"
  rejectUnknown root rootFields fun field => s!"$.{field}"
  validateColumnFields (SortedMap.find "columns" root)
  validateRowRulesFields (SortedMap.find "row_rules" root)

/-! ### Column types -/

section Types

variable [SerdeJson] [DebugText]

/-- What a frequent mistake should have been. -/
def typeHint (expected : Json) : String :=
  match expected.asStr with
  | some "string" => " Use `utf8` for Arrow strings."
  | some "integer" => " Choose the Arrow width explicitly, for example `int64`."
  | some "decimal128" => " Use an object with name, precision and scale."
  | some "timestamp" => " Use an object with name, unit and optional timezone."
  | _ => ""

def typeDetail (expected : Json) : String :=
  match expected with
  | .string _ => SerdeJson.valueError "PrimitiveTypeAst" expected
  | _ => SerdeJson.valueError "ParameterizedTypeAst" expected

def diagnoseColumnType (member : String × Json) : Except Fault Unit :=
  match member.2.get "type" with
  | none | some .null => .ok ()
  | some expected => rejectIf (Reader.typeAst.read expected).isNone
      (contractError .contractInvalidType
        ("Column " ++ DebugText.debug member.1 ++ ", field `type`: " ++ typeDetail expected ++ "." ++
          typeHint expected)
        (some ("$.columns[" ++ DebugText.debug member.1 ++ "].type")))

/-- Explain a type that does not read, before the whole document fails to. -/
def diagnoseColumnTypes (value : Json) : Except Fault Unit :=
  match value.get "columns" with
  | some (.object columns) => columns.forM diagnoseColumnType
  | _ => .ok ()

end Types

/-! ### What the tree has to satisfy -/

/-- The names before a rule, with its own, which must be new and not empty. -/
def freshName (what name path : String) (names : List String) : Except Fault (List String) := do
  rejectIf (name = "" ∨ name ∈ names) (contractError .contractDuplicateRule
    s!"{what} name `{name}` is empty or duplicated" (some s!"{path}.name"))
  .ok (name :: names)

def validateRowRule (names : List String) (rule : RowRuleAst × ℕ) : Except Fault (List String) := do
  let path := s!"$.row_rules[{rule.2}]"
  let names ← freshName "Row rule" rule.1.name path names
  let direct := rule.1.compare.isSome
  let conditional := rule.1.when.isSome && rule.1.assertion.isSome
  rejectIf (direct = conditional)
    (invalid "A row rule must contain either compare or both when and assert" path)
  .ok names

def validateRatioBound (path : String) (bound : String × Option F64) : Except Fault Unit :=
  rejectIf (bound.2.any fun value =>
      !value.isFinite || !((Ieee.zero false).le value && value.le (Ieee.ofRat 1 false)))
    (contractError .contractInvalidRatio "Ratio bounds must be finite values between zero and one"
      (some s!"{path}.{bound.1}"))

def validateRatio (range : RatioRangeAst) (path : String) : Except Fault Unit := do
  [("min", range.min), ("max", range.max)].forM (validateRatioBound path)
  rejectIf ((Option.map₂ (fun min max => Ieee.gt min max) range.min range.max).getD false)
    (contractError .contractInvalidRatio "Ratio minimum exceeds maximum" (some path))

def validateCompositeUnique (index : ℕ) (rule : CompositeUniqueAst) : Except Fault Unit :=
  rejectIf (rule.columns.length < 2) (invalid "Composite uniqueness requires at least two columns"
    s!"$.dataset_rules.composite_unique[{index}].columns")

def hasDuplicate (columns : List String) : Bool := !decide columns.Nodup

def validateReference (names : List String) (rule : ReferenceAst × ℕ) :
    Except Fault (List String) := do
  let path := s!"$.dataset_rules.references[{rule.2}]"
  let names ← freshName "Reference rule" rule.1.name path names
  rejectIf (rule.1.reference = "")
    (invalid "A reference rule must name the reference dataset it binds to" s!"{path}.reference")
  rejectIf (rule.1.columns = [])
    (invalid "A reference rule requires at least one local key column" s!"{path}.columns")
  rejectIf (rule.1.columns.length ≠ rule.1.referenceColumns.length)
    (invalid "A reference rule pairs key columns by position, so both sides need equal lengths"
      s!"{path}.reference_columns")
  rejectIf (hasDuplicate rule.1.columns)
    (invalid "A reference key repeats a local column" s!"{path}.columns")
  rejectIf (hasDuplicate rule.1.referenceColumns)
    (invalid "A reference key repeats a reference column" s!"{path}.reference_columns")
  .ok names

def validateSemantics (contract : ContractAstV2) : Except Fault Unit := do
  let _ ← contract.rowRules.zipIdx.foldlM validateRowRule []
  contract.datasetRules.nullRatio.forM fun (column, range) =>
    validateRatio range s!"$.dataset_rules.null_ratio.{column}"
  contract.datasetRules.distinctRatio.forM fun (column, range) =>
    validateRatio range s!"$.dataset_rules.distinct_ratio.{column}"
  forEach validateCompositeUnique contract.datasetRules.compositeUnique
  let _ ← contract.datasetRules.references.zipIdx.foldlM validateReference []
  .ok ()

variable [SerdeJson] [SerdeContent] [DebugText]

/-- `v2::parse`. -/
def parse (value : Json) : Except Fault ContractAstV2 := do
  validateKnownFields value
  diagnoseColumnTypes value
  let contract ← required (Reader.contractAstV2.read value) (contractError .contractInvalidJson
    ("Invalid V2 contract value: " ++ SerdeJson.valueError "ContractAstV2" value) none)
  rejectIf (contract.version ≠ .v2)
    (invalid "V2 contract has an incompatible version" "$.version")
  validateSemantics contract
  .ok contract

end ContractAstV2

/-! ## Documents -/

namespace ContractDocument

variable [SerdeJson] [SerdeContent] [DebugText]

/-- The value of a text. -/
def parseValue (source : String) : Except Fault Json :=
  match SerdeJson.parse source with
  | .ok json => .ok json.toValue
  | .error message => .error (contractError .contractInvalidJson
      ("Invalid contract JSON: " ++ message) none)

def fromJson (source : String) : Except Fault ContractDocument := do
  let value ← parseValue source
  let version ← required ((value.get "version").bind Json.asStr)
    (contractError .contractInvalidJson
      "Contract version must be a string: use \"proofframe.contract.v1\" or \"proofframe.contract.v2\" (not a number)"
      (some "$.version"))
  if version = "proofframe.contract.v1" then .v1 <$> ContractAst.fromValue value
  else if version = "proofframe.contract.v2" then .v2 <$> ContractAstV2.parse value
  else .error (contractError .contractInvalidJson s!"Unsupported contract version `{version}`"
    (some "$.version"))

/-- A draft is not executed. -/
def ensureActive (document : ContractDocument) : Except Fault Unit :=
  match document with
  | .v1 _ => .ok ()
  | .v2 contract => rejectIf (contract.status = .draft) (contractError .contractDraft
      "Draft contracts cannot be executed; review the suggested rules and set `status` to `active`"
      (some "$.status"))

end ContractDocument

end ProofFrame
