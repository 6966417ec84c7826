import ProofFrame.Profile.Inspection

/-!
# Suggestions

`suggest_reader_with_options` reads a dataset once and suggests a contract for
it, next to the fingerprint of the dataset it was suggested from.  Of the
contract only the uniqueness rules are kept here: ranges and allowed values are
rendered from what was counted and cannot make the suggestion fail.
-/

namespace ProofFrame

open Lib Lib.Run Lib.Ieee754 Distinct

structure SuggestOptions where
  inferUniqueness : Bool
  inferCategories : Bool
  maxCategories : ℕ
  rangeTolerance : F64
  resources : ResourceLimits
  spill : SpillPolicy

structure SuggestionState (X : Type) where
  nullCount : ℕ
  nonNullCount : ℕ
  distinct : Option X
  categories : Option (List String)

structure Suggestion where
  /-- The columns with a `distinct_ratio` rule. -/
  distinctRatio : List String
  datasetFingerprint : String
  rowsObserved : ℕ
  uniquenessInferred : Bool
  deriving DecidableEq

/-- `is_utf8`. -/
def DataType.isUtf8 : DataType → Bool
  | .utf8 | .largeUtf8 | .utf8View => true
  | _ => false

def suggestSchemaChanged : Fault :=
  .error (.schemaMismatch "record batch schema changed during suggestion")

/-- One more category.  A column with too many has none. -/
def observeCategory (maxCategories : ℕ) (categories : List String) : Value → Option (List String)
  | .scalar (.text text) =>
      let categories := if text ∈ categories then categories else text :: categories
      if categories.length > maxCategories then none else some categories
  | _ => some categories

/-- What the traversal of a suggestion has seen. -/
structure SuggestionScan (X : Type) where
  hasher : List UInt8
  states : List (SuggestionState X)
  rows : ℕ

section Suggest

variable {ω : Type} [Host ω] [Crates]

/-- `SuggestionState::new`. -/
def SuggestionState.new (dataType : DataType) (options : SuggestOptions) (account : ResourceAccount)
    (directory : Option String) (rowCountHint : Option ℕ) (memoryShare : ℕ) :
    Run ω Fault (SuggestionState ExactState) := do
  let distinct ←
    if options.inferUniqueness then
      some <$> ExactState.new .bytes (account.child memoryShare account.limits.maxTempBytes)
        directory rowCountHint
    else pure none
  pure { nullCount := 0, nonNullCount := 0, distinct
         categories := if options.inferCategories && dataType.isUtf8 then some [] else none }

/-- One more distinct value. -/
def SuggestionState.insert (state : SuggestionState ExactState) (dataType : DataType)
    (value : Value) (globalRow : ℕ) : Run ω Fault (SuggestionState ExactState) :=
  match state.distinct with
  | none => pure state
  | some distinct => do
      let key ← lift (canonicalValueBytes dataType (some value))
      let distinct ← distinct.insert (.bytes key) (UInt64.ofNat globalRow)
      pure { state with distinct := some distinct }

/-- The turn of a cell in the loop of `suggest_reader_with_options`. -/
def suggestCell (options : SuggestOptions) (row : ℕ) (scan : SuggestionScan ExactState)
    (entry : ArrowArray × ℕ) : Run ω Fault (SuggestionScan ExactState) := do
  let hasher ← lift (hashCell row scan.hasher entry)
  let state ← someOr scan.states[entry.2]? outOfBounds
  let cell ← lift (entry.1.cell row)
  match cell with
  | none => pure { scan with
      hasher, states := scan.states.set entry.2 { state with nullCount := state.nullCount + 1 } }
  | some value => do
      let state ← state.insert entry.1.dataType value (scan.rows + row)
      pure { scan with
        hasher
        states := scan.states.set entry.2 { state with
          nonNullCount := state.nonNullCount + 1
          categories := state.categories.bind (observeCategory options.maxCategories · value) } }

def suggestBatch (options : SuggestOptions) (schema : Schema) :
    SuggestionScan ExactState → Except String RecordBatch →
      Run ω Fault (SuggestionScan ExactState) :=
  traverseBatch schema suggestSchemaChanged (suggestCell options) fun scan rows =>
    { scan with rows := scan.rows + rows }

/-- The uniqueness rule of a column in `render_contract`. -/
def suggestUnique (rows : ℕ) (unique : List String) (entry : Field × SuggestionState ExactState) :
    Run ω Fault (List String) :=
  match entry.2.distinct with
  | none => pure unique
  | some distinct => do
      let summary ← distinct.finish
      pure (if summary.distinctCount = rows then unique ++ [entry.1.name] else unique)

/-- `suggest_reader_with_options`. -/
def suggestReaderWithOptions (reader : BatchReader) (options : SuggestOptions)
    (rowCountHint : Option ℕ) : Run ω Fault Suggestion := do
  failIf (options.maxCategories = 0)
    (.error (.invalidContract "max_categories must be positive"))
  failIf (options.rangeTolerance.isFinite = false ∨ options.rangeTolerance.lt (.zero false) = true)
    (.error (.invalidContract "range_tolerance must be a finite non-negative number"))
  let directory ← createDirectoryIf (options.inferUniqueness && options.spill = .auto)
  let states ← reader.schema.fields.mapM fun field =>
    SuggestionState.new field.dataType options (.root options.resources) directory rowCountHint
      options.resources.maxMemoryBytes
  let scan ← reader.items.foldlM (suggestBatch options reader.schema)
    { hasher := profileHasher reader.schema, states, rows := 0 }
  let distinctRatio ← (reader.schema.fields.zip scan.states).foldlM (suggestUnique scan.rows) []
  pure { distinctRatio
         datasetFingerprint := v1Text scan.hasher
         rowsObserved := scan.rows
         uniquenessInferred := options.inferUniqueness }

end Suggest

end ProofFrame
