import ProofFrame.Execution.Assertions
import ProofFrame.Execution.Meaning

/-!
# Typed plans

A rule is typed when its columns are columns of the schema and its kernel is the
one their type has.  On a batch of the schema a typed rule ends in a value or in
an error: no downcast fails, no index is out of bounds, and no arm that is
unreachable is reached.
-/

namespace ProofFrame

open Lib Lib.Run Lib.Ieee754 Distinct
open Diff (IsError isError_error failsWith_canonicalValueBytes)

/-! ## Columns and cells -/

/-- The position is the one of a column the kernel is made for. -/
def Schema.Offers (schema : Schema) (kernel : KernelKind) (index : ℕ) : Prop :=
  ∃ field, schema.fields[index]? = some field ∧ kernel = .fromDataType field.dataType

/-- The position is the one of some column. -/
def Schema.HasColumn (schema : Schema) (index : ℕ) : Prop :=
  ∃ field, schema.fields[index]? = some field

theorem Schema.Offers.hasColumn {schema : Schema} {kernel : KernelKind} {index : ℕ}
    (h : schema.Offers kernel index) : schema.HasColumn index := by
  obtain ⟨field, hfield, -⟩ := h
  exact ⟨field, hfield⟩

section Cells

variable {schema : Schema} {batch : RecordBatch} {index : ℕ} {array : ArrowArray}

/-- The values of a type with a kernel of its own are scalars. -/
theorem exists_scalar {dataType : DataType} {value : Value} (h : dataType.Admits value)
    (hkernel : (KernelKind.fromDataType dataType).isFallback = false) :
    ∃ scalar, value = .scalar scalar ∧ dataType.AdmitsScalar scalar := by
  cases value with
  | scalar scalar => exact ⟨scalar, rfl, admitsScalar_of_admits h⟩
  | sequence items => cases dataType <;> first | exact absurd h id | cases hkernel
  | record cells => cases dataType <;> first | exact absurd h id | cases hkernel
  | raw bytes => cases dataType <;> first | exact absurd h id | (cases h; done) | cases hkernel

/-- A non-null cell is admitted by the type of its array. -/
theorem ArrowArray.admits {value : Value} (h : some value ∈ array.cells) :
    array.dataType.Admits value :=
  (array.typed _ h).present value rfl

end Cells

/-! ## Column rules -/

section Columns

variable [Crates] {dataType : DataType}

/-- The bounds of the rules are ones the kernel can read. -/
def CompiledRules.Bounded (rules : CompiledRules) (kernel : KernelKind) : Prop :=
  kernel.ReadsBound rules.min ∧ kernel.ReadsBound rules.max

theorem bounded_of_compileRules {column : String} {source : RuleAst} {rules : CompiledRules}
    {length : Option ℕ × Option ℕ}
    (h : compileRules column dataType (.fromDataType dataType) source length = .ok rules) :
    rules.Bounded (.fromDataType dataType) := by
  obtain ⟨_, -, h⟩ := bind_eq_ok.mp h
  obtain ⟨min, hmin, h⟩ := bind_eq_ok.mp h
  obtain ⟨max, hmax, h⟩ := bind_eq_ok.mp h
  obtain ⟨_, -, h⟩ := bind_eq_ok.mp h
  obtain ⟨pattern, -, h⟩ := bind_eq_ok.mp h
  obtain ⟨_, -, h⟩ := bind_eq_ok.mp h
  cases h
  exact ⟨readsBound_of_compileBound hmin, readsBound_of_compileBound hmax⟩

/-- The plan of a column of the schema. -/
structure ColumnPlan.Typed (schema : Schema) (plan : ColumnPlan) : Prop where
  offers : schema.Offers plan.kernel plan.columnIndex
  bounded : plan.rules.Bounded plan.kernel

variable {schema : Schema} {batch : RecordBatch}

theorem length_observedUniques {rows : ℕ} {columns : List (ColumnPlan × ℕ)} :
    ∀ {uniques : List (Option (List Record))} {observed : ColumnsObserved},
      observeColumns batch rows columns uniques = .ok observed →
        observed.uniques.length = columns.length := by
  induction columns with
  | nil =>
      intro uniques observed h
      cases h
      rfl
  | cons entry columns ih =>
      intro uniques observed h
      cases uniques with
      | nil => cases h
      | cons records uniques =>
          obtain ⟨array, events, rest, -, -, hrest, rfl⟩ := observeColumns_cons_eq_ok.mp h
          rw [List.length_cons, List.length_cons, ih hrest]

end Columns

/-! ## Row rules -/

section Rows

variable [Crates] {schema : Schema} {batch : RecordBatch}

/-- A comparison the compiler makes of some source. -/
def ComparePlan.Typed (schema : Schema) (plan : ComparePlan) : Prop :=
  ∃ (source : CompareAst) (dataType : DataType), source.CompilesTo schema dataType plan

/-- What the rules of a row are made for. -/
def RowPlanKind.Typed (schema : Schema) : RowPlanKind → Prop
  | .compare plan => plan.Typed schema
  | .conditional predicate column field assertion =>
      predicate.Typed schema ∧ schema.fields[column]? = some field ∧
        assertion.Bounded (.fromDataType field.dataType)

/-- The kernels that judge the values of an assertion. -/
def KernelKind.judgesRows : KernelKind → Bool
  | .binary | .largeBinary | .binaryView | .nested | .nullOnly => false
  | _ => true

/-- The other kernels reject the first value they meet. -/
theorem scanAssertionRow_unjudged {kernel : KernelKind} (h : kernel.judgesRows = false)
    (column ruleName : String) (row : ℕ) (rules : CompiledRules) (array : ArrowArray)
    (value : Value) :
    scanAssertionRow column ruleName row kernel rules array (some value) =
      .error (unsupportedType ("conditional assertion for " ++
        Crates.displayType array.dataType)) := by
  cases kernel <;> first | rfl | cases h

/-- A value of a judged type is judged, and a null always is. -/
theorem exists_scanAssertion {dataType : DataType} {rules : CompiledRules}
    (hbounded : rules.Bounded (.fromDataType dataType)) {array : ArrowArray}
    (harray : array.dataType = dataType) {cell : Option Value} (hcell : cell ∈ array.cells)
    (hjudged : (KernelKind.fromDataType dataType).judgesRows = true ∨ cell = none)
    (column ruleName : String) (row : ℕ) :
    ∃ events, scanAssertionRow column ruleName row (.fromDataType dataType) rules array cell =
      .ok events := by
  cases cell with
  | none => exact ⟨_, rfl⟩
  | some value =>
      have hkernel := hjudged.resolve_right (Option.some_ne_none value)
      have hfallback : (KernelKind.fromDataType dataType).isFallback = false := by
        cases hkind : KernelKind.fromDataType dataType <;> rw [hkind] at hkernel <;>
          first | rfl | cases hkernel
      have hadmits := array.admits hcell
      rw [harray] at hadmits
      obtain ⟨scalar, rfl, hscalar⟩ := exists_scalar hadmits hfallback
      have hdowncast : downcast (.fromDataType dataType) array = .ok () := by
        rw [downcast, harray, if_pos (reads_of_not_isFallback hfallback)]
      obtain ⟨hmin, hmax⟩ := hbounded
      unfold scanAssertionRow
      rw [hdowncast]
      cases dataType <;> first | exact absurd hkernel Bool.false_ne_true | skip
      case boolean => exact ⟨_, rfl⟩
      case utf8 | largeUtf8 | utf8View =>
        cases scalar <;> first | exact hscalar.elim | exact ⟨_, rfl⟩
      all_goals
        obtain ⟨minimum, hmin⟩ := hmin
        obtain ⟨maximum, hmax⟩ := hmax
        cases scalar <;> first | exact hscalar.elim | skip
        exact ⟨_, bind_eq_ok.mpr ⟨(), rfl, bind_eq_ok.mpr ⟨minimum, hmin, bind_eq_ok.mpr
          ⟨maximum, hmax, rfl⟩⟩⟩⟩

end Rows

end ProofFrame
