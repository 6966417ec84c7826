import ProofFrame.Contract.CompileContract
import ProofFrame.Diff.Rows
import ProofFrame.Execution.Predicates
import ProofFrame.Execution.SplitRules

/-!
# Column rules and conditional assertions

The rules of a column and the assertion of a conditional row rule are compiled by one function
and interpreted by two.  On the cells of a column both record a violation in the same rows, as
often.

The two interpreters are compared cell by cell (`agrees_cell`), kernel by kernel: where both
accept a cell, they read the same bounds and test them the same way.  Neither reads a bound of
another type than its own, since the compiler parses the bounds of a column at its type
(`readsBound_of_compileBound`).
-/

namespace ProofFrame

open Lib Lib.Run Lib.Ieee754
open Diff (IsError isError_error failsWith_canonicalValueBytes)

/-! ## Compiled bounds -/

/-- The kernel can read the bound. -/
def KernelKind.ReadsBound (kernel : KernelKind) (bound : Option TypedBound) : Prop :=
  match kernel with
  | .i8 | .i16 | .i32 | .i64 | .date32 | .date64 => ∃ value, signedBound bound = .ok value
  | .u8 | .u16 | .u32 | .u64 => ∃ value, unsignedBound bound = .ok value
  | .f32 => ∃ value, float32Bound bound = .ok value
  | .f64 => ∃ value, float64Bound bound = .ok value
  | .timestamp _ => ∃ value, timestampBound bound = .ok value
  | .decimal128 _ _ => ∃ value, decimalBound bound = .ok value
  | _ => True

section Bounds

variable [Crates] {dataType : DataType} {path : String}

theorem readsBound_of_parseBound {bound : BoundAst} {typed : TypedBound}
    (h : parseBound bound dataType path = .ok typed) :
    (KernelKind.fromDataType dataType).ReadsBound (some typed) := by
  have hinteger {make : ℤ → TypedBound} {value : Option ℤ} {text domain : String}
      (h : integerBound make value text path domain = .ok typed) : ∃ found, typed = make found := by
    obtain ⟨found, -, h⟩ := bind_eq_ok.mp h
    cases h
    exact ⟨found, rfl⟩
  cases dataType <;> first | exact trivial | skip
  case int8 | int16 | int32 | int64 =>
    obtain ⟨found, rfl⟩ := hinteger h
    exact ⟨_, rfl⟩
  case uint8 | uint16 | uint32 | uint64 =>
    obtain ⟨found, rfl⟩ := hinteger h
    exact ⟨_, rfl⟩
  case date32 | date64 | float32 | float64 | decimal128 =>
    obtain ⟨found, -, rfl⟩ := map_eq_ok.mp h
    exact ⟨_, rfl⟩
  case timestamp unit zone =>
    change parseTimestamp bound.asText unit path = .ok typed at h
    unfold parseTimestamp at h
    split at h
    · cases h
      exact ⟨_, rfl⟩
    · obtain ⟨⟨seconds, nanoseconds⟩, -, h⟩ := bind_eq_ok.mp h
      obtain ⟨_, -, h⟩ := bind_eq_ok.mp h
      obtain ⟨value, -, h⟩ := bind_eq_ok.mp h
      cases h
      exact ⟨_, rfl⟩

theorem readsBound_of_compileBound {bound : Option BoundAst} {typed : Option TypedBound}
    (h : compileBound bound dataType path = .ok typed) :
    (KernelKind.fromDataType dataType).ReadsBound typed := by
  cases bound with
  | none =>
      cases h
      cases dataType <;> first | exact trivial | exact ⟨_, rfl⟩
  | some bound =>
      obtain ⟨found, hfound, rfl⟩ := map_eq_ok.mp h
      exact readsBound_of_parseBound hfound

/-- What the compiler makes of rules without a length. -/
structure CompiledRules.Fits (rules : CompiledRules) (kernel : KernelKind) : Prop where
  min : kernel.ReadsBound rules.min
  max : kernel.ReadsBound rules.max
  minLength : rules.minLength = none
  maxLength : rules.maxLength = none

theorem fits_of_compileRules {column : String} {source : RuleAst} {rules : CompiledRules}
    (h : compileRules column dataType (.fromDataType dataType) source (none, none) = .ok rules) :
    rules.Fits (.fromDataType dataType) := by
  obtain ⟨_, -, h⟩ := bind_eq_ok.mp h
  obtain ⟨min, hmin, h⟩ := bind_eq_ok.mp h
  obtain ⟨max, hmax, h⟩ := bind_eq_ok.mp h
  obtain ⟨_, -, h⟩ := bind_eq_ok.mp h
  obtain ⟨pattern, -, h⟩ := bind_eq_ok.mp h
  obtain ⟨_, -, h⟩ := bind_eq_ok.mp h
  cases h
  exact ⟨readsBound_of_compileBound hmin, readsBound_of_compileBound hmax, rfl, rfl⟩

end Bounds

/-! ## Rows of violations -/

@[simp] theorem rowsOf_insert (value : Distinct.OwnedValue) (row : ℕ) :
    rowsOf [.insert value row] = [] := rfl

theorem rowsOf_record_if {condition : Prop} [Decidable condition] {finding : Finding} :
    rowsOf (if condition then [.record finding] else []) =
      if condition then [finding.row] else [] := by
  split <;> rfl

/-- Where both succeed, they record violations in the same rows, as often. -/
def Agrees (column assertion : Except Fault (List Event)) : Prop :=
  ∀ events events', column = .ok events → assertion = .ok events' → rowsOf events = rowsOf events'

theorem agrees_ok {events events' : List Event} (h : rowsOf events = rowsOf events') :
    Agrees (.ok events) (.ok events') := by
  rintro _ _ ⟨⟩ ⟨⟩
  exact h

theorem agrees_error_left {fault : Fault} {assertion : Except Fault (List Event)} :
    Agrees (.error fault) assertion := by
  rintro _ _ ⟨⟩

theorem agrees_error_right {fault : Fault} {column : Except Fault (List Event)} :
    Agrees column (.error fault) := by
  rintro _ _ _ ⟨⟩

theorem Agrees.collectRows {ι : Type} {column assertion : ι → ℕ → Except Fault (List Event)}
    {items : List ι} (h : ∀ item ∈ items, ∀ row, Agrees (column item row) (assertion item row))
    (rowOffset : ℕ) :
    Agrees (collectRows column items rowOffset) (collectRows assertion items rowOffset) := by
  intro events events' hevents hevents'
  obtain ⟨parts, hparts, rfl⟩ := collectRows_eq_ok.mp hevents
  obtain ⟨parts', hparts', rfl⟩ := collectRows_eq_ok.mp hevents'
  clear hevents hevents'
  have hagrees : ∀ entry ∈ items.zipIdx rowOffset,
      Agrees (column entry.1 entry.2) (assertion entry.1 entry.2) :=
    fun entry hentry => h entry.1 (List.fst_mem_of_mem_zipIdx hentry) entry.2
  generalize items.zipIdx rowOffset = entries at hparts hparts' hagrees
  induction hparts generalizing parts' with
  | nil =>
      cases hparts'
      rfl
  | @cons entry part entries parts hpart _ ih =>
      cases hparts' with
      | cons hpart' hparts' =>
          rw [List.flatten_cons, List.flatten_cons, rowsOf_append, rowsOf_append,
            hagrees entry List.mem_cons_self _ _ hpart hpart',
            ih _ hparts' fun other hother => hagrees other (List.mem_cons_of_mem _ hother)]

/-! ## The two interpreters on a cell -/

section Cells

variable {name column ruleName : String} {row : ℕ} {rules : CompiledRules}

theorem rowsOf_range {α : Type} [PartialOrd α] (value : α) (minimum maximum : Option α) :
    rowsOf (recordRange value minimum maximum name row) =
      rowsOf (scanAssertionRange column ruleName row value minimum maximum) := by
  unfold recordRange scanAssertionRange recordConditional
  simp only [rowsOf_append, rowsOf_record_if]

theorem rowsOf_float {eb mb : ℕ} (value : Ieee eb mb) (minimum maximum : Option (Ieee eb mb)) :
    rowsOf (scanFloat name rules minimum maximum value row) =
      rowsOf (scanFloatAssertion column ruleName row rules value minimum maximum) := by
  unfold scanFloat scanFloatAssertion
  rw [rowsOf_append, rowsOf_insert, List.append_nil]
  split
  · unfold recordNan recordConditional
    simp only [rowsOf_record_if]
  · exact rowsOf_range value minimum maximum

variable [Crates]

theorem rowsOf_text (value : String) (hmin : rules.minLength = none)
    (hmax : rules.maxLength = none) :
    Agrees (scanStrings name rules (.scalar (.text value)) row)
      (.ok (scanTextAssertion column ruleName row rules value)) := by
  apply agrees_ok
  simp only [scanTextAssertion, recordConditional, checkLength, hmin, hmax, Option.any_none,
    Bool.false_eq_true, if_false, rowsOf_append, rowsOf_insert, rowsOf_record_if,
    List.nil_append, List.append_nil]

/-- A value that both interpreters read. -/
theorem agrees_value {plan : ColumnPlan} {dataType : DataType} {unique : Bool} {kernel : CellKernel}
    (hkernel : plan.cellKernel dataType unique = .ok kernel)
    (hminLength : plan.rules.minLength = none) (hmaxLength : plan.rules.maxLength = none)
    (scalar : Scalar) :
    Agrees (kernel (.scalar scalar) row)
      (scanAssertionValue column ruleName row plan.kernel plan.rules scalar) := by
  obtain ⟨position, field, kind, rules⟩ := plan
  cases kind
  case i8 | i16 | i32 | i64 | date32 | date64 | timestamp =>
    obtain ⟨minimum, hmin, hkernel⟩ := bind_eq_ok.mp hkernel
    obtain ⟨maximum, hmax, hkernel⟩ := bind_eq_ok.mp hkernel
    cases hkernel
    cases scalar with
    | signed value =>
        simp only [scanAssertionValue, hmin, hmax, ok_bind]
        exact agrees_ok (by rw [rowsOf_append, rowsOf_insert, List.append_nil, rowsOf_range])
    | _ => exact agrees_error_left
  case u8 | u16 | u32 | u64 =>
    obtain ⟨minimum, hmin, hkernel⟩ := bind_eq_ok.mp hkernel
    obtain ⟨maximum, hmax, hkernel⟩ := bind_eq_ok.mp hkernel
    cases hkernel
    cases scalar with
    | unsigned value =>
        simp only [scanAssertionValue, hmin, hmax, ok_bind]
        exact agrees_ok (by rw [rowsOf_append, rowsOf_insert, List.append_nil, rowsOf_range])
    | _ => exact agrees_error_left
  case f32 =>
    obtain ⟨minimum, hmin, hkernel⟩ := bind_eq_ok.mp hkernel
    obtain ⟨maximum, hmax, hkernel⟩ := bind_eq_ok.mp hkernel
    cases hkernel
    cases scalar with
    | float32 value =>
        simp only [scanAssertionValue, hmin, hmax, ok_bind]
        exact agrees_ok (by exact rowsOf_float value minimum maximum)
    | _ => exact agrees_error_left
  case f64 =>
    obtain ⟨minimum, hmin, hkernel⟩ := bind_eq_ok.mp hkernel
    obtain ⟨maximum, hmax, hkernel⟩ := bind_eq_ok.mp hkernel
    cases hkernel
    cases scalar with
    | float64 value =>
        simp only [scanAssertionValue, hmin, hmax, ok_bind]
        exact agrees_ok (by exact rowsOf_float value minimum maximum)
    | _ => exact agrees_error_left
  case decimal128 =>
    obtain ⟨minimum, hmin, hkernel⟩ := bind_eq_ok.mp hkernel
    obtain ⟨maximum, hmax, hkernel⟩ := bind_eq_ok.mp hkernel
    cases hkernel
    cases scalar with
    | decimal value =>
        simp only [scanAssertionValue, hmin, hmax, ok_bind]
        exact agrees_ok (by rw [rowsOf_append, rowsOf_insert, List.append_nil, rowsOf_range])
    | _ => exact agrees_error_left
  case utf8 | largeUtf8 | utf8View =>
    cases hkernel
    cases scalar with
    | text value => exact rowsOf_text value hminLength hmaxLength
    | _ => exact agrees_error_left
  all_goals exact agrees_error_right

/-- A cell, null or not. -/
theorem agrees_cell {plan : ColumnPlan} {dataType : DataType} {unique : Bool} {kernel : CellKernel}
    (hkernel : plan.cellKernel dataType unique = .ok kernel)
    (hminLength : plan.rules.minLength = none) (hmaxLength : plan.rules.maxLength = none)
    (array : ArrowArray) (cell : Option Value) :
    Agrees (plan.cellEvents kernel cell row)
      (scanAssertionRow column ruleName row plan.kernel plan.rules array cell) := by
  cases cell with
  | none =>
      refine agrees_ok ?_
      simp only [recordNull, recordConditional, rowsOf_record_if]
  | some value =>
      have hvalue (read : Except Fault (List Event))
          (hread : ∀ scalar, value = .scalar scalar →
            read = scanAssertionValue column ruleName row plan.kernel plan.rules scalar)
          (hother : (∀ scalar, value ≠ .scalar scalar) → read = .error downcastFailed) :
          Agrees (kernel value row) (downcast plan.kernel array >>= fun _ => read) := by
        cases downcast plan.kernel array with
        | error fault => exact agrees_error_right
        | ok =>
            cases value with
            | scalar scalar =>
                rw [hread scalar rfl]
                exact agrees_value hkernel hminLength hmaxLength scalar
            | _ =>
                rw [hother fun _ => Value.noConfusion]
                exact agrees_error_right
      obtain ⟨position, field, kind, rules⟩ := plan
      cases kind
      case boolean =>
        -- neither interpreter tests a truth value
        cases hkernel
        change Agrees (scanBooleanKernel value row) (.ok [])
        unfold scanBooleanKernel
        split
        · exact agrees_ok (rowsOf_insert _ _)
        · exact agrees_error_left
      case binary | largeBinary | binaryView | nested | nullOnly => exact agrees_error_right
      all_goals
        refine hvalue _ ?_ fun hother => ?_
        · rintro scalar rfl
          rfl
        · cases value with
          | scalar scalar => exact absurd rfl (hother scalar)
          | _ => rfl

end Cells

/-! ## No bound of another type -/

theorem failsWith_collectRows {E : Fault → Prop} {ι : Type}
    {events : ι → ℕ → Except Fault (List Event)} {items : List ι}
    (h : ∀ item ∈ items, ∀ row, FailsWith E (events item row)) (rowOffset : ℕ) :
    FailsWith E (collectRows events items rowOffset) := by
  apply failsWith_foldlM
  intro entry hentry done
  apply (h entry.1 (List.fst_mem_of_mem_zipIdx hentry) entry.2).bind
  intro _ _
  exact failsWith_ok

section Mismatch

variable {plan : ColumnPlan} {dataType : DataType} {unique : Bool} {row : ℕ}

theorem boundMismatch_ne_downcastFailed : downcastFailed ≠ boundMismatch := by
  intro h
  exact absurd (Fault.panic.inj h) (by decide)

theorem ne_boundMismatch_of_isError {fault : Fault} (h : IsError fault) : fault ≠ boundMismatch := by
  obtain ⟨error, rfl⟩ := h
  nofun

theorem failsWith_downcast (kernel : KernelKind) (array : ArrowArray) :
    FailsWith (· ≠ boundMismatch) (downcast kernel array) := by
  unfold downcast
  split
  · exact failsWith_ok
  · exact failsWith_error boundMismatch_ne_downcastFailed

variable [Crates]

/-- A kernel over bounds it can read. -/
theorem exists_cellKernel (hmin : plan.kernel.ReadsBound plan.rules.min)
    (hmax : plan.kernel.ReadsBound plan.rules.max) :
    ∃ kernel, plan.cellKernel dataType unique = .ok kernel ∧
      ∀ value row, FailsWith (· ≠ boundMismatch) (kernel value row) := by
  obtain ⟨position, field, kind, rules⟩ := plan
  cases kind
  case boolean | binary | largeBinary | binaryView | utf8 | largeUtf8 | utf8View =>
    refine ⟨_, rfl, fun value row => ?_⟩
    first | unfold scanBooleanKernel | unfold scanBinary | unfold scanStrings
    split
    · exact failsWith_ok
    · exact failsWith_error boundMismatch_ne_downcastFailed
  case nested | nullOnly =>
    refine ⟨_, rfl, fun value row => ?_⟩
    unfold scanFallback
    split
    · apply FailsWith.bind
      · exact fun fault hfault =>
          ne_boundMismatch_of_isError (failsWith_canonicalValueBytes _ _ fault hfault)
      · intro _ _
        exact failsWith_ok
    · exact failsWith_ok
  all_goals
    obtain ⟨minimum, hmin⟩ := hmin
    obtain ⟨maximum, hmax⟩ := hmax
    refine ⟨_, bind_eq_ok.mpr ⟨minimum, hmin, bind_eq_ok.mpr ⟨maximum, hmax, rfl⟩⟩,
      fun value row => ?_⟩
    dsimp only
    split
    · exact failsWith_ok
    · exact failsWith_error boundMismatch_ne_downcastFailed

theorem failsWith_columnEvents (h : plan.rules.Fits plan.kernel) (array : ArrowArray)
    (rowOffset : ℕ) : FailsWith (· ≠ boundMismatch) (plan.events array unique rowOffset) := by
  obtain ⟨kernel, hkernel, hfails⟩ := @exists_cellKernel plan array.dataType unique _ h.min h.max
  apply FailsWith.bind
  · unfold ColumnPlan.prepare
    rw [hkernel]
    split
    · exact failsWith_ok
    · exact (failsWith_downcast _ _).bind fun _ _ => failsWith_ok
  intro found hfound
  obtain rfl : kernel = found :=
    Except.ok.inj (hkernel.symm.trans (cellKernel_of_prepare hfound))
  apply failsWith_collectRows
  intro cell _ row
  cases cell with
  | none => exact failsWith_ok
  | some value => exact hfails value row

theorem failsWith_scanAssertionValue {kernel : KernelKind} {rules : CompiledRules}
    (h : rules.Fits kernel) (column ruleName : String) (scalar : Scalar) :
    FailsWith (· ≠ boundMismatch)
      (scanAssertionValue column ruleName row kernel rules scalar) := by
  obtain ⟨hmin, hmax, -, -⟩ := h
  have hfailed : FailsWith (· ≠ boundMismatch)
      (.error downcastFailed : Except Fault (List Event)) :=
    failsWith_error boundMismatch_ne_downcastFailed
  cases kernel
  case utf8 | largeUtf8 | utf8View =>
    cases scalar with
    | text value => exact failsWith_ok
    | _ => exact hfailed
  case boolean | binary | largeBinary | binaryView | nested | nullOnly => exact hfailed
  all_goals
    obtain ⟨minimum, hmin⟩ := hmin
    obtain ⟨maximum, hmax⟩ := hmax
    cases scalar <;> first
      | exact hfailed
      | (simp only [scanAssertionValue, hmin, hmax, ok_bind]
         exact failsWith_ok)

theorem failsWith_scanAssertionRow {kernel : KernelKind} {rules : CompiledRules}
    (h : rules.Fits kernel) (column ruleName : String) (array : ArrowArray) (cell : Option Value) :
    FailsWith (· ≠ boundMismatch)
      (scanAssertionRow column ruleName row kernel rules array cell) := by
  have hfailed (dataType : DataType) : FailsWith (· ≠ boundMismatch)
      (.error (unsupportedType ("conditional assertion for " ++
        Crates.displayType dataType)) : Except Fault (List Event)) :=
    failsWith_error (ne_boundMismatch_of_isError (isError_error _))
  unfold scanAssertionRow
  split
  · exact failsWith_ok
  · split
    · exact failsWith_ok
    case h_7 =>
      apply (failsWith_downcast _ _).bind
      intro _ _
      split
      · exact failsWith_scanAssertionValue h _ _ _
      · exact failsWith_error boundMismatch_ne_downcastFailed
    all_goals exact hfailed _

theorem failsWith_conditionalEvents {field : Field} {rules : CompiledRules}
    (h : rules.Fits (.fromDataType field.dataType)) (name : String) (array : ArrowArray)
    (outcome : Option Bool × ℕ) :
    FailsWith (· ≠ boundMismatch) (conditionalEvents name array field rules outcome row) := by
  unfold conditionalEvents
  split
  · apply FailsWith.bind
    · unfold ArrowArray.cell
      cases array.cells[outcome.2]? with
      | none => exact failsWith_error (fun h => absurd (Fault.panic.inj h) (by decide))
      | some cell => exact failsWith_ok
    · intro cell _
      exact failsWith_scanAssertionRow h _ _ _ _
  · exact failsWith_ok

end Mismatch

/-! ## One meaning -/

/-- The guard of a conditional rule holds in every row of the batch. -/
def RowPlan.GuardHolds (plan : RowPlan) (batch : RecordBatch) : Prop :=
  ∃ predicate column field assertion outcomes,
    plan.kind = .conditional predicate column field assertion ∧
      scanPredicate predicate batch = .ok outcomes ∧ ∀ outcome ∈ outcomes, outcome = some true

section Rules

variable [Crates] {array : ArrowArray} {name : String} {field : Field} {rules : CompiledRules}

/-- Where the guard holds, the assertion goes over the cells as a column rule does. -/
theorem collectRows_conditional {outcomes : List (Option Bool)}
    (houtcomes : ∀ outcome ∈ outcomes, outcome = some true)
    (hlength : array.cells.length = outcomes.length) (rowOffset : ℕ) :
    collectRows (conditionalEvents name array field rules) outcomes.zipIdx rowOffset =
      collectRows (fun cell row => scanAssertionRow field.name name row
        (.fromDataType field.dataType) rules array cell) array.cells rowOffset := by
  have hpositions : outcomes.zipIdx =
      (List.range outcomes.length).map fun row => (some true, row) := by
    apply List.ext_getElem
    · simp
    · intro row hrow _
      have hlt : row < outcomes.length := by simpa using hrow
      simp [houtcomes _ (List.getElem_mem hlt)]
  rw [hpositions, collectRows_map, ← hlength]
  conv_rhs => rw [cells_eq_map array.cells, collectRows_map]
  apply collectRows_congr
  intro position hposition row
  have hlt : position < array.cells.length := List.mem_range.mp hposition
  have hcell : array.cell position = .ok array.cells[position] := by
    rw [cell_eq_ok, List.getElem?_eq_getElem hlt]
  rw [conditionalEvents, if_pos rfl, hcell, ok_bind, List.getElem?_eq_getElem hlt,
    Option.join_some]

omit [Crates] in
theorem name_of_resolve {schema : Schema} {name : String} {index : ℕ} {field : Field}
    (h : schema.resolve name = some (index, field)) : field.name = name := by
  obtain ⟨found, hindex, hfield⟩ := Option.bind_eq_some_iff.mp h
  obtain ⟨resolved, hresolved, heq⟩ := Option.map_eq_some_iff.mp hfield
  cases heq
  obtain ⟨hlt, hname, -⟩ := List.findIdx?_eq_some_iff_getElem.mp hindex
  rw [List.getElem?_eq_getElem hlt] at hresolved
  cases hresolved
  simpa using hname

/-- What a column rule and an assertion with the same rules compile to. -/
theorem exists_rules {schema : Schema} {source : RowRuleAst} {assertion : AssertionAst}
    {index position : ℕ} {columnPlan : ColumnPlan} {rowPlan : RowPlan}
    (hcompare : source.compare = none) (hassertion : source.assertion = some assertion)
    (hresolve : schema.resolve assertion.column = some (position, field))
    (hcolumn : CompiledContract.compileColumnPlan (field, position) assertion.rules (none, none) =
      .ok columnPlan)
    (hrow : RowPlan.compile source schema index = .ok rowPlan) :
    ∃ rules predicate, rules.Fits (.fromDataType field.dataType) ∧
      columnPlan = ⟨position, field, .fromDataType field.dataType, rules⟩ ∧
      rowPlan = ⟨source.name, .conditional predicate position field rules⟩ ∧
      ∃ guard dataType, source.when = some guard ∧ guard.CompilesTo schema dataType predicate := by
  obtain ⟨rules, hrules, hcolumn⟩ := bind_eq_ok.mp hcolumn
  cases hcolumn
  obtain ⟨kind, hkind, hrow⟩ := bind_eq_ok.mp hrow
  cases hrow
  rw [compileKind, hcompare] at hkind
  obtain ⟨guard, hguard, hkind⟩ := bind_eq_ok.mp hkind
  obtain ⟨found, hfound, hkind⟩ := bind_eq_ok.mp hkind
  obtain rfl : assertion = found :=
    Option.some.inj (hassertion.symm.trans (required_eq_ok.mp hfound))
  obtain ⟨resolved, hresolved, hkind⟩ := bind_eq_ok.mp hkind
  obtain rfl : (position, field) = resolved :=
    Option.some.inj (hresolve.symm.trans (required_eq_ok.mp hresolved))
  obtain ⟨compiled, hcompiled, hkind⟩ := bind_eq_ok.mp hkind
  obtain ⟨predicate, hpredicate, hkind⟩ := bind_eq_ok.mp hkind
  cases hkind
  -- both are compiled under the name of the column
  obtain rfl : rules = compiled := by
    rw [← name_of_resolve hresolve] at hcompiled
    exact Except.ok.inj (hrules.symm.trans hcompiled)
  obtain ⟨dataType, hguardPlan⟩ := compileCompare_eq_ok.mp hpredicate
  exact ⟨rules, predicate, fits_of_compileRules hrules, rfl, rfl, guard, dataType,
    required_eq_ok.mp hguard, hguardPlan⟩

/-- A column rule and a conditional rule with the same assertion mean the same.  Neither reads a
bound of another type than the column's, and where the guard holds in every row, both record
violations in the same rows, as many in each. -/
theorem columnRule_agrees_with_assertion {schema : Schema} {source : RowRuleAst}
    {assertion : AssertionAst} {index position : ℕ} {columnPlan : ColumnPlan} {rowPlan : RowPlan}
    (hcompare : source.compare = none) (hassertion : source.assertion = some assertion)
    (hresolve : schema.resolve assertion.column = some (position, field))
    (hcolumn : CompiledContract.compileColumnPlan (field, position) assertion.rules (none, none) =
      .ok columnPlan)
    (hrow : RowPlan.compile source schema index = .ok rowPlan) {batch : RecordBatch}
    (hbatch : batch.schema = schema) :
    ∃ array, batch.column columnPlan.columnIndex = .ok array ∧ ∀ unique rowOffset,
      columnPlan.events array unique rowOffset ≠ .error boundMismatch ∧
      rowPlan.events batch rowOffset ≠ .error boundMismatch ∧
      (rowPlan.GuardHolds batch → ∀ events events',
        columnPlan.events array unique rowOffset = .ok events →
          rowPlan.events batch rowOffset = .ok events' → rowsOf events = rowsOf events') := by
  obtain ⟨rules, predicate, hfits, rfl, rfl, guard, dataType, -, hguard⟩ :=
    exists_rules hcompare hassertion hresolve hcolumn hrow
  obtain ⟨array, harray, hfield, hrows⟩ := column_of_resolve hbatch hresolve
  have hevents (rowOffset : ℕ) :
      RowPlan.events ⟨source.name, .conditional predicate position field rules⟩ batch rowOffset =
        (scanPredicate predicate batch >>= fun outcomes =>
          collectRows (conditionalEvents source.name array field rules) outcomes.zipIdx
            rowOffset) := by
    unfold RowPlan.events RowPlan.prepare
    simp only [column_eq_ok.mpr harray, ok_bind, bind_assoc]
  obtain ⟨outcomes, houtcomes⟩ := exists_scanPredicate hguard hbatch
  simp only [hevents, houtcomes, ok_bind]
  refine ⟨array, column_eq_ok.mpr harray, fun unique rowOffset => ⟨fun hpanic => ?_,
    fun hpanic => ?_, ?_⟩⟩
  · exact failsWith_columnEvents hfits array rowOffset _ hpanic rfl
  · exact failsWith_collectRows (fun outcome _ row => failsWith_conditionalEvents hfits _ _ outcome)
      rowOffset _ hpanic rfl
  · rintro ⟨_, _, _, _, found, hkind, hfound, hholds⟩
    cases hkind
    obtain rfl : outcomes = found := Except.ok.inj (houtcomes.symm.trans hfound)
    rw [collectRows_conditional hholds (hrows.trans (length_scanPredicate houtcomes).symm)]
    intro events events' hcolumnEvents
    obtain ⟨kernel, hkernel, hcolumnEvents⟩ := bind_eq_ok.mp hcolumnEvents
    exact Agrees.collectRows (fun cell _ row => agrees_cell (cellKernel_of_prepare hkernel)
      hfits.minLength hfits.maxLength array cell) rowOffset events events' hcolumnEvents

end Rules

/-- Where the limit is `-5`, the value is present and not below it. -/
def atLeastTheLimit : RowRuleAst where
  name := "at_least_the_limit"
  compare := none
  when := some ⟨.column "limit", .eq, .literal (.number "-5"), .skip⟩
  assertion := some ⟨"value", true, some (.number "-5"), none, none, none, none⟩

theorem columnRule_agrees_with_assertion_bytes : let _ : Crates := Crates.zeroDigests
    ∃ plan, RowPlan.compile atLeastTheLimit byteBatch.schema 0 = .ok plan ∧
      plan.GuardHolds byteBatch ∧ plan.events byteBatch 0 ≠ .error boundMismatch ∧
      ∀ events, plan.events byteBatch 0 = .ok events → rowsOf events = [some 0, some 1] := by
  intro _
  have hrow : RowPlan.compile atLeastTheLimit byteBatch.schema 0 = .ok _ := rfl
  obtain ⟨array, harray, hagrees⟩ := columnRule_agrees_with_assertion rfl rfl rfl rfl hrow
    (rfl : byteBatch.schema = _)
  cases harray
  obtain ⟨-, hreads, hrows⟩ := hagrees false 0
  refine ⟨_, hrow, ?guard, hreads, fun events hevents => (hrows ?guard _ events rfl hevents).symm⟩
  exact ⟨_, _, _, _, [some true, some true], rfl, rfl, by decide⟩

end ProofFrame
