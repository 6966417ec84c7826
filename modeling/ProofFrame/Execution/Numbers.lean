import ProofFrame.Contract.CompileContract
import ProofFrame.Execution.Accumulators
import ProofFrame.Execution.RuleRuns
import ProofFrame.Execution.WellTyped

/-!
# Rules over numbers

The totals, the statistics and the balances of an execution hold what their
accumulators make of the values of their columns, row after row, however the rows
are cut into batches.
-/

namespace ProofFrame

open Lib Lib.Run Lib.Ieee754

/-! ## Columns of numbers -/

/-- A cell read as the float a statistic takes it for. -/
def readsNumber (scalar : Scalar) (value : F64) : Prop := scalar.asF64 = some value

theorem exists_integer {kernel : KernelKind} {dataType : DataType} {scalar : Scalar}
    (hinteger : kernel.isInteger = true) (hreads : kernel.reads dataType = true)
    (hadmits : dataType.AdmitsScalar scalar) : ∃ value, scalar.integer = some value := by
  cases scalar <;> cases dataType <;> try exact hadmits.elim
  all_goals cases kernel <;> first
    | exact ⟨_, rfl⟩
    | exact absurd hinteger Bool.false_ne_true
    | exact absurd hreads Bool.false_ne_true

theorem integer_eq_none {kernel : KernelKind} {dataType : DataType} {scalar : Scalar}
    (hfloat : kernel.isFloat = true) (hreads : kernel.reads dataType = true)
    (hadmits : dataType.AdmitsScalar scalar) : scalar.integer = none := by
  cases scalar <;> cases dataType <;> try exact hadmits.elim
  all_goals cases kernel <;> first
    | rfl
    | exact absurd hfloat Bool.false_ne_true
    | exact absurd hreads Bool.false_ne_true

theorem reads_of_isNumeric {dataType : DataType}
    (h : (KernelKind.fromDataType dataType).isNumeric = true) :
    (KernelKind.fromDataType dataType).reads dataType = true := by
  cases dataType <;> first | rfl | cases h

/-- A numeric column holds the numbers that are read of its cells. -/
theorem carries_numbers {schema : Schema} {index : ℕ} {field : Field}
    (hfield : schema.fields[index]? = some field)
    (hnumeric : (KernelKind.fromDataType field.dataType).isNumeric = true)
    {batches : List RecordBatch} (hbatches : ∀ batch ∈ batches, batch.schema = schema) :
    Carries readsNumber index field.dataType batches (columnValues Scalar.asF64 index batches) := by
  have hkernel : (KernelKind.fromDataType field.dataType).isFallback = false := by
    generalize field.dataType = dataType at hnumeric
    cases dataType <;> first | rfl | cases hnumeric
  have hreads : ∀ value, field.dataType.Admits value →
      ∃ read, CellReads readsNumber (some value) (some read) ∧ True := by
    intro value hadmits
    obtain ⟨scalar, rfl, hscalar⟩ := exists_scalar hadmits hkernel
    generalize field.dataType = dataType at hnumeric hscalar
    cases scalar <;> cases dataType <;> first
      | exact ⟨_, rfl, trivial⟩
      | exact hscalar.elim
      | cases hnumeric
  obtain ⟨values, hcarries, -⟩ := exists_carries hfield hreads hbatches
  rwa [hcarries.columnValues_eq]

/-- The numbers of a column, row after row. -/
def numbersOf (index : ℕ) (batches : List RecordBatch) : List F64 :=
  (columnValues Scalar.asF64 index batches).reduceOption

theorem length_numbersOf_le (index : ℕ) (batches : List RecordBatch) :
    (numbersOf index batches).length ≤ (batches.map RecordBatch.rows).sum := by
  refine (List.reduceOption_length_le _).trans ?_
  rw [columnValues, List.length_map]
  exact length_columnCells_le index batches

variable {index : ℕ} {dataType : DataType} {batches : List RecordBatch} {values : List (Option F64)}

/-- Cells that are added one by one add their values. -/
theorem foldCells_eq {σ τ : Type} {step : σ → Value → Except Fault σ} (state : τ → σ)
    (add : τ → F64 → τ) {cells : List (Option Value)}
    (hcells : List.Forall₂ (CellReads readsNumber) cells values)
    (hstep : ∀ scalar value t, some (.scalar scalar) ∈ cells → readsNumber scalar value →
      step (state t) (.scalar scalar) = .ok (state (add t value))) (t : τ) :
    foldCells step cells (state t) = .ok (state (values.reduceOption.foldl add t)) := by
  induction hcells generalizing t with
  | nil => rfl
  | @cons cell value cells values hcell _ ih =>
      have hrest := ih fun scalar value t hmem => hstep scalar value t (List.mem_cons_of_mem _ hmem)
      match cell, value, hcell with
      | none, none, _ => exact hrest t
      | some (.scalar scalar), some value, hread =>
          have hfirst := hstep scalar value t List.mem_cons_self hread
          have hfold := hrest (add t value)
          unfold foldCells at hfold ⊢
          show List.foldlM _ _ (.scalar scalar :: cells.filterMap id) = _
          rw [List.foldlM_cons, hfirst, ok_bind, hfold]
          rfl

/-- Batches that are added one by one add the values of the column. -/
theorem foldlM_carries {σ τ : Type} {update : RecordBatch → σ → Except Fault σ} (state : τ → σ)
    (add : τ → F64 → τ)
    (hupdate : ∀ batch array values t, batch.column index = .ok array → array.dataType = dataType →
      List.Forall₂ (CellReads readsNumber) array.cells values →
        update batch (state t) = .ok (state (values.reduceOption.foldl add t)))
    (hcarries : Carries readsNumber index dataType batches values) (t : τ) :
    batches.foldlM (fun before batch => update batch before) (state t) =
      .ok (state (values.reduceOption.foldl add t)) := by
  induction hcarries generalizing t with
  | nil => rfl
  | @cons batch batches array values rest hcolumn hdataType hcells _ ih =>
      rw [List.foldlM_cons, hupdate batch array values t hcolumn hdataType hcells, ok_bind, ih,
        List.reduceOption_append, List.foldl_append]

variable [Crates] {kernel : KernelKind} {array : ArrowArray}

/-- The cells of a numeric array add their values to a float total. -/
theorem accumulate_numbers (hnumeric : kernel.isNumeric = true)
    (hreads : kernel.reads array.dataType = true)
    (hcells : List.Forall₂ (CellReads readsNumber) array.cells values) (total : Neumaier) :
    accumulate (.float total) kernel array =
      .ok (.float (total.addFloats values.reduceOption)) := by
  have hdowncast : datasetDowncast kernel array = .ok () := if_pos hreads
  have hadmits : ∀ scalar, some (.scalar scalar) ∈ array.cells →
      array.dataType.AdmitsScalar scalar := fun scalar hmem => admitsScalar_of_cell (array.typed _ hmem)
  unfold accumulate
  by_cases hinteger : kernel.isInteger = true
  · rw [if_pos hinteger, hdowncast, ok_bind]
    refine foldCells_eq Total.float Neumaier.add hcells (fun scalar value t hmem hread => ?_) total
    obtain ⟨integer, heq⟩ := exists_integer hinteger hreads (hadmits scalar hmem)
    have hvalue : Ieee.ofInt integer = value := by
      rw [readsNumber, Scalar.asF64, heq] at hread
      exact Option.some.inj hread
    rw [readCell, heq, ok_bind, ← hvalue]
    rfl
  · have hfloat : kernel.isFloat = true := by
      rw [KernelKind.isNumeric, Bool.or_eq_true] at hnumeric
      exact hnumeric.resolve_left hinteger
    rw [if_neg hinteger, if_pos hfloat, hdowncast, ok_bind]
    refine foldCells_eq Total.float Neumaier.add hcells (fun scalar value t hmem hread => ?_) total
    rw [readsNumber, Scalar.asF64, integer_eq_none hfloat hreads (hadmits scalar hmem)] at hread
    have hread : scalar.float = some value := hread
    rw [readCell, hread, ok_bind]
    rfl

/-- The cells of a numeric array are observed one by one. -/
theorem observeMoments_numbers (hnumeric : kernel.isNumeric = true)
    (hreads : kernel.reads array.dataType = true)
    (hcells : List.Forall₂ (CellReads readsNumber) array.cells values) (moments : Moments) :
    observeMoments moments kernel array = .ok (values.reduceOption.foldl Moments.add moments) := by
  have hdowncast : datasetDowncast kernel array = .ok () := if_pos hreads
  have hnumeric : (kernel.isInteger || kernel.isFloat) = true := hnumeric
  rw [observeMoments, if_pos hnumeric, hdowncast, ok_bind]
  refine foldCells_eq id Moments.add hcells (fun scalar value t _ hread => ?_) moments
  rw [readCell, show scalar.asF64 = some value from hread, ok_bind]
  rfl

/-! ## Rules -/

namespace SumState

/-- An integer total goes through batches as an integer. -/
theorem exists_integer_total {plan : SumPlan} (hinteger : plan.kernel.isInteger = true) :
    ∀ {batches : List RecordBatch} {total : ℤ} {state : SumState},
      observeBatches batches { plan, total := .integer total } = .ok state →
        ∃ total, state = { plan, total := .integer total } := by
  have hfold : ∀ {values : List Value} {total : ℤ} {next : Total},
      values.foldlM (fun (total : Total) value => do
        let value ← readCell Scalar.integer value
        total.addInteger value) (.integer total) = .ok next → ∃ total, next = .integer total := by
    intro values total next h
    refine foldlM_invariant (P := fun _ next => ∃ total, next = Total.integer total) ⟨total, rfl⟩ ?_ h
    rintro _ value _ _ - ⟨total, rfl⟩ hnext
    obtain ⟨integer, -, hnext⟩ := bind_eq_ok.mp hnext
    rw [Total.addInteger] at hnext
    split at hnext
    · cases hnext
      exact ⟨_, rfl⟩
    · cases hnext
  intro batches
  induction batches with
  | nil =>
      intro total state h
      cases h
      exact ⟨total, rfl⟩
  | cons batch batches ih =>
      intro total state h
      rw [observeBatches, List.foldlM_cons] at h
      obtain ⟨middle, hmiddle, h⟩ := bind_eq_ok.mp h
      obtain ⟨array, -, hmiddle⟩ := bind_eq_ok.mp hmiddle
      obtain ⟨next, hnext, hmiddle⟩ := bind_eq_ok.mp hmiddle
      cases hmiddle
      rw [accumulate, if_pos hinteger] at hnext
      obtain ⟨_, -, hnext⟩ := bind_eq_ok.mp hnext
      obtain ⟨total, rfl⟩ := hfold hnext
      exact ih h

/-- A float total goes through batches as the sum of their values. -/
theorem observeBatches_float {plan : SumPlan} (hnumeric : plan.kernel.isNumeric = true)
    (hreads : plan.kernel.reads dataType = true)
    (hcarries : Carries readsNumber plan.columnIndex dataType batches values) :
    observeBatches batches { plan, total := .float .new } =
      .ok { plan, total := .float (.addFloats .new values.reduceOption) } := by
  refine foldlM_carries (fun total => ({ plan, total := .float total } : SumState)) Neumaier.add
    ?_ hcarries .new
  intro batch array values total hcolumn hdataType hcells
  show (batch.column plan.columnIndex >>= _) = _
  rw [hcolumn, ok_bind]
  show (accumulate _ _ _ >>= _) = _
  rw [accumulate_numbers hnumeric (hdataType ▸ hreads) hcells]
  rfl

end SumState

/-- The moments go through batches as those of the values. -/
theorem StatisticState.observeBatches_eq {plan : StatisticPlan} (hnumeric : plan.kernel.isNumeric = true)
    (hreads : plan.kernel.reads dataType = true)
    (hcarries : Carries readsNumber plan.columnIndex dataType batches values) :
    observeBatches batches (.fresh plan) =
      .ok { plan, moments := .observed values.reduceOption } := by
  refine foldlM_carries (fun moments => ({ plan, moments } : StatisticState)) Moments.add
    ?_ hcarries .new
  intro batch array values moments hcolumn hdataType hcells
  show (batch.column plan.columnIndex >>= _) = _
  rw [hcolumn, ok_bind]
  show (observeMoments _ _ _ >>= _) = _
  rw [observeMoments_numbers hnumeric (hdataType ▸ hreads) hcells]
  rfl

theorem BalanceState.update_eq {plan : BalanceEqualPlan} {batch : RecordBatch} {array array' : ArrowArray}
    {before before' left right : Total} (h : batch.column plan.left = .ok array)
    (h' : batch.column plan.right = .ok array')
    (hadd : accumulate before plan.leftKernel array = .ok left)
    (hadd' : accumulate before' plan.rightKernel array' = .ok right) :
    update batch { plan, left := before, right := before' } = .ok { plan, left, right } := by
  rw [update]
  simp only [h, h']
  show (accumulate _ _ _ >>= _) = _
  rw [hadd]
  show (accumulate _ _ _ >>= _) = _
  rw [hadd']
  rfl

theorem BalanceState.observeBatches_numbers {plan : BalanceEqualPlan} {leftType rightType : DataType}
    (hleft : plan.leftKernel.isNumeric = true) (hright : plan.rightKernel.isNumeric = true)
    (hleftReads : plan.leftKernel.reads leftType = true)
    (hrightReads : plan.rightKernel.reads rightType = true) {batches : List RecordBatch} :
    ∀ {left right : List (Option F64)}, Carries readsNumber plan.left leftType batches left →
      Carries readsNumber plan.right rightType batches right → ∀ l r : Neumaier,
      observeBatches batches { plan, left := .float l, right := .float r } =
        .ok { plan, left := .float (l.addFloats left.reduceOption)
              right := .float (r.addFloats right.reduceOption) } := by
  induction batches with
  | nil =>
      intro left right hleft hright l r
      cases hleft
      cases hright
      rfl
  | cons batch batches ih =>
      intro left right hcarries hcarries' l r
      cases hcarries with
      | cons hcolumn hdataType hcells hrest =>
      cases hcarries' with
      | cons hcolumn' hdataType' hcells' hrest' =>
      have hadd := accumulate_numbers hleft (hdataType ▸ hleftReads) hcells l
      have hadd' := accumulate_numbers hright (hdataType' ▸ hrightReads) hcells' r
      rw [observeBatches, List.foldlM_cons, update_eq hcolumn hcolumn' hadd hadd']
      have hrun := ih hrest hrest'
      simp only [List.reduceOption_append, Neumaier.addFloats, List.foldl_append] at hrun ⊢
      exact hrun _ _

/-! ## Compiled rules -/

/-- What is known of a sum that compiled against a schema. -/
structure SumPlan.CompiledFor (plan : SumPlan) (schema : Schema) : Prop where
  column : ∃ field, schema.fields[plan.columnIndex]? = some field ∧
    plan.kernel = .fromDataType field.dataType
  numeric : plan.kernel.isNumeric = true
  integer : plan.kernel.isInteger = true → ∃ min max, plan.bounds = .integer min max
  float : plan.kernel.isInteger = false → ∃ min max, plan.bounds = .float min max ∧
    (∀ bound ∈ min, bound.isFinite = true) ∧ ∀ bound ∈ max, bound.isFinite = true

omit [Crates] in
theorem totalBound_finite {what path : String} {bound : Option BoundAst} {limit : Option F64}
    (h : totalBound (fun text => (Ieee.parse text : Option F64).filter Ieee.isFinite) what path bound =
      .ok limit) : ∀ value ∈ limit, value.isFinite = true := by
  cases bound with
  | none =>
      cases h
      simp
  | some bound =>
      obtain ⟨value, hvalue, h⟩ := bind_eq_ok.mp h
      cases h
      rintro _ ⟨⟩
      exact (Option.filter_eq_some_iff.mp (required_eq_ok.mp hvalue)).2

theorem SumPlan.compiledFor_of_compile {schema : Schema} {entry : SumAst × ℕ} {plan : SumPlan}
    (h : compileSum schema entry = .ok plan) : plan.CompiledFor schema := by
  obtain ⟨column, hcolumn, h⟩ := bind_eq_ok.mp h
  obtain ⟨bounds, hbounds, h⟩ := bind_eq_ok.mp h
  cases h
  obtain ⟨_, hnumeric, hbounds⟩ := bind_eq_ok.mp hbounds
  have hnumeric := rejectIf_eq_ok.mp hnumeric
  rw [Bool.not_eq_true', Bool.not_eq_false] at hnumeric
  refine ⟨⟨_, field_of_requireColumn hcolumn, rfl⟩, hnumeric, fun hinteger => ?_, fun hfloat => ?_⟩
  · rw [if_pos hinteger] at hbounds
    obtain ⟨min, max, -, -, rfl⟩ := map_seq_eq_ok.mp hbounds
    exact ⟨min, max, rfl⟩
  · have hfloat : ¬(kernelOf column).isInteger = true := by
      rw [show (kernelOf column).isInteger = false from hfloat]
      decide
    rw [if_neg hfloat] at hbounds
    obtain ⟨min, max, hmin, hmax, rfl⟩ := map_seq_eq_ok.mp hbounds
    exact ⟨min, max, rfl, totalBound_finite hmin, totalBound_finite hmax⟩

/-- What is known of a statistic that compiled against a schema. -/
structure StatisticPlan.CompiledFor (plan : StatisticPlan) (schema : Schema) : Prop where
  column : ∃ field, schema.fields[plan.columnIndex]? = some field ∧
    plan.kernel = .fromDataType field.dataType
  numeric : plan.kernel.isNumeric = true
  min : ∀ bound ∈ plan.min, bound.isFinite = true
  max : ∀ bound ∈ plan.max, bound.isFinite = true

omit [Crates] in
theorem isFinite_of_requireFinite {path name : String} {limit : Option F64}
    (h : requireFinite path (name, limit) = .ok ()) : ∀ bound ∈ limit, bound.isFinite = true := by
  rintro bound hbound
  have h := rejectIf_eq_ok.mp h
  rw [Option.mem_def.mp hbound, Option.any_some, Bool.not_eq_true', Bool.not_eq_false] at h
  exact h

theorem StatisticPlan.compiledFor_of_compile {schema : Schema} {kind : StatisticKind}
    {entry : StatisticAst × ℕ} {plan : StatisticPlan}
    (h : compileStatistic schema kind entry = .ok plan) : plan.CompiledFor schema := by
  obtain ⟨_, hmin, h⟩ := bind_eq_ok.mp h
  obtain ⟨_, hmax, h⟩ := bind_eq_ok.mp h
  obtain ⟨column, hcolumn, h⟩ := bind_eq_ok.mp h
  obtain ⟨_, hnumeric, h⟩ := bind_eq_ok.mp h
  cases h
  have hnumeric := rejectIf_eq_ok.mp hnumeric
  rw [Bool.not_eq_true', Bool.not_eq_false] at hnumeric
  exact ⟨⟨_, field_of_requireColumn hcolumn, rfl⟩, hnumeric, isFinite_of_requireFinite hmin,
    isFinite_of_requireFinite hmax⟩

/-- What is known of a balance that compiled against a schema. -/
structure BalanceEqualPlan.CompiledFor (plan : BalanceEqualPlan) (schema : Schema) : Prop where
  tolerance_finite : plan.tolerance.isFinite = true
  left : ∃ field, schema.fields[plan.left]? = some field ∧
    plan.leftKernel = .fromDataType field.dataType
  right : ∃ field, schema.fields[plan.right]? = some field ∧
    plan.rightKernel = .fromDataType field.dataType
  left_numeric : plan.leftKernel.isNumeric = true
  right_numeric : plan.rightKernel.isNumeric = true

theorem numericColumn_eq_ok {schema : Schema} {column path : String} {found : ℕ × Field}
    (h : numericColumn schema column path = .ok found) :
    schema.fields[found.1]? = some found.2 ∧ (kernelOf found).isNumeric = true := by
  obtain ⟨resolved, hresolved, h⟩ := bind_eq_ok.mp h
  obtain ⟨_, hnumeric, h⟩ := bind_eq_ok.mp h
  cases h
  have hnumeric := rejectIf_eq_ok.mp hnumeric
  rw [Bool.not_eq_true', Bool.not_eq_false] at hnumeric
  exact ⟨field_of_requireColumn hresolved, hnumeric⟩

theorem BalanceEqualPlan.compiledFor_of_compile {schema : Schema} {entry : BalanceEqualAst × ℕ}
    {plan : BalanceEqualPlan} (h : compileBalance schema entry = .ok plan) :
    plan.CompiledFor schema := by
  obtain ⟨_, htolerance, h⟩ := bind_eq_ok.mp h
  obtain ⟨left, hleft, h⟩ := bind_eq_ok.mp h
  obtain ⟨right, hright, h⟩ := bind_eq_ok.mp h
  cases h
  have htolerance := rejectIf_eq_ok.mp htolerance
  rw [Bool.not_eq_true, Bool.not_eq_false', Bool.and_eq_true] at htolerance
  obtain ⟨hleft, hleftNumeric⟩ := numericColumn_eq_ok hleft
  obtain ⟨hright, hrightNumeric⟩ := numericColumn_eq_ok hright
  exact ⟨htolerance.1, ⟨_, hleft, rfl⟩, ⟨_, hright, rfl⟩, hleftNumeric, hrightNumeric⟩

/-- A compiled balance goes through batches as two sums. -/
theorem BalanceEqualPlan.CompiledFor.observeBatches_eq {plan : BalanceEqualPlan} {schema : Schema}
    (h : plan.CompiledFor schema) (hbatches : ∀ batch ∈ batches, batch.schema = schema) :
    BalanceState.observeBatches batches (.fresh plan) =
      .ok { plan, left := .float (.addFloats .new (numbersOf plan.left batches))
            right := .float (.addFloats .new (numbersOf plan.right batches)) } := by
  obtain ⟨field, hfield, hkernel⟩ := h.left
  obtain ⟨field', hfield', hkernel'⟩ := h.right
  have hleft := hkernel ▸ h.left_numeric
  have hright := hkernel' ▸ h.right_numeric
  exact BalanceState.observeBatches_numbers h.left_numeric h.right_numeric
    (hkernel ▸ reads_of_isNumeric hleft) (hkernel' ▸ reads_of_isNumeric hright)
    (carries_numbers hfield hleft hbatches) (carries_numbers hfield' hright hbatches) .new .new

/-- The rules over numbers of a plan are ones that compiled. -/
structure DatasetPlan.Numeric (schema : Schema) (plan : DatasetPlan) : Prop where
  sums : ∀ rule ∈ plan.sums, rule.CompiledFor schema
  statistics : ∀ rule ∈ plan.statistics, rule.CompiledFor schema
  balances : ∀ rule ∈ plan.balanceEqual, rule.CompiledFor schema

theorem numeric_of_compileDataset {contract : ContractAstV2} {schema : Schema} {plan : DatasetPlan}
    (h : DatasetPlan.compile contract schema = .ok plan) : plan.Numeric schema := by
  obtain ⟨_, -, h⟩ := bind_eq_ok.mp h
  obtain ⟨_, -, h⟩ := bind_eq_ok.mp h
  obtain ⟨_, -, h⟩ := bind_eq_ok.mp h
  obtain ⟨_, -, h⟩ := bind_eq_ok.mp h
  obtain ⟨_, -, h⟩ := bind_eq_ok.mp h
  obtain ⟨_, -, h⟩ := bind_eq_ok.mp h
  obtain ⟨_, -, h⟩ := bind_eq_ok.mp h
  obtain ⟨_, -, h⟩ := bind_eq_ok.mp h
  obtain ⟨_, hsums, h⟩ := bind_eq_ok.mp h
  obtain ⟨_, hmeans, h⟩ := bind_eq_ok.mp h
  obtain ⟨_, hdeviations, h⟩ := bind_eq_ok.mp h
  obtain ⟨_, -, h⟩ := bind_eq_ok.mp h
  obtain ⟨_, -, h⟩ := bind_eq_ok.mp h
  obtain ⟨_, hbalances, h⟩ := bind_eq_ok.mp h
  obtain ⟨_, -, h⟩ := bind_eq_ok.mp h
  cases h
  refine ⟨forall_of_mapM hsums fun _ _ _ => SumPlan.compiledFor_of_compile, ?_,
    forall_of_mapM hbalances fun _ _ _ => BalanceEqualPlan.compiledFor_of_compile⟩
  rw [List.forall_mem_append]
  exact ⟨forall_of_mapM hmeans fun _ _ _ => StatisticPlan.compiledFor_of_compile,
    forall_of_mapM hdeviations fun _ _ _ => StatisticPlan.compiledFor_of_compile⟩

theorem numeric_of_compileDocument [DebugText] {document : ContractDocument} {schema : Schema}
    {plan : CompiledContract} (h : CompiledContract.compileDocument document schema = .ok plan) :
    plan.datasetPlan.Numeric plan.schema := by
  obtain ⟨_, -, h⟩ := bind_eq_ok.mp h
  cases document with
  | v1 contract =>
      obtain ⟨_, -, h⟩ := bind_eq_ok.mp h
      obtain ⟨_, -, h⟩ := bind_eq_ok.mp h
      cases h
      constructor <;> exact fun _ h => absurd h List.not_mem_nil
  | v2 contract =>
      obtain ⟨_, -, h⟩ := bind_eq_ok.mp h
      obtain ⟨_, -, h⟩ := bind_eq_ok.mp h
      obtain ⟨_, -, h⟩ := bind_eq_ok.mp h
      obtain ⟨_, hdataset, h⟩ := bind_eq_ok.mp h
      cases h
      exact numeric_of_compileDataset hdataset

/-! ## Executions -/

section Executions

variable {reader : BatchReader} {plan : CompiledContract} {options : ExecutionOptions}
  {report : FastValidationReport}

theorem RuleRuns.length_numbersOf_le (runs : RuleRuns reader plan options report) (index : ℕ) :
    (numbersOf index runs.batches).length ≤ report.rows := by
  rw [runs.renders.rows_eq, runs.rows_eq]
  exact ProofFrame.length_numbersOf_le index runs.batches

end Executions

end ProofFrame
