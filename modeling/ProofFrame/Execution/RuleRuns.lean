import ProofFrame.Execution.Gaps
import ProofFrame.Execution.SplitScan

/-!
# Rules inside an execution

A scan takes every rule that holds no exact values through the batches as the rule
would go alone, and the verdict has what the rule finds at the end.
`exists_ruleRuns` says so of every execution that ends in a report.
-/

namespace ProofFrame

open Lib Lib.Run Distinct

/-! ## Cells of a column -/

section Cells

variable {α : Type}

/-- The cells of a column, batch after batch. -/
def columnCells (index : ℕ) (batches : List RecordBatch) : List (Option Value) :=
  batches.flatMap fun batch => (batch.columns[index]?.map ArrowArray.cells).getD []

/-- What is read of a cell: nothing of a null. -/
def readScalar (read : Scalar → Option α) : Option Value → Option α
  | some (.scalar scalar) => read scalar
  | _ => none

/-- The values of a column, with its nulls. -/
def columnValues (read : Scalar → Option α) (index : ℕ) (batches : List RecordBatch) :
    List (Option α) :=
  (columnCells index batches).map (readScalar read)

theorem map_readScalar {read : Scalar → Option α} {cells : List (Option Value)}
    {values : List (Option α)}
    (h : List.Forall₂ (CellReads fun scalar value => read scalar = some value) cells values) :
    cells.map (readScalar read) = values := by
  induction h with
  | nil => rfl
  | @cons cell value cells values hcell _ ih =>
      rw [List.map_cons, ih]
      match cell, value, hcell with
      | none, none, _ => rfl
      | some (.scalar scalar), some value, hread => rw [readScalar, hread]

/-- What a column carries is what is read of its cells. -/
theorem Carries.columnValues_eq {read : Scalar → Option α} {index : ℕ} {dataType : DataType}
    {batches : List RecordBatch} {values : List (Option α)}
    (h : Carries (fun scalar value => read scalar = some value) index dataType batches values) :
    columnValues read index batches = values := by
  induction h with
  | nil => rfl
  | @cons batch batches array values rest hcolumn _ hcells _ ih =>
      have hget : batch.columns[index]? = some array := by
        unfold RecordBatch.column at hcolumn
        cases hget : batch.columns[index]? with
        | none => simp [hget] at hcolumn
        | some found =>
            rw [hget] at hcolumn
            rw [Except.ok.inj hcolumn]
      have hcells := map_readScalar hcells
      unfold columnValues columnCells at ih ⊢
      rw [List.flatMap_cons, List.map_append, ih, hget, Option.map_some, Option.getD_some, hcells]

/-- A column has at most one cell in a row. -/
theorem length_columnCells_le (index : ℕ) (batches : List RecordBatch) :
    (columnCells index batches).length ≤ (batches.map RecordBatch.rows).sum := by
  induction batches with
  | nil => simp [columnCells]
  | cons batch batches ih =>
      unfold columnCells at ih ⊢
      rw [List.flatMap_cons, List.length_append, List.map_cons, List.sum_cons]
      refine Nat.add_le_add ?_ ih
      cases hget : batch.columns[index]? with
      | none => exact Nat.zero_le _
      | some array => exact (batch.lengths_eq array (List.mem_of_getElem? hget)).le

end Cells

/-! ## Rules alone -/

section Rules

variable [Crates]

/-- The rule goes through batches. -/
def SumState.observeBatches (batches : List RecordBatch) (state : SumState) :
    Except Fault SumState := batches.foldlM (fun state batch => state.update batch) state

def StatisticState.fresh (plan : StatisticPlan) : StatisticState := { plan, moments := .new }

/-- The rule goes through batches. -/
def StatisticState.observeBatches (batches : List RecordBatch) (state : StatisticState) :
    Except Fault StatisticState := batches.foldlM (fun state batch => state.update batch) state

def BalanceState.fresh (plan : BalanceEqualPlan) : BalanceState :=
  { plan, left := .float .new, right := .float .new }

/-- The rule goes through batches. -/
def BalanceState.observeBatches (batches : List RecordBatch) (state : BalanceState) :
    Except Fault BalanceState :=
  batches.foldlM (fun state batch => state.update batch) state

def DominantState.fresh (maxMemoryBytes : ℕ) (plan : DominantValuePlan) : DominantState :=
  { plan, counts := .new (maxMemoryBytes / 8) }

/-- The rule goes through batches. -/
def DominantState.observeBatches (batches : List RecordBatch) (state : DominantState) :
    Except Fault DominantState := batches.foldlM (fun state batch => state.update batch) state

/-- The rules that hold no exact values have gone through the batches, each on its own. -/
structure RulesObserved {X : Type} (batches : List RecordBatch) (rows : ℕ)
    (before after : DatasetState X) : Prop where
  gaps : List.Forall₂ (fun rule state => ∃ found,
    GapState.observeBatches batches rows rule = .ok (state, found)) before.gaps after.gaps
  sums : List.Forall₂ (fun rule state => rule.observeBatches batches = .ok state)
    before.sums after.sums
  statistics : List.Forall₂ (fun rule state => rule.observeBatches batches = .ok state)
    before.statistics after.statistics
  balances : List.Forall₂ (fun rule state => rule.observeBatches batches = .ok state)
    before.balances after.balances
  dominants : List.Forall₂ (fun rule state => rule.observeBatches batches = .ok state)
    before.dominants after.dominants

end Rules

variable [Crates]

/-! ## One batch -/

omit [Crates] in
theorem forall₂_of_observeEach {σ : Type} {observe : σ → Except Fault (σ × List Finding)} :
    ∀ {states last : List σ} {found : List Finding}, observeEach observe states = .ok (last, found) →
      List.Forall₂ (fun before after => ∃ found, observe before = .ok (after, found)) states last
  | [], _, _, h => by
      cases h
      exact .nil
  | state :: states, _, _, h => by
      obtain ⟨⟨next, found⟩, hnext, h⟩ := bind_eq_ok.mp h
      obtain ⟨⟨rest, more⟩, hrest, h⟩ := bind_eq_ok.mp h
      cases h
      exact .cons ⟨found, hnext⟩ (forall₂_of_observeEach hrest)

/-- A turn of the scan is a turn of the dataset rules with a batch of the schema. -/
theorem observes_of_observeBatch {plan : CompiledContract} {scan next : ScanMeaning}
    {item : Except String RecordBatch} (h : observeBatch plan scan item = .ok next) :
    ∃ batch found, item = .ok batch ∧ batch.schema = plan.schema ∧
      next.rows = scan.rows + batch.rows ∧
      DatasetState.Observes batch scan.rows scan.dataset next.dataset found := by
  obtain ⟨batch, hitem, h⟩ := bind_eq_ok.mp h
  obtain ⟨_, hschema, h⟩ := bind_eq_ok.mp h
  obtain ⟨_, -, h⟩ := bind_eq_ok.mp h
  obtain ⟨columns, -, h⟩ := bind_eq_ok.mp h
  obtain ⟨rowFindings, -, h⟩ := bind_eq_ok.mp h
  obtain ⟨⟨dataset, found⟩, hdataset, h⟩ := bind_eq_ok.mp h
  obtain ⟨⟨references, nullFindings⟩, -, h⟩ := bind_eq_ok.mp h
  cases h
  obtain ⟨parts, hparts, -⟩ := DatasetState.yields_observe.mp ⟨found, hdataset, rfl⟩
  refine ⟨batch, parts, ?_, not_not.mp (rejectIf_eq_ok.mp hschema), rfl, hparts⟩
  cases item with
  | ok found => exact congrArg Except.ok (Except.ok.inj hitem)
  | error message => cases hitem

/-! ## All batches -/

omit [Crates] in
/-- Rules that are updated by a batch, and then go through the others. -/
theorem forall₂_foldlM_cons {σ : Type} {update : RecordBatch → σ → Except Fault σ}
    {batch : RecordBatch} {batches : List RecordBatch} {before middle after : List σ}
    (hfirst : before.mapM (update batch) = .ok middle)
    (hrest : List.Forall₂ (fun rule state =>
      batches.foldlM (fun state batch => update batch state) rule = .ok state) middle after) :
    List.Forall₂ (fun rule state =>
      (batch :: batches).foldlM (fun state batch => update batch state) rule = .ok state)
      before after := by
  refine (forall₂_comp (mapM_eq_ok.mp hfirst) hrest).imp ?_
  rintro rule state ⟨next, hnext, hstate⟩
  rw [List.foldlM_cons, hnext]
  exact hstate

theorem RulesObserved.cons {batch : RecordBatch} {batches : List RecordBatch} {rows : ℕ}
    {before middle after : DatasetState (List Record)} {found : DatasetFindings}
    (hfirst : DatasetState.Observes batch rows before middle found)
    (hrest : RulesObserved batches (rows + batch.rows) middle after) :
    RulesObserved (batch :: batches) rows before after where
  gaps := by
    obtain ⟨list, hgaps, -⟩ := hfirst.gaps
    refine (forall₂_comp (forall₂_of_observeEach hgaps) hrest.gaps).imp ?_
    rintro rule state ⟨next, ⟨found, hfound⟩, more, hmore⟩
    exact ⟨found ++ more, bind_eq_ok.mpr ⟨_, hfound, bind_eq_ok.mpr ⟨_, hmore, rfl⟩⟩⟩
  sums := forall₂_foldlM_cons hfirst.sums hrest.sums
  statistics := forall₂_foldlM_cons hfirst.statistics hrest.statistics
  balances := forall₂_foldlM_cons hfirst.balances hrest.balances
  dominants := forall₂_foldlM_cons hfirst.dominants hrest.dominants

/-- The rules of a scan have gone through its batches. -/
theorem rulesObserved_of_scan {plan : CompiledContract} {items : List (Except String RecordBatch)} :
    ∀ {scan last : ScanMeaning}, items.foldlM (observeBatch plan) scan = .ok last →
      ∃ batches, items = batches.map .ok ∧ (∀ batch ∈ batches, batch.schema = plan.schema) ∧
        last.rows = scan.rows + (batches.map RecordBatch.rows).sum ∧
        RulesObserved batches scan.rows scan.dataset last.dataset := by
  induction items with
  | nil =>
      intro scan last h
      cases h
      exact ⟨[], rfl, by simp, rfl, List.forall₂_same.mpr fun _ _ => ⟨[], rfl⟩,
        List.forall₂_same.mpr fun _ _ => rfl, List.forall₂_same.mpr fun _ _ => rfl,
        List.forall₂_same.mpr fun _ _ => rfl, List.forall₂_same.mpr fun _ _ => rfl⟩
  | cons item items ih =>
      intro scan last h
      rw [List.foldlM_cons] at h
      obtain ⟨next, hnext, hlast⟩ := bind_eq_ok.mp h
      obtain ⟨batch, found, rfl, hschema, hrows, hfirst⟩ := observes_of_observeBatch hnext
      obtain ⟨batches, rfl, hschemas, hlastRows, hrest⟩ := ih hlast
      rw [hrows] at hlastRows hrest
      refine ⟨batch :: batches, rfl, List.forall_mem_cons.mpr ⟨hschema, hschemas⟩, ?_,
        hrest.cons hfirst⟩
      rw [hlastRows, List.map_cons, List.sum_cons, add_assoc]

theorem startMeaning_dataset {reader : BatchReader} {plan : CompiledContract} {fingerprint : Bool}
    {references : ReferenceBindings} {maxMemoryBytes : ℕ} {start : StartMeaning}
    (h : startMeaning reader plan fingerprint references maxMemoryBytes = .ok start) :
    start.scan.rows = 0 ∧ start.scan.dataset = .fresh plan.datasetPlan maxMemoryBytes := by
  obtain ⟨_, -, h⟩ := bind_eq_ok.mp h
  obtain ⟨_, -, h⟩ := bind_eq_ok.mp h
  obtain ⟨_, -, h⟩ := bind_eq_ok.mp h
  obtain ⟨_, -, h⟩ := bind_eq_ok.mp h
  cases h
  exact ⟨rfl, rfl⟩

/-! ## Executions -/

/-- The dataset rules of a plan in an execution that ended in the report: the report shows the
verdict, and the verdict has what each rule found at the end. -/
structure RuleRuns (reader : BatchReader) (plan : CompiledContract) (options : ExecutionOptions)
    (report : FastValidationReport) where
  batches : List RecordBatch
  verdict : Verdict
  dataset : DatasetState (List Record)
  items_eq : reader.items = batches.map .ok
  schema_eq : ∀ batch ∈ batches, batch.schema = plan.schema
  rows_eq : verdict.rows = (batches.map RecordBatch.rows).sum
  observed : RulesObserved batches 0
    (.fresh plan.datasetPlan options.resources.maxMemoryBytes) dataset
  found : ∃ earlier later,
    verdict.findings = earlier ++ dataset.scalarFindings verdict.rows ++ later
  renders : report.Renders plan options verdict

/-- In an execution that ends in a report every rule has gone through the batches alone. -/
theorem exists_ruleRuns {ω : Type} [Host ω] {reader : BatchReader} {plan : CompiledContract}
    {options : ExecutionOptions} {fingerprint : Bool} {references : ReferenceBindings}
    {world last : ω} {ended : FastValidationReport × Option Fingerprint}
    (h : executeReaderInner reader plan options fingerprint references world = .ok (ended, last)) :
    Nonempty (RuleRuns reader plan options ended.1) := by
  obtain ⟨meaning, hmeaning, hshows⟩ := (refines_executeReaderInnerWithAccount reader plan options
    fingerprint (.root options.resources) references rfl).of_ok h
  obtain ⟨hverdict, -, -⟩ := executionMeaning_eq_ok hmeaning
  obtain ⟨verdict, digests⟩ := meaning
  obtain ⟨start, hstart, hverdict⟩ := bind_eq_ok.mp hverdict
  obtain ⟨scan, hscan, hverdict⟩ := bind_eq_ok.mp hverdict
  cases hverdict
  obtain ⟨batches, hitems, hschemas, hlastRows, hobserved⟩ := rulesObserved_of_scan hscan
  obtain ⟨hrows, hdataset⟩ := startMeaning_dataset hstart
  rw [hrows, hdataset] at hobserved
  rw [hrows, zero_add] at hlastRows
  exact ⟨batches, _, scan.dataset, hitems, hschemas, hlastRows, hobserved,
    ⟨_, _, (List.append_assoc ..).symm⟩, hshows.1⟩

namespace RuleRuns

variable {reader : BatchReader} {plan : CompiledContract} {options : ExecutionOptions}
  {report : FastValidationReport} (runs : RuleRuns reader plan options report)

theorem batches_eq {batches : List RecordBatch} (h : reader.items = batches.map .ok) :
    runs.batches = batches := by
  have hitems := runs.items_eq.symm.trans h
  exact List.map_injective_iff.mpr (fun _ _ => Except.ok.inj) hitems

theorem sums : List.Forall₂ (fun rule state =>
    SumState.observeBatches runs.batches (.new rule) = .ok state)
    plan.datasetPlan.sums runs.dataset.sums :=
  List.forall₂_map_left_iff.mp runs.observed.sums

theorem statistics : List.Forall₂ (fun rule state =>
    StatisticState.observeBatches runs.batches (.fresh rule) = .ok state)
    plan.datasetPlan.statistics runs.dataset.statistics :=
  List.forall₂_map_left_iff.mp runs.observed.statistics

theorem balances : List.Forall₂ (fun rule state =>
    BalanceState.observeBatches runs.batches (.fresh rule) = .ok state)
    plan.datasetPlan.balanceEqual runs.dataset.balances :=
  List.forall₂_map_left_iff.mp runs.observed.balances

theorem dominants : List.Forall₂ (fun rule state => DominantState.observeBatches runs.batches
    (.fresh options.resources.maxMemoryBytes rule) = .ok state)
    plan.datasetPlan.dominantValue runs.dataset.dominants :=
  List.forall₂_map_left_iff.mp runs.observed.dominants

/-- In a valid report no total, statistic or balance has found anything. -/
theorem silent_of_valid (h : report.valid = true) :
    (∀ state ∈ runs.dataset.sums, state.finish = []) ∧
      (∀ state ∈ runs.dataset.statistics, state.finish = []) ∧
      ∀ state ∈ runs.dataset.balances, state.finish = [] := by
  obtain ⟨earlier, later, hfound⟩ := runs.found
  rw [runs.renders.valid_iff.mp h] at hfound
  have hnone : runs.dataset.scalarFindings runs.verdict.rows = [] :=
    (List.append_eq_nil_iff.mp (List.append_eq_nil_iff.mp hfound.symm).1).2
  simp only [DatasetState.scalarFindings, List.append_eq_nil_iff, List.flatMap_eq_nil_iff] at hnone
  obtain ⟨⟨⟨⟨⟨⟨hbalances, -⟩, hstatistics⟩, hsums⟩, -⟩, -⟩, -⟩ := hnone
  exact ⟨hsums, hstatistics, hbalances⟩

end RuleRuns

end ProofFrame
