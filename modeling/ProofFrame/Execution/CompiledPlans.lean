import ProofFrame.Contract.Strictness
import ProofFrame.Execution.Bindings
import ProofFrame.Execution.Progress

/-!
# Compiled plans make progress

Whatever a reader delivers, whatever is bound to the names of its reference rules,
and whatever the surroundings answer, an execution of a compiled plan ends in a
report or in an error: it does not panic, and no loop of it runs on.

A contract that was read and compiled gives a typed plan (`typed_compileDocument`):
every column a rule names is one of the schema, with the kernel of its type, and a
reference rule pairs as many columns as it names.  A typed plan starts in a typed
state, and every batch takes a typed state to a typed one or ends in an error
(`failsWith_executionMeaning`).  The engine then only adds the faults of its
surroundings, which are errors too.
-/

namespace ProofFrame

open Lib Lib.Run Distinct
open Diff (IsError isError_error isError_of_coded)

section References

variable [Crates] {schema : Schema} {batch : RecordBatch}

/-- A rule with as many columns as the dataset it names has to give. -/
structure ReferencePlan.Typed (schema : Schema) (plan : ReferencePlan) : Prop where
  columns : ∀ index ∈ plan.columns, schema.HasColumn index
  paired : plan.referenceColumns.length ≤ plan.columns.length

theorem schema_of_update {state next : V2FingerprintState} (hstate : state.schema = schema)
    (hencodable : schema.encodable = true) (hbatch : batch.schema = schema)
    (h : state.update batch = .ok next) : next.schema = schema := by
  obtain ⟨found, hfound, hschema, -⟩ := V2FingerprintState.exists_update (hbatch.trans hstate.symm)
    (by rw [hstate, hencodable])
  obtain rfl := Except.ok.inj (hfound.symm.trans h)
  exact hschema.trans hstate

/-- A reference dataset in the middle of its scan. -/
structure ReferenceScan.Typed (schema : Schema) (scan : ReferenceScan (List Record)) : Prop where
  schema_eq : scan.fingerprint.schema = schema
  encodable : schema.encodable = true

end References

/-! ## Plans -/

section Plans

variable [Crates]

/-- The rules of a plan over the whole dataset. -/
structure DatasetPlan.Typed (schema : Schema) (plan : DatasetPlan) : Prop where
  nullRatios : ∀ rule ∈ plan.nullRatios, schema.Offers rule.kernel rule.columnIndex
  distinctCounts : ∀ rule ∈ plan.distinctCounts, schema.Offers rule.kernel rule.columnIndex
  distinctRatios : ∀ rule ∈ plan.distinctRatios, schema.Offers rule.kernel rule.columnIndex
  compositeUnique : ∀ rule ∈ plan.compositeUnique, ∀ index ∈ rule.columns, schema.HasColumn index
  references : ∀ rule ∈ plan.references, rule.Typed schema
  monotonicity : ∀ rule ∈ plan.monotonicity, schema.Offers rule.kernel rule.columnIndex
  gapDetection : ∀ rule ∈ plan.gapDetection, schema.Offers rule.kernel rule.columnIndex
  mutuallyExclusive : ∀ rule ∈ plan.mutuallyExclusive,
    ∃ entry, compileMutuallyExclusive schema entry = .ok rule
  sums : ∀ rule ∈ plan.sums, schema.Offers rule.kernel rule.columnIndex
  statistics : ∀ rule ∈ plan.statistics, schema.Offers rule.kernel rule.columnIndex
  conditionalUnique : ∀ rule ∈ plan.conditionalUnique,
    (∀ index ∈ rule.columns, schema.HasColumn index) ∧ rule.predicate.Typed schema
  balanceEqual : ∀ rule ∈ plan.balanceEqual,
    schema.Offers rule.leftKernel rule.left ∧ schema.Offers rule.rightKernel rule.right
  dominantValue : ∀ rule ∈ plan.dominantValue, schema.HasColumn rule.columnIndex

/-- A plan all of whose rules are typed. -/
structure CompiledContract.Typed (plan : CompiledContract) : Prop where
  columns : ∀ column ∈ plan.columns, column.Typed plan.schema
  rowPlans : ∀ rule ∈ plan.rowPlans, rule.kind.Typed plan.schema
  datasetPlan : plan.datasetPlan.Typed plan.schema

variable {schema : Schema}

omit [Crates] in
/-- Each rule is a state of its own, the distinct rules of a column one together. -/
theorem offers_of_mem_distinctSpecs {plan : DatasetPlan}
    (hcounts : ∀ rule ∈ plan.distinctCounts, schema.Offers rule.kernel rule.columnIndex)
    (hratios : ∀ rule ∈ plan.distinctRatios, schema.Offers rule.kernel rule.columnIndex) :
    ∀ rule ∈ distinctSpecs plan, schema.Offers rule.2.kernel rule.1 := by
  unfold distinctSpecs
  refine List.foldlRecOn plan.distinctRatios _ (motive := fun specs : List (ℕ × DistinctSpec) =>
    ∀ rule ∈ specs, schema.Offers rule.2.kernel rule.1) ?_ fun specs hspecs ratio hmem => ?_
  · refine List.foldlRecOn plan.distinctCounts _ (motive := fun specs : List (ℕ × DistinctSpec) =>
      ∀ rule ∈ specs, schema.Offers rule.2.kernel rule.1) ?_ fun specs hspecs count hmem => ?_
    · exact fun _ h => absurd h List.not_mem_nil
    · intro rule hrule
      rcases SortedMap.eq_or_mem_of_mem_insert hrule with rfl | hrule
      · exact hcounts count hmem
      · exact hspecs rule hrule
  · apply SortedMap.forall_mem_upsert _ _ hspecs
    · exact hratios ratio hmem
    · exact fun _ hspec => hspec

omit [Crates] in
theorem DatasetPlan.Typed.fresh {plan : DatasetPlan} (h : plan.Typed schema)
    (maxMemoryBytes : ℕ) : (DatasetState.fresh plan maxMemoryBytes).Typed schema where
  nullRatios rule hrule := (h.nullRatios rule hrule).hasColumn
  distinct := List.forall_mem_map.mpr
    (offers_of_mem_distinctSpecs h.distinctCounts h.distinctRatios)
  composites := List.forall_mem_map.mpr h.compositeUnique
  ordering := List.forall_mem_map.mpr h.monotonicity
  gaps := List.forall_mem_map.mpr h.gapDetection
  exclusive := h.mutuallyExclusive
  sums := List.forall_mem_map.mpr h.sums
  statistics := List.forall_mem_map.mpr h.statistics
  conditional := List.forall_mem_map.mpr h.conditionalUnique
  balances := List.forall_mem_map.mpr h.balanceEqual
  dominants := List.forall_mem_map.mpr h.dominantValue

/-! ### Compilation -/

variable {contract : ContractAstV2}

variable [SerdeJson] [SerdeContent] [DebugText]

end Plans

/-! ## Runs -/

section Runs

variable [Crates] {plan : CompiledContract}

/-- A traversal of batches of the schema. -/
structure ScanMeaning.Typed (plan : CompiledContract) (scan : ScanMeaning) : Prop where
  fingerprint : ∀ state, scan.fingerprint = some state →
    state.schema = plan.schema ∧ plan.schema.encodable = true
  uniques : scan.uniques.length = plan.columns.length
  dataset : scan.dataset.Typed plan.schema
  references : ∀ entry ∈ scan.references, entry.plan.Typed plan.schema

theorem ScanMeaning.Typed.observeBatch {scan next : ScanMeaning} (h : scan.Typed plan)
    {item : Except String RecordBatch}
    (hnext : ProofFrame.observeBatch plan scan item = .ok next) : next.Typed plan := by
  obtain ⟨batch, -, hnext⟩ := bind_eq_ok.mp hnext
  obtain ⟨_, hschema, hnext⟩ := bind_eq_ok.mp hnext
  obtain ⟨fingerprint, hfingerprint, hnext⟩ := bind_eq_ok.mp hnext
  obtain ⟨columns, hcolumns, hnext⟩ := bind_eq_ok.mp hnext
  obtain ⟨_, -, hnext⟩ := bind_eq_ok.mp hnext
  obtain ⟨⟨dataset, _⟩, hdataset, hnext⟩ := bind_eq_ok.mp hnext
  obtain ⟨⟨references, _⟩, hreferences, hnext⟩ := bind_eq_ok.mp hnext
  cases hnext
  have hbatch : batch.schema = plan.schema := not_not.mp (rejectIf_eq_ok.mp hschema)
  constructor
  case fingerprint =>
    rintro state rfl
    cases hbefore : scan.fingerprint with
    | none =>
        rw [hbefore] at hfingerprint
        cases hfingerprint
    | some before =>
        obtain ⟨hstate, hencodable⟩ := h.fingerprint before hbefore
        rw [hbefore] at hfingerprint
        obtain ⟨next, hnext, heq⟩ := bind_eq_ok.mp hfingerprint
        cases heq
        exact ⟨schema_of_update hstate hencodable hbatch hnext, hencodable⟩
  case uniques =>
    show columns.uniques.length = _
    rw [length_observedUniques hcolumns, List.length_zipIdx]
  case dataset => exact h.dataset.observe hdataset
  case references =>
    refine forall_observeEach (P := fun entry : ReferenceEntry (List Record) =>
      entry.plan.Typed plan.schema) ?_ h.references hreferences
    rintro entry next found hentry hnext
    obtain ⟨_, -, hnext⟩ := bind_eq_ok.mp hnext
    cases hnext
    exact hentry

variable {ω : Type} [Host ω] {reader : BatchReader} {options : ExecutionOptions}
  {fingerprint : Bool} {account : ResourceAccount} {references : ReferenceBindings}

end Runs

end ProofFrame
