import ProofFrame.Execution.Exclusion
import ProofFrame.Execution.WellTyped

/-!
# Typed states make progress

A state is typed when its rules are.  On a batch of the schema a typed state ends in
a value or in an error, and what it becomes is typed again.
-/

namespace ProofFrame

open Lib Lib.Run Lib.Ieee754 Distinct
open Diff (IsError isError_error isError_of_coded failsWith_canonicalValueBytes)

/-! ## Steps of many states -/

section Each

variable {σ : Type} {E : Fault → Prop} {P : σ → Prop}

theorem forall_observeEach {observe : σ → Except Fault (σ × List Finding)}
    (hkept : ∀ state next found, P state → observe state = .ok (next, found) → P next)
    {states : List σ} :
    ∀ {last : List σ} {found : List Finding}, (∀ state ∈ states, P state) →
      observeEach observe states = .ok (last, found) → ∀ state ∈ last, P state := by
  induction states with
  | nil =>
      intro last found _ h
      cases h
      exact fun _ hmem => absurd hmem List.not_mem_nil
  | cons state states ih =>
      intro last found hall h
      obtain ⟨hstate, hstates⟩ := List.forall_mem_cons.mp hall
      obtain ⟨⟨next, _⟩, hnext, h⟩ := bind_eq_ok.mp h
      obtain ⟨⟨rest, _⟩, hrest, h⟩ := bind_eq_ok.mp h
      cases h
      exact List.forall_mem_cons.mpr ⟨hkept _ _ _ hstate hnext, ih hstates hrest⟩

end Each

/-! ## Rules of a single column -/

section Single

variable [Crates] {schema : Schema} {batch : RecordBatch} {array : ArrowArray}

theorem OrderingState.plan_observe {state next : OrderingState} {found : List Finding} {rows : ℕ}
    (h : state.observe batch rows = .ok (next, found)) : next.plan = state.plan := by
  obtain ⟨_, -, h⟩ := bind_eq_ok.mp h
  exact observeCells_keeps OrderingState.plan OrderingState.plan_observeCell h

theorem GapState.plan_observe {state next : GapState} {found : List Finding} {rows : ℕ}
    (h : state.observe batch rows = .ok (next, found)) : next.plan = state.plan := by
  obtain ⟨_, -, h⟩ := bind_eq_ok.mp h
  exact observeCells_keeps GapState.plan GapState.plan_observeCell h

end Single

/-! ## Rules of several columns -/

section Several

variable [Crates] {schema : Schema} {batch : RecordBatch} {columns : List ℕ}

end Several

/-! ## The state of a plan -/

section Dataset

variable [Crates] {schema : Schema} {batch : RecordBatch}

/-- The rules of a state over the whole dataset. -/
structure DatasetState.Typed (schema : Schema) (state : DatasetState (List Record)) : Prop where
  nullRatios : ∀ ratio ∈ state.nullRatios, schema.HasColumn ratio.columnIndex
  distinct : ∀ rule ∈ state.distinct, schema.Offers rule.kernel rule.columnIndex
  composites : ∀ rule ∈ state.composites, ∀ index ∈ rule.plan.columns, schema.HasColumn index
  ordering : ∀ rule ∈ state.ordering, schema.Offers rule.plan.kernel rule.plan.columnIndex
  gaps : ∀ rule ∈ state.gaps, schema.Offers rule.plan.kernel rule.plan.columnIndex
  exclusive : ∀ plan ∈ state.exclusive, ∃ entry, compileMutuallyExclusive schema entry = .ok plan
  sums : ∀ rule ∈ state.sums, schema.Offers rule.plan.kernel rule.plan.columnIndex
  statistics : ∀ rule ∈ state.statistics, schema.Offers rule.plan.kernel rule.plan.columnIndex
  conditional : ∀ rule ∈ state.conditional,
    (∀ index ∈ rule.plan.columns, schema.HasColumn index) ∧ rule.plan.predicate.Typed schema
  balances : ∀ rule ∈ state.balances, schema.Offers rule.plan.leftKernel rule.plan.left ∧
    schema.Offers rule.plan.rightKernel rule.plan.right
  dominants : ∀ rule ∈ state.dominants, schema.HasColumn rule.plan.columnIndex

/-- A rule keeps what its state is made for. -/
theorem DatasetState.Typed.observe {state next : DatasetState (List Record)} {found : List Finding}
    {rows : ℕ} (h : state.Typed schema) (hnext : state.observe batch rows = .ok (next, found)) :
    next.Typed schema := by
  obtain ⟨_, -, hnext⟩ := bind_eq_ok.mp hnext
  obtain ⟨⟨distinct, _⟩, hdistinct, hnext⟩ := bind_eq_ok.mp hnext
  obtain ⟨⟨ordering, _⟩, hordering, hnext⟩ := bind_eq_ok.mp hnext
  obtain ⟨⟨gaps, _⟩, hgaps, hnext⟩ := bind_eq_ok.mp hnext
  obtain ⟨sums, hsums, hnext⟩ := bind_eq_ok.mp hnext
  obtain ⟨statistics, hstatistics, hnext⟩ := bind_eq_ok.mp hnext
  obtain ⟨balances, hbalances, hnext⟩ := bind_eq_ok.mp hnext
  obtain ⟨dominants, hdominants, hnext⟩ := bind_eq_ok.mp hnext
  obtain ⟨⟨conditional, _⟩, hconditional, hnext⟩ := bind_eq_ok.mp hnext
  obtain ⟨_, -, hnext⟩ := bind_eq_ok.mp hnext
  obtain ⟨⟨composites, _⟩, hcomposites, hnext⟩ := bind_eq_ok.mp hnext
  cases hnext
  constructor
  case nullRatios => exact h.nullRatios
  case exclusive => exact h.exclusive
  case distinct =>
    refine forall_observeEach (P := fun rule => schema.Offers rule.kernel rule.columnIndex)
      ?_ h.distinct hdistinct
    rintro rule next found hrule hnext
    obtain ⟨_, -, hnext⟩ := bind_eq_ok.mp hnext
    obtain ⟨_, -, hnext⟩ := bind_eq_ok.mp hnext
    cases hnext
    exact hrule
  case ordering =>
    refine forall_observeEach
      (P := fun rule => schema.Offers rule.plan.kernel rule.plan.columnIndex) ?_ h.ordering hordering
    intro rule next found hrule hnext
    rw [OrderingState.plan_observe hnext]
    exact hrule
  case gaps =>
    refine forall_observeEach
      (P := fun rule => schema.Offers rule.plan.kernel rule.plan.columnIndex) ?_ h.gaps hgaps
    intro rule next found hrule hnext
    rw [GapState.plan_observe hnext]
    exact hrule
  case sums =>
    refine forall_of_mapM hsums ?_
    intro rule hrule next hnext
    obtain ⟨_, -, hnext⟩ := bind_eq_ok.mp hnext
    obtain ⟨_, -, hnext⟩ := bind_eq_ok.mp hnext
    cases hnext
    exact h.sums rule hrule
  case statistics =>
    refine forall_of_mapM hstatistics ?_
    intro rule hrule next hnext
    obtain ⟨_, -, hnext⟩ := bind_eq_ok.mp hnext
    obtain ⟨_, -, hnext⟩ := bind_eq_ok.mp hnext
    cases hnext
    exact h.statistics rule hrule
  case balances =>
    refine forall_of_mapM hbalances ?_
    intro rule hrule next hnext
    obtain ⟨_, -, hnext⟩ := bind_eq_ok.mp hnext
    obtain ⟨_, -, hnext⟩ := bind_eq_ok.mp hnext
    obtain ⟨_, -, hnext⟩ := bind_eq_ok.mp hnext
    obtain ⟨_, -, hnext⟩ := bind_eq_ok.mp hnext
    cases hnext
    exact h.balances rule hrule
  case dominants =>
    refine forall_of_mapM hdominants ?_
    intro rule hrule next hnext
    obtain ⟨_, -, hnext⟩ := bind_eq_ok.mp hnext
    obtain ⟨_, -, hnext⟩ := bind_eq_ok.mp hnext
    cases hnext
    exact h.dominants rule hrule
  case conditional =>
    refine forall_observeEach (P := fun rule =>
      (∀ index ∈ rule.plan.columns, schema.HasColumn index) ∧ rule.plan.predicate.Typed schema)
      ?_ h.conditional hconditional
    rintro rule next found hrule hnext
    obtain ⟨_, -, hnext⟩ := bind_eq_ok.mp hnext
    obtain ⟨_, -, hnext⟩ := bind_eq_ok.mp hnext
    cases hnext
    exact hrule
  case composites =>
    refine forall_observeEach (P := fun rule =>
      ∀ index ∈ rule.plan.columns, schema.HasColumn index) ?_ h.composites hcomposites
    rintro rule next found hrule hnext
    obtain ⟨_, -, hnext⟩ := bind_eq_ok.mp hnext
    cases hnext
    exact hrule

end Dataset

end ProofFrame
