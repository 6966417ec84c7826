import ProofFrame.Execution.SplitScan

/-!
# Batches without rows

A batch without rows is checked like any other, but it leaves every rule as it
was and nothing is found in it.
-/

namespace ProofFrame

open Lib Lib.Run Lib.Ieee754 Distinct

/-! ## Rules that do nothing -/

/-- The rule keeps its state and finds nothing. -/
def Idle {σ : Type} (observe : σ → Except Fault (σ × List Finding)) : Prop :=
  ∀ state last found, observe state = .ok (last, found) → last = state ∧ found = []

theorem Idle.observeEach {σ : Type} {observe : σ → Except Fault (σ × List Finding)}
    (h : Idle observe) : Idle (observeEach observe) := by
  intro states
  induction states with
  | nil =>
      intro lasts found hobserve
      cases hobserve
      exact ⟨rfl, rfl⟩
  | cons state states ih =>
      intro lasts found hobserve
      obtain ⟨⟨last, head⟩, hhead, hobserve⟩ := bind_eq_ok.mp hobserve
      obtain ⟨⟨rest, tail⟩, htail, hobserve⟩ := bind_eq_ok.mp hobserve
      cases hobserve
      obtain ⟨rfl, rfl⟩ := h _ _ _ hhead
      obtain ⟨rfl, rfl⟩ := ih _ _ htail
      exact ⟨rfl, rfl⟩

/-- The same of a rule that only finds something at the end. -/
def Still {σ : Type} (update : σ → Except Fault σ) : Prop :=
  ∀ state last, update state = .ok last → last = state

theorem Still.mapM {σ : Type} {update : σ → Except Fault σ} (h : Still update) :
    Still (List.mapM update) := by
  intro states lasts hmap
  rw [mapM_eq_ok] at hmap
  induction hmap with
  | nil => rfl
  | cons hhead _ ih => rw [h _ _ hhead, ih]

section Rules

variable {batch : RecordBatch} (hrows : batch.rows = 0)

include hrows

theorem column_eq_nil {index : ℕ} {array : ArrowArray} (h : batch.column index = .ok array) :
    array.cells = [] := by
  rw [← List.length_eq_zero_iff, length_column h, hrows]

theorem scanPredicate_eq_nil {plan : ComparePlan} {outcomes : List (Option Bool)}
    (h : scanPredicate plan batch = .ok outcomes) : outcomes = [] := by
  rw [← List.length_eq_zero_iff, length_scanPredicate h, hrows]

theorem still_countNulls {ratios : List RatioPlan} {counts last : List ℕ}
    (hlength : counts.length = ratios.length) (h : countNulls batch ratios counts = .ok last) :
    last = counts := by
  unfold countNulls at h
  rw [mapM_eq_ok] at h
  induction ratios generalizing counts last with
  | nil =>
      cases h
      exact (List.length_eq_zero_iff.mp hlength).symm
  | cons ratio ratios ih =>
      cases counts with
      | nil => cases hlength
      | cons count counts =>
          rw [List.zip_cons_cons] at h
          cases h with
          | cons hhead htail =>
              obtain ⟨array, harray, hhead⟩ := bind_eq_ok.mp hhead
              cases hhead
              rw [ih (Nat.succ.inj hlength) htail, ArrowArray.nullCount, column_eq_nil hrows harray]
              rfl

theorem exclusiveFindings_eq_nil {plan : MutuallyExclusivePlan} {rowOffset : ℕ}
    {found : List Finding} (h : exclusiveFindings plan batch rowOffset = .ok found) :
    found = [] := by
  obtain ⟨broken, hbroken, h⟩ := bind_eq_ok.mp h
  have hnil : broken = [] := by
    obtain ⟨⟨once, twice⟩, hmarks, hbroken⟩ := bind_eq_ok.mp hbroken
    rw [hrows] at hmarks
    have hmarks : once = [] ∧ twice = [] := by
      apply foldlM_invariant (P := fun _ (marks : List Bool × List Bool) =>
        marks.1 = [] ∧ marks.2 = []) ⟨rfl, rfl⟩ _ hmarks
      rintro _ index ⟨once, twice⟩ next _ ⟨rfl, rfl⟩ hnext
      obtain ⟨_, -, hnext⟩ := bind_eq_ok.mp hnext
      cases hnext
      exact ⟨rfl, rfl⟩
    obtain ⟨rfl, rfl⟩ := hmarks
    cases hbroken
    cases plan.mode <;> rfl
  subst hnil
  cases h
  rfl

variable [Crates] (rowOffset : ℕ)

theorem OrderingState.idle : Idle (OrderingState.observe · batch rowOffset) := by
  intro state last found h
  obtain ⟨array, harray, h⟩ := bind_eq_ok.mp h
  rw [column_eq_nil hrows harray] at h
  cases h
  exact ⟨rfl, rfl⟩

theorem GapState.idle : Idle (GapState.observe · batch rowOffset) := by
  intro state last found h
  obtain ⟨array, harray, h⟩ := bind_eq_ok.mp h
  rw [column_eq_nil hrows harray] at h
  cases h
  exact ⟨rfl, rfl⟩

theorem DistinctState.idle : Idle (DistinctState.observe batch rowOffset) := by
  intro state last found h
  obtain ⟨array, harray, h⟩ := bind_eq_ok.mp h
  rw [column_eq_nil hrows harray] at h
  cases h
  refine ⟨?_, rfl⟩
  rw [recordsOf_nil, List.append_nil, List.any_nil, Bool.or_false]

theorem ConditionalState.idle : Idle (ConditionalState.observe batch rowOffset) := by
  intro state last found h
  obtain ⟨outcomes, houtcomes, h⟩ := bind_eq_ok.mp h
  rw [scanPredicate_eq_nil hrows houtcomes] at h
  cases h
  refine ⟨?_, rfl⟩
  rw [recordsOf_nil, List.append_nil]

theorem CompositeState.idle : Idle (CompositeState.observe batch rowOffset) := by
  intro state last found h
  unfold CompositeState.observe at h
  rw [hrows] at h
  cases h
  refine ⟨?_, rfl⟩
  rw [recordsOf_nil, List.append_nil]

theorem ReferenceEntry.idle : Idle (ReferenceEntry.observe batch rowOffset) := by
  intro entry last found h
  unfold ReferenceEntry.observe at h
  rw [hrows] at h
  cases h
  refine ⟨?_, rfl⟩
  rw [recordsOf_nil, List.append_nil]

theorem still_accumulate {index : ℕ} {array : ArrowArray} (harray : batch.column index = .ok array)
    (kernel : KernelKind) : Still (accumulate · kernel array) := by
  intro total last h
  dsimp only at h
  unfold accumulate at h
  rw [column_eq_nil hrows harray] at h
  split at h
  · obtain ⟨_, -, h⟩ := bind_eq_ok.mp h
    cases h
    rfl
  · split at h
    · obtain ⟨_, -, h⟩ := bind_eq_ok.mp h
      cases h
      rfl
    · cases h

theorem SumState.still : Still (SumState.update batch) := by
  intro state last h
  obtain ⟨array, harray, h⟩ := bind_eq_ok.mp h
  obtain ⟨total, htotal, h⟩ := bind_eq_ok.mp h
  cases h
  rw [still_accumulate hrows harray _ _ _ htotal]

theorem BalanceState.still : Still (BalanceState.update batch) := by
  intro state last h
  obtain ⟨array, harray, h⟩ := bind_eq_ok.mp h
  obtain ⟨total, htotal, h⟩ := bind_eq_ok.mp h
  obtain ⟨array', harray', h⟩ := bind_eq_ok.mp h
  obtain ⟨total', htotal', h⟩ := bind_eq_ok.mp h
  cases h
  rw [still_accumulate hrows harray _ _ _ htotal, still_accumulate hrows harray' _ _ _ htotal']

theorem StatisticState.still : Still (StatisticState.update batch) := by
  intro state last h
  obtain ⟨array, harray, h⟩ := bind_eq_ok.mp h
  obtain ⟨moments, hmoments, h⟩ := bind_eq_ok.mp h
  cases h
  unfold observeMoments at hmoments
  rw [column_eq_nil hrows harray] at hmoments
  split at hmoments
  · obtain ⟨_, -, hmoments⟩ := bind_eq_ok.mp hmoments
    cases hmoments
    rfl
  · cases hmoments

theorem DominantState.still : Still (DominantState.update batch) := by
  intro state last h
  obtain ⟨array, harray, h⟩ := bind_eq_ok.mp h
  rw [column_eq_nil hrows harray] at h
  cases h
  rfl

theorem RowPlan.events_eq_nil {plan : RowPlan} {events : List Event}
    (h : plan.events batch rowOffset = .ok events) : events = [] := by
  obtain ⟨⟨outcomes, kernel⟩, hprepare, h⟩ := bind_eq_ok.mp h
  suffices houtcomes : outcomes = [] by
    subst houtcomes
    cases h
    rfl
  unfold RowPlan.prepare at hprepare
  split at hprepare
  · obtain ⟨_, hpredicate, hprepare⟩ := bind_eq_ok.mp hprepare
    cases hprepare
    rw [scanPredicate_eq_nil hrows hpredicate]
    rfl
  · obtain ⟨_, -, hprepare⟩ := bind_eq_ok.mp hprepare
    obtain ⟨_, hpredicate, hprepare⟩ := bind_eq_ok.mp hprepare
    cases hprepare
    rw [scanPredicate_eq_nil hrows hpredicate]
    rfl

theorem observeRowPlans_eq_nil {plans : List RowPlan} {found : List Finding}
    (h : observeRowPlans batch rowOffset plans = .ok found) : found = [] := by
  apply foldlM_invariant (P := fun _ found => found = []) rfl _ h
  rintro _ plan current next _ rfl hnext
  obtain ⟨events, hevents, hnext⟩ := bind_eq_ok.mp hnext
  cases hnext
  rw [RowPlan.events_eq_nil hrows rowOffset hevents]
  rfl

theorem observeColumns_idle {columns : List (ColumnPlan × ℕ)} :
    ∀ {uniques : List (Option (List Record))} {observed : ColumnsObserved},
      uniques.length = columns.length →
      observeColumns batch rowOffset columns uniques = .ok observed →
      observed.uniques = uniques ∧ observed.findings = [] ∧
        ∀ evaluated, recordCounts columns observed.counts evaluated = evaluated := by
  induction columns with
  | nil =>
      intro uniques observed hlength h
      cases h
      exact ⟨(List.length_eq_zero_iff.mp hlength).symm, rfl, fun _ => rfl⟩
  | cons entry columns ih =>
      rintro (_ | ⟨records, uniques⟩) observed hlength h
      · cases h
      · obtain ⟨array, events, rest, harray, hevents, hrest, rfl⟩ := observeColumns_cons_eq_ok.mp h
        obtain ⟨huniques, hfindings, hcounts⟩ := ih (Nat.succ.inj hlength) hrest
        have hnil := column_eq_nil hrows harray
        obtain ⟨kernel, -, hevents⟩ := bind_eq_ok.mp hevents
        rw [hnil] at hevents
        cases hevents
        refine ⟨?_, ?_, ?_⟩
        · dsimp only
          rw [huniques, recordsOf_nil]
          cases records with
          | none => rfl
          | some records => rw [Option.map_some, List.append_nil]
        · dsimp only
          rw [hfindings]
          rfl
        · intro evaluated
          have hzero : array.length - array.nullCount = 0 := by
            rw [ArrowArray.length, hnil, List.length_nil, Nat.zero_sub]
          rw [recordCounts, hzero]
          have hsame : evaluated.modify entry.2 (· + 0) = evaluated := List.modify_id ..
          rw [hsame, hcounts]

theorem DatasetState.idle_observe {state last : DatasetState (List Record)} {found : List Finding}
    (hlength : state.nullCounts.length = state.nullRatios.length)
    (h : state.observe batch rowOffset = .ok (last, found)) : last = state ∧ found = [] := by
  obtain ⟨nullCounts, hnullCounts, h⟩ := bind_eq_ok.mp h
  obtain ⟨⟨distinct, distinctFound⟩, hdistinct, h⟩ := bind_eq_ok.mp h
  obtain ⟨⟨ordering, orderingFound⟩, hordering, h⟩ := bind_eq_ok.mp h
  obtain ⟨⟨gaps, gapsFound⟩, hgaps, h⟩ := bind_eq_ok.mp h
  obtain ⟨sums, hsums, h⟩ := bind_eq_ok.mp h
  obtain ⟨statistics, hstatistics, h⟩ := bind_eq_ok.mp h
  obtain ⟨balances, hbalances, h⟩ := bind_eq_ok.mp h
  obtain ⟨dominants, hdominants, h⟩ := bind_eq_ok.mp h
  obtain ⟨⟨conditional, conditionalFound⟩, hconditional, h⟩ := bind_eq_ok.mp h
  obtain ⟨broken, hbroken, h⟩ := bind_eq_ok.mp h
  obtain ⟨⟨composites, compositesFound⟩, hcomposites, h⟩ := bind_eq_ok.mp h
  cases h
  obtain ⟨distinct_eq, rfl⟩ := (DistinctState.idle hrows rowOffset).observeEach _ _ _ hdistinct
  obtain ⟨ordering_eq, rfl⟩ := (OrderingState.idle hrows rowOffset).observeEach _ _ _ hordering
  obtain ⟨gaps_eq, rfl⟩ := (GapState.idle hrows rowOffset).observeEach _ _ _ hgaps
  obtain ⟨conditional_eq, rfl⟩ :=
    (ConditionalState.idle hrows rowOffset).observeEach _ _ _ hconditional
  obtain ⟨composites_eq, rfl⟩ := (CompositeState.idle hrows rowOffset).observeEach _ _ _ hcomposites
  have hbroken : broken.flatten = [] := by
    rw [List.flatten_eq_nil_iff]
    intro found hfound
    obtain ⟨plan, hplan⟩ : ∃ plan, exclusiveFindings plan batch rowOffset = .ok found := by
      rw [mapM_eq_ok] at hbroken
      obtain ⟨plan, -, hplan⟩ := exists_of_forall₂ hbroken.flip hfound
      exact ⟨plan, hplan⟩
    exact exclusiveFindings_eq_nil hrows hplan
  rw [still_countNulls hrows hlength hnullCounts, distinct_eq, ordering_eq, gaps_eq,
    (SumState.still hrows).mapM _ _ hsums, (StatisticState.still hrows).mapM _ _ hstatistics,
    (BalanceState.still hrows).mapM _ _ hbalances, (DominantState.still hrows).mapM _ _ hdominants,
    conditional_eq, composites_eq, hbroken]
  exact ⟨rfl, rfl⟩

/-- A turn over a batch without rows. -/
theorem observeBatch_idle {plan : CompiledContract} {scan last : ScanMeaning}
    (hfingerprint : scan.fingerprint = none) (huniques : scan.uniques.length = plan.columns.length)
    (hcounts : scan.dataset.nullCounts.length = scan.dataset.nullRatios.length)
    (h : observeBatch plan scan (.ok batch) = .ok last) : last = scan := by
  obtain ⟨batch', hbatch, h⟩ := bind_eq_ok.mp h
  cases hbatch
  obtain ⟨_, -, h⟩ := bind_eq_ok.mp h
  rw [hfingerprint] at h
  obtain ⟨fingerprint, hnone, h⟩ := bind_eq_ok.mp h
  cases hnone
  obtain ⟨columns, hcolumns, h⟩ := bind_eq_ok.mp h
  obtain ⟨rowFindings, hrow, h⟩ := bind_eq_ok.mp h
  obtain ⟨⟨dataset, datasetFindings⟩, hdataset, h⟩ := bind_eq_ok.mp h
  obtain ⟨⟨references, nullFindings⟩, hreferences, h⟩ := bind_eq_ok.mp h
  cases h
  obtain ⟨hcolumnUniques, hcolumnFindings, hcolumnCounts⟩ :=
    observeColumns_idle hrows scan.rows (huniques.trans List.length_zipIdx.symm) hcolumns
  obtain ⟨rfl, rfl⟩ := DatasetState.idle_observe hrows scan.rows hcounts hdataset
  obtain ⟨rfl, rfl⟩ := (ReferenceEntry.idle hrows scan.rows).observeEach _ _ _ hreferences
  rw [hcolumnUniques, hcolumnFindings, hcolumnCounts,
    observeRowPlans_eq_nil hrows scan.rows hrow, hrows]
  simp only [List.append_nil, Nat.add_zero, ← hfingerprint]

end Rules

end ProofFrame
