import ProofFrame.Execution.SplitStates

/-!
# The traversal of a batch in two parts

All rules together: one turn of the traversal over a batch does what two turns
over its parts do, and a turn over a batch without rows does nothing.
-/

namespace ProofFrame

open Lib Lib.Run Lib.Ieee754 Distinct

/-! ## Several states -/

theorem yields_observeEach_cons {σ : Type} {observe : σ → Except Fault (σ × List Finding)}
    {state : σ} {states lasts : List σ} {found : Multiset Finding} :
    Yields (observeEach observe (state :: states)) lasts found ↔
      ∃ last rest head tail, Yields (observe state) last head ∧
        Yields (observeEach observe states) rest tail ∧ lasts = last :: rest ∧
        found = head + tail := by
  constructor
  · rintro ⟨list, hlist, rfl⟩
    obtain ⟨⟨last, head⟩, hhead, hlist⟩ := bind_eq_ok.mp hlist
    obtain ⟨⟨rest, tail⟩, htail, hlist⟩ := bind_eq_ok.mp hlist
    cases hlist
    exact ⟨last, rest, head, tail, ⟨head, hhead, rfl⟩, ⟨tail, htail, rfl⟩, rfl, rfl⟩
  · rintro ⟨last, rest, _, _, ⟨head, hhead, rfl⟩, ⟨tail, htail, rfl⟩, rfl, rfl⟩
    exact ⟨head ++ tail, bind_eq_ok.mpr ⟨_, hhead, bind_eq_ok.mpr ⟨_, htail, rfl⟩⟩, rfl⟩

/-- States side by side, each with its own rule. -/
theorem consecutive_observeEach {σ : Type} {whole left right : σ → Except Fault (σ × List Finding)}
    (h : Consecutive whole left right) :
    Consecutive (observeEach whole) (observeEach left) (observeEach right) := by
  intro states
  induction states with
  | nil =>
      intro lasts found
      constructor
      · rintro ⟨list, hlist, rfl⟩
        cases hlist
        exact ⟨[], 0, 0, ⟨[], rfl, rfl⟩, ⟨[], rfl, rfl⟩, rfl⟩
      · rintro ⟨_, _, _, ⟨_, hleft, rfl⟩, ⟨_, hright, rfl⟩, rfl⟩
        cases hleft
        cases hright
        exact ⟨[], rfl, rfl⟩
  | cons state states ih =>
      intro lasts found
      constructor
      · intro hwhole
        obtain ⟨last, rest, _, _, hhead, htail, rfl, rfl⟩ := yields_observeEach_cons.mp hwhole
        obtain ⟨middle, before, after, hbefore, hafter, rfl⟩ := (h _ _ _).mp hhead
        obtain ⟨middles, before', after', hbefore', hafter', rfl⟩ := (ih _ _).mp htail
        exact ⟨middle :: middles, before + before', after + after',
          yields_observeEach_cons.mpr ⟨_, _, _, _, hbefore, hbefore', rfl, rfl⟩,
          yields_observeEach_cons.mpr ⟨_, _, _, _, hafter, hafter', rfl, rfl⟩,
          add_add_add_comm before after before' after'⟩
      · rintro ⟨_, _, _, hleft, hright, rfl⟩
        obtain ⟨middle, middles, before, before', hbefore, hbefore', rfl, rfl⟩ :=
          yields_observeEach_cons.mp hleft
        obtain ⟨last, rest, after, after', hafter, hafter', rfl, rfl⟩ :=
          yields_observeEach_cons.mp hright
        exact yields_observeEach_cons.mpr ⟨last, rest, _, _,
          (h _ _ _).mpr ⟨middle, before, after, hbefore, hafter, rfl⟩,
          (ih _ _).mpr ⟨middles, before', after', hbefore', hafter', rfl⟩, rfl,
          add_add_add_comm before before' after after'⟩

variable [Crates] {whole left right : RecordBatch}

/-! ## The dataset rules -/

/-- What the dataset rules of each kind find in a batch. -/
structure DatasetFindings where
  distinct : Multiset Finding
  ordering : Multiset Finding
  gaps : Multiset Finding
  conditional : Multiset Finding
  exclusive : Multiset Finding
  composites : Multiset Finding

namespace DatasetFindings

def total (found : DatasetFindings) : Multiset Finding :=
  found.distinct + (found.ordering + (found.gaps + (found.conditional +
    (found.exclusive + found.composites))))

/-- Kind by kind. -/
def add (before after : DatasetFindings) : DatasetFindings where
  distinct := before.distinct + after.distinct
  ordering := before.ordering + after.ordering
  gaps := before.gaps + after.gaps
  conditional := before.conditional + after.conditional
  exclusive := before.exclusive + after.exclusive
  composites := before.composites + after.composites

omit [Crates] in
theorem total_add (before after : DatasetFindings) :
    (before.add after).total = before.total + after.total := by
  simp only [total, add]
  ac_rfl

end DatasetFindings

/-- The batch takes every dataset rule from its state in `state` to the one in `last`. -/
structure DatasetState.Observes (batch : RecordBatch) (rowOffset : ℕ)
    (state last : DatasetState (List Record)) (found : DatasetFindings) : Prop where
  nullCounts : countNulls batch state.nullRatios state.nullCounts = .ok last.nullCounts
  distinct : Yields (observeEach (DistinctState.observe batch rowOffset) state.distinct)
    last.distinct found.distinct
  ordering : Yields (observeEach (OrderingState.observe · batch rowOffset) state.ordering)
    last.ordering found.ordering
  gaps : Yields (observeEach (GapState.observe · batch rowOffset) state.gaps) last.gaps found.gaps
  sums : state.sums.mapM (SumState.update batch) = .ok last.sums
  statistics : state.statistics.mapM (StatisticState.update batch) = .ok last.statistics
  balances : state.balances.mapM (BalanceState.update batch) = .ok last.balances
  dominants : state.dominants.mapM (DominantState.update batch) = .ok last.dominants
  conditional : Yields (observeEach (ConditionalState.observe batch rowOffset) state.conditional)
    last.conditional found.conditional
  exclusive : Finds (List.flatten <$> state.exclusive.mapM (exclusiveFindings · batch rowOffset))
    found.exclusive
  composites : Yields (observeEach (CompositeState.observe batch rowOffset) state.composites)
    last.composites found.composites
  rowCount_eq : last.rowCount = state.rowCount
  nullRatios_eq : last.nullRatios = state.nullRatios
  exclusive_eq : last.exclusive = state.exclusive

theorem DatasetState.yields_observe {batch : RecordBatch} {rowOffset : ℕ}
    {state last : DatasetState (List Record)} {found : Multiset Finding} :
    Yields (state.observe batch rowOffset) last found ↔
      ∃ parts, Observes batch rowOffset state last parts ∧ found = parts.total := by
  constructor
  · rintro ⟨list, h, rfl⟩
    obtain ⟨nullCounts, hnullCounts, h⟩ := bind_eq_ok.mp h
    obtain ⟨⟨distinct, distinctFound⟩, hdistinct, h⟩ := bind_eq_ok.mp h
    obtain ⟨⟨ordering, orderingFound⟩, hordering, h⟩ := bind_eq_ok.mp h
    obtain ⟨⟨gaps, gapsFound⟩, hgaps, h⟩ := bind_eq_ok.mp h
    obtain ⟨sums, hsums, h⟩ := bind_eq_ok.mp h
    obtain ⟨statistics, hstatistics, h⟩ := bind_eq_ok.mp h
    obtain ⟨balances, hbalances, h⟩ := bind_eq_ok.mp h
    obtain ⟨dominants, hdominants, h⟩ := bind_eq_ok.mp h
    obtain ⟨⟨conditional, conditionalFound⟩, hconditional, h⟩ := bind_eq_ok.mp h
    obtain ⟨broken, hbroken, h⟩ := bind_eq_ok.mp h
    obtain ⟨⟨composites, compositesFound⟩, hcomposites, h⟩ := bind_eq_ok.mp h
    cases h
    exact ⟨⟨distinctFound, orderingFound, gapsFound, conditionalFound, broken.flatten,
        compositesFound⟩,
      ⟨hnullCounts, ⟨_, hdistinct, rfl⟩, ⟨_, hordering, rfl⟩, ⟨_, hgaps, rfl⟩, hsums, hstatistics,
        hbalances, hdominants, ⟨_, hconditional, rfl⟩, ⟨_, map_eq_ok.mpr ⟨_, hbroken, rfl⟩, rfl⟩,
        ⟨_, hcomposites, rfl⟩, rfl, rfl, rfl⟩, rfl⟩
  · rintro ⟨parts, h, rfl⟩
    obtain ⟨distinctFound, hdistinct, hdistinctFound⟩ := h.distinct
    obtain ⟨orderingFound, hordering, horderingFound⟩ := h.ordering
    obtain ⟨gapsFound, hgaps, hgapsFound⟩ := h.gaps
    obtain ⟨conditionalFound, hconditional, hconditionalFound⟩ := h.conditional
    obtain ⟨exclusiveFound, hexclusive, hexclusiveFound⟩ := h.exclusive
    obtain ⟨broken, hbroken, rfl⟩ := map_eq_ok.mp hexclusive
    obtain ⟨compositesFound, hcomposites, hcompositesFound⟩ := h.composites
    refine ⟨distinctFound ++ (orderingFound ++ (gapsFound ++ (conditionalFound ++
      (broken.flatten ++ compositesFound)))), ?_, ?_⟩
    · refine bind_eq_ok.mpr ⟨_, h.nullCounts, bind_eq_ok.mpr ⟨_, hdistinct,
        bind_eq_ok.mpr ⟨_, hordering, bind_eq_ok.mpr ⟨_, hgaps, bind_eq_ok.mpr ⟨_, h.sums,
        bind_eq_ok.mpr ⟨_, h.statistics, bind_eq_ok.mpr ⟨_, h.balances,
        bind_eq_ok.mpr ⟨_, h.dominants, bind_eq_ok.mpr ⟨_, hconditional,
        bind_eq_ok.mpr ⟨_, hbroken, bind_eq_ok.mpr ⟨_, hcomposites, ?_⟩⟩⟩⟩⟩⟩⟩⟩⟩⟩⟩
      dsimp only
      rw [← h.rowCount_eq, ← h.nullRatios_eq, ← h.exclusive_eq]
    · rw [DatasetFindings.total, hdistinctFound, horderingFound, hgapsFound, hconditionalFound,
        hexclusiveFound, hcompositesFound]
      rfl

/-- All dataset rules. -/
theorem DatasetState.consecutive (h : whole.Splits left right) (rowOffset : ℕ) :
    Consecutive (fun state : DatasetState (List Record) => state.observe whole rowOffset)
      (fun state => state.observe left rowOffset)
      (fun state => state.observe right (rowOffset + left.rows)) := by
  have hdistinct := consecutive_observeEach (DistinctState.consecutive h rowOffset)
  have hordering := consecutive_observeEach (OrderingState.consecutive h rowOffset)
  have hgaps := consecutive_observeEach (GapState.consecutive h rowOffset)
  have hsums := (SumState.sequential h).mapM
  have hstatistics := (StatisticState.sequential h).mapM
  have hbalances := (BalanceState.sequential h).mapM
  have hdominants := (DominantState.sequential h).mapM
  have hconditional := consecutive_observeEach (ConditionalState.consecutive h rowOffset)
  have hcomposites := consecutive_observeEach (CompositeState.consecutive h rowOffset)
  intro state last found
  rw [DatasetState.yields_observe]
  constructor
  · rintro ⟨parts, hparts, rfl⟩
    obtain ⟨nullCounts, hnullCounts₁, hnullCounts₂⟩ :=
      (countNulls_sequential h _ _ _).mp hparts.nullCounts
    obtain ⟨distinct, distinct₁, distinct₂, hdistinct₁, hdistinct₂, hdistinctFound⟩ :=
      (hdistinct _ _ _).mp hparts.distinct
    obtain ⟨ordering, ordering₁, ordering₂, hordering₁, hordering₂, horderingFound⟩ :=
      (hordering _ _ _).mp hparts.ordering
    obtain ⟨gaps, gaps₁, gaps₂, hgaps₁, hgaps₂, hgapsFound⟩ := (hgaps _ _ _).mp hparts.gaps
    obtain ⟨sums, hsums₁, hsums₂⟩ := (hsums _ _).mp hparts.sums
    obtain ⟨statistics, hstatistics₁, hstatistics₂⟩ := (hstatistics _ _).mp hparts.statistics
    obtain ⟨balances, hbalances₁, hbalances₂⟩ := (hbalances _ _).mp hparts.balances
    obtain ⟨dominants, hdominants₁, hdominants₂⟩ := (hdominants _ _).mp hparts.dominants
    obtain ⟨conditional, conditional₁, conditional₂, hconditional₁, hconditional₂,
      hconditionalFound⟩ := (hconditional _ _ _).mp hparts.conditional
    obtain ⟨exclusive₁, exclusive₂, hexclusive₁, hexclusive₂, hexclusiveFound⟩ :=
      (exclusive_combines h _ rowOffset _).mp hparts.exclusive
    obtain ⟨composites, composites₁, composites₂, hcomposites₁, hcomposites₂, hcompositesFound⟩ :=
      (hcomposites _ _ _).mp hparts.composites
    -- what each part finds, kind by kind
    let before : DatasetFindings :=
      ⟨distinct₁, ordering₁, gaps₁, conditional₁, exclusive₁, composites₁⟩
    let after : DatasetFindings :=
      ⟨distinct₂, ordering₂, gaps₂, conditional₂, exclusive₂, composites₂⟩
    refine ⟨{ state with nullCounts, distinct, ordering, gaps, sums, statistics, balances, dominants,
                         conditional, composites }, before.total, after.total,
      DatasetState.yields_observe.mpr ⟨before, ?_, rfl⟩,
      DatasetState.yields_observe.mpr ⟨after, ?_, rfl⟩, ?_⟩
    · exact ⟨hnullCounts₁, hdistinct₁, hordering₁, hgaps₁, hsums₁, hstatistics₁, hbalances₁,
        hdominants₁, hconditional₁, hexclusive₁, hcomposites₁, rfl, rfl, rfl⟩
    · exact ⟨hnullCounts₂, hdistinct₂, hordering₂, hgaps₂, hsums₂, hstatistics₂, hbalances₂,
        hdominants₂, hconditional₂, hexclusive₂, hcomposites₂, hparts.rowCount_eq,
        hparts.nullRatios_eq, hparts.exclusive_eq⟩
    · rw [← DatasetFindings.total_add]
      show _ = (⟨distinct₁ + distinct₂, ordering₁ + ordering₂, gaps₁ + gaps₂,
        conditional₁ + conditional₂, exclusive₁ + exclusive₂, composites₁ + composites₂⟩ :
        DatasetFindings).total
      rw [← hdistinctFound, ← horderingFound, ← hgapsFound, ← hconditionalFound, ← hexclusiveFound,
        ← hcompositesFound]
  · rintro ⟨middle, _, _, hleft, hright, rfl⟩
    obtain ⟨before, hbefore, rfl⟩ := DatasetState.yields_observe.mp hleft
    obtain ⟨after, hafter, rfl⟩ := DatasetState.yields_observe.mp hright
    refine ⟨before.add after, ?_, (DatasetFindings.total_add before after).symm⟩
    exact {
      nullCounts := (countNulls_sequential h _ _ _).mpr ⟨_, hbefore.nullCounts,
        hbefore.nullRatios_eq ▸ hafter.nullCounts⟩
      distinct := (hdistinct _ _ _).mpr ⟨_, _, _, hbefore.distinct, hafter.distinct, rfl⟩
      ordering := (hordering _ _ _).mpr ⟨_, _, _, hbefore.ordering, hafter.ordering, rfl⟩
      gaps := (hgaps _ _ _).mpr ⟨_, _, _, hbefore.gaps, hafter.gaps, rfl⟩
      sums := (hsums _ _).mpr ⟨_, hbefore.sums, hafter.sums⟩
      statistics := (hstatistics _ _).mpr ⟨_, hbefore.statistics, hafter.statistics⟩
      balances := (hbalances _ _).mpr ⟨_, hbefore.balances, hafter.balances⟩
      dominants := (hdominants _ _).mpr ⟨_, hbefore.dominants, hafter.dominants⟩
      conditional :=
        (hconditional _ _ _).mpr ⟨_, _, _, hbefore.conditional, hafter.conditional, rfl⟩
      exclusive := (exclusive_combines h _ rowOffset _).mpr ⟨_, _, hbefore.exclusive,
        hbefore.exclusive_eq ▸ hafter.exclusive, rfl⟩
      composites := (hcomposites _ _ _).mpr ⟨_, _, _, hbefore.composites, hafter.composites, rfl⟩
      rowCount_eq := hafter.rowCount_eq.trans hbefore.rowCount_eq
      nullRatios_eq := hafter.nullRatios_eq.trans hbefore.nullRatios_eq
      exclusive_eq := hafter.exclusive_eq.trans hbefore.exclusive_eq }

/-! ## The column rules -/

omit [Crates] in
theorem recordCounts_modify (columns : List (ColumnPlan × ℕ)) : ∀ (counts evaluated : List ℕ)
    (index count : ℕ), recordCounts columns counts (evaluated.modify index (· + count)) =
      (recordCounts columns counts evaluated).modify index (· + count) := by
  induction columns with
  | nil => exact fun _ _ _ _ => rfl
  | cons column columns ih =>
      rintro (_ | ⟨more, counts⟩) evaluated index count
      · rfl
      · have hcomm : (evaluated.modify index (· + count)).modify column.2 (· + more) =
            (evaluated.modify column.2 (· + more)).modify index (· + count) := by
          apply List.ext_getElem?
          intro position
          simp only [List.getElem?_modify]
          cases evaluated[position]? with
          | none => rfl
          | some total =>
              simp only [Option.map_eq_map, Option.map_some, Option.some.injEq]
              split <;> split <;> omega
        rw [recordCounts, recordCounts, hcomm, ih]

omit [Crates] in
/-- Counts added one after the other are added together. -/
theorem recordCounts_add {columns : List (ColumnPlan × ℕ)} : ∀ {counts counts' : List ℕ},
    counts.length = columns.length → counts'.length = columns.length → ∀ evaluated : List ℕ,
    recordCounts columns counts' (recordCounts columns counts evaluated) =
      recordCounts columns (List.zipWith (· + ·) counts counts') evaluated := by
  induction columns with
  | nil => exact fun _ _ _ => rfl
  | cons column columns ih =>
      rintro (_ | ⟨count, counts⟩) (_ | ⟨count', counts'⟩) hlength hlength' evaluated
      · cases hlength
      · cases hlength
      · cases hlength'
      · have htwice : (evaluated.modify column.2 (· + count)).modify column.2 (· + count') =
            evaluated.modify column.2 (· + (count + count')) := by
          rw [List.modify_modify_eq]
          congr 1
          funext total
          rw [Function.comp_apply, Nat.add_assoc]
        rw [List.zipWith_cons_cons, recordCounts, recordCounts, recordCounts,
          ← recordCounts_modify, htwice]
        exact ih (Nat.succ.inj hlength) (Nat.succ.inj hlength') _

theorem ColumnPlan.events_concatenates {array first second : ArrowArray}
    (h : array.Splits first second) (plan : ColumnPlan) (unique : Bool) (rowOffset : ℕ) :
    Concatenates (plan.events array unique rowOffset) (plan.events first unique rowOffset)
      (plan.events second unique (rowOffset + first.cells.length)) := by
  have hprepare : ∀ {array' : ArrowArray}, array'.dataType = array.dataType →
      plan.prepare array' unique = plan.prepare array unique := by
    intro array' harray
    unfold ColumnPlan.prepare downcast
    rw [harray]
  unfold ColumnPlan.events
  rw [hprepare h.dataType_left, hprepare h.dataType_right]
  cases plan.prepare array unique with
  | error e => exact concatenates_error e
  | ok kernel =>
      have happend := collectRows_append (plan.cellEvents kernel) first.cells second.cells
        rowOffset
      rw [← h.cells_eq] at happend
      exact happend

theorem length_observeColumns {batch : RecordBatch} {rows : ℕ} {columns : List (ColumnPlan × ℕ)} :
    ∀ {uniques : List (Option (List Record))} {observed : ColumnsObserved},
      observeColumns batch rows columns uniques = .ok observed →
      observed.counts.length = columns.length := by
  induction columns with
  | nil =>
      intro uniques observed h
      cases h
      rfl
  | cons entry columns ih =>
      rintro (_ | ⟨records, uniques⟩) observed h
      · cases h
      · obtain ⟨_, _, rest, _, _, hrest, rfl⟩ := observeColumns_cons_eq_ok.mp h
        exact congrArg Nat.succ (ih hrest)

/-- What the column rules make of the whole, next to what they make of its parts. -/
structure ColumnsObserved.Joins (whole left right : ColumnsObserved) : Prop where
  uniques_eq : whole.uniques = right.uniques
  counts_eq : whole.counts = List.zipWith (· + ·) left.counts right.counts
  findings_eq : (whole.findings : Multiset Finding) = left.findings + right.findings

theorem observeColumns_splits (h : whole.Splits left right) (rowOffset : ℕ)
    {columns : List (ColumnPlan × ℕ)} : ∀ {uniques : List (Option (List Record))},
    (∀ observed, observeColumns whole rowOffset columns uniques = .ok observed →
      ∃ before after, observeColumns left rowOffset columns uniques = .ok before ∧
        observeColumns right (rowOffset + left.rows) columns before.uniques = .ok after) ∧
    ∀ before after, observeColumns left rowOffset columns uniques = .ok before →
      observeColumns right (rowOffset + left.rows) columns before.uniques = .ok after →
      ∃ observed, observeColumns whole rowOffset columns uniques = .ok observed ∧
        observed.Joins before after := by
  induction columns with
  | nil =>
      intro uniques
      refine ⟨fun observed hobserved => ⟨_, _, rfl, rfl⟩, ?_⟩
      rintro before after hbefore hafter
      cases hbefore
      cases hafter
      exact ⟨_, rfl, rfl, rfl, rfl⟩
  | cons entry columns ih =>
      rintro (_ | ⟨records, uniques⟩)
      · constructor
        · intro observed hobserved
          cases hobserved
        · intro before after hbefore
          cases hbefore
      -- a column that is missing is missing in both parts; otherwise its cells are split
      rcases h.column entry.1.columnIndex with ⟨hwhole, hleft, hright⟩ |
          ⟨array, first, second, hwhole, hleft, hright, hsplits, hlength, -⟩
      · constructor
        · intro observed hobserved
          obtain ⟨_, _, _, harray, -⟩ := observeColumns_cons_eq_ok.mp hobserved
          rw [hwhole] at harray
          cases harray
        · intro before after hbefore
          obtain ⟨_, _, _, harray, -⟩ := observeColumns_cons_eq_ok.mp hbefore
          rw [hleft] at harray
          cases harray
      have hevents := ColumnPlan.events_concatenates hsplits entry.1 records.isSome rowOffset
      rw [hlength] at hevents
      have hsome : ∀ events, (records.map (· ++ recordsOf events)).isSome = records.isSome :=
        fun _ => Option.isSome_map
      constructor
      · intro observed hobserved
        obtain ⟨_, events, rest, harray, heventsWhole, hrest, rfl⟩ :=
          observeColumns_cons_eq_ok.mp hobserved
        rw [hwhole] at harray
        cases harray
        obtain ⟨events₁, events₂, hevents₁, hevents₂, rfl⟩ := (hevents events).mp heventsWhole
        obtain ⟨before, after, hbefore, hafter⟩ := ih.1 rest hrest
        refine ⟨_, _, observeColumns_cons_eq_ok.mpr ⟨first, events₁, before, hleft, hevents₁,
          hbefore, rfl⟩, observeColumns_cons_eq_ok.mpr ⟨second, events₂, after, hright, ?_, hafter,
          rfl⟩⟩
        rw [hsome]
        exact hevents₂
      · intro before after hbefore hafter
        obtain ⟨_, events₁, rest₁, harray₁, hevents₁, hrest₁, rfl⟩ :=
          observeColumns_cons_eq_ok.mp hbefore
        obtain ⟨_, events₂, rest₂, harray₂, hevents₂, hrest₂, rfl⟩ :=
          observeColumns_cons_eq_ok.mp hafter
        rw [hleft] at harray₁
        rw [hright] at harray₂
        cases harray₁
        cases harray₂
        rw [hsome] at hevents₂
        obtain ⟨rest, hrest, huniques, hcounts, hfindings⟩ := ih.2 rest₁ rest₂ hrest₁ hrest₂
        refine ⟨_, observeColumns_cons_eq_ok.mpr ⟨array, events₁ ++ events₂, rest, hwhole,
          (hevents _).mpr ⟨events₁, events₂, hevents₁, hevents₂, rfl⟩, hrest, rfl⟩, ?_, ?_, ?_⟩
        · dsimp only
          rw [huniques]
          cases records with
          | none => rfl
          | some records =>
              simp only [Option.map_some, recordsOf_append, List.append_assoc]
        · dsimp only
          have hfirst := first.nullCount_le
          have hsecond := second.nullCount_le
          rw [List.zipWith_cons_cons, hcounts, hsplits.length_eq, hsplits.nullCount_eq]
          congr 1
          omega
        · dsimp only
          rw [← Multiset.coe_add, ← Multiset.coe_add, ← Multiset.coe_add, hfindings,
            findingsOf_append, ← Multiset.coe_add]
          exact add_add_add_comm ..

/-! ## One turn -/

/-- Two traversals that have found the same, in some order. -/
structure ScanMeaning.Agrees (scan scan' : ScanMeaning) : Prop where
  fingerprint_eq : scan.fingerprint = scan'.fingerprint
  findings_perm : scan.findings.Perm scan'.findings
  evaluated_eq : scan.evaluated = scan'.evaluated
  uniques_eq : scan.uniques = scan'.uniques
  dataset_eq : scan.dataset = scan'.dataset
  references_eq : scan.references = scan'.references
  rows_eq : scan.rows = scan'.rows

omit [Crates] in
theorem ScanMeaning.Agrees.refl (scan : ScanMeaning) : scan.Agrees scan :=
  ⟨rfl, .rfl, rfl, rfl, rfl, rfl, rfl⟩

omit [Crates] in
theorem ScanMeaning.Agrees.symm {scan scan' : ScanMeaning} (h : scan.Agrees scan') :
    scan'.Agrees scan :=
  ⟨h.fingerprint_eq.symm, h.findings_perm.symm, h.evaluated_eq.symm, h.uniques_eq.symm,
    h.dataset_eq.symm, h.references_eq.symm, h.rows_eq.symm⟩

omit [Crates] in
theorem ScanMeaning.Agrees.trans {scan scan' scan'' : ScanMeaning} (h : scan.Agrees scan')
    (h' : scan'.Agrees scan'') : scan.Agrees scan'' :=
  ⟨h.fingerprint_eq.trans h'.fingerprint_eq, h.findings_perm.trans h'.findings_perm,
    h.evaluated_eq.trans h'.evaluated_eq, h.uniques_eq.trans h'.uniques_eq,
    h.dataset_eq.trans h'.dataset_eq, h.references_eq.trans h'.references_eq,
    h.rows_eq.trans h'.rows_eq⟩

/-- What one turn over a batch does to a traversal that keeps no fingerprint. -/
structure ScanMeaning.Turns (plan : CompiledContract) (batch : RecordBatch)
    (scan last : ScanMeaning) (columns : ColumnsObserved) (rowFound datasetFound nullFound :
      Multiset Finding) : Prop where
  schema_eq : batch.schema = plan.schema
  columnRules : observeColumns batch scan.rows plan.columns.zipIdx scan.uniques = .ok columns
  rowPlans : Finds (observeRowPlans batch scan.rows plan.rowPlans) rowFound
  dataset : Yields (scan.dataset.observe batch scan.rows) last.dataset datasetFound
  references : Yields (observeEach (ReferenceEntry.observe batch scan.rows) scan.references)
    last.references nullFound
  fingerprint_eq : last.fingerprint = none
  evaluated_eq : last.evaluated = recordCounts plan.columns.zipIdx columns.counts scan.evaluated
  uniques_eq : last.uniques = columns.uniques
  rows_eq : last.rows = scan.rows + batch.rows
  findings_eq : (last.findings : Multiset Finding) =
    scan.findings + (columns.findings + rowFound + datasetFound + nullFound)

theorem ScanMeaning.turns_of_ok {plan : CompiledContract} {batch : RecordBatch}
    {scan last : ScanMeaning} (hfingerprint : scan.fingerprint = none)
    (h : observeBatch plan scan (.ok batch) = .ok last) :
    ∃ columns rowFound datasetFound nullFound,
      Turns plan batch scan last columns rowFound datasetFound nullFound := by
  obtain ⟨batch', hbatch, h⟩ := bind_eq_ok.mp h
  cases hbatch
  obtain ⟨_, hschema, h⟩ := bind_eq_ok.mp h
  rw [hfingerprint] at h
  obtain ⟨fingerprint, hnone, h⟩ := bind_eq_ok.mp h
  cases hnone
  obtain ⟨columns, hcolumns, h⟩ := bind_eq_ok.mp h
  obtain ⟨rowFindings, hrow, h⟩ := bind_eq_ok.mp h
  obtain ⟨⟨dataset, datasetFindings⟩, hdataset, h⟩ := bind_eq_ok.mp h
  obtain ⟨⟨references, nullFindings⟩, hreferences, h⟩ := bind_eq_ok.mp h
  cases h
  refine ⟨columns, rowFindings, datasetFindings, nullFindings, ?_, hcolumns, ⟨_, hrow, rfl⟩,
    ⟨_, hdataset, rfl⟩, ⟨_, hreferences, rfl⟩, rfl, rfl, rfl, rfl, ?_⟩
  · exact not_not.mp (rejectIf_eq_ok.mp hschema)
  · simp only [← Multiset.coe_add, add_assoc]

/-- A turn that could end so ends so, up to the order of what it found. -/
theorem ScanMeaning.Turns.exists_ok {plan : CompiledContract} {batch : RecordBatch}
    {scan scan' last : ScanMeaning} {columns : ColumnsObserved}
    {rowFound datasetFound nullFound : Multiset Finding} (hagrees : scan'.Agrees scan)
    (hfingerprint : scan.fingerprint = none)
    (h : Turns plan batch scan last columns rowFound datasetFound nullFound) :
    ∃ last', observeBatch plan scan' (.ok batch) = .ok last' ∧ last'.Agrees last := by
  obtain ⟨rowFindings, hrow, hrowFound⟩ := h.rowPlans
  obtain ⟨datasetFindings, hdataset, hdatasetFound⟩ := h.dataset
  obtain ⟨nullFindings, hreferences, hnullFound⟩ := h.references
  have hcolumns := h.columnRules
  rw [← hagrees.rows_eq] at hcolumns hrow hdataset hreferences
  rw [← hagrees.uniques_eq] at hcolumns
  rw [← hagrees.dataset_eq] at hdataset
  rw [← hagrees.references_eq] at hreferences
  have hok : observeBatch plan scan' (.ok batch) = .ok {
      fingerprint := none
      findings := scan'.findings ++ columns.findings ++ rowFindings ++ datasetFindings ++ nullFindings
      evaluated := recordCounts plan.columns.zipIdx columns.counts scan'.evaluated
      uniques := columns.uniques
      dataset := last.dataset
      references := last.references
      rows := scan'.rows + batch.rows } := by
    refine bind_eq_ok.mpr ⟨batch, rfl, bind_eq_ok.mpr ⟨(),
      rejectIf_eq_ok.mpr (not_not.mpr h.schema_eq), ?_⟩⟩
    rw [hagrees.fingerprint_eq, hfingerprint]
    exact bind_eq_ok.mpr ⟨none, rfl, bind_eq_ok.mpr ⟨columns, hcolumns,
      bind_eq_ok.mpr ⟨rowFindings, hrow, bind_eq_ok.mpr ⟨_, hdataset,
      bind_eq_ok.mpr ⟨_, hreferences, rfl⟩⟩⟩⟩⟩
  refine ⟨_, hok, ?_⟩
  refine ⟨h.fingerprint_eq.symm, ?_, ?_, h.uniques_eq.symm, rfl, rfl, ?_⟩
  · rw [← Multiset.coe_eq_coe, h.findings_eq, hrowFound, hdatasetFound, hnullFound,
      ← Multiset.coe_eq_coe.mpr hagrees.findings_perm]
    simp only [← Multiset.coe_add, add_assoc]
  · dsimp only
    rw [h.evaluated_eq, hagrees.evaluated_eq]
  · dsimp only
    rw [h.rows_eq, hagrees.rows_eq]

end ProofFrame
