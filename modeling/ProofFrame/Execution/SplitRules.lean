import ProofFrame.Execution.KeyTuples
import ProofFrame.Execution.Splits

/-!
# Rules on a batch in two parts

For every rule: going over a batch is going over its first part and then over
the rest, whose first row comes after the rows of the first part.
-/

namespace ProofFrame

open Lib Lib.Run Lib.Ieee754

/-! ## Rows -/

section Rows

variable {ι κ : Type} {events events' : ι → ℕ → Except Fault (List Event)}

theorem collectRows_append (events : ι → ℕ → Except Fault (List Event)) (items items' : List ι)
    (rowOffset : ℕ) :
    Concatenates (collectRows events (items ++ items') rowOffset)
      (collectRows events items rowOffset)
      (collectRows events items' (rowOffset + items.length)) := by
  apply Concatenates.of_eq
  unfold collectRows
  rw [List.zipIdx_append]
  exact collect_append (fun entry : ι × ℕ => events entry.1 entry.2) _ _

theorem collectRows_congr {items : List ι} (h : ∀ item ∈ items, ∀ row, events item row =
    events' item row) (rowOffset : ℕ) :
    collectRows events items rowOffset = collectRows events' items rowOffset := by
  unfold collectRows
  generalize ([] : List Event) = done
  induction items generalizing rowOffset done with
  | nil => rfl
  | cons item items ih =>
      rw [List.zipIdx_cons, List.foldlM_cons, List.foldlM_cons]
      dsimp only
      rw [h item (List.mem_cons_self ..)]
      congr 1
      funext next
      exact ih (fun other hother => h other (List.mem_cons_of_mem _ hother)) _ _

theorem collectRows_map (f : κ → ι) (items : List κ) (rowOffset : ℕ) :
    collectRows events (items.map f) rowOffset =
      collectRows (fun item => events (f item)) items rowOffset := by
  unfold collectRows
  rw [List.zipIdx_map, List.foldlM_map]
  rfl

end Rows

/-- A kernel that looks at a batch by position. -/
theorem collectRows_positions {events first second : ℕ → ℕ → Except Fault (List Event)}
    {leftRows rightRows : ℕ}
    (hfirst : ∀ position < leftRows, ∀ row, events position row = first position row)
    (hsecond : ∀ position < rightRows, ∀ row,
      events (leftRows + position) row = second position row) (rowOffset : ℕ) :
    Concatenates (collectRows events (List.range (leftRows + rightRows)) rowOffset)
      (collectRows first (List.range leftRows) rowOffset)
      (collectRows second (List.range rightRows) (rowOffset + leftRows)) := by
  have happend := collectRows_append events (List.range leftRows)
    ((List.range rightRows).map (leftRows + ·)) rowOffset
  have hafter : collectRows (fun position => events (leftRows + position)) (List.range rightRows)
      (rowOffset + leftRows) = collectRows second (List.range rightRows) (rowOffset + leftRows) :=
    collectRows_congr (fun position hposition => hsecond position (List.mem_range.mp hposition)) _
  rw [← List.range_add, List.length_range, collectRows_map,
    collectRows_congr fun position hposition => hfirst position (List.mem_range.mp hposition),
    hafter] at happend
  exact happend

namespace ArrowArray.Splits

variable {whole left right : ArrowArray}

theorem cell_left (h : whole.Splits left right) {position : ℕ}
    (hposition : position < left.cells.length) : whole.cell position = left.cell position := by
  rw [ArrowArray.cell, ArrowArray.cell, h.cells_eq, List.getElem?_append_left hposition]

theorem cell_right (h : whole.Splits left right) (position : ℕ) :
    whole.cell (left.cells.length + position) = right.cell position := by
  rw [ArrowArray.cell, ArrowArray.cell, h.cells_eq,
    List.getElem?_append_right (Nat.le_add_right ..), Nat.add_sub_cancel_left]

theorem nullCount_eq (h : whole.Splits left right) :
    whole.nullCount = left.nullCount + right.nullCount := by
  rw [ArrowArray.nullCount, ArrowArray.nullCount, ArrowArray.nullCount, h.cells_eq,
    List.filter_append, List.length_append]

theorem length_eq (h : whole.Splits left right) : whole.length = left.length + right.length := by
  rw [ArrowArray.length, ArrowArray.length, ArrowArray.length, h.cells_eq, List.length_append]

end ArrowArray.Splits

theorem ArrowArray.nullCount_le (array : ArrowArray) : array.nullCount ≤ array.length :=
  List.length_filter_le ..

variable [Crates] {whole left right : RecordBatch}

/-! ## Keys -/

theorem encodeKey_left (h : whole.Splits left right) (indexes : List ℕ) {position : ℕ}
    (hposition : position < left.rows) :
    encodeKey whole indexes position = encodeKey left indexes position := by
  unfold encodeKey
  generalize indexes.zipIdx = parts
  induction parts with
  | nil => rfl
  | cons part parts ih =>
      obtain ⟨index, ordinal⟩ := part
      rw [encodeKeyParts, encodeKeyParts, ih]
      rcases h.column index with ⟨hwhole, hleft, -⟩ |
          ⟨array, first, _, hwhole, hleft, -, hsplits, hlength, -⟩
      · rw [hwhole, hleft]
      · rw [hwhole, hleft]
        show (array.cell position >>= _) = (first.cell position >>= _)
        rw [hsplits.cell_left (hposition.trans_eq hlength.symm), hsplits.dataType_left]

theorem encodeKey_right (h : whole.Splits left right) (indexes : List ℕ) (position : ℕ) :
    encodeKey whole indexes (left.rows + position) = encodeKey right indexes position := by
  unfold encodeKey
  generalize indexes.zipIdx = parts
  induction parts with
  | nil => rfl
  | cons part parts ih =>
      obtain ⟨index, ordinal⟩ := part
      rw [encodeKeyParts, encodeKeyParts, ih]
      rcases h.column index with ⟨hwhole, -, hright⟩ |
          ⟨array, first, second, hwhole, -, hright, hsplits, hlength, -⟩
      · rw [hwhole, hright]
        rfl
      · rw [hwhole, hright]
        show (array.cell (left.rows + position) >>= _) = (second.cell position >>= _)
        rw [← hlength, hsplits.cell_right, hsplits.dataType_right]

theorem compositeKey_left (h : whole.Splits left right) (columns : List ℕ) {position : ℕ}
    (hposition : position < left.rows) :
    compositeKey columns whole position = compositeKey columns left position := by
  unfold compositeKey
  congr 1
  funext ⟨bytes, sawNull⟩ index
  rcases h.column index with ⟨hwhole, hleft, -⟩ |
      ⟨array, first, _, hwhole, hleft, -, hsplits, hlength, -⟩
  · dsimp only
    rw [hwhole, hleft]
  · dsimp only
    rw [hwhole, hleft]
    show (array.cell position >>= _) = (first.cell position >>= _)
    rw [hsplits.cell_left (hposition.trans_eq hlength.symm), hsplits.dataType_left]

theorem compositeKey_right (h : whole.Splits left right) (columns : List ℕ) (position : ℕ) :
    compositeKey columns whole (left.rows + position) = compositeKey columns right position := by
  unfold compositeKey
  congr 1
  funext ⟨bytes, sawNull⟩ index
  rcases h.column index with ⟨hwhole, -, hright⟩ |
      ⟨array, first, second, hwhole, -, hright, hsplits, hlength, -⟩
  · dsimp only
    rw [hwhole, hright]
    rfl
  · dsimp only
    rw [hwhole, hright]
    show (array.cell (left.rows + position) >>= _) = (second.cell position >>= _)
    rw [← hlength, hsplits.cell_right, hsplits.dataType_right]

/-- The rows of a uniqueness rule over several columns. -/
theorem keyEvents_positions (h : whole.Splits left right) (columns : List ℕ)
    (nulls : CompositeNullPolicyAst) (finding : ℕ → Finding) (rowOffset : ℕ) :
    Concatenates
      (collectRows (keyEvents columns nulls finding whole) (List.range whole.rows) rowOffset)
      (collectRows (keyEvents columns nulls finding left) (List.range left.rows) rowOffset)
      (collectRows (keyEvents columns nulls finding right) (List.range right.rows)
        (rowOffset + left.rows)) := by
  rw [h.rows_eq]
  apply collectRows_positions
  · intro position hposition row
    rw [keyEvents, keyEvents, compositeKey_left h columns hposition]
  · intro position _ row
    rw [keyEvents, keyEvents, compositeKey_right h]

theorem CompositeState.consecutive (h : whole.Splits left right) (rowOffset : ℕ) :
    Consecutive (CompositeState.observe whole rowOffset) (CompositeState.observe left rowOffset)
      (CompositeState.observe right (rowOffset + left.rows)) := by
  apply Consecutive.of_concatenates (fun state : CompositeState (List Distinct.Record) =>
      collectRows (compositeEvents state.plan whole) (List.range whole.rows) rowOffset) _ _
    (fun state events => { state with exact := state.exact ++ recordsOf events }) findingsOf
  · intro _ _
    rfl
  · intro state
    exact keyEvents_positions h _ _ _ rowOffset
  · intro state before after
    dsimp only
    rw [recordsOf_append, List.append_assoc]
  · exact findingsOf_append

theorem ReferenceEntry.consecutive (h : whole.Splits left right) (rowOffset : ℕ) :
    Consecutive (ReferenceEntry.observe whole rowOffset) (ReferenceEntry.observe left rowOffset)
      (ReferenceEntry.observe right (rowOffset + left.rows)) := by
  apply Consecutive.of_concatenates (fun entry : ReferenceEntry (List Distinct.Record) =>
      collectRows (referenceEvents entry.plan whole) (List.range whole.rows) rowOffset) _ _
    (fun entry events => { entry with localKeys := entry.localKeys ++ recordsOf events }) findingsOf
  · intro _ _
    rfl
  · intro entry
    rw [h.rows_eq]
    apply collectRows_positions
    · intro position hposition row
      rw [referenceEvents, referenceEvents, encodeKey_left h _ hposition]
    · intro position _ row
      rw [referenceEvents, referenceEvents, encodeKey_right h]
  · intro entry before after
    dsimp only
    rw [recordsOf_append, List.append_assoc]
  · exact findingsOf_append

/-! ## Comparisons -/

omit [Crates] in
theorem mapM_cells {β : Type} {f : Option Value → Except Fault β} {array first second : ArrowArray}
    (h : array.Splits first second) : Concatenates (array.cells.mapM f) (first.cells.mapM f)
      (second.cells.mapM f) := by
  intro list
  rw [h.cells_eq]
  exact mapM_append_eq_ok

omit [Crates] in
theorem literalOperand_congr {array array' : ArrowArray} (h : array'.dataType = array.dataType)
    (kernel : KernelKind) (literal : ScalarValuePlan) (plan : ComparePlan) :
    literalOperand kernel array' literal plan = literalOperand kernel array literal plan := by
  unfold literalOperand downcast
  rw [h]

omit [Crates] in
theorem scanColumnLiteral_concatenates {array first second : ArrowArray}
    (h : array.Splits first second) (kernel : KernelKind) (literal : ScalarValuePlan)
    (literalIsLeft : Bool) (plan : ComparePlan) :
    Concatenates (scanColumnLiteral kernel array literal literalIsLeft plan)
      (scanColumnLiteral kernel first literal literalIsLeft plan)
      (scanColumnLiteral kernel second literal literalIsLeft plan) := by
  unfold scanColumnLiteral
  rw [literalOperand_congr h.dataType_left, literalOperand_congr h.dataType_right]
  cases literalOperand kernel array literal plan with
  | error e => exact concatenates_error e
  | ok scalar => exact mapM_cells h

omit [Crates] in
theorem scanColumnPair_concatenates {array first second other otherFirst otherSecond : ArrowArray}
    (h : array.Splits first second) (hother : other.Splits otherFirst otherSecond)
    (hfirst : otherFirst.cells.length = first.cells.length) (kernel : KernelKind)
    (plan : ComparePlan) :
    Concatenates (scanColumnPair kernel array other plan)
      (scanColumnPair kernel first otherFirst plan)
      (scanColumnPair kernel second otherSecond plan) := by
  unfold scanColumnPair
  split
  swap
  · exact concatenates_error _
  unfold downcast
  rw [h.dataType_left, h.dataType_right, hother.dataType_left, hother.dataType_right]
  split
  swap
  · exact concatenates_error _
  split
  swap
  · exact concatenates_error _
  intro list
  show (array.cells.zipIdx.mapM _ = Except.ok list) ↔ _
  rw [h.cells_eq, List.zipIdx_append, Nat.zero_add, mapM_append_eq_ok]
  have hleft : first.cells.zipIdx.mapM (fun entry : Option Value × ℕ => do
        let cell ← other.cell entry.2
        compareCells plan entry.1 cell) =
      first.cells.zipIdx.mapM (fun entry : Option Value × ℕ => do
        let cell ← otherFirst.cell entry.2
        compareCells plan entry.1 cell) := by
    apply mapM_congr
    rintro ⟨cell, row⟩ hcell
    have hrow := (List.mem_zipIdx hcell).2.1
    dsimp only
    rw [hother.cell_left (by omega)]
  have hright : (second.cells.zipIdx first.cells.length).mapM (fun entry : Option Value × ℕ => do
        let cell ← other.cell entry.2
        compareCells plan entry.1 cell) =
      second.cells.zipIdx.mapM (fun entry : Option Value × ℕ => do
        let cell ← otherSecond.cell entry.2
        compareCells plan entry.1 cell) := by
    rw [List.zipIdx_eq_map_add, List.mapM_map, ← hfirst]
    apply mapM_congr
    rintro ⟨cell, row⟩ -
    show (other.cell (otherFirst.cells.length + row) >>= _) = _
    rw [hother.cell_right]
  exact hleft ▸ hright ▸ Iff.rfl

omit [Crates] in
/-- The outcomes of a predicate. -/
theorem scanPredicate_concatenates (h : whole.Splits left right) (plan : ComparePlan) :
    Concatenates (scanPredicate plan whole) (scanPredicate plan left)
      (scanPredicate plan right) := by
  unfold scanPredicate
  split
  · rename_i index _ kernel other _ _ _ _
    rcases h.column index with ⟨hwhole, hleft, hright⟩ |
        ⟨array, first, second, hwhole, hleft, hright, hsplits, hlength, -⟩
    · rw [hwhole, hleft, hright]
      exact concatenates_error _
    rcases h.column other with ⟨hwhole', hleft', hright'⟩ |
        ⟨array', first', second', hwhole', hleft', hright', hsplits', hlength', -⟩
    · rw [hwhole, hleft, hright, hwhole', hleft', hright']
      exact concatenates_error _
    rw [hwhole, hleft, hright, hwhole', hleft', hright']
    exact scanColumnPair_concatenates hsplits hsplits' (hlength'.trans hlength.symm) _ _
  · rename_i index _ kernel literal _ _
    rcases h.column index with ⟨hwhole, hleft, hright⟩ |
        ⟨array, first, second, hwhole, hleft, hright, hsplits, -, -⟩
    · rw [hwhole, hleft, hright]
      exact concatenates_error _
    rw [hwhole, hleft, hright]
    exact scanColumnLiteral_concatenates hsplits _ _ _ _
  · rename_i literal index _ kernel _ _
    rcases h.column index with ⟨hwhole, hleft, hright⟩ |
        ⟨array, first, second, hwhole, hleft, hright, hsplits, -, -⟩
    · rw [hwhole, hleft, hright]
      exact concatenates_error _
    rw [hwhole, hleft, hright]
    exact scanColumnLiteral_concatenates hsplits _ _ _ _
  · exact concatenates_error _

omit [Crates] in
theorem length_column {batch : RecordBatch} {index : ℕ} {array : ArrowArray}
    (h : batch.column index = .ok array) : array.cells.length = batch.rows :=
  batch.lengths_eq array (List.mem_of_getElem? (column_eq_ok.mp h))

omit [Crates] in
theorem length_mapM {ι β : Type} {f : ι → Except Fault β} {items : List ι} {results : List β}
    (h : items.mapM f = .ok results) : results.length = items.length :=
  (mapM_eq_ok.mp h).length_eq.symm

omit [Crates] in
theorem length_scanColumnLiteral {kernel : KernelKind} {array : ArrowArray}
    {literal : ScalarValuePlan} {literalIsLeft : Bool} {plan : ComparePlan}
    {outcomes : List (Option Bool)}
    (h : scanColumnLiteral kernel array literal literalIsLeft plan = .ok outcomes) :
    outcomes.length = array.cells.length := by
  obtain ⟨_, -, h⟩ := bind_eq_ok.mp h
  exact length_mapM h

omit [Crates] in
/-- A predicate gives one outcome for each row. -/
theorem length_scanPredicate {plan : ComparePlan} {batch : RecordBatch}
    {outcomes : List (Option Bool)} (h : scanPredicate plan batch = .ok outcomes) :
    outcomes.length = batch.rows := by
  unfold scanPredicate at h
  split at h
  · obtain ⟨array, harray, h⟩ := bind_eq_ok.mp h
    obtain ⟨other, -, h⟩ := bind_eq_ok.mp h
    unfold scanColumnPair at h
    split at h
    · obtain ⟨_, -, h⟩ := bind_eq_ok.mp h
      obtain ⟨_, -, h⟩ := bind_eq_ok.mp h
      rw [length_mapM h, List.length_zipIdx, length_column harray]
    · cases h
  · obtain ⟨array, harray, h⟩ := bind_eq_ok.mp h
    rw [length_scanColumnLiteral h, length_column harray]
  · obtain ⟨array, harray, h⟩ := bind_eq_ok.mp h
    rw [length_scanColumnLiteral h, length_column harray]
  · cases h

omit [Crates] in
/-- A kernel on the outcomes of a predicate. -/
theorem collectRows_outcomes {before after : List (Option Bool)} {leftRows : ℕ}
    {events first second : Option Bool × ℕ → ℕ → Except Fault (List Event)}
    (hlength : before.length = leftRows)
    (hfirst : ∀ outcome : Option Bool × ℕ, outcome.2 < leftRows → ∀ row,
      events outcome row = first outcome row)
    (hsecond : ∀ (outcome : Option Bool) (position row : ℕ),
      events (outcome, leftRows + position) row = second (outcome, position) row)
    (rowOffset : ℕ) :
    Concatenates (collectRows events (before ++ after).zipIdx rowOffset)
      (collectRows first before.zipIdx rowOffset)
      (collectRows second after.zipIdx (rowOffset + leftRows)) := by
  subst hlength
  rw [List.zipIdx_append, Nat.zero_add, List.zipIdx_eq_map_add (i := before.length)]
  have happend := collectRows_append events before.zipIdx
    (after.zipIdx.map fun (outcome, position) => (outcome, before.length + position)) rowOffset
  have hbefore : collectRows events before.zipIdx rowOffset =
      collectRows first before.zipIdx rowOffset := by
    apply collectRows_congr
    rintro ⟨outcome, position⟩ houtcome row
    have hposition := (List.mem_zipIdx houtcome).2.1
    exact hfirst _ (by dsimp only; omega) row
  have hafter : collectRows (fun entry : Option Bool × ℕ =>
      events (entry.1, before.length + entry.2)) after.zipIdx (rowOffset + before.length) =
      collectRows second after.zipIdx (rowOffset + before.length) :=
    collectRows_congr (fun entry _ row => hsecond entry.1 entry.2 row) _
  rw [List.length_zipIdx, collectRows_map, hbefore] at happend
  rw [← hafter]
  exact happend

/-- The events of a batch under a uniqueness rule for the rows a predicate selects. -/
def ConditionalUniquePlan.events (plan : ConditionalUniquePlan) (batch : RecordBatch)
    (rowOffset : ℕ) : Except Fault (List Event) := do
  let outcomes ← scanPredicate plan.predicate batch
  collectRows (conditionalUniqueEvents plan batch) outcomes.zipIdx rowOffset

theorem ConditionalState.observe_eq (batch : RecordBatch) (rowOffset : ℕ) :
    ConditionalState.observe batch rowOffset = fun state => (do
      let events ← state.plan.events batch rowOffset
      .ok ({ state with exact := state.exact ++ recordsOf events }, findingsOf events)) := by
  funext state
  rw [ConditionalUniquePlan.events, bind_assoc]
  rfl

theorem ConditionalState.consecutive (h : whole.Splits left right) (rowOffset : ℕ) :
    Consecutive (ConditionalState.observe whole rowOffset)
      (ConditionalState.observe left rowOffset)
      (ConditionalState.observe right (rowOffset + left.rows)) := by
  rw [ConditionalState.observe_eq, ConditionalState.observe_eq, ConditionalState.observe_eq]
  apply Consecutive.of_concatenates
    (fun state : ConditionalState (List Distinct.Record) => state.plan.events whole rowOffset) _ _
    (fun state events => { state with exact := state.exact ++ recordsOf events }) findingsOf
  · intro _ _
    rfl
  · intro state
    apply (scanPredicate_concatenates h state.plan.predicate).bind
    intro before after hbefore _
    apply collectRows_outcomes (length_scanPredicate hbefore)
    · intro outcome houtcome row
      rw [conditionalUniqueEvents, conditionalUniqueEvents, keyEvents, keyEvents,
        compositeKey_left h _ houtcome]
    · intro outcome position row
      rw [conditionalUniqueEvents, conditionalUniqueEvents, keyEvents, keyEvents,
        compositeKey_right h]
  · intro state before after
    dsimp only
    rw [recordsOf_append, List.append_assoc]
  · exact findingsOf_append

/-! ## Row rules -/

theorem scanAssertionRow_congr {array array' : ArrowArray} (h : array'.dataType = array.dataType)
    (column ruleName : String) (row : ℕ) (kernel : KernelKind) (rules : CompiledRules)
    (cell : Option Value) :
    scanAssertionRow column ruleName row kernel rules array' cell =
      scanAssertionRow column ruleName row kernel rules array cell := by
  unfold scanAssertionRow downcast
  rw [h]

theorem RowPlan.events_concatenates (h : whole.Splits left right) (plan : RowPlan) (rowOffset : ℕ) :
    Concatenates (plan.events whole rowOffset) (plan.events left rowOffset)
      (plan.events right (rowOffset + left.rows)) := by
  unfold RowPlan.events RowPlan.prepare
  split
  · rename_i compare _
    simp only [bind_assoc]
    apply (scanPredicate_concatenates h compare).bind
    intro before after hbefore _
    exact collectRows_outcomes (length_scanPredicate hbefore) (fun _ _ _ => rfl)
      (fun _ _ _ => rfl) rowOffset
  · rename_i predicate assertionColumn field assertion _
    simp only [bind_assoc]
    rcases h.column assertionColumn with ⟨hwhole, hleft, hright⟩ |
        ⟨array, first, second, hwhole, hleft, hright, hsplits, hlength, -⟩
    · rw [hwhole, hleft, hright]
      exact concatenates_error _
    rw [hwhole, hleft, hright]
    apply (scanPredicate_concatenates h predicate).bind
    intro before after hbefore _
    apply collectRows_outcomes (length_scanPredicate hbefore)
    · intro outcome houtcome row
      unfold conditionalEvents
      dsimp only
      rw [hsplits.cell_left (houtcome.trans_eq hlength.symm)]
      simp only [scanAssertionRow_congr hsplits.dataType_left]
    · intro outcome position row
      unfold conditionalEvents
      dsimp only
      rw [← hlength, hsplits.cell_right]
      simp only [scanAssertionRow_congr hsplits.dataType_right]

theorem observeRowPlans_combines (h : whole.Splits left right) (plans : List RowPlan)
    (rowOffset : ℕ) :
    Combines (observeRowPlans whole rowOffset plans) (observeRowPlans left rowOffset plans)
      (observeRowPlans right (rowOffset + left.rows) plans) := by
  have hcollect : ∀ (batch : RecordBatch) (rows : ℕ), observeRowPlans batch rows plans =
      plans.foldlM (fun done plan => do
        let next ← findingsOf <$> plan.events batch rows
        .ok (done ++ next)) [] := by
    intro batch rows
    unfold observeRowPlans
    congr 1
    funext done plan
    cases plan.events batch rows <;> rfl
  rw [hcollect, hcollect, hcollect]
  apply Combines.collect
  intro plan
  apply Concatenates.combines
  rw [map_eq_pure_bind, map_eq_pure_bind, map_eq_pure_bind]
  apply (RowPlan.events_concatenates h plan rowOffset).bind
  intro before after _ _
  apply Concatenates.of_eq
  rw [findingsOf_append]
  rfl

end ProofFrame
