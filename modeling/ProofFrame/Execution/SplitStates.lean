import ProofFrame.Execution.SplitRules

/-!
# States on a batch in two parts

The rules that carry more than a set of values from batch to batch: the last
value of an order, the set of distinct values, totals, moments and frequencies,
null counts, and the bitmaps of mutual exclusion, which are rebuilt for every
batch.
-/

namespace ProofFrame

open Lib Lib.Run Lib.Ieee754

variable [Crates] {whole left right : RecordBatch}

/-! ## Ordering and steps -/

section Cells

variable {σ : Type} {step step' : σ → Option Value → ℕ → Except Fault (σ × List Finding)}

omit [Crates] in
theorem observeCells_append (cells cells' : List (Option Value)) (rowOffset : ℕ) (state : σ) :
    observeCells step (cells ++ cells') rowOffset state = (do
      let (middle, before) ← observeCells step cells rowOffset state
      let (last, after) ← observeCells step cells' (rowOffset + cells.length) middle
      .ok (last, before ++ after)) := by
  unfold observeCells
  rw [List.zipIdx_append]
  exact foldlM_pair_append (fun state (entry : Option Value × ℕ) => step state entry.1 entry.2) _ _
    state

omit [Crates] in
/-- What every step keeps is kept by all. -/
theorem observeCells_keeps {β : Type} (kept : σ → β)
    (hstep : ∀ state cell row next found, step state cell row = .ok (next, found) →
      kept next = kept state) {cells : List (Option Value)} {rowOffset : ℕ} {state last : σ}
    {found : List Finding} (h : observeCells step cells rowOffset state = .ok (last, found)) :
    kept last = kept state := by
  apply foldlM_invariant (P := fun _ (current : σ × List Finding) => kept current.1 = kept state)
    rfl _ h
  rintro _ ⟨cell, row⟩ ⟨current, done⟩ ⟨next, found⟩ _ hcurrent hnext
  obtain ⟨⟨next', more⟩, hnext', hnext⟩ := bind_eq_ok.mp hnext
  cases hnext
  exact (hstep _ _ _ _ _ hnext').trans hcurrent

end Cells

theorem orderedValue_congr {array array' : ArrowArray} (h : array'.dataType = array.dataType)
    (kernel : KernelKind) (value : Value) :
    orderedValue kernel array' value = orderedValue kernel array value := by
  unfold orderedValue datasetDowncast
  rw [h]

theorem OrderingState.observeCell_congr {array array' : ArrowArray}
    (h : array'.dataType = array.dataType) (state : OrderingState) (cell : Option Value) (row : ℕ) :
    state.observeCell array' cell row = state.observeCell array cell row := by
  unfold OrderingState.observeCell
  simp only [orderedValue_congr h]

theorem OrderingState.plan_observeCell {array : ArrowArray} (state : OrderingState)
    (cell : Option Value) (row : ℕ) (next : OrderingState) (found : List Finding)
    (h : state.observeCell array cell row = .ok (next, found)) : next.plan = state.plan := by
  cases cell with
  | none =>
      cases h
      rfl
  | some value =>
      obtain ⟨_, -, h⟩ := bind_eq_ok.mp h
      obtain ⟨_, -, h⟩ := bind_eq_ok.mp h
      cases h
      rfl

theorem GapState.observeCell_congr {array array' : ArrowArray}
    (h : array'.dataType = array.dataType) (state : GapState) (cell : Option Value) (row : ℕ) :
    state.observeCell array' cell row = state.observeCell array cell row := by
  unfold GapState.observeCell
  simp only [orderedValue_congr h]

theorem GapState.plan_observeCell {array : ArrowArray} (state : GapState)
    (cell : Option Value) (row : ℕ) (next : GapState) (found : List Finding)
    (h : state.observeCell array cell row = .ok (next, found)) : next.plan = state.plan := by
  cases cell with
  | none =>
      cases h
      rfl
  | some value =>
      obtain ⟨_, -, h⟩ := bind_eq_ok.mp h
      obtain ⟨_, -, h⟩ := bind_eq_ok.mp h
      cases h
      dsimp only
      split <;> rfl

omit [Crates] in
/-- A rule that takes its state from cell to cell, over the column its plan names. -/
theorem consecutive_observeCells {σ : Type} (index : σ → ℕ)
    (step : ArrowArray → σ → Option Value → ℕ → Except Fault (σ × List Finding))
    (hcongr : ∀ array array' : ArrowArray, array'.dataType = array.dataType →
      step array' = step array)
    (hindex : ∀ array state cell row next found, step array state cell row = .ok (next, found) →
      index next = index state) (h : whole.Splits left right) (rowOffset : ℕ) :
    Consecutive
      (fun state => do
        let array ← whole.column (index state)
        observeCells (step array) array.cells rowOffset state)
      (fun state => do
        let array ← left.column (index state)
        observeCells (step array) array.cells rowOffset state)
      (fun state => do
        let array ← right.column (index state)
        observeCells (step array) array.cells (rowOffset + left.rows) state) := by
  apply Consecutive.of_eq
  intro state
  rcases h.column (index state) with ⟨hwhole, hleft, hright⟩ |
      ⟨array, first, second, hwhole, hleft, hright, hsplits, hlength, -⟩
  · rw [hwhole, hleft]
    rfl
  rw [hwhole, hleft]
  show observeCells (step array) array.cells rowOffset state =
    (observeCells (step first) first.cells rowOffset state >>= _)
  rw [hsplits.cells_eq, observeCells_append, hcongr array first hsplits.dataType_left, hlength]
  cases hmiddle : observeCells (step array) first.cells rowOffset state with
  | error => rfl
  | ok ended =>
      obtain ⟨middle, before⟩ := ended
      have hkept := observeCells_keeps index (hindex array) hmiddle
      show (observeCells (step array) second.cells _ middle >>= _) = ((_ >>= _) >>= _)
      rw [hkept, hright]
      show _ = (observeCells (step second) second.cells _ middle >>= _)
      rw [hcongr array second hsplits.dataType_right]

theorem OrderingState.consecutive (h : whole.Splits left right) (rowOffset : ℕ) :
    Consecutive (OrderingState.observe · whole rowOffset) (OrderingState.observe · left rowOffset)
      (OrderingState.observe · right (rowOffset + left.rows)) := by
  refine consecutive_observeCells (fun state : OrderingState => state.plan.columnIndex)
    (fun array state => state.observeCell array) ?_ ?_ h rowOffset
  · intro array array' harray
    funext state cell row
    exact OrderingState.observeCell_congr harray state cell row
  · intro array state cell row next found hstep
    rw [OrderingState.plan_observeCell state cell row next found hstep]

theorem GapState.consecutive (h : whole.Splits left right) (rowOffset : ℕ) :
    Consecutive (GapState.observe · whole rowOffset) (GapState.observe · left rowOffset)
      (GapState.observe · right (rowOffset + left.rows)) := by
  refine consecutive_observeCells (fun state : GapState => state.plan.columnIndex)
    (fun array state => state.observeCell array) ?_ ?_ h rowOffset
  · intro array array' harray
    funext state cell row
    exact GapState.observeCell_congr harray state cell row
  · intro array state cell row next found hstep
    rw [GapState.plan_observeCell state cell row next found hstep]

/-! ## Distinct values -/

theorem exactScalar_congr {array array' : ArrowArray} (h : array'.dataType = array.dataType)
    (kernel : KernelKind) (value : Value) :
    exactScalar kernel array' value = exactScalar kernel array value := by
  unfold exactScalar datasetDowncast
  rw [h]

theorem distinctEvents_congr {array array' : ArrowArray} (h : array'.dataType = array.dataType)
    (kernel : KernelKind) : distinctEvents kernel array' = distinctEvents kernel array := by
  funext cell row
  unfold distinctEvents
  simp only [exactScalar_congr h]

theorem DistinctState.consecutive (h : whole.Splits left right) (rowOffset : ℕ) :
    Consecutive (DistinctState.observe whole rowOffset) (DistinctState.observe left rowOffset)
      (DistinctState.observe right (rowOffset + left.rows)) := by
  apply Consecutive.of_eq
  intro state
  unfold DistinctState.observe
  rcases h.column state.columnIndex with ⟨hwhole, hleft, hright⟩ |
      ⟨array, first, second, hwhole, hleft, hright, hsplits, hlength, -⟩
  · rw [hwhole, hleft]
    rfl
  rw [hwhole, hleft]
  show (collectRows (distinctEvents state.kernel array) array.cells rowOffset >>= _) =
    ((collectRows (distinctEvents state.kernel first) first.cells rowOffset >>= _) >>= _)
  have happend : collectRows (distinctEvents state.kernel array) (first.cells ++ second.cells)
      rowOffset = (do
        let before ← collectRows (distinctEvents state.kernel array) first.cells rowOffset
        let after ← collectRows (distinctEvents state.kernel array) second.cells
          (rowOffset + first.cells.length)
        .ok (before ++ after)) := by
    unfold collectRows
    rw [List.zipIdx_append]
    exact collect_append (fun entry : Option Value × ℕ =>
      distinctEvents state.kernel array entry.1 entry.2) _ _
  rw [distinctEvents_congr hsplits.dataType_left, hsplits.cells_eq, happend, hlength, bind_assoc,
    bind_assoc]
  congr 1
  funext before
  show _ = ((right.column state.columnIndex >>= _) >>= _)
  rw [hright]
  show ((collectRows (distinctEvents state.kernel array) second.cells _ >>= _) >>= _) =
    ((collectRows (distinctEvents state.kernel second) second.cells _ >>= _) >>= _)
  rw [distinctEvents_congr hsplits.dataType_right, bind_assoc, bind_assoc]
  congr 1
  funext after
  show Except.ok _ = Except.ok _
  rw [recordsOf_append, findingsOf_append, List.any_append, List.append_assoc, Bool.or_assoc]

/-! ## Totals -/

omit [Crates] in
theorem foldCells_append {σ : Type} (step : σ → Value → Except Fault σ)
    (cells cells' : List (Option Value)) (state : σ) :
    foldCells step (cells ++ cells') state =
      foldCells step cells state >>= fun middle => foldCells step cells' middle := by
  unfold foldCells
  rw [List.filterMap_append, List.foldlM_append]

theorem accumulate_splits {array first second : ArrowArray} (h : array.Splits first second)
    (total : Total) (kernel : KernelKind) :
    accumulate total kernel array =
      accumulate total kernel first >>= fun middle => accumulate middle kernel second := by
  unfold accumulate datasetDowncast
  rw [h.dataType_left, h.dataType_right]
  split
  · split
    · show foldCells _ array.cells total = foldCells _ first.cells total >>= fun middle =>
        foldCells _ second.cells middle
      rw [h.cells_eq, foldCells_append]
    · rfl
  · split
    · split
      · show foldCells _ array.cells total = foldCells _ first.cells total >>= fun middle =>
          foldCells _ second.cells middle
        rw [h.cells_eq, foldCells_append]
      · rfl
    · rfl

theorem observeMoments_splits {array first second : ArrowArray} (h : array.Splits first second)
    (moments : Moments) (kernel : KernelKind) :
    observeMoments moments kernel array =
      observeMoments moments kernel first >>= fun middle => observeMoments middle kernel second := by
  unfold observeMoments datasetDowncast
  rw [h.dataType_left, h.dataType_right]
  split
  · split
    · show foldCells _ array.cells moments = foldCells _ first.cells moments >>= fun middle =>
        foldCells _ second.cells middle
      rw [h.cells_eq, foldCells_append]
    · rfl
  · rfl

theorem SumState.sequential (h : whole.Splits left right) :
    Sequential (SumState.update whole) (SumState.update left) (SumState.update right) := by
  apply Sequential.of_eq
  intro state
  unfold SumState.update
  rcases h.column state.plan.columnIndex with ⟨hwhole, hleft, hright⟩ |
      ⟨array, first, second, hwhole, hleft, hright, hsplits, -, -⟩
  · rw [hwhole, hleft]
    rfl
  rw [hwhole, hleft]
  show (accumulate state.total state.plan.kernel array >>= _) =
    (accumulate state.total state.plan.kernel first >>= _) >>= _
  rw [accumulate_splits hsplits, bind_assoc, bind_assoc]
  congr 1
  funext middle
  show _ = (right.column state.plan.columnIndex >>= _)
  rw [hright]
  rfl

theorem StatisticState.sequential (h : whole.Splits left right) :
    Sequential (StatisticState.update whole) (StatisticState.update left)
      (StatisticState.update right) := by
  apply Sequential.of_eq
  intro state
  unfold StatisticState.update
  rcases h.column state.plan.columnIndex with ⟨hwhole, hleft, hright⟩ |
      ⟨array, first, second, hwhole, hleft, hright, hsplits, -, -⟩
  · rw [hwhole, hleft]
    rfl
  rw [hwhole, hleft]
  show (observeMoments state.moments state.plan.kernel array >>= _) =
    (observeMoments state.moments state.plan.kernel first >>= _) >>= _
  rw [observeMoments_splits hsplits, bind_assoc, bind_assoc]
  congr 1
  funext middle
  show _ = (right.column state.plan.columnIndex >>= _)
  rw [hright]
  rfl

/-- A total over one column of a batch. -/
theorem accumulate_column (h : whole.Splits left right) (index : ℕ) (kernel : KernelKind) :
    Sequential (fun total => whole.column index >>= accumulate total kernel)
      (fun total => left.column index >>= accumulate total kernel)
      (fun total => right.column index >>= accumulate total kernel) := by
  apply Sequential.of_eq
  intro total
  rcases h.column index with ⟨hwhole, hleft, hright⟩ |
      ⟨array, first, second, hwhole, hleft, hright, hsplits, -, -⟩
  · rw [hwhole, hleft]
    rfl
  rw [hwhole, hleft, hright]
  exact accumulate_splits hsplits total kernel

theorem BalanceState.sequential (h : whole.Splits left right) :
    Sequential (BalanceState.update whole) (BalanceState.update left)
      (BalanceState.update right) := by
  intro state last
  have hupdate : ∀ (batch : RecordBatch) (state last : BalanceState),
      state.update batch = .ok last ↔ ∃ leftTotal rightTotal,
        (batch.column state.plan.left >>= accumulate state.left state.plan.leftKernel) =
          .ok leftTotal ∧
        (batch.column state.plan.right >>= accumulate state.right state.plan.rightKernel) =
          .ok rightTotal ∧
        last = { state with left := leftTotal, right := rightTotal } := by
    intro batch state last
    unfold BalanceState.update
    simp only [bind_eq_ok]
    constructor
    · rintro ⟨array, harray, leftTotal, hleft, array', harray', rightTotal, hright, hlast⟩
      cases hlast
      exact ⟨leftTotal, rightTotal, ⟨array, harray, hleft⟩, ⟨array', harray', hright⟩, rfl⟩
    · rintro ⟨leftTotal, rightTotal, ⟨array, harray, hleft⟩, ⟨array', harray', hright⟩, rfl⟩
      exact ⟨array, harray, leftTotal, hleft, array', harray', rightTotal, hright, rfl⟩
  have hleft := accumulate_column h state.plan.left state.plan.leftKernel
  have hright := accumulate_column h state.plan.right state.plan.rightKernel
  constructor
  · intro hwhole
    obtain ⟨leftTotal, rightTotal, hleftTotal, hrightTotal, rfl⟩ :=
      (hupdate whole state last).mp hwhole
    obtain ⟨leftMiddle, hleft₁, hleft₂⟩ := (hleft _ _).mp hleftTotal
    obtain ⟨rightMiddle, hright₁, hright₂⟩ := (hright _ _).mp hrightTotal
    exact ⟨{ state with left := leftMiddle, right := rightMiddle },
      (hupdate left state _).mpr ⟨_, _, hleft₁, hright₁, rfl⟩,
      (hupdate right _ _).mpr ⟨_, _, hleft₂, hright₂, rfl⟩⟩
  · rintro ⟨middle, hmiddle, hlast⟩
    obtain ⟨leftMiddle, rightMiddle, hleft₁, hright₁, rfl⟩ := (hupdate left state middle).mp hmiddle
    obtain ⟨leftTotal, rightTotal, hleft₂, hright₂, rfl⟩ := (hupdate right _ last).mp hlast
    exact (hupdate whole state _).mpr ⟨leftTotal, rightTotal,
      (hleft _ _).mpr ⟨leftMiddle, hleft₁, hleft₂⟩, (hright _ _).mpr ⟨rightMiddle, hright₁, hright₂⟩,
      rfl⟩

theorem DominantState.sequential (h : whole.Splits left right) :
    Sequential (DominantState.update whole) (DominantState.update left)
      (DominantState.update right) := by
  apply Sequential.of_eq
  intro state
  unfold DominantState.update
  rcases h.column state.plan.columnIndex with ⟨hwhole, hleft, hright⟩ |
      ⟨array, first, second, hwhole, hleft, hright, hsplits, -, -⟩
  · rw [hwhole, hleft]
    rfl
  have hkey : ∀ {array' : ArrowArray}, array'.dataType = array.dataType →
      DominantState.key array' = DominantState.key array := by
    intro array' harray
    funext cell
    cases cell with
    | none => rfl
    | some value =>
        unfold DominantState.key
        rw [harray]
  rw [hwhole, hleft]
  show (array.cells.foldlM _ state.counts : Except Fault Frequencies) >>= _ =
    ((first.cells.foldlM _ state.counts : Except Fault Frequencies) >>= _) >>= _
  rw [hsplits.cells_eq, List.foldlM_append, bind_assoc, bind_assoc, hkey hsplits.dataType_left]
  congr 1
  funext middle
  show _ = (right.column state.plan.columnIndex >>= _)
  rw [hright]
  show _ = (second.cells.foldlM (fun (counts : Frequencies) cell =>
    DominantState.key second cell >>= fun key => counts.add key) middle >>= _)
  rw [hkey hsplits.dataType_right]

omit [Crates] in
theorem countNulls_sequential (h : whole.Splits left right) (ratios : List RatioPlan) :
    Sequential (countNulls whole ratios) (countNulls left ratios) (countNulls right ratios) := by
  have hcount : ∀ (batch : RecordBatch) (ratio : RatioPlan) (rest : List RatioPlan)
      (count : ℕ) (counts last : List ℕ),
      countNulls batch (ratio :: rest) (count :: counts) = .ok last ↔ ∃ array more,
        batch.column ratio.columnIndex = .ok array ∧ countNulls batch rest counts = .ok more ∧
        last = (count + array.nullCount) :: more := by
    intro batch ratio rest count counts last
    unfold countNulls
    rw [List.zip_cons_cons, mapM_cons_eq_ok]
    constructor
    · rintro ⟨head, more, hhead, hmore, rfl⟩
      obtain ⟨array, harray, hhead⟩ := bind_eq_ok.mp hhead
      cases hhead
      exact ⟨array, more, harray, hmore, rfl⟩
    · rintro ⟨array, more, harray, hmore, rfl⟩
      exact ⟨_, more, bind_eq_ok.mpr ⟨array, harray, rfl⟩, hmore, rfl⟩
  -- the rules and their counts go together, so the induction is on the rules
  intro counts last
  induction ratios generalizing counts last with
  | nil =>
      constructor
      · intro hwhole
        cases hwhole
        exact ⟨[], rfl, rfl⟩
      · rintro ⟨_, hmiddle, hlast⟩
        cases hmiddle
        exact hlast
  | cons ratio ratios ih =>
      cases counts with
      | nil =>
          constructor
          · intro hwhole
            cases hwhole
            exact ⟨[], rfl, rfl⟩
          · rintro ⟨_, hmiddle, hlast⟩
            cases hmiddle
            exact hlast
      | cons count counts =>
          rw [hcount]
          rcases h.column ratio.columnIndex with ⟨hwhole, hleft, hright⟩ |
              ⟨array, first, second, hwhole, hleft, hright, hsplits, -, -⟩
          · constructor
            · rintro ⟨array, _, harray, -⟩
              rw [hwhole] at harray
              cases harray
            · rintro ⟨middle, hmiddle, -⟩
              obtain ⟨array, _, harray, -⟩ := (hcount ..).mp hmiddle
              rw [hleft] at harray
              cases harray
          · constructor
            · rintro ⟨array', more, harray, hmore, rfl⟩
              rw [hwhole] at harray
              cases harray
              obtain ⟨middle, hmiddle, hlast⟩ := (ih counts more).mp hmore
              refine ⟨(count + first.nullCount) :: middle,
                (hcount ..).mpr ⟨first, middle, hleft, hmiddle, rfl⟩,
                (hcount ..).mpr ⟨second, more, hright, hlast, ?_⟩⟩
              rw [hsplits.nullCount_eq, Nat.add_assoc]
            · rintro ⟨middle, hmiddle, hlast⟩
              obtain ⟨_, middles, hfirst, hmiddles, rfl⟩ := (hcount ..).mp hmiddle
              obtain ⟨_, more, hsecond, hmore, rfl⟩ := (hcount ..).mp hlast
              rw [hleft] at hfirst
              rw [hright] at hsecond
              cases hfirst
              cases hsecond
              refine ⟨array, more, hwhole, (ih counts more).mpr ⟨middles, hmiddles, hmore⟩, ?_⟩
              rw [hsplits.nullCount_eq, Nat.add_assoc]

/-! ## Mutual exclusion -/

/-- The bitmaps of a batch in two parts. -/
def JoinedBitmaps (leftRows : ℕ) (whole left right : List Bool × List Bool) : Prop :=
  whole.1 = left.1 ++ right.1 ∧ whole.2 = left.2 ++ right.2 ∧
    left.1.length = leftRows ∧ left.2.length = leftRows

/-- One column more in the bitmaps. -/
def markColumn (batch : RecordBatch) (marks : List Bool × List Bool) (index : ℕ) :
    Except Fault (List Bool × List Bool) := do
  let column ← batch.column index
  .ok (List.zipWith or marks.1 (presentRows column),
    List.zipWith or marks.2 (List.zipWith and marks.1 (presentRows column)))

/-- The rows that break a rule of the mode. -/
def ExclusiveModeAst.broken (mode : ExclusiveModeAst) (marks : List Bool × List Bool) : List Bool :=
  match mode with
  | .atMostOne => marks.2
  | .exactlyOne => List.zipWith or marks.2 (marks.1.map not)

omit [Crates] in
theorem exclusiveViolations_eq_bind (plan : MutuallyExclusivePlan) (batch : RecordBatch) :
    exclusiveViolations plan batch = (do
      let marks ← plan.columns.foldlM (markColumn batch)
        (List.replicate batch.rows false, List.replicate batch.rows false)
      .ok (plan.mode.broken marks)) := rfl

omit [Crates] in
theorem joinedBitmaps_foldlM (h : whole.Splits left right) (columns : List ℕ) :
    ∀ {wholeMarks leftMarks rightMarks : List Bool × List Bool},
      JoinedBitmaps left.rows wholeMarks leftMarks rightMarks →
      (∃ e, columns.foldlM (markColumn whole) wholeMarks = .error e ∧
        columns.foldlM (markColumn left) leftMarks = .error e ∧
        columns.foldlM (markColumn right) rightMarks = .error e) ∨
      ∃ marks before after, columns.foldlM (markColumn whole) wholeMarks = .ok marks ∧
        columns.foldlM (markColumn left) leftMarks = .ok before ∧
        columns.foldlM (markColumn right) rightMarks = .ok after ∧
        JoinedBitmaps left.rows marks before after := by
  induction columns with
  | nil =>
      intro wholeMarks leftMarks rightMarks hjoined
      exact .inr ⟨_, _, _, rfl, rfl, rfl, hjoined⟩
  | cons index columns ih =>
      rintro ⟨once, twice⟩ ⟨onceLeft, twiceLeft⟩ ⟨onceRight, twiceRight⟩ ⟨honce, htwice, hl₁, hl₂⟩
      dsimp only at honce htwice hl₁ hl₂
      rw [List.foldlM_cons, List.foldlM_cons, List.foldlM_cons]
      unfold markColumn
      rcases h.column index with ⟨hwhole, hleft, hright⟩ |
          ⟨array, first, second, hwhole, hleft, hright, hsplits, hlength, -⟩
      · rw [hwhole, hleft, hright]
        exact .inl ⟨_, rfl, rfl, rfl⟩
      · rw [hwhole, hleft, hright]
        apply ih
        have hpresent : presentRows array = presentRows first ++ presentRows second := by
          rw [presentRows, hsplits.cells_eq, List.map_append]
          rfl
        have hfirst : (presentRows first).length = left.rows := by
          rw [presentRows, List.length_map, hlength]
        have hand : (List.zipWith and onceLeft (presentRows first)).length = left.rows := by
          rw [List.length_zipWith, hl₁, hfirst, Nat.min_self]
        refine ⟨?_, ?_, ?_, ?_⟩
        · dsimp only
          rw [honce, hpresent, List.zipWith_append (hl₁.trans hfirst.symm)]
        · dsimp only
          rw [honce, htwice, hpresent, List.zipWith_append (hl₁.trans hfirst.symm),
            List.zipWith_append (hl₂.trans hand.symm)]
        · rw [List.length_zipWith, hl₁, hfirst, Nat.min_self]
        · rw [List.length_zipWith, hl₂, hand, Nat.min_self]

omit [Crates] in
theorem exclusiveViolations_splits (h : whole.Splits left right) (plan : MutuallyExclusivePlan) :
    (∃ e, exclusiveViolations plan whole = .error e ∧ exclusiveViolations plan left = .error e ∧
      exclusiveViolations plan right = .error e) ∨
    ∃ before after, exclusiveViolations plan whole = .ok (before ++ after) ∧
      exclusiveViolations plan left = .ok before ∧ exclusiveViolations plan right = .ok after ∧
      before.length = left.rows := by
  rw [exclusiveViolations_eq_bind, exclusiveViolations_eq_bind, exclusiveViolations_eq_bind]
  have hunset : JoinedBitmaps left.rows
      (List.replicate whole.rows false, List.replicate whole.rows false)
      (List.replicate left.rows false, List.replicate left.rows false)
      (List.replicate right.rows false, List.replicate right.rows false) := by
    unfold JoinedBitmaps
    rw [h.rows_eq, List.replicate_add, List.length_replicate]
    exact ⟨rfl, rfl, rfl, rfl⟩
  rcases joinedBitmaps_foldlM h plan.columns hunset with ⟨e, hwhole, hleft, hright⟩ |
      ⟨marks, before, after, hwhole, hleft, hright, honce, htwice, hl₁, hl₂⟩
  · rw [hwhole, hleft, hright]
    exact .inl ⟨e, rfl, rfl, rfl⟩
  · rw [hwhole, hleft, hright]
    cases hmode : plan.mode with
    | atMostOne => exact .inr ⟨before.2, after.2, congrArg Except.ok htwice, rfl, rfl, hl₂⟩
    | exactlyOne =>
        refine .inr ⟨List.zipWith or before.2 (before.1.map not),
          List.zipWith or after.2 (after.1.map not), ?_, rfl, rfl, ?_⟩
        · show Except.ok (List.zipWith or marks.2 (marks.1.map not)) = _
          rw [htwice, honce, List.map_append, List.zipWith_append]
          rw [hl₂, List.length_map, hl₁]
        · rw [List.length_zipWith, List.length_map, hl₁, hl₂, Nat.min_self]

omit [Crates] in
theorem filledColumns_left (h : whole.Splits left right) (plan : MutuallyExclusivePlan) {row : ℕ}
    (hrow : row < left.rows) : filledColumns plan whole row = filledColumns plan left row := by
  unfold filledColumns
  congr 1
  apply mapM_congr
  rintro ⟨index, name⟩ -
  rcases h.column index with ⟨hwhole, hleft, -⟩ |
      ⟨array, first, _, hwhole, hleft, -, hsplits, hlength, -⟩
  · dsimp only
    rw [hwhole, hleft]
  · dsimp only
    rw [hwhole, hleft]
    show (array.cell row >>= _) = (first.cell row >>= _)
    rw [hsplits.cell_left (hrow.trans_eq hlength.symm)]

omit [Crates] in
theorem filledColumns_right (h : whole.Splits left right) (plan : MutuallyExclusivePlan)
    (row : ℕ) : filledColumns plan whole (left.rows + row) = filledColumns plan right row := by
  unfold filledColumns
  congr 1
  apply mapM_congr
  rintro ⟨index, name⟩ -
  rcases h.column index with ⟨hwhole, -, hright⟩ |
      ⟨array, first, second, hwhole, -, hright, hsplits, hlength, -⟩
  · dsimp only
    rw [hwhole, hright]
    rfl
  · dsimp only
    rw [hwhole, hright]
    show (array.cell (left.rows + row) >>= _) = (second.cell row >>= _)
    rw [← hlength, hsplits.cell_right]

omit [Crates] in
/-- The marked positions of two bitmaps, one after the other. -/
theorem markedRows_append (before after : List Bool) :
    (((before ++ after).zipIdx.filter Prod.fst).map Prod.snd : List ℕ) =
      (before.zipIdx.filter Prod.fst).map Prod.snd ++
        ((after.zipIdx.filter Prod.fst).map Prod.snd).map (before.length + ·) := by
  rw [List.zipIdx_append, List.filter_append, List.map_append, Nat.zero_add,
    List.zipIdx_eq_map_add (i := before.length), List.filter_map, List.map_map, List.map_map]
  rfl

omit [Crates] in
theorem exclusiveFindings_concatenates (h : whole.Splits left right)
    (plan : MutuallyExclusivePlan) (rowOffset : ℕ) :
    Concatenates (exclusiveFindings plan whole rowOffset) (exclusiveFindings plan left rowOffset)
      (exclusiveFindings plan right (rowOffset + left.rows)) := by
  unfold exclusiveFindings
  rcases exclusiveViolations_splits h plan with ⟨e, hwhole, hleft, hright⟩ |
      ⟨before, after, hwhole, hleft, hright, hlength⟩
  · rw [hwhole, hleft, hright]
    exact concatenates_error e
  rw [hwhole, hleft, hright]
  intro list
  have hbefore : ((before.zipIdx.filter Prod.fst).map Prod.snd).mapM (fun row => do
        let filled ← filledColumns plan whole row
        Except.ok (⟨"mutually_exclusive", "$dataset", some (rowOffset + row),
          exclusiveMessage plan filled⟩ : Finding)) =
      ((before.zipIdx.filter Prod.fst).map Prod.snd).mapM (fun row => do
        let filled ← filledColumns plan left row
        Except.ok ⟨"mutually_exclusive", "$dataset", some (rowOffset + row),
          exclusiveMessage plan filled⟩) := by
    apply mapM_congr
    intro row hrow
    obtain ⟨⟨mark, position⟩, hmark, rfl⟩ := List.mem_map.mp hrow
    have hposition := (List.mem_zipIdx (List.mem_filter.mp hmark).1).2.1
    rw [filledColumns_left h plan (by dsimp only; omega)]
  have hafter : (((after.zipIdx.filter Prod.fst).map Prod.snd).map (before.length + ·)).mapM
        (fun row => do
          let filled ← filledColumns plan whole row
          Except.ok (⟨"mutually_exclusive", "$dataset", some (rowOffset + row),
            exclusiveMessage plan filled⟩ : Finding)) =
      ((after.zipIdx.filter Prod.fst).map Prod.snd).mapM (fun row => do
        let filled ← filledColumns plan right row
        Except.ok ⟨"mutually_exclusive", "$dataset", some (rowOffset + left.rows + row),
          exclusiveMessage plan filled⟩) := by
    rw [List.mapM_map]
    apply mapM_congr
    intro row _
    rw [Function.comp_apply, hlength, filledColumns_right h, Nat.add_assoc]
  show List.mapM _ (((before ++ after).zipIdx.filter Prod.fst).map Prod.snd) = Except.ok list ↔ _
  rw [markedRows_append, mapM_append_eq_ok, hbefore, hafter]
  exact Iff.rfl

omit [Crates] in
theorem exclusive_combines (h : whole.Splits left right) (plans : List MutuallyExclusivePlan)
    (rowOffset : ℕ) :
    Combines (List.flatten <$> plans.mapM (exclusiveFindings · whole rowOffset))
      (List.flatten <$> plans.mapM (exclusiveFindings · left rowOffset))
      (List.flatten <$> plans.mapM (exclusiveFindings · right (rowOffset + left.rows))) := by
  rw [← collect_eq_mapM_flatten, ← collect_eq_mapM_flatten, ← collect_eq_mapM_flatten]
  exact Combines.collect
    (fun plan => (exclusiveFindings_concatenates h plan rowOffset).combines) plans

end ProofFrame
