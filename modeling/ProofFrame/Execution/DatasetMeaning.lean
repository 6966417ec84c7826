import ProofFrame.Execution.DatasetState

/-!
# The meaning of the dataset rules

What the dataset rules find, with the lists of the values seen in place of the
exact states: a pure function of the batches.  The engine refines it.  Its exact
states hold the same records, and the violations it counts are the ones found
here, of which it keeps the first.
-/

namespace ProofFrame

open Lib Lib.Run Lib.Sorted Distinct

/-- How many distinct values the records hold. -/
def distinctCount (records : List Record) : ℕ := (records.map Record.value).toFinset.card

/-- The rows that repeat a value, in ascending order of the value and then of the row. -/
def duplicateRows (records : List Record) : List ℕ :=
  (duplicates Record.value records).map fun pair => pair.2.row.toNat

/-! ## Batches -/

/-- Each state in turn observes the batch. -/
def observeEach {σ : Type} (observe : σ → Except Fault (σ × List Finding)) :
    List σ → Except Fault (List σ × List Finding)
  | [] => .ok ([], [])
  | state :: states => do
      let (state, found) ← observe state
      let (states, rest) ← observeEach observe states
      .ok (state :: states, found ++ rest)

section Observe

variable [Crates]

def DistinctState.observe (batch : RecordBatch) (rowOffset : ℕ)
    (state : DistinctState (List Record)) :
    Except Fault (DistinctState (List Record) × List Finding) := do
  let array ← batch.column state.columnIndex
  let events ← collectRows (distinctEvents state.kernel array) array.cells rowOffset
  .ok ({ state with
    exact := state.exact ++ recordsOf events
    sawNull := state.sawNull || array.cells.any Option.isNone }, findingsOf events)

def ConditionalState.observe (batch : RecordBatch) (rowOffset : ℕ)
    (state : ConditionalState (List Record)) :
    Except Fault (ConditionalState (List Record) × List Finding) := do
  let outcomes ← scanPredicate state.plan.predicate batch
  let events ← collectRows (conditionalUniqueEvents state.plan batch) outcomes.zipIdx rowOffset
  .ok ({ state with exact := state.exact ++ recordsOf events }, findingsOf events)

def CompositeState.observe (batch : RecordBatch) (rowOffset : ℕ)
    (state : CompositeState (List Record)) :
    Except Fault (CompositeState (List Record) × List Finding) := do
  let events ← collectRows (compositeEvents state.plan batch) (List.range batch.rows) rowOffset
  .ok ({ state with exact := state.exact ++ recordsOf events }, findingsOf events)

def DatasetState.observe (state : DatasetState (List Record)) (batch : RecordBatch)
    (rowOffset : ℕ) : Except Fault (DatasetState (List Record) × List Finding) := do
  let nullCounts ← countNulls batch state.nullRatios state.nullCounts
  let (distinct, distinctFound) ← observeEach (DistinctState.observe batch rowOffset) state.distinct
  let (ordering, orderingFound) ←
    observeEach (OrderingState.observe · batch rowOffset) state.ordering
  let (gaps, gapsFound) ← observeEach (GapState.observe · batch rowOffset) state.gaps
  let sums ← state.sums.mapM (SumState.update batch)
  let statistics ← state.statistics.mapM (StatisticState.update batch)
  let balances ← state.balances.mapM (BalanceState.update batch)
  let dominants ← state.dominants.mapM (DominantState.update batch)
  let (conditional, conditionalFound) ←
    observeEach (ConditionalState.observe batch rowOffset) state.conditional
  let broken ← state.exclusive.mapM (exclusiveFindings · batch rowOffset)
  let (composites, compositesFound) ←
    observeEach (CompositeState.observe batch rowOffset) state.composites
  .ok ({ state with
    nullCounts, distinct, ordering, gaps, sums, statistics, balances, dominants, conditional
    composites },
    distinctFound ++ (orderingFound ++ (gapsFound ++ (conditionalFound ++
      (broken.flatten ++ compositesFound)))))

end Observe

/-! ## The end of the dataset -/

def DistinctState.found (rows : ℕ) (state : DistinctState (List Record)) : List Finding :=
  state.findings rows (distinctCount state.exact)

def CompositeState.found (state : CompositeState (List Record)) : List Finding :=
  (duplicateRows state.exact).map state.plan.duplicate

def ConditionalState.found (state : ConditionalState (List Record)) : List Finding :=
  (duplicateRows state.exact).map state.plan.duplicate

/-- The violations the dataset rules find at the end. -/
def DatasetState.found (state : DatasetState (List Record)) (rows : ℕ) : List Finding :=
  state.scalarFindings rows ++ (state.distinct.flatMap (DistinctState.found rows) ++
    (state.composites.flatMap CompositeState.found ++
      state.conditional.flatMap ConditionalState.found))

def DistinctState.fresh (rule : ℕ × DistinctSpec) : DistinctState (List Record) :=
  { columnIndex := rule.1, column := rule.2.column, kernel := rule.2.kernel
    countRange := rule.2.countRange, ratioRange := rule.2.ratioRange, exact := []
    sawNull := false }

def CompositeState.fresh (plan : CompositeUniquePlan) : CompositeState (List Record) :=
  { plan, exact := [] }

def ConditionalState.fresh (plan : ConditionalUniquePlan) : ConditionalState (List Record) :=
  { plan, exact := [] }

/-- The state of a plan before the first batch. -/
def DatasetState.fresh (plan : DatasetPlan) (maxMemoryBytes : ℕ) : DatasetState (List Record) :=
  .initial plan maxMemoryBytes ((distinctSpecs plan).map DistinctState.fresh)
    (plan.compositeUnique.map CompositeState.fresh)
    (plan.conditionalUnique.map ConditionalState.fresh)

/-! ## The states of the engine and their meaning -/

def DistinctState.withExact {X Y : Type} (state : DistinctState X) (exact : Y) : DistinctState Y :=
  { columnIndex := state.columnIndex, column := state.column, kernel := state.kernel
    countRange := state.countRange, ratioRange := state.ratioRange, exact
    sawNull := state.sawNull }

variable [Crates]

/-- The engine's state is the model's, with an exact state that holds the records. -/
def DistinctState.Models (Holds : ValueKind → List Record → ExactState → Prop)
    (model : DistinctState (List Record)) (state : DistinctState ExactState) : Prop :=
  ∃ exact, state = model.withExact exact ∧ Holds (exactKind model.kernel) model.exact exact

def CompositeState.Models (Holds : ValueKind → List Record → ExactState → Prop)
    (model : CompositeState (List Record)) (state : CompositeState ExactState) : Prop :=
  ∃ exact, state = { plan := model.plan, exact } ∧ Holds .bytes model.exact exact

def ConditionalState.Models (Holds : ValueKind → List Record → ExactState → Prop)
    (model : ConditionalState (List Record)) (state : ConditionalState ExactState) : Prop :=
  ∃ exact, state = { plan := model.plan, exact } ∧ Holds .bytes model.exact exact

/-- The same state with other holders of values. -/
def DatasetState.withExact {X Y : Type} (state : DatasetState X) (distinct : List (DistinctState Y))
    (composites : List (CompositeState Y)) (conditional : List (ConditionalState Y)) :
    DatasetState Y :=
  { rowCount := state.rowCount, nullRatios := state.nullRatios, nullCounts := state.nullCounts
    distinct, composites, conditional, ordering := state.ordering, gaps := state.gaps
    exclusive := state.exclusive, sums := state.sums, statistics := state.statistics
    balances := state.balances, dominants := state.dominants }

def DatasetState.Models (Holds : ValueKind → List Record → ExactState → Prop)
    (model : DatasetState (List Record)) (state : DatasetState ExactState) : Prop :=
  ∃ distinct composites conditional, state = model.withExact distinct composites conditional ∧
    List.Forall₂ (DistinctState.Models Holds) model.distinct distinct ∧
    List.Forall₂ (CompositeState.Models Holds) model.composites composites ∧
    List.Forall₂ (ConditionalState.Models Holds) model.conditional conditional

/-- What an update leaves: a state of the given meaning, and the violations recorded. -/
def Observed {σ τ : Type} (R : τ → σ → Prop) (limit : ℕ) (evaluated : List ℕ)
    (findings : List Finding) (observed : τ × List Finding) (updated : σ × ValidationState) : Prop :=
  R observed.1 updated.1 ∧ updated.2.Tracks limit evaluated (findings ++ observed.2)

section Refinement

variable {ω : Type} [Host ω] (keep : Keeping ω) {Env : Fault → Prop} {limit : ℕ}
  {evaluated : List ℕ} {findings : List Finding} {validation : ValidationState}

omit [Host ω] [Crates] in
theorem refines_updateEach {σ τ : Type} {R : τ → σ → Prop}
    {update : σ → ValidationState → Run ω Fault (σ × ValidationState)}
    {observe : τ → Except Fault (τ × List Finding)}
    (hstep : ∀ model state findings validation, R model state →
      validation.Tracks limit evaluated findings →
      Refines Env (update state validation) (observe model)
        (Observed R limit evaluated findings))
    {models : List τ} {states : List σ} (hstates : List.Forall₂ R models states) :
    ∀ {findings validation}, validation.Tracks limit evaluated findings →
      Refines Env (updateEach update states validation) (observeEach observe models)
        (Observed (List.Forall₂ R) limit evaluated findings) := by
  induction hstates with
  | nil =>
      intro findings validation h
      apply refines_pure
      refine ⟨.nil, ?_⟩
      rw [List.append_nil]
      exact h
  | cons hhead _ ih =>
      intro findings validation h
      apply (hstep _ _ _ _ hhead h).bind
      rintro ⟨model, found⟩ ⟨state, validation⟩ _ ⟨hstate, hvalidation⟩
      apply (ih hvalidation).bind
      rintro ⟨models, rest⟩ ⟨states, validation⟩ _ ⟨hstates, hvalidation⟩
      apply refines_pure
      refine ⟨.cons hstate hstates, ?_⟩
      rw [← List.append_assoc]
      exact hvalidation

omit [Crates] in
/-- A rule computed from the batch alone is its own meaning. -/
theorem refines_recordObserved {σ : Type} {observe : σ → Except Fault (σ × List Finding)}
    {model state : σ} (hstate : model = state)
    (h : validation.Tracks limit evaluated findings) :
    Refines Env (recordObserved observe state validation : Run ω Fault _) (observe model)
      (Observed Eq limit evaluated findings) := by
  subst hstate
  suffices hbind : Refines Env (recordObserved observe model validation : Run ω Fault _)
      (observe model >>= pure) (Observed Eq limit evaluated findings) by
    rwa [bind_pure] at hbind
  apply (refines_lift (S := Eq) fun _ _ => rfl).bind
  rintro ⟨next, found⟩ _ _ rfl
  apply Refines.of_sat
  apply h.sat_recordAll.bind
  intro validation hvalidation
  exact sat_pure ⟨rfl, hvalidation⟩

/-! ## The kinds of value the rules collect -/

omit [Crates] [Host ω] in
theorem kind_exactValue {kernel : KernelKind} {dataType : DataType} {value : Scalar}
    (hreads : kernel.reads dataType = true) (hadmits : dataType.AdmitsScalar value) :
    value.exactValue.kind = exactKind kernel := by
  cases value <;> cases dataType <;> try exact hadmits.elim
  all_goals cases kernel <;> first | rfl | cases hreads

omit [Host ω] in
/-- A non-null cell of an array gives a value of the kind of the kernel that reads it. -/
theorem kind_of_exactScalar {kernel : KernelKind} {array : ArrowArray} {value : Value}
    {exact : OwnedValue} (hcell : some value ∈ array.cells)
    (h : exactScalar kernel array value = .ok exact) : exact.kind = exactKind kernel := by
  have hscalar : ∃ scalar, value = .scalar scalar ∧ exact = scalar.exactValue ∧
      kernel.reads array.dataType = true := by
    unfold exactScalar at h
    split at h
    · cases h
    · cases h
    · obtain ⟨_, hdowncast, h⟩ := bind_eq_ok.mp h
      unfold datasetDowncast at hdowncast
      split at hdowncast
      · split at h
        · exact ⟨_, rfl, (Except.ok.inj h).symm, ‹_›⟩
        · cases h
      · cases hdowncast
  obtain ⟨scalar, rfl, rfl, hreads⟩ := hscalar
  have hadmits := array.typed _ hcell
  unfold ArrowArray.dataType at hreads
  cases hfield : array.field with
  | mk name dataType nullable metadata =>
      rw [hfield] at hreads hadmits
      have hscalar : dataType.AdmitsScalar scalar := by
        simpa [Field.AdmitsCell, DataType.Admits] using hadmits
      exact kind_exactValue hreads hscalar

omit [Host ω] in
theorem eventsOf_distinctEvents {kernel : KernelKind} {array : ArrowArray} :
    EventsOf (exactKind kernel) (distinctEvents kernel array) array.cells := by
  intro cell hcell row performed hperformed
  cases cell with
  | none =>
      cases hperformed
      rintro _ ⟨⟩
  | some value =>
      obtain ⟨exact, hexact, hperformed⟩ := bind_eq_ok.mp hperformed
      cases hperformed
      exact of_insert (kind_of_exactScalar hcell hexact)

omit [Host ω] in
theorem of_keyEvents {columns : List ℕ} {nulls : CompositeNullPolicyAst} {finding : ℕ → Finding}
    {batch : RecordBatch} {position row : ℕ} {performed : List Event}
    (h : keyEvents columns nulls finding batch position row = .ok performed) :
    ∀ event ∈ performed, event.Of .bytes := by
  obtain ⟨⟨key, sawNull⟩, -, h⟩ := bind_eq_ok.mp h
  cases h
  split
  · intro event hevent
    obtain rfl := List.mem_singleton.mp hevent
    trivial
  · exact of_insert rfl

omit [Host ω] in
theorem eventsOf_keyEvents {columns : List ℕ} {nulls : CompositeNullPolicyAst}
    {finding : ℕ → Finding} {batch : RecordBatch} {positions : List ℕ} :
    EventsOf .bytes (keyEvents columns nulls finding batch) positions :=
  fun _ _ _ _ h => of_keyEvents h

omit [Host ω] in
theorem eventsOf_conditionalUniqueEvents {plan : ConditionalUniquePlan} {batch : RecordBatch}
    {outcomes : List (Option Bool × ℕ)} :
    EventsOf .bytes (conditionalUniqueEvents plan batch) outcomes := by
  intro outcome _ row performed h
  unfold conditionalUniqueEvents at h
  split at h
  · exact of_keyEvents h
  · cases h
    rintro _ ⟨⟩

/-! ## Update -/

theorem DistinctState.refines_update {batch : RecordBatch} {rowOffset : ℕ}
    {model : DistinctState (List Record)} {state : DistinctState ExactState}
    (hstate : Models keep.Holds model state) (h : validation.Tracks limit evaluated findings) :
    Refines keep.Env (state.update batch rowOffset validation : Run ω Fault _)
      (model.observe batch rowOffset) (Observed (Models keep.Holds) limit evaluated findings) := by
  obtain ⟨exact, rfl, hexact⟩ := hstate
  apply (refines_lift (S := Eq) fun _ _ => rfl).bind
  rintro array _ _ rfl
  apply (refines_scanExact keep hexact eventsOf_distinctEvents h).bind
  rintro events ⟨exact', validation'⟩ _ ⟨hexact', hvalidation'⟩
  apply refines_pure
  exact ⟨⟨exact', rfl, hexact'⟩, hvalidation'⟩

theorem ConditionalState.refines_update {batch : RecordBatch} {rowOffset : ℕ}
    {model : ConditionalState (List Record)} {state : ConditionalState ExactState}
    (hstate : Models keep.Holds model state) (h : validation.Tracks limit evaluated findings) :
    Refines keep.Env (state.update batch rowOffset validation : Run ω Fault _)
      (model.observe batch rowOffset) (Observed (Models keep.Holds) limit evaluated findings) := by
  obtain ⟨exact, rfl, hexact⟩ := hstate
  apply (refines_lift (S := Eq) fun _ _ => rfl).bind
  rintro outcomes _ _ rfl
  apply (refines_scanExact keep hexact eventsOf_conditionalUniqueEvents h).bind
  rintro events ⟨exact', validation'⟩ _ ⟨hexact', hvalidation'⟩
  apply refines_pure
  exact ⟨⟨exact', rfl, hexact'⟩, hvalidation'⟩

theorem CompositeState.refines_update {batch : RecordBatch} {rowOffset : ℕ}
    {model : CompositeState (List Record)} {state : CompositeState ExactState}
    (hstate : Models keep.Holds model state) (h : validation.Tracks limit evaluated findings) :
    Refines keep.Env (state.update batch rowOffset validation : Run ω Fault _)
      (model.observe batch rowOffset) (Observed (Models keep.Holds) limit evaluated findings) := by
  obtain ⟨exact, rfl, hexact⟩ := hstate
  apply (refines_scanExact keep hexact eventsOf_keyEvents h).bind
  rintro events ⟨exact', validation'⟩ _ ⟨hexact', hvalidation'⟩
  apply refines_pure
  exact ⟨⟨exact', rfl, hexact'⟩, hvalidation'⟩

theorem DatasetState.refines_update {batch : RecordBatch} {rowOffset : ℕ}
    {model : DatasetState (List Record)} {state : DatasetState ExactState}
    (hstate : Models keep.Holds model state) (h : validation.Tracks limit evaluated findings) :
    Refines keep.Env (state.update batch rowOffset validation : Run ω Fault _)
      (model.observe batch rowOffset) (Observed (Models keep.Holds) limit evaluated findings) := by
  obtain ⟨distinct, composites, conditional, rfl, hdistinct, hcomposites, hconditional⟩ := hstate
  apply (refines_lift (S := Eq) fun _ _ => rfl).bind
  rintro nullCounts _ _ rfl
  apply (refines_updateEach (fun _ _ _ _ hs hv => DistinctState.refines_update keep hs hv)
    hdistinct h).bind
  rintro ⟨distinctModels, distinctFound⟩ ⟨distinct, validation⟩ _ ⟨hdistinct, h⟩
  apply (refines_updateEach (fun _ _ _ _ hs hv => refines_recordObserved hs hv)
    (List.forall₂_refl _) h).bind
  rintro ⟨ordering, orderingFound⟩ ⟨ordering', validation⟩ _ ⟨hordering, h⟩
  rw [List.forall₂_eq_eq_eq] at hordering
  subst hordering
  apply (refines_updateEach (fun _ _ _ _ hs hv => refines_recordObserved hs hv)
    (List.forall₂_refl _) h).bind
  rintro ⟨gaps, gapsFound⟩ ⟨gaps', validation⟩ _ ⟨hgaps, h⟩
  rw [List.forall₂_eq_eq_eq] at hgaps
  subst hgaps
  apply (refines_lift (S := Eq) fun _ _ => rfl).bind
  rintro sums _ _ rfl
  apply (refines_lift (S := Eq) fun _ _ => rfl).bind
  rintro statistics _ _ rfl
  apply (refines_lift (S := Eq) fun _ _ => rfl).bind
  rintro balances _ _ rfl
  apply (refines_lift (S := Eq) fun _ _ => rfl).bind
  rintro dominants _ _ rfl
  apply (refines_updateEach (fun _ _ _ _ hs hv => ConditionalState.refines_update keep hs hv)
    hconditional h).bind
  rintro ⟨conditionalModels, conditionalFound⟩ ⟨conditional, validation⟩ _ ⟨hconditional, h⟩
  apply (refines_lift (S := Eq) fun _ _ => rfl).bind
  rintro broken _ _ rfl
  apply Refines.after h.sat_recordAll
  intro validation h
  apply (refines_updateEach (fun _ _ _ _ hs hv => CompositeState.refines_update keep hs hv)
    hcomposites h).bind
  rintro ⟨compositeModels, compositesFound⟩ ⟨composites, validation⟩ _ ⟨hcomposites, h⟩
  apply refines_pure
  refine ⟨⟨distinct, composites, conditional, rfl, hdistinct, hcomposites, hconditional⟩, ?_⟩
  simpa only [List.append_assoc] using h

/-! ## Creation and finish -/

theorem sat_newExact (kind : ValueKind) (account : ResourceAccount) (directory : Option String)
    (rowCountHint : Option ℕ) :
    Sat (newExact kind account directory rowCountHint : Run ω Fault _)
      (ExactHolds account.limits []) ExactFault := by
  apply (ExactState.sat_new kind _ directory rowCountHint).post
  rintro exact ⟨hholds, haccount⟩
  exact ⟨hholds, by rw [haccount]; rfl⟩

omit [Crates] in
theorem sat_createDirectoryIf (condition : Bool) :
    Sat (createDirectoryIf condition : Run ω Fault _) (fun _ => True) ExactFault := by
  apply (sat_whenever (fun _ => sat_io_exact _) fun _ => trivial).bind
  intro _ _
  exact sat_pure trivial

omit [Host ω] [Crates] in
/-- The states of the rules of a list, one for each rule. -/
theorem sat_mapM_models {α σ τ : Type} {create : α → Run ω Fault σ} (model : α → τ)
    {R : τ → σ → Prop} {rules : List α}
    (hcreate : ∀ rule ∈ rules, Sat (create rule) (R (model rule)) Env) :
    Sat (rules.mapM create) (List.Forall₂ R (rules.map model)) Env := by
  apply (sat_mapM hcreate).post
  intro states hstates
  rwa [List.forall₂_map_left_iff]

/-- New exact states in the directory hold nothing. -/
def Creates (ω : Type) [Host ω] (Env : Fault → Prop)
    (Holds : ValueKind → List Record → ExactState → Prop) (account : ResourceAccount)
    (rowCountHint : Option ℕ) (directory : Option String) : Prop :=
  ∀ kind, Sat (newExact kind account directory rowCountHint : Run ω Fault _) (Holds kind []) Env

theorem creates_spilling (account : ResourceAccount) (rowCountHint : Option ℕ)
    (directory : Option String) :
    Creates ω ExactFault (fun _ => ExactHolds account.limits) account rowCountHint directory :=
  fun kind => sat_newExact kind account directory rowCountHint

omit [Host ω] [Crates] in
/-- A plan with a distinct rule needs exact states. -/
theorem hasExact_of_mem_distinctSpecs {plan : DatasetPlan} {rule : ℕ × DistinctSpec}
    (h : rule ∈ distinctSpecs plan) : plan.hasExact = true := by
  unfold DatasetPlan.hasExact
  cases hcounts : plan.distinctCounts with
  | cons _ _ => simp
  | nil =>
      cases hratios : plan.distinctRatios with
      | cons _ _ => simp
      | nil => simp [distinctSpecs, hcounts, hratios] at h

omit [Crates] in
theorem DatasetState.sat_new {Holds : ValueKind → List Record → ExactState → Prop} (plan : DatasetPlan)
    (account : ResourceAccount) (rowCountHint : Option ℕ) (spill : SpillPolicy)
    (hcreates : Sat (createDirectoryIf (plan.hasExact && spill = .auto) : Run ω Fault _)
      (fun directory => plan.hasExact = true →
        Creates ω Env Holds account rowCountHint directory) Env) :
    Sat (DatasetState.new plan account rowCountHint spill : Run ω Fault _)
      (Models Holds (fresh plan account.limits.maxMemoryBytes)) Env := by
  apply hcreates.bind
  intro directory hcreates
  apply Sat.bind
  · apply sat_mapM_models DistinctState.fresh (R := DistinctState.Models Holds)
    rintro ⟨columnIndex, spec⟩ hrule
    apply (hcreates (hasExact_of_mem_distinctSpecs hrule) _).bind
    intro exact hexact
    exact sat_pure ⟨exact, rfl, hexact⟩
  · intro distinct hdistinct
    apply Sat.bind
    · apply sat_mapM_models CompositeState.fresh (R := CompositeState.Models Holds)
      intro composite hrule
      have hexact : plan.hasExact = true := by
        cases hcomposite : plan.compositeUnique with
        | nil => simp [hcomposite] at hrule
        | cons _ _ => simp [DatasetPlan.hasExact, hcomposite]
      apply (hcreates hexact _).bind
      intro exact hexact
      exact sat_pure ⟨exact, rfl, hexact⟩
    · intro composites hcomposites
      apply Sat.bind
      · apply sat_mapM_models ConditionalState.fresh (R := ConditionalState.Models Holds)
        intro rule hrule
        have hexact : plan.hasExact = true := by
          cases hconditional : plan.conditionalUnique with
          | nil => simp [hconditional] at hrule
          | cons _ _ => simp [DatasetPlan.hasExact, hconditional]
        apply (hcreates hexact _).bind
        intro exact hexact
        exact sat_pure ⟨exact, rfl, hexact⟩
      · intro conditional hconditional
        exact sat_pure
          ⟨distinct, composites, conditional, rfl, hdistinct, hcomposites, hconditional⟩

omit [Crates] in
/-- A summary shows the first repeating rows and counts them all. -/
theorem samples_eq_duplicateRows {maxSamples : ℕ} {records : List Record} {summary : ExactSummary}
    (hcounts : summary.Counts maxSamples records) :
    summary.duplicateSamples.map (fun sample => sample.duplicateRow.toNat) =
        (duplicateRows records).take maxSamples ∧
      summary.duplicateCount = (duplicateRows records).length := by
  constructor
  · rw [hcounts.samples_eq, List.map_map, duplicateRows, ← List.map_take]
    rfl
  · have hlength := length_duplicates Record.monotone_value records
    rw [hcounts.duplicate_eq, hcounts.distinct_eq, duplicateRows, List.length_map, ← length_values]
    omega

omit [Crates] in
/-- Violations of which the first were recorded one by one and the others are counted. -/
theorem tracks_sampled {maxSamples : ℕ} {all more : List Finding} (hlimit : limit ≤ maxSamples)
    (h : validation.Tracks limit evaluated (all ++ more.take maxSamples)) :
    (validation.addCount (more.length - (more.take maxSamples).length)).Tracks limit evaluated
      (all ++ more) := by
  have hdropped : more.length - (more.take maxSamples).length = (more.drop maxSamples).length := by
    rw [List.length_take, List.length_drop]
    omega
  rw [hdropped, ← List.take_append_drop maxSamples more, ← List.append_assoc,
    List.take_append_drop]
  apply h.addCount
  rcases Nat.le_total more.length maxSamples with hshort | hlong
  · exact .inr (List.drop_of_length_le hshort)
  · refine .inl ?_
    rw [List.length_append, List.length_take]
    omega

omit [Crates] in
theorem sat_recordDuplicates {finding : ℕ → Finding} {summary : ExactSummary} {maxSamples : ℕ}
    {records : List Record} (hlimit : limit ≤ maxSamples)
    (hcounts : summary.Counts maxSamples records)
    (h : validation.Tracks limit evaluated findings) :
    Sat (recordDuplicates finding summary validation : Run ω Fault _)
      (fun next => next.Tracks limit evaluated (findings ++ (duplicateRows records).map finding))
      Env := by
  obtain ⟨hsamples, hcount⟩ := samples_eq_duplicateRows hcounts
  have hfindings : summary.duplicateSamples.map (fun sample => finding sample.duplicateRow.toNat) =
      ((duplicateRows records).map finding).take maxSamples := by
    rw [← List.map_take, ← hsamples, List.map_map]
    rfl
  have hlength : summary.duplicateSamples.length =
      (((duplicateRows records).map finding).take maxSamples).length := by
    rw [← hfindings, List.length_map]
  unfold recordDuplicates
  dsimp only
  rw [hfindings, hlength, hcount, ← List.length_map (f := finding)]
  apply h.sat_recordAll.bind
  intro next hnext
  exact sat_pure (tracks_sampled hlimit hnext)

/-- What the finished states so far have left: their spill activity and their violations. -/
def Keeping.Finished (limit : ℕ) (evaluated : List ℕ) (findings : List Finding)
    (carried : SpillMetrics × ValidationState) : Prop :=
  keep.Spills carried.1.spillBytes carried.1.exactRuns ∧
    carried.2.Tracks limit evaluated findings

/-- Finish the states of a list in turn. -/
theorem sat_finishEach {σ τ : Type} {R : τ → σ → Prop}
    {finish : SpillMetrics × ValidationState → σ → Run ω Fault (SpillMetrics × ValidationState)}
    {found : τ → List Finding}
    (hstep : ∀ model state carried findings, R model state →
      keep.Finished limit evaluated findings carried →
      Sat (finish carried state) (keep.Finished limit evaluated (findings ++ found model)) keep.Env)
    {models : List τ} {states : List σ} (hstates : List.Forall₂ R models states) :
    ∀ {findings carried}, keep.Finished limit evaluated findings carried →
      Sat (states.foldlM finish carried)
        (keep.Finished limit evaluated (findings ++ models.flatMap found)) keep.Env := by
  induction hstates with
  | nil =>
      intro findings carried h
      apply sat_pure
      rw [List.flatMap_nil, List.append_nil]
      exact h
  | cons hhead _ ih =>
      intro findings carried h
      rw [List.foldlM_cons]
      apply (hstep _ _ _ _ hhead h).bind
      intro next hnext
      rw [List.flatMap_cons, ← List.append_assoc]
      exact ih hnext

theorem DatasetState.sat_finish {model : DatasetState (List Record)}
    {state : DatasetState ExactState} (rows : ℕ) (hlimit : limit ≤ keep.maxSamples)
    (hstate : Models keep.Holds model state) (h : validation.Tracks limit evaluated findings) :
    Sat (state.finish rows validation : Run ω Fault _)
      (keep.Finished limit evaluated (findings ++ model.found rows)) keep.Env := by
  obtain ⟨distinct, composites, conditional, rfl, hdistinct, hcomposites, hconditional⟩ := hstate
  unfold DatasetState.found
  simp only [← List.append_assoc]
  apply h.sat_recordAll.bind
  intro validation h
  have hstart : keep.Finished limit evaluated _ (SpillMetrics.zero, validation) :=
    ⟨keep.spills_zero, h⟩
  apply Sat.bind (sat_finishEach keep _ hdistinct hstart)
  · intro carried h
    apply Sat.bind (sat_finishEach keep _ hcomposites h)
    · intro carried h
      apply sat_finishEach keep _ hconditional h
      rintro model _ ⟨metrics, validation⟩ findings ⟨exact, rfl, hholds⟩ ⟨hspills, h⟩
      apply (keep.finish hholds).bind
      rintro summary ⟨hsummary, hspilled⟩
      apply (sat_recordDuplicates hlimit hsummary h).bind
      intro next hnext
      exact sat_pure ⟨keep.spills_add hspills hspilled, hnext⟩
    · rintro model _ ⟨metrics, validation⟩ findings ⟨exact, rfl, hholds⟩ ⟨hspills, h⟩
      apply (keep.finish hholds).bind
      rintro summary ⟨hsummary, hspilled⟩
      apply (sat_recordDuplicates hlimit hsummary h).bind
      intro next hnext
      exact sat_pure ⟨keep.spills_add hspills hspilled, hnext⟩
  · rintro model _ ⟨metrics, validation⟩ findings ⟨exact, rfl, hholds⟩ ⟨hspills, h⟩
    apply (keep.finish hholds).bind
    rintro summary ⟨hsummary, hspilled⟩
    have hfound : (model.withExact exact).findings rows summary.distinctCount = model.found rows := by
      rw [hsummary.distinct_eq]
      rfl
    show Sat ((validation.recordAll _ : Run ω Fault _) >>= _) _ _
    rw [hfound]
    apply h.sat_recordAll.bind
    intro next hnext
    exact sat_pure ⟨keep.spills_add hspills hspilled, hnext⟩

end Refinement

end ProofFrame
