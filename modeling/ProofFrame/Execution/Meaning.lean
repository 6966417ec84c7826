import ProofFrame.Execution.Engine
import ProofFrame.Execution.ReferencesMeaning

/-!
# The meaning of an execution

What a contract says about a dataset: all violations, how many values each
column offered, and what every reference rule was checked against.  It is a pure
function of the plan, the bindings and the batches, except that the frequency
maps of the dominance rules may outgrow the memory budget.

`refines_executeReaderInnerWithAccount` connects the engine to it: whatever the
surroundings do, a run ends in a report that shows the verdict up to its finding
limit, in the fault of the meaning, or in a fault of the surroundings.
-/

namespace ProofFrame

open Lib Lib.Run Distinct

/-! ## Batches -/

/-- Everything one traversal has found. -/
structure ScanMeaning where
  fingerprint : Option V2FingerprintState
  findings : List Finding
  evaluated : List ℕ
  uniques : List (Option (List Record))
  dataset : DatasetState (List Record)
  references : List (ReferenceEntry (List Record))
  rows : ℕ

/-- Add the values each column offers to the totals at the plan indices. -/
def recordCounts : List (ColumnPlan × ℕ) → List ℕ → List ℕ → List ℕ
  | (_, planIndex) :: columns, count :: counts, evaluated =>
      recordCounts columns counts (evaluated.modify planIndex (· + count))
  | _, _, evaluated => evaluated

/-- What the column rules make of a batch: the values collected, the number of values each column
offers, and the violations. -/
structure ColumnsObserved where
  uniques : List (Option (List Record))
  counts : List ℕ
  findings : List Finding

section Observe

variable [Crates]

def observeColumns (batch : RecordBatch) (rows : ℕ) :
    List (ColumnPlan × ℕ) → List (Option (List Record)) → Except Fault ColumnsObserved
  | [], _ => .ok { uniques := [], counts := [], findings := [] }
  | _ :: _, [] => .error outOfBounds
  | (column, _) :: columns, records :: uniques => do
      let array ← batch.column column.columnIndex
      let events ← column.events array records.isSome rows
      let rest ← observeColumns batch rows columns uniques
      .ok { uniques := records.map (· ++ recordsOf events) :: rest.uniques
            counts := (array.length - array.nullCount) :: rest.counts
            findings := findingsOf events ++ rest.findings }

theorem observeColumns_cons_eq_ok {batch : RecordBatch} {rows : ℕ} {entry : ColumnPlan × ℕ}
    {columns : List (ColumnPlan × ℕ)} {records : Option (List Record)}
    {uniques : List (Option (List Record))} {observed : ColumnsObserved} :
    observeColumns batch rows (entry :: columns) (records :: uniques) = .ok observed ↔
      ∃ array events rest, batch.column entry.1.columnIndex = .ok array ∧
        entry.1.events array records.isSome rows = .ok events ∧
        observeColumns batch rows columns uniques = .ok rest ∧
        observed = { uniques := records.map (· ++ recordsOf events) :: rest.uniques
                     counts := (array.length - array.nullCount) :: rest.counts
                     findings := findingsOf events ++ rest.findings } := by
  constructor
  · intro h
    obtain ⟨array, harray, h⟩ := bind_eq_ok.mp h
    obtain ⟨events, hevents, h⟩ := bind_eq_ok.mp h
    obtain ⟨rest, hrest, h⟩ := bind_eq_ok.mp h
    cases h
    exact ⟨array, events, rest, harray, hevents, hrest, rfl⟩
  · rintro ⟨array, events, rest, harray, hevents, hrest, rfl⟩
    exact bind_eq_ok.mpr ⟨array, harray, bind_eq_ok.mpr ⟨events, hevents,
      bind_eq_ok.mpr ⟨rest, hrest, rfl⟩⟩⟩

def observeRowPlans (batch : RecordBatch) (rows : ℕ) (plans : List RowPlan) :
    Except Fault (List Finding) :=
  plans.foldlM (fun found plan => do
    let events ← plan.events batch rows
    .ok (found ++ findingsOf events)) []

/-- The meaning of one turn of the traversal. -/
def observeBatch (plan : CompiledContract) (scan : ScanMeaning) (item : Except String RecordBatch) :
    Except Fault ScanMeaning := do
  let batch ← arrowItem item
  rejectIf (batch.schema ≠ plan.schema) batchSchemaChanged
  let fingerprint ← scan.fingerprint.mapM (V2FingerprintState.update · batch)
  let columns ← observeColumns batch scan.rows plan.columns.zipIdx scan.uniques
  let rowFindings ← observeRowPlans batch scan.rows plan.rowPlans
  let (dataset, datasetFindings) ← scan.dataset.observe batch scan.rows
  let (references, nullFindings) ←
    observeEach (ReferenceEntry.observe batch scan.rows) scan.references
  .ok { fingerprint
        findings :=
          scan.findings ++ columns.findings ++ rowFindings ++ datasetFindings ++ nullFindings
        evaluated := recordCounts plan.columns.zipIdx columns.counts scan.evaluated
        uniques := columns.uniques
        dataset, references
        rows := scan.rows + batch.rows }

/-! ## Start and end -/

/-- What is known before the first batch. -/
structure StartMeaning where
  scan : ScanMeaning
  prepared : List (PreparedReference (List Record))
  counted : List (String × ℕ)

def freshUniques (plan : CompiledContract) : List (Option (List Record)) :=
  plan.columns.map fun column => if column.rules.unique then some [] else none

def startMeaning (reader : BatchReader) (plan : CompiledContract) (fingerprint : Bool)
    (references : ReferenceBindings) (maxMemoryBytes : ℕ) : Except Fault StartMeaning := do
  rejectIf (reader.schema ≠ plan.schema) readerSchemaDiffers
  let fingerprint ←
    (if fingerprint then some <$> V2FingerprintState.new reader.schema [] else .ok none)
  let delta ← countedReferences plan.datasetPlan.rowCountDelta references
  let prepared ← readReferences plan.datasetPlan.references delta.bindings plan.schema
  .ok { scan := {
          fingerprint
          findings := []
          evaluated := List.replicate plan.columns.length 0
          uniques := freshUniques plan
          dataset := .fresh plan.datasetPlan maxMemoryBytes
          references := freshEntries prepared
          rows := 0 }
        prepared, counted := delta.counted }

/-- The bindings left for the reference rules, where nothing before them refuses the inputs. -/
def bindingsLeft (reader : BatchReader) (plan : CompiledContract) (fingerprint : Bool)
    (references : ReferenceBindings) : Except Fault ReferenceBindings := do
  rejectIf (reader.schema ≠ plan.schema) readerSchemaDiffers
  let _ ←
    (if fingerprint then some <$> V2FingerprintState.new reader.schema [] else .ok none)
  let delta ← countedReferences plan.datasetPlan.rowCountDelta references
  .ok delta.bindings

end Observe

/-- What an execution finds, without any limit. -/
structure Verdict where
  findings : List Finding
  evaluated : List ℕ
  rows : ℕ
  references : List ReferenceOutcome
  fingerprint : Option V2FingerprintState

/-- The duplicates of the values a column collected. -/
def uniqueFindings (pair : ColumnPlan × Option (List Record)) : List Finding :=
  match pair.2 with
  | none => []
  | some records => (duplicateRows records).map (duplicateValue pair.1)

/-- The verdict, once the dataset has been traversed. -/
def ScanMeaning.verdict (scan : ScanMeaning) (plan : CompiledContract)
    (prepared : List (PreparedReference (List Record))) (counted : List (String × ℕ)) : Verdict :=
  { findings := scan.findings ++ (plan.columns.zip scan.uniques).flatMap uniqueFindings ++
      referenceFindings (scan.references.zip prepared) ++
      rowCountDeltas plan.datasetPlan.rowCountDelta scan.rows counted ++
      scan.dataset.found scan.rows
    evaluated := scan.evaluated
    rows := scan.rows
    references := referenceOutcomes (scan.references.zip prepared)
    fingerprint := scan.fingerprint }

section Verdict

variable [Crates]

/-- The meaning of an execution. -/
def verdictOf (reader : BatchReader) (plan : CompiledContract) (fingerprint : Bool)
    (references : ReferenceBindings) (maxMemoryBytes : ℕ) : Except Fault Verdict := do
  let start ← startMeaning reader plan fingerprint references maxMemoryBytes
  let scan ← reader.items.foldlM (observeBatch plan) start.scan
  .ok (scan.verdict plan start.prepared start.counted)

/-- The same with the digests of the plan, which a report cannot do without. -/
def executionMeaning (reader : BatchReader) (plan : CompiledContract) (fingerprint : Bool)
    (references : ReferenceBindings) (maxMemoryBytes : ℕ) :
    Except Fault (Verdict × String × String) := do
  let verdict ← verdictOf reader plan fingerprint references maxMemoryBytes
  let compiledPlanDigest ← plan.compiledPlanDigest
  let schemaDigest ← plan.schemaDigest
  .ok (verdict, compiledPlanDigest, schemaDigest)

theorem executionMeaning_eq_ok {reader : BatchReader} {plan : CompiledContract} {fingerprint : Bool}
    {references : ReferenceBindings} {maxMemoryBytes : ℕ} {meaning : Verdict × String × String}
    (h : executionMeaning reader plan fingerprint references maxMemoryBytes = .ok meaning) :
    verdictOf reader plan fingerprint references maxMemoryBytes = .ok meaning.1 ∧
      plan.compiledPlanDigest = .ok meaning.2.1 ∧ plan.schemaDigest = .ok meaning.2.2 := by
  obtain ⟨verdict, hverdict, h⟩ := bind_eq_ok.mp h
  obtain ⟨compiledPlanDigest, hplan, h⟩ := bind_eq_ok.mp h
  obtain ⟨schemaDigest, hdigest, h⟩ := bind_eq_ok.mp h
  cases h
  exact ⟨hverdict, hplan, hdigest⟩

end Verdict

/-- The report shows the verdict, with as many findings as the limit allows. -/
structure FastValidationReport.Renders (plan : CompiledContract) (options : ExecutionOptions)
    (verdict : Verdict) (report : FastValidationReport) : Prop where
  valid_iff : report.valid = true ↔ verdict.findings = []
  count_eq : report.violationCount = verdict.findings.length
  findings_eq : report.findings = verdict.findings.take (findingLimit plan options)
  truncated_iff : report.truncated = true ↔ report.findings.length < report.violationCount
  rows_eq : report.rows = verdict.rows
  evaluated_eq : report.evaluatedColumns = verdict.evaluated
  indices_eq : report.evaluatedIndices = plan.columns.map ColumnPlan.columnIndex
  references_eq : report.references = verdict.references
  resources_eq : report.resources = options.resources

/-! ## The engine refines its meaning -/

/-- The exact states of the columns hold the values the columns collected. -/
inductive UniquesHold (Holds : ValueKind → List Record → ExactState → Prop) :
    List ColumnPlan → List (Option (List Record)) → List (Option ExactState) → Prop where
  | nil : UniquesHold Holds [] [] []
  | cons {column : ColumnPlan} {columns : List ColumnPlan} {model : Option (List Record)}
      {models : List (Option (List Record))} {state : Option ExactState}
      {states : List (Option ExactState)}
      (hhead : Option.Rel (Holds (exactKind column.kernel)) model state)
      (htail : UniquesHold Holds columns models states) :
      UniquesHold Holds (column :: columns) (model :: models) (state :: states)

section Refinement

variable {ω : Type} [Host ω] [Crates] (keep : Keeping ω) {Env : Fault → Prop} {limit : ℕ}

theorem refines_scanColumns {batch : RecordBatch} {rows : ℕ} {columns : List (ColumnPlan × ℕ)} :
    ∀ {models : List (Option (List Record))} {states : List (Option ExactState)}
      {evaluated : List ℕ} {findings : List Finding} {validation : ValidationState},
      UniquesHold keep.Holds (columns.map Prod.fst) models states →
      validation.Tracks limit evaluated findings →
      Refines keep.Env (scanColumns batch rows columns states validation : Run ω Fault _)
        (observeColumns batch rows columns models) (fun observed next =>
          UniquesHold keep.Holds (columns.map Prod.fst) observed.uniques next.1 ∧
          next.2.Tracks limit (recordCounts columns observed.counts evaluated)
            (findings ++ observed.findings)) := by
  induction columns with
  | nil =>
      intro models states evaluated findings validation _ h
      apply refines_pure
      refine ⟨.nil, ?_⟩
      show validation.Tracks limit evaluated (findings ++ [])
      rw [List.append_nil]
      exact h
  | cons entry columns ih =>
      obtain ⟨column, planIndex⟩ := entry
      rintro _ _ evaluated findings validation (_ | ⟨hhead, htail⟩) h
      · rename_i records models exact states
        apply (refines_lift (S := Eq) fun _ _ => rfl).bind
        rintro array _ _ rfl
        have hevaluated := h.recordEvaluated planIndex (array.length - array.nullCount)
        have hsome : records.isSome = exact.isSome := by cases hhead <;> rfl
        -- the sink of a column starts with what its unique state holds
        have hsink : Sink.Received (keep.Holds (exactKind column.kernel)) limit
            (evaluated.modify planIndex (· + (array.length - array.nullCount))) findings
            (records.getD [])
            ⟨validation.recordEvaluated planIndex (array.length - array.nullCount), exact⟩ := by
          refine ⟨hevaluated, ?_⟩
          rintro exact' rfl
          cases hhead with
          | some hexact => exact hexact
        rw [hsome]
        apply (refines_scanColumn keep hsink).bind
        rintro events sink _ ⟨hreceived, hsinkSome⟩
        apply Refines.after (hreceived.tracks.sat_checkResources keep.refused)
        intro _ _
        apply (ih htail hreceived.tracks).bind
        rintro rest ⟨uniqueStates, validation'⟩ _ ⟨hrest, htracks⟩
        apply refines_pure
        refine ⟨.cons ?_ hrest, ?_⟩
        · have hholds := hreceived.holds
          cases hhead with
          | none =>
              cases hexact : sink.exact with
              | none => exact .none
              | some exact => simp [hexact] at hsinkSome
          | some hexact =>
              cases hexact' : sink.exact with
              | none => simp [hexact'] at hsinkSome
              | some exact => exact .some (hholds exact hexact')
        · rw [← List.append_assoc]
          exact htracks

theorem refines_scanRowPlans {batch : RecordBatch} {rows : ℕ} {plans : List RowPlan}
    {evaluated : List ℕ} {findings : List Finding} {validation : ValidationState}
    (h : validation.Tracks limit evaluated findings) :
    Refines keep.Env (scanRowPlans batch rows plans validation : Run ω Fault _)
      (observeRowPlans batch rows plans)
      (fun found next => next.Tracks limit evaluated (findings ++ found)) := by
  apply refines_foldlM
  · intro plan _ found validation h
    apply (refines_scanRowPlan keep h).bind
    intro events next _ hnext
    apply Refines.after (hnext.sat_checkResources keep.refused)
    intro _ _
    apply refines_pure
    rw [← List.append_assoc]
    exact hnext
  · rw [List.append_nil]
    exact h

/-- The states of a traversal hold what has been found. -/
structure ScanMeaning.Models (Holds : ValueKind → List Record → ExactState → Prop)
    (plan : CompiledContract) (limit : ℕ) (model : ScanMeaning) (state : ScanState) : Prop where
  fingerprint_eq : state.fingerprint = model.fingerprint
  tracks : state.validation.Tracks limit model.evaluated model.findings
  uniques : UniquesHold Holds plan.columns model.uniques state.uniqueStates
  dataset : model.dataset.Models Holds state.datasetState
  references : List.Forall₂ (ReferenceEntry.Models Holds) model.references state.references
  rows_eq : state.rows = model.rows

theorem refines_scanBatch {plan : CompiledContract} {item : Except String RecordBatch}
    {model : ScanMeaning} {state : ScanState} (h : model.Models keep.Holds plan limit state) :
    Refines keep.Env (scanBatch plan state item : Run ω Fault _) (observeBatch plan model item)
      (ScanMeaning.Models keep.Holds plan limit) := by
  apply Refines.after keep.cancelled
  intro _ _
  apply (refines_lift (S := Eq) fun _ _ => rfl).bind
  rintro batch _ _ rfl
  apply refines_failIf.bind
  intro _ _ _ _
  rw [h.fingerprint_eq, h.rows_eq]
  apply (refines_lift (S := Eq) fun _ _ => rfl).bind
  rintro fingerprint _ _ rfl
  have huniques : UniquesHold keep.Holds (plan.columns.zipIdx.map Prod.fst) model.uniques
      state.uniqueStates := by
    rw [List.zipIdx_map_fst]
    exact h.uniques
  apply (refines_scanColumns keep huniques h.tracks).bind
  rintro columns ⟨uniqueStates, validation⟩ _ ⟨huniques, htracks⟩
  rw [List.zipIdx_map_fst] at huniques
  apply (refines_scanRowPlans keep htracks).bind
  intro rowFindings validation _ htracks
  apply (DatasetState.refines_update keep h.dataset htracks).bind
  rintro ⟨dataset, datasetFindings⟩ ⟨datasetState, validation⟩ _ ⟨hdataset, htracks⟩
  apply Refines.after (htracks.sat_checkResources keep.refused)
  intro _ _
  apply (refines_updateEach (fun _ _ _ _ hs hv => ReferenceEntry.refines_update keep hs hv)
    h.references htracks).bind
  rintro ⟨references, nullFindings⟩ ⟨entries, validation⟩ _ ⟨hreferences, htracks⟩
  apply Refines.after (htracks.sat_checkResources keep.refused)
  intro _ _
  exact refines_pure ⟨rfl, htracks, huniques, hdataset, hreferences, rfl⟩

theorem refines_scanReader {plan : CompiledContract} {items : List (Except String RecordBatch)}
    {model : ScanMeaning} {state : ScanState} (h : model.Models keep.Holds plan limit state) :
    Refines keep.Env (scanReader plan items state : Run ω Fault _)
      (items.foldlM (observeBatch plan) model) (ScanMeaning.Models keep.Holds plan limit) := by
  apply refines_foldlM
  · intro item _ model state h
    exact refines_scanBatch keep h
  · exact h

omit [Crates] in
theorem sat_initializeUniqueStates {Holds : ValueKind → List Record → ExactState → Prop}
    (plan : CompiledContract) (options : ExecutionOptions) (account : ResourceAccount)
    (hcreates : Sat (createDirectoryIf (plan.columns.any (fun column => column.rules.unique) &&
        options.spill = .auto) : Run ω Fault _)
      (fun directory => plan.columns.any (fun column => column.rules.unique) = true →
        Creates ω Env Holds account options.rowCountHint directory) Env) :
    Sat (initializeUniqueStates plan options account : Run ω Fault _)
      (UniquesHold Holds plan.columns (freshUniques plan)) Env := by
  apply hcreates.bind
  intro directory hcreates
  have hstates := @sat_mapM _ _ _ _ Env
    (fun column : ColumnPlan => (if column.rules.unique then do
        let exact ← newExact (exactKind column.kernel) account directory options.rowCountHint
        pure (some exact)
      else pure none : Run ω Fault (Option ExactState)))
    (R := fun column => Option.Rel (Holds (exactKind column.kernel))
      (if column.rules.unique then some [] else none))
  apply (hstates _).post
  · intro states hstates
    unfold freshUniques
    generalize plan.columns = columns at hstates ⊢
    induction hstates with
    | nil => exact .nil
    | cons hhead _ ih => exact .cons hhead ih
  · intro column hcolumn
    split
    · rename_i hunique
      apply (hcreates (List.any_eq_true.mpr ⟨column, hcolumn, hunique⟩) _).bind
      intro exact hexact
      exact sat_pure (.some hexact)
    · exact sat_pure .none

/-- The engine has started as its meaning has. -/
structure StartMeaning.Models (Holds : ValueKind → List Record → ExactState → Prop)
    (Prepared : PreparedReference (List Record) → PreparedReference SealedState → Prop)
    (plan : CompiledContract) (limit : ℕ) (model : StartMeaning) (started : Started) : Prop where
  scan : model.scan.Models Holds plan limit started.scan
  prepared : List.Forall₂ Prepared model.prepared started.prepared
  counted_eq : started.counted = model.counted

/-- How a run keeps its exact states from the first to the last: it creates them, prepares its
reference rules, and compares their keys. -/
structure Keeping.Executes (reader : BatchReader) (plan : CompiledContract)
    (options : ExecutionOptions) (fingerprint : Bool) (account : ResourceAccount)
    (references : ReferenceBindings)
    (Prepared : PreparedReference (List Record) → PreparedReference SealedState → Prop) : Prop where
  dataset : Sat (DatasetState.new plan.datasetPlan account options.rowCountHint options.spill :
      Run ω Fault _)
    (DatasetState.Models keep.Holds (.fresh plan.datasetPlan account.limits.maxMemoryBytes))
    keep.Env
  uniques : Sat (initializeUniqueStates plan options account : Run ω Fault _)
    (UniquesHold keep.Holds plan.columns (freshUniques plan)) keep.Env
  prepare : ∀ bindings, bindingsLeft reader plan fingerprint references = .ok bindings →
    Refines keep.Env
      (prepare plan.datasetPlan.references bindings plan.schema account : Run ω Fault _)
      (readReferences plan.datasetPlan.references bindings plan.schema) (List.Forall₂ Prepared)
  entries : ∀ {models prepared}, List.Forall₂ Prepared models prepared →
    Sat (newReferenceEntries prepared account options.rowCountHint : Run ω Fault _)
      (List.Forall₂ (ReferenceEntry.Models keep.Holds) (freshEntries models)) keep.Env
  compare : ∀ {limit evaluated model entry referenceModel reference result outcomes findings},
    ReferenceEntry.Models keep.Holds model entry → Prepared referenceModel reference →
    keep.Compared limit evaluated outcomes findings result →
    Sat (finishReference limit result (entry, reference) : Run ω Fault _)
      (keep.Compared limit evaluated
        (outcomes ++ [model.plan.outcome referenceModel.scanned model.localKeys])
        (findings ++ model.plan.found referenceModel.scanned.keys model.localKeys)) keep.Env

theorem Keeping.executes_spilling (reader : BatchReader) (plan : CompiledContract)
    (options : ExecutionOptions) (fingerprint : Bool) (account : ResourceAccount)
    (references : ReferenceBindings) :
    (Keeping.spilling (ω := ω) account.limits).Executes reader plan options fingerprint account
      references PreparedReference.Models where
  dataset := DatasetState.sat_new _ _ _ _
    ((sat_createDirectoryIf _).post fun directory _ _ => creates_spilling _ _ directory)
  uniques := sat_initializeUniqueStates _ _ _
    ((sat_createDirectoryIf _).post fun directory _ _ => creates_spilling _ _ directory)
  prepare bindings _ := refines_prepare _ bindings _ _
  entries hprepared := sat_newReferenceEntries _ _ hprepared
  compare := sat_finishReference

variable {reader : BatchReader} {plan : CompiledContract} {options : ExecutionOptions}
  {fingerprint : Bool} {account : ResourceAccount} {references : ReferenceBindings}
  {Prepared : PreparedReference (List Record) → PreparedReference SealedState → Prop}

theorem Keeping.Executes.refines_startExecution
    (hkeep : keep.Executes reader plan options fingerprint account references Prepared) :
    Refines keep.Env
      (startExecution reader plan options fingerprint account references : Run ω Fault _)
      (startMeaning reader plan fingerprint references account.limits.maxMemoryBytes)
      (StartMeaning.Models keep.Holds Prepared plan (findingLimit plan options)) := by
  apply refines_failIf.bind
  intro _ _ hschema _
  apply (refines_lift (S := Eq) fun _ _ => rfl).bind
  rintro fingerprint _ hfingerprint rfl
  apply Refines.after hkeep.dataset
  intro datasetState hdataset
  apply Refines.after hkeep.uniques
  intro uniqueStates huniques
  apply (refines_countDeltaReferences keep.cancelled plan.datasetPlan.rowCountDelta references).bind
  rintro delta _ hdelta rfl
  have hleft : bindingsLeft reader plan _ references = .ok delta.bindings :=
    bind_eq_ok.mpr ⟨_, hschema, bind_eq_ok.mpr ⟨_, hfingerprint,
      bind_eq_ok.mpr ⟨_, hdelta, rfl⟩⟩⟩
  apply (hkeep.prepare delta.bindings hleft).bind
  intro models prepared _ hprepared
  apply Refines.of_sat
  apply (hkeep.entries hprepared).bind
  intro entries hentries
  have htracks := (ValidationState.tracks_new (findingLimit plan options) account).prepareEvaluated
    plan.columns.length
  exact sat_pure ⟨⟨rfl, htracks, huniques, hdataset, hentries, rfl⟩, hprepared, rfl⟩

theorem refines_startExecution (reader : BatchReader) (plan : CompiledContract)
    (options : ExecutionOptions) (fingerprint : Bool) (account : ResourceAccount)
    (references : ReferenceBindings) :
    Refines ExactFault
      (startExecution reader plan options fingerprint account references : Run ω Fault _)
      (startMeaning reader plan fingerprint references account.limits.maxMemoryBytes)
      (StartMeaning.Models (fun _ => ExactHolds account.limits) PreparedReference.Models plan
        (findingLimit plan options)) :=
  (Keeping.executes_spilling reader plan options fingerprint account
    references).refines_startExecution _

theorem sat_recordDuplicateValues {column : ColumnPlan} {evaluated : List ℕ}
    {samples : List DuplicateSample} :
    ∀ {findings : List Finding} {validation : ValidationState},
      validation.Tracks limit evaluated findings →
      Sat (samples.foldlM (recordDuplicateValue column) validation : Run ω Fault _)
        (fun next => next.Tracks limit evaluated
          (findings ++ samples.map fun sample => duplicateValue column sample.duplicateRow.toNat))
        keep.Env := by
  induction samples with
  | nil =>
      intro findings validation h
      apply sat_pure
      rw [List.map_nil, List.append_nil]
      exact h
  | cons sample samples ih =>
      intro findings validation h
      rw [List.foldlM_cons]
      apply Sat.bind (Q := fun next => next.Tracks limit evaluated
        (findings ++ [duplicateValue column sample.duplicateRow.toNat]))
      · apply h.sat_recordLazy.bind
        intro next hnext
        apply (hnext.sat_checkResources keep.refused).bind
        intro _ _
        exact sat_pure hnext
      · intro next hnext
        rw [List.map_cons, List.append_cons]
        exact ih hnext

theorem sat_finishUniqueState {evaluated : List ℕ} {findings : List Finding}
    {model : ColumnPlan × Option (List Record)} {pair : ColumnPlan × Option ExactState}
    {carried : SpillMetrics × ValidationState} (hlimit : limit ≤ keep.maxSamples)
    (hpair : model.1 = pair.1 ∧
      Option.Rel (keep.Holds (exactKind model.1.kernel)) model.2 pair.2)
    (h : keep.Finished limit evaluated findings carried) :
    Sat (finishUniqueState carried pair : Run ω Fault _)
      (keep.Finished limit evaluated (findings ++ uniqueFindings model)) keep.Env := by
  obtain ⟨metrics, validation⟩ := carried
  obtain ⟨column, records⟩ := model
  obtain ⟨column', exact⟩ := pair
  obtain ⟨rfl, hexact⟩ := hpair
  cases hexact with
  | none =>
      apply sat_pure
      show keep.Finished limit evaluated (findings ++ []) (metrics, validation)
      rw [List.append_nil]
      exact h
  | @some records exact hexact =>
      apply (keep.finish hexact).bind
      rintro summary ⟨hsummary, hspilled⟩
      obtain ⟨hsamples, hcount⟩ := samples_eq_duplicateRows hsummary
      apply (sat_recordDuplicateValues keep h.2).bind
      intro next hnext
      have hfound : (summary.duplicateSamples.map fun sample =>
          duplicateValue column sample.duplicateRow.toNat) =
            ((duplicateRows records).map (duplicateValue column)).take keep.maxSamples := by
        rw [← List.map_take, ← hsamples, List.map_map]
        rfl
      have hlength : summary.duplicateSamples.length =
          (((duplicateRows records).map (duplicateValue column)).take keep.maxSamples).length := by
        rw [← hfound, List.length_map]
      rw [hfound] at hnext
      refine sat_pure ⟨keep.spills_add h.1 hspilled, ?_⟩
      dsimp only
      rw [hcount, hlength, ← List.length_map (f := duplicateValue column)]
      exact tracks_sampled hlimit hnext

/-- What a finished run reports. -/
theorem refines_buildReport {verdict : Verdict} {validation : ValidationState}
    (metrics : SpillMetrics)
    (h : validation.Tracks (findingLimit plan options) verdict.evaluated verdict.findings)
    (hnone : validation.resourceError = none) :
    Refines Env (buildReport plan options account validation verdict.rows metrics
        verdict.references : Run ω Fault _)
      (do
        let compiledPlanDigest ← plan.compiledPlanDigest
        let schemaDigest ← plan.schemaDigest
        .ok (verdict, compiledPlanDigest, schemaDigest))
      (fun meaning report => meaning.1 = verdict ∧ report.Renders plan options verdict ∧
        report.compiledPlanDigest = meaning.2.1 ∧ report.schemaDigest = meaning.2.2 ∧
        report.metrics.spillBytes = metrics.spillBytes ∧
        report.metrics.exactRuns = metrics.exactRuns) := by
  apply Refines.after (sat_peakUsed (Q := fun _ => True) fun _ => trivial)
  intro _ _
  apply Refines.after (sat_peakUsed (Q := fun _ => True) fun _ => trivial)
  intro _ _
  apply (refines_lift (S := Eq) fun _ _ => rfl).bind
  rintro compiledPlanDigest _ _ rfl
  apply (refines_lift (S := Eq) fun _ _ => rfl).bind
  rintro schemaDigest _ _ rfl
  apply refines_pure
  refine ⟨rfl, ?_, rfl, rfl, rfl, rfl⟩
  constructor
  case valid_iff =>
    show decide (validation.violationCount = 0) = true ↔ _
    rw [decide_eq_true_iff, h.count_eq, List.length_eq_zero_iff]
  case count_eq => exact h.count_eq
  case findings_eq => exact h.findings_eq hnone
  case truncated_iff => exact decide_eq_true_iff
  case evaluated_eq => exact h.evaluated_eq
  all_goals rfl

/-- The report and the fingerprint of a run show its meaning. -/
def Shows (plan : CompiledContract) (options : ExecutionOptions)
    (meaning : Verdict × String × String) (ended : FastValidationReport × Option Fingerprint) :
    Prop :=
  ended.1.Renders plan options meaning.1 ∧ ended.1.compiledPlanDigest = meaning.2.1 ∧
    ended.1.schemaDigest = meaning.2.2 ∧
    ended.2 = meaning.1.fingerprint.map V2FingerprintState.finish

omit [Crates] [Host ω] in
/-- The entries of the rules next to the datasets they were prepared with. -/
theorem forall₂_zip_references {Holds : ValueKind → List Record → ExactState → Prop}
    {entryModels : List (ReferenceEntry (List Record))}
    {entries : List (ReferenceEntry ExactState)} {models : List (PreparedReference (List Record))}
    {prepared : List (PreparedReference SealedState)}
    (hentries : List.Forall₂ (ReferenceEntry.Models Holds) entryModels entries)
    (hprepared : List.Forall₂ Prepared models prepared) :
    List.Forall₂ (fun model pair => model.1.Models Holds pair.1 ∧ Prepared model.2 pair.2)
      (entryModels.zip models) (entries.zip prepared) := by
  induction hentries generalizing models prepared with
  | nil => exact .nil
  | cons hhead _ ih =>
      cases hprepared with
      | nil => exact .nil
      | cons hhead' htail' => exact .cons ⟨hhead, hhead'⟩ (ih htail')

omit [Crates] [Host ω] in
theorem forall₂_zip_uniques {Holds : ValueKind → List Record → ExactState → Prop}
    {columns : List ColumnPlan} {models : List (Option (List Record))}
    {states : List (Option ExactState)} (h : UniquesHold Holds columns models states) :
    List.Forall₂ (fun (model : ColumnPlan × Option (List Record)) pair => model.1 = pair.1 ∧
      Option.Rel (Holds (exactKind model.1.kernel)) model.2 pair.2)
      (columns.zip models) (columns.zip states) := by
  induction h with
  | nil => exact .nil
  | cons hhead _ ih => exact .cons ⟨rfl, hhead⟩ ih

/-- The report and the fingerprint of a run show its meaning and what was spilled. -/
def Keeping.Ended (plan : CompiledContract) (options : ExecutionOptions)
    (meaning : Verdict × String × String) (ended : FastValidationReport × Option Fingerprint) :
    Prop :=
  Shows plan options meaning ended ∧
    keep.Spills ended.1.metrics.spillBytes ended.1.metrics.exactRuns

theorem Keeping.Executes.refines_finishExecution
    (hkeep : keep.Executes reader plan options fingerprint account references Prepared)
    (hlimit : findingLimit plan options ≤ keep.maxSamples)
    {prepared : List (PreparedReference SealedState)}
    {models : List (PreparedReference (List Record))} {counted : List (String × ℕ)}
    {model : ScanMeaning} {scan : ScanState} (hprepared : List.Forall₂ Prepared models prepared)
    (h : model.Models keep.Holds plan (findingLimit plan options) scan) :
    Refines keep.Env (finishExecution plan options account prepared counted scan : Run ω Fault _)
      (do
        let compiledPlanDigest ← plan.compiledPlanDigest
        let schemaDigest ← plan.schemaDigest
        .ok (model.verdict plan models counted, compiledPlanDigest, schemaDigest))
      (keep.Ended plan options) := by
  apply Refines.after (Q := keep.Finished (findingLimit plan options) model.evaluated
    (model.findings ++ (plan.columns.zip model.uniques).flatMap uniqueFindings))
  · apply sat_finishEach keep _ (forall₂_zip_uniques h.uniques)
    · exact ⟨keep.spills_zero, h.tracks⟩
    · intro _ _ _ _ hpair hfinished
      exact sat_finishUniqueState keep hlimit hpair hfinished
  · rintro ⟨metrics, validation⟩ ⟨hspills, htracks⟩
    have hstart : keep.Compared (findingLimit plan options) model.evaluated [] _
        { outcomes := [], metrics := .zero, validation } := ⟨rfl, keep.spills_zero, htracks⟩
    apply Refines.after (sat_finishReferences keep hkeep.compare
      (forall₂_zip_references h.references hprepared) hstart)
    rintro result ⟨houtcomes, hcompared, htracks⟩
    rw [h.rows_eq]
    apply Refines.after htracks.sat_recordAll
    intro validation htracks
    apply Refines.after (DatasetState.sat_finish keep model.rows hlimit h.dataset htracks)
    rintro ⟨datasetMetrics, validation⟩ ⟨hdataset, htracks⟩
    apply Refines.after (htracks.sat_checkResources keep.refused)
    intro _ hnone
    rw [List.nil_append] at houtcomes
    rw [houtcomes, h.fingerprint_eq, ← bind_pure (plan.compiledPlanDigest >>= _)]
    have htracks : validation.Tracks (findingLimit plan options)
        (model.verdict plan models counted).evaluated
        (model.verdict plan models counted).findings := htracks
    apply (refines_buildReport _ htracks hnone).bind
    rintro ⟨_, compiledPlanDigest, schemaDigest⟩ report _
      ⟨rfl, hrenders, hplan, hschema, hbytes, hruns⟩
    refine refines_pure ⟨⟨hrenders, hplan, hschema, rfl⟩, ?_⟩
    dsimp only
    rw [hbytes, hruns]
    exact keep.spills_add (keep.spills_add hspills hcompared) hdataset

/-- An execution shows its meaning, or ends in the fault of its meaning or of its surroundings. -/
theorem Keeping.Executes.refines_executeReaderInnerWithAccount
    (hkeep : keep.Executes reader plan options fingerprint account references Prepared)
    (hlimit : findingLimit plan options ≤ keep.maxSamples)
    (hlimits : account.limits = options.resources) :
    Refines keep.Env (executeReaderInnerWithAccount reader plan options fingerprint account
        references : Run ω Fault _)
      (executionMeaning reader plan fingerprint references options.resources.maxMemoryBytes)
      (keep.Ended plan options) := by
  unfold executionMeaning verdictOf
  simp only [bind_assoc]
  rw [← hlimits]
  apply (hkeep.refines_startExecution keep).bind
  intro start started _ hstart
  apply (refines_scanReader keep hstart.scan).bind
  intro model scan _ hscan
  rw [hstart.counted_eq]
  exact hkeep.refines_finishExecution keep hlimit hstart.prepared hscan

/-- An execution shows its meaning, or ends in the fault of its meaning or of its surroundings. -/
theorem refines_executeReaderInnerWithAccount (reader : BatchReader) (plan : CompiledContract)
    (options : ExecutionOptions) (fingerprint : Bool) (account : ResourceAccount)
    (references : ReferenceBindings) (hlimits : account.limits = options.resources) :
    Refines ExactFault (executeReaderInnerWithAccount reader plan options fingerprint account
        references : Run ω Fault _)
      (executionMeaning reader plan fingerprint references options.resources.maxMemoryBytes)
      (Shows plan options) := by
  have hlimit : findingLimit plan options ≤ account.limits.maxSamples := by
    rw [hlimits]
    exact Nat.min_le_right _ _
  exact ((Keeping.executes_spilling reader plan options fingerprint account
    references).refines_executeReaderInnerWithAccount _ hlimit hlimits).post
      fun _ _ _ hended => hended.1

/-- A report shows the verdict of its run. -/
theorem refines_executeReaderWithReferences (reader : BatchReader)
    (plan : CompiledContract) (options : ExecutionOptions) (references : ReferenceBindings) :
    Refines ExactFault
      (executeReaderWithReferences reader plan options references : Run ω Fault _)
      (executionMeaning reader plan false references options.resources.maxMemoryBytes)
      (fun meaning report => report.Renders plan options meaning.1) := by
  rw [← id_map (executionMeaning reader plan false references options.resources.maxMemoryBytes)]
  apply Refines.map (refines_executeReaderInnerWithAccount reader plan options false
    (.root options.resources) references rfl)
  rintro meaning ended _ ⟨hrenders, -⟩
  exact hrenders

end Refinement

end ProofFrame
