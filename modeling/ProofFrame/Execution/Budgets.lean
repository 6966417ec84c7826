import ProofFrame.Execution.MapBudget
import ProofFrame.Execution.Meaning

/-!
# Resources decide whether a run ends, not what it says

The meaning of an execution depends on its budget in one place, the frequency maps
of the dominance rules.  A map that grows under a budget grows in the same way
under a larger one, and what is read of it at the end is not the budget.  So the
verdict of a run that ends in a report is that of every run that does, whatever
its budgets, its row count hint, its spill policy and its surroundings; under a
larger budget only the surroundings can still stop it.
-/

namespace ProofFrame

open Lib Lib.Run Distinct

/-! ## Maps -/

/-- The map under another budget. -/
def Frequencies.rebudget (budget : ℕ) (frequencies : Frequencies) : Frequencies :=
  { frequencies with budget }

theorem Frequencies.add_rebudget {frequencies next : Frequencies} {key : List UInt8} {budget : ℕ}
    (h : frequencies.add key = .ok next) (hle : frequencies.budget ≤ budget) :
    (frequencies.rebudget budget).add key = .ok (next.rebudget budget) := by
  unfold add rebudget at *
  dsimp only at h ⊢
  split at h
  · next hkey =>
      cases h
      rw [if_pos hkey]
  · next hkey =>
      rw [if_neg hkey]
      split at h
      · cases h
      · next hfits =>
          cases h
          rw [if_neg (fun hexceeds => hfits (hle.trans_lt hexceeds))]

namespace DominantState

def rebudget (budget : ℕ) (state : DominantState) : DominantState :=
  { state with counts := state.counts.rebudget budget }

variable [Crates] {batch : RecordBatch} {state next : DominantState} {budget : ℕ}

theorem budget_update (h : state.update batch = .ok next) :
    next.counts.budget = state.counts.budget :=
  Frequencies.budget_of_addAll (addAll_of_update h).2

theorem update_rebudget (h : state.update batch = .ok next) (hle : state.counts.budget ≤ budget) :
    (state.rebudget budget).update batch = .ok (next.rebudget budget) := by
  obtain ⟨array, harray, h⟩ := bind_eq_ok.mp h
  obtain ⟨counts, hcounts, h⟩ := bind_eq_ok.mp h
  cases h
  refine bind_eq_ok.mpr ⟨array, harray, bind_eq_ok.mpr ⟨counts.rebudget budget, ?_, rfl⟩⟩
  show array.cells.foldlM _ (state.counts.rebudget budget) = _
  generalize array.cells = cells, state.counts = current at hcounts hle ⊢
  -- cell by cell, the budget of the map stays what it is
  induction cells generalizing current with
  | nil =>
      cases hcounts
      rfl
  | cons cell cells ih =>
      rw [List.foldlM_cons] at hcounts ⊢
      obtain ⟨middle, hmiddle, hcounts⟩ := bind_eq_ok.mp hcounts
      obtain ⟨key, hkey, hadd⟩ := bind_eq_ok.mp hmiddle
      rw [hkey, ok_bind, Frequencies.add_rebudget hadd hle, ok_bind]
      apply ih middle hcounts
      rw [(Frequencies.add_cases hadd).1]
      exact hle

end DominantState

/-! ## States -/

section States

variable [Crates] {batch : RecordBatch} {budget : ℕ}

def DatasetState.rebudget {X : Type} (budget : ℕ) (state : DatasetState X) : DatasetState X :=
  { state with dominants := state.dominants.map (DominantState.rebudget budget) }

/-- No map of the state has a larger budget. -/
def DatasetState.Within {X : Type} (budget : ℕ) (state : DatasetState X) : Prop :=
  ∀ rule ∈ state.dominants, rule.counts.budget ≤ budget

theorem mapM_rebudget {states next : List DominantState}
    (h : states.mapM (DominantState.update batch) = .ok next)
    (hle : ∀ rule ∈ states, rule.counts.budget ≤ budget) :
    (states.map (DominantState.rebudget budget)).mapM (DominantState.update batch) =
      .ok (next.map (DominantState.rebudget budget)) := by
  rw [mapM_eq_ok] at h ⊢
  rw [List.forall₂_map_left_iff, List.forall₂_map_right_iff]
  refine ((List.forall₂_and_left _ _).mpr ⟨hle, h⟩).imp ?_
  rintro rule next ⟨hrule, hnext⟩
  exact DominantState.update_rebudget hnext hrule

theorem DatasetState.observe_rebudget {state next : DatasetState (List Record)} {rows : ℕ}
    {found : List Finding} (h : state.observe batch rows = .ok (next, found))
    (hle : state.Within budget) :
    (state.rebudget budget).observe batch rows = .ok (next.rebudget budget, found) ∧
      next.Within budget := by
  obtain ⟨nullCounts, hnullCounts, h⟩ := bind_eq_ok.mp h
  obtain ⟨⟨distinct, _⟩, hdistinct, h⟩ := bind_eq_ok.mp h
  obtain ⟨⟨ordering, _⟩, hordering, h⟩ := bind_eq_ok.mp h
  obtain ⟨⟨gaps, _⟩, hgaps, h⟩ := bind_eq_ok.mp h
  obtain ⟨sums, hsums, h⟩ := bind_eq_ok.mp h
  obtain ⟨statistics, hstatistics, h⟩ := bind_eq_ok.mp h
  obtain ⟨balances, hbalances, h⟩ := bind_eq_ok.mp h
  obtain ⟨dominants, hdominants, h⟩ := bind_eq_ok.mp h
  obtain ⟨⟨conditional, _⟩, hconditional, h⟩ := bind_eq_ok.mp h
  obtain ⟨broken, hbroken, h⟩ := bind_eq_ok.mp h
  obtain ⟨⟨composites, _⟩, hcomposites, h⟩ := bind_eq_ok.mp h
  cases h
  constructor
  · exact bind_eq_ok.mpr ⟨_, hnullCounts, bind_eq_ok.mpr ⟨_, hdistinct, bind_eq_ok.mpr
      ⟨_, hordering, bind_eq_ok.mpr ⟨_, hgaps, bind_eq_ok.mpr ⟨_, hsums, bind_eq_ok.mpr
      ⟨_, hstatistics, bind_eq_ok.mpr ⟨_, hbalances, bind_eq_ok.mpr ⟨_,
      mapM_rebudget hdominants hle, bind_eq_ok.mpr ⟨_, hconditional, bind_eq_ok.mpr ⟨_, hbroken,
      bind_eq_ok.mpr ⟨_, hcomposites, rfl⟩⟩⟩⟩⟩⟩⟩⟩⟩⟩⟩
  · refine forall_of_mapM hdominants ?_
    intro rule hrule next hnext
    rw [DominantState.budget_update hnext]
    exact hle rule hrule

def ScanMeaning.rebudget (budget : ℕ) (scan : ScanMeaning) : ScanMeaning :=
  { scan with dataset := scan.dataset.rebudget budget }

variable {plan : CompiledContract}

theorem observeBatch_rebudget {scan next : ScanMeaning} {item : Except String RecordBatch}
    (h : observeBatch plan scan item = .ok next) (hle : scan.dataset.Within budget) :
    observeBatch plan (scan.rebudget budget) item = .ok (next.rebudget budget) ∧
      next.dataset.Within budget := by
  obtain ⟨batch, hbatch, h⟩ := bind_eq_ok.mp h
  obtain ⟨_, hschema, h⟩ := bind_eq_ok.mp h
  obtain ⟨fingerprint, hfingerprint, h⟩ := bind_eq_ok.mp h
  obtain ⟨columns, hcolumns, h⟩ := bind_eq_ok.mp h
  obtain ⟨rowFindings, hrows, h⟩ := bind_eq_ok.mp h
  obtain ⟨⟨dataset, found⟩, hdataset, h⟩ := bind_eq_ok.mp h
  obtain ⟨⟨references, _⟩, hreferences, h⟩ := bind_eq_ok.mp h
  cases h
  obtain ⟨hobserve, hwithin⟩ := DatasetState.observe_rebudget hdataset hle
  refine ⟨?_, hwithin⟩
  exact bind_eq_ok.mpr ⟨_, hbatch, bind_eq_ok.mpr ⟨_, hschema, bind_eq_ok.mpr ⟨_, hfingerprint,
    bind_eq_ok.mpr ⟨_, hcolumns, bind_eq_ok.mpr ⟨_, hrows, bind_eq_ok.mpr ⟨_, hobserve,
      bind_eq_ok.mpr ⟨_, hreferences, rfl⟩⟩⟩⟩⟩⟩⟩

theorem foldlM_rebudget {items : List (Except String RecordBatch)} :
    ∀ {scan last : ScanMeaning}, items.foldlM (observeBatch plan) scan = .ok last →
      scan.dataset.Within budget →
      items.foldlM (observeBatch plan) (scan.rebudget budget) = .ok (last.rebudget budget) := by
  induction items with
  | nil =>
      intro scan last h _
      cases h
      rfl
  | cons item items ih =>
      intro scan last h hle
      rw [List.foldlM_cons] at h ⊢
      obtain ⟨next, hnext, h⟩ := bind_eq_ok.mp h
      obtain ⟨hobserve, hwithin⟩ := observeBatch_rebudget hnext hle
      rw [hobserve]
      exact ih h hwithin

omit [Crates] in
theorem verdict_rebudget (scan : ScanMeaning) (prepared : List (PreparedReference (List Record)))
    (counted : List (String × ℕ)) :
    (scan.rebudget budget).verdict plan prepared counted = scan.verdict plan prepared counted := by
  unfold ScanMeaning.verdict ScanMeaning.rebudget DatasetState.found DatasetState.scalarFindings
    DatasetState.rebudget
  dsimp only
  rw [List.flatMap_map]
  rfl

/-! ## Runs -/

omit [Crates] in
theorem DatasetState.fresh_rebudget {datasetPlan : DatasetPlan} {maxMemoryBytes budget : ℕ} :
    (DatasetState.fresh datasetPlan maxMemoryBytes).rebudget (budget / 8) =
      DatasetState.fresh datasetPlan budget := by
  unfold DatasetState.fresh DatasetState.initial DatasetState.rebudget
  dsimp only
  rw [List.map_map]
  rfl

theorem startMeaning_rebudget {reader : BatchReader} {fingerprint : Bool}
    {references : ReferenceBindings} {maxMemoryBytes larger : ℕ} {start : StartMeaning}
    (h : startMeaning reader plan fingerprint references maxMemoryBytes = .ok start)
    (hle : maxMemoryBytes ≤ larger) :
    startMeaning reader plan fingerprint references larger =
      .ok { start with scan := start.scan.rebudget (larger / 8) } ∧
      start.scan.dataset.Within (larger / 8) := by
  obtain ⟨_, hschema, h⟩ := bind_eq_ok.mp h
  obtain ⟨state, hstate, h⟩ := bind_eq_ok.mp h
  obtain ⟨delta, hdelta, h⟩ := bind_eq_ok.mp h
  obtain ⟨prepared, hprepared, h⟩ := bind_eq_ok.mp h
  cases h
  constructor
  · refine bind_eq_ok.mpr ⟨_, hschema, bind_eq_ok.mpr ⟨_, hstate, bind_eq_ok.mpr ⟨_, hdelta,
      bind_eq_ok.mpr ⟨_, hprepared, ?_⟩⟩⟩⟩
    unfold ScanMeaning.rebudget
    dsimp only
    rw [DatasetState.fresh_rebudget]
  · refine List.forall_mem_map.mpr fun _ _ => ?_
    exact Nat.div_le_div_right hle

/-- A verdict reached under a budget is the verdict under every larger one. -/
theorem executionMeaning_mono {reader : BatchReader} {fingerprint : Bool}
    {references : ReferenceBindings} {maxMemoryBytes larger : ℕ}
    {meaning : Verdict × String × String}
    (h : executionMeaning reader plan fingerprint references maxMemoryBytes = .ok meaning)
    (hle : maxMemoryBytes ≤ larger) :
    executionMeaning reader plan fingerprint references larger = .ok meaning := by
  obtain ⟨hverdict, hplan, hschema⟩ := executionMeaning_eq_ok h
  obtain ⟨start, hstart, hverdict⟩ := bind_eq_ok.mp hverdict
  obtain ⟨last, hlast, hverdict⟩ := bind_eq_ok.mp hverdict
  obtain ⟨hstarts, hwithin⟩ := startMeaning_rebudget hstart hle
  have hlarger : verdictOf reader plan fingerprint references larger = .ok meaning.1 := by
    refine bind_eq_ok.mpr ⟨_, hstarts, bind_eq_ok.mpr ⟨_, foldlM_rebudget hlast hwithin, ?_⟩⟩
    rw [verdict_rebudget]
    exact hverdict
  exact bind_eq_ok.mpr ⟨_, hlarger, bind_eq_ok.mpr ⟨_, hplan, bind_eq_ok.mpr ⟨_, hschema, rfl⟩⟩⟩

/-- Two budgets under which there is a verdict give the same one. -/
theorem executionMeaning_unique {reader : BatchReader} {fingerprint : Bool}
    {references : ReferenceBindings} {maxMemoryBytes other : ℕ}
    {meaning meaning' : Verdict × String × String}
    (h : executionMeaning reader plan fingerprint references maxMemoryBytes = .ok meaning)
    (h' : executionMeaning reader plan fingerprint references other = .ok meaning') :
    meaning = meaning' := by
  rcases Nat.le_total maxMemoryBytes other with hle | hle
  · exact Except.ok.inj ((executionMeaning_mono h hle).symm.trans h')
  · exact Except.ok.inj (h.symm.trans (executionMeaning_mono h' hle))

/-- What two reports of one plan and dataset have in common, whatever their finding limits. -/
structure FastValidationReport.AgreesUpTo (limit limit' : ℕ) (report report' : FastValidationReport) :
    Prop where
  valid_eq : report.valid = report'.valid
  count_eq : report.violationCount = report'.violationCount
  findings : ∃ findings : List Finding, findings.length = report.violationCount ∧
    report.findings = findings.take limit ∧ report'.findings = findings.take limit'
  rows_eq : report.rows = report'.rows
  evaluated_eq : report.evaluatedColumns = report'.evaluatedColumns
  indices_eq : report.evaluatedIndices = report'.evaluatedIndices
  references_eq : report.references = report'.references
  plan_eq : report.compiledPlanDigest = report'.compiledPlanDigest
  schema_eq : report.schemaDigest = report'.schemaDigest

omit [Crates] in
theorem FastValidationReport.Renders.agrees {options options' : ExecutionOptions}
    {verdict : Verdict} {report report' : FastValidationReport}
    (h : report.Renders plan options verdict) (h' : report'.Renders plan options' verdict)
    (hplan : report.compiledPlanDigest = report'.compiledPlanDigest)
    (hschema : report.schemaDigest = report'.schemaDigest) :
    report.AgreesUpTo (findingLimit plan options) (findingLimit plan options') report' where
  valid_eq := by rw [Bool.eq_iff_iff, h.valid_iff, h'.valid_iff]
  count_eq := h.count_eq.trans h'.count_eq.symm
  findings := ⟨verdict.findings, h.count_eq.symm, h.findings_eq, h'.findings_eq⟩
  rows_eq := h.rows_eq.trans h'.rows_eq.symm
  evaluated_eq := h.evaluated_eq.trans h'.evaluated_eq.symm
  indices_eq := h.indices_eq.trans h'.indices_eq.symm
  references_eq := h.references_eq.trans h'.references_eq.symm
  plan_eq := hplan
  schema_eq := hschema

/-- **Resources do not change a report.**  Two executions of a plan over the same reader and the
same bound datasets that both end in a report agree, whatever their budgets, row count hints, spill
policies, finding limits and surroundings.  Where one ends in a report, another with at least its
memory can only be stopped by its surroundings. -/
theorem executeReaderInner_resources {ω ω' : Type} [Host ω] [Host ω'] {reader : BatchReader}
    {options options' : ExecutionOptions} {fingerprint : Bool} {references : ReferenceBindings}
    {world last : ω} {ended : FastValidationReport × Option Fingerprint}
    (h : executeReaderInner reader plan options fingerprint references world = .ok (ended, last))
    (world' : ω') :
    (∀ ended' last',
      executeReaderInner reader plan options' fingerprint references world' = .ok (ended', last') →
        ended.1.AgreesUpTo (findingLimit plan options) (findingLimit plan options') ended'.1 ∧
          ended.2 = ended'.2) ∧
    ∀ fault, options.resources.maxMemoryBytes ≤ options'.resources.maxMemoryBytes →
      executeReaderInner reader plan options' fingerprint references world' = .error fault →
        ExactFault fault := by
  obtain ⟨meaning, hmeaning, hrenders, hplan, hschema, hfingerprint⟩ :=
    (refines_executeReaderInnerWithAccount reader plan options fingerprint (.root options.resources)
      references rfl).of_ok h
  have hrefines := refines_executeReaderInnerWithAccount (ω := ω') reader plan options' fingerprint
    (.root options'.resources) references rfl
  constructor
  · intro ended' last' h'
    obtain ⟨meaning', hmeaning', hrenders', hplan', hschema', hfingerprint'⟩ := hrefines.of_ok h'
    obtain rfl := executionMeaning_unique hmeaning hmeaning'
    exact ⟨hrenders.agrees hrenders' (hplan.trans hplan'.symm) (hschema.trans hschema'.symm),
      hfingerprint.trans hfingerprint'.symm⟩
  · intro fault hle h'
    rcases hrefines.of_error h' with hexact | hfault
    · exact hexact
    · rw [executionMeaning_mono hmeaning hle] at hfault
      cases hfault

end States

/-- A rule over the ids 7 and 7, under two budgets. -/
theorem executeReaderInner_resources_sevens :
    letI := Crates.zeroDigests
    ∃ ended ended' world world',
      executeReaderInner (idReader [some 7, some 7]) (dominantIdsPlan 1) (limitedOptions 600) true []
        Granting.granting = .ok (ended, world) ∧
      executeReaderInner (idReader [some 7, some 7]) (dominantIdsPlan 1) (limitedOptions 9000) true []
        Granting.granting = .ok (ended', world') ∧
      ended.1.AgreesUpTo 10 10 ended'.1 ∧ ended.2 = ended'.2 := by
  let := Crates.zeroDigests
  obtain ⟨ended, world, hrun⟩ := exists_ended (m := executeReaderInner (idReader [some 7, some 7])
    (dominantIdsPlan 1) (limitedOptions 600) true []) (w := Granting.granting) (by decide +kernel)
  obtain ⟨ended', world', hrun'⟩ := exists_ended (m := executeReaderInner (idReader [some 7, some 7])
    (dominantIdsPlan 1) (limitedOptions 9000) true []) (w := Granting.granting) (by decide +kernel)
  exact ⟨ended, ended', world, world', hrun, hrun',
    (executeReaderInner_resources hrun Granting.granting).1 ended' world' hrun'⟩

end ProofFrame
