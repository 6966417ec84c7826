import ProofFrame.Execution.EmptyBatch
import ProofFrame.Execution.Integrity

/-!
# Batch boundaries do not matter

Two readers that deliver the same rows in different batches lead to the same
verdict.  Every way of cutting the rows into batches is compared with the one
that does not cut them at all.
-/

namespace ProofFrame

open Lib Lib.Run Lib.Ieee754 Distinct

variable [Crates] {whole left right : RecordBatch} {plan : CompiledContract}

/-! ## Two parts -/

/-- Two turns over the parts of a batch can be made in one. -/
theorem observeBatch_join (h : whole.Splits left right) {scan middle last : ScanMeaning}
    (hfingerprint : scan.fingerprint = none) (hleft : observeBatch plan scan (.ok left) = .ok middle)
    (hright : observeBatch plan middle (.ok right) = .ok last) :
    ∃ joined, observeBatch plan scan (.ok whole) = .ok joined ∧ joined.Agrees last := by
  obtain ⟨columns₁, row₁, dataset₁, null₁, h₁⟩ := ScanMeaning.turns_of_ok hfingerprint hleft
  obtain ⟨columns₂, row₂, dataset₂, null₂, h₂⟩ := ScanMeaning.turns_of_ok h₁.fingerprint_eq hright
  have hcolumns := h₂.columnRules
  have hrow := h₂.rowPlans
  have hdataset := h₂.dataset
  have hreferences := h₂.references
  rw [h₁.rows_eq] at hcolumns hrow hdataset hreferences
  rw [h₁.uniques_eq] at hcolumns
  obtain ⟨columns, hcolumns, hjoins⟩ :=
    (observeColumns_splits h scan.rows).2 columns₁ columns₂ h₁.columnRules hcolumns
  have hturns : ScanMeaning.Turns plan whole scan last columns (row₁ + row₂) (dataset₁ + dataset₂)
      (null₁ + null₂) := {
    schema_eq := h.left_eq.symm.trans h₁.schema_eq
    columnRules := hcolumns
    rowPlans := (observeRowPlans_combines h _ _ _).mpr ⟨_, _, h₁.rowPlans, hrow, rfl⟩
    dataset := (DatasetState.consecutive h _ _ _ _).mpr ⟨_, _, _, h₁.dataset, hdataset, rfl⟩
    references := (consecutive_observeEach (ReferenceEntry.consecutive h scan.rows) _ _ _).mpr
      ⟨_, _, _, h₁.references, hreferences, rfl⟩
    fingerprint_eq := h₂.fingerprint_eq
    evaluated_eq := by
      rw [h₂.evaluated_eq, h₁.evaluated_eq, hjoins.counts_eq]
      exact recordCounts_add (length_observeColumns h₁.columnRules)
        (length_observeColumns h₂.columnRules) _
    uniques_eq := h₂.uniques_eq.trans hjoins.uniques_eq.symm
    rows_eq := by rw [h₂.rows_eq, h₁.rows_eq, h.rows_eq, Nat.add_assoc]
    findings_eq := by
      rw [h₂.findings_eq, h₁.findings_eq, hjoins.findings_eq]
      ac_rfl }
  exact hturns.exists_ok (ScanMeaning.Agrees.refl scan) hfingerprint

/-- A turn over a batch can be made in two over its parts. -/
theorem observeBatch_split (h : whole.Splits left right) {scan last : ScanMeaning}
    (hfingerprint : scan.fingerprint = none)
    (hwhole : observeBatch plan scan (.ok whole) = .ok last) :
    ∃ middle last', observeBatch plan scan (.ok left) = .ok middle ∧
      observeBatch plan middle (.ok right) = .ok last' := by
  obtain ⟨columns, row, dataset, null, hturn⟩ := ScanMeaning.turns_of_ok hfingerprint hwhole
  obtain ⟨columns₁, columns₂, hcolumns₁, hcolumns₂⟩ :=
    (observeColumns_splits h scan.rows).1 columns hturn.columnRules
  obtain ⟨_, _, ⟨row₁, hrow₁, -⟩, hrow₂, -⟩ :=
    (observeRowPlans_combines h _ _ _).mp hturn.rowPlans
  obtain ⟨datasetMiddle, _, _, ⟨dataset₁, hdataset₁, -⟩, hdataset₂, -⟩ :=
    (DatasetState.consecutive h _ _ _ _).mp hturn.dataset
  obtain ⟨referencesMiddle, _, _, ⟨null₁, hreferences₁, -⟩, hreferences₂, -⟩ :=
    (consecutive_observeEach (ReferenceEntry.consecutive h scan.rows) _ _ _).mp hturn.references
  let middle : ScanMeaning :=
    { fingerprint := none
      findings := scan.findings ++ columns₁.findings ++ row₁ ++ dataset₁ ++ null₁
      evaluated := recordCounts plan.columns.zipIdx columns₁.counts scan.evaluated
      uniques := columns₁.uniques
      dataset := datasetMiddle
      references := referencesMiddle
      rows := scan.rows + left.rows }
  have hmiddle : observeBatch plan scan (.ok left) = .ok middle := by
    refine bind_eq_ok.mpr ⟨left, rfl, bind_eq_ok.mpr ⟨(),
      rejectIf_eq_ok.mpr (not_not.mpr (h.left_eq.trans hturn.schema_eq)), ?_⟩⟩
    rw [hfingerprint]
    exact bind_eq_ok.mpr ⟨none, rfl, bind_eq_ok.mpr ⟨columns₁, hcolumns₁,
      bind_eq_ok.mpr ⟨row₁, hrow₁, bind_eq_ok.mpr ⟨_, hdataset₁,
      bind_eq_ok.mpr ⟨_, hreferences₁, rfl⟩⟩⟩⟩⟩
  obtain ⟨row₂, hrow₂, -⟩ := hrow₂
  obtain ⟨dataset₂, hdataset₂, -⟩ := hdataset₂
  obtain ⟨null₂, hreferences₂, -⟩ := hreferences₂
  refine ⟨middle, _, hmiddle, bind_eq_ok.mpr ⟨right, rfl, bind_eq_ok.mpr ⟨(),
    rejectIf_eq_ok.mpr (not_not.mpr (h.right_eq.trans hturn.schema_eq)),
    bind_eq_ok.mpr ⟨none, rfl, bind_eq_ok.mpr ⟨columns₂, hcolumns₂,
    bind_eq_ok.mpr ⟨row₂, hrow₂, bind_eq_ok.mpr ⟨_, hdataset₂,
    bind_eq_ok.mpr ⟨_, hreferences₂, rfl⟩⟩⟩⟩⟩⟩⟩⟩

/-- Traversals that agree go on to agree. -/
theorem ScanMeaning.Agrees.observeBatch {scan scan' last : ScanMeaning} {batch : RecordBatch}
    (h : scan'.Agrees scan) (hfingerprint : scan.fingerprint = none)
    (hlast : observeBatch plan scan (.ok batch) = .ok last) :
    ∃ last', observeBatch plan scan' (.ok batch) = .ok last' ∧ last'.Agrees last := by
  obtain ⟨_, _, _, _, hturns⟩ := ScanMeaning.turns_of_ok hfingerprint hlast
  exact hturns.exists_ok h hfingerprint

theorem fingerprint_observeBatch {scan last : ScanMeaning} {batch : RecordBatch}
    (hfingerprint : scan.fingerprint = none)
    (h : observeBatch plan scan (.ok batch) = .ok last) : last.fingerprint = none := by
  obtain ⟨_, _, _, _, hturns⟩ := ScanMeaning.turns_of_ok hfingerprint h
  exact hturns.fingerprint_eq

/-! ## Many parts -/

/-- A traversal of batches. -/
def observeBatches (plan : CompiledContract) (batches : List RecordBatch) (scan : ScanMeaning) :
    Except Fault ScanMeaning :=
  batches.foldlM (fun scan batch => observeBatch plan scan (.ok batch)) scan

theorem observeBatches_cons_eq_ok {batch : RecordBatch} {batches : List RecordBatch}
    {scan last : ScanMeaning} : observeBatches plan (batch :: batches) scan = .ok last ↔
      ∃ middle, observeBatch plan scan (.ok batch) = .ok middle ∧
        observeBatches plan batches middle = .ok last := by
  unfold observeBatches
  rw [List.foldlM_cons, bind_eq_ok]

theorem ScanMeaning.Agrees.observeBatches {batches : List RecordBatch} :
    ∀ {scan scan' last : ScanMeaning}, scan'.Agrees scan → scan.fingerprint = none →
      observeBatches plan batches scan = .ok last →
      ∃ last', observeBatches plan batches scan' = .ok last' ∧ last'.Agrees last := by
  induction batches with
  | nil =>
      intro scan scan' last h _ hlast
      cases hlast
      exact ⟨scan', rfl, h⟩
  | cons batch batches ih =>
      intro scan scan' last h hfingerprint hlast
      obtain ⟨middle, hmiddle, hlast⟩ := observeBatches_cons_eq_ok.mp hlast
      obtain ⟨middle', hmiddle', hagrees⟩ := h.observeBatch hfingerprint hmiddle
      obtain ⟨last', hlast', hagrees'⟩ :=
        ih hagrees (fingerprint_observeBatch hfingerprint hmiddle) hlast
      exact ⟨last', observeBatches_cons_eq_ok.mpr ⟨middle', hmiddle', hlast'⟩, hagrees'⟩

/-- The batch does what the batches do. -/
structure RecordBatch.Merges (plan : CompiledContract) (whole : RecordBatch)
    (batches : List RecordBatch) : Prop where
  tuples_eq : whole.tuples = batches.flatMap RecordBatch.tuples
  join : ∀ scan last, scan.fingerprint = none → observeBatches plan batches scan = .ok last →
    ∃ joined, observeBatch plan scan (.ok whole) = .ok joined ∧ joined.Agrees last
  split : ∀ scan last, scan.fingerprint = none → observeBatch plan scan (.ok whole) = .ok last →
    ∃ last', observeBatches plan batches scan = .ok last'

/-- Batches of one schema can be merged into one. -/
theorem exists_merges (plan : CompiledContract) {schema : Schema} {batches : List RecordBatch} :
    ∀ batch : RecordBatch, (∀ other ∈ batch :: batches, other.schema = schema) →
      ∃ whole : RecordBatch, whole.schema = schema ∧ whole.Merges plan (batch :: batches) := by
  induction batches with
  | nil =>
      intro batch hschema
      refine ⟨batch, hschema batch (List.mem_cons_self ..), ?_, ?_, ?_⟩
      · rw [List.flatMap_singleton]
      · intro scan last _ h
        obtain ⟨middle, hmiddle, h⟩ := observeBatches_cons_eq_ok.mp h
        cases h
        exact ⟨last, hmiddle, .refl last⟩
      · intro scan last _ h
        exact ⟨last, observeBatches_cons_eq_ok.mpr ⟨last, h, rfl⟩⟩
  | cons next batches ih =>
      intro batch hschema
      obtain ⟨rest, hrest, hmerges⟩ :=
        ih next fun other hother => hschema other (List.mem_cons_of_mem _ hother)
      have hbatch := hschema batch (List.mem_cons_self ..)
      obtain ⟨whole, hsplits⟩ := exists_splits (hrest.trans hbatch.symm)
      refine ⟨whole, hsplits.left_eq.symm.trans hbatch, ?_, ?_, ?_⟩
      · rw [hsplits.tuples_eq, hmerges.tuples_eq]
        rfl
      · intro scan last hfingerprint h
        obtain ⟨middle, hmiddle, h⟩ := observeBatches_cons_eq_ok.mp h
        obtain ⟨joined, hjoined, hagrees⟩ :=
          hmerges.join middle last (fingerprint_observeBatch hfingerprint hmiddle) h
        obtain ⟨joined', hjoined', hagrees'⟩ := observeBatch_join hsplits hfingerprint hmiddle hjoined
        exact ⟨joined', hjoined', hagrees'.trans hagrees⟩
      · intro scan last hfingerprint h
        obtain ⟨middle, last', hmiddle, hlast'⟩ := observeBatch_split hsplits hfingerprint h
        obtain ⟨last'', hlast''⟩ :=
          hmerges.split middle last' (fingerprint_observeBatch hfingerprint hmiddle) hlast'
        exact ⟨last'', observeBatches_cons_eq_ok.mpr ⟨middle, hmiddle, hlast''⟩⟩

/-! ## Two ways of cutting the rows -/

omit [Crates] in
theorem rows_eq_zero {batches : List RecordBatch} (h : batches.flatMap RecordBatch.tuples = [])
    {batch : RecordBatch} (hbatch : batch ∈ batches) : batch.rows = 0 := by
  rw [← RecordBatch.length_tuples, List.flatMap_eq_nil_iff.mp h batch hbatch, List.length_nil]

/-- Batches without rows change nothing. -/
theorem observeBatches_idle {batches : List RecordBatch} :
    (∀ batch ∈ batches, batch.rows = 0) → ∀ {scan last : ScanMeaning}, scan.fingerprint = none →
      scan.uniques.length = plan.columns.length →
      scan.dataset.nullCounts.length = scan.dataset.nullRatios.length →
      observeBatches plan batches scan = .ok last → last = scan := by
  induction batches with
  | nil =>
      intro _ scan last _ _ _ h
      cases h
      rfl
  | cons batch batches ih =>
      intro hrows scan last hfingerprint huniques hcounts h
      obtain ⟨middle, hmiddle, hrest⟩ := observeBatches_cons_eq_ok.mp h
      obtain rfl := observeBatch_idle (hrows batch (List.mem_cons_self ..)) hfingerprint huniques
        hcounts hmiddle
      exact ih (fun other hother => hrows other (List.mem_cons_of_mem _ hother)) hfingerprint
        huniques hcounts hrest

section Cuts

variable {schema : Schema} {batches batches' : List RecordBatch} {scan last last' : ScanMeaning}

/-- Two ways of cutting the same rows into batches. -/
structure SameRows (schema : Schema) (batches batches' : List RecordBatch) : Prop where
  schema_left : ∀ batch ∈ batches, batch.schema = schema
  schema_right : ∀ batch ∈ batches', batch.schema = schema
  tuples_eq : batches.flatMap RecordBatch.tuples = batches'.flatMap RecordBatch.tuples

/-- A cut that can be traversed shows that any other can, as long as there is a row. -/
theorem SameRows.exists_observeBatches (h : SameRows schema batches batches')
    (hrows : batches.flatMap RecordBatch.tuples ≠ []) (hfingerprint : scan.fingerprint = none)
    (hlast : observeBatches plan batches scan = .ok last) :
    ∃ last', observeBatches plan batches' scan = .ok last' := by
  rcases batches with _ | ⟨batch, batches⟩
  · exact absurd rfl hrows
  rcases batches' with _ | ⟨batch', batches'⟩
  · exact absurd h.tuples_eq hrows
  obtain ⟨whole, hschema, hmerges⟩ := exists_merges plan batch h.schema_left
  obtain ⟨whole', hschema', hmerges'⟩ := exists_merges plan batch' h.schema_right
  obtain rfl : whole = whole' := RecordBatch.ext_tuples (hschema.trans hschema'.symm)
    (by rw [hmerges.tuples_eq, hmerges'.tuples_eq, h.tuples_eq])
  obtain ⟨joined, hjoined, -⟩ := hmerges.join scan last hfingerprint hlast
  exact hmerges'.split scan joined hfingerprint hjoined

/-- Traversals of two cuts find the same. -/
theorem SameRows.agrees (h : SameRows schema batches batches')
    (hfingerprint : scan.fingerprint = none) (huniques : scan.uniques.length = plan.columns.length)
    (hcounts : scan.dataset.nullCounts.length = scan.dataset.nullRatios.length)
    (hlast : observeBatches plan batches scan = .ok last)
    (hlast' : observeBatches plan batches' scan = .ok last') : last.Agrees last' := by
  by_cases hrows : batches.flatMap RecordBatch.tuples = []
  · rw [observeBatches_idle (fun _ hbatch => rows_eq_zero hrows hbatch) hfingerprint huniques hcounts
        hlast,
      observeBatches_idle (fun _ hbatch => rows_eq_zero (h.tuples_eq ▸ hrows) hbatch) hfingerprint
        huniques hcounts hlast']
    exact .refl scan
  rcases batches with _ | ⟨batch, batches⟩
  · exact absurd rfl hrows
  rcases batches' with _ | ⟨batch', batches'⟩
  · exact absurd h.tuples_eq hrows
  obtain ⟨whole, hschema, hmerges⟩ := exists_merges plan batch h.schema_left
  obtain ⟨whole', hschema', hmerges'⟩ := exists_merges plan batch' h.schema_right
  obtain rfl : whole = whole' := RecordBatch.ext_tuples (hschema.trans hschema'.symm)
    (by rw [hmerges.tuples_eq, hmerges'.tuples_eq, h.tuples_eq])
  obtain ⟨joined, hjoined, hagrees⟩ := hmerges.join scan last hfingerprint hlast
  obtain ⟨joined', hjoined', hagrees'⟩ := hmerges'.join scan last' hfingerprint hlast'
  rw [hjoined] at hjoined'
  cases hjoined'
  exact hagrees.symm.trans hagrees'

end Cuts

/-! ## Verdicts -/

/-- Two verdicts that say the same, though not in the same order. -/
structure Verdict.Agrees (verdict verdict' : Verdict) : Prop where
  findings_perm : verdict.findings.Perm verdict'.findings
  evaluated_eq : verdict.evaluated = verdict'.evaluated
  rows_eq : verdict.rows = verdict'.rows
  references_eq : verdict.references = verdict'.references

omit [Crates] in
theorem ScanMeaning.Agrees.verdict {scan scan' : ScanMeaning} (h : scan.Agrees scan')
    (prepared : List (PreparedReference (List Record))) (counted : List (String × ℕ)) :
    (scan.verdict plan prepared counted).Agrees (scan'.verdict plan prepared counted) := by
  constructor
  · unfold ScanMeaning.verdict
    dsimp only
    rw [h.uniques_eq, h.references_eq, h.dataset_eq, h.rows_eq]
    exact (((h.findings_perm.append_right _).append_right _).append_right _).append_right _
  · exact h.evaluated_eq
  · exact h.rows_eq
  · unfold ScanMeaning.verdict
    dsimp only
    rw [h.references_eq]

section Readers

variable {reader reader' : BatchReader} {references : ReferenceBindings} {maxMemoryBytes : ℕ}
  {rows : List Row}

theorem startMeaning_congr (hschema : reader'.schema = reader.schema) :
    startMeaning reader' plan false references maxMemoryBytes =
      startMeaning reader plan false references maxMemoryBytes := by
  unfold startMeaning
  rw [hschema]

/-- What holds of every traversal before its first batch. -/
theorem startMeaning_eq_ok {start : StartMeaning}
    (h : startMeaning reader plan false references maxMemoryBytes = .ok start) :
    start.scan.fingerprint = none ∧ start.scan.uniques.length = plan.columns.length ∧
      start.scan.dataset.nullCounts.length = start.scan.dataset.nullRatios.length := by
  obtain ⟨_, -, h⟩ := bind_eq_ok.mp h
  obtain ⟨fingerprint, hfingerprint, h⟩ := bind_eq_ok.mp h
  obtain ⟨_, -, h⟩ := bind_eq_ok.mp h
  obtain ⟨_, -, h⟩ := bind_eq_ok.mp h
  cases hfingerprint
  cases h
  refine ⟨rfl, ?_, ?_⟩
  · exact List.length_map ..
  · exact List.length_replicate ..

theorem verdictOf_eq_ok {batches : List RecordBatch} (hitems : reader.items = batches.map .ok)
    {verdict : Verdict} :
    verdictOf reader plan false references maxMemoryBytes = .ok verdict ↔ ∃ start scan,
      startMeaning reader plan false references maxMemoryBytes = .ok start ∧
      observeBatches plan batches start.scan = .ok scan ∧
      verdict = scan.verdict plan start.prepared start.counted := by
  unfold verdictOf observeBatches
  rw [hitems]
  simp only [List.foldlM_map]
  constructor
  · intro h
    obtain ⟨start, hstart, h⟩ := bind_eq_ok.mp h
    obtain ⟨scan, hscan, h⟩ := bind_eq_ok.mp h
    cases h
    exact ⟨start, scan, hstart, hscan, rfl⟩
  · rintro ⟨start, scan, hstart, hscan, rfl⟩
    exact bind_eq_ok.mpr ⟨start, hstart, bind_eq_ok.mpr ⟨scan, hscan, rfl⟩⟩

/-- The meaning of an execution does not depend on the batch boundaries. -/
theorem verdictOf_agrees (hschema : reader'.schema = reader.schema) (hrows : reader.HasRows rows)
    (hrows' : reader'.HasRows rows) {verdict verdict' : Verdict}
    (h : verdictOf reader plan false references maxMemoryBytes = .ok verdict)
    (h' : verdictOf reader' plan false references maxMemoryBytes = .ok verdict') :
    verdict.Agrees verdict' := by
  obtain ⟨batches, hitems, hbatches, rfl⟩ := hrows
  obtain ⟨batches', hitems', hbatches', htuples⟩ := hrows'
  obtain ⟨start, scan, hstart, hscan, rfl⟩ := (verdictOf_eq_ok hitems).mp h
  obtain ⟨start', scan', hstart', hscan', rfl⟩ := (verdictOf_eq_ok hitems').mp h'
  rw [startMeaning_congr hschema, hstart] at hstart'
  cases hstart'
  obtain ⟨hfingerprint, huniques, hcounts⟩ := startMeaning_eq_ok hstart
  have hsame : SameRows reader.schema batches batches' :=
    ⟨hbatches, fun batch hbatch => (hbatches' batch hbatch).trans hschema, htuples⟩
  exact (hsame.agrees hfingerprint huniques hcounts hscan hscan').verdict _ _

/-- Where there is a row, an execution of the one reader has a meaning if one of the other has. -/
theorem exists_verdictOf (hschema : reader'.schema = reader.schema) (hrows : reader.HasRows rows)
    (hrows' : reader'.HasRows rows) (hnonempty : rows ≠ []) {verdict : Verdict}
    (h : verdictOf reader plan false references maxMemoryBytes = .ok verdict) :
    ∃ verdict', verdictOf reader' plan false references maxMemoryBytes = .ok verdict' := by
  obtain ⟨batches, hitems, hbatches, rfl⟩ := hrows
  obtain ⟨batches', hitems', hbatches', htuples⟩ := hrows'
  obtain ⟨start, scan, hstart, hscan, rfl⟩ := (verdictOf_eq_ok hitems).mp h
  obtain ⟨hfingerprint, -, -⟩ := startMeaning_eq_ok hstart
  have hsame : SameRows reader.schema batches batches' :=
    ⟨hbatches, fun batch hbatch => (hbatches' batch hbatch).trans hschema, htuples⟩
  obtain ⟨scan', hscan'⟩ := hsame.exists_observeBatches hnonempty hfingerprint hscan
  exact ⟨_, (verdictOf_eq_ok hitems').mpr
    ⟨start, scan', (startMeaning_congr hschema).trans hstart, hscan', rfl⟩⟩

end Readers

/-! ## Reports -/

/-- Two reports that say the same of a dataset. -/
structure FastValidationReport.Agrees (report report' : FastValidationReport) : Prop where
  valid_eq : report.valid = report'.valid
  count_eq : report.violationCount = report'.violationCount
  truncated_eq : report.truncated = report'.truncated
  rows_eq : report.rows = report'.rows
  evaluated_eq : report.evaluatedColumns = report'.evaluatedColumns
  indices_eq : report.evaluatedIndices = report'.evaluatedIndices
  references_eq : report.references = report'.references
  findings_perm : report.truncated = false → report.findings.Perm report'.findings

omit [Crates] in
/-- A report that is not truncated shows all findings. -/
theorem FastValidationReport.Renders.findings_of_not_truncated {options : ExecutionOptions}
    {verdict : Verdict} {report : FastValidationReport} (h : report.Renders plan options verdict)
    (htruncated : report.truncated = false) : report.findings = verdict.findings := by
  have hlength : ¬ report.findings.length < report.violationCount := by
    rw [← h.truncated_iff, htruncated]
    exact Bool.false_ne_true
  rw [h.findings_eq, h.count_eq, List.length_take] at hlength
  rw [h.findings_eq]
  exact List.take_of_length_le (by omega)

omit [Crates] in
theorem Verdict.Agrees.reports {options : ExecutionOptions} {verdict verdict' : Verdict}
    {report report' : FastValidationReport} (h : verdict.Agrees verdict')
    (hrenders : report.Renders plan options verdict)
    (hrenders' : report'.Renders plan options verdict') : report.Agrees report' := by
  have hcount : report.violationCount = report'.violationCount := by
    rw [hrenders.count_eq, hrenders'.count_eq, h.findings_perm.length_eq]
  have hlength : report.findings.length = report'.findings.length := by
    rw [hrenders.findings_eq, hrenders'.findings_eq, List.length_take, List.length_take,
      h.findings_perm.length_eq]
  have htruncated : report.truncated = report'.truncated := by
    rw [Bool.eq_iff_iff, hrenders.truncated_iff, hrenders'.truncated_iff, hcount, hlength]
  constructor
  case valid_eq =>
    rw [Bool.eq_iff_iff, hrenders.valid_iff, hrenders'.valid_iff, ← List.length_eq_zero_iff,
      ← List.length_eq_zero_iff, h.findings_perm.length_eq]
  case count_eq => exact hcount
  case truncated_eq => exact htruncated
  case rows_eq => rw [hrenders.rows_eq, hrenders'.rows_eq, h.rows_eq]
  case evaluated_eq => rw [hrenders.evaluated_eq, hrenders'.evaluated_eq, h.evaluated_eq]
  case indices_eq => rw [hrenders.indices_eq, hrenders'.indices_eq]
  case references_eq => rw [hrenders.references_eq, hrenders'.references_eq, h.references_eq]
  case findings_perm =>
    intro hfalse
    rw [hrenders.findings_of_not_truncated hfalse,
      hrenders'.findings_of_not_truncated (htruncated ▸ hfalse)]
    exact h.findings_perm

/-- **Batch boundaries do not matter.**  Two readers deliver the same rows in different batches.  If
the runs of a plan over them both end in a report, the reports agree.  If there is a row and the one
run ends in a report, only its surroundings can keep the other from ending in one. -/
theorem executeReaderWithReferences_batches_independent {ω ω' : Type} [Host ω] [Host ω']
    {reader reader' : BatchReader} {rows : List Row} (hschema : reader'.schema = reader.schema)
    (hrows : reader.HasRows rows) (hrows' : reader'.HasRows rows) {plan : CompiledContract}
    {options : ExecutionOptions} {references : ReferenceBindings} {world last : ω}
    {report : FastValidationReport}
    (h : executeReaderWithReferences reader plan options references world = .ok (report, last))
    (world' : ω') :
    (∀ report' last', executeReaderWithReferences reader' plan options references world' =
      .ok (report', last') → report.Agrees report') ∧
    (rows ≠ [] → ∀ fault, executeReaderWithReferences reader' plan options references world' =
      .error fault → ExactFault fault) := by
  obtain ⟨meaning, hmeaning, hrenders⟩ :=
    (refines_executeReaderWithReferences reader plan options references).of_ok h
  obtain ⟨hverdict, hplan, hdigest⟩ := executionMeaning_eq_ok hmeaning
  refine ⟨fun report' last' h' => ?_, fun hnonempty fault h' => ?_⟩
  · obtain ⟨meaning', hmeaning', hrenders'⟩ :=
      (refines_executeReaderWithReferences reader' plan options references).of_ok h'
    obtain ⟨hverdict', -, -⟩ := executionMeaning_eq_ok hmeaning'
    exact (verdictOf_agrees hschema hrows hrows' hverdict hverdict').reports hrenders hrenders'
  · rcases (refines_executeReaderWithReferences reader' plan options references).of_error h' with
      hfault | hmeaning'
    · exact hfault
    · obtain ⟨verdict', hverdict'⟩ := exists_verdictOf hschema hrows hrows' hnonempty hverdict
      have hok : executionMeaning reader' plan false references options.resources.maxMemoryBytes =
          .ok (verdict', meaning.2) :=
        bind_eq_ok.mpr ⟨verdict', hverdict', bind_eq_ok.mpr ⟨meaning.2.1, hplan,
          bind_eq_ok.mpr ⟨meaning.2.2, hdigest, rfl⟩⟩⟩
      rw [hok] at hmeaning'
      cases hmeaning'

/-- Every id must be there, and no two may be equal. -/
def uniqueIdsPlan : CompiledContract where
  schema := (idReader []).schema
  columns := [{
    columnIndex := 0, field := (ArrowArray.ofInt64 "id" []).field, kernel := .i64
    rules := {
      required := true, notNull := true, unique := true, min := none, max := none, nan := .allow
      validateNan := false, pattern := none, allowed := none, minLength := none
      maxLength := none } }]
  rowPlans := []
  datasetPlan := .empty
  version := .v2
  maxFindings := 10

/-- A dataset of one column `id` in batches. -/
def idReaderIn (parts : List (List (Option Int64))) : BatchReader :=
  { schema := (idReader []).schema
    items := parts.map fun values => .ok (RecordBatch.ofColumn (.ofInt64 "id" values)) }

omit [Crates] in
theorem tuples_ofColumn (array : ArrowArray) :
    (RecordBatch.ofColumn array).tuples = array.cells.map fun cell => [cell] := by
  have hcolumn : ProofFrame.column (RecordBatch.ofColumn array).tuples 0 = array.cells :=
    RecordBatch.column_tuples rfl
  have hwidth : ∀ row ∈ (RecordBatch.ofColumn array).tuples, row.length = 1 :=
    fun row hrow => RecordBatch.length_of_mem_tuples hrow
  refine rows_ext hwidth ?_ ?_ ?_
  · simp
  · rw [RecordBatch.length_tuples, List.length_map]
    rfl
  · intro index hindex
    obtain rfl : index = 0 := by omega
    rw [hcolumn, ProofFrame.column, List.map_map]
    exact (List.map_id _).symm

omit [Crates] in
theorem hasRows_idReaderIn (parts : List (List (Option Int64))) :
    (idReaderIn parts).HasRows
      (parts.flatten.map fun value => [value.map fun value => .scalar (.signed value.toInt)]) := by
  refine ⟨parts.map fun values => RecordBatch.ofColumn (.ofInt64 "id" values), ?_, ?_, ?_⟩
  · rw [List.map_map]
    rfl
  · intro batch hbatch
    obtain ⟨values, -, rfl⟩ := List.mem_map.mp hbatch
    rfl
  · rw [List.flatMap_map, List.map_flatten, List.flatMap_def]
    congr 1
    apply List.map_congr_left
    intro values _
    rw [tuples_ofColumn, ArrowArray.ofInt64, List.map_map]
    rfl

omit [Crates] in
/-- The ids 7, null and 7, in one batch and in three of which one is empty. -/
theorem executeReaderWithReferences_batches_independent_sevens :
    letI := Crates.zeroDigests
    ∃ report report', report.Agrees report' ∧
      (executeReaderWithReferences (idReaderIn [[some 7, none, some 7]]) uniqueIdsPlan smallOptions
        [] Granting.granting).map Prod.fst = .ok report ∧
      (executeReaderWithReferences (idReaderIn [[some 7], [], [none, some 7]]) uniqueIdsPlan
        smallOptions [] Granting.granting).map Prod.fst = .ok report' := by
  let := Crates.zeroDigests
  obtain ⟨report, world, hrun⟩ := exists_ended (m := executeReaderWithReferences
    (idReaderIn [[some 7, none, some 7]]) uniqueIdsPlan smallOptions []) (w := Granting.granting)
    (by decide +kernel)
  obtain ⟨report', world', hrun'⟩ := exists_ended (m := executeReaderWithReferences
    (idReaderIn [[some 7], [], [none, some 7]]) uniqueIdsPlan smallOptions [])
    (w := Granting.granting) (by decide +kernel)
  refine ⟨report, report', ?_, ?_, ?_⟩
  · have hschema : (idReaderIn [[some 7], [], [none, some 7]]).schema =
        (idReaderIn [[some 7, none, some 7]]).schema := rfl
    exact (executeReaderWithReferences_batches_independent hschema (hasRows_idReaderIn _)
      (hasRows_idReaderIn _) hrun Granting.granting).1 report' world' hrun'
  · rw [hrun]
    rfl
  · rw [hrun']
    rfl

end ProofFrame
