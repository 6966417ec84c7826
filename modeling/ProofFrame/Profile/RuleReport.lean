import ProofFrame.Diff.Agreement
import ProofFrame.Execution.Integrity
import ProofFrame.Profile.RuleMeaning

/-!
# What a full validation reports

A validation that ends with a report shows the findings of the rows, as many of
them as the contract keeps, next to the profile of the dataset.  It ends without
one only for an error: the rules find the set and the pattern they ask for, and
every cell the state of its column.
-/

namespace ProofFrame

open Lib Lib.Run Lib.Ieee754 Distinct
open Diff (DiffCrates valueForRules IsError isError_error isError_of_coded
  failsWith_canonicalValueBytes failsWith_valueForRules)

/-! ## Reports -/

/-- The report shows the findings, with as many of them as the limit allows. -/
structure ValidationReport.Shows (limit : ℕ) (findings : List Finding)
    (report : ValidationReport) : Prop where
  valid_iff : report.valid = true ↔ findings = []
  count_eq : report.violationCount = findings.length
  findings_eq : report.findings = findings.take limit
  truncated_iff : report.truncated = true ↔ report.findings.length < report.violationCount

/-! ## Errors -/

section Errors

variable [DiffCrates] {rules : String → Option ColumnContract}

theorem failsWith_aboutValue {dataType : DataType} {value : Value} {globalRow : ℕ}
    {column rule : String} {message : String → String} :
    FailsWith IsError (([·]) <$> aboutValue dataType value globalRow column rule message) := by
  apply FailsWith.map
  exact (failsWith_valueForRules dataType value).bind fun _ _ => failsWith_ok

theorem failsWith_aboutBound {dataType : DataType} {value : Value} {globalRow : ℕ}
    {column rule : String} {message : F64 → String → String} {broken : Option F64} :
    FailsWith IsError (aboutBound dataType value globalRow column rule message broken) := by
  cases broken with
  | none => exact failsWith_ok
  | some bound => exact failsWith_aboutValue

theorem failsWith_valueFindings (rule : ColumnContract) {dataType : DataType} {value : Value}
    {globalRow : ℕ} {column : String} {repeats : Bool} :
    FailsWith IsError (rule.valueFindings dataType value globalRow column repeats) := by
  unfold ColumnContract.valueFindings
  refine FailsWith.bind ?_ fun _ _ => FailsWith.bind ?_ fun _ _ =>
    FailsWith.bind ?_ fun _ _ => failsWith_ok
  · unfold ColumnContract.uniqueFindings
    split
    · exact failsWith_aboutValue
    · exact failsWith_ok
  · unfold ColumnContract.numericFindings
    exact failsWith_aboutBound.bind fun _ _ => failsWith_aboutBound.bind fun _ _ => failsWith_ok
  · unfold ColumnContract.textFindings
    split
    · exact failsWith_ok
    · exact (failsWith_valueForRules dataType value).bind fun _ _ => failsWith_ok

theorem failsWith_checkCell {globalRow : ℕ} {seen : RulesSeen} {entry : Field × Option Value} :
    FailsWith IsError (checkCell rules globalRow seen entry) := by
  unfold checkCell
  dsimp only
  split
  · exact failsWith_ok
  · exact failsWith_ok
  · exact (failsWith_canonicalValueBytes _ _).bind fun _ _ =>
      (failsWith_valueFindings _).bind fun _ _ => failsWith_ok

theorem length_states_meanRuledCell {row : ℕ} {entry : ArrowArray × ℕ}
    {state next : Inspection (List Record) × RulesSeen}
    (h : meanRuledCell rules row state entry = .ok next) :
    next.1.states.length = state.1.states.length := by
  obtain ⟨hmean, -⟩ := meanRuledCell_eq_ok.mp h
  obtain ⟨_, -, hmean⟩ := bind_eq_ok.mp hmean
  obtain ⟨_, -, hmean⟩ := bind_eq_ok.mp hmean
  obtain ⟨cell, -, hmean⟩ := bind_eq_ok.mp hmean
  cases cell with
  | none =>
      rw [← Except.ok.inj hmean]
      exact List.length_set
  | some value =>
      obtain ⟨_, -, hmean⟩ := bind_eq_ok.mp hmean
      rw [← Except.ok.inj hmean]
      exact List.length_set

/-- A cell of a batch is there, and so is the state of its column. -/
theorem failsWith_meanRuledCell {batch : RecordBatch} {row : ℕ} (hrow : row < batch.rows)
    {entry : ArrowArray × ℕ} (hentry : entry ∈ batch.columns.zipIdx)
    {state : Inspection (List Record) × RulesSeen}
    (hstates : state.1.states.length = batch.columns.length) :
    FailsWith IsError (meanRuledCell rules row state entry) := by
  have hcell : FailsWith IsError (entry.1.cell row) := by
    rw [ArrowArray.cell, RecordBatch.cells_getElem hrow (List.fst_mem_of_mem_zipIdx hentry)]
    exact failsWith_ok
  have hindex : entry.2 < state.1.states.length := by
    rw [hstates]
    exact List.snd_lt_of_mem_zipIdx hentry
  unfold meanRuledCell
  refine FailsWith.bind ?_ fun _ _ => hcell.bind fun _ _ => failsWith_checkCell.bind fun _ _ =>
    failsWith_ok
  -- the hash of the cell, the state of its column, and the key of its value
  unfold meanCell
  refine FailsWith.bind ?_ fun _ _ => FailsWith.bind ?_ fun _ _ => hcell.bind fun cell _ => ?_
  · exact (hcell.bind fun _ _ => (failsWith_canonicalValueBytes _ _).bind fun _ _ =>
      failsWith_ok).bind fun _ _ => failsWith_ok
  · rw [List.getElem?_eq_getElem hindex]
    exact failsWith_ok
  · cases cell with
    | none => exact failsWith_ok
    | some value => exact (failsWith_canonicalValueBytes _ _).bind fun _ _ => failsWith_ok

theorem length_states_meanRuledRow {batch : RecordBatch} {row : ℕ}
    {state next : Inspection (List Record) × RulesSeen}
    (h : batch.columns.zipIdx.foldlM (meanRuledCell rules row) state = .ok next) :
    next.1.states.length = state.1.states.length := by
  apply foldlM_invariant (P := fun _ (current : Inspection (List Record) × RulesSeen) =>
    current.1.states.length = state.1.states.length)
    rfl _ h
  intro _ entry current next _ hcurrent hnext
  rw [length_states_meanRuledCell hnext, hcurrent]

theorem failsWith_meanRuledBatch {schema : Schema} {item : Except String RecordBatch}
    {state : Inspection (List Record) × RulesSeen}
    (hstates : state.1.states.length = schema.fields.length) :
    FailsWith IsError (meanRuledBatch schema rules state item) := by
  have hitem : FailsWith IsError (arrowItem item) := by
    cases item with
    | ok batch => exact failsWith_ok
    | error message => exact failsWith_error (isError_error _)
  refine hitem.bind fun batch _ => (failsWith_rejectIf fun _ => isError_error _).bind fun _ hsame =>
    FailsWith.bind ?_ fun _ _ => failsWith_ok
  have hcolumns : state.1.states.length = batch.columns.length := by
    rw [hstates, ← not_not.mp (rejectIf_eq_ok.mp hsame), ← batch.fields_eq, List.length_map]
  refine failsWith_foldlM_of (P := fun current : Inspection (List Record) × RulesSeen =>
    current.1.states.length = batch.columns.length) ?_ ?_ hcolumns
  · intro row hrow current hcurrent
    refine failsWith_foldlM_of (P := fun current : Inspection (List Record) × RulesSeen =>
      current.1.states.length = batch.columns.length) ?_ ?_ hcurrent
    · intro entry hentry current hcurrent
      exact failsWith_meanRuledCell (List.mem_range.mp hrow) hentry hcurrent
    · intro entry _ current next hcurrent hnext
      rw [length_states_meanRuledCell hnext, hcurrent]
  · intro row _ current next hcurrent hnext
    rw [length_states_meanRuledRow hnext, hcurrent]

theorem length_states_meanRuledBatch {schema : Schema} {item : Except String RecordBatch}
    {state next : Inspection (List Record) × RulesSeen}
    (h : meanRuledBatch schema rules state item = .ok next) :
    next.1.states.length = state.1.states.length := by
  obtain ⟨batch, -, h⟩ := bind_eq_ok.mp h
  obtain ⟨_, -, h⟩ := bind_eq_ok.mp h
  obtain ⟨last, hlast, h⟩ := bind_eq_ok.mp h
  rw [← Except.ok.inj h]
  apply foldlM_invariant (P := fun _ (current : Inspection (List Record) × RulesSeen) =>
    current.1.states.length = state.1.states.length)
    rfl _ hlast
  intro _ row current next _ hcurrent hnext
  rw [length_states_meanRuledRow hnext, hcurrent]

theorem failsWith_meanRuledBatches {schema : Schema} {items : List (Except String RecordBatch)}
    {state : Inspection (List Record) × RulesSeen}
    (hstates : state.1.states.length = schema.fields.length) :
    FailsWith IsError (items.foldlM (meanRuledBatch schema rules) state) := by
  refine failsWith_foldlM_of (P := fun current : Inspection (List Record) × RulesSeen =>
    current.1.states.length = schema.fields.length) ?_ ?_ hstates
  · intro item _ current hcurrent
    exact failsWith_meanRuledBatch hcurrent
  · intro item _ current next hcurrent hnext
    rw [length_states_meanRuledBatch hnext, hcurrent]

theorem failsWith_checkPatterns {columns : List (String × ColumnContract)} :
    FailsWith IsError (columns.forM checkPattern) := by
  induction columns with
  | nil => exact failsWith_ok
  | cons entry columns ih =>
      refine FailsWith.bind ?_ fun _ _ => ih
      unfold checkPattern
      split
      · exact failsWith_ok
      · exact failsWith_error (isError_error _)

end Errors

/-! ## The report of a dataset -/

section Report

variable {ω : Type} [Resuming ω] [DiffCrates] {reader : BatchReader} {rows : List Row}
  {contract : Contract}

/-- A traversal ends in an error, or with the profile of its dataset and the findings of its rows. -/
theorem sat_inspectRuledBatches (hrows : reader.HasRows rows) :
    Sat (inspectRuledBatches reader (some contract) .exact .default none .auto : Run ω Fault _)
      (fun inspected => ∃ inspection findings,
        reader.items.foldlM (meanBatch reader.schema) (meanStart reader.schema .exact) =
          .ok inspection ∧
        (meanProfile reader.schema inspection).Degrades inspected.1 ∧
        contract.findings reader.schema rows = .ok findings ∧
        inspected.2.Shows contract.maxFindings findings) IsError := by
  obtain ⟨batches, hitems, hschema, rfl⟩ := hrows
  have hstates : (meanStart reader.schema .exact).states.length = reader.schema.fields.length :=
    List.length_map _
  unfold inspectRuledBatches
  apply Sat.bind ((sat_startInspection reader.schema .exact .default none .auto).mono
    (fun _ h => h) fun _ h => isError_of_coded h)
  intro inspection hinspection
  -- the environment cannot fail a preparation, only a pattern can
  have hprepare := @refines_prepareValidation ω _ _ (fun _ => False) reader.schema contract
  apply Sat.bind (Sat.mono hprepare (fun _ h => h) fun _ h =>
    failsWith_checkPatterns _ (h.resolve_left id))
  rintro rules ⟨_, hpatterns, hrules⟩
  have hscan := @refines_foldlM ω _ _ _ Unbudgeted (Validates (some contract) contract.maxFindings)
    _ _ _ reader.items (fun item _ model state h =>
      refines_inspectRuledBatch reader.schema h item) (inspection, rules)
    (meanStart reader.schema .exact,
      { findings := missingColumns reader.schema contract.columns, seen := [] })
    ⟨hinspection, hrules⟩
  apply Sat.bind (Sat.mono hscan (fun _ h => h) fun _ h => h.elim isError_of_coded
    (failsWith_meanRuledBatches hstates _))
  rintro ⟨inspected, validated⟩ ⟨⟨last, seen⟩, hlast, hmodels, hholds⟩
  rw [hitems, meanRuledBatches_eq_ok hschema] at hlast
  apply ((sat_finishProfile reader.schema hmodels).mono (fun _ h => h) fun _ h =>
    isError_of_coded h).bind
  intro profile hprofile
  refine sat_pure ⟨last, seen.findings, ?_, hprofile, ?_, hholds.records.shows_finish⟩
  · rw [hitems]
    exact hlast.1
  · exact bind_eq_ok.mpr ⟨_, hpatterns, bind_eq_ok.mpr ⟨seen, hlast.2, rfl⟩⟩

/-- A validation ends in an error, or in a report of the profile of its dataset and of the findings
of its rows. -/
theorem sat_validateReader (hrows : reader.HasRows rows) :
    Sat (validateReader reader contract : Run ω Fault _) (fun report =>
      ∃ inspection findings,
        reader.items.foldlM (meanBatch reader.schema) (meanStart reader.schema .exact) =
          .ok inspection ∧
        (meanProfile reader.schema inspection).Degrades report.profile ∧
        contract.findings reader.schema rows = .ok findings ∧
        report.Shows contract.maxFindings findings) IsError := by
  unfold validateReader
  apply (sat_inspectRuledBatches hrows).bind
  rintro ⟨profile, outcome⟩ ⟨inspection, findings, hlast, hprofile, hmeaning, hshows⟩
  refine sat_pure ⟨inspection, findings, hlast, hprofile, hmeaning, ?_, hshows.count_eq,
    hshows.findings_eq, ?_⟩
  · dsimp only
    rw [decide_eq_true_iff, hshows.count_eq, List.length_eq_zero_iff]
  · dsimp only
    rw [hshows.truncated_iff, hshows.findings_eq, hshows.count_eq]

/-- **A full validation reports the findings of the rows.**  A validation that ends with a report has
profiled the dataset as if there were no contract, and it shows the findings of the rows, whatever
batches they come in; one that ends without a report ends in an error of the library. -/
theorem validateReader_describes (hrows : reader.HasRows rows) {world : ω} :
    (∀ report world', validateReader reader contract world = .ok (report, world') →
      ∃ inspection findings,
        reader.items.foldlM (meanBatch reader.schema) (meanStart reader.schema .exact) =
          .ok inspection ∧
        (meanProfile reader.schema inspection).Degrades report.profile ∧
        contract.findings reader.schema rows = .ok findings ∧
        report.Shows contract.maxFindings findings) ∧
      ∀ fault, validateReader reader contract world = .error fault → IsError fault :=
  ⟨fun _ _ h => (sat_validateReader hrows).of_ok h, fun _ h => (sat_validateReader hrows).of_error h⟩

end Report

/-- Ids without nulls, of different values up to nine, and names from a list. -/
def orderContract : Contract where
  columns := [("id", ⟨true, true, true, none, some (Ieee.ofInt 9), none, none⟩),
    ("name", ⟨true, false, false, none, none, none, some ["paid", "open"]⟩)]
  maxFindings := 2
  names_distinct := by decide

def idColumn (ids : List (Option Int64)) : ArrowArray := .ofInt64 "id" ids

/-- Each name is `paid`, where it is not null. -/
def paidColumn (names : List (Option Unit)) : ArrowArray :=
  .ofUtf8 "name" (names.map fun name => name.map fun _ => ⟨"paid", by decide⟩)

/-- Orders in batches of their ids: the second batch has a repeated id, an id above nine and a
null. -/
def orderBatches : List RecordBatch :=
  [.ofColumns 2 [idColumn [some 7, some 8], paidColumn [some (), none]] (by decide),
    .ofColumns 3 [idColumn [some 7, some 10, none], paidColumn [some (), some (), some ()]]
      (by decide)]

def orderReader (batches : List RecordBatch) : BatchReader where
  schema := { fields := [(idColumn []).field, (paidColumn []).field], metadata := [] }
  items := batches.map .ok

theorem orderReader_hasRows {batches : List RecordBatch}
    (h : ∀ batch ∈ batches, batch.schema = (orderReader []).schema) :
    (orderReader batches).HasRows (batches.flatMap RecordBatch.tuples) :=
  ⟨batches, rfl, h, rfl⟩

/-- Of the three findings two are kept. -/
theorem validateReader_describes_orders : let _ := DiffCrates.sample
    ∃ report world', validateReader (orderReader orderBatches) orderContract Granting.granting =
        .ok (report, world') ∧
      report.violationCount = 3 ∧ ∃ findings,
        orderContract.findings (orderReader []).schema (orderBatches.flatMap RecordBatch.tuples) =
          .ok findings ∧
        report.Shows 2 findings := by
  let := DiffCrates.sample
  obtain ⟨report, world', hrun⟩ := exists_ended (w := Granting.granting)
    (m := validateReader (orderReader orderBatches) orderContract) (by decide +kernel)
  have hcount : (validateReader (orderReader orderBatches) orderContract
      Granting.granting).toOption.map (fun ended => ended.1.violationCount) = some 3 := by
    decide +kernel
  rw [hrun] at hcount
  obtain ⟨_, findings, -, -, hfindings, hshows⟩ := (@validateReader_describes Granting _ _ _ _
    orderContract (orderReader_hasRows (by decide)) .granting).1 _ _ hrun
  exact ⟨report, world', hrun, Option.some.inj hcount, findings, hfindings, hshows⟩

end ProofFrame
