import ProofFrame.Execution.Integrity
import ProofFrame.Execution.PartitionScan

/-!
# Partitions and the sequence of them

Validation of partitions is validation of the dataset they make up, whatever the
number of workers is and whatever order they work in.  A plan with global state
goes through the sequence itself.  For any other plan the merged report shows
the verdict on the sequence, because it shows the traversals of the partitions
one after the other.
-/

namespace ProofFrame

open Lib Lib.Run Distinct

/-! ## Merging -/

/-- The merge shows the traversal of the partitions merged so far. -/
structure Merge.Shows (plan : CompiledContract) (limit : ℕ) (scan : ScanMeaning) (merge : Merge) :
    Prop where
  findings_eq : merge.findings = scan.findings.take limit
  rows_eq : merge.rowOffset = scan.rows
  count_eq : merge.violationCount = scan.findings.length
  evaluated_eq : merge.evaluated = scan.evaluated
  indices_eq : merge.indices = plan.columns.map ColumnPlan.columnIndex

section Merging

variable {plan : CompiledContract} {options : ExecutionOptions} {base part : ScanMeaning}
  {report : FastValidationReport}

/-- Merging the report of a partition shows its traversal beside the ones before. -/
theorem Merge.Shows.add {merge : Merge} (h : merge.Shows plan (findingLimit plan options) base)
    (hrenders : report.Renders plan options (part.verdict plan [] []))
    (hfindings : (part.verdict plan [] []).findings = part.findings) :
    (merge.add (findingLimit plan options) report).Shows plan (findingLimit plan options)
      (base.beside part) := by
  constructor
  case findings_eq =>
    show merge.findings ++ (report.findings.take _).map _ =
      (base.findings ++ part.findings.map (Finding.shift base.rows)).take _
    have hroom : min (findingLimit plan options - (base.findings.take
        (findingLimit plan options)).length) (findingLimit plan options) =
          findingLimit plan options - base.findings.length := by
      rw [List.length_take]
      omega
    rw [h.findings_eq, h.rows_eq, hrenders.findings_eq, hfindings, List.take_take, hroom,
      List.take_append, List.map_take]
  case rows_eq =>
    show merge.rowOffset + report.rows = base.rows + part.rows
    rw [h.rows_eq, hrenders.rows_eq]
    rfl
  case count_eq =>
    show merge.violationCount + report.violationCount =
      (base.findings ++ part.findings.map (Finding.shift base.rows)).length
    rw [h.count_eq, hrenders.count_eq, hfindings, List.length_append, List.length_map]
  case evaluated_eq =>
    show addCounts merge.evaluated report.evaluatedColumns = addCounts base.evaluated part.evaluated
    rw [h.evaluated_eq, hrenders.evaluated_eq]
    rfl
  case indices_eq =>
    show (if merge.indices.length < report.evaluatedIndices.length then _ else _) = _
    rw [h.indices_eq, hrenders.indices_eq, ite_self]

/-- A merge with the totals of no partition laid out. -/
def Merge.opening (plan : CompiledContract) : Merge :=
  { Merge.start with
    evaluated := List.replicate plan.columns.length 0
    indices := plan.columns.map ColumnPlan.columnIndex }

theorem Merge.shows_opening (limit maxMemoryBytes : ℕ) :
    (Merge.opening plan).Shows plan limit (.start plan maxMemoryBytes) where
  findings_eq := List.take_nil.symm
  rows_eq := rfl
  count_eq := rfl
  evaluated_eq := rfl
  indices_eq := rfl

/-- The first report lays out the totals. -/
theorem Merge.start_add {limit : ℕ} (hindices : report.evaluatedIndices =
      plan.columns.map ColumnPlan.columnIndex)
    (hevaluated : report.evaluatedColumns.length = plan.columns.length) :
    Merge.start.add limit report = (Merge.opening plan).add limit report := by
  have hcounts : addCounts (List.replicate plan.columns.length 0) report.evaluatedColumns =
      report.evaluatedColumns := by
    rw [← hevaluated]
    exact replicate_addCounts _
  have hlayout : (if ([] : List ℕ).length < report.evaluatedIndices.length
      then report.evaluatedIndices else []) = report.evaluatedIndices := by
    cases report.evaluatedIndices <;> rfl
  unfold Merge.add Merge.opening Merge.start
  dsimp only
  rw [hlayout, hcounts, ← hindices, ite_self]
  rfl

end Merging

/-! ## The verdict on a sequence -/

section Sequence

variable [Crates] {plan : CompiledContract} {maxMemoryBytes : ℕ}

/-- A plan without global state has its verdict from the traversal. -/
theorem verdictOf_local (hlocal : requiresGlobalState plan = false) {reader : BatchReader}
    (hschema : reader.schema = plan.schema) :
    verdictOf reader plan false [] maxMemoryBytes = (fun scan => scan.verdict plan [] []) <$>
      observePartition plan maxMemoryBytes reader := by
  have hstart : startMeaning reader plan false [] maxMemoryBytes =
      .ok ⟨.start plan maxMemoryBytes, [], []⟩ := by
    unfold startMeaning
    rw [datasetPlan_eq_empty hlocal, hschema, rejectIf, if_neg (not_not.mpr rfl)]
    rfl
  unfold verdictOf
  rw [hstart]
  show (observePartition plan maxMemoryBytes reader >>= _) = _
  cases observePartition plan maxMemoryBytes reader <;> rfl

omit [Crates] in
/-- It finds nothing at the end. -/
theorem findings_verdict_local (hlocal : requiresGlobalState plan = false) {scan : ScanMeaning}
    (h : scan.Local plan maxMemoryBytes) : (scan.verdict plan [] []).findings = scan.findings := by
  have hunique : (plan.columns.zip scan.uniques).flatMap uniqueFindings = [] := by
    rw [List.flatMap_eq_nil_iff]
    intro pair hpair
    have hnone : pair.2 = none := by
      apply freshUniques_eq_none hlocal
      rw [← h.uniques_eq]
      exact (List.of_mem_zip hpair).2
    rw [uniqueFindings, hnone]
  unfold ScanMeaning.verdict
  rw [hunique, h.references_eq, h.dataset_eq, datasetPlan_eq_empty hlocal]
  show scan.findings ++ [] ++ [] ++ [] ++ [] = scan.findings
  simp only [List.append_nil]

theorem observePartition_sequence (hlocal : requiresGlobalState plan = false)
    (readers : List BatchReader) :
    observePartition plan maxMemoryBytes (partitionSequence readers plan.schema) =
      readers.foldlM (fun base reader =>
        base.beside <$> observePartition plan maxMemoryBytes reader) (.start plan maxMemoryBytes) :=
  foldlM_partitions hlocal ScanMeaning.local_start

/-- The report shows the traversal of the partition. -/
def ShowsPartition (plan : CompiledContract) (options : ExecutionOptions) (reader : BatchReader)
    (report : FastValidationReport) : Prop :=
  ∃ scan, observePartition plan options.resources.maxMemoryBytes reader = .ok scan ∧
    report.Renders plan options (scan.verdict plan [] [])

/-- Reports of all partitions show that the sequence can be traversed, and merge into that. -/
theorem exists_foldlM_beside (hlocal : requiresGlobalState plan = false)
    {options : ExecutionOptions} {readers : List BatchReader} {reports : List FastValidationReport}
    (h : List.Forall₂ (ShowsPartition plan options) readers reports) :
    ∀ {base : ScanMeaning} {merge : Merge},
      base.Local plan options.resources.maxMemoryBytes →
      merge.Shows plan (findingLimit plan options) base →
      ∃ last, readers.foldlM (fun base reader => base.beside <$>
          observePartition plan options.resources.maxMemoryBytes reader) base = .ok last ∧
        last.Local plan options.resources.maxMemoryBytes ∧
        (reports.foldl (Merge.add (findingLimit plan options)) merge).Shows plan
          (findingLimit plan options) last := by
  induction h with
  | nil =>
      intro base merge hbase hmerge
      exact ⟨base, rfl, hbase, hmerge⟩
  | @cons reader report readers reports hhead _ ih =>
      intro base merge hbase hmerge
      obtain ⟨part, hpart, hrenders⟩ := hhead
      have hpartLocal := local_observePartition hlocal hpart
      obtain ⟨last, hlast, hlastLocal, hshows⟩ := ih (hbase.beside hpartLocal)
        (hmerge.add hrenders (findings_verdict_local hlocal hpartLocal))
      refine ⟨last, ?_, hlastLocal, hshows⟩
      rw [List.foldlM_cons, hpart]
      exact hlast

/-- Every partition of a sequence that can be traversed can be. -/
theorem exists_observePartition {readers : List BatchReader} :
    ∀ {base last : ScanMeaning},
      readers.foldlM (fun base reader =>
        base.beside <$> observePartition plan maxMemoryBytes reader) base = .ok last →
      ∀ reader ∈ readers, ∃ part, observePartition plan maxMemoryBytes reader = .ok part := by
  induction readers with
  | nil =>
      intro _ _ _ reader hreader
      cases hreader
  | cons first readers ih =>
      intro base last h reader hreader
      rw [List.foldlM_cons] at h
      obtain ⟨_, hfirst, h⟩ := bind_eq_ok.mp h
      obtain ⟨part, hpart, -⟩ := map_eq_ok.mp hfirst
      rcases List.mem_cons.mp hreader with rfl | hreader
      · exact ⟨part, hpart⟩
      · exact ih h reader hreader

end Sequence

/-! ## Reports -/

/-- Two reports that say the same of a dataset, in the same order. -/
structure FastValidationReport.Matches (report report' : FastValidationReport) : Prop where
  valid_eq : report.valid = report'.valid
  count_eq : report.violationCount = report'.violationCount
  truncated_eq : report.truncated = report'.truncated
  rows_eq : report.rows = report'.rows
  evaluated_eq : report.evaluatedColumns = report'.evaluatedColumns
  indices_eq : report.evaluatedIndices = report'.evaluatedIndices
  findings_eq : report.findings = report'.findings

/-- Two reports that show one verdict match. -/
theorem FastValidationReport.Renders.matches {plan : CompiledContract} {options : ExecutionOptions}
    {verdict : Verdict} {report report' : FastValidationReport}
    (h : report.Renders plan options verdict) (h' : report'.Renders plan options verdict) :
    report.Matches report' := by
  have hcount : report.violationCount = report'.violationCount := h.count_eq.trans h'.count_eq.symm
  have hfindings : report.findings = report'.findings := h.findings_eq.trans h'.findings_eq.symm
  constructor
  case valid_eq => rw [Bool.eq_iff_iff, h.valid_iff, h'.valid_iff]
  case count_eq => exact hcount
  case truncated_eq =>
    rw [Bool.eq_iff_iff, h.truncated_iff, h'.truncated_iff, hcount, hfindings]
  case rows_eq => exact h.rows_eq.trans h'.rows_eq.symm
  case evaluated_eq => exact h.evaluated_eq.trans h'.evaluated_eq.symm
  case indices_eq => exact h.indices_eq.trans h'.indices_eq.symm
  case findings_eq => exact hfindings

section Reports

variable [Crates] {plan : CompiledContract} {options : ExecutionOptions}

/-- The merged report shows the verdict on the sequence. -/
theorem renders_mergeReports (hlocal : requiresGlobalState plan = false)
    {reports : List FastValidationReport} {scan : ScanMeaning} {maxMemoryBytes : ℕ}
    (hscan : scan.Local plan maxMemoryBytes)
    (hshows : (mergeAll (findingLimit plan options) reports).Shows plan (findingLimit plan options)
      scan) {report : FastValidationReport} (h : mergeReports reports plan options = .ok report) :
    report.Renders plan options (scan.verdict plan [] []) := by
  have hfindings := findings_verdict_local hlocal hscan
  obtain ⟨_, -, h⟩ := bind_eq_ok.mp h
  obtain ⟨_, -, h⟩ := bind_eq_ok.mp h
  cases h
  constructor
  case valid_iff =>
    show decide ((mergeAll (findingLimit plan options) reports).violationCount = 0) = true ↔ _
    rw [decide_eq_true_iff, hshows.count_eq, hfindings, List.length_eq_zero_iff]
  case count_eq =>
    rw [hfindings]
    exact hshows.count_eq
  case findings_eq =>
    rw [hfindings]
    exact hshows.findings_eq
  case truncated_iff => exact decide_eq_true_iff
  case rows_eq => exact hshows.rows_eq
  case evaluated_eq => exact hshows.evaluated_eq
  case indices_eq => exact hshows.indices_eq
  case references_eq =>
    show [] = referenceOutcomes (scan.references.zip [])
    rw [hscan.references_eq]
    rfl
  case resources_eq => rfl

variable {reader : BatchReader}

/-- The validation of a partition refines the meaning of an execution over it. -/
theorem PartitionEnds.refines {outcome : Except Fault FastValidationReport}
    (h : PartitionEnds plan options reader outcome) :
    (∀ report, outcome = .ok report → ∃ meaning,
      executionMeaning reader plan false [] options.resources.maxMemoryBytes = .ok meaning ∧
        report.Renders plan options meaning.1) ∧
    (∀ fault, outcome = .error fault → ExactFault fault ∨
      executionMeaning reader plan false [] options.resources.maxMemoryBytes = .error fault) := by
  obtain ⟨ω, _, world, h⟩ := h
  have hrefines := refines_executeReaderInnerWithAccount (ω := ω) reader plan options false
    (partitionAccount options) [] rfl
  cases hrun : (executeReaderInnerWithAccount reader plan options false (partitionAccount options)
      [] : Run ω Fault _) world with
  | ok ended =>
      obtain ⟨ended, last⟩ := ended
      obtain ⟨meaning, hmeaning, hshows, -⟩ := hrefines.of_ok hrun
      rw [hrun] at h
      subst h
      constructor
      · rintro _ ⟨⟩
        exact ⟨meaning, hmeaning, hshows⟩
      · rintro _ ⟨⟩
  | error fault =>
      rw [hrun] at h
      subst h
      constructor
      · rintro _ ⟨⟩
      · rintro _ ⟨⟩
        exact hrefines.of_error hrun

/-- The report of a partition shows its traversal. -/
theorem PartitionEnds.shows (hlocal : requiresGlobalState plan = false)
    (hschema : reader.schema = plan.schema) {report : FastValidationReport}
    (h : PartitionEnds plan options reader (.ok report)) : ShowsPartition plan options reader report := by
  obtain ⟨meaning, hmeaning, hrenders⟩ := h.refines.1 report rfl
  obtain ⟨hverdict, -, -⟩ := executionMeaning_eq_ok hmeaning
  rw [verdictOf_local hlocal hschema] at hverdict
  obtain ⟨scan, hscan, hverdict⟩ := map_eq_ok.mp hverdict
  exact ⟨scan, hscan, hverdict ▸ hrenders⟩

/-- Where the sequence has a meaning, only the surroundings can fail a partition of it. -/
theorem PartitionEnds.fault (hlocal : requiresGlobalState plan = false) {readers : List BatchReader}
    (hreader : reader ∈ readers) (hschema : reader.schema = plan.schema) {fault : Fault}
    (h : PartitionEnds plan options reader (.error fault)) {meaning : Verdict × String × String}
    (hmeaning : executionMeaning (partitionSequence readers plan.schema) plan false []
      options.resources.maxMemoryBytes = .ok meaning) : ExactFault fault := by
  rcases h.refines.2 fault rfl with henvironment | hfault
  · exact henvironment
  · obtain ⟨hverdict, hplan, hdigest⟩ := executionMeaning_eq_ok hmeaning
    rw [verdictOf_local hlocal rfl, observePartition_sequence hlocal] at hverdict
    obtain ⟨last, hlast, -⟩ := map_eq_ok.mp hverdict
    obtain ⟨part, hpart⟩ := exists_observePartition hlast reader hreader
    have hok : executionMeaning reader plan false [] options.resources.maxMemoryBytes =
        .ok (part.verdict plan [] [], meaning.2) := by
      refine bind_eq_ok.mpr ⟨part.verdict plan [] [], ?_, bind_eq_ok.mpr ⟨meaning.2.1, hplan,
        bind_eq_ok.mpr ⟨meaning.2.2, hdigest, rfl⟩⟩⟩
      rw [verdictOf_local hlocal hschema, hpart]
      rfl
    rw [hok] at hfault
    cases hfault

/-- The merged reports of all partitions show the meaning of the sequence. -/
theorem exists_executionMeaning (hlocal : requiresGlobalState plan = false)
    {readers : List BatchReader} (hnonempty : readers ≠ []) {reports : List FastValidationReport}
    (hreports : List.Forall₂ (ShowsPartition plan options) readers reports)
    {report : FastValidationReport} (h : mergeReports reports plan options = .ok report) :
    ∃ meaning, executionMeaning (partitionSequence readers plan.schema) plan false []
        options.resources.maxMemoryBytes = .ok meaning ∧
      report.Renders plan options meaning.1 := by
  obtain ⟨last, hlast, hlocalLast, hshows⟩ := exists_foldlM_beside hlocal hreports
    ScanMeaning.local_start (Merge.shows_opening (findingLimit plan options)
      options.resources.maxMemoryBytes)
  have hmerge : reports.foldl (Merge.add (findingLimit plan options)) (.opening plan) =
      mergeAll (findingLimit plan options) reports := by
    cases hreports with
    | nil => exact absurd rfl hnonempty
    | @cons reader first _ reports hfirst _ =>
        obtain ⟨scan, hscan, hrenders⟩ := hfirst
        rw [mergeAll, List.foldl_cons, List.foldl_cons,
          Merge.start_add hrenders.indices_eq (hrenders.evaluated_eq ▸
            (local_observePartition hlocal hscan).evaluated_length)]
  rw [hmerge] at hshows
  have hverdict : verdictOf (partitionSequence readers plan.schema) plan false []
      options.resources.maxMemoryBytes = .ok (last.verdict plan [] []) := by
    rw [verdictOf_local hlocal rfl, observePartition_sequence hlocal, hlast]
    rfl
  have hrenders := renders_mergeReports hlocal hlocalLast hshows h
  obtain ⟨compiledPlanDigest, hplan, h⟩ := bind_eq_ok.mp h
  obtain ⟨schemaDigest, hdigest, h⟩ := bind_eq_ok.mp h
  exact ⟨(last.verdict plan [] [], compiledPlanDigest, schemaDigest),
    bind_eq_ok.mpr ⟨_, hverdict, bind_eq_ok.mpr ⟨_, hplan, bind_eq_ok.mpr ⟨_, hdigest, rfl⟩⟩⟩,
    hrenders⟩

/-! ## The pool -/

omit [Crates] in
/-- The reports in the slots, where the caller finds one in each. -/
theorem forall₂_slotReport {slots : List (Option PartitionResult)}
    {reports : List FastValidationReport}
    (h : (slots.zipIdx.mapM fun (slot, index) => slotReport slot index) = .ok reports) :
    List.Forall₂ (fun slot report => slot = some (.ok report)) slots reports := by
  have hslots := mapM_eq_ok.mp h
  rw [← List.zipIdx_map_fst (l := slots) (i := 0), List.forall₂_map_left_iff]
  apply hslots.imp
  rintro ⟨slot, index⟩ report hslot
  rcases slot with _ | _ | _
  · cases hslot
  · cases hslot
  · cases hslot
    rfl

/-- The validation of partitions refines the meaning of an execution over the sequence. -/
theorem CheckPartitionReaders.refines {readers : List BatchReader}
    (hschema : ∀ reader ∈ readers, reader.schema = plan.schema)
    {outcome : Except Fault FastValidationReport}
    (h : CheckPartitionReaders readers plan options outcome) :
    (∀ report, outcome = .ok report → ∃ meaning,
      executionMeaning (partitionSequence readers plan.schema) plan false []
        options.resources.maxMemoryBytes = .ok meaning ∧ report.Renders plan options meaning.1) ∧
    (∀ fault, outcome = .error fault → ∀ meaning,
      executionMeaning (partitionSequence readers plan.schema) plan false []
        options.resources.maxMemoryBytes = .ok meaning → ExactFault fault) := by
  cases h with
  | cancelled =>
      constructor
      · rintro _ ⟨⟩
      · rintro _ ⟨⟩ _ _
        show ErrorCode.cancelled ∈ exactCodes
        decide
  | schema hdiffers =>
      obtain ⟨reader, hreader, hdiffers⟩ := hdiffers
      exact absurd (hschema reader hreader) hdiffers
  | @ordered ω _ world _ _ =>
      have hrefines := refines_executeReaderWithReferences (ω := ω)
        (partitionSequence readers plan.schema) plan options []
      cases hrun : (executeReaderWithReferences (partitionSequence readers plan.schema) plan options
          [] : Run ω Fault _) world with
      | ok ended =>
          obtain ⟨report, last⟩ := ended
          constructor
          · rintro _ ⟨⟩
            exact hrefines.of_ok hrun
          · rintro _ ⟨⟩
      | error fault =>
          constructor
          · rintro _ ⟨⟩
          · rintro _ ⟨⟩ meaning hmeaning
            rcases hrefines.of_error hrun with henvironment | hfault
            · exact henvironment
            · rw [hmeaning] at hfault
              cases hfault
  -- no references are bound here
  | unused _ _ _ hreferences => exact absurd rfl hreferences
  | @independent pool _ hnonempty hlocal _ hpool hfinished =>
      -- every slot of a finished pool holds how the check of its partition ended
      obtain ⟨available, _, hreach⟩ := hpool
      have hresults := hreach.results (Nat.lt_of_lt_of_le Nat.one_pos (Nat.le_max_left ..)) hfinished
      constructor
      · intro report h
        obtain ⟨reports, hreports, h⟩ := bind_eq_ok.mp h
        have hends := (List.forall₂_and_left _ _).mpr
          ⟨fun reader hreader => hreader, forall₂_comp hresults (forall₂_slotReport hreports)⟩
        have hshows : List.Forall₂ (ShowsPartition plan options) readers reports := by
          apply hends.imp
          rintro reader _ ⟨hreader, slot, ⟨result, rfl, hresult⟩, hslot⟩
          obtain rfl := Option.some.inj hslot
          exact PartitionEnds.shows hlocal (hschema reader hreader) hresult
        exact exists_executionMeaning hlocal hnonempty hshows h
      · intro fault h meaning hmeaning
        have hfails : FailsWith ExactFault (collectReports pool.results plan options) := by
          apply FailsWith.bind
          · apply failsWith_mapM
            rintro ⟨slot, index⟩ hslot e he
            obtain ⟨reader, hreader, result, rfl, hresult⟩ :=
              exists_of_forall₂ hresults.flip (List.fst_mem_of_mem_zipIdx hslot)
            have hends : PartitionEnds plan options reader (.error e) := by
              rw [← he]
              exact hresult
            exact hends.fault hlocal hreader (hschema reader hreader) hmeaning
          · intro reports _ e he
            obtain ⟨-, hplan, hdigest⟩ := executionMeaning_eq_ok hmeaning
            rw [mergeReports, hplan, hdigest] at he
            cases he
        exact hfails fault h
  | @panicked pool _ _ hlocal _ hpool hpanicked =>
      obtain ⟨available, _, hreach⟩ := hpool
      constructor
      · rintro _ ⟨⟩
      · rintro _ ⟨⟩ meaning hmeaning
        obtain ⟨reader, hreader, site, hends⟩ := hreach.crashed hpanicked
        cases hends.fault hlocal hreader (hschema reader hreader) hmeaning

/-- **Partitioned validation agrees with sequential validation.**  Whatever the workers and the
surroundings do, if neither a call over the partitions nor an execution over the sequence of them
ends in a fault of its surroundings, then one ends in a report exactly if the other does, and the
reports match. -/
theorem checkPartitionReaders_matches {ω : Type} [Host ω] {readers : List BatchReader}
    (hschema : ∀ reader ∈ readers, reader.schema = plan.schema)
    {outcome : Except Fault FastValidationReport}
    (h : CheckPartitionReaders readers plan options outcome)
    (hquiet : ∀ fault, outcome = .error fault → ¬ExactFault fault) {world : ω}
    {sequential : Except Fault (FastValidationReport × ω)}
    (hrun : executeReader (partitionSequence readers plan.schema) plan options world = sequential)
    (hquiet' : ∀ fault, sequential = .error fault → ¬ExactFault fault) :
    (∀ report, outcome = .ok report →
      ∃ report' last, sequential = .ok (report', last) ∧ report.Matches report') ∧
    (∀ report' last, sequential = .ok (report', last) →
      ∃ report, outcome = .ok report ∧ report.Matches report') := by
  have hpartitions := h.refines hschema
  have hsequence := refines_executeReaderWithReferences (ω := ω)
    (partitionSequence readers plan.schema) plan options []
  constructor
  · rintro report rfl
    obtain ⟨meaning, hmeaning, hrenders⟩ := hpartitions.1 report rfl
    cases sequential with
    | ok ended =>
        obtain ⟨report', last⟩ := ended
        obtain ⟨meaning', hmeaning', hrenders'⟩ := hsequence.of_ok hrun
        obtain rfl := Except.ok.inj (hmeaning.symm.trans hmeaning')
        exact ⟨report', last, rfl, hrenders.matches hrenders'⟩
    | error fault =>
        rcases hsequence.of_error hrun with henvironment | hfault
        · exact absurd henvironment (hquiet' fault rfl)
        · rw [hmeaning] at hfault
          cases hfault
  · rintro report' last rfl
    obtain ⟨meaning, hmeaning, hrenders'⟩ := hsequence.of_ok hrun
    cases outcome with
    | ok report =>
        obtain ⟨meaning', hmeaning', hrenders⟩ := hpartitions.1 report rfl
        obtain rfl := Except.ok.inj (hmeaning.symm.trans hmeaning')
        exact ⟨report, rfl, hrenders.matches hrenders'⟩
    | error fault =>
        exact absurd (hpartitions.2 fault rfl meaning hmeaning) (hquiet fault rfl)

end Reports

/-- Every id must be there; one finding is kept. -/
def presentIdsPlan : CompiledContract where
  schema := (idReader []).schema
  columns := [{
    columnIndex := 0, field := (ArrowArray.ofInt64 "id" []).field, kernel := .i64
    rules := {
      required := true, notNull := true, unique := false, min := none, max := none, nan := .allow
      validateNan := false, pattern := none, allowed := none, minLength := none
      maxLength := none } }]
  rowPlans := []
  datasetPlan := .empty
  version := .v2
  maxFindings := 1

/-- The ids 7 and null, and then a null: two workers, of which the second is done first. -/
theorem checkPartitionReaders_matches_nulls :
    letI := Crates.zeroDigests
    ∃ report report' world, CheckPartitionReaders [idReader [some 7, none], idReader [none]]
        presentIdsPlan smallOptions (.ok report) ∧
      executeReader (partitionSequence [idReader [some 7, none], idReader [none]]
        presentIdsPlan.schema) presentIdsPlan smallOptions Granting.granting = .ok (report', world) ∧
      report.Matches report' ∧ report'.findings.map Finding.row = [some 1] ∧
      report'.truncated = true := by
  let := Crates.zeroDigests
  obtain ⟨first, world₁, hfirst⟩ := exists_ended (m := executeReaderInnerWithAccount
    (idReader [some 7, none]) presentIdsPlan smallOptions false (partitionAccount smallOptions) [])
    (w := Granting.granting) (by decide +kernel)
  obtain ⟨second, world₂, hsecond⟩ := exists_ended (m := executeReaderInnerWithAccount
    (idReader [none]) presentIdsPlan smallOptions false (partitionAccount smallOptions) [])
    (w := Granting.granting) (by decide +kernel)
  obtain ⟨report', world, hrun⟩ := exists_ended (m := executeReader (partitionSequence
    [idReader [some 7, none], idReader [none]] presentIdsPlan.schema) presentIdsPlan smallOptions)
    (w := Granting.granting) (by decide +kernel)
  have hseen : (executeReader (partitionSequence [idReader [some 7, none], idReader [none]]
      presentIdsPlan.schema) presentIdsPlan smallOptions Granting.granting).map
        (fun ended => (ended.1.findings.map Finding.row, ended.1.truncated)) =
      .ok ([some 1], true) := by decide +kernel
  rw [hrun] at hseen
  obtain ⟨hrows, htruncated⟩ := Prod.mk.inj (Except.ok.inj hseen)
  have hends : PartitionEnds.publishes presentIdsPlan smallOptions (idReader [some 7, none])
      (.ok first.1) := ⟨Granting, _, Granting.granting, by rw [hfirst]; rfl⟩
  have hends' : PartitionEnds.publishes presentIdsPlan smallOptions (idReader [none])
      (.ok second.1) := ⟨Granting, _, Granting.granting, by rw [hsecond]; rfl⟩
  have hreach : WorkQueue.Reachable (PartitionEnds.publishes presentIdsPlan smallOptions)
      (PartitionEnds.panics presentIdsPlan smallOptions)
      [idReader [some 7, none], idReader [none]] 2
      { queue := [], workers := [.exited, .exited]
        results := [some (.ok first.1), some (.ok second.1)] } := by
    have h := Relation.ReflTransGen.refl (r := WorkQueue.Step
      (PartitionEnds.publishes presentIdsPlan smallOptions)
      (PartitionEnds.panics presentIdsPlan smallOptions))
      (a := .start PartitionResult [idReader [some 7, none], idReader [none]] 2)
    have h := h.tail (@WorkQueue.Step.pop _ _ _ _ _ 0 _ _ _ rfl rfl)
    have h := h.tail (@WorkQueue.Step.pop _ _ _ _ _ 1 _ _ _ rfl rfl)
    have h := h.tail (@WorkQueue.Step.publish _ _ _ _ _ 1 _ _ _ rfl hends')
    have h := h.tail (@WorkQueue.Step.publish _ _ _ _ _ 0 _ _ _ rfl hends)
    have h := h.tail (@WorkQueue.Step.leave _ _ _ _ _ 0 rfl rfl)
    exact h.tail (@WorkQueue.Step.leave _ _ _ _ _ 1 rfl rfl)
  obtain ⟨compiledPlanDigest, hplan⟩ : ∃ digest, presentIdsPlan.compiledPlanDigest = .ok digest :=
    exists_ok (by decide +kernel)
  obtain ⟨schemaDigest, hdigest⟩ : ∃ digest, presentIdsPlan.schemaDigest = .ok digest :=
    exists_ok (by decide +kernel)
  obtain ⟨report, hreport⟩ : ∃ report, collectReports [some (.ok first.1), some (.ok second.1)]
      presentIdsPlan smallOptions = .ok report :=
    ⟨_, bind_eq_ok.mpr ⟨[first.1, second.1], rfl, bind_eq_ok.mpr ⟨_, hplan,
      bind_eq_ok.mpr ⟨_, hdigest, rfl⟩⟩⟩⟩
  have hschema : ∀ reader ∈ [idReader [some 7, none], idReader [none]],
      reader.schema = presentIdsPlan.schema := by
    intro reader hreader
    rcases List.mem_pair.mp hreader with rfl | rfl <;> rfl
  have hcall : CheckPartitionReaders [idReader [some 7, none], idReader [none]] presentIdsPlan
      smallOptions (.ok report) := by
    rw [← hreport]
    refine .independent hschema (by simp) rfl rfl ⟨2, by decide, hreach⟩ ?_
    rintro worker hworker
    rcases List.mem_pair.mp hworker with rfl | rfl <;> rfl
  obtain ⟨report'', world', hsequential, hmatches⟩ := (checkPartitionReaders_matches hschema hcall
    (by rintro _ ⟨⟩) hrun (by rintro _ ⟨⟩)).1 report rfl
  cases hsequential
  exact ⟨report, report', world, hcall, hrun, hmatches, hrows, htruncated⟩

end ProofFrame
