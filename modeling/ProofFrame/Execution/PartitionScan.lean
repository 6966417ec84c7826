import ProofFrame.Execution.Counts
import ProofFrame.Execution.Partition
import ProofFrame.Execution.RowNumbers

/-!
# Partitions one after the other

A plan without global state keeps nothing between the batches but what it has
found and counted.  Its traversal of a sequence of partitions is then made of
the traversals of the single partitions, each from the start: what they find is
put one after the other, at the rows counted through.
-/

namespace ProofFrame

open Lib Lib.Run Distinct

/-! ## Counts -/

theorem addCounts_nil (totals : List ℕ) : addCounts totals [] = totals := by
  cases totals <;> rfl

theorem length_addCounts : ∀ totals parts : List ℕ,
    (addCounts totals parts).length = max totals.length parts.length
  | [], parts => by rw [addCounts, List.length_nil, Nat.zero_max]
  | _ :: _, [] => by rw [addCounts_nil, List.length_nil, Nat.max_zero]
  | _ :: totals, _ :: parts => by
      rw [addCounts, List.length_cons, length_addCounts, List.length_cons, List.length_cons]
      omega

/-- Totals of which none has been counted yet add nothing. -/
theorem addCounts_replicate : ∀ {totals : List ℕ} {length : ℕ}, length ≤ totals.length →
    addCounts totals (List.replicate length 0) = totals
  | _, 0, _ => addCounts_nil _
  | total :: totals, length + 1, h => by
      rw [List.replicate_succ, addCounts, addCounts_replicate (Nat.le_of_succ_le_succ h),
        Nat.add_zero]

theorem replicate_addCounts : ∀ parts : List ℕ,
    addCounts (List.replicate parts.length 0) parts = parts
  | [] => rfl
  | part :: parts => by
      rw [List.length_cons, List.replicate_succ, addCounts, replicate_addCounts, Nat.zero_add]

/-- A count added to a part is added to the total. -/
theorem addCounts_modify (count : ℕ) : ∀ {index : ℕ} {totals parts : List ℕ}, index < parts.length →
    addCounts totals (parts.modify index (· + count)) =
      (addCounts totals parts).modify index (· + count)
  | _, [], _, _ => rfl
  | 0, total :: totals, part :: parts, _ => by
      show (total + (part + count)) :: addCounts totals parts =
        (total + part + count) :: addCounts totals parts
      rw [Nat.add_assoc]
  | index + 1, total :: totals, part :: parts, h => by
      show (total + part) :: addCounts totals (parts.modify index (· + count)) =
        (total + part) :: (addCounts totals parts).modify index (· + count)
      rw [addCounts_modify count (Nat.lt_of_succ_lt_succ h)]

/-- Counting the columns of a batch in a part counts them in the total. -/
theorem addCounts_recordCounts (totals : List ℕ) {columns : List (ColumnPlan × ℕ)} :
    ∀ {counts evaluated : List ℕ}, (∀ entry ∈ columns, entry.2 < evaluated.length) →
      addCounts totals (recordCounts columns counts evaluated) =
        recordCounts columns counts (addCounts totals evaluated) := by
  induction columns with
  | nil =>
      intro counts evaluated _
      rfl
  | cons entry columns ih =>
      intro counts evaluated hindices
      cases counts with
      | nil => rfl
      | cons count counts =>
          rw [recordCounts, recordCounts, ← addCounts_modify count
            (hindices entry (List.mem_cons_self ..))]
          apply ih
          intro other hother
          rw [List.length_modify]
          exact hindices other (List.mem_cons_of_mem _ hother)

/-! ## Batches counted from somewhere else -/

section Shift

variable [Crates]

theorem observeRowPlans_shift (batch : RecordBatch) (plans : List RowPlan) (rowOffset row : ℕ) :
    observeRowPlans batch (rowOffset + row) plans =
      List.map (Finding.shift rowOffset) <$> observeRowPlans batch row plans := by
  have hplan (plan : RowPlan) : findingsOf <$> plan.events batch (rowOffset + row) =
      List.map (Finding.shift rowOffset) <$> (findingsOf <$> plan.events batch row) := by
    rw [plan.events_shift]
    cases plan.events batch row with
    | error => rfl
    | ok events => exact congrArg Except.ok (findingsOf_shift rowOffset events)
  have hfold (row : ℕ) : observeRowPlans batch row plans = plans.foldlM (fun found plan => do
      let next ← findingsOf <$> plan.events batch row
      .ok (found ++ next)) [] := by
    unfold observeRowPlans
    congr 1
    funext found plan
    cases plan.events batch row <;> rfl
  rw [hfold, hfold]
  exact collect_map (g := Finding.shift rowOffset) (fun plan _ => hplan plan) []

/-- What columns that collect nothing find is at the rows counted from there, and nothing else
depends on the rows. -/
theorem observeColumns_shift (batch : RecordBatch) (rowOffset row : ℕ)
    {columns : List (ColumnPlan × ℕ)} :
    ∀ {uniques : List (Option (List Record))}, (∀ records ∈ uniques, records = none) →
      observeColumns batch (rowOffset + row) columns uniques =
        (fun observed => { observed with
          findings := observed.findings.map (Finding.shift rowOffset) }) <$>
            observeColumns batch row columns uniques := by
  induction columns with
  | nil =>
      intro uniques _
      rfl
  | cons entry columns ih =>
      intro uniques hnone
      cases uniques with
      | nil => rfl
      | cons records uniques =>
          obtain rfl := hnone records (List.mem_cons_self ..)
          rw [observeColumns, observeColumns,
            ih fun other hother => hnone other (List.mem_cons_of_mem _ hother)]
          cases batch.column entry.1.columnIndex with
          | error => rfl
          | ok array =>
              show (entry.1.events array false (rowOffset + row) >>= _) =
                _ <$> (entry.1.events array false row >>= _)
              rw [ColumnPlan.events_shift]
              cases entry.1.events array false row with
              | error => rfl
              | ok events =>
                  cases observeColumns batch row columns uniques with
                  | error => rfl
                  | ok rest =>
                      apply congrArg Except.ok
                      dsimp only
                      rw [findingsOf_shift, List.map_append]
                      rfl

/-- Columns that collect nothing still have collected nothing. -/
theorem uniques_observeColumns {batch : RecordBatch} {row : ℕ} {columns : List (ColumnPlan × ℕ)} :
    ∀ {uniques : List (Option (List Record))} {observed : ColumnsObserved},
      uniques.length = columns.length → (∀ records ∈ uniques, records = none) →
      observeColumns batch row columns uniques = .ok observed → observed.uniques = uniques := by
  induction columns with
  | nil =>
      intro uniques observed hlength _ h
      cases h
      exact (List.length_eq_zero_iff.mp hlength).symm
  | cons entry columns ih =>
      rintro (_ | ⟨records, uniques⟩) observed hlength hnone h
      · cases hlength
      · obtain rfl := hnone records (List.mem_cons_self ..)
        obtain ⟨_, _, rest, _, _, hrest, rfl⟩ := observeColumns_cons_eq_ok.mp h
        have hrest := ih (Nat.succ.inj hlength)
          (fun other hother => hnone other (List.mem_cons_of_mem _ hother)) hrest
        dsimp only
        rw [hrest]
        rfl

end Shift

/-! ## Traversals without global state -/

/-- A traversal that keeps nothing between the batches but what it has found and counted. -/
structure ScanMeaning.Local (plan : CompiledContract) (maxMemoryBytes : ℕ) (scan : ScanMeaning) :
    Prop where
  fingerprint_eq : scan.fingerprint = none
  evaluated_length : scan.evaluated.length = plan.columns.length
  uniques_eq : scan.uniques = freshUniques plan
  dataset_eq : scan.dataset = .fresh .empty maxMemoryBytes
  references_eq : scan.references = []

/-- The traversal of a plan without global state before its first batch. -/
def ScanMeaning.start (plan : CompiledContract) (maxMemoryBytes : ℕ) : ScanMeaning :=
  { fingerprint := none
    findings := []
    evaluated := List.replicate plan.columns.length 0
    uniques := freshUniques plan
    dataset := .fresh .empty maxMemoryBytes
    references := []
    rows := 0 }

/-- What has been found and counted before, and then what the part has. -/
def ScanMeaning.beside (base part : ScanMeaning) : ScanMeaning :=
  { part with
    findings := base.findings ++ part.findings.map (Finding.shift base.rows)
    evaluated := addCounts base.evaluated part.evaluated
    rows := base.rows + part.rows }

section Local

variable {plan : CompiledContract} {maxMemoryBytes : ℕ} {base part : ScanMeaning}

theorem ScanMeaning.local_start : (ScanMeaning.start plan maxMemoryBytes).Local plan maxMemoryBytes where
  fingerprint_eq := rfl
  evaluated_length := List.length_replicate
  uniques_eq := rfl
  dataset_eq := rfl
  references_eq := rfl

theorem ScanMeaning.Local.beside (hbase : base.Local plan maxMemoryBytes)
    (hpart : part.Local plan maxMemoryBytes) : (base.beside part).Local plan maxMemoryBytes where
  fingerprint_eq := hpart.fingerprint_eq
  evaluated_length := by
    show (addCounts base.evaluated part.evaluated).length = _
    rw [length_addCounts, hbase.evaluated_length, hpart.evaluated_length, max_self]
  uniques_eq := hpart.uniques_eq
  dataset_eq := hpart.dataset_eq
  references_eq := hpart.references_eq

/-- Nothing has been found or counted before the first batch. -/
theorem ScanMeaning.Local.beside_start (hbase : base.Local plan maxMemoryBytes) :
    base.beside (.start plan maxMemoryBytes) = base := by
  have hevaluated : addCounts base.evaluated (List.replicate plan.columns.length 0) =
      base.evaluated := addCounts_replicate hbase.evaluated_length.ge
  obtain ⟨fingerprint, findings, evaluated, uniques, dataset, references, rows⟩ := base
  obtain ⟨rfl, -, rfl, rfl, rfl⟩ := hbase
  dsimp only at hevaluated
  show ScanMeaning.mk none (findings ++ []) (addCounts evaluated (List.replicate plan.columns.length 0))
    (freshUniques plan) (.fresh .empty maxMemoryBytes) [] rows = _
  rw [hevaluated, List.append_nil]

theorem freshUniques_eq_none (hlocal : requiresGlobalState plan = false) :
    ∀ records ∈ freshUniques plan, records = none := by
  obtain ⟨-, hunique⟩ := Bool.or_eq_false_iff.mp hlocal
  intro records hrecords
  obtain ⟨column, hcolumn, rfl⟩ := List.mem_map.mp hrecords
  exact if_neg (List.any_eq_false.mp hunique column hcolumn)

theorem datasetPlan_eq_empty (hlocal : requiresGlobalState plan = false) :
    plan.datasetPlan = .empty := by
  obtain ⟨hdataset, -⟩ := Bool.or_eq_false_iff.mp hlocal
  exact DatasetPlan.eq_empty_of_isEmpty (by simpa using hdataset)

variable [Crates] {item : Except String RecordBatch} {next : ScanMeaning}

/-- A turn keeps a traversal local. -/
theorem ScanMeaning.Local.observeBatch (hlocal : requiresGlobalState plan = false)
    (h : part.Local plan maxMemoryBytes) (hnext : observeBatch plan part item = .ok next) :
    next.Local plan maxMemoryBytes := by
  have hlength := length_evaluated_observeBatch hnext
  obtain ⟨batch, -, hnext⟩ := bind_eq_ok.mp hnext
  obtain ⟨_, -, hnext⟩ := bind_eq_ok.mp hnext
  rw [h.fingerprint_eq, h.dataset_eq, h.references_eq, h.uniques_eq] at hnext
  obtain ⟨_, hfingerprint, hnext⟩ := bind_eq_ok.mp hnext
  obtain ⟨columns, hcolumns, hnext⟩ := bind_eq_ok.mp hnext
  obtain ⟨_, -, hnext⟩ := bind_eq_ok.mp hnext
  obtain ⟨_, hdataset, hnext⟩ := bind_eq_ok.mp hnext
  obtain ⟨_, hreferences, hnext⟩ := bind_eq_ok.mp hnext
  cases hfingerprint
  cases hdataset
  cases hreferences
  cases hnext
  have huniques : columns.uniques = freshUniques plan := by
    refine uniques_observeColumns ?_ (freshUniques_eq_none hlocal) hcolumns
    rw [freshUniques, List.length_map, List.length_zipIdx]
  exact ⟨rfl, hlength.trans h.evaluated_length, huniques, rfl, rfl⟩

/-- A turn after a part is a turn of the part, beside what was there before. -/
theorem observeBatch_beside (hlocal : requiresGlobalState plan = false)
    (h : part.Local plan maxMemoryBytes) :
    observeBatch plan (base.beside part) item = base.beside <$> observeBatch plan part item := by
  have hindices : ∀ entry ∈ plan.columns.zipIdx, entry.2 < part.evaluated.length := by
    intro entry hentry
    rw [h.evaluated_length]
    exact List.snd_lt_of_mem_zipIdx hentry
  unfold observeBatch ScanMeaning.beside
  dsimp only
  rw [h.fingerprint_eq, h.dataset_eq, h.references_eq, h.uniques_eq]
  cases arrowItem item with
  | error => rfl
  | ok batch =>
      cases hschema : rejectIf (batch.schema ≠ plan.schema) batchSchemaChanged with
      | error => simp only [ok_bind, hschema]; rfl
      | ok =>
          simp only [ok_bind, hschema, Option.mapM_none]
          rw [observeColumns_shift batch base.rows part.rows (freshUniques_eq_none hlocal),
            observeRowPlans_shift]
          cases observeColumns batch part.rows plan.columns.zipIdx (freshUniques plan) with
          | error => rfl
          | ok columns =>
              cases observeRowPlans batch part.rows plan.rowPlans with
              | error => rfl
              | ok rowFindings =>
                  apply congrArg Except.ok
                  dsimp only
                  simp only [List.map_append, List.append_assoc, Nat.add_assoc,
                    addCounts_recordCounts base.evaluated hindices]
                  rfl

/-- The traversal of further batches after a part is that of the part. -/
theorem foldlM_observeBatch_beside (hlocal : requiresGlobalState plan = false)
    {items : List (Except String RecordBatch)} :
    ∀ {part : ScanMeaning}, part.Local plan maxMemoryBytes →
      items.foldlM (observeBatch plan) (base.beside part) =
        base.beside <$> items.foldlM (observeBatch plan) part := by
  induction items with
  | nil =>
      intro part _
      rfl
  | cons item items ih =>
      intro part h
      rw [List.foldlM_cons, List.foldlM_cons, observeBatch_beside hlocal h]
      cases hnext : observeBatch plan part item with
      | error => rfl
      | ok next => exact ih (h.observeBatch hlocal hnext)

/-- What the traversal of one partition makes of it. -/
def observePartition (plan : CompiledContract) (maxMemoryBytes : ℕ) (reader : BatchReader) :
    Except Fault ScanMeaning :=
  reader.items.foldlM (observeBatch plan) (.start plan maxMemoryBytes)

theorem local_observePartition (hlocal : requiresGlobalState plan = false) {reader : BatchReader}
    (h : observePartition plan maxMemoryBytes reader = .ok part) : part.Local plan maxMemoryBytes := by
  refine foldlM_invariant (P := fun _ scan => scan.Local plan maxMemoryBytes)
    ScanMeaning.local_start (fun _ _ _ _ _ h hstep => ?_) h
  exact h.observeBatch hlocal hstep

/-- **The traversal of a sequence of partitions** is made of the traversals of the partitions. -/
theorem foldlM_partitions (hlocal : requiresGlobalState plan = false) {readers : List BatchReader} :
    ∀ {base : ScanMeaning}, base.Local plan maxMemoryBytes →
      (readers.flatMap BatchReader.items).foldlM (observeBatch plan) base =
        readers.foldlM (fun base reader =>
          base.beside <$> observePartition plan maxMemoryBytes reader) base := by
  induction readers with
  | nil =>
      intro base _
      rfl
  | cons reader readers ih =>
      intro base h
      rw [List.flatMap_cons, List.foldlM_append, List.foldlM_cons]
      have hstart : (ScanMeaning.start plan maxMemoryBytes).Local plan maxMemoryBytes :=
        ScanMeaning.local_start
      have hfirst : reader.items.foldlM (observeBatch plan) base =
          base.beside <$> observePartition plan maxMemoryBytes reader := by
        rw [observePartition, ← foldlM_observeBatch_beside hlocal hstart, h.beside_start]
      rw [hfirst]
      cases hpart : observePartition plan maxMemoryBytes reader with
      | error => rfl
      | ok part => exact ih (h.beside (local_observePartition hlocal hpart))

end Local

end ProofFrame
