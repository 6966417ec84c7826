import ProofFrame.Execution.Meaning
import ProofFrame.Execution.Preparation

/-!
# Referential integrity

What a references rule says about the checked dataset and the dataset it was
prepared with, in terms of the complete keys of both: how many distinct keys each
side has, which keys of the checked side are absent from the other, and how many
rows of the checked side have a null in their key.

The execution of a plan is compared with the execution of the same plan without
its references rules, which finds the same otherwise (`Beside`).
-/

namespace ProofFrame

open Lib Lib.Run Distinct

/-! ## Rows of the checked dataset -/

/-- What a rule does at a row with the given key. -/
def ReferencePlan.keyEvents (plan : ReferencePlan) (row : ℕ) : Option (List KeyPart) → List Event
  | some key => [.insert (.bytes (encodeTuple 0 key)) row]
  | none => if plan.nulls = .reject then [.record (plan.rejectedNull row)] else []

/-- The violations of a rule for rows with a null in their key. -/
def ReferencePlan.rejected (plan : ReferencePlan) (rows : ℕ) : ℕ :=
  if plan.nulls = .reject then rows else 0

theorem ReferencePlan.rejected_add (plan : ReferencePlan) (rows rows' : ℕ) :
    plan.rejected (rows + rows') = plan.rejected rows + plan.rejected rows' := by
  unfold rejected
  split <;> rfl

theorem ReferencePlan.recordsOf_keyEvents (plan : ReferencePlan) (row : ℕ)
    (key : Option (List KeyPart)) : recordsOf (plan.keyEvents row key) =
      (key.map fun key => KeyedRow.record { key, row := UInt64.ofNat row }).toList := by
  cases key with
  | none =>
      unfold keyEvents
      dsimp only
      split <;> rfl
  | some key => rfl

theorem ReferencePlan.length_findingsOf_keyEvents (plan : ReferencePlan) (row : ℕ)
    (key : Option (List KeyPart)) :
    (findingsOf (plan.keyEvents row key)).length = plan.rejected (if key.isNone then 1 else 0) := by
  unfold keyEvents rejected
  cases key with
  | none =>
      dsimp only
      split <;> rfl
  | some key => simp [findingsOf, Event.finding?]

theorem zipIdx_range (rows rowOffset : ℕ) :
    (List.range rows).zipIdx rowOffset = (List.range rows).map fun row => (row, rowOffset + row) := by
  apply List.ext_getElem
  · simp
  · intro position _ _
    simp

section Observe

variable [Crates]

theorem referenceEvents_eq_ok {plan : ReferencePlan} {batch : RecordBatch} {position row : ℕ}
    {events : List Event} (h : referenceEvents plan batch position row = .ok events) :
    events = plan.keyEvents row (keyTuple batch plan.columns position) := by
  obtain ⟨bytes, hbytes, h⟩ := bind_eq_ok.mp h
  cases h
  rw [encodeKey_eq_ok hbytes]
  cases keyTuple batch plan.columns position <;> rfl

/-- A rule collects the complete keys of a batch and records the rows without one. -/
theorem ReferenceEntry.observe_eq_ok {batch : RecordBatch} {rowOffset : ℕ}
    {entry next : ReferenceEntry (List Record)} {found : List Finding}
    (h : entry.observe batch rowOffset = .ok (next, found)) :
    next = { plan := entry.plan
             localKeys := entry.localKeys ++
               (batchKeys entry.plan.columns batch rowOffset).map KeyedRow.record } ∧
      found.length = entry.plan.rejected (incompleteRows entry.plan.columns batch) := by
  obtain ⟨events, hevents, h⟩ := bind_eq_ok.mp h
  cases h
  have hall := collect_eq_ok (g := fun entryRow : ℕ × ℕ =>
    entry.plan.keyEvents entryRow.2 (keyTuple batch entry.plan.columns entryRow.1))
    (fun _ _ _ h => referenceEvents_eq_ok h) hevents
  rw [List.nil_append, zipIdx_range, List.flatMap_map] at hall
  subst hall
  unfold batchKeys incompleteRows
  refine ⟨?_, ?_⟩
  · rw [ReferenceEntry.mk.injEq]
    refine ⟨rfl, ?_⟩
    rw [List.append_cancel_left_eq]
    induction List.range batch.rows with
    | nil => rfl
    | cons row rows ih =>
        rw [List.flatMap_cons, recordsOf_append, ih, ReferencePlan.recordsOf_keyEvents,
          List.filterMap_cons]
        unfold keyedRow
        cases keyTuple batch entry.plan.columns row <;> rfl
  · induction List.range batch.rows with
    | nil => simp [ReferencePlan.rejected]
    | cons row rows ih =>
        rw [List.flatMap_cons, findingsOf_append, List.length_append, ih,
          ReferencePlan.length_findingsOf_keyEvents, ← ReferencePlan.rejected_add, List.countP_cons,
          Nat.add_comm]

/-- The entry of a rule after the given batches. -/
def ReferencePlan.entryAfter (batches : List RecordBatch) (plan : ReferencePlan) :
    ReferenceEntry (List Record) :=
  { plan, localKeys := (datasetKeys plan.columns batches 0).map KeyedRow.record }

theorem observeEntries_eq_ok {batches : List RecordBatch} {batch : RecordBatch} :
    ∀ {plans : List ReferencePlan} {next : List (ReferenceEntry (List Record))}
      {found : List Finding},
      observeEach (ReferenceEntry.observe batch (totalRows batches))
        (plans.map (ReferencePlan.entryAfter batches)) = .ok (next, found) →
      next = plans.map (ReferencePlan.entryAfter (batches ++ [batch])) ∧
        found.length =
          (plans.map fun plan => plan.rejected (incompleteRows plan.columns batch)).sum := by
  intro plans
  induction plans with
  | nil =>
      intro next found h
      cases h
      exact ⟨rfl, rfl⟩
  | cons plan plans ih =>
      intro next found h
      obtain ⟨⟨entry, entryFound⟩, hentry, h⟩ := bind_eq_ok.mp h
      obtain ⟨⟨rest, restFound⟩, hrest, h⟩ := bind_eq_ok.mp h
      cases h
      obtain ⟨rfl, hfound⟩ := ReferenceEntry.observe_eq_ok hentry
      obtain ⟨rfl, hrestFound⟩ := ih hrest
      refine ⟨?_, ?_⟩
      · rw [List.map_cons, List.cons.injEq]
        refine ⟨?_, rfl⟩
        unfold ReferencePlan.entryAfter
        rw [datasetKeys_snoc, List.map_append, Nat.zero_add]
      · rw [List.length_append, hfound, hrestFound, List.map_cons, List.sum_cons]
        rfl

end Observe

/-! ## The plan without its references rules -/

def CompiledContract.withoutReferences (plan : CompiledContract) : CompiledContract :=
  { plan with datasetPlan := { plan.datasetPlan with references := [] } }

/-- The datasets of the rules are counted and their readers used up. -/
theorem countedReferences_eq_ok {plans : List RowCountDeltaPlan} {bindings : ReferenceBindings}
    {delta : DeltaCounts} (h : countedReferences plans bindings = .ok delta) :
    (∀ name reader, SortedMap.find name delta.bindings = some reader →
      SortedMap.find name bindings = some reader) ∧
      ∀ plan ∈ plans, SortedMap.find plan.reference delta.bindings = none := by
  have hrun := foldlM_invariant (P := fun done (current : DeltaCounts) =>
    (∀ name reader, SortedMap.find name current.bindings = some reader →
      SortedMap.find name bindings = some reader) ∧
    (∀ name, (SortedMap.find name current.counted).isSome →
      SortedMap.find name current.bindings = none) ∧
    ∀ plan ∈ done, SortedMap.find plan.reference current.bindings = none)
    ⟨fun _ _ h => h, by simp, by simp⟩ ?_ h
  · exact ⟨hrun.1, hrun.2.2⟩
  · rintro done plan current next - ⟨hleft, hcounted, hdone⟩ hnext
    unfold countedRule at hnext
    split at hnext
    · rename_i hfound
      cases hnext
      refine ⟨hleft, hcounted, ?_⟩
      intro other hother
      rcases List.mem_append.mp hother with hother | hother
      · exact hdone other hother
      · rw [List.mem_singleton] at hother
        subst hother
        exact hcounted _ hfound
    · obtain ⟨reader, hreader, hnext⟩ := bind_eq_ok.mp hnext
      obtain ⟨rows, hrows, hnext⟩ := bind_eq_ok.mp hnext
      cases hnext
      dsimp only
      refine ⟨?_, ?_, ?_⟩
      · intro name other hother
        by_cases heq : name = plan.reference
        · rw [heq, SortedMap.find_remove_self] at hother
          cases hother
        · rw [SortedMap.find_remove_of_ne heq] at hother
          exact hleft name other hother
      · intro name hname
        by_cases heq : name = plan.reference
        · rw [heq, SortedMap.find_remove_self]
        · rw [SortedMap.find_insert_of_ne heq] at hname
          exact SortedMap.find_remove_of_none (hcounted name hname)
      · intro other hother
        rcases List.mem_append.mp hother with hother | hother
        · exact SortedMap.find_remove_of_none (hdone other hother)
        · rw [List.mem_singleton] at hother
          rw [hother, SortedMap.find_remove_self]

/-- After the batches of `items`, a scan under the rules `plans` is the one without them, with the
keys of the batches collected and the rejected rows among its findings. -/
structure Beside (plans : List ReferencePlan) (items : List (Except String RecordBatch))
    (scan scan' : ScanMeaning) : Prop where
  scan_eq : scan' = { scan with findings := scan'.findings, references := [] }
  batches : ∃ batches, items = batches.map .ok ∧ scan.rows = totalRows batches ∧
    scan.references = plans.map (ReferencePlan.entryAfter batches) ∧
    scan.findings.length = scan'.findings.length +
      (plans.map fun plan => plan.rejected (incompleteKeys plan.columns batches)).sum

section Beside

variable [Crates]

theorem Beside.observeBatch {plan : CompiledContract} {plans : List ReferencePlan}
    {items : List (Except String RecordBatch)} {item : Except String RecordBatch}
    {scan scan' next : ScanMeaning} (h : Beside plans items scan scan')
    (hnext : observeBatch plan scan item = .ok next) :
    ∃ next', ProofFrame.observeBatch plan.withoutReferences scan' item = .ok next' ∧
      Beside plans (items ++ [item]) next next' := by
  obtain ⟨hscan, batches, rfl, hrows, hreferences, hfindings⟩ := h
  obtain ⟨batch, hbatch, hnext⟩ := bind_eq_ok.mp hnext
  obtain ⟨_, hschema, hnext⟩ := bind_eq_ok.mp hnext
  obtain ⟨fingerprint, hfingerprint, hnext⟩ := bind_eq_ok.mp hnext
  obtain ⟨columns, hcolumns, hnext⟩ := bind_eq_ok.mp hnext
  obtain ⟨rowFindings, hrowFindings, hnext⟩ := bind_eq_ok.mp hnext
  obtain ⟨⟨dataset, datasetFindings⟩, hdataset, hnext⟩ := bind_eq_ok.mp hnext
  obtain ⟨⟨references, nullFindings⟩, hentries, hnext⟩ := bind_eq_ok.mp hnext
  cases hnext
  rw [hrows, hreferences] at hentries
  obtain ⟨rfl, hnull⟩ := observeEntries_eq_ok hentries
  rw [arrowItem_eq_ok] at hbatch
  rw [hscan]
  refine ⟨_, bind_eq_ok.mpr ⟨batch, arrowItem_eq_ok.mpr hbatch, bind_eq_ok.mpr ⟨_, hschema,
    bind_eq_ok.mpr ⟨fingerprint, hfingerprint, bind_eq_ok.mpr ⟨columns, hcolumns,
    bind_eq_ok.mpr ⟨rowFindings, hrowFindings, bind_eq_ok.mpr ⟨(dataset, datasetFindings), hdataset,
    bind_eq_ok.mpr ⟨([], []), rfl, rfl⟩⟩⟩⟩⟩⟩⟩, rfl, batches ++ [batch], ?_, ?_, rfl, ?_⟩
  · rw [hbatch, List.map_append]
    rfl
  · rw [totalRows_snoc, ← hrows]
  · simp only [List.length_append, hfindings, hnull, incompleteKeys_snoc,
      ReferencePlan.rejected_add, List.sum_map_add, List.length_nil]
    omega

theorem Beside.observeBatches {plan : CompiledContract} {plans : List ReferencePlan}
    {items : List (Except String RecordBatch)} :
    ∀ {done : List (Except String RecordBatch)} {scan scan' last : ScanMeaning},
      Beside plans done scan scan' → items.foldlM (ProofFrame.observeBatch plan) scan = .ok last →
      ∃ last', items.foldlM (ProofFrame.observeBatch plan.withoutReferences) scan' = .ok last' ∧
        Beside plans (done ++ items) last last' := by
  induction items with
  | nil =>
      intro done scan scan' last h hrun
      cases hrun
      rw [List.append_nil]
      exact ⟨scan', rfl, h⟩
  | cons item items ih =>
      intro done scan scan' last h hrun
      rw [List.foldlM_cons] at hrun
      obtain ⟨next, hnext, hrest⟩ := bind_eq_ok.mp hrun
      obtain ⟨next', hnext', hbeside⟩ := h.observeBatch hnext
      obtain ⟨last', hlast', hlast⟩ := ih hbeside hrest
      rw [List.append_cons]
      exact ⟨last', by rw [List.foldlM_cons]; exact bind_eq_ok.mpr ⟨next', hnext', hlast'⟩, hlast⟩

end Beside

/-! ## The verdict of a rule -/

/-- A references rule with the keys of its two sides: the keyed rows of the checked dataset, the
keys of the reference dataset, the keyed rows reported as absent, and the rows rejected for a null
in their key. -/
structure Judgement where
  plan : ReferencePlan
  checked : List KeyedRow
  remote : Finset (List KeyPart)
  absent : List KeyedRow
  rejectedRows : ℕ

namespace Judgement

/-- How many violations the rule adds. -/
def violations (judgement : Judgement) : ℕ :=
  (keySet judgement.checked \ judgement.remote).card + judgement.rejectedRows

/-- The violations reported for absent keys. -/
def found (judgement : Judgement) : List Finding :=
  judgement.absent.map fun keyed => judgement.plan.missingKey keyed.row.toNat

/-- The judgement of a rule on a checked dataset by the dataset and the key columns that `source`
names. -/
structure By (source : ReferencePlan) (bindings : ReferenceBindings) (batches : List RecordBatch)
    (judgement : Judgement) : Prop where
  checked_eq : judgement.checked = datasetKeys judgement.plan.columns batches 0
  remote : ∃ dataset indexes remoteBatches,
    SortedMap.find source.reference bindings = some dataset ∧
    source.keyColumns dataset.schema = some indexes ∧
    dataset.items = remoteBatches.map .ok ∧
    judgement.remote = keySet (datasetKeys indexes remoteBatches 0)
  absent : AbsentKeys judgement.checked judgement.remote judgement.absent
  rejected_eq : judgement.rejectedRows =
    judgement.plan.rejected (incompleteKeys judgement.plan.columns batches)

/-- The outcome reported for the rule. -/
structure Reports (judgement : Judgement) (outcome : ReferenceOutcome) : Prop where
  name_eq : outcome.name = judgement.plan.name
  reference_eq : outcome.referenceDistinctKeys = judgement.remote.card
  checked_eq : outcome.checkedDistinctKeys = (keySet judgement.checked).card
  missing_eq : outcome.missingDistinctKeys = (keySet judgement.checked \ judgement.remote).card

theorem By.congr {source other : ReferencePlan} {bindings : ReferenceBindings}
    {batches : List RecordBatch} {judgement : Judgement} (h : judgement.By source bindings batches)
    (hreference : source.reference = other.reference)
    (hcolumns : source.referenceColumns = other.referenceColumns) :
    judgement.By other bindings batches := by
  obtain ⟨hchecked, ⟨dataset, indexes, remoteBatches, hdataset, hindexes, hremote⟩, habsent,
    hrejected⟩ := h
  rw [hreference] at hdataset
  rw [ReferencePlan.keyColumns, hcolumns] at hindexes
  exact ⟨hchecked, ⟨dataset, indexes, remoteBatches, hdataset, hindexes, hremote⟩, habsent,
    hrejected⟩

end Judgement

section Verdict

variable [Crates]

end Verdict

/-- A rule that checks `id` against the column of the same name of `known`. -/
def knownIdsPlan : CompiledContract where
  schema := (RecordBatch.ofColumn (.ofInt64 "id" [])).schema
  columns := []
  rowPlans := []
  datasetPlan := { DatasetPlan.empty with references := [{
    name := "known_ids", columns := [0], fields := [(ArrowArray.ofInt64 "id" []).field]
    reference := "known", referenceColumns := ["id"], nulls := .reject }] }
  version := .v2
  maxFindings := 10

def smallOptions : ExecutionOptions :=
  { rowCountHint := none, resources := ⟨1000000, 1000000, 100, 100⟩, threads := none, spill := .auto }

/-- A dataset of one column `id` in one batch. -/
def idReader (values : List (Option Int64)) : BatchReader :=
  let batch := RecordBatch.ofColumn (.ofInt64 "id" values)
  { schema := batch.schema, items := [.ok batch] }

end ProofFrame
