import ProofFrame.Execution.DatasetMeaning
import ProofFrame.Execution.References

/-!
# The meaning of the reference rules

Preparation as a pure function of the bindings: which datasets are read, what is
wrong with them, and which keys they hold.  At the end a rule compares the list
of the keys of the checked dataset with the one of the dataset it was prepared
with.  The engine refines both.
-/

namespace ProofFrame

open Lib Lib.Run Lib.Sorted Distinct

/-! ## Reading the bound datasets -/

section Reading

variable [Crates]

/-- The record of a row, unless its key carries a null. -/
def keyRecord (indexes : List ℕ) (batch : RecordBatch) (rows row : ℕ) :
    Except Fault (List Record) := do
  let key ← encodeKey batch indexes row
  .ok (key.toList.map fun bytes => { value := .bytes bytes, row := UInt64.ofNat (rows + row) })

/-- The records of a batch. -/
def keyRecords (indexes : List ℕ) (batch : RecordBatch) (rows : ℕ) : Except Fault (List Record) :=
  (List.range batch.rows).foldlM (fun done row => do
    let records ← keyRecord indexes batch rows row
    .ok (done ++ records)) []

def readReferenceBatch (plan : ReferencePlan) (schema : Schema) (indexes : List ℕ)
    (scan : ReferenceScan (List Record)) (item : Except String RecordBatch) :
    Except Fault (ReferenceScan (List Record)) := do
  let batch ← arrowItem item
  rejectIf (batch.schema ≠ schema) (referenceChangedSchema plan)
  let fingerprint ← scan.fingerprint.update batch
  let records ← keyRecords indexes batch scan.rows
  .ok { keys := scan.keys ++ records, fingerprint, rows := scan.rows + batch.rows }

/-- The meaning of `scan_reference`. -/
def readReference (plan : ReferencePlan) (reader : BatchReader) (localSchema : Schema) :
    Except Fault (ScannedReference (List Record)) := do
  let indexes ← resolveReferenceKey plan localSchema reader.schema
  let fingerprint ← V2FingerprintState.new reader.schema []
  let scan ← reader.items.foldlM (readReferenceBatch plan reader.schema indexes)
    { keys := [], fingerprint, rows := 0 }
  .ok { keys := scan.keys, fingerprint := scan.fingerprint.finish.toTaggedString, rows := scan.rows }

def readBound (localSchema : Schema) (plan : ReferencePlan) (current : Preparation (List Record)) :
    Except Fault (Preparation (List Record)) := do
  let reader ← required (SortedMap.find plan.reference current.bindings) plan.unbound
  let scanned ← readReference plan reader localSchema
  .ok { current with
    bindings := SortedMap.remove plan.reference current.bindings
    scanned := SortedMap.insert (referenceCacheKey plan) scanned current.scanned }

def readUnlessCached (localSchema : Schema) (plan : ReferencePlan)
    (current : Preparation (List Record)) : Except Fault (Preparation (List Record)) :=
  if (SortedMap.find (referenceCacheKey plan) current.scanned).isSome then .ok current
  else readBound localSchema plan current

def readRule (localSchema : Schema) (current : Preparation (List Record)) (plan : ReferencePlan) :
    Except Fault (Preparation (List Record)) := do
  let current ← readUnlessCached localSchema plan current
  let scanned ← required (SortedMap.find (referenceCacheKey plan) current.scanned) neverScanned
  .ok { current with prepared := current.prepared ++ [{ plan, scanned }] }

/-- The meaning of `prepare`. -/
def readReferences (plans : List ReferencePlan) (bindings : ReferenceBindings)
    (localSchema : Schema) : Except Fault (List (PreparedReference (List Record))) := do
  let current ← plans.foldlM (readRule localSchema) { bindings, scanned := [], prepared := [] }
  let unused := SortedMap.keys current.bindings
  rejectIf (unused ≠ []) (unusedBindings unused)
  .ok current.prepared

end Reading

/-! ## Counting rows -/

def countedRows (items : List (Except String RecordBatch)) : Except Fault ℕ :=
  items.foldlM (fun rows item => do
    let batch ← arrowItem item
    .ok (rows + batch.rows)) 0

def countedRule (current : DeltaCounts) (plan : RowCountDeltaPlan) : Except Fault DeltaCounts :=
  if (SortedMap.find plan.reference current.counted).isSome then .ok current
  else do
    let reader ← required (SortedMap.find plan.reference current.bindings) plan.unbound
    let rows ← countedRows reader.items
    .ok { bindings := SortedMap.remove plan.reference current.bindings
          counted := SortedMap.insert plan.reference rows current.counted }

/-- The meaning of `count_delta_references`. -/
def countedReferences (plans : List RowCountDeltaPlan) (bindings : ReferenceBindings) :
    Except Fault DeltaCounts :=
  plans.foldlM countedRule { bindings, counted := [] }

/-! ## Collecting and comparing keys -/

def ReferenceEntry.observe [Crates] (batch : RecordBatch) (rowOffset : ℕ)
    (entry : ReferenceEntry (List Record)) :
    Except Fault (ReferenceEntry (List Record) × List Finding) := do
  let events ← collectRows (referenceEvents entry.plan batch) (List.range batch.rows) rowOffset
  .ok ({ entry with localKeys := entry.localKeys ++ recordsOf events }, findingsOf events)

/-- For each value of the first records that is no value of the second, in ascending order, the
first record that holds it. -/
def missingRecords (localKeys remote : List Record) : List Record :=
  absent Record.value (firsts Record.value localKeys) (values Record.value remote)

/-- What a rule reports of the keys on its two sides. -/
def ReferencePlan.outcome (plan : ReferencePlan) (scanned : ScannedReference (List Record))
    (localKeys : List Record) : ReferenceOutcome :=
  { name := plan.name
    reference := plan.reference
    referenceFingerprint := scanned.fingerprint
    referenceRows := scanned.rows
    referenceDistinctKeys := distinctCount scanned.keys
    checkedDistinctKeys := distinctCount localKeys
    missingDistinctKeys := (missingRecords localKeys scanned.keys).length }

/-- The violations of a rule at the end of the checked dataset. -/
def ReferencePlan.found (plan : ReferencePlan) (remote localKeys : List Record) : List Finding :=
  (missingRecords localKeys remote).map fun record => plan.missingKey record.row.toNat

/-- The outcomes of all rules. -/
def referenceOutcomes
    (pairs : List (ReferenceEntry (List Record) × PreparedReference (List Record))) :
    List ReferenceOutcome :=
  pairs.map fun (entry, reference) => entry.plan.outcome reference.scanned entry.localKeys

/-- The violations of all rules. -/
def referenceFindings
    (pairs : List (ReferenceEntry (List Record) × PreparedReference (List Record))) :
    List Finding :=
  pairs.flatMap fun (entry, reference) => entry.plan.found reference.scanned.keys entry.localKeys

/-! ## The engine and its meaning -/

section Refinement

variable {ω : Type} [Host ω] [Crates] {limits : ResourceLimits}

/-- The runs of the sealed state hold the records. -/
def SealedHolds (records : List Record) (sealed : SealedState) : Prop :=
  ∃ contents, List.Forall₂ RunMeta.Holds sealed.runs contents ∧ contents.flatten.Perm records

/-- A scan of the engine and the records it read. -/
def ScannedReference.Models (model : ScannedReference (List Record))
    (scanned : ScannedReference SealedState) : Prop :=
  SealedHolds model.keys scanned.keys ∧ scanned.fingerprint = model.fingerprint ∧
    scanned.rows = model.rows

def PreparedReference.Models (model : PreparedReference (List Record))
    (prepared : PreparedReference SealedState) : Prop :=
  prepared.plan = model.plan ∧ model.scanned.Models prepared.scanned

structure Preparation.Models (model : Preparation (List Record))
    (current : Preparation SealedState) : Prop where
  bindings_eq : current.bindings = model.bindings
  scanned : SortedMap.Related ScannedReference.Models model.scanned current.scanned
  prepared : List.Forall₂ PreparedReference.Models model.prepared current.prepared

theorem refines_insertKeys {indexes : List ℕ} {batch : RecordBatch} {rows : ℕ}
    {before : List Record} {keys : ExactState} (h : ExactHolds limits before keys) :
    Refines ExactFault (insertKeys indexes batch rows keys : Run ω Fault _)
      (keyRecords indexes batch rows)
      (fun records next => ExactHolds limits (before ++ records) next) := by
  apply refines_foldlM
  · rintro row _ done current ⟨hholds, hlimits⟩
    unfold keyRecord
    rw [bind_assoc]
    apply (refines_lift (S := Eq) fun _ _ => rfl).bind
    rintro key _ _ rfl
    cases key with
    | none =>
        apply refines_pure
        show ExactHolds limits (before ++ (done ++ [])) current
        rw [List.append_nil]
        exact ⟨hholds, hlimits⟩
    | some bytes =>
        apply Refines.of_sat
        apply (ExactState.sat_insert hholds _ _).post
        rintro next ⟨hnext, hconfig⟩
        show ExactHolds limits (before ++ (done ++ [_])) next
        rw [← List.append_assoc]
        exact ⟨hnext, by rw [hconfig.1, hlimits]⟩
  · rw [List.append_nil]
    exact h

/-- A scan in progress and the records it has read. -/
def ReferenceScan.Models (limits : ResourceLimits) (model : ReferenceScan (List Record))
    (scan : ReferenceScan ExactState) : Prop :=
  ExactHolds limits model.keys scan.keys ∧ scan.fingerprint = model.fingerprint ∧
    scan.rows = model.rows

theorem refines_scanReferenceBatch {plan : ReferencePlan} {schema : Schema} {indexes : List ℕ}
    {item : Except String RecordBatch} {model : ReferenceScan (List Record)}
    {scan : ReferenceScan ExactState} (h : model.Models limits scan) :
    Refines ExactFault (scanReferenceBatch plan schema indexes scan item : Run ω Fault _)
      (readReferenceBatch plan schema indexes model item) (ReferenceScan.Models limits) := by
  obtain ⟨hkeys, hfingerprint, hrows⟩ := h
  apply Refines.after sat_checkCancelled_exact
  intro _ _
  apply (refines_lift (S := Eq) fun _ _ => rfl).bind
  rintro batch _ _ rfl
  apply refines_failIf.bind
  intro _ _ _ _
  rw [hfingerprint]
  apply (refines_lift (S := Eq) fun _ _ => rfl).bind
  rintro fingerprint _ _ rfl
  rw [hrows]
  apply (refines_insertKeys hkeys).bind
  intro records keys _ hkeys
  exact refines_pure ⟨hkeys, rfl, rfl⟩

theorem sat_sealKeys {records : List Record} {keys : ExactState} (h : keys.Holds records) :
    Sat (SealedState.seal keys : Run ω Fault _) (SealedHolds records) ExactFault := by
  apply (ExactState.sat_seal h).bind
  rintro sealed ⟨-, contents, hruns, hperm⟩
  exact sat_pure ⟨contents, hruns, hperm⟩

theorem refines_scanReference (plan : ReferencePlan) (reader : BatchReader) (localSchema : Schema)
    (account : ResourceAccount) :
    Refines ExactFault (scanReference plan reader localSchema account : Run ω Fault _)
      (readReference plan reader localSchema) ScannedReference.Models := by
  apply (refines_lift (S := Eq) fun _ _ => rfl).bind
  rintro indexes _ _ rfl
  apply Refines.after (sat_io_exact _)
  intro _ _
  apply Refines.after (sat_newExact _ _ _ _)
  intro keys hkeys
  apply (refines_lift (S := Eq) fun _ _ => rfl).bind
  rintro fingerprint _ _ rfl
  apply Refines.bind (R := ReferenceScan.Models account.limits)
  · apply refines_foldlM
    · intro item _ model scan h
      exact refines_scanReferenceBatch h
    · exact ⟨hkeys, rfl, rfl⟩
  · rintro model scan _ ⟨⟨hholds, -⟩, hfingerprint, hrows⟩
    apply Refines.of_sat
    apply (sat_sealKeys hholds).bind
    intro sealed hsealed
    exact sat_pure ⟨hsealed, by rw [hfingerprint], hrows⟩

theorem refines_scanBound {localSchema : Schema} {account : ResourceAccount} {plan : ReferencePlan}
    {model : Preparation (List Record)} {current : Preparation SealedState}
    (h : model.Models current) :
    Refines ExactFault (scanBound localSchema account plan current : Run ω Fault _)
      (readBound localSchema plan model) Preparation.Models := by
  unfold scanBound
  rw [h.bindings_eq]
  apply refines_someOr_self.bind
  rintro reader _ _ rfl
  apply (refines_scanReference plan reader localSchema account).bind
  intro scannedModel scanned _ hscanned
  exact refines_pure ⟨rfl, h.scanned.insert hscanned, h.prepared⟩

theorem refines_scanUnlessCached {localSchema : Schema} {account : ResourceAccount}
    {plan : ReferencePlan} {model : Preparation (List Record)} {current : Preparation SealedState}
    (h : model.Models current) :
    Refines ExactFault (scanUnlessCached localSchema account plan current : Run ω Fault _)
      (readUnlessCached localSchema plan model) Preparation.Models := by
  unfold scanUnlessCached readUnlessCached
  rw [h.scanned.isSome_find]
  split
  · exact refines_pure h
  · exact refines_scanBound h

theorem refines_prepareRule {localSchema : Schema} {account : ResourceAccount}
    {plan : ReferencePlan} {model : Preparation (List Record)} {current : Preparation SealedState}
    (h : model.Models current) :
    Refines ExactFault (prepareRule localSchema account current plan : Run ω Fault _)
      (readRule localSchema model plan) Preparation.Models := by
  apply (refines_scanUnlessCached h).bind
  intro model current _ h
  apply (refines_someOr (h.scanned.find (referenceCacheKey plan))).bind
  intro scannedModel scanned _ hscanned
  apply refines_pure
  exact ⟨h.bindings_eq, h.scanned,
    List.rel_append h.prepared (.cons ⟨rfl, hscanned⟩ .nil)⟩

/-- Preparation ends as its meaning does, unless its surroundings stop it. -/
theorem refines_prepare (plans : List ReferencePlan) (bindings : ReferenceBindings)
    (localSchema : Schema) (account : ResourceAccount) :
    Refines ExactFault (prepare plans bindings localSchema account : Run ω Fault _)
      (readReferences plans bindings localSchema) (List.Forall₂ PreparedReference.Models) := by
  apply Refines.bind (R := Preparation.Models)
  · apply refines_foldlM
    · intro plan _ model current h
      exact refines_prepareRule h
    · exact ⟨rfl, .nil, .nil⟩
  · intro model current _ h
    dsimp only
    rw [h.bindings_eq]
    apply refines_failIf.bind
    intro _ _ _ _
    exact refines_pure h.prepared

omit [Crates] in
theorem refines_countRows {Env : Fault → Prop}
    (hcancelled : Sat (checkCancelled : Run ω Fault Unit) (fun _ => True) Env)
    (items : List (Except String RecordBatch)) :
    Refines Env (countRows items : Run ω Fault _) (countedRows items) Eq := by
  apply refines_foldlM
  · rintro item _ rows _ rfl
    apply Refines.after hcancelled
    intro _ _
    apply (refines_lift (S := Eq) fun _ _ => rfl).bind
    rintro batch _ _ rfl
    exact refines_pure rfl
  · rfl

omit [Crates] in
theorem refines_countDeltaReferences {Env : Fault → Prop}
    (hcancelled : Sat (checkCancelled : Run ω Fault Unit) (fun _ => True) Env)
    (plans : List RowCountDeltaPlan) (bindings : ReferenceBindings) :
    Refines Env (countDeltaReferences plans bindings : Run ω Fault _)
      (countedReferences plans bindings) Eq := by
  apply refines_foldlM
  · rintro plan _ current _ rfl
    unfold countRule countedRule
    split
    · exact refines_pure rfl
    · apply refines_someOr_self.bind
      rintro reader _ _ rfl
      apply (refines_countRows hcancelled reader.items).bind
      rintro rows _ _ rfl
      exact refines_pure rfl
  · rfl

/-! ## Collecting and comparing -/

/-- The entry of a rule holds the keys collected for it. -/
def ReferenceEntry.Models (Holds : ValueKind → List Record → ExactState → Prop)
    (model : ReferenceEntry (List Record)) (entry : ReferenceEntry ExactState) : Prop :=
  ∃ exact, entry = { plan := model.plan, localKeys := exact } ∧ Holds .bytes model.localKeys exact

/-- The rules before the first batch. -/
def freshEntries (prepared : List (PreparedReference (List Record))) :
    List (ReferenceEntry (List Record)) :=
  prepared.map fun reference => { plan := reference.plan, localKeys := [] }

theorem sat_newReferenceEntries {models : List (PreparedReference (List Record))}
    {prepared : List (PreparedReference SealedState)} (account : ResourceAccount)
    (rowCountHint : Option ℕ) (hprepared : List.Forall₂ PreparedReference.Models models prepared) :
    Sat (newReferenceEntries prepared account rowCountHint : Run ω Fault _)
      (List.Forall₂ (ReferenceEntry.Models fun _ => ExactHolds account.limits) (freshEntries models))
      ExactFault := by
  have hplans : freshEntries models =
      prepared.map fun reference => { plan := reference.plan, localKeys := [] } := by
    unfold freshEntries
    induction hprepared with
    | nil => rfl
    | cons hhead _ ih => rw [List.map_cons, List.map_cons, ih, hhead.1]
  rw [hplans]
  apply (sat_whenever (fun _ => sat_io_exact _) fun _ => trivial).bind
  intro _ _
  apply sat_mapM_models
  intro reference _
  apply (sat_newExact _ account _ rowCountHint).bind
  intro exact hexact
  exact sat_pure ⟨exact, rfl, hexact⟩

variable {limit : ℕ} {evaluated : List ℕ} {findings : List Finding} {validation : ValidationState}

theorem eventsOf_referenceEvents {plan : ReferencePlan} {batch : RecordBatch}
    {positions : List ℕ} : EventsOf .bytes (referenceEvents plan batch) positions := by
  intro position _ row performed h
  obtain ⟨key, -, h⟩ := bind_eq_ok.mp h
  cases h
  cases key with
  | some bytes => exact of_insert rfl
  | none => exact of_record_if

theorem ReferenceEntry.refines_update (keep : Keeping ω) {batch : RecordBatch} {rowOffset : ℕ}
    {model : ReferenceEntry (List Record)} {entry : ReferenceEntry ExactState}
    (hentry : Models keep.Holds model entry) (h : validation.Tracks limit evaluated findings) :
    Refines keep.Env (entry.update batch rowOffset validation : Run ω Fault _)
      (model.observe batch rowOffset) (Observed (Models keep.Holds) limit evaluated findings) := by
  obtain ⟨exact, rfl, hexact⟩ := hentry
  apply (refines_scanExact keep hexact eventsOf_referenceEvents h).bind
  rintro events ⟨exact', validation'⟩ _ ⟨hexact', hvalidation'⟩
  apply refines_pure
  exact ⟨⟨exact', rfl, hexact'⟩, hvalidation'⟩

/-- What the finished rules so far have left. -/
def Keeping.Compared (keep : Keeping ω) (limit : ℕ) (evaluated : List ℕ)
    (outcomes : List ReferenceOutcome) (findings : List Finding) (result : ReferenceResult) :
    Prop :=
  result.outcomes = outcomes ∧
    keep.Finished limit evaluated findings (result.metrics, result.validation)

/-- What a rule leaves at the end: its outcome and all its violations, of which as many as may be
kept were sampled. -/
theorem sat_finishReference {model : ReferenceEntry (List Record)}
    {entry : ReferenceEntry ExactState} {referenceModel : PreparedReference (List Record)}
    {reference : PreparedReference SealedState} {result : ReferenceResult}
    {outcomes : List ReferenceOutcome}
    (hentry : model.Models (fun _ => ExactHolds limits) entry)
    (hreference : referenceModel.Models reference)
    (h : (Keeping.spilling (ω := ω) limits).Compared limit evaluated outcomes findings result) :
    Sat (finishReference limit result (entry, reference) : Run ω Fault _)
      ((Keeping.spilling (ω := ω) limits).Compared limit evaluated
        (outcomes ++ [model.plan.outcome referenceModel.scanned model.localKeys])
        (findings ++ model.plan.found referenceModel.scanned.keys model.localKeys)) ExactFault := by
  obtain ⟨rfl, -, h⟩ := h
  obtain ⟨exact, rfl, hholds, -⟩ := hentry
  obtain ⟨-, ⟨contents, hruns, hperm⟩, hfingerprint, hrows⟩ := hreference
  apply (sat_antiJoinExactStates limit hholds hruns hperm).bind
  rintro summary ⟨hleft, hright, hmissing, hsamples⟩
  have hfindings : (summary.samples.map fun row => model.plan.missingKey row.toNat) =
      (model.plan.found referenceModel.scanned.keys model.localKeys).take limit := by
    rw [hsamples, List.map_map, ReferencePlan.found, ← List.map_take]
    rfl
  have hsampled : summary.samples.length =
      ((model.plan.found referenceModel.scanned.keys model.localKeys).take limit).length := by
    rw [← hfindings, List.length_map]
  have hcount : summary.missing =
      (model.plan.found referenceModel.scanned.keys model.localKeys).length := by
    rw [hmissing, ReferencePlan.found, List.length_map]
    rfl
  dsimp only
  rw [hfindings, hsampled]
  apply h.sat_recordAll.bind
  intro validation hvalidation
  refine sat_pure ⟨?_, trivial, ?_⟩
  · rw [hleft, hright, hmissing, length_values, length_values, hfingerprint, hrows]
    rfl
  · dsimp only
    rw [hcount]
    exact tracks_sampled (Nat.le_refl limit) hvalidation

theorem sat_finishReferences (keep : Keeping ω)
    {Prepared : PreparedReference (List Record) → PreparedReference SealedState → Prop}
    (hfinish : ∀ {model entry referenceModel reference result outcomes findings},
      ReferenceEntry.Models keep.Holds model entry → Prepared referenceModel reference →
      keep.Compared limit evaluated outcomes findings result →
      Sat (finishReference limit result (entry, reference) : Run ω Fault _)
        (keep.Compared limit evaluated
          (outcomes ++ [model.plan.outcome referenceModel.scanned model.localKeys])
          (findings ++ model.plan.found referenceModel.scanned.keys model.localKeys)) keep.Env)
    {models : List (ReferenceEntry (List Record) × PreparedReference (List Record))}
    {pairs : List (ReferenceEntry ExactState × PreparedReference SealedState)}
    (hpairs : List.Forall₂ (fun model pair => model.1.Models keep.Holds pair.1 ∧
      Prepared model.2 pair.2) models pairs) :
    ∀ {outcomes : List ReferenceOutcome} {findings : List Finding} {result : ReferenceResult},
      keep.Compared limit evaluated outcomes findings result →
      Sat (pairs.foldlM (finishReference limit) result : Run ω Fault _)
        (keep.Compared limit evaluated (outcomes ++ referenceOutcomes models)
          (findings ++ referenceFindings models)) keep.Env := by
  induction hpairs with
  | nil =>
      intro outcomes findings result h
      apply sat_pure
      rw [referenceFindings, List.flatMap_nil, List.append_nil, referenceOutcomes, List.map_nil,
        List.append_nil]
      exact h
  | @cons model pair _ _ hhead _ ih =>
      intro outcomes findings result h
      rw [List.foldlM_cons]
      apply (hfinish hhead.1 hhead.2 h).bind
      intro next hnext
      apply (ih hnext).post
      intro last hlast
      rw [List.append_assoc, List.append_assoc] at hlast
      exact hlast

end Refinement

end ProofFrame
