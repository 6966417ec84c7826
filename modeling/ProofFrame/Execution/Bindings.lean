import ProofFrame.Execution.Integrity

/-!
# Which bindings a plan accepts

When preparation succeeds on a complete set of bindings, and when every rule gets
the keys it asks for.  The readers of the datasets are used up by the first rule
that names them, and scans are shared by cache key, so it depends on how the rules
of a plan name datasets and columns (`Separable`).
-/

namespace ProofFrame

open Lib Lib.Run Distinct

/-! ## Datasets a rule can read -/

section Reading

variable [Crates]

/-- The key of every row can be encoded. -/
def Keyable (indexes : List ℕ) (batch : RecordBatch) : Prop :=
  ∀ row < batch.rows, ∃ bytes, encodeKey batch indexes row = .ok bytes

/-- The dataset can be fingerprinted and its keys encoded. -/
def ReferencePlan.Supports (plan : ReferencePlan) (dataset : BatchReader) : Prop :=
  dataset.schema.encodable = true ∧ ∃ indexes, plan.keyColumns dataset.schema = some indexes ∧
    ∀ batch, .ok batch ∈ dataset.items → Keyable indexes batch

/-- Every batch of the dataset arrives and has the schema of the dataset. -/
def BatchReader.Delivers (dataset : BatchReader) : Prop :=
  ∃ batches : List RecordBatch, dataset.items = batches.map .ok ∧
    ∀ batch ∈ batches, batch.schema = dataset.schema

theorem keyRecords_exists_iff {indexes : List ℕ} {batch : RecordBatch} {rows : ℕ} :
    (∃ records, keyRecords indexes batch rows = .ok records) ↔ Keyable indexes batch := by
  have hfold : ∀ items : List ℕ, ∀ done : List Record,
      (∃ records, items.foldlM (fun done row => do
        let records ← keyRecord indexes batch rows row
        .ok (done ++ records)) done = .ok records) ↔
      ∀ row ∈ items, ∃ bytes, encodeKey batch indexes row = .ok bytes := by
    intro items
    induction items with
    | nil => exact fun done => ⟨fun _ _ h => absurd h (by simp), fun _ => ⟨done, rfl⟩⟩
    | cons row items ih =>
        intro done
        rw [List.forall_mem_cons]
        constructor
        · rintro ⟨records, h⟩
          rw [List.foldlM_cons] at h
          obtain ⟨next, hnext, hrest⟩ := bind_eq_ok.mp h
          obtain ⟨found, hfound, -⟩ := bind_eq_ok.mp hnext
          obtain ⟨bytes, hbytes, -⟩ := bind_eq_ok.mp hfound
          exact ⟨⟨bytes, hbytes⟩, (ih next).mp ⟨records, hrest⟩⟩
        · rintro ⟨⟨bytes, hbytes⟩, hrest⟩
          obtain ⟨records, hrecords⟩ := (ih (done ++ _)).mpr hrest
          refine ⟨records, ?_⟩
          rw [List.foldlM_cons]
          exact bind_eq_ok.mpr ⟨_, bind_eq_ok.mpr ⟨_, bind_eq_ok.mpr ⟨bytes, hbytes, rfl⟩, rfl⟩,
            hrecords⟩
  rw [keyRecords, hfold]
  simp [Keyable]

theorem V2FingerprintState.new_schema {schema : Schema} {selected : List String}
    {state : V2FingerprintState} (h : V2FingerprintState.new schema selected = .ok state) :
    state.schema = schema := by
  obtain ⟨_, -, h⟩ := bind_eq_ok.mp h
  obtain ⟨_, -, h⟩ := bind_eq_ok.mp h
  cases h
  rfl

theorem encodable_of_new {schema : Schema} {selected : List String} {state : V2FingerprintState}
    (h : V2FingerprintState.new schema selected = .ok state) : schema.encodable = true := by
  have hsupports := V2FingerprintState.supports_new schema selected
  rw [h] at hsupports
  exact hsupports

/-- The batches of a supported dataset are read one after the other. -/
theorem exists_readBatches (plan : ReferencePlan) (indexes : List ℕ) {schema : Schema}
    {batches : List RecordBatch} (hencodable : schema.encodable = true) :
    ∀ {scan : ReferenceScan (List Record)}, scan.fingerprint.schema = schema →
      (∀ batch ∈ batches, batch.schema = schema ∧ Keyable indexes batch) →
      ∃ last, (batches.map .ok).foldlM (readReferenceBatch plan schema indexes) scan = .ok last := by
  induction batches with
  | nil => exact fun {scan} _ _ => ⟨scan, rfl⟩
  | cons batch batches ih =>
      intro scan hscan h
      obtain ⟨hschema, hkeyable⟩ := h batch (List.mem_cons_self ..)
      obtain ⟨fingerprint, hupdate, hnext, -⟩ := V2FingerprintState.exists_update
        (hschema.trans hscan.symm) (by rw [hscan, hencodable])
      obtain ⟨records, hrecords⟩ := keyRecords_exists_iff.mpr hkeyable
      let next : ReferenceScan (List Record) :=
        { keys := scan.keys ++ records, fingerprint, rows := scan.rows + batch.rows }
      have hread : readReferenceBatch plan schema indexes scan (.ok batch) = .ok next :=
        bind_eq_ok.mpr ⟨batch, rfl, bind_eq_ok.mpr ⟨(), rejectIf_eq_ok.mpr (by simp [hschema]),
          bind_eq_ok.mpr ⟨fingerprint, hupdate, bind_eq_ok.mpr ⟨records, hrecords, rfl⟩⟩⟩⟩
      have hfingerprint : next.fingerprint.schema = schema := hnext.trans hscan
      obtain ⟨last, hlast⟩ := ih hfingerprint fun other hother =>
        h other (List.mem_cons_of_mem _ hother)
      refine ⟨last, ?_⟩
      rw [List.map_cons, List.foldlM_cons]
      exact bind_eq_ok.mpr ⟨_, hread, hlast⟩

/-- A dataset is read if its types match and it is supported, provided that it arrives. -/
theorem exists_readReference_iff {plan : ReferencePlan} {dataset : BatchReader}
    {localSchema : Schema} (hdelivers : dataset.Delivers) :
    (∃ scanned, readReference plan dataset localSchema = .ok scanned) ↔
      plan.Matches localSchema dataset.schema ∧ plan.Supports dataset := by
  constructor
  · rintro ⟨scanned, h⟩
    obtain ⟨indexes, hindexes, h⟩ := bind_eq_ok.mp h
    obtain ⟨fingerprint, hfingerprint, h⟩ := bind_eq_ok.mp h
    obtain ⟨scan, hscan, -⟩ := bind_eq_ok.mp h
    obtain ⟨hcolumns, hmatches⟩ := resolveReferenceKey_eq_ok hindexes
    refine ⟨hmatches, encodable_of_new hfingerprint, indexes, hcolumns, ?_⟩
    have hread := foldlM_invariant (P := fun items (_ : ReferenceScan (List Record)) =>
      ∀ batch, .ok batch ∈ items → Keyable indexes batch) (by simp) ?_ hscan
    · exact hread
    · intro done item current next _ hdone hnext batch hbatch
      rcases List.mem_append.mp hbatch with hbatch | hbatch
      · exact hdone batch hbatch
      · obtain rfl := List.mem_singleton.mp hbatch
        obtain ⟨_, harrived, hnext⟩ := bind_eq_ok.mp hnext
        cases arrowItem_eq_ok.mp harrived
        obtain ⟨_, -, hnext⟩ := bind_eq_ok.mp hnext
        obtain ⟨_, -, hnext⟩ := bind_eq_ok.mp hnext
        obtain ⟨records, hrecords, -⟩ := bind_eq_ok.mp hnext
        exact keyRecords_exists_iff.mp ⟨records, hrecords⟩
  · rintro ⟨hmatches, hencodable, indexes, hcolumns, hkeyable⟩
    obtain ⟨indexes', hindexes⟩ := hmatches.exists_indexes
    obtain rfl : indexes' = indexes :=
      Option.some.inj ((resolveReferenceKey_eq_ok hindexes).1.symm.trans hcolumns)
    have hsupports := V2FingerprintState.supports_new dataset.schema []
    rw [hencodable] at hsupports
    obtain ⟨fingerprint, hfingerprint⟩ := hsupports.exists_ok
    obtain ⟨batches, hitems, hschemas⟩ := hdelivers
    have hbatches : ∀ batch ∈ batches, batch.schema = dataset.schema ∧ Keyable indexes' batch := by
      intro batch hbatch
      refine ⟨hschemas batch hbatch, hkeyable batch ?_⟩
      rw [hitems]
      exact List.mem_map_of_mem hbatch
    have hstart : ({ keys := [], fingerprint, rows := 0 } : ReferenceScan (List Record)).fingerprint.schema
        = dataset.schema := V2FingerprintState.new_schema hfingerprint
    obtain ⟨last, hlast⟩ := exists_readBatches plan indexes' hencodable hstart hbatches
    rw [← hitems] at hlast
    exact ⟨_, bind_eq_ok.mpr ⟨indexes', hindexes, bind_eq_ok.mpr ⟨fingerprint, hfingerprint,
      bind_eq_ok.mpr ⟨last, hlast, rfl⟩⟩⟩⟩

/-! ## Loading rules -/

variable {bindings : ReferenceBindings} {localSchema : Schema} {plans done : List ReferencePlan}

/-- Each loading rule has used up the reader of its dataset, so no two of them name the same. -/
structure Apart (done : List ReferencePlan) (current : Preparation (List Record)) : Prop where
  cached : ∀ plan ∈ done, (SortedMap.find (referenceCacheKey plan) current.scanned).isSome
  fresh : ∀ plan, (SortedMap.find (referenceCacheKey plan) current.scanned).isSome →
    ∃ loader, loadingRule done plan = some loader
  used : ∀ plan loader, loadingRule done plan = some loader →
    SortedMap.find loader.reference current.bindings = none
  distinct : ∀ plan other loader loader', loadingRule done plan = some loader →
    loadingRule done other = some loader' → loader.reference = loader'.reference → loader = loader'

theorem Apart.readRule {current next : Preparation (List Record)} {plan : ReferencePlan}
    (h : Apart done current) (hnext : readRule localSchema current plan = .ok next) :
    Apart (done ++ [plan]) next := by
  obtain ⟨middle, hmiddle, hnext⟩ := bind_eq_ok.mp hnext
  obtain ⟨scanned, -, hnext⟩ := bind_eq_ok.mp hnext
  cases hnext
  unfold readUnlessCached at hmiddle
  split at hmiddle
  · rename_i hcached
    cases hmiddle
    -- the rule is not the first with its cache key, so the loading rules are the same
    obtain ⟨loader, hloader⟩ := h.fresh plan hcached
    have hsame : ∀ other, loadingRule (done ++ [plan]) other = loadingRule done other := by
      intro other
      cases hother : loadingRule done other with
      | some found => exact loadingRule_append_of_some hother
      | none =>
          unfold loadingRule at hother hloader ⊢
          rw [List.find?_append, hother, Option.none_or, List.find?_singleton, if_neg]
          intro heq
          rw [decide_eq_true_eq] at heq
          rw [heq, hother] at hloader
          cases hloader
    refine ⟨?_, ?_, ?_, ?_⟩
    · intro other hother
      rcases List.mem_append.mp hother with hother | hother
      · exact h.cached other hother
      · rw [List.mem_singleton.mp hother]
        exact hcached
    · intro other hother
      rw [hsame]
      exact h.fresh other hother
    · intro other
      rw [hsame]
      exact h.used other
    · intro other other'
      rw [hsame, hsame]
      exact h.distinct other other'
  · rename_i hcached
    -- the rule loads its keys and takes a reader that no loading rule before it has taken
    have hfind : SortedMap.find (referenceCacheKey plan) current.scanned = none := by
      simpa using hcached
    obtain ⟨reader, hreader, hmiddle⟩ := bind_eq_ok.mp hmiddle
    obtain ⟨scan, -, hmiddle⟩ := bind_eq_ok.mp hmiddle
    cases hmiddle
    rw [required_eq_ok] at hreader
    have hsplit : ∀ other loader, loadingRule (done ++ [plan]) other = some loader →
        loadingRule done other = some loader ∨ loader = plan := by
      intro other loader hloader
      unfold loadingRule at hloader ⊢
      rw [List.find?_append] at hloader
      rcases Option.or_eq_some_iff.mp hloader with hold | ⟨-, hnew⟩
      · exact .inl hold
      · exact .inr (List.mem_singleton.mp (List.mem_of_find?_eq_some hnew))
    have hnew : ∀ loader other, loadingRule done other = some loader →
        loader.reference ≠ plan.reference := by
      intro loader other hloader heq
      have hused := h.used other loader hloader
      rw [heq, hreader] at hused
      cases hused
    refine ⟨?_, ?_, ?_, ?_⟩
    · intro other hother
      dsimp only
      by_cases heq : referenceCacheKey other = referenceCacheKey plan
      · rw [heq, SortedMap.find_insert_self]
        rfl
      · rw [SortedMap.find_insert_of_ne heq]
        rcases List.mem_append.mp hother with hother | hother
        · exact h.cached other hother
        · rw [List.mem_singleton.mp hother] at heq
          exact absurd rfl heq
    · intro other hother
      dsimp only at hother
      by_cases heq : referenceCacheKey other = referenceCacheKey plan
      · rw [loadingRule_congr heq]
        exact exists_loadingRule (by simp)
      · rw [SortedMap.find_insert_of_ne heq] at hother
        obtain ⟨loader, hloader⟩ := h.fresh other hother
        exact ⟨loader, loadingRule_append_of_some hloader⟩
    · intro other loader hloader
      rcases hsplit other loader hloader with hold | rfl
      · exact SortedMap.find_remove_of_none (h.used other loader hold)
      · exact SortedMap.find_remove_self
    · intro other other' loader loader' hloader hloader' heq
      rcases hsplit other loader hloader with hold | rfl
      · rcases hsplit other' loader' hloader' with hold' | rfl
        · exact h.distinct other other' loader loader' hold hold' heq
        · exact absurd heq (hnew loader other hold)
      · rcases hsplit other' loader' hloader' with hold' | rfl
        · exact absurd heq.symm (hnew loader' other' hold')
        · rfl

/-- Loading rules that name the same dataset are the same. -/
theorem loadingRule_distinct {prepared : List (PreparedReference (List Record))}
    (h : readReferences plans bindings localSchema = .ok prepared)
    {plan other loader loader' : ReferencePlan} (hloader : loadingRule plans plan = some loader)
    (hloader' : loadingRule plans other = some loader')
    (heq : loader.reference = loader'.reference) : loader = loader' := by
  obtain ⟨current, hrun, -⟩ := bind_eq_ok.mp h
  have hapart := foldlM_invariant (P := Apart)
    ⟨by simp, by simp, by simp [loadingRule], by simp [loadingRule]⟩
    (fun done plan current next _ h hnext => h.readRule hnext) hrun
  exact hapart.distinct plan other loader loader' hloader hloader' heq

/-! ## Complete bindings -/

/-- The bindings are those of the datasets the rules name, the datasets arrive, and wherever a
references rule names one, it has the key columns of the rule with matching types. -/
structure CompleteBindings (plan : DatasetPlan) (localSchema : Schema)
    (bindings : ReferenceBindings) : Prop where
  names : ∀ name, (SortedMap.find name bindings).isSome ↔
    (∃ rule ∈ plan.references, rule.reference = name) ∨
      ∃ rule ∈ plan.rowCountDelta, rule.reference = name
  delivers : ∀ name dataset, SortedMap.find name bindings = some dataset → dataset.Delivers
  comparable : ∀ rule ∈ plan.references, ∀ dataset,
    SortedMap.find rule.reference bindings = some dataset → rule.Matches localSchema dataset.schema

/-- No dataset is asked for in two ways. -/
structure Separable (plan : DatasetPlan) (bindings : ReferenceBindings) : Prop where
  counted_apart : ∀ rule ∈ plan.references, ∀ delta ∈ plan.rowCountDelta,
    rule.reference ≠ delta.reference
  one_key_set : ∀ rule ∈ plan.references, ∀ other ∈ plan.references,
    rule.reference = other.reference → rule.referenceColumns = other.referenceColumns
  keys_apart : ∀ rule ∈ plan.references, ∀ other ∈ plan.references,
    referenceCacheKey rule = referenceCacheKey other → rule.reference = other.reference
  supported : ∀ rule ∈ plan.references, ∀ dataset,
    SortedMap.find rule.reference bindings = some dataset → rule.Supports dataset

omit [Crates] in
theorem referenceCacheKey_congr {plan other : ReferencePlan}
    (hreference : plan.reference = other.reference)
    (hcolumns : plan.referenceColumns = other.referenceColumns) :
    referenceCacheKey plan = referenceCacheKey other := by
  rw [referenceCacheKey, referenceCacheKey, hreference, hcolumns]

omit [Crates] in
theorem countedRows_delivered (batches : List RecordBatch) :
    countedRows (batches.map .ok) = .ok (totalRows batches) := by
  have hrun := exists_foldlM (l := batches.map .ok) (a := 0)
    (f := fun rows item => do
      let batch ← arrowItem item
      .ok (rows + batch.rows))
    (P := fun items rows => ∃ seen : List RecordBatch, items = seen.map .ok ∧
      rows = totalRows seen) ⟨[], rfl, rfl⟩ ?_
  · obtain ⟨rows, hrows, seen, hseen, rfl⟩ := hrun
    obtain rfl := List.map_injective_iff.mpr (fun _ _ h => Except.ok.inj h) hseen
    exact hrows
  · rintro done item current hitem ⟨seen, rfl, rfl⟩
    obtain ⟨batch, -, rfl⟩ := List.mem_map.mp hitem
    exact ⟨_, rfl, seen ++ [batch], by simp, by rw [totalRows_snoc]⟩

/-- What is counted after the rules `done`. -/
structure Counted (bindings : ReferenceBindings) (done : List RowCountDeltaPlan)
    (current : DeltaCounts) : Prop where
  left : ∀ name, SortedMap.find name current.counted = none →
    SortedMap.find name current.bindings = SortedMap.find name bindings
  counted : ∀ name rows, SortedMap.find name current.counted = some rows →
    ∃ dataset batches, SortedMap.find name bindings = some dataset ∧
      dataset.items = batches.map .ok ∧ rows = totalRows batches
  mem : ∀ name, (SortedMap.find name current.counted).isSome ↔
    ∃ rule ∈ done, rule.reference = name

omit [Crates] in
theorem Counted.exists_countedRule {bindings : ReferenceBindings} {done : List RowCountDeltaPlan}
    {current : DeltaCounts} {rule : RowCountDeltaPlan} {dataset : BatchReader}
    (h : Counted bindings done current)
    (hbound : SortedMap.find rule.reference bindings = some dataset) (hdelivers : dataset.Delivers) :
    ∃ next, countedRule current rule = .ok next ∧ Counted bindings (done ++ [rule]) next := by
  have hmem : ∀ name, (∃ other ∈ done ++ [rule], other.reference = name) ↔
      (∃ other ∈ done, other.reference = name) ∨ name = rule.reference := by
    intro name
    simp only [List.mem_append, List.mem_singleton, or_and_right, exists_or, exists_eq_left]
    rw [eq_comm (a := name)]
  unfold countedRule
  by_cases hcounted : (SortedMap.find rule.reference current.counted).isSome
  · rw [if_pos hcounted]
    refine ⟨current, rfl, h.left, h.counted, ?_⟩
    intro name
    rw [hmem, h.mem]
    constructor
    · exact .inl
    · rintro (hname | rfl)
      · exact hname
      · exact (h.mem _).mp hcounted
  · rw [if_neg hcounted]
    -- the dataset is counted for the first time, so its reader is still there
    have hnone : SortedMap.find rule.reference current.counted = none := by simpa using hcounted
    obtain ⟨batches, hitems, -⟩ := hdelivers
    refine ⟨_, bind_eq_ok.mpr ⟨dataset, ?_, bind_eq_ok.mpr ⟨totalRows batches, ?_, rfl⟩⟩, ?_⟩
    · rw [required_eq_ok, h.left _ hnone, hbound]
    · rw [hitems, countedRows_delivered]
    · constructor
      case left =>
        intro name hname
        by_cases heq : name = rule.reference
        · subst heq
          rw [SortedMap.find_insert_self] at hname
          cases hname
        · rw [SortedMap.find_insert_of_ne heq] at hname
          rw [SortedMap.find_remove_of_ne heq, h.left name hname]
      case counted =>
        intro name rows hrows
        by_cases heq : name = rule.reference
        · subst heq
          rw [SortedMap.find_insert_self] at hrows
          cases hrows
          exact ⟨dataset, batches, hbound, hitems, rfl⟩
        · rw [SortedMap.find_insert_of_ne heq] at hrows
          exact h.counted name rows hrows
      case mem =>
        intro name
        rw [hmem]
        by_cases heq : name = rule.reference
        · subst heq
          rw [SortedMap.find_insert_self]
          simp
        · rw [SortedMap.find_insert_of_ne heq, h.mem]
          simp [heq]

omit [Crates] in
/-- The datasets of the `row_count_delta` rules are counted, and the other readers are left. -/
theorem exists_countedReferences (rules : List RowCountDeltaPlan) (bindings : ReferenceBindings)
    (hbound : ∀ rule ∈ rules, ∃ dataset,
      SortedMap.find rule.reference bindings = some dataset ∧ dataset.Delivers) :
    ∃ delta, countedReferences rules bindings = .ok delta ∧ Counted bindings rules delta := by
  apply exists_foldlM (P := Counted bindings)
  · exact ⟨fun _ _ => rfl, by simp, by simp⟩
  · intro done rule current hrule h
    obtain ⟨dataset, hdataset, hdelivers⟩ := hbound rule hrule
    exact h.exists_countedRule hdataset hdelivers

/-- The rules `done` have used up the readers of the datasets they name, and no others. -/
structure Loaded (bindings : ReferenceBindings) (done : List ReferencePlan)
    (current : Preparation (List Record)) : Prop where
  left : ∀ name, (∀ rule ∈ done, rule.reference ≠ name) →
    SortedMap.find name current.bindings = SortedMap.find name bindings
  used : ∀ rule ∈ done, SortedMap.find rule.reference current.bindings = none
  cached : ∀ rule ∈ done, (SortedMap.find (referenceCacheKey rule) current.scanned).isSome
  fresh : ∀ rule, (SortedMap.find (referenceCacheKey rule) current.scanned).isSome →
    ∃ other ∈ done, referenceCacheKey other = referenceCacheKey rule

theorem Loaded.exists_readRule {current : Preparation (List Record)} {rule : ReferencePlan}
    {dataset : BatchReader}
    (h : Loaded bindings done current)
    (hsame : ∀ other ∈ done, referenceCacheKey other = referenceCacheKey rule ↔
      other.reference = rule.reference)
    (hbound : SortedMap.find rule.reference bindings = some dataset)
    (hread : (SortedMap.find (referenceCacheKey rule) current.scanned).isSome ∨
      ∃ scanned, readReference rule dataset localSchema = .ok scanned) :
    ∃ next, readRule localSchema current rule = .ok next ∧
      Loaded bindings (done ++ [rule]) next := by
  unfold readRule readUnlessCached
  by_cases hcached : (SortedMap.find (referenceCacheKey rule) current.scanned).isSome
  · rw [if_pos hcached]
    obtain ⟨found, hfound⟩ := Option.isSome_iff_exists.mp hcached
    -- an earlier rule with this cache key has used the reader of the same name
    obtain ⟨earlier, hearlier, hkey⟩ := h.fresh rule hcached
    have hname := (hsame earlier hearlier).mp hkey
    refine ⟨_, bind_eq_ok.mpr ⟨current, rfl, bind_eq_ok.mpr ⟨found, required_eq_ok.mpr hfound, rfl⟩⟩,
      ?_⟩
    constructor
    case left =>
      intro name hname
      exact h.left name fun other hother => hname other (List.mem_append_left _ hother)
    case used =>
      intro other hother
      rcases List.mem_append.mp hother with hother | hother
      · exact h.used other hother
      · rw [List.mem_singleton.mp hother, ← hname]
        exact h.used earlier hearlier
    case cached =>
      intro other hother
      rcases List.mem_append.mp hother with hother | hother
      · exact h.cached other hother
      · rw [List.mem_singleton.mp hother]
        exact hcached
    case fresh =>
      intro other hother
      obtain ⟨earlier, hearlier, hkey⟩ := h.fresh other hother
      exact ⟨earlier, List.mem_append_left _ hearlier, hkey⟩
  · rw [if_neg hcached]
    obtain ⟨scanned, hread⟩ := hread.resolve_left hcached
    -- a used reader would have left its keys in the cache
    have hunused : ∀ other ∈ done, other.reference ≠ rule.reference := by
      intro other hother heq
      rw [← (hsame other hother).mpr heq] at hcached
      exact hcached (h.cached other hother)
    refine ⟨_, bind_eq_ok.mpr ⟨_, bind_eq_ok.mpr ⟨dataset, ?_, bind_eq_ok.mpr ⟨scanned, hread, rfl⟩⟩,
      bind_eq_ok.mpr ⟨scanned, required_eq_ok.mpr SortedMap.find_insert_self, rfl⟩⟩, ?_⟩
    · rw [required_eq_ok, h.left _ hunused, hbound]
    · constructor
      case left =>
        intro name hname
        have hne : name ≠ rule.reference := (hname rule (by simp)).symm
        dsimp only
        rw [SortedMap.find_remove_of_ne hne]
        exact h.left name fun other hother => hname other (List.mem_append_left _ hother)
      case used =>
        intro other hother
        rcases List.mem_append.mp hother with hother | hother
        · exact SortedMap.find_remove_of_none (h.used other hother)
        · rw [List.mem_singleton.mp hother]
          exact SortedMap.find_remove_self
      case cached =>
        intro other hother
        dsimp only
        by_cases heq : referenceCacheKey other = referenceCacheKey rule
        · rw [heq, SortedMap.find_insert_self]
          rfl
        · rw [SortedMap.find_insert_of_ne heq]
          rcases List.mem_append.mp hother with hother | hother
          · exact h.cached other hother
          · rw [List.mem_singleton.mp hother] at heq
            exact absurd rfl heq
      case fresh =>
        intro other hother
        dsimp only at hother
        by_cases heq : referenceCacheKey other = referenceCacheKey rule
        · exact ⟨rule, by simp, heq.symm⟩
        · rw [SortedMap.find_insert_of_ne heq] at hother
          obtain ⟨earlier, hearlier, hkey⟩ := h.fresh other hother
          exact ⟨earlier, List.mem_append_left _ hearlier, hkey⟩

omit [Crates] in
/-- When all names are used, no reader is left. -/
theorem Loaded.keys_eq_nil {current : Preparation (List Record)} (h : Loaded bindings done current)
    (hnames : ∀ name, (SortedMap.find name bindings).isSome → ∃ rule ∈ done, rule.reference = name) :
    SortedMap.keys current.bindings = [] := by
  rw [List.eq_nil_iff_forall_not_mem]
  intro name hname
  rw [SortedMap.mem_keys_iff] at hname
  by_cases hused : ∃ rule ∈ done, rule.reference = name
  · obtain ⟨rule, hrule, rfl⟩ := hused
    rw [h.used rule hrule] at hname
    cases hname
  · rw [h.left name fun rule hrule heq => hused ⟨rule, hrule, heq⟩] at hname
    exact hused (hnames name hname)

/-- The rules of a separable plan are prepared. -/
theorem exists_readReferences
    (hnames : ∀ name, (SortedMap.find name bindings).isSome → ∃ rule ∈ plans, rule.reference = name)
    (hsame : ∀ rule ∈ plans, ∀ other ∈ plans, referenceCacheKey other = referenceCacheKey rule ↔
      other.reference = rule.reference)
    (hread : ∀ rule ∈ plans, ∃ dataset scanned,
      SortedMap.find rule.reference bindings = some dataset ∧
      readReference rule dataset localSchema = .ok scanned) :
    ∃ prepared, readReferences plans bindings localSchema = .ok prepared := by
  have hrun := exists_foldlM (l := plans) (f := readRule localSchema)
    (a := { bindings, scanned := [], prepared := [] })
    (P := fun done current => Loaded bindings done current ∧ ∀ rule ∈ done, rule ∈ plans)
    ⟨⟨fun _ _ => rfl, by simp, by simp, by simp⟩, by simp⟩ ?_
  · obtain ⟨last, hlast, hloaded, -⟩ := hrun
    exact ⟨last.prepared, bind_eq_ok.mpr ⟨last, hlast, bind_eq_ok.mpr ⟨(),
      rejectIf_eq_ok.mpr (not_not.mpr (hloaded.keys_eq_nil hnames)), rfl⟩⟩⟩
  · rintro done rule current hrule ⟨h, hdone⟩
    obtain ⟨dataset, scanned, hdataset, hscanned⟩ := hread rule hrule
    obtain ⟨next, hnext, hinvariant⟩ := h.exists_readRule
      (fun other hother => hsame rule hrule other (hdone other hother)) hdataset
      (.inr ⟨scanned, hscanned⟩)
    refine ⟨next, hnext, hinvariant, ?_⟩
    intro other hother
    rcases List.mem_append.mp hother with hother | hother
    · exact hdone other hother
    · rw [List.mem_singleton.mp hother]
      exact hrule

/-- In a separable plan, rules share their keys exactly when they name the same dataset. -/
theorem Separable.same_iff {plan : DatasetPlan} (h : Separable plan bindings)
    {rule other : ReferencePlan} (hrule : rule ∈ plan.references) (hother : other ∈ plan.references) :
    referenceCacheKey other = referenceCacheKey rule ↔ other.reference = rule.reference := by
  constructor
  · exact h.keys_apart other hother rule hrule
  · intro heq
    exact referenceCacheKey_congr heq (h.one_key_set other hother rule hrule heq)

/-- A separable plan starts on complete bindings. -/
theorem exists_startMeaning (maxMemoryBytes : ℕ) {reader : BatchReader} {plan : CompiledContract}
    (hschema : reader.schema = plan.schema)
    (hcomplete : CompleteBindings plan.datasetPlan plan.schema bindings)
    (hseparable : Separable plan.datasetPlan bindings) :
    ∃ start, startMeaning reader plan false bindings maxMemoryBytes = .ok start := by
  obtain ⟨delta, hdelta, hcounted⟩ := exists_countedReferences plan.datasetPlan.rowCountDelta
    bindings <| by
      intro rule hrule
      obtain ⟨dataset, hdataset⟩ :=
        Option.isSome_iff_exists.mp ((hcomplete.names _).mpr (.inr ⟨rule, hrule, rfl⟩))
      exact ⟨dataset, hdataset, hcomplete.delivers _ _ hdataset⟩
  have hleft : ∀ rule ∈ plan.datasetPlan.references,
      SortedMap.find rule.reference delta.bindings = SortedMap.find rule.reference bindings := by
    intro rule hrule
    apply hcounted.left
    rw [← Option.not_isSome_iff_eq_none, hcounted.mem]
    rintro ⟨other, hother, heq⟩
    exact hseparable.counted_apart rule hrule other hother heq.symm
  suffices hprepared : ∃ prepared,
      readReferences plan.datasetPlan.references delta.bindings plan.schema = .ok prepared by
    obtain ⟨prepared, hprepared⟩ := hprepared
    exact ⟨_, bind_eq_ok.mpr ⟨(), rejectIf_eq_ok.mpr (by simp [hschema]), bind_eq_ok.mpr ⟨none, rfl,
      bind_eq_ok.mpr ⟨delta, hdelta, bind_eq_ok.mpr ⟨prepared, hprepared, rfl⟩⟩⟩⟩⟩
  apply exists_readReferences _ (fun rule hrule other hother => hseparable.same_iff hrule hother) _
  · intro name hname
    obtain ⟨dataset, hdataset⟩ := Option.isSome_iff_exists.mp hname
    have hbound := (countedReferences_eq_ok hdelta).1 name dataset hdataset
    rcases (hcomplete.names name).mp (by rw [hbound]; rfl) with hrule | ⟨rule, hrule, rfl⟩
    · exact hrule
    · rw [(countedReferences_eq_ok hdelta).2 rule hrule] at hdataset
      cases hdataset
  · intro rule hrule
    obtain ⟨dataset, hdataset⟩ :=
      Option.isSome_iff_exists.mp ((hcomplete.names _).mpr (.inl ⟨rule, hrule, rfl⟩))
    obtain ⟨scanned, hscanned⟩ := (exists_readReference_iff (hcomplete.delivers _ _ hdataset)).mpr
      ⟨hcomplete.comparable rule hrule dataset hdataset,
        hseparable.supported rule hrule dataset hdataset⟩
    exact ⟨dataset, scanned, by rw [hleft rule hrule, hdataset], hscanned⟩

end Reading

/-! ## Resolution -/

/-- Every references rule has the keys of the dataset it names in the columns it names, and every
`row_count_delta` rule the number of rows of the dataset it names. -/
structure Resolved [Crates] (plan : CompiledContract) (bindings : ReferenceBindings)
    (started : Started) : Prop where
  references : List.Forall₂ (fun rule reference => reference.plan = rule ∧ ∃ loader model,
    loadingRule plan.datasetPlan.references rule = some loader ∧
    loader.reference = rule.reference ∧ loader.referenceColumns = rule.referenceColumns ∧
    LoadedBy bindings plan.schema loader model ∧
    ScannedReference.Models model reference.scanned) plan.datasetPlan.references started.prepared
  counts : ∀ rule ∈ plan.datasetPlan.rowCountDelta, ∃ dataset batches,
    SortedMap.find rule.reference bindings = some dataset ∧ dataset.items = batches.map .ok ∧
    SortedMap.find rule.reference started.counted = some (totalRows batches)

section Start

variable {ω : Type} [Host ω] [Crates] {reader : BatchReader} {plan : CompiledContract}
  {options : ExecutionOptions} {account : ResourceAccount} {bindings : ReferenceBindings}
  {world : ω}

/-- **Complete bindings resolve.**  Without faults of the surroundings, a run starts on complete
bindings with every rule resolved if and only if the plan is separable. -/
theorem startExecution_resolves_iff {outcome : Except Fault (Started × ω)}
    (hschema : reader.schema = plan.schema)
    (hcomplete : CompleteBindings plan.datasetPlan plan.schema bindings)
    (hrun : startExecution reader plan options false account bindings world = outcome)
    (hquiet : ∀ fault, outcome = .error fault → ¬ExactFault fault) :
    (∃ started world', outcome = .ok (started, world') ∧ Resolved plan bindings started) ↔
      Separable plan.datasetPlan bindings := by
  have hrefines := refines_startExecution (ω := ω) reader plan options false account bindings
  constructor
  · rintro ⟨started, world', rfl, hresolved⟩
    obtain ⟨start, hstart, hmodels⟩ := hrefines.of_ok hrun
    obtain ⟨_, -, hstart⟩ := bind_eq_ok.mp hstart
    obtain ⟨_, -, hstart⟩ := bind_eq_ok.mp hstart
    obtain ⟨delta, hdelta, hstart⟩ := bind_eq_ok.mp hstart
    obtain ⟨prepared, hprepared, hstart⟩ := bind_eq_ok.mp hstart
    cases hstart
    -- every rule has its own dataset and columns through its loading rule
    have hown : ∀ rule ∈ plan.datasetPlan.references, ∃ loader scanned,
        loadingRule plan.datasetPlan.references rule = some loader ∧
        loader.reference = rule.reference ∧ loader.referenceColumns = rule.referenceColumns ∧
        LoadedBy delta.bindings plan.schema loader scanned := by
      intro rule hrule
      obtain ⟨reference, -, -, loader, -, hloader, hname, hcolumns, -⟩ :=
        exists_of_forall₂ hresolved.references hrule
      obtain ⟨model, -, -, loader', hloader', hloaded⟩ :=
        exists_of_forall₂ (readReferences_eq_ok hprepared) hrule
      obtain rfl : loader = loader' := Option.some.inj (hloader.symm.trans hloader')
      exact ⟨loader, model.scanned, hloader, hname, hcolumns, hloaded⟩
    have hleft := (countedReferences_eq_ok hdelta).1
    constructor
    case counted_apart =>
      intro rule hrule other hother heq
      obtain ⟨loader, _, -, hname, -, dataset, hdataset, -⟩ := hown rule hrule
      rw [hname, heq, (countedReferences_eq_ok hdelta).2 other hother] at hdataset
      cases hdataset
    case one_key_set =>
      intro rule hrule other hother heq
      obtain ⟨loader, _, hloader, hname, hcolumns, -⟩ := hown rule hrule
      obtain ⟨loader', _, hloader', hname', hcolumns', -⟩ := hown other hother
      obtain rfl : loader = loader' := by
        apply loadingRule_distinct hprepared hloader hloader'
        rw [hname, heq, hname']
      rw [← hcolumns, hcolumns']
    case keys_apart =>
      intro rule hrule other hother heq
      obtain ⟨loader, _, hloader, hname, -⟩ := hown rule hrule
      obtain ⟨loader', _, hloader', hname', -⟩ := hown other hother
      rw [loadingRule_congr heq] at hloader
      obtain rfl : loader = loader' := Option.some.inj (hloader.symm.trans hloader')
      rw [← hname, hname']
    case supported =>
      intro rule hrule dataset hdataset
      obtain ⟨loader, scanned, -, hname, hcolumns, dataset', hdataset', hread⟩ := hown rule hrule
      obtain rfl : dataset = dataset' := by
        have := hleft _ _ hdataset'
        rw [hname, hdataset] at this
        exact Option.some.inj this
      have hsupports := ((exists_readReference_iff (hcomplete.delivers _ _ hdataset)).mp
        ⟨scanned, hread⟩).2
      unfold ReferencePlan.Supports ReferencePlan.keyColumns at hsupports ⊢
      rwa [hcolumns] at hsupports
  · intro hseparable
    -- the meaning of the start exists, so what goes wrong is a fault of the surroundings
    obtain ⟨start, hstart⟩ := exists_startMeaning account.limits.maxMemoryBytes hschema hcomplete
      hseparable
    cases outcome with
    | error fault =>
        rcases hrefines.of_error hrun with henvironment | hfault
        · exact absurd henvironment (hquiet fault rfl)
        · rw [hstart] at hfault
          cases hfault
    | ok ended =>
        obtain ⟨started, world'⟩ := ended
        obtain ⟨start, hstart, hmodels⟩ := hrefines.of_ok hrun
        obtain ⟨_, -, hstart⟩ := bind_eq_ok.mp hstart
        obtain ⟨_, -, hstart⟩ := bind_eq_ok.mp hstart
        obtain ⟨delta, hdelta, hstart⟩ := bind_eq_ok.mp hstart
        obtain ⟨prepared, hprepared, hstart⟩ := bind_eq_ok.mp hstart
        cases hstart
        refine ⟨started, world', rfl, ?_, ?_⟩
        · have hall := (List.forall₂_and_left _ _).mpr ⟨fun rule hrule => hrule,
            forall₂_comp (readReferences_eq_ok hprepared) hmodels.prepared⟩
          apply hall.imp
          rintro rule reference ⟨hrule, model, ⟨hplan, loader, hloader, dataset, hdataset, hread⟩,
            hsame, hscanned⟩
          obtain ⟨hmem, hkey⟩ := loadingRule_some hloader
          have hname := (hseparable.same_iff hrule hmem).mp hkey
          refine ⟨hsame.trans hplan, loader, model.scanned, hloader, hname,
            hseparable.one_key_set loader hmem rule hrule hname, ⟨dataset, ?_, hread⟩, hscanned⟩
          exact (countedReferences_eq_ok hdelta).1 _ _ hdataset
        · intro rule hrule
          obtain ⟨delta', hdelta', hcounted⟩ := exists_countedReferences
            plan.datasetPlan.rowCountDelta bindings <| by
              intro other hother
              obtain ⟨dataset, hdataset⟩ :=
                Option.isSome_iff_exists.mp ((hcomplete.names _).mpr (.inr ⟨other, hother, rfl⟩))
              exact ⟨dataset, hdataset, hcomplete.delivers _ _ hdataset⟩
          obtain rfl : delta = delta' := Except.ok.inj (hdelta.symm.trans hdelta')
          obtain ⟨rows, hrows⟩ :=
            Option.isSome_iff_exists.mp ((hcounted.mem _).mpr ⟨rule, hrule, rfl⟩)
          obtain ⟨dataset, batches, hdataset, hitems, rfl⟩ := hcounted.counted _ _ hrows
          exact ⟨dataset, batches, hdataset, hitems, by rw [hmodels.counted_eq, hrows]⟩

end Start

/-- Bindings of the one dataset all rules of a plan name. -/
theorem completeBindings_one {plan : DatasetPlan} {localSchema : Schema} {name : String}
    {dataset : BatchReader} {rule : ReferencePlan} (hmem : rule ∈ plan.references)
    (hnames : ∀ other ∈ plan.references, other.reference = name) (hcounts : plan.rowCountDelta = [])
    (hdelivers : dataset.Delivers)
    (hmatches : ∀ other ∈ plan.references, other.Matches localSchema dataset.schema) :
    CompleteBindings plan localSchema [(name, dataset)] := by
  have hfind : ∀ other found, SortedMap.find other [(name, dataset)] = some found →
      other = name ∧ found = dataset := by
    intro other found h
    rw [SortedMap.find_cons] at h
    split at h
    · rename_i heq
      exact ⟨heq.symm, (Option.some.inj h).symm⟩
    · cases h
  constructor
  case names =>
    intro other
    rw [hcounts]
    constructor
    · intro h
      obtain ⟨found, hfound⟩ := Option.isSome_iff_exists.mp h
      exact .inl ⟨rule, hmem, by rw [hnames rule hmem, (hfind other found hfound).1]⟩
    · rintro (⟨found, hfound, rfl⟩ | ⟨found, hfound, -⟩)
      · rw [hnames found hfound, SortedMap.find_cons, if_pos rfl]
        rfl
      · cases hfound
  case delivers =>
    intro other found h
    rw [(hfind other found h).2]
    exact hdelivers
  case comparable =>
    intro other hother found h
    rw [(hfind _ found h).2]
    exact hmatches other hother

theorem idReader_delivers (values : List (Option Int64)) : (idReader values).Delivers :=
  ⟨[.ofColumn (.ofInt64 "id" values)], rfl, by simp [idReader]⟩

/-- The ids 7 and null resolve against the known id 8. -/
theorem startExecution_resolves_iff_seven :
    letI := Crates.zeroDigests
    (∃ started world', startExecution (idReader [some 7, none]) knownIdsPlan smallOptions false
      (.root smallOptions.resources) [("known", idReader [some 8])] Granting.granting =
        .ok (started, world') ∧
      Resolved knownIdsPlan [("known", idReader [some 8])] started) ↔
      Separable knownIdsPlan.datasetPlan [("known", idReader [some 8])] := by
  let := Crates.zeroDigests
  obtain ⟨started, world', hrun⟩ := exists_ended (m := startExecution (idReader [some 7, none])
    knownIdsPlan smallOptions false (.root smallOptions.resources) [("known", idReader [some 8])])
    (w := Granting.granting) (by decide +kernel)
  apply startExecution_resolves_iff rfl _ rfl
  · rw [hrun]
    simp
  · apply completeBindings_one (List.mem_singleton_self _)
    · simp [knownIdsPlan]
    · rfl
    · exact idReader_delivers [some 8]
    · intro other hother entry hentry
      rw [List.mem_singleton.mp hother] at hentry ⊢
      rw [List.mem_singleton.mp hentry]
      exact ⟨0, .int64, (ArrowArray.ofInt64 "id" []).field, by decide +kernel, rfl, rfl, .inl rfl⟩

/-- Two rules that check the columns `id` and `code` against the columns of the same names of
`known`. -/
def knownCodesPlan : CompiledContract :=
  let id := (ArrowArray.ofInt64 "id" []).field
  let code := (ArrowArray.ofInt64 "code" []).field
  { knownIdsPlan with
    schema := { fields := [id, code], metadata := [] }
    datasetPlan := { DatasetPlan.empty with references := [
      { name := "known_ids", columns := [0], fields := [id], reference := "known"
        referenceColumns := ["id"], nulls := .skip },
      { name := "known_codes", columns := [1], fields := [code], reference := "known"
        referenceColumns := ["code"], nulls := .skip }] } }

/-- A dataset of the two columns without batches. -/
def emptyCodes : BatchReader := { schema := knownCodesPlan.schema, items := [] }

/-- The bindings are complete, but the second rule does not find its dataset. -/
theorem startExecution_unresolved_known_codes :
    letI := Crates.zeroDigests
    CompleteBindings knownCodesPlan.datasetPlan knownCodesPlan.schema [("known", emptyCodes)] ∧
      startExecution emptyCodes knownCodesPlan smallOptions false (.root smallOptions.resources)
        [("known", emptyCodes)] Granting.granting = .error (contractError .referenceUnbound
          "Reference rule `known_codes` needs a dataset bound to `known`"
          (some "$.dataset_rules.references[known_codes]")) ∧
      ¬ExactFault (contractError .referenceUnbound
          "Reference rule `known_codes` needs a dataset bound to `known`"
          (some "$.dataset_rules.references[known_codes]")) := by
  let := Crates.zeroDigests
  refine ⟨?_, ?_, by decide⟩
  · apply completeBindings_one (List.mem_cons_self ..)
    · simp [knownCodesPlan]
    · rfl
    · exact ⟨[], rfl, by simp⟩
    · intro other hother entry hentry
      rcases List.mem_cons.mp hother with rfl | hother
      · rw [List.mem_singleton.mp hentry]
        exact ⟨0, .int64, (ArrowArray.ofInt64 "id" []).field, by decide +kernel, rfl, rfl, .inl rfl⟩
      · rw [List.mem_singleton.mp hother] at hentry ⊢
        rw [List.mem_singleton.mp hentry]
        exact ⟨1, .int64, (ArrowArray.ofInt64 "code" []).field, by decide +kernel, rfl, rfl,
          .inl rfl⟩
  · rw [← errorOf_eq_some]
    decide +kernel

end ProofFrame
