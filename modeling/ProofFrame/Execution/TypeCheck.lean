import ProofFrame.Execution.Bindings

/-!
# Type checks of the references rules

The types a rule pairs are compared when its keys are loaded.  A rule that finds
keys under its cache key is not compared, so preparation may succeed with types
that are not comparable.  A rule also fails before its types are compared when no
reader is left for its dataset, whatever the rules after it pair.

Each rule passes or stops the preparation on account of the rules before it
(`Passes`, `Refused`), and the first that stops decides the error.
-/

namespace ProofFrame

open Lib Lib.Run Distinct

namespace ReferencePlan

/-- The rule is bound to a dataset whose types may be compared with the checked ones. -/
def TypesAllowed (rule : ReferencePlan) (localSchema : Schema) (bindings : ReferenceBindings) :
    Prop :=
  ∃ dataset, SortedMap.find rule.reference bindings = some dataset ∧
    rule.Matches localSchema dataset.schema

/-- At a key position, both sides have the column, with types that may not be compared. -/
def ClashesAt (rule : ReferencePlan) (localSchema referenceSchema : Schema) (column : String)
    (ordinal : ℕ) : Prop :=
  ∃ index checked field, referenceSchema.indexOf column = some index ∧
    rule.localType localSchema ordinal = .ok checked ∧
    referenceSchema.fields[index]? = some field ∧ ¬checked.Comparable field.dataType

/-- The rule pairs types of its dataset that may not be compared. -/
def Clashes (rule : ReferencePlan) (localSchema : Schema) (bindings : ReferenceBindings) : Prop :=
  ∃ dataset, SortedMap.find rule.reference bindings = some dataset ∧
    ∃ entry ∈ rule.referenceColumns.zipIdx,
      rule.ClashesAt localSchema dataset.schema entry.1 entry.2

/-- The first key position without comparable types has both columns. -/
def Refuses (rule : ReferencePlan) (localSchema referenceSchema : Schema) : Prop :=
  ∃ before entry after, rule.referenceColumns.zipIdx = before ++ entry :: after ∧
    (∀ earlier ∈ before, rule.MatchesAt localSchema referenceSchema earlier.1 earlier.2) ∧
    rule.ClashesAt localSchema referenceSchema entry.1 entry.2

/-- The rule can load its keys from the dataset. -/
structure Loads [Crates] (rule : ReferencePlan) (localSchema : Schema) (dataset : BatchReader) :
    Prop where
  comparable : rule.Matches localSchema dataset.schema
  supported : rule.Supports dataset
  delivered : dataset.Delivers

/-- A rule before it has the same cache key. -/
def SharesKeys (before : List ReferencePlan) (rule : ReferencePlan) : Prop :=
  ∃ other ∈ before, referenceCacheKey other = referenceCacheKey rule

instance (before : List ReferencePlan) (rule : ReferencePlan) :
    Decidable (SharesKeys before rule) :=
  inferInstanceAs (Decidable (∃ other ∈ before, referenceCacheKey other = referenceCacheKey rule))

end ReferencePlan

/-- The rules that load keys: the first with each cache key. -/
def loaders (plans : List ReferencePlan) : List ReferencePlan :=
  plans.foldl (fun found rule =>
    if ReferencePlan.SharesKeys found rule then found else found ++ [rule]) []

/-- The dataset is bound to the rule's name and no rule before it has used it up. -/
def ReferencePlan.Finds (bindings : ReferenceBindings) (before : List ReferencePlan)
    (rule : ReferencePlan) (dataset : BatchReader) : Prop :=
  SortedMap.find rule.reference bindings = some dataset ∧
    ∀ other ∈ loaders before, other.reference ≠ rule.reference

/-- After the rules before it, the rule finds its keys loaded or loads them. -/
def ReferencePlan.Passes [Crates] (localSchema : Schema) (bindings : ReferenceBindings)
    (before : List ReferencePlan) (rule : ReferencePlan) : Prop :=
  rule.SharesKeys before ∨ ∃ dataset, rule.Finds bindings before dataset ∧
    rule.Loads localSchema dataset

/-- After the rules before it, the rule is refused because of the types it pairs. -/
def ReferencePlan.Refused (localSchema : Schema) (bindings : ReferenceBindings)
    (before : List ReferencePlan) (rule : ReferencePlan) : Prop :=
  ¬rule.SharesKeys before ∧ ∃ dataset, rule.Finds bindings before dataset ∧
    rule.Refuses localSchema dataset.schema

/-- The fault is a contract error of type `contract_type_mismatch`. -/
def Fault.IsTypeMismatch (fault : Fault) : Prop := fault.Coded [.contractTypeMismatch]

theorem not_isTypeMismatch_error {error : ProofFrameError}
    (h : error.code ≠ .contractTypeMismatch) : ¬(Fault.error error).IsTypeMismatch :=
  fun hkind => h (List.mem_singleton.mp hkind)

theorem not_isTypeMismatch_panic (site : String) : ¬(Fault.panic site).IsTypeMismatch := id

/-- What is promised of the outcome of preparation: it succeeds only with types that may be
compared, and a pair of types that may not makes it fail with a type mismatch. -/
def ChecksTypes (plans : List ReferencePlan) (bindings : ReferenceBindings) (localSchema : Schema)
    {α : Type} (outcome : Except Fault α) : Prop :=
  match outcome with
  | .ok _ => ∀ rule ∈ plans, rule.TypesAllowed localSchema bindings
  | .error fault => (∃ rule ∈ plans, rule.Clashes localSchema bindings) → fault.IsTypeMismatch

/-- Every rule passes and every bound dataset is used. -/
structure Preparable [Crates] (plans : List ReferencePlan) (bindings : ReferenceBindings)
    (localSchema : Schema) : Prop where
  passes : AtEach (ReferencePlan.Passes localSchema bindings) plans
  used : ∀ name, (SortedMap.find name bindings).isSome →
    ∃ rule ∈ loaders plans, rule.reference = name

/-- The first rule that does not pass is refused because of its types. -/
def RefusedFirst [Crates] (plans : List ReferencePlan) (bindings : ReferenceBindings)
    (localSchema : Schema) : Prop :=
  ∃ before rule after, plans = before ++ rule :: after ∧
    AtEach (ReferencePlan.Passes localSchema bindings) before ∧
    rule.Refused localSchema bindings before

/-! ## One rule -/

section Reading

variable [Crates] {rule : ReferencePlan} {localSchema referenceSchema : Schema}
  {dataset : BatchReader}

theorem resolveKeyColumn_clashes_iff {column : String} {ordinal : ℕ} :
    (∃ fault, resolveKeyColumn rule localSchema referenceSchema column ordinal = .error fault ∧
        fault.IsTypeMismatch) ↔ rule.ClashesAt localSchema referenceSchema column ordinal := by
  constructor
  · rintro ⟨fault, h, hkind⟩
    unfold resolveKeyColumn at h
    split at h
    · cases h
      exact absurd hkind (not_isTypeMismatch_error nofun)
    · rename_i index hindex
      rcases bind_eq_error.mp h with h | ⟨checked, hchecked, h⟩
      · -- the local column is out of bounds, which panics
        unfold ReferencePlan.localType at h
        split at h
        · cases h
          exact absurd hkind (not_isTypeMismatch_panic _)
        · split at h
          · cases h
            exact absurd hkind (not_isTypeMismatch_panic _)
          · cases h
      · split at h
        · cases h
          exact absurd hkind (not_isTypeMismatch_panic _)
        · rename_i field hfield
          split at h
          · cases h
          · rename_i hmatch
            exact ⟨index, checked, field, hindex, hchecked, hfield,
              fun hcomparable => hmatch (typesMatch_iff.mpr hcomparable)⟩
  · rintro ⟨index, checked, field, hindex, hchecked, hfield, hclash⟩
    refine ⟨rule.typeMismatch checked field.dataType ordinal, ?_, List.mem_singleton_self _⟩
    rw [resolveKeyColumn, hindex]
    dsimp only
    rw [hchecked, ok_bind]
    simp only [hfield]
    exact if_neg fun hmatch => hclash (typesMatch_iff.mp hmatch)

theorem resolveReferenceKey_refuses_iff :
    (∃ fault, resolveReferenceKey rule localSchema referenceSchema = .error fault ∧
        fault.IsTypeMismatch) ↔ rule.Refuses localSchema referenceSchema := by
  constructor
  · rintro ⟨fault, h, hkind⟩
    obtain ⟨before, entry, after, hsplit, hbefore, hentry⟩ := mapM_eq_error.mp h
    refine ⟨before, entry, after, hsplit, ?_, resolveKeyColumn_clashes_iff.mp ⟨fault, hentry, hkind⟩⟩
    intro earlier hearlier
    obtain ⟨index, hindex⟩ := hbefore earlier hearlier
    exact (resolveKeyColumn_eq_ok hindex).2
  · rintro ⟨before, entry, after, hsplit, hbefore, hclash⟩
    obtain ⟨fault, hfault, hkind⟩ := resolveKeyColumn_clashes_iff.mpr hclash
    exact ⟨fault, mapM_eq_error.mpr ⟨before, entry, after, hsplit,
      fun earlier hearlier => (hbefore earlier hearlier).exists_index, hfault⟩, hkind⟩

/-- Key cells that cannot be encoded are no mismatch of types. -/
theorem not_isTypeMismatch_encodeKeyParts (batch : RecordBatch) (row : ℕ)
    (entries : List (ℕ × ℕ)) :
    FailsWith (fun fault => ¬fault.IsTypeMismatch) (encodeKeyParts batch row entries) := by
  induction entries with
  | nil => exact failsWith_ok
  | cons entry entries ih =>
      apply FailsWith.bind
      · unfold RecordBatch.column
        split
        · exact failsWith_ok
        · exact failsWith_error (not_isTypeMismatch_panic _)
      · intro array _
        apply FailsWith.bind
        · unfold ArrowArray.cell
          split
          · exact failsWith_ok
          · exact failsWith_error (not_isTypeMismatch_panic _)
        · intro cell _
          cases cell with
          | none => exact failsWith_ok
          | some value =>
              apply FailsWith.bind
              · unfold appendScalar
                split
                · split
                  · exact failsWith_ok
                  · exact failsWith_error (not_isTypeMismatch_error (by rintro ⟨⟩))
                · exact failsWith_error (not_isTypeMismatch_error (by rintro ⟨⟩))
              · intro part _
                apply ih.bind
                intro key _
                exact failsWith_ok

theorem failsWith_keyRecords (indexes : List ℕ) (batch : RecordBatch) (rows : ℕ) :
    FailsWith (fun fault => ¬fault.IsTypeMismatch) (keyRecords indexes batch rows) := by
  apply failsWith_foldlM
  intro row _ done
  apply FailsWith.bind
  · apply (not_isTypeMismatch_encodeKeyParts batch row _).bind
    intro key _
    exact failsWith_ok
  · intro records _
    exact failsWith_ok

/-- Once its key columns are resolved, a dataset is not refused because of types. -/
theorem failsWith_readBatches (indexes : List ℕ) {fingerprint : V2FingerprintState}
    (hfingerprint : V2FingerprintState.new referenceSchema [] = .ok fingerprint)
    (items : List (Except String RecordBatch)) :
    FailsWith (fun fault => ¬fault.IsTypeMismatch)
      (items.foldlM (readReferenceBatch rule referenceSchema indexes)
        { keys := [], fingerprint, rows := 0 }) := by
  have hencodable := encodable_of_new hfingerprint
  refine failsWith_foldlM_of (P := fun scan : ReferenceScan (List Record) =>
    scan.fingerprint.schema = referenceSchema) ?_ ?_ (V2FingerprintState.new_schema hfingerprint)
  · intro item _ scan hscan
    apply FailsWith.bind
    · cases item with
      | ok batch => exact failsWith_ok
      | error message =>
          exact failsWith_error (not_isTypeMismatch_error nofun)
    intro batch _
    apply FailsWith.bind
    · exact failsWith_rejectIf fun _ => not_isTypeMismatch_error nofun
    intro _ hschema
    have hsame : batch.schema = referenceSchema := by simpa using rejectIf_eq_ok.mp hschema
    obtain ⟨next, hnext, -⟩ := V2FingerprintState.exists_update (hsame.trans hscan.symm)
      (by rw [hscan, hencodable])
    rw [hnext, ok_bind]
    apply (failsWith_keyRecords _ _ _).bind
    intro records _
    exact failsWith_ok
  · intro item _ scan next hscan hnext
    obtain ⟨batch, -, hnext⟩ := bind_eq_ok.mp hnext
    obtain ⟨_, hschema, hnext⟩ := bind_eq_ok.mp hnext
    obtain ⟨fed, hfed, hnext⟩ := bind_eq_ok.mp hnext
    obtain ⟨records, -, hnext⟩ := bind_eq_ok.mp hnext
    cases hnext
    have hsame : batch.schema = referenceSchema := by simpa using rejectIf_eq_ok.mp hschema
    obtain ⟨updated, hupdated, hkept, -⟩ := V2FingerprintState.exists_update
      (hsame.trans hscan.symm) (by rw [hscan, hencodable])
    obtain rfl := Except.ok.inj (hfed.symm.trans hupdated)
    exact hkept.trans hscan

theorem readReference_refuses_iff :
    (∃ fault, readReference rule dataset localSchema = .error fault ∧ fault.IsTypeMismatch) ↔
      rule.Refuses localSchema dataset.schema := by
  rw [← resolveReferenceKey_refuses_iff]
  constructor
  · rintro ⟨fault, h, hkind⟩
    rcases bind_eq_error.mp h with h | ⟨indexes, -, h⟩
    · exact ⟨fault, h, hkind⟩
    · rcases bind_eq_error.mp h with h | ⟨fingerprint, hfingerprint, h⟩
      · have hsupports := V2FingerprintState.supports_new dataset.schema []
        rw [h] at hsupports
        obtain ⟨-, message, rfl⟩ := hsupports
        exact absurd hkind (not_isTypeMismatch_error nofun)
      · rcases bind_eq_error.mp h with h | ⟨_, _, h⟩
        · exact absurd hkind (failsWith_readBatches indexes hfingerprint _ _ h)
        · cases h
  · rintro ⟨fault, h, hkind⟩
    exact ⟨fault, bind_eq_error.mpr (.inl h), hkind⟩

theorem readReference_delivers {scanned : ScannedReference (List Record)}
    (h : readReference rule dataset localSchema = .ok scanned) : dataset.Delivers := by
  obtain ⟨indexes, -, h⟩ := bind_eq_ok.mp h
  obtain ⟨fingerprint, -, h⟩ := bind_eq_ok.mp h
  obtain ⟨scan, hscan, -⟩ := bind_eq_ok.mp h
  apply foldlM_invariant (P := fun items (_ : ReferenceScan (List Record)) =>
    ∃ batches : List RecordBatch, items = batches.map .ok ∧
      ∀ batch ∈ batches, batch.schema = dataset.schema) ⟨[], rfl, by simp⟩ ?_ hscan
  rintro done item current next - ⟨batches, rfl, hschemas⟩ hnext
  obtain ⟨batch, hbatch, hnext⟩ := bind_eq_ok.mp hnext
  obtain ⟨_, hschema, -⟩ := bind_eq_ok.mp hnext
  have hsame : batch.schema = dataset.schema := by simpa using rejectIf_eq_ok.mp hschema
  refine ⟨batches ++ [batch], by rw [arrowItem_eq_ok.mp hbatch]; simp, ?_⟩
  intro other hother
  rcases List.mem_append.mp hother with hother | hother
  · exact hschemas other hother
  · rw [List.mem_singleton.mp hother, hsame]

theorem exists_readReference_iff_loads :
    (∃ scanned, readReference rule dataset localSchema = .ok scanned) ↔
      rule.Loads localSchema dataset := by
  constructor
  · rintro ⟨scanned, h⟩
    have hdelivers := readReference_delivers h
    obtain ⟨hmatches, hsupports⟩ := (exists_readReference_iff hdelivers).mp ⟨scanned, h⟩
    exact ⟨hmatches, hsupports, hdelivers⟩
  · intro h
    exact (exists_readReference_iff h.delivered).mpr ⟨h.comparable, h.supported⟩

end Reading

/-! ## A run over the rules -/

theorem loaders_snoc (done : List ReferencePlan) (rule : ReferencePlan) :
    loaders (done ++ [rule]) =
      if rule.SharesKeys (loaders done) then loaders done else loaders done ++ [rule] :=
  List.foldl_concat ..

theorem sharesKeys_snoc {done : List ReferencePlan} {rule other : ReferencePlan} :
    other.SharesKeys (done ++ [rule]) ↔
      other.SharesKeys done ∨ referenceCacheKey rule = referenceCacheKey other := by
  simp [ReferencePlan.SharesKeys, or_and_right, exists_or]

theorem sharesKeys_congr {done : List ReferencePlan} {rule other : ReferencePlan}
    (h : referenceCacheKey rule = referenceCacheKey other) :
    rule.SharesKeys done ↔ other.SharesKeys done := by
  rw [ReferencePlan.SharesKeys, ReferencePlan.SharesKeys, h]

theorem sharesKeys_loaders {done : List ReferencePlan} {rule : ReferencePlan} :
    rule.SharesKeys (loaders done) ↔ rule.SharesKeys done := by
  induction done using List.reverseRecOn generalizing rule with
  | nil => rfl
  | append_singleton done last ih =>
      rw [loaders_snoc, sharesKeys_snoc]
      split
      · rename_i hshares
        rw [ih]
        constructor
        · exact .inl
        · rintro (h | h)
          · exact h
          · exact (sharesKeys_congr h).mp (ih.mp hshares)
      · rw [sharesKeys_snoc, ih]

/-- What the rules `done` have taken: their keys are loaded, and the readers of the loading rules
are used up. -/
structure Taken (bindings : ReferenceBindings) (done : List ReferencePlan)
    (current : Preparation (List Record)) : Prop where
  cached : ∀ rule, (SortedMap.find (referenceCacheKey rule) current.scanned).isSome ↔
    rule.SharesKeys done
  used : ∀ other ∈ loaders done, SortedMap.find other.reference current.bindings = none
  left : ∀ name, (∀ other ∈ loaders done, other.reference ≠ name) →
    SortedMap.find name current.bindings = SortedMap.find name bindings

section Taken

variable {bindings : ReferenceBindings} {localSchema : Schema} {done : List ReferencePlan}
  {current next : Preparation (List Record)} {rule : ReferencePlan} {dataset : BatchReader}

theorem Taken.find_iff (h : Taken bindings done current) :
    SortedMap.find rule.reference current.bindings = some dataset ↔
      rule.Finds bindings done dataset := by
  unfold ReferencePlan.Finds
  by_cases hunused : ∀ other ∈ loaders done, other.reference ≠ rule.reference
  · rw [h.left _ hunused, and_iff_left hunused]
  · rw [iff_false_right fun hfinds => hunused hfinds.2]
    push Not at hunused
    obtain ⟨other, hother, heq⟩ := hunused
    rw [← heq, h.used other hother]
    simp

variable [Crates]

theorem Taken.of_readRule (h : Taken bindings done current)
    (hnext : readRule localSchema current rule = .ok next) : Taken bindings (done ++ [rule]) next := by
  obtain ⟨middle, hmiddle, hnext⟩ := bind_eq_ok.mp hnext
  obtain ⟨_, -, hnext⟩ := bind_eq_ok.mp hnext
  cases hnext
  unfold readUnlessCached at hmiddle
  split at hmiddle
  · -- an earlier rule has loaded the keys: nothing is taken
    rename_i hcached
    cases hmiddle
    have hshares := (h.cached rule).mp hcached
    have hsame : loaders (done ++ [rule]) = loaders done := by
      rw [loaders_snoc, if_pos (sharesKeys_loaders.mpr hshares)]
    refine ⟨?_, by rw [hsame]; exact h.used, by rw [hsame]; exact h.left⟩
    intro other
    rw [sharesKeys_snoc, ← h.cached]
    constructor
    · exact .inl
    · rintro (hother | hother)
      · exact hother
      · rw [← hother]
        exact hcached
  · -- the rule loads its own keys and takes the reader of its dataset
    rename_i hcached
    obtain ⟨reader, -, hmiddle⟩ := bind_eq_ok.mp hmiddle
    obtain ⟨scan, -, hmiddle⟩ := bind_eq_ok.mp hmiddle
    cases hmiddle
    have hsame : loaders (done ++ [rule]) = loaders done ++ [rule] := by
      rw [loaders_snoc, if_neg fun hshares => hcached
        ((h.cached rule).mpr (sharesKeys_loaders.mp hshares))]
    refine ⟨?_, ?_, ?_⟩
    · intro other
      dsimp only
      rw [sharesKeys_snoc, ← h.cached]
      by_cases heq : referenceCacheKey other = referenceCacheKey rule
      · rw [heq, SortedMap.find_insert_self]
        simp
      · rw [SortedMap.find_insert_of_ne heq, or_iff_left (Ne.symm heq)]
    · intro other hother
      rw [hsame] at hother
      rcases List.mem_append.mp hother with hother | hother
      · exact SortedMap.find_remove_of_none (h.used other hother)
      · rw [List.mem_singleton.mp hother]
        exact SortedMap.find_remove_self
    · intro name hname
      rw [hsame] at hname
      dsimp only
      rw [SortedMap.find_remove_of_ne (hname rule (by simp)).symm]
      exact h.left name fun other hother => hname other (List.mem_append_left _ hother)

theorem Taken.exists_readRule_iff (h : Taken bindings done current) :
    (∃ next, readRule localSchema current rule = .ok next) ↔
      rule.Passes localSchema bindings done := by
  unfold readRule readUnlessCached ReferencePlan.Passes
  rw [← h.cached]
  by_cases hcached : (SortedMap.find (referenceCacheKey rule) current.scanned).isSome
  · rw [if_pos hcached]
    obtain ⟨found, hfound⟩ := Option.isSome_iff_exists.mp hcached
    exact ⟨fun _ => .inl hcached, fun _ => ⟨_, bind_eq_ok.mpr ⟨current, rfl, bind_eq_ok.mpr
      ⟨found, required_eq_ok.mpr hfound, rfl⟩⟩⟩⟩
  · rw [if_neg hcached, or_iff_right hcached]
    constructor
    · rintro ⟨next, hnext⟩
      obtain ⟨middle, hmiddle, -⟩ := bind_eq_ok.mp hnext
      obtain ⟨dataset, hdataset, hmiddle⟩ := bind_eq_ok.mp hmiddle
      obtain ⟨scanned, hscanned, -⟩ := bind_eq_ok.mp hmiddle
      exact ⟨dataset, h.find_iff.mp (required_eq_ok.mp hdataset),
        exists_readReference_iff_loads.mp ⟨scanned, hscanned⟩⟩
    · rintro ⟨dataset, hfinds, hloads⟩
      obtain ⟨scanned, hscanned⟩ := exists_readReference_iff_loads.mpr hloads
      exact ⟨_, bind_eq_ok.mpr ⟨_, bind_eq_ok.mpr ⟨dataset, required_eq_ok.mpr (h.find_iff.mpr hfinds),
        bind_eq_ok.mpr ⟨scanned, hscanned, rfl⟩⟩, bind_eq_ok.mpr
        ⟨scanned, required_eq_ok.mpr SortedMap.find_insert_self, rfl⟩⟩⟩

theorem Taken.readRule_refused_iff (h : Taken bindings done current) :
    (∃ fault, readRule localSchema current rule = .error fault ∧ fault.IsTypeMismatch) ↔
      rule.Refused localSchema bindings done := by
  unfold readRule readUnlessCached ReferencePlan.Refused
  rw [← h.cached]
  by_cases hcached : (SortedMap.find (referenceCacheKey rule) current.scanned).isSome
  · rw [if_pos hcached, iff_false_right fun hrefused => hrefused.1 hcached]
    rintro ⟨fault, hfault, -⟩
    obtain ⟨found, hfound⟩ := Option.isSome_iff_exists.mp hcached
    rw [ok_bind, required_eq_ok.mpr hfound] at hfault
    cases hfault
  · rw [if_neg hcached, and_iff_right hcached]
    constructor
    · rintro ⟨fault, hfault, hkind⟩
      rcases bind_eq_error.mp hfault with hfault | ⟨middle, -, hfault⟩
      · rcases bind_eq_error.mp hfault with hfault | ⟨dataset, hdataset, hfault⟩
        · obtain ⟨-, rfl⟩ := required_eq_error.mp hfault
          exact absurd hkind (not_isTypeMismatch_error nofun)
        · rcases bind_eq_error.mp hfault with hfault | ⟨_, _, hfault⟩
          · exact ⟨dataset, h.find_iff.mp (required_eq_ok.mp hdataset),
              readReference_refuses_iff.mp ⟨fault, hfault, hkind⟩⟩
          · cases hfault
      · rcases bind_eq_error.mp hfault with hfault | ⟨_, _, hfault⟩
        · obtain ⟨-, rfl⟩ := required_eq_error.mp hfault
          exact absurd hkind (not_isTypeMismatch_panic _)
        · cases hfault
    · rintro ⟨dataset, hfinds, hrefuses⟩
      obtain ⟨fault, hfault, hkind⟩ := readReference_refuses_iff.mpr hrefuses
      exact ⟨fault, bind_eq_error.mpr (.inl (bind_eq_error.mpr (.inr ⟨dataset,
        required_eq_ok.mpr (h.find_iff.mpr hfinds), bind_eq_error.mpr (.inl hfault)⟩))), hkind⟩

end Taken

section Run

variable [Crates] {bindings : ReferenceBindings} {localSchema : Schema}
  {plans : List ReferencePlan}

omit [Crates] in
theorem taken_start : Taken bindings [] { bindings, scanned := [], prepared := [] } :=
  ⟨by simp [ReferencePlan.SharesKeys], by simp [loaders], fun _ _ => rfl⟩

theorem taken_of_run {last : Preparation (List Record)}
    (h : plans.foldlM (readRule localSchema) { bindings, scanned := [], prepared := [] } = .ok last) :
    Taken bindings plans last :=
  foldlM_invariant (P := Taken bindings) taken_start
    (fun _ _ _ _ _ htaken hnext => htaken.of_readRule hnext) h

theorem exists_run_iff :
    (∃ last, plans.foldlM (readRule localSchema) { bindings, scanned := [], prepared := [] } =
        .ok last) ↔ AtEach (ReferencePlan.Passes localSchema bindings) plans := by
  induction plans using List.reverseRecOn with
  | nil => exact ⟨fun _ => atEach_nil, fun _ => ⟨_, rfl⟩⟩
  | append_singleton plans last ih =>
      rw [atEach_snoc, ← ih]
      simp only [List.foldlM_append, List.foldlM_cons, List.foldlM_nil, bind_pure]
      constructor
      · rintro ⟨final, h⟩
        obtain ⟨middle, hmiddle, hfinal⟩ := bind_eq_ok.mp h
        exact ⟨⟨middle, hmiddle⟩, (taken_of_run hmiddle).exists_readRule_iff.mp ⟨final, hfinal⟩⟩
      · rintro ⟨⟨middle, hmiddle⟩, hpasses⟩
        obtain ⟨final, hfinal⟩ := (taken_of_run hmiddle).exists_readRule_iff.mpr hpasses
        exact ⟨final, bind_eq_ok.mpr ⟨middle, hmiddle, hfinal⟩⟩

omit [Crates] in
theorem Taken.keys_eq_nil_iff {current : Preparation (List Record)}
    (h : Taken bindings plans current) :
    SortedMap.keys current.bindings = [] ↔ ∀ name, (SortedMap.find name bindings).isSome →
      ∃ rule ∈ loaders plans, rule.reference = name := by
  rw [List.eq_nil_iff_forall_not_mem]
  apply forall_congr'
  intro name
  rw [SortedMap.mem_keys_iff]
  by_cases hused : ∃ rule ∈ loaders plans, rule.reference = name
  · obtain ⟨rule, hrule, rfl⟩ := id hused
    rw [h.used rule hrule]
    simp only [Option.isSome_none, Bool.false_eq_true, not_false_eq_true, true_iff]
    exact fun _ => hused
  · rw [h.left name fun rule hrule heq => hused ⟨rule, hrule, heq⟩]
    constructor
    · intro hnone hsome
      exact absurd hsome hnone
    · intro himp hsome
      exact hused (himp hsome)

theorem exists_readReferences_iff :
    (∃ prepared, readReferences plans bindings localSchema = .ok prepared) ↔
      Preparable plans bindings localSchema := by
  constructor
  · rintro ⟨prepared, h⟩
    obtain ⟨last, hrun, h⟩ := bind_eq_ok.mp h
    obtain ⟨_, hunused, -⟩ := bind_eq_ok.mp h
    exact ⟨exists_run_iff.mp ⟨last, hrun⟩, (taken_of_run hrun).keys_eq_nil_iff.mp
      (not_not.mp (rejectIf_eq_ok.mp hunused))⟩
  · intro h
    obtain ⟨last, hrun⟩ := exists_run_iff.mpr h.passes
    exact ⟨last.prepared, bind_eq_ok.mpr ⟨last, hrun, bind_eq_ok.mpr ⟨(),
      rejectIf_eq_ok.mpr (not_not.mpr ((taken_of_run hrun).keys_eq_nil_iff.mpr h.used)), rfl⟩⟩⟩

theorem readReferences_refused_iff :
    (∃ fault, readReferences plans bindings localSchema = .error fault ∧ fault.IsTypeMismatch) ↔
      RefusedFirst plans bindings localSchema := by
  constructor
  · rintro ⟨fault, h, hkind⟩
    rcases bind_eq_error.mp h with h | ⟨last, -, h⟩
    · obtain ⟨before, rule, after, current, hsplit, hrun, hrule⟩ := foldlM_eq_error.mp h
      exact ⟨before, rule, after, hsplit, exists_run_iff.mp ⟨current, hrun⟩,
        (taken_of_run hrun).readRule_refused_iff.mp ⟨fault, hrule, hkind⟩⟩
    · rcases bind_eq_error.mp h with h | ⟨_, _, h⟩
      · obtain ⟨-, rfl⟩ := rejectIf_eq_error.mp h
        exact absurd hkind (not_isTypeMismatch_error nofun)
      · cases h
  · rintro ⟨before, rule, after, hsplit, hpasses, hrefused⟩
    obtain ⟨current, hrun⟩ := exists_run_iff.mpr hpasses
    obtain ⟨fault, hfault, hkind⟩ := (taken_of_run hrun).readRule_refused_iff.mpr hrefused
    exact ⟨fault, bind_eq_error.mpr (.inl (foldlM_eq_error.mpr
      ⟨before, rule, after, current, hsplit, hrun, hfault⟩)), hkind⟩

omit [Crates] in
theorem ReferencePlan.TypesAllowed.not_clashes {rule : ReferencePlan}
    (h : rule.TypesAllowed localSchema bindings) : ¬rule.Clashes localSchema bindings := by
  rintro ⟨dataset, hdataset, entry, hentry, index, checked, field, hindex, hchecked, hfield, hclash⟩
  obtain ⟨dataset', hdataset', hmatches⟩ := h
  obtain rfl := Option.some.inj (hdataset.symm.trans hdataset')
  obtain ⟨index', checked', field', hindex', hchecked', hfield', hcomparable⟩ :=
    hmatches entry hentry
  obtain rfl := Option.some.inj (hindex.symm.trans hindex')
  obtain rfl := Except.ok.inj (hchecked.symm.trans hchecked')
  obtain rfl := Option.some.inj (hfield.symm.trans hfield')
  exact hclash hcomparable

end Run

/-- **Types are checked unless keys are shared or a reader is missing.**  Without faults of the
surroundings, preparation checks the types of all rules as promised if and only if all types may be
compared, or the first rule that does not pass is refused because of its types, or no rule pairs
types that may not be compared and the rules and bindings cannot be prepared anyway. -/
theorem prepare_checksTypes_iff {ω : Type} [Host ω] [Crates] {plans : List ReferencePlan}
    {bindings : ReferenceBindings} {localSchema : Schema} {account : ResourceAccount} {world : ω}
    {outcome : Except Fault (List (PreparedReference SealedState) × ω)}
    (hrun : prepare plans bindings localSchema account world = outcome)
    (hquiet : ∀ fault, outcome = .error fault → ¬ExactFault fault) :
    ChecksTypes plans bindings localSchema outcome ↔
      (∀ rule ∈ plans, rule.TypesAllowed localSchema bindings) ∨
        RefusedFirst plans bindings localSchema ∨
        (∀ rule ∈ plans, ¬rule.Clashes localSchema bindings) ∧
          ¬Preparable plans bindings localSchema := by
  have hrefines := refines_prepare (ω := ω) plans bindings localSchema account
  cases outcome with
  | ok ended =>
      obtain ⟨prepared, world'⟩ := ended
      obtain ⟨models, hmodels, -⟩ := hrefines.of_ok hrun
      have hpreparable := exists_readReferences_iff.mp ⟨models, hmodels⟩
      constructor
      · exact .inl
      · rintro (hallowed | hrefused | ⟨-, hnot⟩)
        · exact hallowed
        · obtain ⟨fault, hfault, -⟩ := readReferences_refused_iff.mpr hrefused
          rw [hmodels] at hfault
          cases hfault
        · exact absurd hpreparable hnot
  | error fault =>
      have hfault := (hrefines.of_error hrun).resolve_left (hquiet fault rfl)
      constructor
      · intro h
        -- a mismatch is the one of the first rule that does not pass
        by_cases hkind : fault.IsTypeMismatch
        · exact .inr (.inl (readReferences_refused_iff.mp ⟨fault, hfault, hkind⟩))
        · refine .inr (.inr ⟨fun rule hrule hclashes => hkind (h ⟨rule, hrule, hclashes⟩), ?_⟩)
          intro hpreparable
          obtain ⟨prepared, hprepared⟩ := exists_readReferences_iff.mpr hpreparable
          rw [hprepared] at hfault
          cases hfault
      · rintro (hallowed | hrefused | ⟨hnone, -⟩) ⟨rule, hrule, hclashes⟩
        · exact absurd hclashes (hallowed rule hrule).not_clashes
        · obtain ⟨fault', hfault', hkind⟩ := readReferences_refused_iff.mpr hrefused
          obtain rfl := Except.error.inj (hfault.symm.trans hfault')
          exact hkind
        · exact absurd hclashes (hnone rule hrule)

def labelField : Field := .mk "label" .utf8 true []

/-- Two rules that check the integers `id` and the texts `label` against one column of integers. -/
def labelRules : List ReferencePlan :=
  let id := (ArrowArray.ofInt64 "id" []).field
  [{ name := "ids", columns := [0], fields := [id], reference := "known"
     referenceColumns := ["id"], nulls := .skip },
   { name := "labels", columns := [1], fields := [labelField], reference := "known"
     referenceColumns := ["id"], nulls := .skip }]

def labelSchema : Schema :=
  { fields := [(ArrowArray.ofInt64 "id" []).field, labelField], metadata := [] }

theorem find_known (dataset : BatchReader) :
    SortedMap.find "known" [("known", dataset)] = some dataset := by
  rw [SortedMap.find_cons]
  exact if_pos rfl

/-- The ids may be compared with the known ids; the labels may not, and alone they are refused. -/
theorem prepare_checksTypes_iff_labels :
    letI := Crates.zeroDigests
    ChecksTypes (labelRules.take 1) [("known", idReader [some 8])] labelSchema
        (prepare (labelRules.take 1) [("known", idReader [some 8])] labelSchema
          (.root smallOptions.resources) Granting.granting) ∧
      ChecksTypes (labelRules.drop 1) [("known", idReader [some 8])] labelSchema
        (prepare (labelRules.drop 1) [("known", idReader [some 8])] labelSchema
          (.root smallOptions.resources) Granting.granting) := by
  let := Crates.zeroDigests
  constructor
  · obtain ⟨prepared, world', hrun⟩ := exists_ended (m := prepare (labelRules.take 1)
      [("known", idReader [some 8])] labelSchema (.root smallOptions.resources))
      (w := Granting.granting) (by decide +kernel)
    refine (prepare_checksTypes_iff rfl ?_).mpr (.inl ?_)
    · rw [hrun]
      simp
    · intro rule hrule
      obtain rfl := List.mem_singleton.mp hrule
      refine ⟨idReader [some 8], find_known _, ?_⟩
      intro entry hentry
      obtain rfl := List.mem_singleton.mp hentry
      exact ⟨0, .int64, (ArrowArray.ofInt64 "id" []).field, by decide +kernel, rfl, rfl, .inl rfl⟩
  · refine (prepare_checksTypes_iff rfl ?_).mpr (.inr (.inl ?_))
    · have hrun : errorOf (prepare (labelRules.drop 1) [("known", idReader [some 8])] labelSchema
          (.root smallOptions.resources) Granting.granting) =
          some (labelRules[1].typeMismatch .utf8 .int64 0) := by decide +kernel
      intro fault hfault
      rw [errorOf_eq_some] at hrun
      obtain rfl := Except.error.inj (hfault.symm.trans hrun)
      decide
    · refine ⟨[], labelRules[1], [], rfl, atEach_nil, by simp [ReferencePlan.SharesKeys],
        idReader [some 8], ⟨find_known _, by simp [loaders]⟩, ?_⟩
      refine ⟨[], ("id", 0), [], rfl, by simp, 0, .utf8, (ArrowArray.ofInt64 "id" []).field,
        by decide +kernel, rfl, rfl, ?_⟩
      rintro (heq | ⟨unit, timezone, timezone', heq, -⟩)
      · cases heq
      · cases heq

/-- The texts are compared with the integers. -/
theorem prepare_checksTypes_labels :
    letI := Crates.zeroDigests
    ¬ChecksTypes labelRules [("known", idReader [some 8])] labelSchema
      (prepare labelRules [("known", idReader [some 8])] labelSchema (.root smallOptions.resources)
        Granting.granting) := by
  let := Crates.zeroDigests
  obtain ⟨prepared, world', hrun⟩ := exists_ended (m := prepare labelRules
    [("known", idReader [some 8])] labelSchema (.root smallOptions.resources))
    (w := Granting.granting) (by decide +kernel)
  rw [hrun]
  intro h
  obtain ⟨dataset, hdataset, hmatches⟩ := h labelRules[1] (by simp [labelRules])
  obtain rfl := Option.some.inj (hdataset.symm.trans (find_known _))
  obtain ⟨index, checked, field, hindex, hchecked, hfield, hcomparable⟩ :=
    hmatches ("id", 0) (by simp [labelRules])
  obtain rfl : index = 0 := by
    have hzero : (idReader [some 8]).schema.indexOf "id" = some 0 := by decide +kernel
    exact Option.some.inj (hindex.symm.trans hzero)
  cases hchecked
  cases hfield
  rcases hcomparable with heq | ⟨unit, timezone, timezone', heq, -⟩
  · cases heq
  · cases heq

end ProofFrame
