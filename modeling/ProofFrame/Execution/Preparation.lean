import ProofFrame.Execution.KeyTuples

/-!
# Preparing the reference rules

What a successful preparation has read.  A rule is compared against the keys that
the first rule with its cache key has loaded (`loadingRule`), so its scan is that
rule's reading of that rule's dataset.  `Progress` is what a run of `readRule`
keeps: the readers left are among the readers bound, and every scan made so far
is the one of its loading rule.
-/

namespace ProofFrame

open Lib Lib.Run Distinct

/-! ## Key columns -/

/-- The types the documentation allows to be compared: the same type, or timestamps of one unit. -/
def DataType.Comparable (left right : DataType) : Prop :=
  left = right ∨ ∃ unit timezone timezone',
    left = .timestamp unit timezone ∧ right = .timestamp unit timezone'

theorem typesMatch_iff {left right : DataType} :
    typesMatch left right = true ↔ left.Comparable right := by
  unfold DataType.Comparable
  constructor
  · intro h
    unfold typesMatch at h
    split at h
    · rw [decide_eq_true_eq] at h
      subst h
      exact .inr ⟨_, _, _, rfl, rfl⟩
    · exact .inl (of_decide_eq_true h)
  · rintro (rfl | ⟨unit, timezone, timezone', rfl, rfl⟩)
    · unfold typesMatch
      split <;> simp
    · simp [typesMatch]

namespace DataType.Comparable

theorem symm {left right : DataType} (h : left.Comparable right) : right.Comparable left := by
  rcases h with rfl | ⟨unit, timezone, timezone', rfl, rfl⟩
  · exact .inl rfl
  · exact .inr ⟨unit, timezone', timezone, rfl, rfl⟩

theorem trans {left middle right : DataType} (h : left.Comparable middle)
    (h' : middle.Comparable right) : left.Comparable right := by
  rcases h with rfl | ⟨unit, timezone, timezone', rfl, rfl⟩
  · exact h'
  · rcases h' with rfl | ⟨unit', other, other', heq, rfl⟩
    · exact .inr ⟨unit, timezone, timezone', rfl, rfl⟩
    · cases heq
      exact .inr ⟨unit, timezone, other', rfl, rfl⟩

end DataType.Comparable

/-- The positions of the key columns in a reference dataset. -/
def ReferencePlan.keyColumns (plan : ReferencePlan) (schema : Schema) : Option (List ℕ) :=
  plan.referenceColumns.mapM schema.indexOf

/-- At a key position, the dataset has the column and its type may be compared with the one of the
checked column. -/
def ReferencePlan.MatchesAt (plan : ReferencePlan) (localSchema referenceSchema : Schema)
    (column : String) (ordinal : ℕ) : Prop :=
  ∃ index checked field, referenceSchema.indexOf column = some index ∧
    plan.localType localSchema ordinal = .ok checked ∧
    referenceSchema.fields[index]? = some field ∧ checked.Comparable field.dataType

/-- The same at every key position. -/
def ReferencePlan.Matches (plan : ReferencePlan) (localSchema referenceSchema : Schema) : Prop :=
  ∀ entry ∈ plan.referenceColumns.zipIdx,
    plan.MatchesAt localSchema referenceSchema entry.1 entry.2

section Reading

variable [Crates]

theorem resolveKeyColumn_eq_ok {plan : ReferencePlan} {localSchema referenceSchema : Schema}
    {column : String} {ordinal index : ℕ}
    (h : resolveKeyColumn plan localSchema referenceSchema column ordinal = .ok index) :
    referenceSchema.indexOf column = some index ∧
      plan.MatchesAt localSchema referenceSchema column ordinal := by
  unfold resolveKeyColumn at h
  split at h
  · cases h
  · rename_i found hfound
    obtain ⟨checked, hchecked, h⟩ := bind_eq_ok.mp h
    split at h
    · cases h
    · rename_i field hfield
      split at h
      · rename_i hmatch
        cases h
        exact ⟨hfound, index, checked, field, hfound, hchecked, hfield, typesMatch_iff.mp hmatch⟩
      · cases h

theorem ReferencePlan.MatchesAt.exists_index {plan : ReferencePlan}
    {localSchema referenceSchema : Schema} {column : String} {ordinal : ℕ}
    (h : plan.MatchesAt localSchema referenceSchema column ordinal) :
    ∃ index, resolveKeyColumn plan localSchema referenceSchema column ordinal = .ok index := by
  obtain ⟨index, checked, field, hindex, hchecked, hfield, hmatch⟩ := h
  refine ⟨index, ?_⟩
  rw [resolveKeyColumn, hindex]
  dsimp only
  rw [hchecked]
  rw [ok_bind]
  simp only [hfield]
  exact if_pos (typesMatch_iff.mpr hmatch)

theorem resolveReferenceKey_eq_ok {plan : ReferencePlan} {localSchema referenceSchema : Schema}
    {indexes : List ℕ} (h : resolveReferenceKey plan localSchema referenceSchema = .ok indexes) :
    plan.keyColumns referenceSchema = some indexes ∧
      plan.Matches localSchema referenceSchema := by
  unfold resolveReferenceKey at h
  unfold ReferencePlan.keyColumns ReferencePlan.Matches
  generalize plan.referenceColumns = columns at h ⊢
  generalize 0 = ordinal at h ⊢
  induction columns generalizing indexes ordinal with
  | nil =>
      cases h
      exact ⟨rfl, by simp⟩
  | cons column columns ih =>
      rw [List.zipIdx_cons, List.mapM_cons] at h
      obtain ⟨index, hindex, h⟩ := bind_eq_ok.mp h
      obtain ⟨rest, hrest, h⟩ := bind_eq_ok.mp h
      cases h
      obtain ⟨hcolumn, hmatch⟩ := resolveKeyColumn_eq_ok hindex
      obtain ⟨hcolumns, hmatches⟩ := ih _ hrest
      refine ⟨?_, ?_⟩
      · rw [List.mapM_cons, hcolumn, hcolumns]
        rfl
      · rw [List.zipIdx_cons]
        rintro entry hentry
        rcases List.mem_cons.mp hentry with rfl | hentry
        · exact hmatch
        · exact hmatches entry hentry

theorem ReferencePlan.Matches.exists_indexes {plan : ReferencePlan}
    {localSchema referenceSchema : Schema} (h : plan.Matches localSchema referenceSchema) :
    ∃ indexes, resolveReferenceKey plan localSchema referenceSchema = .ok indexes := by
  unfold resolveReferenceKey
  unfold ReferencePlan.Matches at h
  generalize plan.referenceColumns.zipIdx = entries at h ⊢
  induction entries with
  | nil => exact ⟨[], rfl⟩
  | cons entry entries ih =>
      obtain ⟨index, hindex⟩ := (h entry (List.mem_cons_self ..)).exists_index
      obtain ⟨rest, hrest⟩ := ih fun other hother => h other (List.mem_cons_of_mem _ hother)
      refine ⟨index :: rest, ?_⟩
      rw [List.mapM_cons, hrest]
      exact bind_eq_ok.mpr ⟨index, hindex, rfl⟩

/-! ## Reading one dataset -/

omit [Crates] in
theorem arrowItem_eq_ok {item : Except String RecordBatch} {batch : RecordBatch} :
    arrowItem item = .ok batch ↔ item = .ok batch := by
  cases item <;> simp [arrowItem]

/-- The rule that loads the keys a rule is compared with: the first with its cache key. -/
def loadingRule (plans : List ReferencePlan) (plan : ReferencePlan) : Option ReferencePlan :=
  plans.find? fun other => referenceCacheKey other = referenceCacheKey plan

omit [Crates] in
theorem exists_loadingRule {plans : List ReferencePlan} {plan : ReferencePlan}
    (h : plan ∈ plans) :
    ∃ loader, loadingRule plans plan = some loader := by
  rw [← Option.isSome_iff_exists, loadingRule, List.find?_isSome]
  exact ⟨plan, h, decide_eq_true rfl⟩

omit [Crates] in
theorem loadingRule_some {plans : List ReferencePlan} {plan loader : ReferencePlan}
    (h : loadingRule plans plan = some loader) :
    loader ∈ plans ∧ referenceCacheKey loader = referenceCacheKey plan :=
  ⟨List.mem_of_find?_eq_some h, of_decide_eq_true (List.find?_some (p := fun other =>
    decide (referenceCacheKey other = referenceCacheKey plan)) h)⟩

omit [Crates] in
theorem loadingRule_congr {plans : List ReferencePlan} {plan other : ReferencePlan}
    (h : referenceCacheKey plan = referenceCacheKey other) :
    loadingRule plans plan = loadingRule plans other := by
  rw [loadingRule, loadingRule, h]

/-- The scan is the reading of the loading rule's dataset by the loading rule. -/
def LoadedBy (bindings : ReferenceBindings) (localSchema : Schema) (loader : ReferencePlan)
    (scanned : ScannedReference (List Record)) : Prop :=
  ∃ reader, SortedMap.find loader.reference bindings = some reader ∧
    readReference loader reader localSchema = .ok scanned

/-- What holds after the rules `done`. -/
structure Progress (bindings : ReferenceBindings) (localSchema : Schema)
    (done : List ReferencePlan) (current : Preparation (List Record)) : Prop where
  plans_eq : current.prepared.map PreparedReference.plan = done
  left : ∀ name reader, SortedMap.find name current.bindings = some reader →
    SortedMap.find name bindings = some reader
  cached : ∀ reference ∈ current.prepared,
    SortedMap.find (referenceCacheKey reference.plan) current.scanned = some reference.scanned
  loaded : ∀ plan scanned, SortedMap.find (referenceCacheKey plan) current.scanned = some scanned →
    ∃ loader, loadingRule done plan = some loader ∧ LoadedBy bindings localSchema loader scanned

variable {bindings : ReferenceBindings} {localSchema : Schema} {done : List ReferencePlan}
  {current next : Preparation (List Record)} {plan : ReferencePlan}

omit [Crates] in
theorem loadingRule_append_of_some {loader : ReferencePlan} {rest : List ReferencePlan}
    (h : loadingRule done plan = some loader) : loadingRule (done ++ rest) plan = some loader := by
  unfold loadingRule at h ⊢
  rw [List.find?_append, h]
  rfl

/-- A rule that finds no scan under its cache key loads the keys itself. -/
theorem Progress.loadingRule_self (h : Progress bindings localSchema done current)
    (hfind : SortedMap.find (referenceCacheKey plan) current.scanned = none) :
    loadingRule (done ++ [plan]) plan = some plan := by
  have hnone : loadingRule done plan = none := by
    rw [loadingRule, List.find?_eq_none]
    intro other hother heq
    rw [decide_eq_true_eq] at heq
    rw [← h.plans_eq] at hother
    obtain ⟨reference, hreference, rfl⟩ := List.mem_map.mp hother
    have hcached := h.cached reference hreference
    rw [heq, hfind] at hcached
    cases hcached
  unfold loadingRule at hnone ⊢
  rw [List.find?_append, hnone]
  simp

/-- Loading the keys of a rule, or finding them loaded. -/
theorem Progress.readUnlessCached (h : Progress bindings localSchema done current)
    (hnext : readUnlessCached localSchema plan current = .ok next) :
    next.prepared = current.prepared ∧
      (∀ name reader, SortedMap.find name next.bindings = some reader →
        SortedMap.find name bindings = some reader) ∧
      (∀ reference ∈ current.prepared,
        SortedMap.find (referenceCacheKey reference.plan) next.scanned = some reference.scanned) ∧
      (∀ other scanned, SortedMap.find (referenceCacheKey other) next.scanned = some scanned →
        ∃ loader, loadingRule (done ++ [plan]) other = some loader ∧
          LoadedBy bindings localSchema loader scanned) := by
  unfold ProofFrame.readUnlessCached at hnext
  split at hnext
  · cases hnext
    refine ⟨rfl, h.left, h.cached, ?_⟩
    intro other scanned hscanned
    obtain ⟨loader, hloader, hloaded⟩ := h.loaded other scanned hscanned
    exact ⟨loader, loadingRule_append_of_some hloader, hloaded⟩
  · rename_i hsome
    have hfind : SortedMap.find (referenceCacheKey plan) current.scanned = none := by
      simpa using hsome
    obtain ⟨reader, hreader, hnext⟩ := bind_eq_ok.mp hnext
    obtain ⟨scan, hscan, hnext⟩ := bind_eq_ok.mp hnext
    cases hnext
    rw [required_eq_ok] at hreader
    refine ⟨rfl, ?_, ?_, ?_⟩
    · intro name reader' hreader'
      by_cases hname : name = plan.reference
      · subst hname
        rw [SortedMap.find_remove_self] at hreader'
        cases hreader'
      · rw [SortedMap.find_remove_of_ne hname] at hreader'
        exact h.left name reader' hreader'
    · intro reference hreference
      have hcached := h.cached reference hreference
      rw [SortedMap.find_insert_of_ne, hcached]
      intro heq
      rw [heq, hfind] at hcached
      cases hcached
    · intro other scanned hscanned
      by_cases heq : referenceCacheKey other = referenceCacheKey plan
      · dsimp only at hscanned
        rw [heq, SortedMap.find_insert_self] at hscanned
        cases hscanned
        refine ⟨plan, ?_, reader, h.left _ _ hreader, hscan⟩
        have hself := h.loadingRule_self hfind
        unfold loadingRule at hself ⊢
        rw [heq]
        exact hself
      · dsimp only at hscanned
        rw [SortedMap.find_insert_of_ne heq] at hscanned
        obtain ⟨loader, hloader, hloaded⟩ := h.loaded other scanned hscanned
        exact ⟨loader, loadingRule_append_of_some hloader, hloaded⟩

theorem Progress.readRule (h : Progress bindings localSchema done current)
    (hnext : readRule localSchema current plan = .ok next) :
    Progress bindings localSchema (done ++ [plan]) next := by
  obtain ⟨middle, hmiddle, hnext⟩ := bind_eq_ok.mp hnext
  obtain ⟨scanned, hscanned, hnext⟩ := bind_eq_ok.mp hnext
  cases hnext
  rw [required_eq_ok] at hscanned
  obtain ⟨hprepared, hleft, hcached, hloaded⟩ := h.readUnlessCached hmiddle
  refine ⟨?_, hleft, ?_, hloaded⟩
  · rw [List.map_append, hprepared, h.plans_eq]
    rfl
  · intro reference hreference
    rcases List.mem_append.mp hreference with hold | hnew
    · rw [hprepared] at hold
      exact hcached reference hold
    · rw [List.mem_singleton] at hnew
      subst hnew
      exact hscanned

/-- Each rule is prepared with the scan of its loading rule. -/
theorem readReferences_eq_ok {plans : List ReferencePlan}
    {prepared : List (PreparedReference (List Record))}
    (h : readReferences plans bindings localSchema = .ok prepared) :
    List.Forall₂ (fun plan reference => reference.plan = plan ∧ ∃ loader,
      loadingRule plans plan = some loader ∧
      LoadedBy bindings localSchema loader reference.scanned) plans prepared := by
  obtain ⟨current, hrun, h⟩ := bind_eq_ok.mp h
  obtain ⟨_, -, h⟩ := bind_eq_ok.mp h
  cases h
  have hprogress := foldlM_invariant (P := Progress bindings localSchema)
    ⟨rfl, fun _ _ h => h, by simp, by simp⟩
    (fun done plan current next _ h hnext => h.readRule hnext) hrun
  have hprepared : ∀ reference ∈ current.prepared, ∃ loader,
      loadingRule plans reference.plan = some loader ∧
      LoadedBy bindings localSchema loader reference.scanned := by
    intro reference hreference
    exact hprogress.loaded _ _ (hprogress.cached reference hreference)
  suffices hall : List.Forall₂ (fun plan reference => reference.plan = plan ∧ ∃ loader,
      loadingRule plans plan = some loader ∧ LoadedBy bindings localSchema loader reference.scanned)
      (current.prepared.map PreparedReference.plan) current.prepared by
    rwa [hprogress.plans_eq] at hall
  rw [List.forall₂_map_left_iff, List.forall₂_same]
  intro reference hreference
  exact ⟨rfl, hprepared reference hreference⟩

end Reading

end ProofFrame
