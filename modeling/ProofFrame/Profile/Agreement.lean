import ProofFrame.Execution.Integrity
import ProofFrame.Profile.Suggestion
import ProofFrame.Profile.Uncounted

/-!
# One fingerprint of the first version

A profile and a suggestion report the fingerprint of their dataset from the same
traversal that counts its values.  Whatever that traversal does besides, and
whatever its surroundings answer, the fingerprint is the one
`fingerprint_reader` computes with the streaming encoder.
-/

namespace ProofFrame

open Lib Lib.Run

/-! ## The part of a state a pure step computes -/

section Shadow

variable {ω ε σ τ ι : Type} {part : σ → τ} {f : σ → ι → Run ω ε σ} {g : τ → ι → Except ε τ}

/-- Every step keeps a part of its state as the pure step computes it. -/
def Shadows (part : σ → τ) (f : σ → ι → Run ω ε σ) (g : τ → ι → Except ε τ) (items : List ι) : Prop :=
  ∀ item ∈ items, ∀ state, Sat (f state item) (fun next => g (part state) item = .ok (part next))
    fun _ => True

theorem Shadows.foldlM {items : List ι} (h : Shadows part f g items) :
    ∀ state, Sat (items.foldlM f state)
      (fun next => items.foldlM g (part state) = .ok (part next)) fun _ => True := by
  induction items with
  | nil => exact fun state => sat_pure rfl
  | cons item items ih =>
      intro state
      rw [List.foldlM_cons]
      apply (h item (List.mem_cons_self ..) state).bind
      intro next hnext
      rw [List.foldlM_cons, hnext]
      exact ih (fun other hother => h other (List.mem_cons_of_mem _ hother)) next

end Shadow

variable [Crates]

/-- What a batch adds to the hasher of a traversal. -/
def hashItem (schema : Schema) (changed : Fault) (fed : List UInt8)
    (item : Except String RecordBatch) : Except Fault (List UInt8) := do
  let batch ← arrowItem item
  rejectIf (batch.schema ≠ schema) changed
  hashBatch batch fed

/-- A traversal that feeds every cell feeds its batches. -/
theorem shadows_traverseBatch {ω σ : Type} {part : σ → List UInt8} {schema : Schema}
    {changed : Fault} {visit : ℕ → σ → ArrowArray × ℕ → Run ω Fault σ} {count : σ → ℕ → σ}
    (hvisit : ∀ row entries, Shadows part (visit row) (hashCell row) entries)
    (hcount : ∀ state rows, part (count state rows) = part state)
    (items : List (Except String RecordBatch)) :
    Shadows part (traverseBatch schema changed visit count) (hashItem schema changed) items := by
  intro item _ state
  unfold traverseBatch hashItem
  apply (sat_lift (Q := fun batch => arrowItem item = .ok batch) (fun _ h => h)
    fun _ _ => trivial).bind
  intro batch hbatch
  apply (sat_failIf fun _ => trivial).bind
  intro _ hschema
  rw [hbatch, ok_bind, rejectIf, if_neg hschema, ok_bind]
  have hrows : Shadows part
      (fun state row => batch.columns.zipIdx.foldlM (visit row) state)
      (fun fed row => batch.columns.zipIdx.foldlM (hashCell row) fed) (List.range batch.rows) :=
    fun row _ state => (hvisit row _).foldlM state
  apply (hrows.foldlM state).bind
  intro next hnext
  apply sat_pure
  rw [hcount]
  exact hnext

/-! ## The streaming fingerprint of the same batches -/

/-- The streaming fingerprint reads the batches a traversal of the schema has read. -/
theorem streams_of_hashItems {schema : Schema} {plan : List ValueEncoder} {changed : Fault}
    (hplan : encodingPlan schema = .ok plan) {items : List (Except String RecordBatch)} :
    ∀ {fed last : List UInt8} {rows : ℕ}, items.foldlM (hashItem schema changed) fed = .ok last →
      ∃ total, items.foldlM (streamItem schema plan) (fed, rows) = .ok (last, total) := by
  induction items with
  | nil =>
      intro fed last rows h
      cases h
      exact ⟨rows, rfl⟩
  | cons item items ih =>
      intro fed last rows h
      rw [List.foldlM_cons] at h
      obtain ⟨next, hitem, h⟩ := bind_eq_ok.mp h
      obtain ⟨batch, hbatch, hitem⟩ := bind_eq_ok.mp hitem
      obtain ⟨_, hschema, hitem⟩ := bind_eq_ok.mp hitem
      have hschema := rejectIf_eq_ok.mp hschema
      obtain ⟨total, htotal⟩ := @ih _ _ (rows + batch.rows) h
      refine ⟨total, ?_⟩
      rw [List.foldlM_cons, streamItem, hbatch, ok_bind, rejectIf, if_neg hschema, ok_bind,
        streamBatch_eq_hashBatch hplan (not_not.mp hschema), hitem]
      exact htotal

/-- Where a traversal of the batches succeeds, they have the fingerprint of what it has fed. -/
theorem fingerprintReader_of_hashItems {reader : BatchReader} {changed : Fault}
    {fed : List UInt8} (hencodable : reader.schema.encodable = true)
    (h : reader.items.foldlM (hashItem reader.schema changed) (profileHasher reader.schema) =
      .ok fed) : fingerprintReader reader = .ok (v1Text fed) := by
  have hsupports := supports_encodingPlan reader.schema
  rw [hencodable] at hsupports
  obtain ⟨plan, hplan⟩ := hsupports.exists_ok
  obtain ⟨total, htotal⟩ := @streams_of_hashItems _ _ _ _ hplan _ _ _ 0 h
  have hheader : v1Header reader.schema = profileHasher reader.schema := rfl
  unfold fingerprintReader fingerprintV1
  rw [hplan, ok_bind, hheader, htotal]
  rfl

/-! ## Profiles and suggestions -/

section Traversals

variable {ω : Type}

theorem shadows_inspectCell [Resuming ω] (row : ℕ) (entries : List (ArrowArray × ℕ)) :
    Shadows (ω := ω) Inspection.hasher (inspectCell row) (hashCell row) entries := by
  intro entry _ inspection
  unfold inspectCell
  apply (sat_lift (Q := fun hasher => hashCell row inspection.hasher entry = .ok hasher)
    (fun _ h => h) fun _ _ => trivial).bind
  intro hasher hhasher
  apply (sat_known trivial).bind
  intro state _
  apply (sat_known trivial).bind
  intro cell _
  cases cell with
  | none => exact sat_pure hhasher
  | some value =>
      apply (sat_known trivial).bind
      intro valueKey _
      apply (sat_known trivial).bind
      intro state _
      exact sat_pure hhasher

theorem shadows_suggestCell [Host ω] (options : SuggestOptions) (row : ℕ)
    (entries : List (ArrowArray × ℕ)) :
    Shadows (ω := ω) SuggestionScan.hasher (suggestCell options row) (hashCell row) entries := by
  intro entry _ scan
  unfold suggestCell
  apply (sat_lift (Q := fun hasher => hashCell row scan.hasher entry = .ok hasher)
    (fun _ h => h) fun _ _ => trivial).bind
  intro hasher hhasher
  apply (sat_known trivial).bind
  intro state _
  apply (sat_known trivial).bind
  intro cell _
  cases cell with
  | none => exact sat_pure hhasher
  | some value =>
      apply (sat_known trivial).bind
      intro state _
      exact sat_pure hhasher

/-- The fingerprint of a profile is that of its dataset. -/
theorem sat_inspectBatches_fingerprint [Resuming ω] {reader : BatchReader} (mode : DistinctMode)
    (resources : ResourceLimits) (rowCountHint : Option ℕ) (spill : SpillPolicy)
    (hencodable : reader.schema.encodable = true) :
    Sat (inspectBatches reader mode resources rowCountHint spill : Run ω Fault _)
      (fun profile => fingerprintReader reader = .ok profile.fingerprint) fun _ => True := by
  unfold inspectBatches
  apply Sat.bind (Q := fun inspection => inspection.hasher = profileHasher reader.schema)
  · apply (sat_known trivial).bind
    intro states _
    exact sat_pure rfl
  · intro inspection hheader
    have hbatches : Shadows (ω := ω) Inspection.hasher (inspectBatch reader.schema)
        (hashItem reader.schema profileSchemaChanged) reader.items :=
      shadows_traverseBatch shadows_inspectCell (by intro _ _; rfl) _
    apply (hbatches.foldlM inspection).bind
    intro last hlast
    rw [hheader] at hlast
    apply (sat_known trivial).bind
    intro columns _
    exact sat_pure (fingerprintReader_of_hashItems hencodable hlast)

/-- The fingerprint a suggestion was made from is that of its dataset. -/
theorem sat_suggestReaderWithOptions_fingerprint [Host ω] {reader : BatchReader}
    (options : SuggestOptions) (rowCountHint : Option ℕ)
    (hencodable : reader.schema.encodable = true) :
    Sat (suggestReaderWithOptions reader options rowCountHint : Run ω Fault _)
      (fun suggestion => fingerprintReader reader = .ok suggestion.datasetFingerprint)
      fun _ => True := by
  unfold suggestReaderWithOptions
  apply (sat_known trivial).bind
  intro _ _
  apply (sat_known trivial).bind
  intro _ _
  apply (sat_known trivial).bind
  intro directory _
  apply (sat_known trivial).bind
  intro states _
  have hbatches : Shadows (ω := ω) SuggestionScan.hasher (suggestBatch options reader.schema)
      (hashItem reader.schema suggestSchemaChanged) reader.items :=
    shadows_traverseBatch (shadows_suggestCell options) (by intro _ _; rfl) _
  apply (hbatches.foldlM _).bind
  intro last hlast
  apply (sat_known trivial).bind
  intro distinctRatio _
  exact sat_pure (fingerprintReader_of_hashItems hencodable hlast)

end Traversals

/-! ## The two encoders -/

/-- The buffer of the streaming encoder grows by the canonical bytes of the cell. -/
theorem writeV1Value_canonical {dataType : DataType} {encoder : ValueEncoder}
    (hencoder : ValueEncoder.forDataType dataType = .ok encoder) {cell : Option Value}
    (hadmits : dataType.AdmitsPresent cell) :
    ∃ bytes, canonicalValueBytes dataType cell = .ok bytes ∧
      ∀ output, encoder.writeV1Value dataType cell output = .ok (output ++ bytes) := by
  obtain ⟨bytes, hbytes⟩ := exists_canonicalValueBytes
    (ValueEncoder.encodable_of_forDataType hencoder) cell hadmits
  exact ⟨bytes, hbytes, fun output => ValueEncoder.writeV1Value_eq hencoder cell output hadmits
    hbytes⟩

/-- A schema with a type the encoder does not know has no streaming fingerprint. -/
theorem fingerprintReader_unsupported {reader : BatchReader}
    (h : reader.schema.encodable = false) :
    ∃ message, fingerprintReader reader = .error (unsupportedType message) := by
  have hsupports := supports_encodingPlan reader.schema
  rw [h] at hsupports
  obtain ⟨message, hplan⟩ := hsupports.exists_error
  refine ⟨message, ?_⟩
  unfold fingerprintReader fingerprintV1
  rw [hplan]
  rfl

/-- **One V1 encoding.**  For every type with an encoder, nested ones included, the streaming
encoder writes the canonical bytes of a cell behind what its buffer holds, and feeds the hasher what
`update_hash` does.  So the fingerprint that a profile or a suggestion of a dataset of such types
reports, whatever its options and its surroundings, is the one of `fingerprint_reader`; of datasets
of other types that function reports none. -/
theorem streaming_encoder_agrees :
    (∀ (dataType : DataType) (encoder : ValueEncoder),
      ValueEncoder.forDataType dataType = .ok encoder → ∀ cell, dataType.AdmitsPresent cell →
        ∃ bytes, canonicalValueBytes dataType cell = .ok bytes ∧
          ∀ output, encoder.writeV1Value dataType cell output = .ok (output ++ bytes)) ∧
    (∀ (array : ArrowArray) (encoder : ValueEncoder),
      ValueEncoder.forDataType array.dataType = .ok encoder → ∀ column row,
        encoder.updateV1 column array row = updateHash column array row) ∧
    (∀ reader : BatchReader, reader.schema.encodable = true → ∀ (ω : Type) [Resuming ω]
      (world world' : ω) (rowCountHint : Option ℕ),
        (∀ mode resources spill profile,
          inspectBatches reader mode resources rowCountHint spill world = .ok (profile, world') →
            fingerprintReader reader = .ok profile.fingerprint) ∧
        ∀ options suggestion,
          suggestReaderWithOptions reader options rowCountHint world = .ok (suggestion, world') →
            fingerprintReader reader = .ok suggestion.datasetFingerprint) ∧
    ∀ reader : BatchReader, reader.schema.encodable = false →
      ∃ message, fingerprintReader reader = .error (unsupportedType message) := by
  refine ⟨fun _ _ hencoder _ hadmits => writeV1Value_canonical hencoder hadmits,
    fun _ _ hencoder column row => updateV1_eq_updateHash hencoder column row,
    fun reader hencodable ω _ world world' rowCountHint => ⟨?_, ?_⟩,
    fun _ hother => fingerprintReader_unsupported hother⟩
  · intro mode resources spill profile hrun
    exact (sat_inspectBatches_fingerprint mode resources rowCountHint spill hencodable).of_ok hrun
  · intro options suggestion hrun
    exact (sat_suggestReaderWithOptions_fingerprint options rowCountHint hencodable).of_ok hrun

/-- The lists `[7, null]` and null. -/
def listArray : ArrowArray where
  field := .mk "tags" (.list (.mk "item" .int64 true [])) true []
  cells := [some (.sequence [some (.scalar (.signed 7)), none]), none]
  typed := by
    intro cell hcell
    simp only [List.mem_cons, List.not_mem_nil, or_false] at hcell
    rcases hcell with rfl | rfl
    · intro item hitem
      simp only [List.mem_cons, List.not_mem_nil, or_false] at hitem
      rcases hitem with rfl | rfl
      · exact (by decide : InSigned 64 7)
      · exact ⟨rfl, rfl⟩
    · exact ⟨rfl, rfl⟩

def listReader : BatchReader :=
  let batch := RecordBatch.ofColumn listArray
  { schema := batch.schema, items := [.ok batch] }

omit [Crates] in
/-- A profile of two lists. -/
theorem streaming_encoder_agrees_lists :
    letI := Crates.zeroDigests
    (∀ column row, (ValueEncoder.list .int64).updateV1 column listArray row =
      updateHash column listArray row) ∧
    ∃ profile : Profile, fingerprintReader listReader = .ok profile.fingerprint := by
  let := Crates.zeroDigests
  obtain ⟨-, hcells, hruns, -⟩ := streaming_encoder_agrees
  have hitems : ∀ item ∈ listReader.items,
      ∃ batch, item = .ok batch ∧ batch.schema = listReader.schema := by
    rintro item (_ | ⟨_, ⟨⟩⟩)
    exact ⟨RecordBatch.ofColumn listArray, rfl, rfl⟩
  obtain ⟨profile, world', hrun⟩ := total_inspectBatches_uncounted rfl hitems
    smallOptions.resources none .auto Granting.granting
  exact ⟨hcells listArray _ rfl, profile, (hruns listReader rfl Granting _ _ none).1 _ _ _ _ hrun⟩

end ProofFrame
