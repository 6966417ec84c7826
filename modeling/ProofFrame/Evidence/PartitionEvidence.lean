import ProofFrame.Evidence.Binding
import ProofFrame.Evidence.FindingLimits
import ProofFrame.Execution.PartitionAgreement

/-!
# Evidence of partitions

A check of partitions with evidence traverses them as one sequence.  On the way
the sequence keeps a fingerprint of the partition it is in: it is opened with
the partition, fed with every batch that is passed on, and closed when the next
partition is asked for.  The fingerprints are bound into a manifest.

`scanSequence_eq_ok` says what such a traversal comes to: the traversal without
evidence, with one finished fingerprint of each partition.
-/

namespace ProofFrame

open Lib Lib.Run Distinct

section Model

variable [Crates]

def partitionResultDigest (index : UInt64) (fingerprint : Fingerprint)
    (schemaDigest contractSourceDigest compiledPlanDigest : String) : Except Fault String :=
  taggedCanonicalDigest "pf-partition-result-v1:" "proofframe:partition-result:v1" (Json.object [
    ("index", .unsigned index.toNat),
    ("rows", .unsigned fingerprint.rows),
    ("fingerprint_version", .string fingerprint.version.name),
    ("fingerprint_digest", fingerprint.digest.toJson),
    ("schema_digest", .string schemaDigest),
    ("contract_source_digest", .string contractSourceDigest),
    ("compiled_plan_digest", .string compiledPlanDigest)]).toValue

omit [Crates] in
def validateSourceDigest (value : String) : Except Fault Unit :=
  rejectIf (!(["pf-contract-v1:", "pf-contract-v2:"].any fun tag =>
    (stripPrefix tag value).any isHexDigest))
    (.error (.invalidReceipt "Partition contract source digest is malformed"))

/-! ## The sequence -/

/-- `FingerprintedPartitionSequence`: of the partition in front, the items that are left. -/
structure FingerprintedPartitionSequence where
  readers : List (List (Except String RecordBatch))
  schema : Schema
  fingerprints : List (Option Fingerprint)
  index : ℕ
  state : Option V2FingerprintState

namespace FingerprintedPartitionSequence

def new (readers : List BatchReader) (schema : Schema) :
    Except Fault FingerprintedPartitionSequence := do
  let state ← V2FingerprintState.new schema []
  .ok { readers := readers.map BatchReader.items, schema
        fingerprints := List.replicate readers.length none
        index := 0, state := some state }

def finishCurrent (sequence : FingerprintedPartitionSequence) :
    Except Fault FingerprintedPartitionSequence := do
  let state ← required sequence.state
    (.panic "each logical partition owns a fingerprint state")
  rejectIf (sequence.fingerprints.length ≤ sequence.index) outOfBounds
  .ok { sequence with
    state := none
    fingerprints := sequence.fingerprints.set sequence.index (some state.finish) }

/-- Go on to the partitions that are left, with a fingerprint for the next one. -/
def goOn (sequence : FingerprintedPartitionSequence)
    (readers : List (List (Except String RecordBatch))) :
    Except Fault FingerprintedPartitionSequence :=
  if readers.isEmpty then .ok { sequence with readers, index := sequence.index + 1 }
  else match V2FingerprintState.new sequence.schema [] with
    | .ok state =>
        .ok { sequence with readers, index := sequence.index + 1, state := some state }
    | .error _ => .error (.panic "schema was already accepted for the first partition")

/-- Pass an item of the partition in front on, and feed its batch to the fingerprint. -/
def passOn (sequence : FingerprintedPartitionSequence) :
    Except String RecordBatch → Except Fault (Except String RecordBatch × FingerprintedPartitionSequence)
  | .error message => .ok (.error message, sequence)
  | .ok batch => do
      let state ← required sequence.state (.panic "active partition owns a fingerprint state")
      match state.update batch with
      | .ok state => .ok (.ok batch, { sequence with state := some state })
      -- the hashers may be left in the middle of the batch; nobody asks them again
      | .error (.error error) => .ok (.error ("External error: " ++ error.display), sequence)
      | .error fault => .error fault

/-- `next`, on the partitions that are left. -/
def nextOf : List (List (Except String RecordBatch)) → FingerprintedPartitionSequence →
    Except Fault (Option (Except String RecordBatch) × FingerprintedPartitionSequence)
  | [], sequence => .ok (none, { sequence with readers := [] })
  | (item :: items) :: readers, sequence => do
      let (item, sequence) ← sequence.passOn item
      .ok (some item, { sequence with readers := items :: readers })
  | [] :: readers, sequence => do
      let sequence ← sequence.finishCurrent
      let sequence ← sequence.goOn readers
      nextOf readers sequence

/-- `Iterator::next`. -/
def next (sequence : FingerprintedPartitionSequence) :
    Except Fault (Option (Except String RecordBatch) × FingerprintedPartitionSequence) :=
  nextOf sequence.readers sequence

end FingerprintedPartitionSequence

/-! ## The check -/

variable {ω : Type} [Host ω]

/-- `scan_reader` over a sequence, for at most the given number of turns. -/
def scanSequence (plan : CompiledContract) : ℕ → FingerprintedPartitionSequence → ScanState →
    Run ω Fault (ScanState × FingerprintedPartitionSequence)
  | 0, _, _ => throw .diverged
  | turns + 1, sequence, state => do
      let (item, sequence) ← lift sequence.next
      match item with
      | none => pure (state, sequence)
      | some item => do
          let state ← scanBatch plan state item
          scanSequence plan turns sequence state

/-- `execute_reader_with_references` over a sequence. -/
def executeSequence (sequence : FingerprintedPartitionSequence) (plan : CompiledContract)
    (options : ExecutionOptions) (references : ReferenceBindings) :
    Run ω Fault (FastValidationReport × FingerprintedPartitionSequence) := do
  let account := .root options.resources
  let started ←
    startExecution ⟨sequence.schema, []⟩ plan options false account references
  let (scan, sequence) ←
    scanSequence plan (sequence.readers.flatten.length + 1) sequence started.scan
  let (report, _) ← finishExecution plan options account started.prepared started.counted scan
  pure (report, sequence)

/-- The evidence of the partition whose fingerprint is in a slot. -/
def partitionEvidence (report : FastValidationReport) (contractSourceDigest : String)
    (slot : Option Fingerprint) (index : ℕ) : Except Fault PartitionEvidenceV1 := do
  let fingerprint ← required slot
    (.error (.corruptData s!"partition fingerprint {index} was not finalized"))
  let resultDigest ← partitionResultDigest (.ofNat index) fingerprint report.schemaDigest
    contractSourceDigest report.compiledPlanDigest
  .ok { index := .ofNat index
        schemaDigest := report.schemaDigest
        contractSourceDigest
        compiledPlanDigest := report.compiledPlanDigest
        rows := .ofNat fingerprint.rows
        fingerprintVersion := fingerprint.version
        fingerprintDigest := fingerprint.digest
        resultDigest }

/-- The manifest of a report and the fingerprints of the partitions. -/
def partitionManifest (report : FastValidationReport) (contractSourceDigest : String)
    (options : ExecutionOptions) (slots : List (Option Fingerprint)) :
    Except Fault PartitionManifestV1 := do
  let globalResultDigest ← validationResultDigest report.toJson.toValue
  let partitions ← slots.zipIdx.mapM fun (slot, index) =>
    partitionEvidence report contractSourceDigest slot index
  PartitionManifestV1.new partitions globalResultDigest options.resources.held

def checkPartitionReadersWithEvidenceAndReferences (readers : List BatchReader)
    (plan : CompiledContract) (contractSourceDigest : String) (options : ExecutionOptions)
    (references : ReferenceBindings) : Run ω Fault (FastValidationReport × PartitionManifestV1) := do
  failIf (readers.isEmpty = true) (.error (.invalidContract "At least one partition is required"))
  failIf (readers.any (·.schema ≠ plan.schema) = true) partitionSchemaDiffers
  lift (validateSourceDigest contractSourceDigest)
  let sequence ← lift (FingerprintedPartitionSequence.new readers plan.schema)
  let (report, sequence) ← executeSequence sequence plan options references
  let manifest ← lift
    (partitionManifest report contractSourceDigest options sequence.fingerprints)
  pure (report, manifest)

def checkPartitionReadersWithEvidence (readers : List BatchReader) (plan : CompiledContract)
    (contractSourceDigest : String) (options : ExecutionOptions) :
    Run ω Fault (FastValidationReport × PartitionManifestV1) :=
  checkPartitionReadersWithEvidenceAndReferences readers plan contractSourceDigest options []

end Model

/-! ## A traversal with fingerprints -/

section Traversal

variable [Crates] {ω : Type} [Host ω] {plan : CompiledContract}

/-- A reader's error ends the traversal. -/
theorem scanBatch_error {state : ScanState} {message : String} {world : ω} {ended : ScanState × ω} :
    scanBatch plan state (.error message) world ≠ .ok ended := by
  intro h
  obtain ⟨_, _, -, h⟩ := bind_ok_iff.mp h
  obtain ⟨_, _, hitem, -⟩ := bind_ok_iff.mp h
  cases hitem

namespace FingerprintedPartitionSequence

/-- A sequence in the middle of the first of some partitions. -/
def within (schema : Schema) (done : List Fingerprint) (fed : V2FingerprintState)
    (readers : List (List (Except String RecordBatch))) : FingerprintedPartitionSequence :=
  { readers, schema
    fingerprints := done.map some ++ List.replicate readers.length none
    index := done.length, state := some fed }

/-- A sequence after its last partition. -/
def closed (schema : Schema) (done : List Fingerprint) : FingerprintedPartitionSequence :=
  { readers := [], schema, fingerprints := done.map some, index := done.length, state := none }

section Next

variable {schema : Schema} {done : List Fingerprint} {fed fresh : V2FingerprintState}
  {items : List (Except String RecordBatch)} {readers : List (List (Except String RecordBatch))}

theorem next_of_update {batch : RecordBatch} {fed' : V2FingerprintState}
    (h : fed.update batch = .ok fed') :
    (within schema done fed ((.ok batch :: items) :: readers)).next =
      .ok (some (.ok batch), within schema done fed' (items :: readers)) := by
  show (passOn _ (.ok batch) >>= _) = _
  rw [passOn, within]
  simp only [required, ok_bind, h]
  rfl

/-- A batch that cannot be fed arrives as an error, or not at all. -/
theorem next_of_update_error {batch : RecordBatch} {fault : Fault} (h : fed.update batch = .error fault)
    {item : Option (Except String RecordBatch)} {last : FingerprintedPartitionSequence}
    (hnext : (within schema done fed ((.ok batch :: items) :: readers)).next = .ok (item, last)) :
    ∃ message, item = some (.error message) := by
  have hnext : (passOn _ (.ok batch) >>= _) = Except.ok (item, last) := hnext
  rw [passOn, within] at hnext
  simp only [required, ok_bind, h] at hnext
  cases fault with
  | error error =>
      cases hnext
      exact ⟨_, rfl⟩
  | panic site => cases hnext
  | diverged => cases hnext

theorem finishCurrent_within :
    (within schema done fed (items :: readers)).finishCurrent = .ok
      { readers := items :: readers, schema
        fingerprints := (done ++ [fed.finish]).map some ++ List.replicate readers.length none
        index := done.length, state := none } := by
  have hslots : (done.map some ++ List.replicate (readers.length + 1) none).set done.length
      (some fed.finish) =
        (done ++ [fed.finish]).map some ++ List.replicate readers.length none := by
    rw [List.set_append_right _ _ (by simp), List.length_map, Nat.sub_self, List.replicate_succ,
      List.set_cons_zero, List.map_append, List.append_assoc]
    rfl
  have hindex : ¬(done.map some ++ List.replicate (readers.length + 1) (none : Option Fingerprint)).length
      ≤ done.length := by
    rw [List.length_append, List.length_map, List.length_replicate]
    omega
  unfold finishCurrent within
  simp only [required, ok_bind, rejectIf, List.length_cons]
  rw [if_neg hindex, hslots]
  rfl

/-- The next partition is opened when the one in front has come to its end. -/
theorem next_goOn (hnew : V2FingerprintState.new schema [] = .ok fresh) :
    (within schema done fed ([] :: items :: readers)).next =
      (within schema (done ++ [fed.finish]) fresh (items :: readers)).next := by
  show (finishCurrent _ >>= fun sequence => goOn sequence _ >>= _) = _
  rw [finishCurrent_within, ok_bind, goOn]
  simp only [List.isEmpty_cons, Bool.false_eq_true, if_false, hnew, ok_bind]
  unfold next within
  rw [List.length_append]
  rfl

theorem next_closed : (within schema done fed [[]]).next =
    .ok (none, closed schema (done ++ [fed.finish])) := by
  show (finishCurrent _ >>= fun sequence => goOn sequence _ >>= _) = _
  rw [finishCurrent_within, ok_bind, goOn]
  unfold closed
  simp only [List.isEmpty_nil, if_true, ok_bind, List.length_nil, List.replicate_zero,
    List.append_nil, List.length_append, nextOf]
  rfl

end Next

end FingerprintedPartitionSequence

open FingerprintedPartitionSequence

variable {schema : Schema} {fresh : V2FingerprintState}
  {ended : (ScanState × FingerprintedPartitionSequence) × ω}

/-- The items of the partition in front go through the traversal and into its fingerprint. -/
theorem scanSequence_items {done : List Fingerprint}
    {readers : List (List (Except String RecordBatch))} (turns : ℕ)
    {items : List (Except String RecordBatch)} :
    ∀ {fed : V2FingerprintState} {state : ScanState} {world : ω},
      scanSequence plan (items.length + turns) (within schema done fed (items :: readers)) state
          world = .ok ended ↔
        ∃ fed' state' world', items.foldlM V2FingerprintState.feed fed = .ok fed' ∧
          scanReader plan items state world = .ok (state', world') ∧
          scanSequence plan turns (within schema done fed' ([] :: readers)) state' world' =
            .ok ended := by
  induction items with
  | nil =>
      intro fed state world
      rw [List.length_nil, Nat.zero_add]
      constructor
      · intro h
        exact ⟨fed, state, world, rfl, rfl, h⟩
      · rintro ⟨_, _, _, ⟨⟩, ⟨⟩, h⟩
        exact h
  | cons item items ih =>
      intro fed state world
      rw [List.length_cons, Nat.add_right_comm, scanSequence]
      cases item with
      | error message =>
          constructor
          · intro h
            obtain ⟨_, _, ⟨⟩, h⟩ := bind_ok_iff.mp h
            obtain ⟨_, _, hstep, -⟩ := bind_ok_iff.mp h
            exact absurd hstep scanBatch_error
          · rintro ⟨_, _, _, hfed, -⟩
            cases hfed
      | ok batch =>
          -- what the fingerprint refuses ends the traversal as well
          cases hupdate : fed.update batch with
          | error fault =>
              constructor
              · intro h
                obtain ⟨⟨item, _⟩, _, hread, h⟩ := bind_ok_iff.mp h
                obtain ⟨_, hnext, ⟨⟩⟩ := map_eq_ok.mp hread
                obtain ⟨message, rfl⟩ := next_of_update_error hupdate hnext
                obtain ⟨_, _, hstep, -⟩ := bind_ok_iff.mp h
                exact absurd hstep scanBatch_error
              · rintro ⟨_, _, _, hfed, -⟩
                obtain ⟨_, hfeed, -⟩ := bind_eq_ok.mp hfed
                cases hupdate.symm.trans hfeed
          | ok next =>
              rw [next_of_update hupdate, lift_ok_bind]
              constructor
              · intro h
                obtain ⟨middle, world₁, hstep, h⟩ := bind_ok_iff.mp h
                obtain ⟨fed', state', world', hfed, hscan, h⟩ := ih.mp h
                refine ⟨fed', state', world', ?_, ?_, h⟩
                · exact bind_eq_ok.mpr ⟨next, hupdate, hfed⟩
                · exact bind_ok_iff.mpr ⟨middle, world₁, hstep, hscan⟩
              · rintro ⟨fed', state', world', hfed, hscan, h⟩
                obtain ⟨next', hupdate', hfed⟩ := bind_eq_ok.mp hfed
                obtain rfl := Except.ok.inj (hupdate.symm.trans hupdate')
                obtain ⟨middle, world₁, hstep, hscan⟩ := bind_ok_iff.mp hscan
                exact bind_ok_iff.mpr ⟨middle, world₁, hstep,
                  ih.mpr ⟨fed', state', world', hfed, hscan, h⟩⟩

theorem scanReader_append {items items' : List (Except String RecordBatch)} {state : ScanState} {world : ω}
    {last : ScanState × ω} : scanReader plan (items ++ items') state world = .ok last ↔
      ∃ middle world', scanReader plan items state world = .ok (middle, world') ∧
        scanReader plan items' middle world' = .ok last := by
  unfold scanReader
  rw [List.foldlM_append]
  exact bind_ok_iff

/-- **A traversal with fingerprints** ends exactly as the traversal without them does, if every
partition has a fingerprint, and leaves these. -/
theorem scanSequence_eq_ok (hnew : V2FingerprintState.new schema [] = .ok fresh)
    {readers : List (List (Except String RecordBatch))} :
    ∀ {items : List (Except String RecordBatch)} {done : List Fingerprint}
      {fed : V2FingerprintState} {state : ScanState} {world : ω},
      scanSequence plan ((items :: readers).flatten.length + 1) (within schema done fed (items :: readers))
          state world = .ok ended ↔
        ∃ first rest scan world', items.foldlM V2FingerprintState.feed fed = .ok first ∧
          readers.mapM (fun items => items.foldlM V2FingerprintState.feed fresh) = .ok rest ∧
          scanReader plan (items :: readers).flatten state world = .ok (scan, world') ∧
          ended = ((scan, closed schema (done ++ (first :: rest).map V2FingerprintState.finish)),
            world') := by
  induction readers with
  | nil =>
      intro items done fed state world
      rw [List.flatten_cons, List.flatten_nil, List.append_nil, scanSequence_items 1]
      constructor
      · rintro ⟨first, scan, world', hfed, hscan, h⟩
        rw [scanSequence, next_closed, lift_ok_bind] at h
        cases h
        exact ⟨first, [], scan, world', hfed, rfl, hscan, rfl⟩
      · rintro ⟨first, rest, scan, world', hfed, hrest, hscan, rfl⟩
        cases hrest
        refine ⟨first, scan, world', hfed, hscan, ?_⟩
        rw [scanSequence, next_closed]
        rfl
  | cons next readers ih =>
      intro items done fed state world
      have hturns : (items :: next :: readers).flatten.length + 1 =
          items.length + ((next :: readers).flatten.length + 1) := by
        rw [List.flatten_cons, List.length_append, Nat.add_assoc]
      -- a used-up partition closes its fingerprint, and the next one starts afresh
      have hgoOn (fed' : V2FingerprintState) (state' : ScanState) :
          (scanSequence plan ((next :: readers).flatten.length + 1)
            (within schema done fed' ([] :: next :: readers)) state' : Run ω Fault _) =
          scanSequence plan ((next :: readers).flatten.length + 1)
            (within schema (done ++ [fed'.finish]) fresh (next :: readers)) state' := by
        rw [scanSequence, scanSequence, next_goOn hnew]
      rw [hturns, scanSequence_items]
      simp only [hgoOn, ih]
      constructor
      · rintro ⟨first, middle, world₁, hfed, hscan, second, rest, scan, world', hsecond, hrest, hscan',
          rfl⟩
        refine ⟨first, second :: rest, scan, world', hfed, ?_, ?_, ?_⟩
        · exact mapM_cons_eq_ok.mpr ⟨second, rest, hsecond, hrest, rfl⟩
        · exact scanReader_append.mpr ⟨middle, world₁, hscan, hscan'⟩
        · rw [List.append_assoc]
          rfl
      · rintro ⟨first, _, scan, world', hfed, hrest, hwhole, rfl⟩
        obtain ⟨second, rest, hsecond, hothers, rfl⟩ := mapM_cons_eq_ok.mp hrest
        obtain ⟨middle, world₁, hscan, hscan'⟩ := scanReader_append.mp hwhole
        refine ⟨first, middle, world₁, hfed, hscan, second, rest, scan, world', hsecond, hothers,
          hscan', ?_⟩
        rw [List.append_assoc]
        rfl

variable {options : ExecutionOptions} {references : ReferenceBindings}

/-- An execution over a sequence ends exactly as the execution over the partitions does, if every
partition has a fingerprint. -/
theorem executeSequence_eq_ok {reader : BatchReader} {readers : List BatchReader}
    {sequence : FingerprintedPartitionSequence}
    (hnew : FingerprintedPartitionSequence.new (reader :: readers) schema = .ok sequence) {world : ω}
    {ended : (FastValidationReport × FingerprintedPartitionSequence) × ω} :
    executeSequence sequence plan options references world = .ok ended ↔
      ∃ report fingerprints world',
        executeReaderWithReferences (partitionSequence (reader :: readers) schema) plan options
          references world = .ok (report, world') ∧
        (reader :: readers).mapM (fun reader => fingerprintV2 ⟨schema, reader.items⟩ []) =
          .ok fingerprints ∧
        ended = ((report, closed schema fingerprints), world') := by
  obtain ⟨fresh, hfresh, hsequence⟩ := bind_eq_ok.mp hnew
  obtain rfl : within schema [] fresh ((reader :: readers).map BatchReader.items) = sequence := by
    rw [← Except.ok.inj hsequence]
    unfold within
    rw [List.length_map]
    rfl
  have hfingerprint (items : List (Except String RecordBatch)) : fingerprintV2 ⟨schema, items⟩ [] =
      V2FingerprintState.finish <$> items.foldlM V2FingerprintState.feed fresh := by
    unfold fingerprintV2 feedV2
    rw [hfresh, ok_bind]
  have hitems : (partitionSequence (reader :: readers) schema).items =
      ((reader :: readers).map BatchReader.items).flatten := rfl
  simp only [hfingerprint, mapM_map_eq_ok]
  constructor
  · intro h
    obtain ⟨started, world₁, hstart, h⟩ := bind_ok_iff.mp h
    obtain ⟨_, world₂, hscan, h⟩ := bind_ok_iff.mp h
    obtain ⟨first, rest, scan, world₃, hfirst, hrest, hscan, hended⟩ :=
      (scanSequence_eq_ok hfresh).mp hscan
    cases hended
    obtain ⟨⟨report, fingerprint⟩, world', hfinish, h⟩ := bind_ok_iff.mp h
    cases h
    refine ⟨report, _, world', ?_, ⟨first :: rest, ?_, rfl⟩, rfl⟩
    · unfold executeReaderWithReferences
      rw [map_eq_pure_bind]
      refine bind_ok_iff.mpr ⟨(report, fingerprint), world', ?_, rfl⟩
      exact bind_ok_iff.mpr ⟨started, world₁, hstart, bind_ok_iff.mpr ⟨scan, world₂, hscan, hfinish⟩⟩
    · rw [List.mapM_map] at hrest
      exact mapM_cons_eq_ok.mpr ⟨first, rest, hfirst, hrest, rfl⟩
  · rintro ⟨report, _, world', hrun, ⟨_, hfed, rfl⟩, rfl⟩
    obtain ⟨first, rest, hfirst, hrest, rfl⟩ := mapM_cons_eq_ok.mp hfed
    unfold executeReaderWithReferences at hrun
    rw [map_eq_pure_bind] at hrun
    obtain ⟨⟨_, fingerprint⟩, _, hrun, hreport⟩ := bind_ok_iff.mp hrun
    cases hreport
    obtain ⟨started, world₁, hstart, hrun⟩ := bind_ok_iff.mp hrun
    obtain ⟨scan, world₂, hscan, hfinish⟩ := bind_ok_iff.mp hrun
    refine bind_ok_iff.mpr ⟨started, world₁, hstart, bind_ok_iff.mpr ⟨_, world₂,
      (scanSequence_eq_ok hfresh).mpr ⟨first, rest, scan, world₂, hfirst, ?_, hscan, rfl⟩,
      bind_ok_iff.mpr ⟨_, world', hfinish, rfl⟩⟩⟩
    rw [List.mapM_map]
    exact hrest

end Traversal

/-! ## Rows -/

section Rows

variable [Crates]

theorem V2FingerprintState.rows_update {fed next : V2FingerprintState} {batch : RecordBatch}
    (h : fed.update batch = .ok next) : next.rows = fed.rows + batch.rows := by
  have hschema : batch.schema = fed.schema := by
    by_contra hne
    rw [V2FingerprintState.update, if_neg hne] at h
    cases h
  rw [V2FingerprintState.update, if_pos hschema] at h
  obtain ⟨_, -, h⟩ := bind_eq_ok.mp h
  obtain ⟨_, -, h⟩ := bind_eq_ok.mp h
  rw [← Except.ok.inj h]

/-- A fingerprint counts the rows of the batches it was fed. -/
theorem rows_feed {items : List (Except String RecordBatch)} :
    ∀ {fed last : V2FingerprintState}, items.foldlM V2FingerprintState.feed fed = .ok last →
      ∃ batches : List RecordBatch, items = batches.map .ok ∧
        last.rows = fed.rows + totalRows batches := by
  induction items with
  | nil =>
      intro fed last h
      cases h
      exact ⟨[], rfl, rfl⟩
  | cons item items ih =>
      intro fed last h
      obtain ⟨next, hnext, h⟩ := bind_eq_ok.mp h
      obtain ⟨batches, rfl, hrows⟩ := ih h
      cases item with
      | error message => cases hnext
      | ok batch =>
          refine ⟨batch :: batches, rfl, ?_⟩
          rw [hrows, V2FingerprintState.rows_update hnext]
          simp only [totalRows, List.map_cons, List.sum_cons, Nat.add_assoc]

theorem rows_fingerprintV2 {reader : BatchReader} {selected : List String} {fingerprint : Fingerprint}
    (h : fingerprintV2 reader selected = .ok fingerprint) :
    ∃ batches : List RecordBatch, reader.items = batches.map .ok ∧
      fingerprint.rows = totalRows batches := by
  obtain ⟨last, hfed, rfl⟩ := map_eq_ok.mp h
  obtain ⟨fed, hnew, hfed⟩ := bind_eq_ok.mp hfed
  obtain ⟨batches, hitems, hrows⟩ := rows_feed hfed
  obtain ⟨_, -, hnew⟩ := bind_eq_ok.mp hnew
  obtain ⟨_, -, hnew⟩ := bind_eq_ok.mp hnew
  cases hnew
  exact ⟨batches, hitems, hrows.trans (Nat.zero_add _)⟩

/-- A traversal counts the rows of its batches. -/
theorem rows_observeBatches {plan : CompiledContract} {batches : List RecordBatch} :
    ∀ {scan last : ScanMeaning}, (batches.map Except.ok).foldlM (observeBatch plan) scan = .ok last →
      last.rows = scan.rows + totalRows batches := by
  induction batches with
  | nil =>
      intro scan last h
      cases h
      rfl
  | cons batch batches ih =>
      intro scan last h
      obtain ⟨next, hnext, h⟩ := bind_eq_ok.mp h
      have hrows : next.rows = scan.rows + batch.rows := by
        obtain ⟨_, ⟨⟩, hnext⟩ := bind_eq_ok.mp hnext
        obtain ⟨_, -, hnext⟩ := bind_eq_ok.mp hnext
        obtain ⟨_, -, hnext⟩ := bind_eq_ok.mp hnext
        obtain ⟨_, -, hnext⟩ := bind_eq_ok.mp hnext
        obtain ⟨_, -, hnext⟩ := bind_eq_ok.mp hnext
        obtain ⟨_, -, hnext⟩ := bind_eq_ok.mp hnext
        obtain ⟨_, -, hnext⟩ := bind_eq_ok.mp hnext
        cases hnext
        rfl
      rw [ih h, hrows]
      simp only [totalRows, List.map_cons, List.sum_cons, Nat.add_assoc]

/-- The fingerprints of partitions count the rows of the report on the sequence of them. -/
theorem sum_rows_fingerprints {readers : List BatchReader} {fingerprints : List Fingerprint}
    (h : readers.mapM (fingerprintV2 · []) = .ok fingerprints) :
    ∃ batches : List RecordBatch, readers.flatMap BatchReader.items = batches.map .ok ∧
      (fingerprints.map Fingerprint.rows).sum = totalRows batches := by
  have hall := mapM_eq_ok.mp h
  clear h
  induction hall with
  | nil => exact ⟨[], rfl, rfl⟩
  | @cons reader fingerprint readers fingerprints hhead _ ih =>
      obtain ⟨first, hitems, hrows⟩ := rows_fingerprintV2 hhead
      obtain ⟨rest, hrest, hsum⟩ := ih
      refine ⟨first ++ rest, ?_, ?_⟩
      · rw [List.flatMap_cons, hitems, hrest, List.map_append]
      · rw [List.map_cons, List.sum_cons, hrows, hsum]
        simp only [totalRows, List.map_append, List.sum_append]

end Rows

/-! ## The manifest -/

/-- The manifest describes each partition by itself, under one report. -/
structure PartitionManifestV1.Describes [Crates] (manifest : PartitionManifestV1)
    (readers : List BatchReader) (contractSourceDigest : String) (report : FastValidationReport) :
    Prop where
  indices_eq : manifest.partitions.map PartitionEvidenceV1.index =
    (List.range readers.length).map UInt64.ofNat
  fingerprints : List.Forall₂ (fun reader (partition : PartitionEvidenceV1) => ∃ fingerprint,
    fingerprintV2 reader [] = .ok fingerprint ∧ partition.rows = UInt64.ofNat fingerprint.rows ∧
    partition.fingerprintVersion = fingerprint.version ∧
    partition.fingerprintDigest = fingerprint.digest) readers manifest.partitions
  rows_eq : report.rows < 2 ^ 64 →
    (manifest.partitions.map fun partition => partition.rows.toNat).sum = report.rows
  identities : ∀ partition ∈ manifest.partitions,
    partition.identity = (report.schemaDigest, contractSourceDigest, report.compiledPlanDigest)
  /-- No reader ended in an error. -/
  batches : ∀ reader ∈ readers, ∀ item ∈ reader.items, ∃ batch, item = .ok batch
  valid : manifest.validate = .ok ()

section Manifest

variable [Crates]

/-- What the manifest says of the partitions whose fingerprints are finished. -/
theorem partitionManifest_eq_ok {report : FastValidationReport} {source : String}
    {options : ExecutionOptions} {fingerprints : List Fingerprint} {manifest : PartitionManifestV1}
    (h : partitionManifest report source options (fingerprints.map some) = .ok manifest) :
    manifest.validate = .ok () ∧
    List.Forall₂ (fun (entry : Fingerprint × ℕ) (partition : PartitionEvidenceV1) =>
      partition.index = UInt64.ofNat entry.2 ∧ partition.rows = UInt64.ofNat entry.1.rows ∧
      partition.fingerprintVersion = entry.1.version ∧
      partition.fingerprintDigest = entry.1.digest ∧
      partition.identity = (report.schemaDigest, source, report.compiledPlanDigest))
      fingerprints.zipIdx manifest.partitions := by
  obtain ⟨global, -, h⟩ := bind_eq_ok.mp h
  obtain ⟨partitions, hpartitions, h⟩ := bind_eq_ok.mp h
  obtain ⟨hvalid, rfl, -, -⟩ := PartitionManifestV1.new_eq_ok h
  refine ⟨hvalid, ?_⟩
  rw [List.zipIdx_map, List.mapM_map] at hpartitions
  apply (mapM_eq_ok.mp hpartitions).imp
  rintro ⟨fingerprint, index⟩ partition hpartition
  obtain ⟨_, hslot, hpartition⟩ := bind_eq_ok.mp hpartition
  cases hslot
  obtain ⟨result, -, hpartition⟩ := bind_eq_ok.mp hpartition
  cases hpartition
  exact ⟨rfl, rfl, rfl, rfl, rfl⟩

variable {ω : Type} [Host ω] {readers : List BatchReader} {plan : CompiledContract}
  {source : String} {options : ExecutionOptions} {references : ReferenceBindings}

/-- A check of partitions with evidence is the execution over the sequence of them, with one
fingerprint of each. -/
theorem checkPartitionReadersWithEvidence_eq_ok {world last : ω} {report : FastValidationReport}
    {manifest : PartitionManifestV1}
    (h : checkPartitionReadersWithEvidenceAndReferences readers plan source options references world =
      .ok ((report, manifest), last)) :
    (∀ reader ∈ readers, reader.schema = plan.schema) ∧
    executeReaderWithReferences (partitionSequence readers plan.schema) plan options references world =
      .ok (report, last) ∧
    ∃ fingerprints, readers.mapM (fingerprintV2 · []) = .ok fingerprints ∧
      partitionManifest report source options (fingerprints.map some) = .ok manifest := by
  obtain ⟨_, _, hfirst, h⟩ := bind_ok_iff.mp h
  obtain ⟨hnonempty, hended⟩ := failIf_eq_ok.mp hfirst
  cases hended
  obtain ⟨_, _, hsecond, h⟩ := bind_ok_iff.mp h
  obtain ⟨hdiffers, hended⟩ := failIf_eq_ok.mp hsecond
  cases hended
  obtain ⟨_, _, hthird, h⟩ := bind_ok_iff.mp h
  obtain ⟨_, -, hended⟩ := lift_eq_ok.mp hthird
  cases hended
  obtain ⟨sequence, _, hfourth, h⟩ := bind_ok_iff.mp h
  obtain ⟨_, hnew, hended⟩ := lift_eq_ok.mp hfourth
  cases hended
  obtain ⟨⟨_, last⟩, _, hrun, h⟩ := bind_ok_iff.mp h
  obtain ⟨_, _, hfifth, h⟩ := bind_ok_iff.mp h
  obtain ⟨_, hmanifest, hended⟩ := lift_eq_ok.mp hfifth
  cases hended
  cases h
  have hnonempty : readers ≠ [] := by
    rintro rfl
    exact hnonempty rfl
  have hschemas : ∀ reader ∈ readers, reader.schema = plan.schema := by
    intro reader hreader
    by_contra hne
    exact hdiffers (List.any_eq_true.mpr ⟨reader, hreader, decide_eq_true hne⟩)
  obtain ⟨reader, readers, rfl⟩ := List.exists_cons_of_ne_nil hnonempty
  obtain ⟨_, fingerprints, _, hreport, hfingerprints, hended⟩ := (executeSequence_eq_ok hnew).mp hrun
  cases hended
  refine ⟨hschemas, hreport, fingerprints, ?_, hmanifest⟩
  rw [← hfingerprints]
  apply mapM_congr
  intro other hother
  rw [← hschemas other hother]

/-- A verdict counts the rows of the dataset. -/
theorem rows_verdictOf {reader : BatchReader} {fingerprint : Bool} {maxMemoryBytes : ℕ}
    {verdict : Verdict} {batches : List RecordBatch} (hitems : reader.items = batches.map .ok)
    (h : verdictOf reader plan fingerprint references maxMemoryBytes = .ok verdict) :
    verdict.rows = totalRows batches := by
  obtain ⟨start, hstart, h⟩ := bind_eq_ok.mp h
  obtain ⟨scan, hscan, h⟩ := bind_eq_ok.mp h
  cases h
  obtain ⟨_, -, hstart⟩ := bind_eq_ok.mp hstart
  obtain ⟨_, -, hstart⟩ := bind_eq_ok.mp hstart
  obtain ⟨_, -, hstart⟩ := bind_eq_ok.mp hstart
  obtain ⟨_, -, hstart⟩ := bind_eq_ok.mp hstart
  cases hstart
  rw [hitems] at hscan
  exact (rows_observeBatches hscan).trans (Nat.zero_add _)

/-- The manifest describes the partitions under the report of the execution over them. -/
theorem describes_partitionManifest {report : FastValidationReport} {fingerprints : List Fingerprint}
    {manifest : PartitionManifestV1} {verdict : Verdict}
    (hfingerprints : readers.mapM (fingerprintV2 · []) = .ok fingerprints)
    (hmanifest : partitionManifest report source options (fingerprints.map some) = .ok manifest)
    (hverdict : verdictOf (partitionSequence readers plan.schema) plan false references
      options.resources.maxMemoryBytes = .ok verdict) (hrows : report.rows = verdict.rows) :
    manifest.Describes readers source report := by
  obtain ⟨hvalid, hpartitions⟩ := partitionManifest_eq_ok hmanifest
  have hreaders := mapM_eq_ok.mp hfingerprints
  obtain ⟨batches, hitems, hsum⟩ := sum_rows_fingerprints hfingerprints
  -- the partitions together have the rows of the sequence
  have htotal : (fingerprints.map Fingerprint.rows).sum = report.rows := by
    rw [hsum, hrows]
    exact (rows_verdictOf hitems hverdict).symm
  have heach : List.Forall₂ (fun (fingerprint : Fingerprint) (partition : PartitionEvidenceV1) =>
      partition.rows = UInt64.ofNat fingerprint.rows ∧
      partition.fingerprintVersion = fingerprint.version ∧
      partition.fingerprintDigest = fingerprint.digest) fingerprints manifest.partitions := by
    rw [← List.zipIdx_map_fst (l := fingerprints) (i := 0), List.forall₂_map_left_iff]
    apply hpartitions.imp
    rintro entry partition ⟨-, hrows, hversion, hdigest, -⟩
    exact ⟨hrows, hversion, hdigest⟩
  constructor
  case indices_eq =>
    rw [hreaders.length_eq, List.range_eq_range', ← List.zipIdx_map_snd 0 fingerprints, List.map_map]
    rw [← List.forall₂_eq_eq_eq, List.forall₂_map_left_iff, List.forall₂_map_right_iff]
    apply hpartitions.flip.imp
    rintro partition entry ⟨hindex, -⟩
    exact hindex
  case fingerprints =>
    apply (forall₂_comp hreaders heach).imp
    rintro reader partition ⟨fingerprint, hfingerprint, hpartition⟩
    exact ⟨fingerprint, hfingerprint, hpartition⟩
  case rows_eq =>
    intro hbound
    rw [← htotal] at hbound ⊢
    have hrows : List.Forall₂ (fun (fingerprint : Fingerprint) (partition : PartitionEvidenceV1) =>
        partition.rows.toNat = fingerprint.rows) fingerprints manifest.partitions := by
      apply ((List.forall₂_and_left _ _).mpr ⟨fun _ hmem => hmem, heach⟩).imp
      rintro fingerprint partition ⟨hmem, hrows, -⟩
      have hle : fingerprint.rows ≤ (fingerprints.map Fingerprint.rows).sum :=
        List.single_le_sum (fun _ _ => Nat.zero_le _) _ (List.mem_map_of_mem hmem)
      rw [hrows, UInt64.toNat_ofNat_of_lt' (hle.trans_lt hbound)]
    refine congrArg List.sum ?_
    rw [← List.forall₂_eq_eq_eq, List.forall₂_map_left_iff, List.forall₂_map_right_iff]
    exact hrows.flip
  case identities =>
    intro partition hpartition
    obtain ⟨_, -, -, -, -, -, hidentity⟩ := exists_of_forall₂ hpartitions.flip hpartition
    exact hidentity
  case batches =>
    intro reader hreader item hitem
    have hmem : item ∈ batches.map .ok := by
      rw [← hitems]
      exact List.mem_flatMap.mpr ⟨reader, hreader, hitem⟩
    obtain ⟨batch, -, hbatch⟩ := List.mem_map.mp hmem
    exact ⟨batch, hbatch.symm⟩
  case valid => exact hvalid

/-- **The evidence of partitions is evidence of the dataset.**  A check that hands out evidence
hands out the report of the execution over the sequence of the partitions, which every validation
of the partitions that ends in a report agrees with, and a manifest that describes each partition
by itself. -/
theorem checkPartitionReadersWithEvidence_describes {world last : ω} {report : FastValidationReport}
    {manifest : PartitionManifestV1}
    (h : checkPartitionReadersWithEvidence readers plan source options world =
      .ok ((report, manifest), last)) :
    manifest.Describes readers source report ∧
    executeReader (partitionSequence readers plan.schema) plan options world = .ok (report, last) ∧
    ∀ report', CheckPartitionReaders readers plan options (.ok report') → report'.Matches report := by
  obtain ⟨hschema, hrun, fingerprints, hfingerprints, hmanifest⟩ :=
    checkPartitionReadersWithEvidence_eq_ok h
  obtain ⟨meaning, hmeaning, hrenders⟩ := (refines_executeReaderWithReferences (ω := ω)
    (partitionSequence readers plan.schema) plan options []).of_ok hrun
  obtain ⟨hverdict, -, -⟩ := executionMeaning_eq_ok hmeaning
  refine ⟨describes_partitionManifest hfingerprints hmanifest hverdict hrenders.rows_eq, hrun, ?_⟩
  intro report' hreport'
  obtain ⟨meaning', hmeaning', hrenders'⟩ := (hreport'.refines hschema).1 report' rfl
  obtain rfl := Except.ok.inj (hmeaning.symm.trans hmeaning')
  exact hrenders'.matches hrenders

end Manifest

/-- The ids 7 and null, and then a partition without batches. -/
theorem checkPartitionReadersWithEvidence_describes_nulls :
    letI := Crates.zeroDigests
    ∃ report manifest world,
      checkPartitionReadersWithEvidence [idReader [some 7, none], ⟨presentIdsPlan.schema, []⟩]
        presentIdsPlan (taggedDigest "pf-contract-v2:" zeroDigest) smallOptions Granting.granting =
          .ok ((report, manifest), world) ∧
      manifest.Describes [idReader [some 7, none], ⟨presentIdsPlan.schema, []⟩]
        (taggedDigest "pf-contract-v2:" zeroDigest) report ∧
      manifest.partitions.map PartitionEvidenceV1.rows = [2, 0] ∧ report.violationCount = 1 := by
  let := Crates.zeroDigests
  have hseen : (checkPartitionReadersWithEvidence [idReader [some 7, none], ⟨presentIdsPlan.schema, []⟩]
      presentIdsPlan (taggedDigest "pf-contract-v2:" zeroDigest) smallOptions Granting.granting).map
        (fun ended => (ended.1.2.partitions.map PartitionEvidenceV1.rows, ended.1.1.violationCount)) =
      .ok ([2, 0], 1) := by decide +kernel
  obtain ⟨⟨⟨report, manifest⟩, world⟩, hrun, hended⟩ := map_eq_ok.mp hseen
  obtain ⟨hrows, hcount⟩ := Prod.mk.inj hended
  exact ⟨report, manifest, world, hrun, (checkPartitionReadersWithEvidence_describes hrun).1, hrows,
    hcount⟩

end ProofFrame
