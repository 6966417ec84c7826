import ProofFrame.Distinct.Intersection
import ProofFrame.Execution.References
import ProofFrame.Lib.Steps

/-!
# Train/test leakage

Every row of the two datasets becomes a digest, each side collects its digests
in an exact state that may spill, and the two states are intersected.
-/

namespace ProofFrame

open Lib Lib.Run Lib.Ieee754 Distinct

/-! ## The report -/

structure LeakageOptions where
  resources : ResourceLimits
  maxSamples : ℕ
  deriving DecidableEq

structure LeakageReport where
  detected : Bool
  mode : String
  keys : List String
  trainRows : ℕ
  testRows : ℕ
  overlapCount : ℕ
  trainOverlapRate : F64
  testOverlapRate : F64
  sampleFingerprints : List String
  truncated : Bool
  deriving DecidableEq

def ratio (numerator denominator : ℕ) : F64 :=
  if denominator = 0 then Ieee.zero false
  else Ieee.div (Ieee.ofInt numerator) (Ieee.ofInt denominator)

/-! ## The columns -/

def resolveKeys (schema : Schema) (keys : List String) : Except Fault (List ℕ) :=
  keys.mapM fun key => required (schema.indexOf key) (.error (.missingColumn key))

/-- The columns of a key in the two schemas carry one name, one type and one nullability. -/
def compatibleKey (train test : Schema) : ℕ × ℕ × ℕ → Except Fault Unit
  | (ordinal, trainIndex, testIndex) => do
      let trainField ← required train.fields[trainIndex]? outOfBounds
      let testField ← required test.fields[testIndex]? outOfBounds
      rejectIf (trainField.name ≠ testField.name ∨ trainField.dataType ≠ testField.dataType ∨
          trainField.nullable ≠ testField.nullable)
        (.error (.schemaMismatch s!"logical leakage key {ordinal} has incompatible Arrow fields"))

def identityIndexes (train test : Schema) (keys : List String) : Except Fault (List ℕ × List ℕ) :=
  if keys.isEmpty then do
    rejectIf (train ≠ test)
      (.error (.schemaMismatch "full-row leakage detection requires identical Arrow schemas"))
    .ok (List.range train.fields.length, List.range train.fields.length)
  else do
    let trainIndexes ← resolveKeys train keys
    let testIndexes ← resolveKeys test keys
    ((trainIndexes.zip testIndexes).zipIdx.map fun (pair, ordinal) => (ordinal, pair)).forM
      (compatibleKey train test)
    .ok (trainIndexes, testIndexes)

/-! ## The digest of a row -/

section Identity

variable [Crates]

/-- `update_field_identity`. -/
def fieldIdentity (ordinal : ℕ) (field : Field) : List UInt8 :=
  Bytes.toLe 8 ordinal ++ lengthPrefixed (utf8Bytes field.name) ++
    lengthPrefixed (utf8Bytes (Crates.displayType field.dataType)) ++ [if field.nullable then 1 else 0]

/-- What the hasher of a row is fed for the given columns and their ordinals. -/
def columnIdentities (schema : Schema) (batch : RecordBatch) (row : ℕ) :
    List (ℕ × ℕ) → Except Fault (List UInt8)
  | [] => .ok []
  | (index, ordinal) :: rest => do
      let field ← required schema.fields[index]? outOfBounds
      let array ← batch.column index
      let cell ← array.cell row
      let value ← canonicalValueBytes array.dataType cell
      let tail ← columnIdentities schema batch row rest
      .ok (fieldIdentity ordinal field ++ lengthPrefixed value ++ tail)

def identityDomain (fullRow : Bool) : List UInt8 :=
  domainSeparator (if fullRow then "proofframe:leakage:full-row:v2" else "proofframe:leakage:key:v2")

/-- The digest of a row. -/
def rowIdentity (schema : Schema) (indexes : List ℕ) (fullRow : Bool) (batch : RecordBatch)
    (row : ℕ) : Except Fault Digest := do
  let columns ← columnIdentities schema batch row indexes.zipIdx
  .ok (Crates.blake3 (identityDomain fullRow ++ columns))

end Identity

/-! ## Collecting and comparing -/

def leakageSchemaChanged : Fault :=
  .error (.schemaMismatch "record batch schema changed during leakage scanning")

section Detection

variable {ω : Type} [Host ω] [Crates]

/-- Insert the digests of a batch; the second component is the number of the row. -/
def collectBatch (schema : Schema) (indexes : List ℕ) (fullRow : Bool) (collected : ExactState × ℕ)
    (item : Except String RecordBatch) : Run ω Fault (ExactState × ℕ) := do
  checkCancelled
  let batch ← lift (arrowItem item)
  failIf (batch.schema ≠ schema) leakageSchemaChanged
  (List.range batch.rows).foldlM (fun (state, rows) row => do
    let digest ← lift (rowIdentity schema indexes fullRow batch row)
    let state ← state.insert (digestValue digest) (UInt64.ofNat rows)
    let rows ← checkedAdd "Leakage row count overflowed usize" rows 1
    pure (state, rows)) collected

def collectIdentities (reader : BatchReader) (indexes : List ℕ) (fullRow : Bool)
    (state : ExactState) : Run ω Fault (ExactState × ℕ) :=
  reader.items.foldlM (collectBatch reader.schema indexes fullRow) (state, 0)

/-- The report of a measured intersection. -/
def leakageReport (keys : List String) (trainRows testRows : ℕ) (summary : IntersectionSummary) :
    LeakageReport :=
  { detected := summary.overlap ≠ 0
    mode := if keys.isEmpty then "full_row" else "key"
    keys, trainRows, testRows
    overlapCount := summary.overlap
    trainOverlapRate := ratio summary.overlap summary.leftDistinct
    testOverlapRate := ratio summary.overlap summary.rightDistinct
    sampleFingerprints := summary.samples.map Digest.toHex
    truncated := summary.overlap > summary.samples.length }

/-- `detect_leakage_with_options`. -/
def detectLeakageWithOptions (train test : BatchReader) (keys : List String)
    (options : LeakageOptions) : Run ω Fault LeakageReport := do
  let (trainIndexes, testIndexes) ← lift (identityIndexes train.schema test.schema keys)
  ioOperation .createDirectory
  let root := ResourceAccount.root options.resources
  let account := root.child options.resources.maxMemoryBytes options.resources.maxTempBytes
  let trainState ← ExactState.new .bytes account (some temporaryDirectory) none
  let testState ← ExactState.new .bytes account (some temporaryDirectory) none
  let (trainState, trainRows) ← collectIdentities train trainIndexes keys.isEmpty trainState
  let (testState, testRows) ← collectIdentities test testIndexes keys.isEmpty testState
  let sampleLimit := min options.maxSamples options.resources.maxSamples
  let summary ← intersectExactStates trainState testState sampleLimit
  failIf (2 ^ 64 ≤ summary.overlap) (corrupt "Leakage overlap exceeds usize")
  pure (leakageReport keys trainRows testRows summary)

end Detection

/-! ## What is measured -/

section Meaning

variable [Crates]

/-- The digests of a reader's rows, in order. -/
def batchIdentities (schema : Schema) (indexes : List ℕ) (fullRow : Bool) (digests : List Digest)
    (item : Except String RecordBatch) : Except Fault (List Digest) := do
  let batch ← arrowItem item
  rejectIf (batch.schema ≠ schema) leakageSchemaChanged
  (List.range batch.rows).foldlM (fun digests row => do
    let digest ← rowIdentity schema indexes fullRow batch row
    .ok (digests ++ [digest])) digests

def identities (reader : BatchReader) (indexes : List ℕ) (fullRow : Bool) :
    Except Fault (List Digest) :=
  reader.items.foldlM (batchIdentities reader.schema indexes fullRow) []

/-- The digests of the two datasets under a selection of columns. -/
def leakageIdentities (train test : BatchReader) (keys : List String) :
    Except Fault (List Digest × List Digest) := do
  let (trainIndexes, testIndexes) ← identityIndexes train.schema test.schema keys
  let trainDigests ← identities train trainIndexes keys.isEmpty
  let testDigests ← identities test testIndexes keys.isEmpty
  .ok (trainDigests, testDigests)

/-- The report says what the intersection of the two sets of digests is. -/
structure LeakageReport.Measures (maxSamples : ℕ) (train test : List Digest)
    (report : LeakageReport) : Prop where
  trainRows_eq : report.trainRows = train.length
  testRows_eq : report.testRows = test.length
  overlap_eq : report.overlapCount = (train.toFinset ∩ test.toFinset).card
  detected_iff : report.detected = true ↔ report.overlapCount ≠ 0
  trainRate_eq : report.trainOverlapRate =
    ratio (train.toFinset ∩ test.toFinset).card train.toFinset.card
  testRate_eq : report.testOverlapRate =
    ratio (train.toFinset ∩ test.toFinset).card test.toFinset.card
  /-- The samples are the smallest digests of both sets, in the order of their bytes. -/
  samples_eq : ∃ samples : List Digest, report.sampleFingerprints = samples.map Digest.toHex ∧
    samples.map digestValue =
      (((train.toFinset ∩ test.toFinset).image digestValue).sort (· ≤ ·)).take maxSamples
  truncated_iff : report.truncated = true ↔ maxSamples < report.overlapCount

omit [Crates] in
theorem measures_leakageReport {maxSamples : ℕ} {keys : List String} {train test : List Digest}
    {summary : IntersectionSummary} (h : summary.Measures maxSamples train.toFinset test.toFinset) :
    (leakageReport keys train.length test.length summary).Measures maxSamples train test := by
  have hlength : summary.samples.length = min maxSamples summary.overlap := by
    rw [← List.length_map (f := digestValue), h.samples_eq, List.length_take, Finset.length_sort,
      Finset.card_image_of_injective _ digestValue_injective, h.overlap_eq]
  refine ⟨rfl, rfl, h.overlap_eq, ?_, ?_, ?_, ⟨_, rfl, h.samples_eq⟩, ?_⟩
  · simp [leakageReport]
  · rw [← h.overlap_eq, ← h.left_eq]
    rfl
  · rw [← h.overlap_eq, ← h.right_eq]
    rfl
  · simp only [leakageReport, hlength, decide_eq_true_eq]
    omega

end Meaning

/-! ## The run measures -/

section Refinement

variable {ω : Type} [Host ω] [Crates]

/-- The state holds the digests of the rows so far. -/
def Collects (digests : List Digest) (collected : ExactState × ℕ) : Prop :=
  (∃ records, collected.1.Holds records ∧ HoldDigests records digests) ∧
    collected.2 = digests.length

theorem refines_collectBatch {schema : Schema} {indexes : List ℕ} {fullRow : Bool}
    {digests : List Digest} {collected : ExactState × ℕ} (h : Collects digests collected)
    (item : Except String RecordBatch) :
    Refines ExactFault (collectBatch schema indexes fullRow collected item : Run ω Fault _)
      (batchIdentities schema indexes fullRow digests item) Collects := by
  unfold collectBatch batchIdentities
  refine Refines.after sat_checkCancelled_exact fun _ _ => ?_
  refine (refines_lift (S := Eq) fun _ _ => rfl).bind fun batch _ _ hbatch => ?_
  subst hbatch
  refine refines_failIf.bind fun _ _ _ _ => ?_
  refine refines_foldlM (fun row _ digests collected hcollected => ?_) h
  obtain ⟨state, rows⟩ := collected
  obtain ⟨⟨records, hholds, hdigests⟩, hrows⟩ := hcollected
  dsimp only
  refine (refines_lift (S := Eq) fun _ _ => rfl).bind fun digest _ _ hdigest => ?_
  subst hdigest
  refine Refines.after (ExactState.sat_insert hholds _ _) fun next hnext => ?_
  refine Refines.after (sat_checkedAdd (exactFault_corrupt _)) fun total htotal => ?_
  refine refines_pure ⟨⟨_, hnext.1, ?_⟩, ?_⟩
  · rw [HoldDigests, List.map_append, hdigests, List.map_append]
    rfl
  · rw [List.length_append, List.length_singleton, htotal.1]
    exact congrArg (· + 1) hrows

theorem refines_collectIdentities {reader : BatchReader} {indexes : List ℕ} {fullRow : Bool}
    {state : ExactState} (h : state.Holds []) :
    Refines ExactFault (collectIdentities reader indexes fullRow state : Run ω Fault _)
      (identities reader indexes fullRow) Collects :=
  refines_foldlM (fun item _ _ _ hcollected => refines_collectBatch hcollected item)
    ⟨⟨[], h, rfl⟩, rfl⟩

/-- Leakage detection measures the digests of the two datasets. -/
theorem refines_detectLeakageWithOptions (train test : BatchReader) (keys : List String)
    (options : LeakageOptions) :
    Refines ExactFault (detectLeakageWithOptions train test keys options : Run ω Fault _)
      (leakageIdentities train test keys)
      (fun digests report => report.Measures (min options.maxSamples options.resources.maxSamples)
        digests.1 digests.2) := by
  unfold detectLeakageWithOptions leakageIdentities
  refine (refines_lift (S := Eq) fun _ _ => rfl).bind fun indexes _ _ hindexes => ?_
  subst hindexes
  obtain ⟨trainIndexes, testIndexes⟩ := indexes
  dsimp only
  refine Refines.after (sat_io_exact _) fun _ _ => ?_
  refine Refines.after (ExactState.sat_new _ _ _ _) fun trainState htrain => ?_
  refine Refines.after (ExactState.sat_new _ _ _ _) fun testState htest => ?_
  refine (refines_collectIdentities htrain.1).bind fun trainDigests trained _ htrained => ?_
  obtain ⟨trainState, trainRows⟩ := trained
  obtain ⟨⟨trainRecords, htrainHolds, htrainDigests⟩, rfl⟩ := htrained
  refine (refines_collectIdentities htest.1).bind fun testDigests tested _ htested => ?_
  obtain ⟨testState, testRows⟩ := tested
  obtain ⟨⟨testRecords, htestHolds, htestDigests⟩, rfl⟩ := htested
  refine Refines.after (sat_intersectExactStates _ htrainHolds htestHolds htrainDigests
    htestDigests) fun summary hsummary => ?_
  refine Refines.after (sat_failIf fun _ => exactFault_corrupt _) fun _ _ => ?_
  exact refines_pure (measures_leakageReport hsummary)

end Refinement

/-! ## Both ways round -/

theorem compatibleKey_swap {train test : Schema} {ordinal trainIndex testIndex : ℕ}
    (h : compatibleKey train test (ordinal, trainIndex, testIndex) = .ok ()) :
    compatibleKey test train (ordinal, testIndex, trainIndex) = .ok () := by
  obtain ⟨trainField, htrain, h⟩ := bind_eq_ok.mp h
  obtain ⟨testField, htest, h⟩ := bind_eq_ok.mp h
  refine bind_eq_ok.mpr ⟨testField, htest, bind_eq_ok.mpr ⟨trainField, htrain, ?_⟩⟩
  rw [rejectIf_eq_ok] at h ⊢
  simpa [eq_comm] using h

theorem compatibleKeys_swap {train test : Schema} : ∀ (trainIndexes testIndexes : List ℕ) (start : ℕ),
    (((trainIndexes.zip testIndexes).zipIdx start).map fun (pair, ordinal) => (ordinal, pair)).forM
      (compatibleKey train test) = .ok () →
    (((testIndexes.zip trainIndexes).zipIdx start).map fun (pair, ordinal) => (ordinal, pair)).forM
      (compatibleKey test train) = .ok ()
  | [], [], _ => id
  | [], _ :: _, _ => id
  | _ :: _, [], _ => id
  | trainIndex :: trainIndexes, testIndex :: testIndexes, start => fun h => by
      obtain ⟨_, hfirst, hrest⟩ := bind_eq_ok.mp h
      exact bind_eq_ok.mpr ⟨_, compatibleKey_swap hfirst,
        compatibleKeys_swap trainIndexes testIndexes (start + 1) hrest⟩

theorem identityIndexes_swap {train test : Schema} {keys : List String}
    {trainIndexes testIndexes : List ℕ}
    (h : identityIndexes train test keys = .ok (trainIndexes, testIndexes)) :
    identityIndexes test train keys = .ok (testIndexes, trainIndexes) := by
  unfold identityIndexes at h ⊢
  split at h
  · rename_i hempty
    obtain ⟨_, hsame, h⟩ := bind_eq_ok.mp h
    have hschema : train = test := not_not.mp (rejectIf_eq_ok.mp hsame)
    cases h
    rw [if_pos hempty]
    subst hschema
    exact bind_eq_ok.mpr ⟨(), hsame, rfl⟩
  · rename_i hkeys
    obtain ⟨trainResolved, htrain, h⟩ := bind_eq_ok.mp h
    obtain ⟨testResolved, htest, h⟩ := bind_eq_ok.mp h
    obtain ⟨_, hcompatible, h⟩ := bind_eq_ok.mp h
    cases h
    rw [if_neg hkeys]
    exact bind_eq_ok.mpr ⟨_, htest, bind_eq_ok.mpr ⟨_, htrain, bind_eq_ok.mpr
      ⟨_, compatibleKeys_swap _ _ 0 hcompatible, rfl⟩⟩⟩

section Symmetry

variable [Crates]

theorem leakageIdentities_swap {train test : BatchReader} {keys : List String}
    {trainDigests testDigests : List Digest}
    (h : leakageIdentities train test keys = .ok (trainDigests, testDigests)) :
    leakageIdentities test train keys = .ok (testDigests, trainDigests) := by
  obtain ⟨⟨trainIndexes, testIndexes⟩, hindexes, h⟩ := bind_eq_ok.mp h
  obtain ⟨trained, htrain, h⟩ := bind_eq_ok.mp h
  obtain ⟨tested, htest, h⟩ := bind_eq_ok.mp h
  cases h
  exact bind_eq_ok.mpr ⟨_, identityIndexes_swap hindexes, bind_eq_ok.mpr ⟨_, htest, bind_eq_ok.mpr
    ⟨_, htrain, rfl⟩⟩⟩

/-- What changes when train and test change places. -/
structure LeakageReport.Swapped (report report' : LeakageReport) : Prop where
  overlap_eq : report'.overlapCount = report.overlapCount
  samples_eq : report'.sampleFingerprints = report.sampleFingerprints
  trainRate_eq : report'.trainOverlapRate = report.testOverlapRate
  testRate_eq : report'.testOverlapRate = report.trainOverlapRate

omit [Crates] in
theorem LeakageReport.Measures.swapped {maxSamples : ℕ} {train test : List Digest}
    {report report' : LeakageReport} (h : report.Measures maxSamples train test)
    (h' : report'.Measures maxSamples test train) : report.Swapped report' := by
  obtain ⟨samples, hsamples, hsmallest⟩ := h.samples_eq
  obtain ⟨samples', hsamples', hsmallest'⟩ := h'.samples_eq
  refine ⟨?_, ?_, ?_, ?_⟩
  · rw [h.overlap_eq, h'.overlap_eq, Finset.inter_comm]
  · have hvalues : samples'.map digestValue = samples.map digestValue := by
      rw [hsmallest, hsmallest', Finset.inter_comm]
    rw [hsamples, hsamples', List.map_injective_iff.mpr digestValue_injective hvalues]
  · rw [h'.trainRate_eq, h.testRate_eq, Finset.inter_comm]
  · rw [h'.testRate_eq, h.trainRate_eq, Finset.inter_comm]

/-- **Leakage is measured exactly and symmetrically.**  A run that ends in a report, however often
it spilled, has measured the sets of row digests of the two datasets.  The run with the datasets
exchanged can only be stopped by its surroundings, and its report differs in the rates alone, which
are exchanged. -/
theorem detectLeakageWithOptions_exact {ω : Type} [Host ω] {train test : BatchReader}
    {keys : List String} {options : LeakageOptions} {world last : ω} {report : LeakageReport}
    (h : detectLeakageWithOptions train test keys options world = .ok (report, last)) :
    ∃ trainDigests testDigests,
      leakageIdentities train test keys = .ok (trainDigests, testDigests) ∧
      report.Measures (min options.maxSamples options.resources.maxSamples)
        trainDigests testDigests ∧
      ∀ (ω' : Type) [Host ω'] (world' : ω'),
        match detectLeakageWithOptions test train keys options world' with
        | .ok (report', _) => report.Swapped report'
        | .error fault => ExactFault fault := by
  obtain ⟨⟨trainDigests, testDigests⟩, hdigests, hmeasures⟩ :=
    (refines_detectLeakageWithOptions train test keys options).of_ok h
  refine ⟨trainDigests, testDigests, hdigests, hmeasures, fun ω' _ world' => ?_⟩
  have hswap := leakageIdentities_swap hdigests
  have hrefines := refines_detectLeakageWithOptions (ω := ω') test train keys options
  cases hrun : detectLeakageWithOptions test train keys options world' with
  | ok ended =>
      obtain ⟨digests, hdigests', hmeasures'⟩ := hrefines.of_ok hrun
      obtain rfl := Except.ok.inj (hswap.symm.trans hdigests')
      exact hmeasures.swapped hmeasures'
  | error fault =>
      rcases hrefines.of_error hrun with hfault | herror
      · exact hfault
      · rw [hswap] at herror
        cases herror

omit [Crates] in
/-- A dataset of ids in two batches. -/
def splitIds (first second : List (Option Int64)) : BatchReader :=
  { schema := ⟨[(ArrowArray.ofInt64 "id" []).field], []⟩
    items := [.ok (.ofColumn (.ofInt64 "id" first)), .ok (.ofColumn (.ofInt64 "id" second))] }

omit [Crates] in
/-- The id 7 and a null are on both sides, repeated on one of them; one sample is shown. -/
theorem detectLeakageWithOptions_exact_ids :
    letI := Crates.lastBytes
    ∃ report last trainDigests testDigests,
      detectLeakageWithOptions (splitIds [some 7, none] [some 7, some 8])
        (splitIds [some 9] [none, some 7, none]) ["id"] ⟨⟨1000000, 1000000, 100, 100⟩, 1⟩
        Granting.granting = .ok (report, last) ∧
      report.overlapCount = 2 ∧ report.truncated = true ∧
      report.Measures 1 trainDigests testDigests := by
  let := Crates.lastBytes
  obtain ⟨report, last, hrun⟩ := exists_ended (m := detectLeakageWithOptions
    (splitIds [some 7, none] [some 7, some 8]) (splitIds [some 9] [none, some 7, none]) ["id"]
    ⟨⟨1000000, 1000000, 100, 100⟩, 1⟩) (w := Granting.granting) (by decide +kernel)
  have hseen : (detectLeakageWithOptions (splitIds [some 7, none] [some 7, some 8])
      (splitIds [some 9] [none, some 7, none]) ["id"] ⟨⟨1000000, 1000000, 100, 100⟩, 1⟩
      Granting.granting).map (fun ended => (ended.1.overlapCount, ended.1.truncated)) =
        .ok (2, true) := by
    decide +kernel
  rw [hrun] at hseen
  obtain ⟨hoverlap, htruncated⟩ := Prod.mk.inj (Except.ok.inj hseen)
  obtain ⟨trainDigests, testDigests, -, hmeasures, -⟩ := detectLeakageWithOptions_exact hrun
  exact ⟨report, last, trainDigests, testDigests, hrun, hoverlap, htruncated, hmeasures⟩

end Symmetry

end ProofFrame
