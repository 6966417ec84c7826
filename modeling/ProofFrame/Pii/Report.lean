import ProofFrame.Pii.Classification
import ProofFrame.Pii.Scan
import ProofFrame.Table

/-!
# What a scan reports

The detections of a dataset are those of its cells, from row to row and from left to
right.  A scan counts all of them, for each kind and together, and keeps the first;
how the rows are split into batches does not show.
-/

namespace ProofFrame

open Lib Lib.Run

section Meaning

variable [PiiCrates]

/-- What the detector finds in a cell. -/
def detectCell (detector : Detector) (key : KeyBytes) (row : ℕ) (entry : Field × Option Value) :
    Except Fault (List PiiFinding) :=
  match entry.2 with
  | none => .ok []
  | some value => do
      let text ← scannedText entry.1.dataType value
      let found ← detector.classifyCell text entry.1.dataType.isNumericArray
      .ok (found.toList.map fun found =>
        { kind := found.kind
          confidence := found.confidence
          column := entry.1.name
          row
          valueFingerprint := privacyFingerprint key text })

/-- What the detector finds in a row. -/
def detectRow (detector : Detector) (key : KeyBytes) (fields : List Field) (entry : Row × ℕ) :
    Except Fault (List PiiFinding) :=
  List.flatten <$> (fields.zip entry.1).mapM (detectCell detector key entry.2)

/-- What the detector finds in the rows, which are numbered from the offset on. -/
def detectRows (detector : Detector) (key : KeyBytes) (fields : List Field) (rows : List Row)
    (offset : ℕ) : Except Fault (List PiiFinding) :=
  List.flatten <$> (rows.zipIdx offset).mapM (detectRow detector key fields)

/-- The scan that has found these in so many rows. -/
def PiiScan.of (maxFindings scannedRows : ℕ) (found : List PiiFinding) : PiiScan :=
  { findings := found.take maxFindings
    counts := SortedMap.tally (fun finding => finding.kind.label) found
    scannedRows
    totalFindings := found.length }

variable {schema : Schema} {detector : Detector} {maxFindings : ℕ} {key : KeyBytes}

theorem PiiScan.record_of {scannedRows row column : ℕ} {seen : List PiiFinding} {found : Match}
    {text : String} {field : Field} (hfield : schema.fields[column]? = some field) :
    (PiiScan.of maxFindings scannedRows seen).record schema maxFindings key found text row column =
      .ok (.of maxFindings scannedRows (seen ++ [{
        kind := found.kind
        confidence := found.confidence
        column := field.name
        row := scannedRows + row
        valueFingerprint := privacyFingerprint key text }])) := by
  unfold PiiScan.record PiiScan.of
  rw [SortedMap.tally_append_singleton, List.length_append, List.length_singleton, hfield]
  dsimp only
  have hlength : (seen.take maxFindings).length = min maxFindings seen.length := List.length_take
  rw [hlength]
  by_cases hroom : seen.length < maxFindings
  · rw [if_pos (by omega), List.take_of_length_le hroom.le, List.take_of_length_le (by simpa)]
    rfl
  · rw [if_neg (by omega), List.take_append_of_le_length (by omega)]

theorem scanPiiCell_of {batch : RecordBatch} (hschema : batch.schema = schema) {row : ℕ}
    (hrow : row < batch.rows) {scannedRows : ℕ} {entry : ArrowArray × ℕ}
    (hentry : entry ∈ batch.columns.zipIdx) (seen : List PiiFinding) :
    scanPiiCell schema detector maxFindings key row (.of maxFindings scannedRows seen) entry =
      (fun found => PiiScan.of maxFindings scannedRows (seen ++ found)) <$>
        detectCell detector key (scannedRows + row)
          (entry.1.field, (entry.1.cells[row]?).join) := by
  obtain ⟨array, column⟩ := entry
  have hcolumn : batch.columns[column]? = some array := List.mk_mem_zipIdx_iff_getElem?.mp hentry
  have hfield : schema.fields[column]? = some array.field := by
    rw [← hschema, ← batch.fields_eq, List.getElem?_map, hcolumn]
    rfl
  have hcell : array.cell row = .ok (array.cells[row]?).join := by
    rw [ArrowArray.cell, batch.cells_getElem hrow (List.mem_of_getElem? hcolumn)]
    rfl
  unfold scanPiiCell detectCell
  dsimp only
  rw [hcell, ok_bind]
  cases (array.cells[row]?).join with
  | none =>
      show Except.ok _ = Except.ok (PiiScan.of maxFindings scannedRows (seen ++ []))
      rw [List.append_nil]
  | some value =>
      dsimp only
      rw [ArrowArray.dataType]
      cases scannedText array.field.dataType value with
      | error fault => rfl
      | ok text =>
          rw [ok_bind, ok_bind]
          cases detector.classifyCell text array.field.dataType.isNumericArray with
          | error fault => rfl
          | ok found =>
              rw [ok_bind, ok_bind]
              cases found with
              | none =>
                  show Except.ok _ = Except.ok (PiiScan.of maxFindings scannedRows (seen ++ []))
                  rw [List.append_nil]
              | some found => exact PiiScan.record_of hfield

theorem scanPiiRow_of {batch : RecordBatch} (hschema : batch.schema = schema) {row : ℕ}
    (hrow : row < batch.rows) {scannedRows : ℕ} (seen : List PiiFinding) :
    batch.columns.zipIdx.foldlM (scanPiiCell schema detector maxFindings key row)
        (.of maxFindings scannedRows seen) =
      (fun found => PiiScan.of maxFindings scannedRows (seen ++ found)) <$>
        detectRow detector key schema.fields (batch.row row, scannedRows + row) := by
  rw [foldlM_eq_map_mapM fun entry hentry => scanPiiCell_of hschema hrow hentry]
  have hview := List.mapM_map (m := Except Fault) (f := Prod.fst) (l := batch.columns.zipIdx)
    (g := fun array : ArrowArray =>
      detectCell detector key (scannedRows + row) (array.field, (array.cells[row]?).join))
  rw [List.zipIdx_map_fst] at hview
  rw [← hschema, detectRow, ← RecordBatch.view_eq, RecordBatch.view, List.mapM_map]
  dsimp only [Function.comp_def] at hview ⊢
  rw [hview, Functor.map_map]

theorem detectRows_append (fields : List Field) (rows more : List Row) (offset : ℕ) :
    detectRows detector key fields (rows ++ more) offset = (do
      let found ← detectRows detector key fields rows offset
      let rest ← detectRows detector key fields more (offset + rows.length)
      .ok (found ++ rest)) := by
  unfold detectRows
  rw [List.zipIdx_append, List.mapM_append]
  cases (rows.zipIdx offset).mapM (detectRow detector key fields) with
  | error fault => rfl
  | ok found =>
      cases (more.zipIdx (offset + rows.length)).mapM (detectRow detector key fields) with
      | error fault => rfl
      | ok rest => exact congrArg Except.ok List.flatten_append

theorem scanPiiBatch_of {batch : RecordBatch} (hschema : batch.schema = schema) {scannedRows : ℕ}
    (seen : List PiiFinding) :
    scanPiiBatch schema detector maxFindings key (.of maxFindings scannedRows seen) (.ok batch) =
      (fun found => PiiScan.of maxFindings (scannedRows + batch.rows) (seen ++ found)) <$>
        detectRows detector key schema.fields batch.tuples scannedRows := by
  have hread : (arrowItem (.ok batch) : Except Fault RecordBatch) = .ok batch := rfl
  have hsame : (rejectIf (batch.schema ≠ schema) piiSchemaChanged : Except Fault Unit) = .ok () :=
    if_neg (not_not.mpr hschema)
  unfold scanPiiBatch
  rw [hread, ok_bind, hsame, ok_bind, foldlM_eq_map_mapM fun row hrow =>
    scanPiiRow_of hschema (List.mem_range.mp hrow)]
  have hnumbered : batch.tuples.zipIdx scannedRows =
      (List.range batch.rows).map fun row => (batch.row row, scannedRows + row) := by
    apply List.ext_getElem
    · simp [RecordBatch.tuples]
    · intro row _ _
      simp [RecordBatch.tuples]
  rw [detectRows, hnumbered, List.mapM_map]
  dsimp only [Function.comp_def]
  cases (List.range batch.rows).mapM fun row =>
    detectRow detector key schema.fields (batch.row row, scannedRows + row) <;> rfl

/-- The rows of the batches, one after the other. -/
theorem scanPiiBatches_of {batches : List RecordBatch}
    (hschema : ∀ batch ∈ batches, batch.schema = schema) :
    ∀ {scannedRows : ℕ} {seen : List PiiFinding},
      (batches.map Except.ok).foldlM (scanPiiBatch schema detector maxFindings key)
          (.of maxFindings scannedRows seen) =
        (fun found => PiiScan.of maxFindings
          (scannedRows + (batches.flatMap RecordBatch.tuples).length) (seen ++ found)) <$>
          detectRows detector key schema.fields (batches.flatMap RecordBatch.tuples) scannedRows := by
  induction batches with
  | nil =>
      intro scannedRows seen
      show Except.ok _ = Except.ok (PiiScan.of maxFindings (scannedRows + 0) (seen ++ []))
      rw [List.append_nil, Nat.add_zero]
  | cons batch batches ih =>
      intro scannedRows seen
      rw [List.map_cons, List.foldlM_cons, scanPiiBatch_of (hschema batch List.mem_cons_self),
        List.flatMap_cons, detectRows_append, batch.length_tuples]
      cases detectRows detector key schema.fields batch.tuples scannedRows with
      | error fault => rfl
      | ok found =>
          rw [ok_bind]
          show List.foldlM _ (PiiScan.of _ _ _) _ = _
          rw [ih fun other hother => hschema other (List.mem_cons_of_mem _ hother)]
          cases detectRows detector key schema.fields (batches.flatMap RecordBatch.tuples)
              (scannedRows + batch.rows) with
          | error fault => rfl
          | ok rest =>
              show Except.ok (PiiScan.of _ _ _) = Except.ok (PiiScan.of _ _ _)
              rw [List.append_assoc, List.length_append, batch.length_tuples, Nat.add_assoc]

/-! ## The report -/

/-- The report of a scan that found these in so many rows. -/
def PiiReport.of (maxFindings : ℕ) (fingerprint : PiiFingerprintOptions) (scannedRows : ℕ)
    (found : List PiiFinding) : PiiReport :=
  { detected := 0 < found.length
    scannedRows
    findingCount := found.length
    countsByKind := SortedMap.tally (fun finding => finding.kind.label) found
    truncated := found.length > (found.take maxFindings).length
    findings := found.take maxFindings
    fingerprintMode := fingerprint.mode
    keyId := fingerprint.keyId }

variable {reader : BatchReader} {rows : List Row} {fingerprint : PiiFingerprintOptions}

theorem scanPiiReaderWithOptions_eq (h : reader.HasRows rows) :
    scanPiiReaderWithOptions reader maxFindings fingerprint = (do
      let detector ← ProofFrame.detector
      let found ← detectRows detector fingerprint.key reader.schema.fields rows 0
      .ok (.of maxFindings fingerprint rows.length found)) := by
  obtain ⟨batches, hitems, hschema, rfl⟩ := h
  unfold scanPiiReaderWithOptions
  cases ProofFrame.detector with
  | error fault => rfl
  | ok detector =>
      rw [ok_bind, ok_bind, hitems]
      have hscan := @scanPiiBatches_of _ _ detector maxFindings fingerprint.key batches hschema 0 []
      rw [Nat.zero_add] at hscan
      rw [show ({ findings := [], counts := [], scannedRows := 0, totalFindings := 0 } : PiiScan) =
        .of maxFindings 0 [] by rw [PiiScan.of, List.take_nil]; rfl, hscan]
      cases detectRows detector fingerprint.key reader.schema.fields
        (batches.flatMap RecordBatch.tuples) 0 <;> rfl

/-- What a report says of a dataset with so many rows in which these were found. -/
structure PiiReport.Describes (maxFindings : ℕ) (fingerprint : PiiFingerprintOptions)
    (scannedRows : ℕ) (found : List PiiFinding) (report : PiiReport) : Prop where
  detected_iff : report.detected = true ↔ found ≠ []
  rows_eq : report.scannedRows = scannedRows
  count_eq : report.findingCount = found.length
  kinds_ascend : SortedMap.Ascending report.countsByKind
  kind_count : ∀ kind : PiiKind, SortedMap.find kind.label report.countsByKind =
    if found.countP (fun finding => finding.kind = kind) = 0 then none
    else some (found.countP fun finding => finding.kind = kind)
  counts_sum : (report.countsByKind.map Prod.snd).sum = report.findingCount
  truncated_iff : report.truncated = true ↔ report.findings.length < report.findingCount
  findings_eq : report.findings = found.take maxFindings
  mode_eq : report.fingerprintMode = fingerprint.mode
  key_eq : report.keyId = fingerprint.keyId

omit [PiiCrates] in
theorem PiiKind.label_injective : Function.Injective PiiKind.label := by
  intro kind kind' h
  cases kind <;> cases kind' <;> first | rfl | exact absurd h (by decide)

omit [PiiCrates] in
theorem PiiReport.describes_of (maxFindings : ℕ) (fingerprint : PiiFingerprintOptions)
    (scannedRows : ℕ) (found : List PiiFinding) :
    (PiiReport.of maxFindings fingerprint scannedRows found).Describes maxFindings fingerprint
      scannedRows found where
  detected_iff := by
    rw [PiiReport.of, decide_eq_true_eq, List.length_pos_iff]
  rows_eq := rfl
  count_eq := rfl
  kinds_ascend := SortedMap.ascending_tally _ _
  kind_count := by
    intro kind
    rw [PiiReport.of, SortedMap.find_tally]
    simp only [PiiKind.label_injective.eq_iff]
  counts_sum := SortedMap.sum_tally _ _
  truncated_iff := decide_eq_true_iff
  findings_eq := rfl
  mode_eq := rfl
  key_eq := rfl

/-- **A scan reports the detections of the rows.**  What it reports does not depend on the batches
the rows come in, and it is an account of the detections of the dataset: each is counted once, for
its kind and in the total, and the findings are the first of them, from row to row and from left to
right. -/
theorem scanPiiReaderWithOptions_describes {reader' : BatchReader} (h : reader.HasRows rows)
    (h' : reader'.HasRows rows) (hschema : reader'.schema = reader.schema) (maxFindings : ℕ)
    (fingerprint : PiiFingerprintOptions) :
    scanPiiReaderWithOptions reader' maxFindings fingerprint =
        scanPiiReaderWithOptions reader maxFindings fingerprint ∧
      ∀ report, scanPiiReaderWithOptions reader maxFindings fingerprint = .ok report →
        ∃ detector found, ProofFrame.detector = .ok detector ∧
          detectRows detector fingerprint.key reader.schema.fields rows 0 = .ok found ∧
          report.Describes maxFindings fingerprint rows.length found := by
  constructor
  · rw [scanPiiReaderWithOptions_eq h, scanPiiReaderWithOptions_eq h', hschema]
  · intro report hreport
    rw [scanPiiReaderWithOptions_eq h] at hreport
    obtain ⟨detector, hdetector, hreport⟩ := bind_eq_ok.mp hreport
    obtain ⟨found, hfound, hreport⟩ := bind_eq_ok.mp hreport
    cases hreport
    exact ⟨detector, found, hdetector, hfound, PiiReport.describes_of _ _ _ _⟩

/-! ## What a report discloses -/

/-- What the detector takes the text of a cell for, where it reports it. -/
def classified (detector : Detector) (entry : Field × Option Value) : Except Fault (Option Match) :=
  match entry.2 with
  | none => .ok none
  | some value => do
      let text ← scannedText entry.1.dataType value
      detector.classifyCell text entry.1.dataType.isNumericArray

/-- A finding but for the fingerprint of its value. -/
def PiiFinding.unmarked (finding : PiiFinding) : PiiFinding := { finding with valueFingerprint := "" }

/-- The finding of a match in a row of a column. -/
def Match.unmarked (found : Match) (column : String) (row : ℕ) : PiiFinding :=
  { kind := found.kind, confidence := found.confidence, column, row, valueFingerprint := "" }

theorem unmarked_detectCell (row : ℕ) (entry : Field × Option Value) :
    List.map PiiFinding.unmarked <$> detectCell detector key row entry =
      (fun found => found.toList.map fun found => found.unmarked entry.1.name row) <$>
        classified detector entry := by
  obtain ⟨field, cell⟩ := entry
  unfold detectCell classified
  cases cell with
  | none => rfl
  | some value =>
      dsimp only
      cases scannedText field.dataType value with
      | error fault => rfl
      | ok text =>
          rw [ok_bind, ok_bind]
          cases detector.classifyCell text field.dataType.isNumericArray with
          | error fault => rfl
          | ok found => cases found <;> rfl

/-- The detector takes the cells of the rows for the same. -/
def RowsAlike (detector : Detector) (fields : List Field) (row row' : Row) : Prop :=
  List.Forall₂ (fun entry entry' : Field × Option Value => entry'.1 = entry.1 ∧
    classified detector entry' = classified detector entry) (fields.zip row) (fields.zip row')

theorem RowsAlike.refl (fields : List Field) (row : Row) : RowsAlike detector fields row row :=
  List.forall₂_same.mpr fun _ _ => ⟨rfl, rfl⟩

theorem RowsAlike.unmarked_detectRow {fields : List Field} {row row' : Row}
    (h : RowsAlike detector fields row row') (index : ℕ) :
    List.map PiiFinding.unmarked <$> detectRow detector key fields (row, index) =
      List.map PiiFinding.unmarked <$> detectRow detector key fields (row', index) := by
  rw [detectRow, detectRow, map_flatten_mapM, map_flatten_mapM]
  refine congrArg (List.flatten <$> ·) (mapM_eq_of_forall₂ (h.imp ?_))
  rintro ⟨field, cell⟩ ⟨field', cell'⟩ ⟨rfl, hcell⟩
  rw [unmarked_detectCell, unmarked_detectCell, hcell]

theorem unmarked_detectRows {fields : List Field} {rows rows' : List Row}
    (h : List.Forall₂ (RowsAlike detector fields) rows rows') (offset : ℕ) :
    List.map PiiFinding.unmarked <$> detectRows detector key fields rows offset =
      List.map PiiFinding.unmarked <$> detectRows detector key fields rows' offset := by
  rw [detectRows, detectRows, map_flatten_mapM, map_flatten_mapM]
  refine congrArg (List.flatten <$> ·) (mapM_eq_of_forall₂ ((forall₂_zipIdx h offset).imp ?_))
  rintro ⟨row, index⟩ ⟨row', index'⟩ ⟨hrow, heq⟩
  obtain rfl : index = index' := heq
  exact hrow.unmarked_detectRow index

omit [PiiCrates] in
theorem PiiFinding.eq_of_unmarked {finding finding' : PiiFinding}
    (hunmarked : finding.unmarked = finding'.unmarked)
    (hprint : finding.valueFingerprint = finding'.valueFingerprint) : finding = finding' := by
  cases finding
  cases finding'
  simp only [unmarked, PiiFinding.mk.injEq, and_true] at hunmarked
  obtain ⟨rfl, rfl, rfl, rfl⟩ := hunmarked
  cases hprint
  rfl

omit [PiiCrates] in
theorem findings_eq_of_unmarked {found found' : List PiiFinding}
    (hunmarked : found.map PiiFinding.unmarked = found'.map PiiFinding.unmarked)
    (hprints : found.map PiiFinding.valueFingerprint = found'.map PiiFinding.valueFingerprint) :
    found = found' := by
  induction found generalizing found' with
  | nil =>
      rw [List.map_nil, eq_comm, List.map_eq_nil_iff] at hunmarked
      exact hunmarked.symm
  | cons finding found ih =>
      cases found' with
      | nil => cases hunmarked
      | cons finding' found' =>
          rw [List.map_cons, List.map_cons, List.cons.injEq] at hunmarked hprints
          rw [PiiFinding.eq_of_unmarked hunmarked.1 hprints.1, ih hunmarked.2 hprints.2]

omit [PiiCrates] in
theorem PiiReport.of_eq {scannedRows : ℕ} {found found' : List PiiFinding}
    (hunmarked : found.map PiiFinding.unmarked = found'.map PiiFinding.unmarked)
    (hprints : (found.take maxFindings).map PiiFinding.valueFingerprint =
      (found'.take maxFindings).map PiiFinding.valueFingerprint) :
    PiiReport.of maxFindings fingerprint scannedRows found =
      .of maxFindings fingerprint scannedRows found' := by
  have hlength : found.length = found'.length := by
    simpa using congrArg List.length hunmarked
  have hkept : found.take maxFindings = found'.take maxFindings := by
    apply findings_eq_of_unmarked _ hprints
    rw [List.map_take, List.map_take, hunmarked]
  have hcounts : ∀ found : List PiiFinding,
      SortedMap.tally (fun finding => finding.kind.label) found =
        SortedMap.tally (fun finding => finding.kind.label) (found.map PiiFinding.unmarked) := by
    intro found
    rw [SortedMap.tally, SortedMap.tally, List.foldl_map]
    rfl
  rw [PiiReport.of, PiiReport.of, hlength, hkept, hcounts found, hunmarked, ← hcounts]

/-- **A report discloses no value.**  Where the detector takes the cells of two datasets for the
same, nulls and texts it does not report included, and the findings that are shown have the same
fingerprints, the scans end in the same report or in the same error: of a value that is shown, a
report holds the kind, the place and the fingerprint, and of the others it holds no more than their
number. -/
theorem scanPiiReaderWithOptions_discloses {reader' : BatchReader} {rows' : List Row}
    (h : reader.HasRows rows) (h' : reader'.HasRows rows') (hschema : reader'.schema = reader.schema)
    (maxFindings : ℕ)
    (hrows : ∀ detector, ProofFrame.detector = .ok detector →
      List.Forall₂ (RowsAlike detector reader.schema.fields) rows rows')
    (hprints : ∀ detector found found', ProofFrame.detector = .ok detector →
      detectRows detector fingerprint.key reader.schema.fields rows 0 = .ok found →
      detectRows detector fingerprint.key reader.schema.fields rows' 0 = .ok found' →
      (found.take maxFindings).map PiiFinding.valueFingerprint =
        (found'.take maxFindings).map PiiFinding.valueFingerprint) :
    scanPiiReaderWithOptions reader maxFindings fingerprint =
      scanPiiReaderWithOptions reader' maxFindings fingerprint := by
  rw [scanPiiReaderWithOptions_eq h, scanPiiReaderWithOptions_eq h', hschema]
  cases hdetector : ProofFrame.detector with
  | error fault => rfl
  | ok detector =>
      have hall := hrows detector hdetector
      have halike := @unmarked_detectRows _ _ fingerprint.key _ _ _ hall 0
      rw [ok_bind, ok_bind]
      cases hfound : detectRows detector fingerprint.key reader.schema.fields rows 0 with
      | error fault =>
          cases hfound' : detectRows detector fingerprint.key reader.schema.fields rows' 0 with
          | error fault' =>
              rw [hfound, hfound'] at halike
              exact congrArg Except.error (Except.error.inj halike)
          | ok found' =>
              rw [hfound, hfound'] at halike
              cases halike
      | ok found =>
          cases hfound' : detectRows detector fingerprint.key reader.schema.fields rows' 0 with
          | error fault' =>
              rw [hfound, hfound'] at halike
              cases halike
          | ok found' =>
              rw [hfound, hfound'] at halike
              rw [ok_bind, ok_bind, hall.length_eq,
                PiiReport.of_eq (Except.ok.inj halike) (hprints _ _ _ hdetector hfound hfound')]

end Meaning

/-! ## Scans of texts -/

/-- Crates for scans of texts: every digest is zero. -/
@[reducible] def PiiCrates.zeroDigests : PiiCrates where
  toCrates := Crates.zeroDigests
  arrayValueToString _ _ := .ok ""
  jsonEvent _ _ _ := []
  jsonTexts _ := ""
  ipcFile _ := []
  keyedHash _ _ := ⟨List.replicate 32 0, length_zeroBytes⟩

def zeroKey : KeyBytes := ⟨List.replicate 32 0, length_zeroBytes⟩

/-- A batch of notes. -/
def noteBatch (texts : List String) (hsize : ∀ text ∈ texts, text.utf8ByteSize < 2 ^ 31) :
    RecordBatch := .ofColumn {
  field := .mk "note" .utf8 true []
  cells := texts.map fun text => some (.scalar (.text text))
  typed := by
    intro cell hcell
    obtain ⟨text, htext, rfl⟩ := List.mem_map.mp hcell
    exact hsize text htext }

/-- Notes, in batches. -/
def noteReader (batches : List RecordBatch) : BatchReader where
  schema := ⟨[.mk "note" .utf8 true []], []⟩
  items := batches.map .ok

theorem noteReader_hasRows {batches : List RecordBatch}
    (h : ∀ batch ∈ batches, batch.schema = (noteReader []).schema) :
    (noteReader batches).HasRows (batches.flatMap RecordBatch.tuples) :=
  ⟨batches, rfl, h, rfl⟩

/-- A card number and two notes without personal data, in one batch and in two. -/
theorem scanPiiReaderWithOptions_describes_card : letI := PiiCrates.zeroDigests
    let whole := noteBatch ["4111 1111 1111 1111", "paid", "shipped"] (by decide)
    let first := noteBatch ["4111 1111 1111 1111", "paid"] (by decide)
    let second := noteBatch ["shipped"] (by decide)
    ∃ report, scanPiiReaderWithOptions (noteReader [whole]) 5 ⟨.stable, zeroKey, "k"⟩ = .ok report ∧
      scanPiiReaderWithOptions (noteReader [first, second]) 5 ⟨.stable, zeroKey, "k"⟩ = .ok report ∧
      report.countsByKind = [("payment_card", 1)] ∧
      ∃ found, report.Describes 5 ⟨.stable, zeroKey, "k"⟩ 3 found := by
  let := PiiCrates.zeroDigests
  intro whole first second
  have hwhole := @noteReader_hasRows [whole] (by simp [whole, noteBatch, noteReader, RecordBatch.ofColumn])
  have hparts := @noteReader_hasRows [first, second]
    (by simp [first, second, noteBatch, noteReader, RecordBatch.ofColumn])
  obtain ⟨hequal, hdescribes⟩ := scanPiiReaderWithOptions_describes hwhole hparts rfl 5
    ⟨.stable, zeroKey, "k"⟩
  have hcounts : (scanPiiReaderWithOptions (noteReader [whole]) 5 ⟨.stable, zeroKey, "k"⟩).map
      PiiReport.countsByKind = .ok [("payment_card", 1)] := by decide +kernel
  cases hreport : scanPiiReaderWithOptions (noteReader [whole]) 5 ⟨.stable, zeroKey, "k"⟩ with
  | error fault =>
      rw [hreport] at hcounts
      cases hcounts
  | ok report =>
      obtain ⟨_, found, _, _, hfound⟩ := hdescribes report hreport
      rw [hreport] at hcounts
      exact ⟨report, rfl, hequal.trans hreport, Except.ok.inj hcounts, found, hfound⟩

/-- Crates for scans of texts: the fingerprint of a text is its end. -/
@[reducible] def PiiCrates.lastBytes : PiiCrates :=
  { PiiCrates.zeroDigests with keyedHash := fun _ => Crates.lastBytes.blake3 }

/-- A note without personal data in the place of another, and a card number in the place of one that
is counted and not shown. -/
theorem scanPiiReaderWithOptions_discloses_note : letI := PiiCrates.lastBytes
    let paid := noteBatch ["4111 1111 1111 1111", "paid", "5500 0000 0000 0004"] (by decide)
    let shipped := noteBatch ["4111 1111 1111 1111", "shipped", "4012 8888 8888 1881"] (by decide)
    scanPiiReaderWithOptions (noteReader [paid]) 1 ⟨.stable, zeroKey, "k"⟩ =
      scanPiiReaderWithOptions (noteReader [shipped]) 1 ⟨.stable, zeroKey, "k"⟩ := by
  let := PiiCrates.lastBytes
  intro paid shipped
  have hpaid := @noteReader_hasRows [paid] (by simp [paid, noteBatch, noteReader, RecordBatch.ofColumn])
  have hshipped := @noteReader_hasRows [shipped]
    (by simp [shipped, noteBatch, noteReader, RecordBatch.ofColumn])
  refine scanPiiReaderWithOptions_discloses hpaid hshipped rfl 1 ?_ ?_
  · intro detector hdetector
    obtain rfl := Except.ok.inj hdetector
    refine .cons (.cons ⟨rfl, ?_⟩ .nil) (.cons (.cons ⟨rfl, ?_⟩ .nil) (.cons (.cons ⟨rfl, ?_⟩ .nil)
      .nil))
    all_goals decide +kernel
  · intro detector found found' hdetector hfound hfound'
    let shown := fun found : List PiiFinding => (found.take 1).map PiiFinding.valueFingerprint
    let fields := (noteReader [paid]).schema.fields
    have hprints : (ProofFrame.detector >>= fun detector =>
          shown <$> detectRows detector zeroKey fields ([paid].flatMap RecordBatch.tuples) 0) =
        ProofFrame.detector >>= fun detector =>
          shown <$> detectRows detector zeroKey fields ([shipped].flatMap RecordBatch.tuples) 0 := by
      decide +kernel
    rw [hdetector, ok_bind, ok_bind, hfound, hfound'] at hprints
    exact Except.ok.inj hprints

end ProofFrame
