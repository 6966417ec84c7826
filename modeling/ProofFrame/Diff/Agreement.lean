import ProofFrame.Diff.Specification

/-!
# The two paths agree

Both paths take the same events in different orders, so they agree on whatever
does not depend on the order.  The columns of a sampled change may: two keys of
different bytes can be displayed alike, and then the sample that arrived first
is kept.
-/

namespace ProofFrame.Diff

open Lib Lib.Run Lib.Sorted

section Agreement

variable {ω : Type} [Host ω] [DiffCrates] {beforeReader afterReader : BatchReader}
  {keys : List String} {before after : List KeyedEntry} {report report' : DiffReport}

end Agreement

/-! ## Keys that are displayed alike -/

/-- A reader of one batch. -/
def ofBatch (batch : RecordBatch) : BatchReader where
  schema := batch.schema
  items := [.ok batch]

section OneBatch

variable {ω : Type} [Host ω] [DiffCrates] {batch : RecordBatch} {keys : List String}
  {indexes : List ℕ} {records : List KeyedEntry} {account : ResourceAccount}

omit [DiffCrates] in
theorem nextBatch_of_schema {changed : String} :
    (nextBatch batch.schema changed (.ok batch) : Run ω Fault _) = (do
      checkCancelled
      pure batch) := by
  have hitem : arrowItem (.ok batch) = .ok batch := rfl
  simp only [nextBatch, failIf, hitem, lift_ok_bind, ne_eq, not_true_eq_false, if_false, pure_bind]

/-- Collecting one batch is collecting its records. -/
theorem collectRowsInMemory_ofBatch (hindexes : keyIndexes keys batch.schema = .ok indexes)
    (hread : (List.range batch.rows).mapM (readRow indexes batch) = .ok records) :
    (collectRowsInMemory (ofBatch batch) keys account : Run ω Fault _) = (do
      checkCancelled
      let memory := Ledger.memory (account.child account.limits.maxMemoryBytes 0)
      let state ← records.foldlM collectRecord { entries := [], memory, rows := 0 }
      pure { signature := schemaSignature batch.schema, rows := state.rows
             entries := state.entries }) := by
  have hrows : ∀ state : Collecting, List.foldlM (collectRow indexes batch) state
      (List.range batch.rows) = (records.foldlM collectRecord state : Run ω Fault _) :=
    fun state => foldlM_eq_of_mapM hread _ state
  simp only [collectRowsInMemory, ofBatch, hindexes, lift_ok_bind, List.foldlM_cons, List.foldlM_nil,
    collectBatch, nextBatch_of_schema, bind_assoc, pure_bind, bind_pure, hrows]

/-- Partitioning one batch is distributing its records. -/
theorem partitionRows_ofBatch {temp : Ledger} (hindexes : keyIndexes keys batch.schema = .ok indexes)
    (hread : (List.range batch.rows).mapM (readRow indexes batch) = .ok records) :
    (partitionRows (ofBatch batch) keys account temp : Run ω Fault _) = (do
      let signature := schemaSignature batch.schema
      let schemaDigest := signatureDigest signature
      let temp ← temp.reserveAdditional partitionHeaderBytes
      reserve account .memory partitionWriterBytes
      let writers ← (List.range partitions).mapM fun _ => PartitionWriter.create schemaDigest
      checkCancelled
      let state ← records.foldlM (partitionRecord account) { writers, temp, rows := 0 }
      let paths ← state.writers.mapM PartitionWriter.finish
      pure ({ signature, schemaDigest, rows := state.rows, paths }, state.temp)) := by
  have hrows : ∀ state : Partitioning, List.foldlM (partitionRow account indexes batch) state
      (List.range batch.rows) =
        (records.foldlM (partitionRecord account) state : Run ω Fault _) :=
    fun state => foldlM_eq_of_mapM hread _ state
  simp only [partitionRows, ofBatch, hindexes, lift_ok_bind, List.foldlM_cons, List.foldlM_nil,
    partitionBatch, nextBatch_of_schema, bind_assoc, pure_bind, bind_pure, hrows]

end OneBatch

section Tie

/-- The canonical keys of a null and of the text `<null>` in the first column, with their BLAKE3
digests. -/
def keyDigests : List (List UInt8 × List UInt8) :=
  [([0, 0, 0, 0, 0, 0, 0, 0, 1, 0, 0, 0, 0, 0, 0, 0, 0],
    [225, 228, 237, 211, 207, 41, 169, 39, 2, 129, 116, 249, 171, 120, 178, 237,
      232, 5, 113, 148, 21, 111, 76, 183, 61, 45, 71, 168, 142, 91, 100, 7]),
    ([0, 0, 0, 0, 0, 0, 0, 0, 15, 0, 0, 0, 0, 0, 0, 0, 19, 6, 0, 0, 0, 0, 0, 0, 0,
      60, 110, 117, 108, 108, 62],
    [21, 148, 233, 3, 130, 126, 88, 192, 165, 86, 183, 166, 151, 237, 207, 81,
      223, 150, 145, 217, 244, 233, 88, 47, 184, 30, 119, 122, 153, 122, 158, 129])]

/-- Crates for runs on small inputs: the digest of a key above is its BLAKE3 digest, that of any
other input its last 32 bytes. -/
@[reducible] def DiffCrates.sample : DiffCrates where
  toCrates := { Crates.zeroDigests with
    blake3 := fun input =>
      let digest := (keyDigests.lookup input).getD input
      ⟨(digest.reverse ++ List.replicate 32 0).take 32, by simp⟩ }
  arrayValueToString _ value :=
    match value with
    | .scalar (.text text) => .ok text
    | _ => .ok ""
  jsonEvent _ key _ := utf8Bytes key
  jsonTexts := String.join
  ipcFile rows := rows.flatMap fun row => utf8Bytes row.2.1

/-- A batch of two rows: their keys are a null and the text `<null>`. -/
def tiedBatch (x y : List (Option Int64)) (hx : x.length = 2) (hy : y.length = 2) :
    RecordBatch where
  schema :=
    { fields := [.mk "key" .utf8 true [], .mk "x" .int64 true [], .mk "y" .int64 true []]
      metadata := [] }
  rows := 2
  columns :=
    [{ field := .mk "key" .utf8 true []
       cells := [none, some (.scalar (.text "<null>"))]
       typed := by
        intro cell hcell
        rcases List.mem_cons.mp hcell with rfl | hcell
        · exact ⟨rfl, rfl⟩
        · rw [List.mem_singleton.mp hcell]
          show "<null>".utf8ByteSize < 2 ^ 31
          decide },
      .ofInt64 "x" x, .ofInt64 "y" y]
  fields_eq := rfl
  lengths_eq := by simp [ArrowArray.length, ArrowArray.ofInt64, hx, hy]

def tiedBefore : RecordBatch := tiedBatch [some 1, some 1] [some 1, some 1] rfl rfl

/-- The row of the null differs in `x`, the row of the text in `y`. -/
def tiedAfter : RecordBatch := tiedBatch [some 2, some 1] [some 1, some 2] rfl rfl

/-- One sample is kept; the memory budget selects the path. -/
def tiedOptions (maxMemoryBytes : ℕ) : DiffOptions where
  resources := { maxMemoryBytes, maxTempBytes := 2 ^ 30, maxOutputRecords := 0, maxSamples := 1 }
  maxSamples := 1
  output := none
  rowCountHints := some (2, 2)
  inputBytesHint := some (2 ^ 30)
  spill := .auto

/-- A host without a file system. -/
inductive Diskless where
  | diskless

instance : Host Diskless where
  cancelled world := (false, world)
  reserve world _ _ _ := (.ok (), world)
  io world _ := (.error "no space left on device", world)
  peak _ _ _ := 0

/-- How the diff of the tied rows ends. -/
def tiedOutcome {ω : Type} [Host ω] (maxMemoryBytes : ℕ) (world : ω) :
    Except Fault (DiffReport × ω) :=
  let := DiffCrates.sample
  (diffReadersWithOptions (ofBatch tiedBefore) (ofBatch tiedAfter) ["key"]
    (tiedOptions maxMemoryBytes) world fun _ => none).1

theorem tied_indexes : keyIndexes ["key"] tiedBefore.schema = .ok [0] := rfl

theorem tied_indexes' : keyIndexes ["key"] tiedAfter.schema = .ok [0] := rfl

theorem read_tiedBefore :
    let := DiffCrates.sample
    (List.range tiedBefore.rows).mapM (readRow [0] tiedBefore) =
      .ok (flatRecords [0] tiedBefore) := by
  intro
  exact mapM_readRow_of_flat (by decide +kernel)

theorem read_tiedAfter :
    let := DiffCrates.sample
    (List.range tiedAfter.rows).mapM (readRow [0] tiedAfter) = .ok (flatRecords [0] tiedAfter) := by
  intro
  exact mapM_readRow_of_flat (by decide +kernel)

theorem tied_in_memory :
    shouldUseInMemory (ofBatch tiedBefore) (ofBatch tiedAfter) (tiedOptions (2 ^ 33)) = true := by
  decide +kernel

theorem tied_partitioned :
    shouldUseInMemory (ofBatch tiedBefore) (ofBatch tiedAfter) (tiedOptions (2 ^ 30)) = false := by
  decide +kernel

/-- In memory the key of the null is the lesser one and comes first. -/
theorem tied_changed_in_memory :
    (tiedOutcome (2 ^ 33) Granting.granting).toOption.map (fun result => result.1.changed) =
      some [{ key := "<null>", columns := ["x"] }] := by
  let := DiffCrates.sample
  simp only [tiedOutcome, diffReadersWithOptions, compareReaders, tied_in_memory, if_true,
    diffReadersInMemory, collectRowsInMemory_ofBatch tied_indexes read_tiedBefore,
    collectRowsInMemory_ofBatch tied_indexes' read_tiedAfter]
  decide +kernel

/-- The key of the text is in partition 21, that of the null in partition 33. -/
theorem tied_changed_partitioned :
    (tiedOutcome (2 ^ 30) Granting.granting).toOption.map (fun result => result.1.changed) =
      some [{ key := "<null>", columns := ["y"] }] := by
  let := DiffCrates.sample
  simp only [tiedOutcome, diffReadersWithOptions, compareReaders, tied_partitioned, if_false,
    Bool.false_eq_true, diffReadersPartitioned, partitionRows_ofBatch tied_indexes read_tiedBefore,
    partitionRows_ofBatch tied_indexes' read_tiedAfter]
  decide +kernel

theorem tied_diskless_in_memory :
    (tiedOutcome (2 ^ 33) Diskless.diskless).toOption.isSome = true := by
  let := DiffCrates.sample
  simp only [tiedOutcome, diffReadersWithOptions, compareReaders, tied_in_memory, if_true,
    diffReadersInMemory, collectRowsInMemory_ofBatch tied_indexes read_tiedBefore,
    collectRowsInMemory_ofBatch tied_indexes' read_tiedAfter]
  decide +kernel

/-- Which of two changes is shown may depend on the path, and only the partitioned path needs a
disk. -/
theorem diffReadersWithOptions_paths_differ :
    (shouldUseInMemory (ofBatch tiedBefore) (ofBatch tiedAfter) (tiedOptions (2 ^ 33)) = true ∧
      shouldUseInMemory (ofBatch tiedBefore) (ofBatch tiedAfter) (tiedOptions (2 ^ 30)) = false) ∧
    (∃ report report' : DiffReport,
      (tiedOutcome (2 ^ 33) Granting.granting).toOption.map Prod.fst = some report ∧
      (tiedOutcome (2 ^ 30) Granting.granting).toOption.map Prod.fst = some report' ∧
      report.changed ≠ report'.changed) ∧
    (tiedOutcome (2 ^ 33) Diskless.diskless).toOption.isSome = true ∧
      errorOf (tiedOutcome (2 ^ 30) Diskless.diskless) =
        some (.error (.io "no space left on device")) := by
  refine ⟨⟨tied_in_memory, tied_partitioned⟩, ?_, tied_diskless_in_memory, by decide +kernel⟩
  obtain ⟨⟨report, world⟩, hreport, hchanged⟩ := Option.map_eq_some_iff.mp tied_changed_in_memory
  obtain ⟨⟨report', world'⟩, hreport', hchanged'⟩ :=
    Option.map_eq_some_iff.mp tied_changed_partitioned
  refine ⟨report, report', by rw [hreport]; rfl, by rw [hreport']; rfl, ?_⟩
  dsimp only at hchanged hchanged'
  rw [hchanged, hchanged']
  decide

end Tie

end ProofFrame.Diff
