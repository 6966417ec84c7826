import ProofFrame.Diff.PartitionSpec

/-!
# Partitions are read back as they were written

Whole partitions: a sequence of records is written and finished, and a file is
opened and drained.  The results are two.  What was written is read back
unchanged, under the limits it was written with.  And a file that is drained to
a clean end is the file a writer makes of the records it yielded, so that no
change to a written file goes unnoticed while its checksum is left alone.
-/

namespace ProofFrame.Diff

open Lib Lib.Run

variable {ω : Type} [Host ω]

section Programs

variable [Crates]

/-- Create a partition, write the records and finish it. -/
def writePartition (schemaDigest : Digest) (maxRecordBytes : ℕ)
    (reserveMemory reserveTemp : ℕ → Run ω Fault Unit) (records : List KeyedEntry) :
    Run ω Fault (List UInt8) := do
  let writer ← PartitionWriter.create schemaDigest
  let writer ← records.foldlM (fun writer record =>
    Prod.fst <$> writer.writeRecord record maxRecordBytes reserveMemory reserveTemp) writer
  writer.finish

/-- Ask the reader for one more record. -/
def drainTurn (state : PartitionReader × List KeyedEntry) :
    Run ω Fault (Turn (PartitionReader × List KeyedEntry) (List KeyedEntry)) := do
  let (record, reader) ← state.1.next
  match record with
  | some record => pure (.again (reader, state.2 ++ [record]))
  | none => pure (.leave state.2)

/-- Open a partition and read it to its end. -/
def readPartition (file : List UInt8) (expectedSchema : Digest) (limits : PartitionLimits) :
    Run ω Fault (List KeyedEntry) := do
  let reader ← PartitionReader.open file expectedSchema limits
  loop .diverged drainTurn (reader.remainingRecords + 1) (reader, [])

end Programs

variable [Crates] {schemaDigest : Digest} {limits : PartitionLimits}

/-! ## Writing -/

section Writing

variable {maxRecordBytes : ℕ} {reserveMemory reserveTemp : ℕ → Run ω Fault Unit}
  {records : List KeyedEntry} {E : Fault → Prop}

/-- The run lemma of the writer.  A record is refused for its size only if it is not writable. -/
theorem sat_writePartition (henv : ∀ fault, Environmental fault → E fault)
    (hsize : ∀ record ∈ records, ¬Writable maxRecordBytes record → ∀ fault, Oversized fault → E fault)
    (hmemory : ∀ bytes, Sat (reserveMemory bytes) (fun _ => True) E)
    (htemp : ∀ bytes, Sat (reserveTemp bytes) (fun _ => True) E) :
    Sat (writePartition schemaDigest maxRecordBytes reserveMemory reserveTemp records)
      (fun file => file = image schemaDigest records ∧ file.length < 2 ^ 63 ∧
        ∀ record ∈ records, Writable maxRecordBytes record) E := by
  apply ((PartitionWriter.sat_create schemaDigest maxRecordBytes).mono (fun _ h => h) henv).bind
  intro writer hwriter
  apply (sat_foldlM (fun done writer => writer.Holds schemaDigest maxRecordBytes done) hwriter _).bind
  · intro writer hwriter
    have hlength : (image schemaDigest records).length < 2 ^ 63 := by
      have hlt := hwriter.file_lt
      rw [hwriter.file_eq, List.length_append, List.length_replicate] at hlt
      rw [length_image]
      exact hlt
    apply hwriter.sat_finish.mono _ henv
    rintro file rfl
    exact ⟨rfl, hlength, hwriter.writable⟩
  · intro done record rest writer hrecords hwriter
    have hmem : record ∈ records := by
      rw [hrecords]
      exact List.mem_append_right _ (List.mem_cons_self ..)
    apply (hwriter.sat_writeRecord henv (hsize record hmem) hmemory htemp).map
    exact fun _ h => h.1

end Writing

/-! ## Reading back -/

/-- A written partition, opened and drained under the limits it was written with, yields its records
in order and ends; only a failing read can stop it. -/
theorem readPartition_writePartition (limits : PartitionLimits) {records : List KeyedEntry}
    {file : List UInt8} {w w' : ω} {reserveMemory reserveTemp : ℕ → Run ω Fault Unit}
    (hwrite : writePartition schemaDigest limits.maxRecordBytes reserveMemory reserveTemp records w =
      .ok (file, w'))
    (hcolumns : ∀ record ∈ records, record.2.values.length ≤ limits.maxColumns) :
    Sat (readPartition file schemaDigest limits : Run ω Fault _) (· = records) Unreadable := by
  have hwritten := (sat_writePartition (E := fun _ => True) (fun _ _ => trivial)
    (fun _ _ _ _ _ => trivial) (fun _ _ => by split <;> trivial)
    (fun _ _ => by split <;> trivial)).of_ok hwrite
  obtain ⟨rfl, hlength, hwritable⟩ := hwritten
  have hfit : ∀ record ∈ records, Fits limits record := fun record hrecord =>
    ⟨hwritable record hrecord, hcolumns record hrecord⟩
  apply (PartitionReader.sat_open_image (by omega) hfit).bind
  intro reader hreader
  -- what has been yielded and what is left are the records
  apply sat_loop (fun state : PartitionReader × List KeyedEntry =>
      ∃ left, state.1.Reads left ∧ records = state.2 ++ left)
    (fun state => state.1.remainingRecords) _ _ _ ⟨records, hreader, rfl⟩ (Nat.lt_succ_self _)
  rintro ⟨reader, done⟩ ⟨left, hreads, rfl⟩
  cases left with
  | nil =>
      apply hreads.sat_next_nil.bind
      rintro ⟨_, _⟩ ⟨rfl, -⟩
      exact sat_pure (List.append_nil _).symm
  | cons record left =>
      apply hreads.sat_next_cons.bind
      rintro ⟨_, next⟩ ⟨rfl, hnext⟩
      refine sat_pure ⟨⟨left, hnext, ?_⟩, ?_⟩
      · exact List.append_cons ..
      · show next.remainingRecords < reader.remainingRecords
        rw [hnext.records_eq, hreads.records_eq]
        exact Nat.lt_succ_self _

/-- Two records, one of them with an empty key, an empty value and a null. -/
def smallRecords : List KeyedEntry :=
  [([], { displayKey := "", values := [none, some []], hash := ⟨List.replicate 32 0, length_zeroBytes⟩ }),
    ([7], { displayKey := "seven", values := [some [1, 2]], hash := ⟨List.replicate 32 9, rfl⟩ })]

omit [Crates] in
theorem readPartition_writePartition_small :
    let _ := Crates.zeroDigests
    let schemaDigest := Crates.blake3 []
    ∃ file w', writePartition schemaDigest 1024 (fun _ => pure ()) (fun _ => pure ()) smallRecords
        Granting.granting = .ok (file, w') ∧
      Sat (readPartition file schemaDigest ⟨1024, 2⟩ : Run Granting Fault _) (· = smallRecords)
        Unreadable := by
  intro _ schemaDigest
  have hended := exists_ended (w := Granting.granting) (m := writePartition schemaDigest 1024
    (fun _ => pure ()) (fun _ => pure ()) smallRecords) (by decide +kernel)
  obtain ⟨file, w', hwrite⟩ := hended
  exact ⟨file, w', hwrite, readPartition_writePartition ⟨1024, 2⟩ hwrite (by decide)⟩

/-! ## Only what was written -/

/-- Reading a file of unknown origin ends: in the records it is the file of, or in an error that
says it is corrupt or unreadable, never in a panic. -/
theorem sat_readPartition (file : List UInt8) :
    Sat (readPartition file schemaDigest limits : Run ω Fault _)
      (fun records => file = image schemaDigest records ∧ ∀ record ∈ records, Fits limits record)
      Rejected := by
  unfold readPartition PartitionReader.open
  apply Sat.bind (Q := fun reader => ∃ header bytes, header.schemaDigest = schemaDigest ∧
    file = header.bytes ++ bytes ∧ header.checksum = Crates.blake3 bytes ∧
      reader.Consumed limits header bytes [])
  · apply sat_validateFile.bind
    rintro header ⟨hdigest, bytes, rfl, hlength, hchecksum⟩
    have hio : Sat (ioOperation .readFile : Run ω Fault Unit) (fun _ => True) Rejected :=
      (sat_io trivial).mono (fun _ h => h) fun _ h => h.rejected
    have hopen : Sat (ioOperation .openFile : Run ω Fault Unit) (fun _ => True) Rejected :=
      (sat_io trivial).mono (fun _ h => h) fun _ h => h.rejected
    apply hopen.bind
    intro _ _
    apply hio.bind
    intro _ _
    refine sat_pure ⟨header, bytes, hdigest, rfl, hchecksum, rfl, ?_, ?_, ?_, by simp⟩
    · exact (List.drop_left' (length_writeHeader ..)).symm
    · exact (Nat.zero_add _).symm
    · exact (Nat.zero_add _).symm
  rintro reader ⟨header, bytes, rfl, rfl, hchecksum, hconsumed⟩
  apply sat_loop (fun state : PartitionReader × List KeyedEntry =>
      state.1.Consumed limits header bytes state.2)
    (fun state => state.1.remainingRecords) _ _ _ hconsumed (Nat.lt_succ_self _)
  rintro ⟨reader, done⟩ hconsumed
  apply hconsumed.sat_next.bind
  rintro ⟨_ | record, next⟩ hnext
  · obtain ⟨rfl, hpayload, hrecords⟩ := hnext
    refine sat_pure ⟨?_, hconsumed.fit⟩
    rw [image, ← hpayload, ← hrecords, ← hchecksum]
    rfl
  · exact sat_pure hnext

omit [Crates] in
/-- The payload of a partition determines its records. -/
theorem payload_injective (limits : PartitionLimits) {records : List KeyedEntry} :
    ∀ {records' : List KeyedEntry}, (∀ record ∈ records, Fits limits record) →
      (∀ record ∈ records', Fits limits record) →
      payload records = payload records' → records = records' := by
  induction records with
  | nil =>
      intro records' _ _ h
      have := length_le_payload records'
      rw [← h] at this
      exact (List.length_eq_zero_iff.mp (Nat.le_zero.mp this)).symm
  | cons record records ih =>
      intro records' hfit hfit' h
      cases records' with
      | nil =>
          have := length_le_payload (record :: records)
          rw [h] at this
          exact absurd this (by simp [payload])
      | cons record' records' =>
          have hhead := hfit record (List.mem_cons_self ..)
          have hhead' := hfit' record' (List.mem_cons_self ..)
          have hread : ∀ {record : KeyedEntry} {records : List KeyedEntry}, Fits limits record →
              decodeBytes (payload (record :: records)) limits.maxRecordBytes =
                .ok (encodeRecord record, payload records) := by
            intro record records hfit
            have hlt := hfit.framed_lt
            exact decodeBytes_eq_ok.mpr ⟨List.flatMap_cons, hfit.record_le, by omega⟩
          have hsplit := (hread hhead).symm.trans ((congrArg (decodeBytes · _) h).trans (hread hhead'))
          obtain ⟨hrecord, hrest⟩ := Prod.mk.inj (Except.ok.inj hsplit)
          have hdecode := decodeRecord_eq_ok.mpr ⟨rfl, hhead.fieldsFit⟩
          rw [hrecord, decodeRecord_eq_ok.mpr ⟨rfl, hhead'.fieldsFit⟩] at hdecode
          rw [Except.ok.inj hdecode, ih (fun other hother => hfit other (List.mem_cons_of_mem _ hother))
            (fun other hother => hfit' other (List.mem_cons_of_mem _ hother)) hrest]

/-- The bytes of a file in which its checksum is stored. -/
def storedChecksum (file : List UInt8) : List UInt8 := (file.drop 60).take 32

theorem storedChecksum_image (records : List KeyedEntry) :
    storedChecksum (image schemaDigest records) = (Crates.blake3 (payload records)).val := by
  have hbefore : (magic ++ Bytes.toLe 2 version ++ Bytes.toLe 2 headerBytes ++ schemaDigest.val ++
      Bytes.toLe 8 records.length ++ Bytes.toLe 8 (payload records).length).length = 60 := by
    simp only [List.length_append, Bytes.length_toLe, schemaDigest.property]
    rfl
  rw [storedChecksum, image, writeHeader, List.append_assoc, List.drop_left' hbefore,
    List.take_left' (Crates.blake3 _).property]

/-- A partition that is read to a clean end is the one its records are written to.  In particular a
change to a written partition that leaves its checksum alone, as far as it is still there, is
reported as corruption, provided it does not hit a second payload of that checksum. -/
theorem readPartition_only_written (file : List UInt8) (schemaDigest : Digest)
    (limits : PartitionLimits) :
    Sat (readPartition file schemaDigest limits : Run ω Fault _)
        (fun records => file = image schemaDigest records ∧
          Sat (writePartition schemaDigest limits.maxRecordBytes (fun _ => pure ())
            (fun _ => pure ()) records : Run ω Fault _) (· = file) Environmental) Rejected ∧
      ∀ {reserveMemory reserveTemp : ℕ → Run ω Fault Unit} {maxRecordBytes : ℕ}
        {records : List KeyedEntry} {written : List UInt8} {w w' : ω},
        writePartition schemaDigest maxRecordBytes reserveMemory reserveTemp records w =
          .ok (written, w') → file ≠ written → storedChecksum file <+: storedChecksum written →
        (Crates.blake3 (file.drop headerBytes) = Crates.blake3 (written.drop headerBytes) →
          file.drop headerBytes = written.drop headerBytes) →
        Sat (readPartition file schemaDigest limits : Run ω Fault _) (fun _ => False) Rejected := by
  have hread : Sat (readPartition file schemaDigest limits : Run ω Fault _) _ Rejected :=
    sat_readPartition file
  constructor
  · apply hread.post
    rintro records ⟨rfl, hfit⟩
    have hgrant : ∀ _ : ℕ, Sat (pure () : Run ω Fault Unit) (fun _ => True) Environmental := fun _ =>
      sat_pure trivial
    have hwrite : Sat (writePartition schemaDigest limits.maxRecordBytes _ _ records) _ _ :=
      sat_writePartition (fun _ h => h)
        (fun record hrecord hn => absurd (hfit record hrecord).toWritable hn) hgrant hgrant
    exact ⟨rfl, hwrite.post fun _ h => h.1⟩
  · intro reserveMemory reserveTemp maxRecordBytes records written w w' hwrite hne hprefix hcollision
    have hwritten := (sat_writePartition (E := fun _ => True) (fun _ _ => trivial)
      (fun _ _ _ _ _ => trivial) (fun _ _ => by split <;> trivial)
      (fun _ _ => by split <;> trivial)).of_ok hwrite
    obtain ⟨rfl, -, hwritable⟩ := hwritten
    apply hread.post
    rintro records' ⟨rfl, hfit⟩
    have hdrop : ∀ records : List KeyedEntry,
        (image schemaDigest records).drop headerBytes = payload records := fun records =>
      List.drop_left' (length_writeHeader ..)
    rw [storedChecksum_image, storedChecksum_image] at hprefix
    rw [hdrop, hdrop] at hcollision
    have hchecksum := hprefix.eq_of_length
      ((Crates.blake3 _).property.trans (Crates.blake3 _).property.symm)
    have hpayload := hcollision (Subtype.ext hchecksum)
    -- one limit that fits the records of both files
    have hwide : ∀ {limits : PartitionLimits} {record : KeyedEntry}, Fits limits record →
        ∀ {limit : ℕ}, limits.maxRecordBytes ≤ limit →
          Fits ⟨limit, max limits.maxColumns (2 ^ 32)⟩ record := by
      intro limits record h limit hle
      exact ⟨⟨h.record_le.trans hle, h.framed_lt, h.columns_lt⟩, h.columns_le.trans (le_max_left ..)⟩
    have hsame : records' = records := by
      apply payload_injective ⟨max limits.maxRecordBytes maxRecordBytes,
        max limits.maxColumns (2 ^ 32)⟩ _ _ hpayload
      · exact fun record hrecord => hwide (hfit record hrecord) (le_max_left ..)
      · intro record hrecord
        have h := hwritable record hrecord
        exact ⟨⟨h.record_le.trans (le_max_right ..), h.framed_lt, h.columns_lt⟩,
          h.columns_lt.le.trans (le_max_right ..)⟩
    exact hne (hsame ▸ rfl)

omit [Crates] in
/-- The two records with a byte of the payload changed, and without their last byte. -/
theorem readPartition_only_written_edited :
    let _ := Crates.lastBytes
    let schemaDigest := Crates.blake3 []
    ∃ written w', writePartition schemaDigest 1024 (fun _ => pure ()) (fun _ => pure ()) smallRecords
        Granting.granting = .ok (written, w') ∧
      Sat (readPartition (written.set (written.length - 5) 7) schemaDigest ⟨1024, 2⟩ :
        Run Granting Fault _) (fun _ => False) Rejected ∧
      Sat (readPartition written.dropLast schemaDigest ⟨1024, 2⟩ : Run Granting Fault _)
        (fun _ => False) Rejected := by
  intro _ schemaDigest
  have hwrite : writePartition schemaDigest 1024 (fun _ => pure ()) (fun _ => pure ()) smallRecords
      Granting.granting = .ok (image schemaDigest smallRecords, .granting) := by
    decide +kernel
  have hrejects : ∀ file : List UInt8, file ≠ image schemaDigest smallRecords →
      storedChecksum file <+: storedChecksum (image schemaDigest smallRecords) →
      (Crates.blake3 (file.drop headerBytes) =
          Crates.blake3 ((image schemaDigest smallRecords).drop headerBytes) →
        file.drop headerBytes = (image schemaDigest smallRecords).drop headerBytes) →
      Sat (readPartition file schemaDigest ⟨1024, 2⟩ : Run Granting Fault _) (fun _ => False)
        Rejected :=
    fun file => (readPartition_only_written file schemaDigest ⟨1024, 2⟩).2 hwrite
  refine ⟨image schemaDigest smallRecords, .granting, hwrite, hrejects _ ?_ ?_ ?_,
    hrejects _ ?_ ?_ ?_⟩
  all_goals decide +kernel

end ProofFrame.Diff
