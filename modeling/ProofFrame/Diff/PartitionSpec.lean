import ProofFrame.Diff.PartitionCodec

/-!
# Writing and reading partitions

`image` is the file a sequence of records stands for.  The step lemma of the
writer appends a record to what the writer holds, and finishing gives the image.
The reader has two: over an image, the next record is the first of those left;
over a file of unknown origin, what was yielded and what the header still
promises add up to the file.
-/

namespace ProofFrame.Diff

open Lib Lib.Run

/-! ## The file of a sequence of records -/

/-- The file that holds the records. -/
def image [Crates] (schemaDigest : Digest) (records : List KeyedEntry) : List UInt8 :=
  writeHeader schemaDigest records.length (payload records).length
    (Crates.blake3 (payload records)) ++ payload records

theorem length_writeHeader (schemaDigest : Digest) (records payloadBytes : ℕ) (checksum : Digest) :
    (writeHeader schemaDigest records payloadBytes checksum).length = headerBytes := by
  simp only [writeHeader, List.length_append, Bytes.length_toLe, schemaDigest.property,
    checksum.property]
  rfl

theorem payload_append (records : List KeyedEntry) (record : KeyedEntry) :
    payload (records ++ [record]) = payload records ++ frame record := by
  rw [payload, payload, List.flatMap_append, List.flatMap_singleton]

theorem length_frame (record : KeyedEntry) :
    (frame record).length = 8 + (encodeRecord record).length := length_encodeBytes _

theorem length_le_payload (records : List KeyedEntry) :
    records.length ≤ (payload records).length := by
  induction records with
  | nil => exact Nat.le_refl 0
  | cons record records ih =>
      have := length_frame record
      rw [payload, List.flatMap_cons, List.length_append, List.length_cons, ← payload]
      omega

/-! ## Writing -/

/-- What the size checks of a writer refuse. -/
def Oversized (fault : Fault) : Prop :=
  fault = corrupt "Diff record length overflowed" ∨
    fault = corrupt "Diff row has more than u32 columns" ∨
    fault = corrupt "Diff partition payload length overflowed"

section Writer

variable {ω τ : Type} [Host ω] {E : Fault → Prop}

omit [Host ω] in
theorem sat_encodedRecordBytes (record : KeyedEntry) :
    Sat (encodedRecordBytes record : Run ω Fault ℕ) (· = (encodeRecord record).length)
      fun fault => Oversized fault ∧ 2 ^ 64 ≤ (encodeRecord record).length := by
  have herror : Oversized (corrupt "Diff record length overflowed") := .inl rfl
  rw [length_encodeRecord]
  apply (sat_checkedAdd_of (Q := (· = 8 + record.1.length)) (fun h => ⟨herror, by omega⟩)
    fun _ => rfl).bind
  rintro _ rfl
  apply (sat_checkedAdd_of (Q := (· = 8 + record.1.length + 8)) (fun h => ⟨herror, by omega⟩)
    fun _ => rfl).bind
  rintro _ rfl
  apply (sat_checkedAdd_of (fun h => ⟨herror, by omega⟩)
    (Q := (· = 8 + record.1.length + 8 + record.2.displayKey.utf8ByteSize)) fun _ => rfl).bind
  rintro _ rfl
  set fixed := 8 + record.1.length + 8 + record.2.displayKey.utf8ByteSize + 36 with hfixed
  apply (sat_checkedAdd_of (Q := (· = fixed)) (fun h => ⟨herror, by omega⟩) fun _ => rfl).bind
  rintro _ rfl
  -- the sum of the values taken so far, on top of the fixed part
  apply sat_foldlM (fun done n => n = fixed + (done.map valueBytes).sum) rfl
  rintro done value rest n hvalues rfl
  have hle : (done.map valueBytes).sum + valueBytes value ≤
      (record.2.values.map valueBytes).sum := by
    rw [hvalues, List.map_append, List.sum_append, List.map_cons, List.sum_cons]
    omega
  rw [List.map_append, List.sum_append, List.map_singleton, List.sum_singleton]
  cases value with
  | none =>
      have hbytes : valueBytes none = 8 := rfl
      apply (sat_checkedAdd_of (fun h => ⟨herror, by omega⟩) fun _ => rfl).bind
      rintro _ rfl
      exact sat_pure (by omega)
  | some bytes =>
      have hbytes : valueBytes (some bytes) = 8 + bytes.length := rfl
      apply (sat_checkedAdd_of (Q := (· = fixed + (done.map valueBytes).sum + 8))
        (fun h => ⟨herror, by omega⟩) fun _ => rfl).bind
      rintro _ rfl
      exact sat_checkedAdd_of (fun h => ⟨herror, by omega⟩) fun _ => by omega

theorem sat_writeAll {file bytes : List UInt8} :
    Sat (writeAll file bytes : Run ω Fault _)
      (fun written => written = file ++ bytes ∧ (file ++ bytes).length < 2 ^ 63) Environmental := by
  apply (sat_ioOperation (Q := fun _ => True) trivial).bind
  intro _ _
  apply (sat_failIf fun _ => by decide).bind
  intro _ hlt
  rw [List.length_append]
  exact sat_pure ⟨rfl, Nat.lt_of_not_le hlt⟩

/-- The writer has taken the records. -/
structure PartitionWriter.Holds (writer : PartitionWriter) (schemaDigest : Digest)
    (maxRecordBytes : ℕ) (records : List KeyedEntry) : Prop where
  file_eq : writer.file = List.replicate headerBytes 0 ++ payload records
  file_lt : writer.file.length < 2 ^ 63
  digest_eq : writer.schemaDigest = schemaDigest
  records_eq : writer.records = records.length
  payload_eq : writer.payloadBytes = (payload records).length
  hashed_eq : writer.hashed = payload records
  writable : ∀ record ∈ records, Writable maxRecordBytes record

namespace PartitionWriter

theorem sat_create (schemaDigest : Digest) (maxRecordBytes : ℕ) :
    Sat (create schemaDigest : Run ω Fault _)
      (fun writer => writer.Holds schemaDigest maxRecordBytes []) Environmental := by
  apply (sat_ioOperation (Q := fun _ => True) trivial).bind
  intro _ _
  apply sat_writeAll.bind
  rintro _ ⟨rfl, -⟩
  refine sat_pure ⟨(List.append_nil _).symm, ?_, rfl, rfl, rfl, rfl, by simp⟩
  rw [List.nil_append, List.length_replicate]
  decide

/-- The step lemma: a record that is accepted is appended. -/
theorem Holds.sat_writeRecord {writer : PartitionWriter} {schemaDigest : Digest}
    {maxRecordBytes : ℕ} {records : List KeyedEntry} {record : KeyedEntry}
    {reserveMemory : ℕ → Run ω Fault Unit} {reserveTemp : ℕ → Run ω Fault τ} {Q : τ → Prop}
    (h : writer.Holds schemaDigest maxRecordBytes records)
    (henv : ∀ fault, Environmental fault → E fault)
    (hsize : ¬Writable maxRecordBytes record → ∀ fault, Oversized fault → E fault)
    (hmemory : ∀ bytes, Sat (reserveMemory bytes) (fun _ => True) E)
    (htemp : ∀ bytes, Sat (reserveTemp bytes) Q E) :
    Sat (writer.writeRecord record maxRecordBytes reserveMemory reserveTemp)
      (fun (next, temp) => next.Holds schemaDigest maxRecordBytes (records ++ [record]) ∧ Q temp)
      E := by
  apply ((sat_encodedRecordBytes record).mono (fun _ hn => hn) fun fault hfault =>
    hsize (fun hw => by have := hw.framed_lt; omega) fault hfault.1).bind
  rintro required rfl
  apply (sat_failIf fun _ => henv _ (List.mem_cons_self ..)).bind
  intro _ hle
  apply (sat_whenever (Q := fun _ => True) (fun _ => hmemory _) fun _ => trivial).bind
  intro _ _
  apply (sat_failIf fun hle => hsize (fun hw => Nat.not_lt.mpr hle hw.columns_lt) _
    (.inr (.inl rfl))).bind
  intro _ hcolumns
  apply (sat_checkedAdd_of (Q := fun n => n = (encodeRecord record).length + 8 ∧ n < 2 ^ 64)
    (fun hle => hsize (fun hw => Nat.not_lt.mpr hle hw.framed_lt) _ (.inr (.inr rfl)))
    fun hlt => ⟨rfl, hlt⟩).bind
  rintro framed ⟨rfl, hframed⟩
  apply (htemp _).bind
  intro temp hq
  apply (sat_writeAll.mono (fun _ hw => hw) henv).bind
  rintro _ ⟨rfl, -⟩
  apply (sat_writeAll.mono (fun _ hw => hw) henv).bind
  rintro file ⟨hfile, hlt⟩
  have happend : file = List.replicate headerBytes 0 ++ payload (records ++ [record]) := by
    rw [hfile, h.file_eq, payload_append, frame, encodeBytes]
    simp only [List.append_assoc]
  have hpayload : (payload (records ++ [record])).length =
      (payload records).length + ((encodeRecord record).length + 8) := by
    rw [payload_append, List.length_append, length_frame, Nat.add_comm 8]
  rw [← hfile, happend, List.length_append, List.length_replicate] at hlt
  have hcount := length_le_payload (records ++ [record])
  -- a file below the size limit of the system has neither too many records nor too many bytes
  rw [h.records_eq, h.payload_eq]
  rw [List.length_append, List.length_singleton] at hcount
  apply (sat_checkedAdd_of (Q := (· = (records ++ [record]).length))
    (fun hle => absurd hle (by omega)) fun _ => by simp).bind
  rintro _ rfl
  apply (sat_checkedAdd_of (Q := (· = (payload (records ++ [record])).length))
    (fun hle => absurd hle (by omega)) fun _ => hpayload.symm).bind
  rintro _ rfl
  refine sat_pure ⟨⟨happend, ?_, h.digest_eq, rfl, rfl, ?_, ?_⟩, hq⟩
  · show file.length < _
    rw [happend, List.length_append, List.length_replicate]
    exact hlt
  · show writer.hashed ++ _ ++ _ = _
    rw [h.hashed_eq, payload_append, frame, encodeBytes, List.append_assoc]
  · intro other hother
    rcases List.mem_append.mp hother with hother | hother
    · exact h.writable other hother
    · obtain rfl := List.mem_singleton.mp hother
      exact ⟨Nat.le_of_not_lt hle, hframed, Nat.lt_of_not_le hcolumns⟩

/-- What is finished is the file of the records taken. -/
theorem Holds.sat_finish [Crates] {writer : PartitionWriter} {schemaDigest : Digest}
    {maxRecordBytes : ℕ} {records : List KeyedEntry}
    (h : writer.Holds schemaDigest maxRecordBytes records) :
    Sat (writer.finish : Run ω Fault _) (· = image schemaDigest records) Environmental := by
  apply (sat_ioOperation (Q := fun _ => True) trivial).bind
  intro _ _
  apply (sat_ioOperation (Q := fun _ => True) trivial).bind
  intro _ _
  apply (sat_ioOperation (Q := fun _ => True) trivial).bind
  intro _ _
  apply (sat_ioOperation (Q := fun _ => True) trivial).bind
  intro _ _
  apply sat_pure
  rw [h.file_eq, h.digest_eq, h.records_eq, h.payload_eq, h.hashed_eq,
    List.drop_left' List.length_replicate]
  rfl

end PartitionWriter

end Writer

/-! ## Reading -/

/-- The file could not be read. -/
abbrev Unreadable : Fault → Prop := Fault.Coded [.io]

/-- The file is corrupt or could not be read. -/
abbrev Rejected : Fault → Prop := Fault.Coded [.corruptPartition, .io]

theorem Corrupted.rejected {fault : Fault} (h : Corrupted fault) : Rejected fault :=
  h.mono (by decide)

theorem Unreadable.rejected {fault : Fault} (h : Unreadable fault) : Rejected fault :=
  h.mono (by decide)

theorem rejected_corrupt (message : String) : Rejected (corrupt message) :=
  (corrupted_corrupt message).rejected

section Reader

variable {ω : Type} [Host ω] {α : Type} {Q : α → Prop}

theorem sat_io {operation : IoOperation} {Q : Unit → Prop} (h : Q ()) :
    Sat (ioOperation operation : Run ω Fault Unit) Q Unreadable := by
  intro world
  unfold ioOperation
  rcases Host.io world operation with ⟨_ | _, world'⟩
  · exact (by decide : ErrorCode.io ∈ [ErrorCode.io])
  · exact h

/-- A step that succeeds on the bytes that are there. -/
theorem sat_fromFile_of_eq {step : Except Fault α} {a : α} (h : step = .ok a) :
    Sat (fromFile step : Run ω Fault α) (· = a) Unreadable := by
  apply (sat_io (Q := fun _ => True) trivial).bind
  intro _ _
  apply sat_lift
  · intro b hb
    exact Except.ok.inj (hb.symm.trans h)
  · intro e he
    rw [h] at he
    cases he

/-- A step over bytes of unknown origin. -/
theorem sat_fromFile {step : Except Fault α} (herror : FailsWith Corrupted step) :
    Sat (fromFile step : Run ω Fault α) (fun a => step = .ok a) Rejected := by
  apply ((sat_io (Q := fun _ => True) trivial).mono (fun _ h => h) fun _ h => h.rejected).bind
  intro _ _
  exact sat_lift (fun _ ha => ha) fun e he => (herror e he).rejected

omit [Host ω] in
theorem sat_checkedSub {a b : ℕ} {E : Fault → Prop} (h : b ≤ a) :
    Sat (checkedSub a b : Run ω Fault ℕ) (· = a - b) E := by
  apply (sat_failIf fun hlt => absurd hlt (Nat.not_lt.mpr h)).bind
  intro _ _
  exact sat_pure rfl

/-- The bytes of a header. -/
def Header.bytes (header : Header) : List UInt8 :=
  writeHeader header.schemaDigest header.records header.payloadBytes header.checksum

theorem sat_readHeader_image (header : Header) {rest : List UInt8} (hrecords : header.records < 2 ^ 64)
    (hpayload : header.payloadBytes < 2 ^ 64) :
    Sat (readHeader (header.bytes ++ rest) : Run ω Fault _) (· = (header, rest)) Unreadable := by
  have hnumber : ∀ {width n : ℕ} {rest : List UInt8}, n < 256 ^ width →
      readUintExact width (Bytes.toLe width n ++ rest) = .ok (n, rest) := fun h =>
    readUintExact_eq_ok.mpr ⟨rfl, h⟩
  have hmagic : ∀ {rest : List UInt8}, readExactCorrupt 8 (magic ++ rest) = .ok (magic, rest) :=
    readExactCorrupt_eq_ok.mpr ⟨rfl, rfl⟩
  have hpow : (256 : ℕ) ^ 8 = 2 ^ 64 := by norm_num
  simp only [Header.bytes, writeHeader, List.append_assoc]
  unfold readHeader
  apply (sat_fromFile_of_eq hmagic).bind
  rintro _ rfl
  apply (sat_failIf fun h => absurd rfl h).bind
  intro _ _
  apply (sat_fromFile_of_eq (hnumber (by decide))).bind
  rintro _ rfl
  apply (sat_failIf fun h => absurd rfl h).bind
  intro _ _
  apply (sat_fromFile_of_eq (hnumber (by decide))).bind
  rintro _ rfl
  apply (sat_failIf fun h => absurd rfl h).bind
  intro _ _
  apply (sat_fromFile_of_eq (readDigest_eq_ok.mpr rfl)).bind
  rintro _ rfl
  apply (sat_fromFile_of_eq (hnumber (by rw [hpow]; exact hrecords))).bind
  rintro _ rfl
  apply (sat_fromFile_of_eq (hnumber (by rw [hpow]; exact hpayload))).bind
  rintro _ rfl
  apply (sat_fromFile_of_eq (readDigest_eq_ok.mpr rfl)).bind
  rintro _ rfl
  exact sat_pure rfl

theorem sat_readHeader {file : List UInt8} :
    Sat (readHeader file : Run ω Fault _) (fun (header, rest) => file = header.bytes ++ rest)
      Rejected := by
  unfold readHeader
  apply (sat_fromFile failsWith_readExactCorrupt).bind
  rintro ⟨_, _⟩ hmagic
  obtain ⟨rfl, -⟩ := readExactCorrupt_eq_ok.mp hmagic
  apply (sat_failIf fun _ => rejected_corrupt _).bind
  intro _ hmagic
  obtain rfl := not_not.mp hmagic
  apply (sat_fromFile failsWith_readUintExact).bind
  rintro ⟨_, _⟩ hread
  obtain ⟨rfl, -⟩ := readUintExact_eq_ok.mp hread
  apply (sat_failIf fun _ => rejected_corrupt _).bind
  intro _ hversion
  obtain rfl := not_not.mp hversion
  apply (sat_fromFile failsWith_readUintExact).bind
  rintro ⟨_, _⟩ hread
  obtain ⟨rfl, -⟩ := readUintExact_eq_ok.mp hread
  apply (sat_failIf fun _ => rejected_corrupt _).bind
  intro _ hlength
  obtain rfl := not_not.mp hlength
  apply (sat_fromFile failsWith_readDigest).bind
  rintro ⟨_, _⟩ hread
  obtain rfl := readDigest_eq_ok.mp hread
  apply (sat_fromFile failsWith_readUintExact).bind
  rintro ⟨_, _⟩ hread
  obtain ⟨rfl, -⟩ := readUintExact_eq_ok.mp hread
  apply (sat_fromFile failsWith_readUintExact).bind
  rintro ⟨_, _⟩ hread
  obtain ⟨rfl, -⟩ := readUintExact_eq_ok.mp hread
  apply (sat_fromFile failsWith_readDigest).bind
  rintro ⟨_, _⟩ hread
  obtain rfl := readDigest_eq_ok.mp hread
  apply sat_pure
  simp only [Header.bytes, writeHeader, List.append_assoc]

/-- The checksum is taken of the whole payload, a buffer at a time. -/
theorem sat_checksum {bytes : List UInt8} {E : Fault → Prop} (hE : ∀ fault, Unreadable fault → E fault) :
    Sat (loop .diverged checksumTurn (bytes.length + 1)
      { remaining := bytes.length, reader := bytes, hashed := [] } : Run ω Fault _) (· = bytes) E := by
  apply sat_loop (fun state => state.hashed ++ state.reader = bytes ∧
    state.reader.length = state.remaining) ChecksumState.remaining _ _ _ ⟨rfl, rfl⟩ (Nat.lt_succ_self _)
  rintro ⟨remaining, reader, hashed⟩ ⟨hbytes, hlength⟩
  dsimp only at hbytes hlength
  unfold checksumTurn
  apply Sat.ite
  · intro hzero
    obtain rfl : reader = [] := List.length_eq_zero_iff.mp (hlength.trans hzero)
    rw [List.append_nil] at hbytes
    exact sat_pure hbytes
  · intro hne
    dsimp only at hne ⊢
    set length := min remaining (8 * 1024) with hmin
    have hread : readExactCorrupt length reader = .ok (reader.take length, reader.drop length) :=
      readExactCorrupt_eq_ok.mpr
        ⟨(List.take_append_drop ..).symm, List.length_take_of_le (by omega)⟩
    apply ((sat_fromFile_of_eq hread).mono (fun _ h => h) hE).bind
    rintro _ rfl
    apply (sat_checkedSub (by omega)).bind
    rintro _ rfl
    refine sat_pure ⟨⟨?_, ?_⟩, ?_⟩
    · show (hashed ++ reader.take length) ++ reader.drop length = bytes
      rw [List.append_assoc, List.take_append_drop, hbytes]
    · show (reader.drop length).length = remaining - length
      rw [List.length_drop, hlength]
    · show remaining - length < remaining
      omega

variable [Crates] {limits : PartitionLimits} {schemaDigest : Digest}

/-- The header of the file of a sequence of records. -/
def imageHeader (schemaDigest : Digest) (records : List KeyedEntry) : Header :=
  { schemaDigest, records := records.length, payloadBytes := (payload records).length
    checksum := Crates.blake3 (payload records) }

omit [Host ω] in
theorem length_image (records : List KeyedEntry) :
    (image schemaDigest records).length = headerBytes + (payload records).length := by
  rw [image, List.length_append, length_writeHeader]

theorem sat_validateFile_image {records : List KeyedEntry}
    (hsmall : (image schemaDigest records).length < 2 ^ 64) :
    Sat (validateFile (image schemaDigest records) schemaDigest : Run ω Fault _)
      (· = imageHeader schemaDigest records) Unreadable := by
  rw [length_image] at hsmall
  have hcount := length_le_payload records
  unfold validateFile
  apply (sat_io (Q := fun _ => True) trivial).bind
  intro _ _
  apply (sat_readHeader_image (imageHeader schemaDigest records)
    (by show records.length < _; omega) (by show (payload records).length < _; omega)).bind
  rintro _ rfl
  apply (sat_failIf fun h => absurd rfl h).bind
  intro _ _
  apply (sat_checkedAdd_of (Q := (· = headerBytes + (payload records).length))
    (fun hle => absurd hsmall (Nat.not_lt.mpr hle)) fun _ => rfl).bind
  rintro _ rfl
  apply (sat_io (Q := fun _ => True) trivial).bind
  intro _ _
  apply (sat_failIf fun h => absurd (length_image records) h).bind
  intro _ _
  apply (sat_checksum fun _ h => h).bind
  rintro _ rfl
  apply (sat_failIf fun h => absurd rfl h).bind
  intro _ _
  exact sat_pure rfl

/-- A file is valid only if its header describes it. -/
theorem sat_validateFile {file : List UInt8} :
    Sat (validateFile file schemaDigest : Run ω Fault _) (fun header =>
      header.schemaDigest = schemaDigest ∧ ∃ rest, file = header.bytes ++ rest ∧
        rest.length = header.payloadBytes ∧ header.checksum = Crates.blake3 rest) Rejected := by
  unfold validateFile
  apply ((sat_io (Q := fun _ => True) trivial).mono (fun _ h => h) fun _ h => h.rejected).bind
  intro _ _
  apply sat_readHeader.bind
  rintro ⟨header, rest⟩ rfl
  dsimp only
  apply (sat_failIf fun _ => rejected_corrupt _).bind
  intro _ hdigest
  obtain rfl := not_not.mp hdigest
  apply (sat_checkedAdd (rejected_corrupt _)).bind
  rintro _ ⟨rfl, -⟩
  apply ((sat_io (Q := fun _ => True) trivial).mono (fun _ h => h) fun _ h => h.rejected).bind
  intro _ _
  apply (sat_failIf fun _ => rejected_corrupt _).bind
  intro _ hlength
  have hrest : rest.length = header.payloadBytes := by
    rw [not_not, List.length_append, Header.bytes, length_writeHeader] at hlength
    omega
  rw [← hrest]
  apply (sat_checksum fun _ h => h.rejected).bind
  rintro _ rfl
  apply (sat_failIf fun _ => rejected_corrupt _).bind
  intro _ hchecksum
  exact sat_pure ⟨rfl, _, rfl, hrest, (not_not.mp hchecksum).symm⟩

namespace PartitionReader

/-- What the reader has yet to yield. -/
structure Reads (reader : PartitionReader) (records : List KeyedEntry) : Prop where
  reader_eq : reader.reader = payload records
  records_eq : reader.remainingRecords = records.length
  payload_eq : reader.remainingPayload = (payload records).length
  fit : ∀ record ∈ records, Fits reader.limits record

theorem sat_open_image {records : List KeyedEntry}
    (hsmall : (image schemaDigest records).length < 2 ^ 64)
    (hfit : ∀ record ∈ records, Fits limits record) :
    Sat («open» (image schemaDigest records) schemaDigest limits : Run ω Fault _)
      (Reads · records) Unreadable := by
  unfold «open»
  apply (sat_validateFile_image hsmall).bind
  rintro _ rfl
  apply (sat_io (Q := fun _ => True) trivial).bind
  intro _ _
  apply (sat_io (Q := fun _ => True) trivial).bind
  intro _ _
  refine sat_pure ⟨?_, rfl, rfl, hfit⟩
  exact List.drop_left' (length_writeHeader ..)

omit [Crates] in
/-- The next record is the first of those left. -/
theorem Reads.sat_next_cons {reader : PartitionReader} {record : KeyedEntry}
    {records : List KeyedEntry} (h : reader.Reads (record :: records)) :
    Sat (reader.next : Run ω Fault _) (fun (read, next) => read = some record ∧ next.Reads records)
      Unreadable := by
  have hfit := h.fit record (List.mem_cons_self ..)
  have hframe : payload (record :: records) = frame record ++ payload records := List.flatMap_cons
  have hlength : (payload (record :: records)).length =
      8 + (encodeRecord record).length + (payload records).length := by
    rw [hframe, List.length_append, length_frame]
  have hpayload := h.payload_eq
  have hrecords := h.records_eq
  have hlt := hfit.framed_lt
  rw [List.length_cons] at hrecords
  unfold next
  rw [if_neg (by omega), h.reader_eq, hframe, frame, encodeBytes, List.append_assoc]
  apply (sat_fromFile_of_eq (readUintExact_eq_ok.mpr ⟨rfl,
    Nat.lt_of_lt_of_eq (by omega : (encodeRecord record).length < 2 ^ 64) (by norm_num)⟩)).bind
  rintro _ rfl
  apply (sat_failIf fun hgt => absurd hfit.record_le (Nat.not_le.mpr hgt)).bind
  intro _ _
  apply (sat_checkedAdd_of (Q := (· = (encodeRecord record).length + 8))
    (fun hle => absurd hlt (Nat.not_lt.mpr hle)) fun _ => rfl).bind
  rintro _ rfl
  apply (sat_failIf fun hgt => absurd hgt (by omega)).bind
  intro _ _
  apply Sat.bind (Q := fun _ => True)
  · apply sat_lift (fun _ _ => trivial)
    intro e he
    exact absurd hfit.record_le (Nat.not_le.mpr (rejectIf_eq_error.mp he).1)
  intro _ _
  apply (sat_fromFile_of_eq (readExactCorrupt_eq_ok.mpr ⟨rfl, rfl⟩)).bind
  rintro _ rfl
  have hdecode : decodeRecord (encodeRecord record) reader.limits = .ok record :=
    decodeRecord_eq_ok.mpr ⟨rfl, hfit.fieldsFit⟩
  dsimp only
  rw [hdecode]
  apply (sat_lift (Q := (· = record)) (fun _ h => (Except.ok.inj h).symm)
    fun _ h => absurd h (by simp)).bind
  rintro _ rfl
  apply (sat_checkedSub (by omega)).bind
  rintro _ rfl
  apply (sat_checkedSub (by omega)).bind
  rintro _ rfl
  refine sat_pure ⟨rfl, rfl, ?_, ?_, fun other hother => h.fit other (List.mem_cons_of_mem _ hother)⟩
  · show reader.remainingRecords - 1 = _
    omega
  · show reader.remainingPayload - _ = _
    omega

omit [Crates] in
/-- A reader that has yielded everything comes to a clean end. -/
theorem Reads.sat_next_nil {reader : PartitionReader} (h : reader.Reads []) :
    Sat (reader.next : Run ω Fault _) (fun (read, next) => read = none ∧ next = reader)
      Unreadable := by
  have hzero : reader.remainingRecords = 0 := h.records_eq
  unfold next
  rw [if_pos hzero]
  apply (sat_failIf fun hne => absurd h.payload_eq hne).bind
  intro _ _
  apply (sat_io (Q := fun _ => True) trivial).bind
  intro _ _
  apply (sat_failIf fun hne => absurd h.reader_eq hne).bind
  intro _ _
  exact sat_pure ⟨rfl, rfl⟩

/-- What a reader of any file has yielded, and what the header still promises. -/
structure Consumed (reader : PartitionReader) (limits : PartitionLimits) (header : Header)
    (bytes : List UInt8) (records : List KeyedEntry) : Prop where
  limits_eq : reader.limits = limits
  bytes_eq : bytes = payload records ++ reader.reader
  payload_eq : header.payloadBytes = (payload records).length + reader.remainingPayload
  records_eq : header.records = records.length + reader.remainingRecords
  fit : ∀ record ∈ records, Fits limits record

omit [Crates] in
theorem Consumed.sat_next {reader : PartitionReader} {header : Header} {bytes : List UInt8}
    {records : List KeyedEntry} (h : reader.Consumed limits header bytes records) :
    Sat (reader.next : Run ω Fault _) (fun (read, next) => match read with
      | some record => next.Consumed limits header bytes (records ++ [record]) ∧
          next.remainingRecords < reader.remainingRecords
      | none => bytes = payload records ∧ header.payloadBytes = (payload records).length ∧
          header.records = records.length) Rejected := by
  have hpayload := h.payload_eq
  have hrecords := h.records_eq
  unfold next
  apply Sat.ite
  -- no record is left, and nothing of the payload or of the file may be
  · intro hzero
    apply (sat_failIf fun _ => rejected_corrupt _).bind
    intro _ hne
    apply ((sat_io (Q := fun _ => True) trivial).mono (fun _ h => h) fun _ h => h.rejected).bind
    intro _ _
    apply (sat_failIf fun _ => rejected_corrupt _).bind
    intro _ hrest
    refine sat_pure ⟨?_, by omega, by omega⟩
    rw [h.bytes_eq, not_not.mp hrest, List.append_nil]
  -- a record more, within what the header leaves
  · intro hzero
    apply (sat_fromFile failsWith_readUintExact).bind
    rintro ⟨recordBytes, rest⟩ hread
    obtain ⟨hreader, -⟩ := readUintExact_eq_ok.mp hread
    dsimp only
    apply (sat_failIf fun _ => rejected_corrupt _).bind
    intro _ hle
    apply (sat_checkedAdd (rejected_corrupt _)).bind
    rintro _ ⟨rfl, hframed⟩
    apply (sat_failIf fun _ => rejected_corrupt _).bind
    intro _ hpayload'
    apply Sat.bind (Q := fun _ => True)
    · apply sat_lift (fun _ _ => trivial)
      intro e he
      exact absurd (rejectIf_eq_error.mp he).1 hle
    intro _ _
    apply (sat_fromFile failsWith_readExactCorrupt).bind
    rintro ⟨encoded, rest'⟩ hread
    obtain ⟨rfl, rfl⟩ := readExactCorrupt_eq_ok.mp hread
    apply (sat_lift (Q := fun record => decodeRecord encoded reader.limits = .ok record)
      (fun _ h => h) fun e he => (failsWith_decodeRecord e he).rejected).bind
    intro record hdecode
    obtain ⟨rfl, hfields⟩ := decodeRecord_eq_ok.mp hdecode
    apply (sat_checkedSub (by omega)).bind
    rintro _ rfl
    apply (sat_checkedSub (by omega)).bind
    rintro _ rfl
    refine sat_pure ⟨⟨h.limits_eq, ?_, ?_, ?_, ?_⟩, ?_⟩
    · show bytes = payload (records ++ [record]) ++ rest'
      rw [h.bytes_eq, hreader, payload_append, frame, encodeBytes]
      simp only [List.append_assoc]
    · rw [payload_append, List.length_append, length_frame]
      dsimp only
      omega
    · rw [List.length_append, List.length_singleton]
      dsimp only
      omega
    · intro other hother
      rcases List.mem_append.mp hother with hother | hother
      · exact h.fit other hother
      · obtain rfl := List.mem_singleton.mp hother
        rw [← h.limits_eq]
        exact ⟨⟨Nat.le_of_not_lt hle, hframed, hfields.columns_lt⟩, hfields.columns_le⟩
    · show reader.remainingRecords - 1 < _
      omega

end PartitionReader

end Reader

end ProofFrame.Diff
