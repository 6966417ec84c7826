import ProofFrame.Encoding.Keys
import ProofFrame.Execution.Resource
import ProofFrame.Lib.Steps

/-!
# Diff partitions

A partition is a temporary file of keyed rows: a 92-byte header, the records,
and in the header a checksum of the records.  The writer leaves room for the
header and fills it in at the end; the reader checks the file as a whole before
it reads a record, and every length while it does.

Only the diff itself knows the path of the file, so a writer carries what it has
written and a reader what it has not read.
-/

namespace ProofFrame.Diff

open Lib Lib.Run

def partitions : ℕ := 64

def writerBufferBytes : ℕ := 8 * 1024

/-- `PFPART02` -/
def magic : List UInt8 := [0x50, 0x46, 0x50, 0x41, 0x52, 0x54, 0x30, 0x32]

def version : ℕ := 2

def headerBytes : ℕ := 92

def corrupt (message : String) : Fault := .error (.corruptData message)

structure PartitionLimits where
  maxRecordBytes : ℕ
  maxColumns : ℕ
  deriving DecidableEq, Repr

structure RowEntry where
  displayKey : String
  values : List (Option (List UInt8))
  hash : Digest
  deriving DecidableEq

/-- A record of a partition: the canonical key of a row and what the diff keeps of the row. -/
abbrev KeyedEntry : Type := List UInt8 × RowEntry

variable {ω τ : Type} [Host ω]

/-! ## Writing -/

/-- `encode_bytes`. -/
def encodeBytes (bytes : List UInt8) : List UInt8 := Bytes.toLe 8 bytes.length ++ bytes

/-- The length that stands for a null value: `u64::MAX`. -/
def nullLength : ℕ := 2 ^ 64 - 1

def encodeValue : Option (List UInt8) → List UInt8
  | some bytes => encodeBytes bytes
  | none => Bytes.toLe 8 nullLength

/-- What `write_record` puts into its scratch buffer. -/
def encodeRecord (record : KeyedEntry) : List UInt8 :=
  encodeBytes record.1 ++ encodeBytes (utf8Bytes record.2.displayKey) ++ record.2.hash.val ++
    Bytes.toLe 4 record.2.values.length ++ record.2.values.flatMap encodeValue

/-- `encoded_record_bytes`. -/
def encodedRecordBytes (record : KeyedEntry) : Run ω Fault ℕ := do
  let overflow := "Diff record length overflowed"
  let bytes ← checkedAdd overflow 8 record.1.length
  let bytes ← checkedAdd overflow bytes 8
  let bytes ← checkedAdd overflow bytes record.2.displayKey.utf8ByteSize
  let bytes ← checkedAdd overflow bytes (32 + 4)
  record.2.values.foldlM (fun bytes value => do
    let bytes ← checkedAdd overflow bytes 8
    match value with
    | some value => checkedAdd overflow bytes value.length
    | none => pure bytes) bytes

/-- `write_all`.  The size of a file is an `i64` to the operating system. -/
def writeAll (file bytes : List UInt8) : Run ω Fault (List UInt8) := do
  ioOperation .writeFile
  failIf (2 ^ 63 ≤ file.length + bytes.length) (.error (.io "File too large"))
  pure (file ++ bytes)

structure PartitionWriter where
  /-- What has been written to the file. -/
  file : List UInt8
  schemaDigest : Digest
  records : ℕ
  payloadBytes : ℕ
  /-- What the hasher was fed. -/
  hashed : List UInt8
  scratchCapacity : ℕ

namespace PartitionWriter

def create (schemaDigest : Digest) : Run ω Fault PartitionWriter := do
  ioOperation .createFile
  let file ← writeAll [] (List.replicate headerBytes 0)
  pure { file, schemaDigest, records := 0, payloadBytes := 0, hashed := [], scratchCapacity := 0 }

/-- `write_record`.  The temporary storage is reserved by the caller, who keeps its own state. -/
def writeRecord (writer : PartitionWriter) (record : KeyedEntry) (maxRecordBytes : ℕ)
    (reserveMemory : ℕ → Run ω Fault Unit) (reserveTemp : ℕ → Run ω Fault τ) :
    Run ω Fault (PartitionWriter × τ) := do
  let required ← encodedRecordBytes record
  failIf (required > maxRecordBytes)
    (.error (.resourceLimit "diff partition record bytes" required 0 maxRecordBytes))
  whenever (required > writer.scratchCapacity) (reserveMemory (required - writer.scratchCapacity))
  failIf (2 ^ 32 ≤ record.2.values.length) (corrupt "Diff row has more than u32 columns")
  let scratch := encodeRecord record
  let framedBytes ← checkedAdd "Diff partition payload length overflowed" scratch.length 8
  let temp ← reserveTemp framedBytes
  let length := Bytes.toLe 8 scratch.length
  let file ← writeAll writer.file length
  let file ← writeAll file scratch
  let records ← checkedAdd "Diff partition record count overflowed" writer.records 1
  let payloadBytes ←
    checkedAdd "Diff partition payload length overflowed" writer.payloadBytes framedBytes
  pure ({ writer with
    file, records, payloadBytes
    hashed := writer.hashed ++ length ++ scratch
    scratchCapacity := max writer.scratchCapacity required }, temp)

end PartitionWriter

/-- `write_header`. -/
def writeHeader (schemaDigest : Digest) (records payloadBytes : ℕ) (checksum : Digest) :
    List UInt8 :=
  magic ++ Bytes.toLe 2 version ++ Bytes.toLe 2 headerBytes ++ schemaDigest.val ++
    Bytes.toLe 8 records ++ Bytes.toLe 8 payloadBytes ++ checksum.val

/-- `PartitionWriter::finish`: flush, write the header over its room, and sync. -/
def PartitionWriter.finish [Crates] (writer : PartitionWriter) : Run ω Fault (List UInt8) := do
  ioOperation .writeFile
  let checksum := Crates.blake3 writer.hashed
  ioOperation .writeFile
  let header := writeHeader writer.schemaDigest writer.records writer.payloadBytes checksum
  ioOperation .writeFile
  ioOperation .syncFile
  pure (header ++ writer.file.drop headerBytes)

/-! ## Decoding -/

/-- `read_exact_corrupt` of a reader in memory. -/
def readExactCorrupt (count : ℕ) (reader : List UInt8) :
    Except Fault (List UInt8 × List UInt8) :=
  required (Bytes.split count reader) (corrupt "Diff partition is truncated")

/-- `read_u16_exact`, `read_u32_exact` and `read_u64_exact`, by their width. -/
def readUintExact (width : ℕ) (reader : List UInt8) : Except Fault (ℕ × List UInt8) := do
  let (bytes, reader) ← readExactCorrupt width reader
  .ok (Bytes.ofLe bytes, reader)

/-- `vec![0_u8; length]`.  No caller asks for more than `maxBytes`: one that did would fault here,
and `sat_readPartition` says that none does.  Limits stay below `2 ^ 63`, the most an allocation can
be asked for. -/
def newBuffer (maxBytes length : ℕ) : Except Fault Unit :=
  rejectIf (length > maxBytes) (.panic "buffer larger than max_record_bytes")

/-- `decode_bytes_with_length`. -/
def decodeBytesWithLength (reader : List UInt8) (length maxBytes : ℕ) :
    Except Fault (List UInt8 × List UInt8) := do
  rejectIf (length > maxBytes) (corrupt "Diff field length exceeds max_record_bytes")
  newBuffer maxBytes length
  readExactCorrupt length reader

def decodeBytes (reader : List UInt8) (maxBytes : ℕ) : Except Fault (List UInt8 × List UInt8) := do
  let (length, reader) ← readUintExact 8 reader
  decodeBytesWithLength reader length maxBytes

/-- The loop of `decode_record` over the values. -/
def decodeValues (maxBytes : ℕ) :
    ℕ → List UInt8 → Except Fault (List (Option (List UInt8)) × List UInt8)
  | 0, reader => .ok ([], reader)
  | count + 1, reader => do
      let (length, reader) ← readUintExact 8 reader
      if length = nullLength then
        let (values, reader) ← decodeValues maxBytes count reader
        .ok (none :: values, reader)
      else
        let (bytes, reader) ← decodeBytesWithLength reader length maxBytes
        let (values, reader) ← decodeValues maxBytes count reader
        .ok (some bytes :: values, reader)

/-- `read_exact_corrupt` into an array of 32 bytes. -/
def readDigest (reader : List UInt8) : Except Fault (Digest × List UInt8) :=
  match h : Bytes.split 32 reader with
  | some (bytes, rest) => .ok (⟨bytes, Bytes.length_of_split h⟩, rest)
  | none => .error (corrupt "Diff partition is truncated")

def decodeRecord (encoded : List UInt8) (limits : PartitionLimits) : Except Fault KeyedEntry := do
  let (key, reader) ← decodeBytes encoded limits.maxRecordBytes
  let (display, reader) ← decodeBytes reader limits.maxRecordBytes
  let displayKey ← required (String.fromUTF8? display.toByteArray)
    (corrupt "Diff display key is not valid UTF-8")
  let (hash, reader) ← readDigest reader
  let (valueCount, reader) ← readUintExact 4 reader
  rejectIf (valueCount > limits.maxColumns) (corrupt "Diff value count exceeds max_columns")
  let (values, reader) ← decodeValues limits.maxRecordBytes valueCount reader
  rejectIf (reader ≠ []) (corrupt "Diff record contains trailing bytes")
  .ok (key, { displayKey, values, hash })

/-! ## Reading -/

/-- Perform a read of the file. -/
def fromFile {α : Type} (step : Except Fault α) : Run ω Fault α := do
  ioOperation .readFile
  lift step

/-- Subtract with the overflow check of a `u64` subtraction. -/
def checkedSub (a b : ℕ) : Run ω Fault ℕ := do
  failIf (a < b) (.panic "attempt to subtract with overflow")
  pure (a - b)

structure Header where
  schemaDigest : Digest
  records : ℕ
  payloadBytes : ℕ
  checksum : Digest

/-- `read_header`; the bytes after the header are the second component. -/
def readHeader (reader : List UInt8) : Run ω Fault (Header × List UInt8) := do
  let (magicBytes, reader) ← fromFile (readExactCorrupt 8 reader)
  failIf (magicBytes ≠ magic) (corrupt "Diff partition magic is invalid")
  let (versionRead, reader) ← fromFile (readUintExact 2 reader)
  failIf (versionRead ≠ version) (corrupt "Diff partition version is unsupported")
  let (headerLength, reader) ← fromFile (readUintExact 2 reader)
  failIf (headerLength ≠ headerBytes) (corrupt "Diff partition header length is invalid")
  let (schemaDigest, reader) ← fromFile (readDigest reader)
  let (records, reader) ← fromFile (readUintExact 8 reader)
  let (payloadBytes, reader) ← fromFile (readUintExact 8 reader)
  let (checksum, reader) ← fromFile (readDigest reader)
  pure ({ schemaDigest, records, payloadBytes, checksum }, reader)

/-- The payload a checksum is taken of: what is left of it, of the file, and what was hashed. -/
structure ChecksumState where
  remaining : ℕ
  reader : List UInt8
  hashed : List UInt8

/-- One turn of the checksum loop: at most a buffer's worth of the payload. -/
def checksumTurn (state : ChecksumState) : Run ω Fault (Turn ChecksumState (List UInt8)) := do
  if state.remaining = 0 then pure (.leave state.hashed)
  else
    let length := min state.remaining (8 * 1024)
    let (bytes, reader) ← fromFile (readExactCorrupt length state.reader)
    let remaining ← checkedSub state.remaining length
    pure (.again { remaining, reader, hashed := state.hashed ++ bytes })

section Reader

variable [Crates]

/-- `validate_file`. -/
def validateFile (file : List UInt8) (expectedSchema : Digest) : Run ω Fault Header := do
  ioOperation .openFile
  let (header, reader) ← readHeader file
  failIf (header.schemaDigest ≠ expectedSchema) (corrupt "Diff partition schema digest is invalid")
  let expectedLength ←
    checkedAdd "Diff partition file length overflowed" headerBytes header.payloadBytes
  ioOperation .readFile
  failIf (file.length ≠ expectedLength) (corrupt "Diff partition file length is invalid")
  let start := { remaining := header.payloadBytes, reader, hashed := [] }
  let hashed ← loop .diverged checksumTurn (header.payloadBytes + 1) start
  failIf (Crates.blake3 hashed ≠ header.checksum)
    (corrupt "Diff partition payload checksum is invalid")
  pure header

structure PartitionReader where
  /-- The unread bytes of the file. -/
  reader : List UInt8
  remainingRecords : ℕ
  remainingPayload : ℕ
  limits : PartitionLimits

namespace PartitionReader

/-- `PartitionReader::open`. -/
def «open» (file : List UInt8) (expectedSchema : Digest) (limits : PartitionLimits) :
    Run ω Fault PartitionReader := do
  let header ← validateFile file expectedSchema
  ioOperation .openFile
  ioOperation .readFile
  pure { reader := file.drop headerBytes, remainingRecords := header.records
         remainingPayload := header.payloadBytes, limits }

omit [Crates] in
/-- `PartitionReader::next`. -/
def next (reader : PartitionReader) : Run ω Fault (Option KeyedEntry × PartitionReader) := do
  if reader.remainingRecords = 0 then
    failIf (reader.remainingPayload ≠ 0)
      (corrupt "Diff partition record count leaves payload bytes")
    ioOperation .readFile
    failIf (reader.reader ≠ []) (corrupt "Diff partition has trailing payload")
    pure (none, reader)
  else
    let (recordBytes, rest) ← fromFile (readUintExact 8 reader.reader)
    failIf (recordBytes > reader.limits.maxRecordBytes)
      (corrupt "Diff partition record exceeds max_record_bytes")
    let framedBytes ← checkedAdd "Diff record framing overflowed" recordBytes 8
    failIf (framedBytes > reader.remainingPayload)
      (corrupt "Diff record crosses the partition payload boundary")
    lift (newBuffer reader.limits.maxRecordBytes recordBytes)
    let (encoded, rest) ← fromFile (readExactCorrupt recordBytes rest)
    let record ← lift (decodeRecord encoded reader.limits)
    let remainingRecords ← checkedSub reader.remainingRecords 1
    let remainingPayload ← checkedSub reader.remainingPayload framedBytes
    pure (some record, { reader with reader := rest, remainingRecords, remainingPayload })

end PartitionReader

end Reader

end ProofFrame.Diff
