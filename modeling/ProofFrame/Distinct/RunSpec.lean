import ProofFrame.Distinct.Run

/-!
# What a run holds and what its cursor reads

`RunMeta.Holds` says which records a run file stands for, `RunCursor.Reads`
which records a cursor has still to return.  Opening a run that holds a list of
records gives a cursor that reads that list, and each `next` takes its head, so
the file format disappears behind the two relations.
-/

namespace ProofFrame.Distinct

open Lib Lib.Run

/-! ## The faults of exact state -/

/-- The codes of the errors exact state can end in: those of its surroundings, and that of a
record or a file too large for the run format. -/
def exactCodes : List ErrorCode := [.resourceLimit, .io, .cancelled, .corruptPartition]

abbrev ExactFault : Fault → Prop := Fault.Coded exactCodes

theorem exactFault_corrupt (message : String) : ExactFault (corrupt message) := by
  show ErrorCode.corruptPartition ∈ exactCodes
  decide

theorem exactFault_of_environmental {fault : Fault} (h : Environmental fault) : ExactFault fault :=
  h.mono (by decide)

variable {ω : Type}

theorem Sat.exact {α : Type} {m : Run ω Fault α} {Q : α → Prop} (h : Sat m Q Environmental) :
    Sat m Q ExactFault :=
  h.mono (fun _ hQ => hQ) fun _ => exactFault_of_environmental

theorem sat_checkCancelled_exact [Host ω] :
    Sat (checkCancelled : Run ω Fault Unit) (fun _ => True) ExactFault :=
  Sat.exact (sat_checkCancelled trivial)

theorem sat_io_exact [Host ω] (operation : IoOperation) :
    Sat (ioOperation operation : Run ω Fault Unit) (fun _ => True) ExactFault :=
  Sat.exact (sat_ioOperation trivial)

theorem sat_reserve_exact [Host ω] (account : ResourceAccount) (kind : ResourceKind) (bytes : ℕ) :
    Sat (reserve account kind bytes : Run ω Fault Unit) (fun _ => True) ExactFault :=
  Sat.exact (sat_reserve trivial)

theorem sat_checkedAdd_exact (message : String) (a b : ℕ) :
    Sat (checkedAdd message a b : Run ω Fault ℕ) (fun n => n = a + b ∧ a + b < 2 ^ 64)
      ExactFault :=
  sat_checkedAdd (exactFault_corrupt message)

theorem sat_checkedMul_exact (message : String) (a b : ℕ) :
    Sat (checkedMul message a b : Run ω Fault ℕ) (fun n => n = a * b ∧ a * b < 2 ^ 64)
      ExactFault :=
  sat_checkedMul (exactFault_corrupt message)

theorem sat_failIf_corrupt {c : Prop} [Decidable c] {message : String} :
    Sat (failIf c (corrupt message) : Run ω Fault Unit) (fun _ => ¬c) ExactFault :=
  sat_failIf fun _ => exactFault_corrupt message

theorem sat_someOr_corrupt {α : Type} {value : Option α} {message : String} :
    Sat (someOr value (corrupt message) : Run ω Fault α) (fun a => value = some a) ExactFault :=
  sat_someOr fun _ => exactFault_corrupt message

/-! ## Contents -/

/-- The records can be written to a run of the given kind. -/
structure Storable (kind : ValueKind) (records : List Record) : Prop where
  kind_eq : ∀ record ∈ records, record.value.kind = kind
  length_lt : ∀ record ∈ records, record.value.byteLength < 2 ^ 32

theorem Storable.nil (kind : ValueKind) : Storable kind [] := ⟨by simp, by simp⟩

theorem Storable.subset {kind : ValueKind} {records records' : List Record}
    (h : Storable kind records) (hsub : records' ⊆ records) : Storable kind records' :=
  ⟨fun record hrecord => h.kind_eq record (hsub hrecord),
    fun record hrecord => h.length_lt record (hsub hrecord)⟩

/-- The records a cursor has still to return. -/
structure RunCursor.Reads (cursor : RunCursor) (records : List Record) : Prop where
  reader_eq : cursor.reader = encodeAll records
  remaining_eq : cursor.remaining = records.length
  payload_eq : cursor.payloadRemaining = (encodeAll records).length
  storable : Storable cursor.kind records

/-- The records a run file stands for, in ascending order. -/
structure RunMeta.Holds [Crates] (run : RunMeta) (records : List Record) : Prop where
  file_eq : run.file = header run.kind records.length (encodeAll records).length run.checksum.val ++
    encodeAll records
  checksum_eq : run.checksum = Crates.blake3 (encodeAll records)
  records_eq : run.records = records.length
  payload_eq : run.payloadBytes = (encodeAll records).length
  storable : Storable run.kind records
  sorted : records.Pairwise (· ≤ ·)
  size_lt : headerBytes + (encodeAll records).length < 2 ^ 64

theorem length_header (kind : ValueKind) (records payloadBytes : ℕ) (checksum : Digest) :
    (header kind records payloadBytes checksum.val).length = headerBytes := by
  simp [header, magic, headerBytes, checksum.property]

/-- A record takes at least the eight bytes of its row. -/
theorem length_le_encodeAll (records : List Record) :
    records.length ≤ (encodeAll records).length := by
  induction records with
  | nil => rfl
  | cons record records ih =>
      rw [encodeAll_cons, Record.encode]
      simp only [List.length_cons, List.length_append, Bytes.length_toLe]
      omega

/-! ## Reading a record -/

/-- The fault of a byte value longer than the reader admits. -/
def tooLong : Fault := corrupt "Exact run byte length exceeds its bounded payload"

/-- The reader admits the value. -/
def OwnedValue.Readable (value : OwnedValue) : Prop := value.byteLength ≤ maxRecordBytes

/-- What reading well-formed records can end in: a fault of the file system, or the refusal of a
value that is not readable. -/
def ReadFault (E : Fault → Prop) (records : List Record) (fault : Fault) : Prop :=
  E fault ∨ fault = tooLong ∧ ∃ record ∈ records, ¬record.value.Readable

theorem ReadFault.subset {E : Fault → Prop} {records records' : List Record} {fault : Fault}
    (h : ReadFault E records fault) (hsub : records ⊆ records') : ReadFault E records' fault := by
  rcases h with h | ⟨rfl, record, hrecord, hlong⟩
  · exact .inl h
  · exact .inr ⟨rfl, record, hsub hrecord, hlong⟩

theorem ReadFault.exact {records : List Record} {fault : Fault}
    (h : ReadFault ExactFault records fault) : ExactFault fault := by
  rcases h with h | ⟨rfl, -⟩
  · exact h
  · exact exactFault_corrupt _

theorem ofNat_ofLe_toLe (value : UInt64) :
    UInt64.ofNat (Bytes.ofLe (Bytes.toLe 8 value.toNat)) = value := by
  rw [Bytes.ofLe_toLe, Nat.mod_eq_of_lt (by simpa using value.toNat_lt)]
  exact UInt64.ofNat_toNat

variable [Host ω] {E : Fault → Prop}
  (hio : ∀ operation, Sat (ioOperation operation : Run ω Fault Unit) (fun _ => True) E)

include hio

theorem sat_readExact {reader field rest : List UInt8} {count : ℕ} (hreader : reader = field ++ rest)
    (hlength : field.length = count) :
    Sat (readExact count reader : Run ω Fault _) (· = (field, rest)) E := by
  refine (hio _).bind fun _ _ => ?_
  rw [hreader, Bytes.split_append hlength]
  exact sat_pure rfl

theorem RunCursor.sat_readPayload {cursor : RunCursor} {field rest : List UInt8} {count : ℕ}
    (hreader : cursor.reader = field ++ rest) (hlength : field.length = count)
    (hpayload : count ≤ cursor.payloadRemaining) :
    Sat (cursor.readPayload count : Run ω Fault _)
      (· = (field, { cursor with reader := rest
                                 payloadRemaining := cursor.payloadRemaining - count })) E := by
  refine (sat_failIf fun hcross => ?_).bind fun _ _ => ?_
  · omega
  refine (sat_readExact hio hreader hlength).bind fun r hr => ?_
  subst hr
  exact sat_pure rfl

/-- Eight bytes of the row follow the value in the payload. -/
theorem RunCursor.sat_readValue {cursor : RunCursor} {value : OwnedValue} {rest : List UInt8}
    (hreader : cursor.reader = value.encode ++ rest) (hkind : value.kind = cursor.kind)
    (hlength : value.byteLength < 2 ^ 32)
    (hpayload : value.encode.length + 8 ≤ cursor.payloadRemaining) :
    Sat (cursor.readValue : Run ω Fault _)
      (fun r => value.Readable ∧ r = (value, { cursor with
        reader := rest
        payloadRemaining := cursor.payloadRemaining - value.encode.length }))
      (fun fault => E fault ∨ fault = tooLong ∧ ¬value.Readable) := by
  have hmono : ∀ {α : Type} {m : Run ω Fault α} {Q : α → Prop}, Sat m Q E →
      Sat m Q (fun fault => E fault ∨ fault = tooLong ∧ ¬value.Readable) :=
    fun h => h.mono (fun _ hQ => hQ) fun _ => .inl
  unfold RunCursor.readValue
  rw [← hkind]
  cases value with
  | bytes value =>
      simp only [OwnedValue.encode, List.append_assoc, List.length_append, Bytes.length_toLe]
        at hreader hpayload
      refine (hmono (sat_readPayload hio hreader (Bytes.length_toLe ..) (by omega))).bind
        fun r hr => ?_
      subst hr
      have hdecoded : Bytes.ofLe (Bytes.toLe 4 value.length) = value.length := by
        rw [Bytes.ofLe_toLe, Nat.mod_eq_of_lt (by simpa [OwnedValue.byteLength] using hlength)]
      dsimp only
      rw [hdecoded]
      have hreadable : (OwnedValue.bytes value).Readable ↔ value.length ≤ maxRecordBytes := .rfl
      have hrefused : (value.length > maxRecordBytes ∨
          value.length > cursor.payloadRemaining - 4 - 8) → ¬(OwnedValue.bytes value).Readable := by
        rw [hreadable]
        omega
      refine (sat_failIf fun hbound => .inr ⟨rfl, hrefused hbound⟩).bind fun _ hbound => ?_
      have hvalue : Sat (RunCursor.readPayload { cursor with
            reader := value ++ rest
            payloadRemaining := cursor.payloadRemaining - 4 } value.length : Run ω Fault _) _ E :=
        sat_readPayload hio rfl rfl (by dsimp only; omega)
      refine (hmono hvalue).bind fun r hr => sat_pure ⟨?_, ?_⟩
      · rw [hreadable]
        omega
      · simp [hr, OwnedValue.encode, Nat.sub_sub, hkind]
  | _ =>
      simp only [OwnedValue.encode, Bytes.length_toLe] at hreader hpayload
      refine (hmono (sat_readPayload hio hreader (Bytes.length_toLe ..) (by omega))).bind
        fun r hr => sat_pure ⟨Nat.zero_le _, ?_⟩
      simp [hr, OwnedValue.encode, ofNat_ofLe_toLe, hkind]

/-- `next` returns the head of the records the cursor reads and reads on from their tail. -/
theorem RunCursor.sat_next {cursor : RunCursor} {records : List Record}
    (h : cursor.Reads records) :
    Sat (cursor.next : Run ω Fault _)
      (fun r => r.1 = records.head? ∧ r.2.Reads records.tail ∧
        ∀ record ∈ records.head?, record.value.Readable)
      (ReadFault E records) := by
  have hmono : ∀ {α : Type} {m : Run ω Fault α} {Q : α → Prop}, Sat m Q E →
      Sat m Q (ReadFault E records) :=
    fun h => h.mono (fun _ hQ => hQ) fun _ => .inl
  unfold RunCursor.next
  cases records with
  | nil =>
      rw [if_pos (by rw [h.remaining_eq, List.length_nil])]
      have hend : Sat (cursor.verifyEnd : Run ω Fault Unit) (fun _ => True) E := by
        refine (sat_failIf fun hrest => absurd h.payload_eq hrest).bind fun _ _ => ?_
        refine (hio _).bind fun _ _ => ?_
        exact (sat_failIf fun hrest => absurd h.reader_eq hrest).post fun _ _ => trivial
      exact (hmono hend).bind fun _ _ => sat_pure ⟨rfl, h, by simp⟩
  | cons record records =>
      rw [if_neg (by rw [h.remaining_eq, List.length_cons]; omega)]
      have hreader : cursor.reader =
          record.value.encode ++ (Bytes.toLe 8 record.row.toNat ++ encodeAll records) := by
        rw [h.reader_eq, encodeAll_cons, Record.encode, List.append_assoc]
      have hkind := h.storable.kind_eq record (List.mem_cons_self ..)
      have hlength := h.storable.length_lt record (List.mem_cons_self ..)
      have hpayload := h.payload_eq
      simp only [encodeAll_cons, Record.encode, List.length_append, Bytes.length_toLe] at hpayload
      refine ((sat_readValue hio hreader hkind hlength (by omega)).mono (fun _ hQ => hQ) ?_).bind
        fun r hr => ?_
      · rintro fault (hfault | ⟨rfl, hlong⟩)
        · exact .inl hfault
        · exact .inr ⟨rfl, record, List.mem_cons_self .., hlong⟩
      obtain ⟨hreadable, rfl⟩ := hr
      refine (hmono (sat_readPayload hio rfl (Bytes.length_toLe ..) (by dsimp only; omega))).bind
        fun r hr => sat_pure ?_
      subst hr
      refine ⟨by simp [ofNat_ofLe_toLe], ⟨rfl, ?_, ?_, ?_⟩, by simpa using hreadable⟩
      · simp [h.remaining_eq]
      · simp only [List.tail_cons]
        omega
      · exact h.storable.subset (List.subset_cons_self ..)

/-! ## Opening a run -/

variable [Crates]

theorem RunCursor.sat_open {run : RunMeta} {records : List Record} (h : run.Holds records) :
    Sat (RunCursor.open run : Run ω Fault _) (fun cursor => cursor.Reads records) E := by
  unfold RunCursor.open
  refine (hio _).bind fun _ _ => ?_
  refine (sat_failIf fun hlength => absurd ?_ hlength).bind fun _ _ => ?_
  · rw [h.file_eq, List.length_append, length_header, h.payload_eq]
  have hfile : run.file = magic ++ (Bytes.toLe 2 version ++ ([run.kind.tag, 0] ++
      (Bytes.toLe 8 records.length ++ (Bytes.toLe 8 (encodeAll records).length ++
        (run.checksum.val ++ encodeAll records))))) := by
    rw [h.file_eq, header]
    simp only [List.append_assoc]
  refine (sat_readExact hio hfile rfl).bind fun r hr => ?_
  subst hr
  refine (sat_failIf fun hmagic => absurd rfl hmagic).bind fun _ _ => ?_
  refine (sat_readExact hio rfl (Bytes.length_toLe ..)).bind fun r hr => ?_
  subst hr
  refine (sat_failIf fun hversion => absurd (by decide) hversion).bind fun _ _ => ?_
  have hkindBytes : [run.kind.tag, 0].length = 2 := rfl
  refine (sat_readExact hio rfl hkindBytes).bind fun r hr => ?_
  subst hr
  dsimp only
  rw [List.headD_cons, ValueKind.fromTag_tag]
  refine (sat_pure (Q := (· = run.kind)) rfl).bind fun kind hkind => ?_
  refine (sat_readExact hio rfl (Bytes.length_toLe ..)).bind fun r hr => ?_
  subst hr
  refine (sat_readExact hio rfl (Bytes.length_toLe ..)).bind fun r hr => ?_
  subst hr
  refine (sat_readExact hio rfl run.checksum.property).bind fun r hr => ?_
  subst hr
  dsimp only
  have hsize := h.size_lt
  have hcount := length_le_encodeAll records
  have hrecordBytes : Bytes.ofLe (Bytes.toLe 8 records.length) = records.length := by
    rw [Bytes.ofLe_toLe, Nat.mod_eq_of_lt (by omega)]
  have hpayloadBytes :
      Bytes.ofLe (Bytes.toLe 8 (encodeAll records).length) = (encodeAll records).length := by
    rw [Bytes.ofLe_toLe, Nat.mod_eq_of_lt (by omega)]
  rw [hrecordBytes, hpayloadBytes]
  refine (sat_failIf fun hchanged => ?_).bind fun _ _ => sat_pure ?_
  · rcases hchanged with hchanged | hchanged | hchanged | hchanged
    · exact absurd hkind hchanged
    · exact absurd h.records_eq.symm hchanged
    · exact absurd h.payload_eq.symm hchanged
    · exact absurd rfl hchanged
  · exact ⟨rfl, rfl, rfl, hkind ▸ h.storable⟩

end ProofFrame.Distinct
