import ProofFrame.Distinct.StateSpec

/-!
# Runs are read back as they were written

Every run an exact state makes, from a segment or by any number of compactions,
holds the records it was made of, and a cursor drained over it returns exactly
these, with one exception.  A value may be inserted with up to 2³² - 1 bytes and
is then written, but the cursor refuses every value of more than 64 MiB as
corrupt.
-/

namespace ProofFrame.Distinct

open Lib Lib.Run

section Programs

variable {ω : Type} [Host ω]

/-- Ask the cursor for one more record. -/
def collectTurn (state : RunCursor × List Record) :
    Run ω Fault (Turn (RunCursor × List Record) (List Record)) := do
  let (record, cursor) ← state.1.next
  match record with
  | some record => pure (.again (cursor, state.2 ++ [record]))
  | none => pure (.leave state.2)

/-- Open a run and read it to its end. -/
def readRun (run : RunMeta) : Run ω Fault (List Record) := do
  let cursor ← RunCursor.open run
  loop .diverged collectTurn (cursor.remaining + 1) (cursor, [])

end Programs

variable [Crates]

/-- A run and the records it was made of, whatever the surroundings did while it was made. -/
inductive Produced : RunMeta → List Record → Prop where
  /-- A segment of fixed-width values. -/
  | fixed {ω : Type} [Host ω] {kind : ValueKind} {records : List Record}
      {account : ResourceAccount} {world next : ω} {run : RunMeta}
      (hkind : kind ≠ .bytes) (hrecords : Storable kind records)
      (hwrite : writeFixed kind (sortRecords records) account world = .ok (run, next)) :
      Produced run (sortRecords records)
  /-- A segment of byte values. -/
  | bytes {ω : Type} [Host ω] {records : List Record} {account : ResourceAccount}
      {world next : ω} {run : RunMeta} (hrecords : Storable .bytes records)
      (hwrite : writeBytes (sortRecords records) account world = .ok (run, next)) :
      Produced run (sortRecords records)
  /-- The compaction of other runs. -/
  | compacted {ω : Type} [Host ω] {runs : List RunMeta} {contents : RunMeta → List Record}
      {account : ResourceAccount} {world next : ω} {run : RunMeta}
      (hruns : ∀ source ∈ runs, Produced source (contents source))
      (hcompact : compact runs account world = .ok (run, next)) :
      Produced run (sortRecords (runs.flatMap contents))

theorem Produced.holds {run : RunMeta} {records : List Record} (h : Produced run records) :
    run.Holds records := by
  induction h with
  | @fixed _ _ _ records _ _ _ _ hkind hrecords hwrite =>
      have hsorted := pairwise_sortRecords records
      exact ((sat_writeFixed _ hrecords.sort hkind hsorted).of_ok hwrite).1
  | @bytes _ _ records _ _ _ _ hrecords hwrite =>
      have hsorted := pairwise_sortRecords records
      exact ((sat_writeBytes _ hrecords.sort hsorted).of_ok hwrite).1
  | @compacted _ _ runs contents account world next run _ hcompact ih =>
      have hsources : List.Forall₂ RunMeta.Holds runs (runs.map contents) := by
        rw [List.forall₂_map_right_iff, List.forall₂_same]
        exact ih
      have hsorted := pairwise_sortRecords (runs.flatMap contents)
      have hperm : (sortRecords (runs.flatMap contents)).Perm (runs.map contents).flatten := by
        rw [← List.flatMap_def]
        exact perm_sortRecords _
      exact ((sat_compact hsources hsorted hperm).of_ok hcompact).1

/-! ## The runs of an exact state -/

/-- Every run of the list was produced from some records. -/
def AllProduced (runs : List RunMeta) : Prop := ∀ run ∈ runs, ∃ records, Produced run records

theorem AllProduced.append {runs runs' : List RunMeta} (h : AllProduced runs)
    (h' : AllProduced runs') : AllProduced (runs ++ runs') := by
  intro run hrun
  rcases List.mem_append.mp hrun with hrun | hrun
  · exact h run hrun
  · exact h' run hrun

theorem AllProduced.subset {runs runs' : List RunMeta} (h : AllProduced runs)
    (hsub : runs' ⊆ runs) : AllProduced runs' :=
  fun run hrun => h run (hsub hrun)

section Runs

variable {ω : Type} [Host ω]

theorem sat_spillFixed_produced {α : Type} [FixedValue α] (store : FixedStore α)
    (account : ResourceAccount) :
    Sat (spillFixed store account : Run ω Fault _) (fun r => AllProduced r.2.toList)
      ExactFault := by
  unfold spillFixed
  refine Sat.ite (fun _ => sat_pure (by simp [AllProduced])) fun _ => ?_
  have hwrite := sat_writeFixed (ω := ω) account store.storable.sort FixedValue.kind_ne_bytes
    (pairwise_sortRecords store.contents)
  refine hwrite.attained.bind fun run hrun => sat_pure ?_
  obtain ⟨-, world, next, hrun⟩ := hrun
  simpa [AllProduced] using ⟨_, Produced.fixed FixedValue.kind_ne_bytes store.storable hrun⟩

theorem sat_spillBytes_produced {store : ByteStore} (hvalid : store.Valid)
    (account : ResourceAccount) :
    Sat (spillBytes store account : Run ω Fault _) (fun r => AllProduced r.2.toList)
      ExactFault := by
  unfold spillBytes
  refine Sat.ite (fun _ => sat_pure (by simp [AllProduced])) fun _ => ?_
  have hwrite := sat_writeBytes (ω := ω) account (ByteStore.storable hvalid).sort
    (pairwise_sortRecords store.contents)
  refine hwrite.attained.bind fun run hrun => sat_pure ?_
  obtain ⟨-, world, next, hrun⟩ := hrun
  simpa [AllProduced] using ⟨_, Produced.bytes (ByteStore.storable hvalid) hrun⟩

theorem Storage.sat_spill_produced {storage : Storage} (hvalid : storage.Valid)
    (account : ResourceAccount) :
    Sat (storage.spill account : Run ω Fault _) (fun r => AllProduced r.2.toList) ExactFault := by
  cases storage with
  | i64 store => exact (sat_spillFixed_produced store account).map fun _ hr => hr
  | u64 store => exact (sat_spillFixed_produced store account).map fun _ hr => hr
  | f64 store => exact (sat_spillFixed_produced store account).map fun _ hr => hr
  | bytes store => exact (sat_spillBytes_produced hvalid account).map fun _ hr => hr

namespace ExactState

variable {state : ExactState}

omit [Crates] in
theorem sat_new_runs (kind : ValueKind) (account : ResourceAccount) (directory : Option String)
    (rowCountHint : Option ℕ) :
    Sat (ExactState.new kind account directory rowCountHint : Run ω Fault _)
      (fun state => state.runs = []) ExactFault := by
  unfold ExactState.new
  refine (sat_whenever (fun _ => sat_io_exact _) fun _ => trivial).bind fun _ _ => ?_
  refine (sat_checkedMul_exact _ _ _).bind fun _ _ => ?_
  exact (sat_reserve_exact _ _ _).bind fun _ _ => sat_pure rfl

theorem sat_spillCurrent_produced (hvalid : state.storage.Valid) (h : AllProduced state.runs) :
    Sat (state.spillCurrent : Run ω Fault _) (AllProduced ·.runs) ExactFault := by
  unfold spillCurrent
  refine (sat_spillTarget _ _).bind fun _ _ => ?_
  exact (Storage.sat_spill_produced hvalid _).bind fun r hr => sat_pure (h.append hr)

theorem sat_compactRunsIfNeeded_produced (h : AllProduced state.runs) :
    Sat (state.compactRunsIfNeeded : Run ω Fault _) (AllProduced ·.runs) ExactFault := by
  refine sat_loop (fun next => AllProduced next.runs) (fun next => next.runs.length) ?_ _ _ h
    (Nat.lt_succ_self _)
  intro current hcurrent
  unfold compactTurn
  refine Sat.ite (fun _ => sat_pure hcurrent) fun hmany => ?_
  refine sat_checkCancelled_exact.bind fun _ _ => ?_
  refine (sat_spillTarget _ _).bind fun _ _ => ?_
  have hinputs := hcurrent.subset (List.take_subset Distinct.maxMergeFanIn current.runs)
  choose! contents hcontents using hinputs
  have hsources : List.Forall₂ RunMeta.Holds (current.runs.take Distinct.maxMergeFanIn)
      ((current.runs.take Distinct.maxMergeFanIn).map contents) := by
    rw [List.forall₂_map_right_iff, List.forall₂_same]
    exact fun run hrun => (hcontents run hrun).holds
  have hcompact : Sat (compact (current.runs.take Distinct.maxMergeFanIn) current.account :
      Run ω Fault _) _ _ :=
    sat_compact hsources (pairwise_sortRecords _) (perm_sortRecords _)
  refine hcompact.attained.bind fun compacted hcompacted => sat_pure ⟨?_, ?_⟩
  · obtain ⟨-, world, next, hrun⟩ := hcompacted
    have hhead : AllProduced [compacted] := by
      simpa [AllProduced] using ⟨_, Produced.compacted hcontents hrun⟩
    exact hhead.append (hcurrent.subset (List.drop_subset _ _))
  · unfold Distinct.maxMergeFanIn at *
    simp only [List.length_cons, List.length_drop]
    omega

theorem sat_makeRoom_produced (hvalid : state.storage.Valid) (h : AllProduced state.runs)
    (value : OwnedValue) :
    Sat (state.makeRoom value : Run ω Fault _) (AllProduced ·.runs) ExactFault := by
  unfold makeRoom
  refine Sat.ite (fun _ => ?_) fun _ => ?_
  · exact (Storage.sat_grow hvalid value _).bind fun storage _ => sat_pure h
  · exact (sat_spillCurrent_produced hvalid h).bind fun spilled hspilled =>
      sat_compactRunsIfNeeded_produced hspilled

theorem sat_insert_produced {inserted : List Record} (hholds : state.Holds inserted)
    (h : AllProduced state.runs) (value : OwnedValue) (row : UInt64) :
    Sat (state.insert value row : Run ω Fault _) (AllProduced ·.runs) ExactFault := by
  unfold ExactState.insert
  refine (Storage.sat_isFull hholds.valid value).bind fun needsSpill hfull => ?_
  have hroom : Sat (if needsSpill then state.makeRoom value else pure state : Run ω Fault _)
      (fun next => (next.Holds inserted ∧ next.storage.HasRoom value) ∧ AllProduced next.runs)
      ExactFault := by
    refine Sat.ite (fun _ => ?_) fun hnot => ?_
    · refine ((sat_makeRoom hholds value).and (sat_makeRoom_produced hholds.valid h value)).mono ?_
        fun _ hfault => hfault.1
      exact fun next hnext => ⟨⟨hnext.1.1, hnext.1.2.2⟩, hnext.2⟩
    · exact sat_pure ⟨⟨hholds, hfull (by simpa using hnot)⟩, h⟩
  refine hroom.bind fun current hcurrent => ?_
  obtain ⟨⟨hcurrent, hroom⟩, hproduced⟩ := hcurrent
  refine (Storage.sat_insert hcurrent.valid hroom row _).bind fun storage _ => ?_
  exact sat_compactRunsIfNeeded_produced hproduced

theorem sat_insertAll_produced {inserted : List Record} (hholds : state.Holds inserted)
    (h : AllProduced state.runs) (records : List Record) :
    Sat (state.insertAll records : Run ω Fault _) (AllProduced ·.runs) ExactFault := by
  refine (sat_foldlM (fun done next => next.Holds (inserted ++ done) ∧ AllProduced next.runs)
    ⟨by rwa [List.append_nil], h⟩ ?_).post fun _ hnext => hnext.2
  intro done record rest current hsplit hcurrent
  refine ((sat_insert hcurrent.1 record.value record.row).and
    (sat_insert_produced hcurrent.1 hcurrent.2 record.value record.row)).mono ?_
      fun _ hfault => hfault.1
  rintro next ⟨⟨hnext, -⟩, hproduced⟩
  rw [List.append_assoc] at hnext
  exact ⟨hnext, hproduced⟩

/-- Whatever is inserted, every run of the sealed state was produced by the two writers. -/
theorem sat_seal_produced (kind : ValueKind) (account : ResourceAccount)
    (directory : Option String) (rowCountHint : Option ℕ) (records : List Record) :
    Sat (do
        let state ← ExactState.new kind account directory rowCountHint
        let state ← state.insertAll records
        state.seal : Run ω Fault ExactState) (AllProduced ·.runs) ExactFault := by
  have hnew : Sat (ExactState.new kind account directory rowCountHint : Run ω Fault _)
      (fun state => state.Holds [] ∧ AllProduced state.runs) ExactFault := by
    refine ((sat_new kind account directory rowCountHint).and
      (sat_new_runs kind account directory rowCountHint)).mono ?_ fun _ hfault => hfault.1
    exact fun state hstate => ⟨hstate.1.1, by simp [AllProduced, hstate.2]⟩
  refine hnew.bind fun state hstate => ?_
  have hinsert := (sat_insertAll (ω := ω) hstate.1 records).and
    (sat_insertAll_produced hstate.1 hstate.2 records)
  refine (hinsert.mono (fun _ hnext => hnext) fun _ hfault => hfault.1).bind fun filled hfilled => ?_
  obtain ⟨⟨hholds, -⟩, hproduced⟩ := hfilled
  unfold ExactState.seal
  refine sat_checkCancelled_exact.bind fun _ _ => ?_
  exact (sat_spillCurrent_produced hholds.valid hproduced).bind fun spilled hspilled =>
    sat_compactRunsIfNeeded_produced hspilled

end ExactState

end Runs

/-! ## Reading a run to its end -/

section Reading

variable {ω : Type} [Host ω] {E : Fault → Prop}
  (hio : ∀ operation, Sat (ioOperation operation : Run ω Fault Unit) (fun _ => True) E)

include hio

theorem sat_readRun {run : RunMeta} {records : List Record} (h : run.Holds records) :
    Sat (readRun run : Run ω Fault _)
      (fun returned => returned = records ∧ ∀ record ∈ records, record.value.Readable)
      (ReadFault E records) := by
  have hopen : Sat (RunCursor.open run : Run ω Fault _) (fun cursor => cursor.Reads records)
      (ReadFault E records) := (RunCursor.sat_open hio h).mono (fun _ hr => hr) fun _ => .inl
  refine hopen.bind fun cursor hcursor => ?_
  refine sat_loop (fun (state : RunCursor × List Record) => ∃ rest, records = state.2 ++ rest ∧
      state.1.Reads rest ∧ ∀ record ∈ state.2, record.value.Readable)
    (fun state => state.1.remaining) ?_ _ _ ⟨records, rfl, hcursor, by simp⟩ (Nat.lt_succ_self _)
  rintro ⟨cursor, returned⟩ ⟨rest, hsplit, hreads, hreadable⟩
  have hnext : Sat (cursor.next : Run ω Fault _)
      (fun r => r.1 = rest.head? ∧ r.2.Reads rest.tail ∧
        ∀ record ∈ rest.head?, record.value.Readable) (ReadFault E records) :=
    (RunCursor.sat_next hio hreads).mono (fun _ hr => hr)
      fun _ hfault => hfault.subset (hsplit ▸ List.subset_append_right _ _)
  refine hnext.bind fun r hr => ?_
  obtain ⟨record, cursor'⟩ := r
  obtain ⟨rfl, hreads', hhead⟩ := hr
  cases rest with
  | nil =>
      rw [List.append_nil] at hsplit
      exact sat_pure ⟨hsplit.symm, hsplit ▸ hreadable⟩
  | cons record rest =>
      refine sat_pure ⟨⟨rest, ?_, hreads', ?_⟩, ?_⟩
      · rw [hsplit, List.append_assoc, List.singleton_append]
      · rw [List.forall_mem_append]
        exact ⟨hreadable, by simpa using hhead⟩
      · rw [hreads.remaining_eq, hreads'.remaining_eq]
        exact Nat.lt_succ_self _

end Reading

omit [Crates] in
theorem not_environmental_tooLong : ¬Environmental tooLong := by
  show ErrorCode.corruptPartition ∉ environmentCodes
  decide

/-- A run is read back as it was written exactly if all its values are readable. -/
theorem Produced.readRun_iff {run : RunMeta} {records : List Record} (h : Produced run records) :
    (∀ (ω : Type) [Host ω], Sat (readRun run : Run ω Fault _) (· = records) Environmental) ↔
      ∀ record ∈ records, record.value.byteLength ≤ maxRecordBytes := by
  constructor
  · intro hread
    -- a host that never fails leaves the length of a value as the only reason to refuse it
    have hgranted : ∀ operation,
        Sat (ioOperation operation : Run Granting Fault Unit) (fun _ => True) (fun _ => False) :=
      fun _ _ => trivial
    have hboth := (sat_readRun hgranted h.holds).and (hread Granting)
    have hended : Total (readRun run : Run Granting Fault _) := by
      refine hboth.total ?_
      rintro fault ⟨hgrant | ⟨rfl, -⟩, hfault⟩
      · exact hgrant
      · exact not_environmental_tooLong hfault
    obtain ⟨returned, next, hrun⟩ := hended .granting
    exact (hboth.of_ok hrun).1.2
  · intro hreadable ω _
    have hio : ∀ operation,
        Sat (ioOperation operation : Run ω Fault Unit) (fun _ => True) Environmental :=
      fun _ => sat_ioOperation trivial
    refine (sat_readRun hio h.holds).mono (fun _ hr => hr.1) ?_
    rintro fault (hfault | ⟨-, record, hrecord, hlong⟩)
    · exact hfault
    · exact absurd (hreadable record hrecord) hlong

/-- The run of records that need no sorting, where every checksum is zero. -/
def zeroRun (kind : ValueKind) (records : List Record) (maxRecordBytes : ℕ) : RunMeta :=
  { file := header kind records.length (encodeAll records).length (List.replicate 32 0) ++
      encodeAll records
    kind, records := records.length, payloadBytes := (encodeAll records).length, maxRecordBytes
    checksum := ⟨List.replicate 32 0, length_zeroBytes⟩ }

def sevens : List Record := [⟨.bytes [7], 1⟩, ⟨.bytes [7, 7], 0⟩]

def sevensTwice : List Record :=
  [⟨.bytes [7], 1⟩, ⟨.bytes [7], 1⟩, ⟨.bytes [7, 7], 0⟩, ⟨.bytes [7, 7], 0⟩]

omit [Crates] in
/-- A run that was compacted from the same run twice. -/
theorem readRun_iff_sevensTwice :
    letI := Crates.zeroDigests
    (∀ (ω : Type) [Host ω], Sat (readRun (zeroRun .bytes sevensTwice 2) : Run ω Fault _)
        (· = sevensTwice) Environmental) ↔
      ∀ record ∈ sevensTwice, record.value.byteLength ≤ maxRecordBytes := by
  let _ : Crates := Crates.zeroDigests
  have hwrite : (writeBytes (sortRecords sevens) (.root ⟨0, 0, 0, 0⟩) : Run Granting Fault _)
      .granting = .ok (zeroRun .bytes sevens 2, .granting) := rfl
  have hsegment : Produced (zeroRun .bytes sevens 2) sevens :=
    Produced.bytes (by constructor <;> decide) hwrite
  have hsources : ∀ source ∈ List.replicate 2 (zeroRun .bytes sevens 2),
      Produced source sevens := by
    intro source hsource
    rw [List.eq_of_mem_replicate hsource]
    exact hsegment
  have hcompact : (compact (List.replicate 2 (zeroRun .bytes sevens 2)) (.root ⟨0, 0, 0, 0⟩) :
      Run Granting Fault _) .granting = .ok (zeroRun .bytes sevensTwice 2, .granting) := rfl
  have hcompacted : Produced (zeroRun .bytes sevensTwice 2) sevensTwice :=
    Produced.compacted hsources hcompact
  exact hcompacted.readRun_iff

/-! ## A run that is not read back -/

omit [Crates] in
/-- Where nothing is refused, byte values are written if the size of their run fits `u64`. -/
theorem total_writeBytes [Crates] {records : List Record} (account : ResourceAccount)
    (hstorable : Storable .bytes records) (hsize : headerBytes + (encodeAll records).length < 2 ^ 64) :
    Total (writeBytes records account : Run Granting Fault _) := by
  have hpayload : Sat (records.foldlM (fun total record => do
      let total ← checkedAdd "Exact byte run overflowed u64" total 12
      checkedAdd "Exact byte run overflowed u64" total record.value.byteLength) 0 :
        Run Granting Fault ℕ) (· = (encodeAll records).length) (fun _ => False) := by
    refine sat_foldlM (fun done total => total = (encodeAll done).length) rfl ?_
    intro done record rest total hsplit htotal
    have hkind := hstorable.kind_eq record (hsplit ▸ by simp)
    have hlength := length_encode_bytes hkind
    rw [hsplit, encodeAll_append, encodeAll_cons, List.length_append, List.length_append] at hsize
    refine (sat_checkedAdd_of (Q := (· = total + 12)) (fun _ => by omega) fun _ => rfl).bind
      fun n hn => ?_
    refine sat_checkedAdd_of (fun _ => by omega) fun _ => ?_
    rw [encodeAll_append, encodeAll_cons, encodeAll_nil, List.append_nil, List.length_append]
    omega
  refine Sat.total (Q := fun _ => True) (E := fun _ => False)
    (hpayload.bind fun total htotal => ?_) fun _ => id
  unfold writeRun
  refine (sat_checkedAdd_of (Q := fun _ => True) (fun hover => ?_) fun _ => trivial).bind fun _ _ => ?_
  · dsimp only at hover
    omega
  · intro world
    trivial

/-- A byte value of 64 MiB and one byte. -/
def longRecord : Record := ⟨.bytes (List.replicate (maxRecordBytes + 1) 0), 0⟩

omit [Crates] in
theorem byteLength_longRecord : longRecord.value.byteLength = maxRecordBytes + 1 := by
  rw [longRecord, OwnedValue.byteLength, List.length_replicate]

omit [Crates] in
theorem storable_longRecord : Storable .bytes [longRecord] := by
  constructor <;> intro record hrecord <;> rw [List.mem_singleton.mp hrecord]
  · rfl
  · rw [byteLength_longRecord]
    decide

omit [Crates] in
theorem readRun_rejects_longRecord :
    letI := Crates.zeroDigests
    ¬∀ (run : RunMeta) (records : List Record), Produced run records →
      ∀ (ω : Type) [Host ω], Sat (readRun run : Run ω Fault _) (· = records) Environmental := by
  let _ : Crates := Crates.zeroDigests
  intro hclaim
  have hsorted : sortRecords [longRecord] = [longRecord] := 
    (List.pairwise_singleton _ _).insertionSort_eq
  have hsize : headerBytes + (encodeAll (sortRecords [longRecord])).length < 2 ^ 64 := by
    have hkind : longRecord.value.kind = .bytes := rfl
    rw [hsorted, encodeAll_cons, encodeAll_nil, List.append_nil, length_encode_bytes hkind,
      byteLength_longRecord]
    decide
  obtain ⟨run, next, hwrite⟩ :=
    total_writeBytes (.root ⟨0, 0, 0, 0⟩) storable_longRecord.sort hsize .granting
  have hproduced := Produced.bytes storable_longRecord hwrite
  have hshort := hproduced.readRun_iff.mp (hclaim run _ hproduced) longRecord
    (by rw [hsorted]; exact List.mem_singleton_self _)
  rw [byteLength_longRecord] at hshort
  exact absurd hshort (Nat.not_succ_le_self _)

end ProofFrame.Distinct
