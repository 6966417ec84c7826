import ProofFrame.Distinct.AntiJoinSpec
import ProofFrame.Distinct.State

/-!
# Exact state is an exact multiset counter

`ExactState.Holds` relates a state to the records inserted into it: the segment
and the runs together hold exactly those, whatever growing, spilling and
compacting has happened.  Every operation keeps the relation, so what `finish`
and the anti-join report is a function of the inserted records alone.
-/

namespace ProofFrame.Distinct

open Lib Lib.Run Lib.Sorted

/-! ## Segments -/

/-- The indices of a byte segment lie in its arena, and the arena in what a `u32` addresses. -/
structure ByteSegment.Valid (segment : ByteSegment) : Prop where
  index_le : ∀ index ∈ segment.records, index.offset + index.length ≤ segment.arena.length
  arena_le : segment.arena.length ≤ segment.byteCapacity
  capacity_le : segment.byteCapacity ≤ u32Max

def ByteStore.Valid (store : ByteStore) : Prop :=
  ∀ segment, store.segment = some segment → segment.Valid

/-- There is room for `value` in the segment, or there is no segment. -/
def ByteStore.HasRoom (store : ByteStore) (value : List UInt8) : Prop :=
  ∀ segment, store.segment = some segment →
    segment.arena.length + value.length ≤ segment.byteCapacity

theorem ByteStore.hasRoom_of_not_full {store : ByteStore} (h : store.Valid) {value : List UInt8}
    (hfull : byteStoreIsFull store value = false) : store.HasRoom value := by
  intro segment hsegment
  have := (h segment hsegment).arena_le
  simp only [byteStoreIsFull, hsegment, decide_eq_false_iff_not, not_or, not_lt] at hfull
  omega

theorem ByteIndex.toRecord_append {index : ByteIndex} {arena : List UInt8}
    (h : index.offset + index.length ≤ arena.length) (value : List UInt8) :
    index.toRecord (arena ++ value) = index.toRecord arena := by
  unfold ByteIndex.toRecord ByteIndex.value
  rw [List.drop_append_of_le_length (by omega), List.take_append_of_le_length (by simp; omega)]

theorem length_encode_fixed {record : Record} (h : record.value.kind ≠ .bytes) :
    record.encode.length = 16 := by
  obtain ⟨value, row⟩ := record
  cases value with
  | bytes value => exact absurd rfl h
  | _ => simp [Record.encode, OwnedValue.encode]

theorem length_encode_bytes {record : Record} (h : record.value.kind = .bytes) :
    record.encode.length = 12 + record.value.byteLength := by
  obtain ⟨value, row⟩ := record
  cases value with
  | bytes value =>
      simp [Record.encode, OwnedValue.encode, OwnedValue.byteLength]
      omega
  | _ => cases h

theorem length_encodeAll_fixed {kind : ValueKind} {records : List Record}
    (h : Storable kind records) (hkind : kind ≠ .bytes) :
    (encodeAll records).length = records.length * 16 := by
  induction records with
  | nil => rfl
  | cons record records ih =>
      rw [encodeAll_cons, List.length_append, ih (h.subset (List.subset_cons_self ..)),
        length_encode_fixed, List.length_cons]
      · omega
      · rw [h.kind_eq record (List.mem_cons_self ..)]
        exact hkind

theorem pairwise_sortRecords (records : List Record) : (sortRecords records).Pairwise (· ≤ ·) :=
  List.pairwise_insertionSort _ _

theorem perm_sortRecords (records : List Record) : (sortRecords records).Perm records :=
  List.perm_insertionSort _ _

theorem Storable.sort {kind : ValueKind} {records : List Record} (h : Storable kind records) :
    Storable kind (sortRecords records) :=
  h.subset fun _ hrecord => (perm_sortRecords records).mem_iff.mp hrecord

variable {ω : Type} [Host ω]

section Fixed

variable {α : Type}

theorem sat_allocateFixedSegment (desiredCapacity : ℕ) (account : ResourceAccount) :
    Sat (allocateFixedSegment desiredCapacity account : Run ω Fault (FixedSegment α))
      (·.records = []) ExactFault := by
  refine sat_loop (fun _ => True) id (fun capacity _ => ?_) _ _ trivial (Nat.lt_succ_self _)
  unfold allocateFixedTurn
  refine (sat_checkedMul_exact _ _ _).bind fun bytes _ => ?_
  refine Sat.bind (Q := fun r => ∀ e, r = .error e → e.code = .resourceLimit)
    (sat_tryReserve (by simp) (by rintro e he e' ⟨⟩; exact he)) fun r hr => ?_
  cases r with
  | ok _ => exact sat_pure rfl
  | error e =>
      refine Sat.ite (fun h => sat_pure ⟨trivial, ?_⟩) fun _ => sat_throw ?_
      · simp only [id]
        omega
      · show e.code ∈ exactCodes
        rw [hr e rfl]
        decide

variable [FixedValue α]

theorem FixedStore.storable (store : FixedStore α) :
    Storable (FixedValue.kind α) store.contents := by
  have hrecord : ∀ record ∈ store.contents, record.value.kind = FixedValue.kind α := by
    intro record hrecord
    unfold FixedStore.contents at hrecord
    cases hsegment : store.segment with
    | none => simp [hsegment] at hrecord
    | some segment =>
        simp only [hsegment, List.mem_map] at hrecord
        obtain ⟨stored, -, rfl⟩ := hrecord
        exact FixedValue.kind_intoOwned stored.value
  refine ⟨hrecord, fun record hmem => ?_⟩
  have hne : record.value.kind ≠ .bytes := hrecord record hmem ▸ FixedValue.kind_ne_bytes
  cases hvalue : record.value with
  | bytes value => exact absurd (by rw [hvalue]; rfl) hne
  | _ => simp [OwnedValue.byteLength]

theorem sat_insertFixed (store : FixedStore α) (value : α) (row : UInt64)
    (account : ResourceAccount) :
    Sat (insertFixed store value row account : Run ω Fault _)
      (·.contents = store.contents ++ [{ value := FixedValue.intoOwned value, row }])
      ExactFault := by
  unfold insertFixed
  refine Sat.bind
    (Q := fun segment : FixedSegment α => segment.records.map FixedRecord.toRecord = store.contents)
    ?_ fun segment hsegment => sat_pure ?_
  · unfold FixedStore.openSegment
    cases hstore : store.segment with
    | none =>
        refine (sat_allocateFixedSegment _ _).post fun segment h => ?_
        rw [h, FixedStore.contents, hstore, List.map_nil]
    | some segment => exact sat_pure (by simp [FixedStore.contents, hstore])
  · simp only [FixedStore.contents, List.map_append, hsegment]
    rfl

theorem sat_growFixed (store : FixedStore α) (account : ResourceAccount) :
    Sat (growFixed store account : Run ω Fault _) (·.contents = store.contents) ExactFault := by
  unfold growFixed
  cases hstore : store.segment with
  | none => exact sat_pure rfl
  | some segment =>
      refine (sat_checkedMul_exact _ _ _).bind fun _ _ => ?_
      refine (sat_reserve_exact _ _ _).bind fun _ _ => sat_pure ?_
      simp [FixedStore.contents, hstore]

end Fixed

theorem sat_allocateByteSegment {desiredRecords minimumBytes : ℕ} (account : ResourceAccount)
    (hdesired : 1 ≤ desiredRecords) (hminimum : minimumBytes ≤ u32Max) :
    Sat (allocateByteSegment desiredRecords minimumBytes account : Run ω Fault _)
      (fun segment => segment.arena = [] ∧ segment.records = [] ∧
        minimumBytes ≤ segment.byteCapacity ∧ segment.byteCapacity ≤ u32Max) ExactFault := by
  have hclamp : minimumBytes ≤ clamp minimumBytes u32Max (desiredRecords * assumedBytesPerValue) ∧
      clamp minimumBytes u32Max (desiredRecords * assumedBytesPerValue) ≤ u32Max := by
    unfold clamp
    omega
  refine sat_loop (fun capacities => 1 ≤ capacities.1 ∧
      minimumBytes ≤ capacities.2 ∧ capacities.2 ≤ u32Max)
    (fun capacities => capacities.1 + capacities.2) ?_ _ _
    ⟨hdesired, hclamp⟩ (Nat.lt_succ_self _)
  rintro ⟨recordCapacity, byteCapacity⟩ ⟨hpos, hmin, hmax⟩
  unfold allocateByteTurn
  refine (sat_checkedMul_exact _ _ _).bind fun _ _ => ?_
  refine (sat_checkedAdd_exact _ _ _).bind fun _ _ => ?_
  refine Sat.bind (Q := fun r => ∀ e, r = .error e → e.code = .resourceLimit)
    (sat_tryReserve (by simp) (by rintro e he e' ⟨⟩; exact he)) fun r hr => ?_
  cases r with
  | ok _ => exact sat_pure ⟨rfl, rfl, hmin, hmax⟩
  | error e =>
      refine Sat.ite (fun h => sat_pure ⟨⟨le_max_right _ _, le_max_right _ _, ?_⟩, ?_⟩)
        fun _ => sat_throw ?_
      · omega
      · have hcapacity := h.2
        dsimp only
        omega
      · show e.code ∈ exactCodes
        rw [hr e rfl]
        decide

theorem ByteStore.storable {store : ByteStore} (h : store.Valid) :
    Storable .bytes store.contents := by
  unfold ByteStore.contents
  cases hsegment : store.segment with
  | none => exact Storable.nil _
  | some segment =>
      obtain ⟨-, harena, hcapacity⟩ := h segment hsegment
      constructor <;> intro record hrecord <;> obtain ⟨index, hindex, rfl⟩ := List.mem_map.mp hrecord
      · rfl
      · have hlength : (index.value segment.arena).length ≤ segment.arena.length := by
          simp only [ByteIndex.value, List.length_take, List.length_drop]
          omega
        show (index.value segment.arena).length < 2 ^ 32
        unfold u32Max at hcapacity
        omega

theorem sat_insertBytes {store : ByteStore} (hvalid : store.Valid) {value : List UInt8}
    (hroom : store.HasRoom value) (row : UInt64) (account : ResourceAccount) :
    Sat (insertBytes store value row account : Run ω Fault _)
      (fun next => next.Valid ∧ next.contents = store.contents ++ [{ value := .bytes value, row }])
      ExactFault := by
  unfold insertBytes
  have hlimit : ExactFault (.error (.resourceLimit "single exact value" value.length 0 u32Max)) := by
    show ErrorCode.resourceLimit ∈ exactCodes
    decide
  refine (sat_failIf fun _ => hlimit).bind fun _ hlength => ?_
  refine Sat.bind (Q := fun segment : ByteSegment => segment.Valid ∧
      segment.arena.length + value.length ≤ segment.byteCapacity ∧
      segment.records.map (ByteIndex.toRecord segment.arena) = store.contents) ?_
    fun segment hsegment => ?_
  · unfold ByteStore.openSegment
    cases hstore : store.segment with
    | none =>
        refine (sat_allocateByteSegment _ store.desired_pos (by omega)).post fun segment h => ?_
        obtain ⟨harena, hrecords, hmin, hmax⟩ := h
        refine ⟨⟨by simp [hrecords], by simp [harena], hmax⟩, by simpa [harena] using hmin, ?_⟩
        rw [hrecords, ByteStore.contents, hstore, List.map_nil]
    | some segment =>
        exact sat_pure ⟨hvalid segment hstore, hroom segment hstore,
          by rw [ByteStore.contents, hstore]⟩
  · obtain ⟨⟨hindex, harena, hcapacity⟩, hroom, hcontents⟩ := hsegment
    refine (sat_failIf fun hpanic => ?_).bind fun _ _ => sat_pure ⟨?_, ?_⟩
    · exfalso
      omega
    · rintro _ ⟨⟩
      refine ⟨fun index hmem => ?_, by simpa using hroom, hcapacity⟩
      rcases List.mem_append.mp hmem with hmem | hmem
      · have := hindex index hmem
        simp only [List.length_append]
        omega
      · rw [List.mem_singleton.mp hmem]
        simp
    · have hkept : segment.records.map (ByteIndex.toRecord (segment.arena ++ value)) =
          store.contents := by
        rw [← hcontents]
        exact List.map_congr_left fun index hmem => ByteIndex.toRecord_append (hindex index hmem) _
      show List.map _ (segment.records ++ [_]) = _
      rw [List.map_append, hkept]
      simp [ByteIndex.toRecord, ByteIndex.value]

theorem sat_growBytes {store : ByteStore} (hvalid : store.Valid) (value : List UInt8)
    (account : ResourceAccount) :
    Sat (growBytes store value.length account : Run ω Fault _)
      (fun next => next.Valid ∧ next.HasRoom value ∧ next.contents = store.contents)
      ExactFault := by
  unfold growBytes
  cases hstore : store.segment with
  | none => exact sat_pure ⟨hvalid, by simp [ByteStore.HasRoom, hstore], rfl⟩
  | some segment =>
      obtain ⟨hindex, harena, hcapacity⟩ := hvalid segment hstore
      dsimp only
      generalize hextra : (if value.length > segment.byteCapacity - segment.arena.length
        then max (max segment.byteCapacity (value.length -
          (segment.byteCapacity - segment.arena.length))) 1 else 0) = extraBytes
      refine (sat_failIf fun _ => ?_).bind fun _ hgrown => ?_
      · show ErrorCode.resourceLimit ∈ exactCodes
        decide
      refine (sat_checkedMul_exact _ _ _).bind fun _ _ => ?_
      refine (sat_checkedAdd_exact _ _ _).bind fun _ _ => ?_
      refine (sat_reserve_exact _ _ _).bind fun _ _ => sat_pure ⟨?_, ?_, ?_⟩
      · rintro _ ⟨⟩
        exact ⟨hindex, by dsimp only; omega, by dsimp only; omega⟩
      · rintro _ ⟨⟩
        dsimp only
        split at hextra <;> omega
      · simp [ByteStore.contents, hstore]

/-! ## Spilling -/

section Spill

variable [Crates]

theorem sat_writeRun {spec : RunSpec} {account : ResourceAccount} {records : List Record}
    (hrecords : spec.records = records.length)
    (hpayload : spec.payloadBytes = (encodeAll records).length)
    (hchecksum : spec.checksum = Crates.blake3 (encodeAll records))
    (hstorable : Storable spec.kind records) (hsorted : records.Pairwise (· ≤ ·)) :
    Sat (writeRun spec account (encodeAll records) : Run ω Fault _)
      (fun run => run.Holds records ∧ run.kind = spec.kind) ExactFault := by
  unfold writeRun
  refine (sat_checkedAdd_exact _ _ _).bind fun total htotal => ?_
  refine (sat_reserve_exact _ _ _).bind fun _ _ => ?_
  refine (sat_io_exact _).bind fun _ _ => ?_
  refine (sat_io_exact _).bind fun _ _ => ?_
  refine (sat_io_exact _).bind fun _ _ => sat_pure ⟨⟨?_, hchecksum, hrecords, hpayload,
    hstorable, hsorted, hpayload ▸ htotal.2⟩, rfl⟩
  rw [hrecords, hpayload]

theorem sat_writeFixed {kind : ValueKind} {records : List Record} (account : ResourceAccount)
    (hstorable : Storable kind records) (hkind : kind ≠ .bytes)
    (hsorted : records.Pairwise (· ≤ ·)) :
    Sat (writeFixed kind records account : Run ω Fault _)
      (fun run => run.Holds records ∧ run.kind = kind) ExactFault := by
  unfold writeFixed
  refine (sat_checkedMul_exact _ _ _).bind fun payloadBytes hpayload => ?_
  refine sat_writeRun rfl ?_ rfl hstorable hsorted
  rw [length_encodeAll_fixed hstorable hkind]
  exact hpayload.1

theorem sat_writeBytes {records : List Record} (account : ResourceAccount)
    (hstorable : Storable .bytes records) (hsorted : records.Pairwise (· ≤ ·)) :
    Sat (writeBytes records account : Run ω Fault _)
      (fun run => run.Holds records ∧ run.kind = .bytes) ExactFault := by
  unfold writeBytes
  refine (sat_foldlM (fun done total => total = (encodeAll done).length) rfl ?_).bind
    fun payloadBytes hpayload => sat_writeRun rfl hpayload rfl hstorable hsorted
  intro done record rest total hsplit htotal
  refine (sat_checkedAdd_exact _ _ _).bind fun n hn => ?_
  refine (sat_checkedAdd_exact _ _ _).post fun m hm => ?_
  have hkind := hstorable.kind_eq record (hsplit ▸ by simp)
  rw [encodeAll_append, encodeAll_cons, encodeAll_nil, List.append_nil, List.length_append,
    length_encode_bytes hkind, ← htotal, hm.1, hn.1]
  omega

/-- What is spilled: the sorted records in a run, or nothing if there were none. -/
def Spilled (kind : ValueKind) (records : List Record) : Option RunMeta → Prop
  | none => records = []
  | some run => run.Holds (sortRecords records) ∧ run.kind = kind

theorem sat_spillFixed {α : Type} [FixedValue α] (store : FixedStore α)
    (account : ResourceAccount) :
    Sat (spillFixed store account : Run ω Fault _) (fun r => r.1.contents = [] ∧
      Spilled (FixedValue.kind α) store.contents r.2) ExactFault := by
  unfold spillFixed
  refine Sat.ite (fun hempty => sat_pure ⟨rfl, List.isEmpty_iff.mp hempty⟩) fun _ => ?_
  exact (sat_writeFixed account store.storable.sort FixedValue.kind_ne_bytes
    (pairwise_sortRecords _)).bind fun run hrun => sat_pure ⟨rfl, hrun⟩

theorem sat_spillBytes {store : ByteStore} (hvalid : store.Valid) (account : ResourceAccount) :
    Sat (spillBytes store account : Run ω Fault _) (fun r => r.1.segment = none ∧
      Spilled .bytes store.contents r.2) ExactFault := by
  unfold spillBytes
  refine Sat.ite (fun hempty => sat_pure ⟨rfl, List.isEmpty_iff.mp hempty⟩) fun _ => ?_
  exact (sat_writeBytes account (ByteStore.storable hvalid).sort
    (pairwise_sortRecords _)).bind fun run hrun => sat_pure ⟨rfl, hrun⟩

end Spill

/-! ## The storage -/

def Storage.Valid : Storage → Prop
  | .bytes store => store.Valid
  | _ => True

/-- There is room for the value in the segment. -/
def Storage.HasRoom : Storage → OwnedValue → Prop
  | .bytes store, .bytes value => store.HasRoom value
  | _, _ => True

theorem Storage.storable {storage : Storage} (h : storage.Valid) :
    Storable storage.kind storage.contents := by
  cases storage with
  | i64 store => exact store.storable
  | u64 store => exact store.storable
  | f64 store => exact store.storable
  | bytes store => exact ByteStore.storable h

omit [Host ω] in
theorem Storage.sat_isFull {storage : Storage} (h : storage.Valid) (value : OwnedValue) :
    Sat (lift (storage.isFull value) : Run ω Fault Bool)
      (fun full => full = false → storage.HasRoom value) ExactFault := by
  refine sat_lift (fun full hfull hfalse => ?_) fun fault hfault => ?_
  · cases storage <;> cases value <;> try trivial
    subst hfalse
    exact ByteStore.hasRoom_of_not_full h (Except.ok.inj hfull)
  · cases storage <;> cases value <;> first
      | exact Except.error.inj hfault ▸ exactFault_corrupt _
      | cases hfault

theorem Storage.sat_grow {storage : Storage} (h : storage.Valid) (value : OwnedValue)
    (account : ResourceAccount) :
    Sat (storage.grow value account : Run ω Fault _) (fun next => next.Valid ∧
      next.HasRoom value ∧ next.kind = storage.kind ∧ next.contents = storage.contents)
      ExactFault := by
  cases storage with
  | i64 store => exact (sat_growFixed store account).map fun next hnext =>
      ⟨trivial, trivial, rfl, hnext⟩
  | u64 store => exact (sat_growFixed store account).map fun next hnext =>
      ⟨trivial, trivial, rfl, hnext⟩
  | f64 store => exact (sat_growFixed store account).map fun next hnext =>
      ⟨trivial, trivial, rfl, hnext⟩
  | bytes store =>
      cases value with
      | bytes value => exact (sat_growBytes h value account).map fun next hnext =>
          ⟨hnext.1, hnext.2.1, rfl, hnext.2.2⟩
      | _ => exact (sat_growBytes h [] account).map fun next hnext =>
          ⟨hnext.1, trivial, rfl, hnext.2.2⟩

theorem Storage.sat_insert {storage : Storage} (h : storage.Valid) {value : OwnedValue}
    (hroom : storage.HasRoom value) (row : UInt64) (account : ResourceAccount) :
    Sat (storage.insert row account value : Run ω Fault _) (fun next => next.Valid ∧
      next.kind = storage.kind ∧ next.contents = storage.contents ++ [⟨value, row⟩])
      ExactFault := by
  cases storage <;> cases value
  case i64.i64 store value => exact (sat_insertFixed store value row account).map fun next hnext =>
      ⟨trivial, rfl, hnext⟩
  case u64.u64 store value => exact (sat_insertFixed store value row account).map fun next hnext =>
      ⟨trivial, rfl, hnext⟩
  case f64.f64 store bits => exact (sat_insertFixed store ⟨bits⟩ row account).map fun next hnext =>
      ⟨trivial, rfl, hnext⟩
  case bytes.bytes store value => exact (sat_insertBytes h hroom row account).map fun next hnext =>
      ⟨hnext.1, rfl, hnext.2⟩
  all_goals exact sat_throw (exactFault_corrupt _)

theorem Storage.sat_spill [Crates] {storage : Storage} (h : storage.Valid)
    (account : ResourceAccount) :
    Sat (storage.spill account : Run ω Fault _) (fun r => r.1.Valid ∧ (∀ value, r.1.HasRoom value) ∧
      r.1.kind = storage.kind ∧ r.1.contents = [] ∧
      Spilled storage.kind storage.contents r.2) ExactFault := by
  cases storage with
  | i64 store => exact (sat_spillFixed store account).map fun r hr =>
      ⟨trivial, fun _ => trivial, rfl, hr⟩
  | u64 store => exact (sat_spillFixed store account).map fun r hr =>
      ⟨trivial, fun _ => trivial, rfl, hr⟩
  | f64 store => exact (sat_spillFixed store account).map fun r hr =>
      ⟨trivial, fun _ => trivial, rfl, hr⟩
  | bytes store =>
      refine (sat_spillBytes h account).map fun r hr => ⟨?_, fun value => ?_, rfl, ?_, hr.2⟩
      · intro segment hsegment
        rw [hr.1] at hsegment
        cases hsegment
      · cases value with
        | bytes value =>
            intro segment hsegment
            rw [hr.1] at hsegment
            cases hsegment
        | _ => trivial
      · show ByteStore.contents r.1 = []
        rw [ByteStore.contents, hr.1]

/-! ## The state -/

/-- What no operation changes. -/
def ExactState.SameConfig (state next : ExactState) : Prop :=
  next.account = state.account ∧ next.directory = state.directory

theorem ExactState.SameConfig.trans {a b c : ExactState} (h : a.SameConfig b) (h' : b.SameConfig c) :
    a.SameConfig c :=
  ⟨h'.1.trans h.1, h'.2.trans h.2⟩

omit [Host ω] in
theorem ExactState.sat_spillTarget (state : ExactState) (held : ℕ) :
    Sat (state.spillTarget held : Run ω Fault Unit) (fun _ => True) ExactFault := by
  refine (sat_failIf fun _ => ?_).post fun _ _ => trivial
  show ErrorCode.resourceLimit ∈ exactCodes
  decide

variable [Crates]

/-- The segment and the runs together hold the inserted records. -/
structure ExactState.Holds (state : ExactState) (inserted : List Record) : Prop where
  valid : state.storage.Valid
  runs_kind : ∀ run ∈ state.runs, run.kind = state.storage.kind
  holds : ∃ contents, List.Forall₂ RunMeta.Holds state.runs contents ∧
    (state.storage.contents ++ contents.flatten).Perm inserted

namespace ExactState

variable {state : ExactState} {inserted : List Record}

theorem sat_new (kind : ValueKind) (account : ResourceAccount) (directory : Option String)
    (rowCountHint : Option ℕ) :
    Sat (ExactState.new kind account directory rowCountHint : Run ω Fault _)
      (fun state => state.Holds [] ∧ state.account = account) ExactFault := by
  unfold ExactState.new
  refine (sat_whenever (fun _ => sat_io_exact _) fun _ => trivial).bind fun _ _ => ?_
  refine (sat_checkedMul_exact _ _ _).bind fun _ _ => ?_
  refine (sat_reserve_exact _ _ _).bind fun _ _ => sat_pure ⟨⟨?_, by simp, [], .nil, ?_⟩, rfl⟩
  · cases kind with
    | bytes =>
        intro segment hsegment
        cases hsegment
    | _ => trivial
  · cases kind <;> exact .refl _

theorem sat_spillCurrent (h : state.Holds inserted) :
    Sat (state.spillCurrent : Run ω Fault _) (fun next => next.Holds inserted ∧
      state.SameConfig next ∧ next.storage.contents = [] ∧
      ∀ value, next.storage.HasRoom value) ExactFault := by
  obtain ⟨hvalid, hkind, contents, hruns, hperm⟩ := h
  unfold spillCurrent
  refine (sat_spillTarget _ _).bind fun _ _ => ?_
  refine (Storage.sat_spill hvalid _).bind fun r hr => ?_
  obtain ⟨storage, run⟩ := r
  obtain ⟨hvalid', hroom, hkind', hempty, hspilled⟩ := hr
  refine sat_pure ⟨⟨hvalid', ?_, ?_⟩, ⟨rfl, rfl⟩, hempty, hroom⟩
  · intro other hother
    rw [hkind']
    rcases List.mem_append.mp hother with hother | hother
    · exact hkind other hother
    · rw [Option.mem_toList] at hother
      subst hother
      exact hspilled.2
  · dsimp only
    rw [hempty]
    cases run with
    | none =>
        have hnone : state.storage.contents = [] := hspilled
        rw [hnone] at hperm
        exact ⟨contents, by simpa using hruns, hperm⟩
    | some run =>
        refine ⟨contents ++ [sortRecords state.storage.contents], ?_, ?_⟩
        · exact List.rel_append hruns (.cons hspilled.1 .nil)
        · rw [List.nil_append, List.flatten_append, List.flatten_singleton]
          refine (List.perm_append_comm.trans ?_).trans hperm
          exact (perm_sortRecords _).append_right _

theorem sat_compactRunsIfNeeded (h : state.Holds inserted) :
    Sat (state.compactRunsIfNeeded : Run ω Fault _) (fun next => next.Holds inserted ∧
      state.SameConfig next ∧ next.storage = state.storage) ExactFault := by
  refine sat_loop (fun next => next.Holds inserted ∧ state.SameConfig next ∧
      next.storage = state.storage) (fun next => next.runs.length) ?_ _ _
    ⟨h, ⟨rfl, rfl⟩, rfl⟩ (Nat.lt_succ_self _)
  rintro current ⟨⟨hvalid, hkind, contents, hruns, hperm⟩, hconfig, hstorage⟩
  unfold compactTurn
  refine Sat.ite (fun _ => sat_pure ⟨⟨hvalid, hkind, contents, hruns, hperm⟩, hconfig, hstorage⟩)
    fun hmany => ?_
  refine sat_checkCancelled_exact.bind fun _ _ => ?_
  refine (sat_spillTarget _ _).bind fun _ _ => ?_
  -- the first 32 runs become one; the others follow it
  have htaken := List.forall₂_take Distinct.maxMergeFanIn hruns
  have hsorted := pairwise_sortRecords (contents.take Distinct.maxMergeFanIn).flatten
  refine (sat_compact htaken hsorted (perm_sortRecords _)).bind fun compacted hcompacted => ?_
  have hcompactedKind : compacted.kind = current.storage.kind := by
    have hpos : 0 < (current.runs.take Distinct.maxMergeFanIn).length := by
      unfold Distinct.maxMergeFanIn at *
      rw [List.length_take]
      omega
    have hmem := List.getElem_mem hpos
    rw [← hcompacted.2 _ hmem]
    exact hkind _ (List.mem_of_mem_take hmem)
  refine sat_pure ⟨⟨⟨hvalid, ?_, ?_⟩, hconfig, hstorage⟩, ?_⟩
  · intro run hrun
    rcases List.mem_cons.mp hrun with rfl | hrun
    · exact hcompactedKind
    · exact hkind run (List.mem_of_mem_drop hrun)
  · refine ⟨_ :: contents.drop Distinct.maxMergeFanIn,
      .cons hcompacted.1 (List.forall₂_drop _ hruns), ?_⟩
    refine List.Perm.trans (List.Perm.append_left _ ?_) hperm
    rw [List.flatten_cons]
    refine ((perm_sortRecords _).append_right _).trans ?_
    rw [← List.flatten_append, List.take_append_drop]
  · unfold Distinct.maxMergeFanIn at *
    simp only [List.length_cons, List.length_drop]
    omega

theorem sat_makeRoom (h : state.Holds inserted) (value : OwnedValue) :
    Sat (state.makeRoom value : Run ω Fault _) (fun next => next.Holds inserted ∧
      state.SameConfig next ∧ next.storage.HasRoom value) ExactFault := by
  unfold makeRoom
  refine Sat.ite (fun _ => ?_) fun _ => ?_
  · obtain ⟨hvalid, hkind, contents, hruns, hperm⟩ := h
    refine (Storage.sat_grow hvalid value _).bind fun storage hstorage => ?_
    obtain ⟨hvalid', hroom, hkind', hcontents⟩ := hstorage
    exact sat_pure ⟨⟨hvalid', fun run hrun => (hkind run hrun).trans hkind'.symm,
      contents, hruns, by rwa [hcontents]⟩, ⟨rfl, rfl⟩, hroom⟩
  · refine (sat_spillCurrent h).bind fun spilled hspilled => ?_
    refine (sat_compactRunsIfNeeded hspilled.1).post fun next hnext => ?_
    exact ⟨hnext.1, hspilled.2.1.trans hnext.2.1, hnext.2.2 ▸ hspilled.2.2.2 value⟩

theorem sat_insert (h : state.Holds inserted) (value : OwnedValue) (row : UInt64) :
    Sat (state.insert value row : Run ω Fault _) (fun next =>
      next.Holds (inserted ++ [⟨value, row⟩]) ∧ state.SameConfig next) ExactFault := by
  unfold ExactState.insert
  refine (Storage.sat_isFull h.valid value).bind fun needsSpill hfull => ?_
  have hroom : Sat (if needsSpill then state.makeRoom value else pure state : Run ω Fault _)
      (fun next => next.Holds inserted ∧ state.SameConfig next ∧ next.storage.HasRoom value)
      ExactFault :=
    Sat.ite (fun _ => sat_makeRoom h value) fun hnot =>
      sat_pure ⟨h, ⟨rfl, rfl⟩, hfull (by simpa using hnot)⟩
  refine hroom.bind fun current hcurrent => ?_
  obtain ⟨⟨hvalid, hkind, contents, hruns, hperm⟩, hconfig, hroom⟩ := hcurrent
  refine (Storage.sat_insert hvalid hroom row _).bind fun storage hstorage => ?_
  obtain ⟨hvalid', hkind', hcontents⟩ := hstorage
  have hinserted : ({ current with storage } : ExactState).Holds (inserted ++ [⟨value, row⟩]) := by
    refine ⟨hvalid', fun run hrun => (hkind run hrun).trans hkind'.symm, contents, hruns, ?_⟩
    show (storage.contents ++ contents.flatten).Perm _
    rw [hcontents, List.append_assoc]
    refine (List.Perm.append_left _ List.perm_append_comm).trans ?_
    rw [← List.append_assoc]
    exact hperm.append_right _
  exact (sat_compactRunsIfNeeded hinserted).post fun next hnext =>
    ⟨hnext.1, hconfig.trans hnext.2.1⟩

theorem sat_seal (h : state.Holds inserted) :
    Sat (state.seal : Run ω Fault _) (fun next => state.SameConfig next ∧
      ∃ contents, List.Forall₂ RunMeta.Holds next.runs contents ∧ contents.flatten.Perm inserted)
      ExactFault := by
  unfold ExactState.seal
  refine sat_checkCancelled_exact.bind fun _ _ => ?_
  refine (sat_spillCurrent h).bind fun spilled hspilled => ?_
  refine (sat_compactRunsIfNeeded hspilled.1).post fun next hnext => ?_
  obtain ⟨⟨-, -, contents, hruns, hperm⟩, hconfig, hstorage⟩ := hnext
  rw [hstorage, hspilled.2.2.1, List.nil_append] at hperm
  exact ⟨hspilled.2.1.trans hconfig, contents, hruns, hperm⟩

omit [Crates] in
/-- The scan of the segment alone. -/
theorem sat_scanInMemory (state : ExactState) :
    Sat (state.scanInMemory : Run ω Fault _)
      (Scan.Counts state.account.limits.maxSamples state.storage.contents) ExactFault := by
  have hperm := perm_sortRecords state.storage.contents
  have hsorted := pairwise_sortRecords state.storage.contents
  unfold scanInMemory
  generalize sortRecords state.storage.contents = sorted at hperm hsorted
  refine (sat_foldlM (fun done scan => scan.After state.account.limits.maxSamples
    (done.map Prod.fst)) (Scan.after_start _) ?_).post fun scan hscan => ?_
  · rintro done ⟨record, index⟩ rest scan hsplit hscan
    refine (sat_checkEvery index).bind fun _ _ => sat_pure ?_
    rw [List.map_append]
    refine hscan.observe ?_
    have hfst := congrArg (List.map Prod.fst) hsplit
    simp only [List.zipIdx_map_fst, List.map_append, List.map_cons] at hfst
    rw [hfst, ← List.singleton_append, ← List.append_assoc] at hsorted
    exact (List.pairwise_append.mp hsorted).1
  · rw [List.zipIdx_map_fst] at hscan
    exact hscan.counts hperm

end ExactState

/-! ## What the state reports -/

/-- The counts of a summary are those of the records: how many values occur, how many records
repeat one, and the first of these in ascending order, each next to the first row of its value. -/
structure ExactSummary.Counts (maxSamples : ℕ) (records : List Record) (summary : ExactSummary) :
    Prop where
  distinct_eq : summary.distinctCount = (records.map Record.value).toFinset.card
  duplicate_eq : summary.duplicateCount = records.length - summary.distinctCount
  samples_eq : summary.duplicateSamples =
    ((duplicates Record.value records).take maxSamples).map fun (first, duplicate) =>
      { firstRow := first.row, duplicateRow := duplicate.row }

omit [Crates] in
theorem ExactState.sat_summarize {state : ExactState} {records : List Record} {scan : Scan}
    {maxSamples : ℕ} (h : scan.Counts maxSamples records) (metrics : ExactMetrics) :
    Sat (state.summarize scan metrics : Run ω Fault _) (·.Counts maxSamples records)
      ExactFault := by
  refine (sat_peakUsed (Q := fun _ => True) fun _ => trivial).bind fun _ _ => ?_
  refine (sat_peakUsed (Q := fun _ => True) fun _ => trivial).bind fun _ _ => sat_pure ⟨?_, ?_, ?_⟩
  · rw [← length_values]
    exact h.distinct_eq
  · have := length_duplicates Record.monotone_value records
    have := h.distinct_eq
    have := h.duplicate_eq
    dsimp only
    omega
  · rw [h.samples_eq]

/-- `finish` counts the inserted records. -/
theorem ExactState.sat_finish {state : ExactState} {inserted : List Record}
    (h : state.Holds inserted) :
    Sat (state.finish : Run ω Fault _) (·.Counts state.account.limits.maxSamples inserted)
      ExactFault := by
  unfold ExactState.finish
  refine Sat.ite (fun hempty => ?_) fun _ => ?_
  · obtain ⟨-, -, contents, hruns, hperm⟩ := h
    rw [List.isEmpty_iff.mp hempty] at hruns
    cases hruns
    refine (sat_scanInMemory state).bind fun scan hscan => sat_summarize ?_ _
    simp only [List.flatten_nil, List.append_nil] at hperm
    exact ⟨by rw [hscan.distinct_eq, values_perm hperm],
      by rw [hscan.duplicate_eq, duplicates_perm hperm],
      by rw [hscan.samples_eq, duplicates_perm hperm]⟩
  · refine (sat_seal h).bind fun sealed hsealed => ?_
    obtain ⟨hconfig, contents, hruns, hperm⟩ := hsealed
    refine (sat_mergeScan hruns).bind fun scan hscan => sat_summarize ?_ _
    rw [hconfig.1] at hscan
    exact ⟨by rw [hscan.distinct_eq, values_perm hperm],
      by rw [hscan.duplicate_eq, duplicates_perm hperm],
      by rw [hscan.samples_eq, duplicates_perm hperm]⟩

/-- Insert the records in order. -/
def ExactState.insertAll (state : ExactState) (records : List Record) : Run ω Fault ExactState :=
  records.foldlM (fun state record => state.insert record.value record.row) state

theorem ExactState.sat_insertAll {state : ExactState} {inserted : List Record}
    (h : state.Holds inserted) (records : List Record) :
    Sat (state.insertAll records : Run ω Fault _) (fun next =>
      next.Holds (inserted ++ records) ∧ state.SameConfig next) ExactFault := by
  refine sat_foldlM (fun done next => next.Holds (inserted ++ done) ∧ state.SameConfig next)
    ⟨by rwa [List.append_nil], rfl, rfl⟩ ?_
  intro done record rest current hsplit hcurrent
  refine (sat_insert hcurrent.1 record.value record.row).post fun next hnext => ⟨?_, ?_⟩
  · rw [← List.append_assoc]
    exact hnext.1
  · exact hcurrent.2.trans hnext.2

/-- Build a state, insert the records and finish. -/
def countExactly (kind : ValueKind) (account : ResourceAccount) (directory : Option String)
    (rowCountHint : Option ℕ) (records : List Record) : Run ω Fault ExactSummary := do
  let state ← ExactState.new kind account directory rowCountHint
  let state ← state.insertAll records
  state.finish

theorem sat_countExactly (kind : ValueKind) (account : ResourceAccount)
    (directory : Option String) (rowCountHint : Option ℕ) (records : List Record) :
    Sat (countExactly kind account directory rowCountHint records : Run ω Fault _)
      (·.Counts account.limits.maxSamples records) ExactFault := by
  unfold countExactly
  refine (ExactState.sat_new kind account directory rowCountHint).bind fun state hstate => ?_
  refine (ExactState.sat_insertAll hstate.1 records).bind fun filled hfilled => ?_
  refine (ExactState.sat_finish hfilled.1).post fun summary hsummary => ?_
  rwa [hfilled.2.1, hstate.2] at hsummary

theorem sat_antiJoinExactStates {left : ExactState} {right : SealedState}
    {leftRecords rightRecords : List Record} {contents : List (List Record)} (maxSamples : ℕ)
    (hleft : left.Holds leftRecords) (hright : List.Forall₂ RunMeta.Holds right.runs contents)
    (hperm : contents.flatten.Perm rightRecords) :
    Sat (antiJoinExactStates left right maxSamples : Run ω Fault _) (fun summary =>
      let missing := absent Record.value (firsts Record.value leftRecords)
        (values Record.value rightRecords)
      summary.leftDistinct = (values Record.value leftRecords).length ∧
      summary.rightDistinct = (values Record.value rightRecords).length ∧
      summary.missing = missing.length ∧
      summary.samples = (missing.take maxSamples).map Record.row) ExactFault := by
  unfold antiJoinExactStates
  refine (ExactState.sat_seal hleft).bind fun sealed hsealed => ?_
  obtain ⟨-, leftContents, hruns, hleftPerm⟩ := hsealed
  refine (sat_antiJoin hruns hright).bind fun summary hsummary => sat_pure ?_
  rw [firsts_perm hleftPerm, values_perm hleftPerm, values_perm hperm] at hsummary
  exact hsummary

end ProofFrame.Distinct
