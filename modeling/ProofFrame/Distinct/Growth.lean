import ProofFrame.Distinct.StateSpec

/-!
# Room in the record stores

A value goes into a store in three steps.  The store is checked for room; where
there is none the segment grows, or it is spilled if there is a directory; and
a store that is left without a segment allocates one.

* `Storage.Sized` is what holds between the insertions: no segment has more
  records or bytes than it has room for, and no arena is larger than a `u32`.
* `Storage.HasSpace` is what the first two steps establish
  (`ExactState.sat_roomFor_sized`): the value fits the segment, if there is one.
* `Storage.Opens` is what the last step needs of the allocator: the loop that
  halves a refused size ends, in a segment with room or in the refusal.
-/

namespace ProofFrame.Distinct

open Lib Lib.Run

/-- A refused reservation. -/
abbrev Refused : Fault → Prop := Fault.Coded [.resourceLimit]

/-! ## Sizes -/

section Sizes

variable {α : Type}

/-- A record slot is free. -/
def FixedSegment.Free (segment : FixedSegment α) : Prop :=
  segment.records.length < segment.capacity

/-- A record slot is free, the value fits what is left of the arena, and its offset fits a `u32`. -/
structure ByteSegment.Free (segment : ByteSegment) (value : List UInt8) : Prop where
  slot : segment.records.length < segment.recordCapacity
  room : value.length ≤ segment.byteCapacity - segment.arena.length
  offset_le : segment.arena.length ≤ u32Max

structure FixedStore.Sized (store : FixedStore α) : Prop where
  desired_pos : 1 ≤ store.desiredCapacity
  desired_le : store.desiredCapacity ≤ maxFixedRecordsPerSegment
  records_le : ∀ segment, store.segment = some segment →
    segment.records.length ≤ segment.capacity

structure ByteStore.Sized (store : ByteStore) : Prop where
  desired_le : store.desiredRecords ≤ maxByteRecordsPerSegment
  records_le : ∀ segment, store.segment = some segment →
    segment.records.length ≤ segment.recordCapacity
  valid : store.Valid

/-- The segment can take the value, if there is one. -/
def FixedStore.HasSlot (store : FixedStore α) : Prop :=
  ∀ segment, store.segment = some segment → segment.Free

def ByteStore.HasSlot (store : ByteStore) (value : List UInt8) : Prop :=
  ∀ segment, store.segment = some segment → segment.Free value

theorem FixedStore.sized_new (hinted : ℕ) : (FixedStore.new α hinted).Sized := by
  refine ⟨le_max_left _ _, ?_, by rintro _ ⟨⟩⟩
  show max 1 (min maxFixedRecordsPerSegment hinted) ≤ maxFixedRecordsPerSegment
  unfold maxFixedRecordsPerSegment
  omega

theorem ByteStore.sized_new (hinted : ℕ) : (ByteStore.new hinted).Sized := by
  refine ⟨?_, by rintro _ ⟨⟩, by rintro _ ⟨⟩⟩
  show max 1 (min maxByteRecordsPerSegment hinted) ≤ maxByteRecordsPerSegment
  unfold maxByteRecordsPerSegment
  omega

/-- A segment that is not full has a free slot. -/
theorem FixedStore.hasSlot_of_not_full {store : FixedStore α} (h : store.Sized)
    (hfull : fixedStoreIsFull store = false) : store.HasSlot := by
  intro segment hsegment
  have hle := h.records_le segment hsegment
  simp only [fixedStoreIsFull, hsegment, decide_eq_false_iff_not] at hfull
  exact lt_of_le_of_ne hle hfull

theorem ByteStore.hasSlot_of_not_full {store : ByteStore} (h : store.Sized) {value : List UInt8}
    (hfull : byteStoreIsFull store value = false) : store.HasSlot value := by
  intro segment hsegment
  have hle := h.records_le segment hsegment
  obtain ⟨-, harena, hcapacity⟩ := h.valid segment hsegment
  simp only [byteStoreIsFull, hsegment, decide_eq_false_iff_not, not_or, not_lt] at hfull
  exact ⟨lt_of_le_of_ne hle hfull.1, hfull.2, by omega⟩

/-- The offset and the length of every index fit a `u32`. -/
theorem ByteSegment.Valid.addresses {segment : ByteSegment} (h : segment.Valid) :
    ∀ index ∈ segment.records, index.offset ≤ u32Max ∧ index.length ≤ u32Max := by
  intro index hindex
  have hend := h.index_le index hindex
  have harena := h.arena_le.trans h.capacity_le
  omega

end Sizes

variable {ω : Type} [Host ω]

omit [Host ω] in
/-- A product of machine words that is known to fit one. -/
theorem sat_checkedMul_fits {message : String} {a b : ℕ} {E : Fault → Prop} (h : a * b < 2 ^ 64) :
    Sat (checkedMul message a b : Run ω Fault ℕ) (· = a * b) E := by
  unfold checkedMul
  refine (sat_failIf fun hover => ?_).bind fun _ _ => sat_pure rfl
  exact absurd h (Nat.not_lt.mpr hover)

/-! ## Allocation -/

section Allocation

variable {account : ResourceAccount}

/-- The loop ends: each refusal halves the capacity, and one record is not halved. -/
theorem sat_allocateFixedSegment_free {α : Type} {desiredCapacity : ℕ}
    (hpos : 1 ≤ desiredCapacity) (hle : desiredCapacity ≤ maxFixedRecordsPerSegment) :
    Sat (allocateFixedSegment desiredCapacity account : Run ω Fault (FixedSegment α))
      FixedSegment.Free Refused := by
  refine sat_loop (fun capacity => 1 ≤ capacity ∧ capacity ≤ maxFixedRecordsPerSegment) id
    (fun capacity hcapacity => ?_) _ _ ⟨hpos, hle⟩ (Nat.lt_succ_self _)
  obtain ⟨hpos, hle⟩ := hcapacity
  have hsize : capacity * sizeOfFixedRecord < 2 ^ 64 := by
    unfold maxFixedRecordsPerSegment at hle
    unfold sizeOfFixedRecord
    omega
  unfold allocateFixedTurn
  refine (sat_checkedMul_fits hsize).bind fun bytes _ => ?_
  refine Sat.bind (Q := fun r => ∀ e, r = .error e → e.code = .resourceLimit)
    (sat_tryReserve (by simp) (by rintro e he e' ⟨⟩; exact he)) fun r hr => ?_
  cases r with
  | ok _ => exact sat_pure hpos
  | error e =>
      have hcode := hr e rfl
      dsimp only
      by_cases hlarge : capacity > 1
      · rw [if_pos ⟨hlarge, hcode⟩]
        refine sat_pure ⟨⟨le_max_right _ _, ?_⟩, ?_⟩
        · omega
        · simp only [id]
          omega
      · rw [if_neg fun h => hlarge h.1]
        refine sat_throw ?_
        show e.code ∈ [ErrorCode.resourceLimit]
        rw [hcode]
        exact List.mem_singleton_self _

/-- The loop ends: each refusal halves what can still be halved, and then the refusal is passed on. -/
theorem sat_allocateByteSegment_free {desiredRecords : ℕ} (hpos : 1 ≤ desiredRecords)
    (hle : desiredRecords ≤ maxByteRecordsPerSegment) {value : List UInt8}
    (hvalue : value.length ≤ u32Max) :
    Sat (allocateByteSegment desiredRecords value.length account : Run ω Fault _)
      (·.Free value) Refused := by
  have hclamp : value.length ≤ clamp value.length u32Max (desiredRecords * assumedBytesPerValue) ∧
      clamp value.length u32Max (desiredRecords * assumedBytesPerValue) ≤ u32Max := by
    unfold clamp
    omega
  refine sat_loop (fun capacities => 1 ≤ capacities.1 ∧
      capacities.1 ≤ maxByteRecordsPerSegment ∧ value.length ≤ capacities.2 ∧
      capacities.2 ≤ u32Max)
    (fun capacities => capacities.1 + capacities.2) ?_ _ _
    ⟨hpos, hle, hclamp⟩ (Nat.lt_succ_self _)
  rintro ⟨recordCapacity, byteCapacity⟩ ⟨hpos, hle, hmin, hmax⟩
  have hindex : recordCapacity * sizeOfByteIndex < 2 ^ 64 := by
    unfold maxByteRecordsPerSegment at hle
    unfold sizeOfByteIndex
    omega
  have htotal : recordCapacity * sizeOfByteIndex + byteCapacity < 2 ^ 64 := by
    unfold maxByteRecordsPerSegment at hle
    unfold u32Max at hmax
    unfold sizeOfByteIndex
    omega
  unfold allocateByteTurn
  apply (sat_checkedMul_fits hindex).bind
  rintro indexBytes rfl
  apply Sat.bind (Q := fun _ => True)
    (sat_checkedAdd_of (fun hover => absurd htotal (Nat.not_lt.mpr hover)) fun _ => trivial)
  intro total _
  refine Sat.bind (Q := fun r => ∀ e, r = .error e → e.code = .resourceLimit)
    (sat_tryReserve (by simp) (by rintro e he e' ⟨⟩; exact he)) fun r hr => ?_
  cases r with
  | ok _ => exact sat_pure ⟨hpos, hmin, Nat.zero_le _⟩
  | error e =>
      have hcode := hr e rfl
      dsimp only
      by_cases hlarge : recordCapacity > 1 ∨ byteCapacity > value.length
      · rw [if_pos ⟨hcode, hlarge⟩]
        refine sat_pure ⟨⟨le_max_right _ _, ?_, le_max_right _ _, ?_⟩, ?_⟩
        · omega
        · omega
        · dsimp only
          omega
      · rw [if_neg fun h => hlarge h.2]
        refine sat_throw ?_
        show e.code ∈ [ErrorCode.resourceLimit]
        rw [hcode]
        exact List.mem_singleton_self _

/-- A store whose segment can take the value, or that has none, opens one that can. -/
theorem FixedStore.Sized.sat_openSegment {α : Type} {store : FixedStore α} (h : store.Sized)
    (hslot : store.HasSlot) :
    Sat (store.openSegment account : Run ω Fault _) FixedSegment.Free Refused := by
  unfold FixedStore.openSegment
  cases hstore : store.segment with
  | none => exact sat_allocateFixedSegment_free h.desired_pos h.desired_le
  | some segment => exact sat_pure (hslot segment hstore)

theorem ByteStore.Sized.sat_openSegment {store : ByteStore} (h : store.Sized) {value : List UInt8}
    (hslot : store.HasSlot value) (hvalue : value.length ≤ u32Max) :
    Sat (store.openSegment value.length account : Run ω Fault _) (·.Free value) Refused := by
  unfold ByteStore.openSegment
  cases hstore : store.segment with
  | none => exact sat_allocateByteSegment_free store.desired_pos h.desired_le hvalue
  | some segment => exact sat_pure (hslot segment hstore)

end Allocation

/-! ## The steps of a store -/

section Steps

variable {account : ResourceAccount}

theorem sat_insertFixed_sized {α : Type} {store : FixedStore α} (h : store.Sized)
    (hslot : store.HasSlot) (value : α) (row : UInt64) :
    Sat (insertFixed store value row account : Run ω Fault _) FixedStore.Sized fun _ => True := by
  unfold insertFixed
  apply (h.sat_openSegment hslot).returns.bind
  intro segment hfree
  refine sat_pure ⟨h.desired_pos, h.desired_le, ?_⟩
  rintro _ ⟨⟩
  show (segment.records ++ [_]).length ≤ segment.capacity
  rw [List.length_append]
  exact hfree

theorem sat_insertBytes_sized {store : ByteStore} (h : store.Sized) {value : List UInt8}
    (hslot : store.HasSlot value) (row : UInt64) :
    Sat (insertBytes store value row account : Run ω Fault _) ByteStore.Sized fun _ => True := by
  have hroom : store.HasRoom value := by
    intro segment hsegment
    have hfree := hslot segment hsegment
    have harena := (h.valid segment hsegment).arena_le
    have hle := hfree.room
    omega
  have hsized : Sat (insertBytes store value row account : Run ω Fault _)
      (fun next => next.desiredRecords ≤ maxByteRecordsPerSegment ∧
        ∀ segment, next.segment = some segment →
          segment.records.length ≤ segment.recordCapacity) fun _ => True := by
    unfold insertBytes
    apply (sat_failIf fun _ => trivial).bind
    intro _ hlength
    apply (h.sat_openSegment hslot (Nat.not_lt.mp hlength)).returns.bind
    intro segment hfree
    apply (sat_failIf fun _ => trivial).bind
    intro _ _
    refine sat_pure ⟨h.desired_le, ?_⟩
    rintro _ ⟨⟩
    show (segment.records ++ [_]).length ≤ segment.recordCapacity
    rw [List.length_append]
    exact hfree.slot
  apply ((sat_insertBytes h.valid hroom row account).and hsized).mono
  · rintro next ⟨⟨hvalid, -⟩, hdesired, hrecords⟩
    exact ⟨hdesired, hrecords, hvalid⟩
  · exact fun _ _ => trivial

/-- The segment doubles, so there is a slot for at least one more record. -/
theorem sat_growFixed_sized {α : Type} {store : FixedStore α} (h : store.Sized) :
    Sat (growFixed store account : Run ω Fault _) (fun next => next.Sized ∧ next.HasSlot)
      fun _ => True := by
  unfold growFixed
  cases hstore : store.segment with
  | none =>
      refine sat_pure ⟨h, ?_⟩
      intro segment hsegment
      rw [hstore] at hsegment
      cases hsegment
  | some segment =>
      have hle := h.records_le segment hstore
      apply (sat_checkedMul trivial).bind
      intro bytes _
      apply (sat_reserve (Q := fun _ => True) trivial).returns.bind
      intro _ _
      have hslot : segment.records.length < segment.capacity + max segment.capacity 1 := by omega
      refine sat_pure ⟨⟨h.desired_pos, h.desired_le, ?_⟩, ?_⟩
      · rintro _ ⟨⟩
        exact hslot.le
      · rintro _ ⟨⟩
        exact hslot

/-- Whichever of the index and the arena was too small is enlarged by what is missing. -/
theorem sat_growBytes_sized {store : ByteStore} (h : store.Sized) (value : List UInt8) :
    Sat (growBytes store value.length account : Run ω Fault _)
      (fun next => next.Sized ∧ next.HasSlot value) fun _ => True := by
  have hsized : Sat (growBytes store value.length account : Run ω Fault _)
      (fun next => next.desiredRecords ≤ maxByteRecordsPerSegment ∧
        ∀ segment, next.segment = some segment →
          segment.records.length < segment.recordCapacity) fun _ => True := by
    unfold growBytes
    cases hstore : store.segment with
    | none =>
        refine sat_pure ⟨h.desired_le, ?_⟩
        intro segment hsegment
        rw [hstore] at hsegment
        cases hsegment
    | some segment =>
        have hle := h.records_le segment hstore
        dsimp only
        apply (sat_failIf fun _ => trivial).bind
        intro _ _
        apply (sat_checkedMul trivial).bind
        intro _ _
        apply (sat_checkedAdd trivial).bind
        intro _ _
        apply (sat_reserve (Q := fun _ => True) trivial).returns.bind
        intro _ _
        refine sat_pure ⟨h.desired_le, ?_⟩
        rintro _ ⟨⟩
        dsimp only
        split <;> omega
  apply ((sat_growBytes h.valid value account).and hsized).mono
  · rintro next ⟨⟨hvalid, hroom, -⟩, hdesired, hslot⟩
    refine ⟨⟨hdesired, fun segment hsegment => (hslot segment hsegment).le, hvalid⟩, ?_⟩
    intro segment hsegment
    obtain ⟨-, harena, hcapacity⟩ := hvalid segment hsegment
    have hfits := hroom segment hsegment
    exact ⟨hslot segment hsegment, by omega, by omega⟩
  · exact fun _ _ => trivial

end Steps

/-! ## The storage -/

/-- No segment has more in it than it has room for. -/
def Storage.Sized : Storage → Prop
  | .i64 store => store.Sized
  | .u64 store => store.Sized
  | .f64 store => store.Sized
  | .bytes store => store.Sized

/-- The segment can take the value, if there is one.  A value of another kind is refused before. -/
def Storage.HasSpace : Storage → OwnedValue → Prop
  | .i64 store, .i64 _ => store.HasSlot
  | .u64 store, .u64 _ => store.HasSlot
  | .f64 store, .f64 _ => store.HasSlot
  | .bytes store, .bytes value => store.HasSlot value
  | _, _ => True

/-- Every offset into the arena and every length fits its field. -/
def Storage.Addressed : Storage → Prop
  | .bytes store => ∀ segment, store.segment = some segment →
      ∀ index ∈ segment.records, index.offset ≤ u32Max ∧ index.length ≤ u32Max
  | _ => True

/-- The segment the value goes to, allocated or not, can take it; or the reservation is refused.
A value longer than a `u32` is refused before it asks for a segment. -/
def Storage.Opens (ω : Type) [Host ω] (account : ResourceAccount) : Storage → OwnedValue → Prop
  | .i64 store, .i64 _ =>
      Sat (store.openSegment account : Run ω Fault _) FixedSegment.Free Refused
  | .u64 store, .u64 _ =>
      Sat (store.openSegment account : Run ω Fault _) FixedSegment.Free Refused
  | .f64 store, .f64 _ =>
      Sat (store.openSegment account : Run ω Fault _) FixedSegment.Free Refused
  | .bytes store, .bytes value => value.length ≤ u32Max →
      Sat (store.openSegment value.length account : Run ω Fault _) (·.Free value) Refused
  | _, _ => True

section Storage

variable {storage : Storage} {value : OwnedValue} {account : ResourceAccount}

theorem Storage.Sized.addressed (h : storage.Sized) : storage.Addressed := by
  cases storage with
  | bytes store => exact fun segment hsegment => (h.valid segment hsegment).addresses
  | _ => trivial

theorem Storage.Sized.opens (h : storage.Sized) (hspace : storage.HasSpace value) :
    storage.Opens ω account value := by
  cases storage <;> cases value
  case i64.i64 => exact FixedStore.Sized.sat_openSegment h hspace
  case u64.u64 => exact FixedStore.Sized.sat_openSegment h hspace
  case f64.f64 => exact FixedStore.Sized.sat_openSegment h hspace
  case bytes.bytes => exact ByteStore.Sized.sat_openSegment h hspace
  all_goals trivial

omit [Host ω] in
theorem Storage.sat_isFull_sized (h : storage.Sized) :
    Sat (lift (storage.isFull value) : Run ω Fault Bool)
      (fun full => full = false → storage.HasSpace value) fun _ => True := by
  refine sat_lift (fun full hfull hfalse => ?_) fun _ _ => trivial
  subst hfalse
  cases storage <;> cases value
  case i64.i64 => exact FixedStore.hasSlot_of_not_full h (Except.ok.inj hfull)
  case u64.u64 => exact FixedStore.hasSlot_of_not_full h (Except.ok.inj hfull)
  case f64.f64 => exact FixedStore.hasSlot_of_not_full h (Except.ok.inj hfull)
  case bytes.bytes => exact ByteStore.hasSlot_of_not_full h (Except.ok.inj hfull)
  all_goals trivial

theorem Storage.sat_grow_sized (h : storage.Sized) (value : OwnedValue) :
    Sat (storage.grow value account : Run ω Fault _)
      (fun next => next.Sized ∧ next.HasSpace value) fun _ => True := by
  have hfixed : ∀ {α : Type} {store : FixedStore α}, store.Sized →
      Sat (growFixed store account : Run ω Fault _) (fun next => next.Sized ∧ next.HasSlot)
        fun _ => True := sat_growFixed_sized
  cases storage with
  | i64 store =>
      apply (hfixed h).map
      rintro next ⟨hsized, hslot⟩
      exact ⟨hsized, by cases value <;> first | exact hslot | trivial⟩
  | u64 store =>
      apply (hfixed h).map
      rintro next ⟨hsized, hslot⟩
      exact ⟨hsized, by cases value <;> first | exact hslot | trivial⟩
  | f64 store =>
      apply (hfixed h).map
      rintro next ⟨hsized, hslot⟩
      exact ⟨hsized, by cases value <;> first | exact hslot | trivial⟩
  | bytes store =>
      cases value with
      | bytes value => exact (sat_growBytes_sized h value).map fun _ hnext => hnext
      | _ => exact (sat_growBytes_sized h []).map fun _ hnext => ⟨hnext.1, trivial⟩

theorem Storage.sat_insert_sized (h : storage.Sized) (hspace : storage.HasSpace value)
    (row : UInt64) :
    Sat (storage.insert row account value : Run ω Fault _) Storage.Sized fun _ => True := by
  cases storage <;> cases value
  case i64.i64 => exact (sat_insertFixed_sized h hspace _ row).map fun _ hnext => hnext
  case u64.u64 => exact (sat_insertFixed_sized h hspace _ row).map fun _ hnext => hnext
  case f64.f64 => exact (sat_insertFixed_sized h hspace _ row).map fun _ hnext => hnext
  case bytes.bytes => exact (sat_insertBytes_sized h hspace row).map fun _ hnext => hnext
  all_goals exact sat_throw trivial

variable [Crates]

/-- A spilled store is left without a segment. -/
theorem sat_spillFixed_sized {α : Type} [FixedValue α] {store : FixedStore α} (h : store.Sized) :
    Sat (spillFixed store account : Run ω Fault _)
      (fun spilled => spilled.1.Sized ∧ spilled.1.HasSlot) fun _ => True := by
  have hnone : ({ store with segment := none } : FixedStore α).Sized ∧
      ({ store with segment := none } : FixedStore α).HasSlot :=
    ⟨⟨h.desired_pos, h.desired_le, by rintro _ ⟨⟩⟩, by rintro _ ⟨⟩⟩
  unfold spillFixed
  refine Sat.ite (fun _ => sat_pure hnone) fun _ => ?_
  exact (sat_known trivial).bind fun run _ => sat_pure hnone

theorem sat_spillBytes_sized {store : ByteStore} (h : store.Sized) :
    Sat (spillBytes store account : Run ω Fault _)
      (fun spilled => spilled.1.Sized ∧ ∀ value, spilled.1.HasSlot value) fun _ => True := by
  have hnone : ({ store with segment := none } : ByteStore).Sized ∧
      ∀ value, ({ store with segment := none } : ByteStore).HasSlot value :=
    ⟨⟨h.desired_le, by rintro _ ⟨⟩, by rintro _ ⟨⟩⟩, fun _ => by rintro _ ⟨⟩⟩
  unfold spillBytes
  refine Sat.ite (fun _ => sat_pure hnone) fun _ => ?_
  exact (sat_known trivial).bind fun run _ => sat_pure hnone

theorem Storage.sat_spill_sized (h : storage.Sized) :
    Sat (storage.spill account : Run ω Fault _)
      (fun spilled => spilled.1.Sized ∧ ∀ value, spilled.1.HasSpace value) fun _ => True := by
  cases storage with
  | i64 store =>
      apply (sat_spillFixed_sized h).map
      rintro ⟨next, run⟩ ⟨hsized, hslot⟩
      exact ⟨hsized, fun value => by cases value <;> first | exact hslot | trivial⟩
  | u64 store =>
      apply (sat_spillFixed_sized h).map
      rintro ⟨next, run⟩ ⟨hsized, hslot⟩
      exact ⟨hsized, fun value => by cases value <;> first | exact hslot | trivial⟩
  | f64 store =>
      apply (sat_spillFixed_sized h).map
      rintro ⟨next, run⟩ ⟨hsized, hslot⟩
      exact ⟨hsized, fun value => by cases value <;> first | exact hslot | trivial⟩
  | bytes store =>
      apply (sat_spillBytes_sized h).map
      rintro ⟨next, run⟩ ⟨hsized, hslot⟩
      exact ⟨hsized, fun value => by cases value <;> first | exact hslot _ | trivial⟩

end Storage

/-! ## The state -/

namespace ExactState

variable [Crates] {state : ExactState} {value : OwnedValue}

/-- The first two steps of an insertion: the check for room and, where there is none, the room. -/
def roomFor (state : ExactState) (value : OwnedValue) : Run ω Fault ExactState := do
  let needsSpill ← lift (state.storage.isFull value)
  if needsSpill then state.makeRoom value else pure state

/-- An insertion makes room and then writes to the storage. -/
theorem insert_eq (state : ExactState) (value : OwnedValue) (row : UInt64) :
    (state.insert value row : Run ω Fault ExactState) = (do
      let roomed ← state.roomFor value
      let storage ← roomed.storage.insert row roomed.account value
      { roomed with storage }.compactRunsIfNeeded) := by
  unfold ExactState.insert roomFor
  rw [bind_assoc]

theorem sat_compactRunsIfNeeded_storage (state : ExactState) :
    Sat (state.compactRunsIfNeeded : Run ω Fault _) (fun next => next.storage = state.storage)
      fun _ => True := by
  refine sat_loop (fun next => next.storage = state.storage) (fun next => next.runs.length)
    (fun current hcurrent => ?_) _ _ rfl (Nat.lt_succ_self _)
  unfold compactTurn
  refine Sat.ite (fun _ => sat_pure hcurrent) fun hmany => ?_
  refine sat_checkCancelled_exact.returns.bind fun _ _ => ?_
  refine (sat_spillTarget _ _).returns.bind fun _ _ => ?_
  refine (sat_known trivial).bind fun compacted _ => sat_pure ⟨hcurrent, ?_⟩
  unfold Distinct.maxMergeFanIn at *
  simp only [List.length_cons, List.length_drop]
  omega

theorem sat_makeRoom_sized (h : state.storage.Sized) (value : OwnedValue) :
    Sat (state.makeRoom value : Run ω Fault _)
      (fun next => next.storage.Sized ∧ next.storage.HasSpace value) fun _ => True := by
  unfold makeRoom
  by_cases hdirectory : state.directory.isNone = true
  · rw [if_pos hdirectory]
    apply (Storage.sat_grow_sized h value).bind
    intro storage hstorage
    exact sat_pure hstorage
  · rw [if_neg hdirectory]
    unfold spillCurrent
    rw [bind_assoc]
    refine (sat_spillTarget _ _).returns.bind fun _ _ => ?_
    rw [bind_assoc]
    apply (Storage.sat_spill_sized h).bind
    rintro ⟨storage, run⟩ ⟨hsized, hspace⟩
    rw [pure_bind]
    apply (sat_compactRunsIfNeeded_storage _).post
    intro next hnext
    rw [hnext]
    exact ⟨hsized, hspace value⟩

theorem sat_roomFor_sized (h : state.storage.Sized) (value : OwnedValue) :
    Sat (state.roomFor value : Run ω Fault _)
      (fun next => next.storage.Sized ∧ next.storage.HasSpace value) fun _ => True := by
  unfold roomFor
  apply (Storage.sat_isFull_sized h).bind
  intro full hfull
  cases full with
  | true => exact sat_makeRoom_sized h value
  | false => exact sat_pure ⟨h, hfull rfl⟩

/-- The step: an insertion keeps the sizes. -/
theorem sat_insert_sized (h : state.storage.Sized) (value : OwnedValue) (row : UInt64) :
    Sat (state.insert value row : Run ω Fault _) (fun next => next.storage.Sized)
      fun _ => True := by
  rw [insert_eq]
  apply (sat_roomFor_sized h value).bind
  rintro roomed ⟨hsized, hspace⟩
  apply (Storage.sat_insert_sized hsized hspace row).bind
  intro storage hstorage
  apply (sat_compactRunsIfNeeded_storage _).post
  intro next hnext
  rw [hnext]
  exact hstorage

omit [Crates] in
theorem sat_new_sized (kind : ValueKind) (account : ResourceAccount) (directory : Option String)
    (rowCountHint : Option ℕ) :
    Sat (ExactState.new kind account directory rowCountHint : Run ω Fault _)
      (fun state => state.storage.Sized) fun _ => True := by
  unfold ExactState.new
  refine (sat_known trivial).bind fun _ _ => ?_
  refine (sat_known trivial).bind fun _ _ => ?_
  refine (sat_known trivial).bind fun _ _ => sat_pure ?_
  cases kind with
  | bytes => exact ByteStore.sized_new _
  | _ => exact FixedStore.sized_new _

/-- The run: any insertions keep the sizes. -/
theorem sat_insertAll_sized (h : state.storage.Sized) (records : List Record) :
    Sat (state.insertAll records : Run ω Fault _) (fun next => next.storage.Sized)
      fun _ => True := by
  refine sat_foldlM (fun _ (next : ExactState) => next.storage.Sized) h ?_
  intro done record rest current _ hcurrent
  exact sat_insert_sized hcurrent record.value record.row

/-- The room is made without any fault but those of the surroundings. -/
theorem sat_roomFor {inserted : List Record} (h : state.Holds inserted) (value : OwnedValue) :
    Sat (state.roomFor value : Run ω Fault _) (fun _ => True) ExactFault := by
  unfold roomFor
  apply (Storage.sat_isFull h.valid value).bind
  intro full _
  cases full with
  | true => exact (sat_makeRoom h value).post fun _ _ => trivial
  | false => exact sat_pure trivial

end ExactState

/-- **The growth of a record store is safe.**  Whatever is inserted into a new state, no segment
comes to hold more than it has room for, and every offset and length of an index fits its field.
After the check for room the next value fits the segment that is there; the one that is allocated
where none is fits it too, or the reservation is refused.  No step panics or runs on. -/
theorem inserts_have_room [Crates] (kind : ValueKind) (account : ResourceAccount)
    (directory : Option String) (rowCountHint : Option ℕ) (records : List Record) :
    Sat (do
        let state ← ExactState.new kind account directory rowCountHint
        state.insertAll records : Run ω Fault ExactState)
      (fun state => state.storage.Sized ∧ state.storage.Addressed ∧
        ∀ value, Sat (state.roomFor value : Run ω Fault ExactState) (fun next =>
          next.storage.HasSpace value ∧ next.storage.Addressed ∧
            next.storage.Opens ω next.account value) ExactFault)
      ExactFault := by
  apply Sat.bind (Q := fun state => state.Holds [] ∧ state.storage.Sized)
  · apply ((ExactState.sat_new kind account directory rowCountHint).and
      (ExactState.sat_new_sized kind account directory rowCountHint)).mono
    · rintro state ⟨⟨hholds, -⟩, hsized⟩
      exact ⟨hholds, hsized⟩
    · exact fun _ hfault => hfault.1
  · rintro state ⟨hholds, hsized⟩
    apply ((ExactState.sat_insertAll hholds records).and
      (ExactState.sat_insertAll_sized hsized records)).mono
    · rintro next ⟨⟨hholds, -⟩, hsized⟩
      refine ⟨hsized, hsized.addressed, fun value => ?_⟩
      apply ((ExactState.sat_roomFor hholds value).and
        (ExactState.sat_roomFor_sized hsized value)).mono
      · rintro roomed ⟨-, hroomed, hspace⟩
        exact ⟨hspace, hroomed.addressed, hroomed.opens hspace⟩
      · exact fun _ hfault => hfault.1
    · exact fun _ hfault => hfault.1

end ProofFrame.Distinct
