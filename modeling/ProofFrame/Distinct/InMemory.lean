import Mathlib.Data.Nat.Log
import ProofFrame.Distinct.StateSpec

/-!
# Exact states without a directory

A state with no directory to spill into keeps all its records in the segment.
The segment starts at its default size and doubles whenever it is full, so the
only limit it meets is the budget: no step asks for a file, no size overflows
before the budget refuses it, and the state finishes without a run.
-/

namespace ProofFrame.Distinct

open Lib Lib.Run

variable {ω : Type} [Host ω]

/-- No reservation is larger than what an allocation can hold, `isize::MAX` bytes. -/
def Allocatable (ω : Type) [Host ω] : Prop :=
  ∀ (world : ω) (account : ResourceAccount) (kind : ResourceKind) (bytes : ℕ) (world' : ω),
    Host.reserve world account kind bytes = (.ok (), world') → bytes < 2 ^ 63

/-- The faults that may end a step in memory: a refused reservation, a cancellation, and, where
reservations know no bound, a size that overflows. -/
structure MemoryFaults (ω : Type) [Host ω] (Env : Fault → Prop) : Prop where
  refused : ∀ e : ProofFrameError, e.code = .resourceLimit → Env (.error e)
  cancelled : Sat (checkCancelled : Run ω Fault Unit) (fun _ => True) Env
  overflow : Allocatable ω ∨ ∀ message, Env (corrupt message)

/-- Where only the faults of exact states arise, the others may count as faults too. -/
theorem MemoryFaults.exact {Env : Fault → Prop} (h : MemoryFaults ω Env) :
    MemoryFaults ω fun fault => ExactFault fault → Env fault where
  refused e he _ := h.refused e he
  cancelled := h.cancelled.mono (fun _ hok => hok) fun _ hfault _ => hfault
  overflow := h.overflow.imp id fun hany message _ => hany message

section Sizes

variable {Env : Fault → Prop} {account : ResourceAccount} {kind : ResourceKind} {bytes : ℕ}

theorem sat_tryReserve_memory : Sat (tryReserve account kind bytes : Run ω Fault _)
    (fun
      | .ok () => Allocatable ω → bytes < 2 ^ 63
      | .error e => e.code = .resourceLimit) Env := by
  intro world
  unfold tryReserve
  rcases hreserve : Host.reserve world account kind bytes with ⟨⟨used, limit⟩ | _, world'⟩
  · exact rfl
  · exact fun hbounded => hbounded world account kind bytes world' hreserve

theorem sat_reserve_memory (henv : MemoryFaults ω Env) :
    Sat (reserve account kind bytes : Run ω Fault Unit)
      (fun _ => Allocatable ω → bytes < 2 ^ 63) Env := by
  apply sat_tryReserve_memory.bind
  intro r hr
  cases r with
  | ok _ => exact sat_pure hr
  | error e => exact sat_throw (henv.refused e hr)

theorem sat_checkedMul_memory (henv : MemoryFaults ω Env) {message : String} {a b : ℕ}
    (h : Allocatable ω → a * b < 2 ^ 64) :
    Sat (checkedMul message a b : Run ω Fault ℕ) (· = a * b) Env := by
  unfold checkedMul
  apply Sat.bind (Q := fun _ => True)
  · refine (sat_failIf fun hover => ?_).post fun _ _ => trivial
    rcases henv.overflow with hbounded | hany
    · exact absurd hover (Nat.not_le.mpr (h hbounded))
    · exact hany message
  · exact fun _ _ => sat_pure rfl

theorem sat_checkedAdd_memory (henv : MemoryFaults ω Env) {message : String} {a b : ℕ}
    (h : Allocatable ω → a + b < 2 ^ 64) :
    Sat (checkedAdd message a b : Run ω Fault ℕ) (· = a + b) Env := by
  unfold checkedAdd
  apply Sat.bind (Q := fun _ => True)
  · refine (sat_failIf fun hover => ?_).post fun _ _ => trivial
    rcases henv.overflow with hbounded | hany
    · exact absurd hover (Nat.not_le.mpr (h hbounded))
    · exact hany message
  · exact fun _ _ => sat_pure rfl

end Sizes

/-! ## Segments -/

/-- The size of a segment and the size of its next enlargement are machine words. -/
def FixedStore.Small {α : Type} (store : FixedStore α) : Prop :=
  store.desiredCapacity ≤ maxFixedRecordsPerSegment ∧
    ∀ segment, store.segment = some segment → segment.capacity * sizeOfFixedRecord < 2 ^ 64

/-- The capacity in records is a power of two, as doubling and halving keep it. -/
def ByteStore.Small (store : ByteStore) : Prop :=
  (store.desiredRecords ≤ maxByteRecordsPerSegment ∧ ∃ k, store.desiredRecords = 2 ^ k) ∧
    ∀ segment, store.segment = some segment →
      segment.recordCapacity * sizeOfByteIndex < 2 ^ 64 ∧ ∃ k, segment.recordCapacity = 2 ^ k

/-- Halving a power of two, down to one. -/
theorem exists_two_pow_half {n k : ℕ} (h : n = 2 ^ k) : ∃ k', max (n / 2) 1 = 2 ^ k' := by
  subst h
  cases k with
  | zero => exact ⟨0, rfl⟩
  | succ k =>
      refine ⟨k, ?_⟩
      have hpos := Nat.two_pow_pos k
      rw [pow_succ]
      omega

section Segments

variable {Env : Fault → Prop} {account : ResourceAccount}

theorem sat_allocateFixedSegment_memory {α : Type} (henv : MemoryFaults ω Env)
    {desiredCapacity : ℕ}
    (h : Allocatable ω → desiredCapacity ≤ maxFixedRecordsPerSegment) :
    Sat (allocateFixedSegment desiredCapacity account : Run ω Fault (FixedSegment α))
      (fun segment => Allocatable ω → segment.capacity * sizeOfFixedRecord < 2 ^ 64) Env := by
  refine sat_loop (fun capacity => Allocatable ω → capacity ≤ maxFixedRecordsPerSegment) id
    (fun capacity hcapacity => ?_) _ _ h (Nat.lt_succ_self _)
  have hsize : Allocatable ω → capacity * sizeOfFixedRecord < 2 ^ 64 := by
    intro hbounded
    have hle := hcapacity hbounded
    unfold maxFixedRecordsPerSegment at hle
    unfold sizeOfFixedRecord
    omega
  unfold allocateFixedTurn
  apply (sat_checkedMul_memory henv hsize).bind
  intro bytes _
  apply sat_tryReserve_memory.bind
  intro r hr
  cases r with
  | ok _ => exact sat_pure hsize
  | error e =>
      apply Sat.ite
      · intro hlarge
        refine sat_pure ⟨fun hbounded => ?_, ?_⟩
        · have hle := hcapacity hbounded
          omega
        · simp only [id]
          omega
      · intro _
        exact sat_throw (henv.refused e hr)

theorem sat_insertFixed_memory {α : Type} (henv : MemoryFaults ω Env) {store : FixedStore α}
    (h : Allocatable ω → store.Small) (value : α) (row : UInt64) :
    Sat (insertFixed store value row account : Run ω Fault _)
      (fun next => Allocatable ω → next.Small) Env := by
  unfold insertFixed FixedStore.openSegment
  apply Sat.bind (Q := fun segment => Allocatable ω → segment.capacity * sizeOfFixedRecord < 2 ^ 64)
  · cases hstore : store.segment with
    | some segment => exact sat_pure fun hbounded => (h hbounded).2 segment hstore
    | none => exact sat_allocateFixedSegment_memory henv fun hbounded => (h hbounded).1
  · intro segment hsegment
    refine sat_pure fun hbounded => ⟨(h hbounded).1, ?_⟩
    rintro _ ⟨⟩
    exact hsegment hbounded

/-- A segment whose last enlargement was granted can be asked to double once more. -/
theorem sat_growFixed_memory {α : Type} (henv : MemoryFaults ω Env) {store : FixedStore α}
    (h : Allocatable ω → store.Small) :
    Sat (growFixed store account : Run ω Fault _) (fun next => Allocatable ω → next.Small) Env := by
  unfold growFixed
  cases hstore : store.segment with
  | none => exact sat_pure h
  | some segment =>
      have hsize : Allocatable ω → max segment.capacity 1 * sizeOfFixedRecord < 2 ^ 64 := by
        intro hbounded
        have hlt := (h hbounded).2 segment hstore
        unfold sizeOfFixedRecord at *
        omega
      apply (sat_checkedMul_memory henv hsize).bind
      rintro bytes rfl
      apply (sat_reserve_memory henv).bind
      intro _ hgranted
      refine sat_pure fun hbounded => ⟨(h hbounded).1, ?_⟩
      rintro _ ⟨⟩
      have hlt := hgranted hbounded
      unfold sizeOfFixedRecord at *
      dsimp only
      omega

theorem sat_allocateByteSegment_memory (henv : MemoryFaults ω Env)
    {desiredRecords minimumBytes : ℕ} (hdesired : 1 ≤ desiredRecords)
    (hminimum : minimumBytes ≤ u32Max)
    (h : Allocatable ω → desiredRecords ≤ maxByteRecordsPerSegment ∧ ∃ k, desiredRecords = 2 ^ k) :
    Sat (allocateByteSegment desiredRecords minimumBytes account : Run ω Fault _)
      (fun segment => Allocatable ω → segment.recordCapacity * sizeOfByteIndex < 2 ^ 64 ∧
        ∃ k, segment.recordCapacity = 2 ^ k) Env := by
  refine sat_loop (fun capacities => 1 ≤ capacities.1 ∧ minimumBytes ≤ capacities.2 ∧
      capacities.2 ≤ u32Max ∧ (Allocatable ω → capacities.1 ≤ maxByteRecordsPerSegment ∧
        ∃ k, capacities.1 = 2 ^ k))
    (fun capacities => capacities.1 + capacities.2) ?_ _ _
    ⟨hdesired, ?_, ?_, h⟩ (Nat.lt_succ_self _)
  case refine_2 =>
    unfold clamp
    omega
  case refine_3 =>
    unfold clamp
    omega
  rintro ⟨recordCapacity, byteCapacity⟩ ⟨hpos, hmin, hmax, hrecords⟩
  -- where capacities are bounded, what is asked for stays within 64 bits
  have hindex : Allocatable ω → recordCapacity * sizeOfByteIndex < 2 ^ 64 := by
    intro hbounded
    have hle := (hrecords hbounded).1
    unfold maxByteRecordsPerSegment at hle
    unfold sizeOfByteIndex
    omega
  unfold allocateByteTurn
  apply (sat_checkedMul_memory henv hindex).bind
  rintro indexBytes rfl
  have htotal : Allocatable ω → recordCapacity * sizeOfByteIndex + byteCapacity < 2 ^ 64 := by
    intro hbounded
    have hle := (hrecords hbounded).1
    unfold maxByteRecordsPerSegment at hle
    unfold sizeOfByteIndex
    unfold u32Max at hmax
    omega
  apply (sat_checkedAdd_memory henv htotal).bind
  intro total _
  apply sat_tryReserve_memory.bind
  intro r hr
  cases r with
  | ok _ => exact sat_pure fun hbounded => ⟨hindex hbounded, (hrecords hbounded).2⟩
  | error e =>
      apply Sat.ite
      · rintro ⟨-, hlarge⟩
        refine sat_pure ⟨⟨le_max_right _ _, le_max_right _ _, by omega, fun hbounded => ?_⟩, ?_⟩
        · obtain ⟨hle, k, hk⟩ := hrecords hbounded
          refine ⟨?_, exists_two_pow_half hk⟩
          omega
        · dsimp only
          omega
      · intro _
        exact sat_throw (henv.refused e hr)

theorem sat_insertBytes_memory (henv : MemoryFaults ω Env)
    (hpanic : Env (.panic "byte capacity fits u32")) {store : ByteStore}
    (h : Allocatable ω → store.Small) (value : List UInt8) (row : UInt64) :
    Sat (insertBytes store value row account : Run ω Fault _)
      (fun next => Allocatable ω → next.Small) Env := by
  unfold insertBytes ByteStore.openSegment
  refine (sat_failIf fun _ => henv.refused _ rfl).bind fun _ hlength => ?_
  apply Sat.bind (Q := fun segment => Allocatable ω →
    segment.recordCapacity * sizeOfByteIndex < 2 ^ 64 ∧ ∃ k, segment.recordCapacity = 2 ^ k)
  · cases hstore : store.segment with
    | some segment => exact sat_pure fun hbounded => (h hbounded).2 segment hstore
    | none =>
        exact sat_allocateByteSegment_memory henv store.desired_pos
          (Nat.not_lt.mp hlength) fun hbounded =>
          (h hbounded).1
  · intro segment hsegment
    refine (sat_failIf fun _ => hpanic).bind fun _ _ => ?_
    refine sat_pure fun hbounded => ⟨(h hbounded).1, ?_⟩
    rintro _ ⟨⟩
    exact hsegment hbounded

/-- The sixteen bytes of a power of two of records fit a word with room for an arena. -/
theorem two_pow_mul_le {k : ℕ} (h : 2 ^ k * sizeOfByteIndex < 2 ^ 64) :
    2 ^ k * sizeOfByteIndex ≤ 2 ^ 63 := by
  have hsize : sizeOfByteIndex = 2 ^ 4 := rfl
  rw [hsize, ← pow_add] at h ⊢
  have hlt : k + 4 < 64 := (Nat.pow_lt_pow_iff_right (by decide)).mp h
  exact Nat.pow_le_pow_right (by decide) (by omega)

theorem sat_growBytes_memory (henv : MemoryFaults ω Env) {store : ByteStore}
    (h : Allocatable ω → store.Small) (valueLength : ℕ) :
    Sat (growBytes store valueLength account : Run ω Fault _)
      (fun next => Allocatable ω → next.Small) Env := by
  unfold growBytes
  cases hstore : store.segment with
  | none => exact sat_pure h
  | some segment =>
      dsimp only
      generalize hextra : (if valueLength > segment.byteCapacity - segment.arena.length
        then max (max segment.byteCapacity (valueLength -
          (segment.byteCapacity - segment.arena.length))) 1 else 0) = extraBytes
      generalize hdouble : (if segment.records.length = segment.recordCapacity
        then max segment.recordCapacity 1 else 0) = extraRecords
      -- either nothing is added to the index or it doubles
      have hrecords : Allocatable ω → extraRecords * sizeOfByteIndex ≤ 2 ^ 63 ∧
          ∃ k, segment.recordCapacity = 2 ^ k ∧ (extraRecords = 0 ∨ extraRecords = 2 ^ k) := by
        intro hbounded
        obtain ⟨hlt, k, hk⟩ := (h hbounded).2 segment hstore
        have hpos := Nat.two_pow_pos k
        rw [hk] at hlt hdouble
        split at hdouble
        · obtain rfl : 2 ^ k = extraRecords := by omega
          exact ⟨two_pow_mul_le hlt, k, hk, .inr rfl⟩
        · subst hdouble
          exact ⟨by simp, k, hk, .inl rfl⟩
      refine (sat_failIf fun _ => henv.refused _ rfl).bind fun _ hgrown => ?_
      have hindex : Allocatable ω → extraRecords * sizeOfByteIndex < 2 ^ 64 := by
        intro hbounded
        have hle := (hrecords hbounded).1
        omega
      apply (sat_checkedMul_memory henv hindex).bind
      rintro indexBytes rfl
      have htotal : Allocatable ω → extraRecords * sizeOfByteIndex + extraBytes < 2 ^ 64 := by
        intro hbounded
        have hle := (hrecords hbounded).1
        unfold u32Max at hgrown
        omega
      apply (sat_checkedAdd_memory henv htotal).bind
      rintro bytes rfl
      apply (sat_reserve_memory henv).bind
      intro _ hgranted
      refine sat_pure fun hbounded => ⟨(h hbounded).1, ?_⟩
      rintro _ ⟨⟩
      obtain ⟨-, k, hk, hzero | hdoubled⟩ := hrecords hbounded
      · obtain ⟨hlt, -⟩ := (h hbounded).2 segment hstore
        rw [hzero]
        exact ⟨hlt, k, hk⟩
      · have hlt := hgranted hbounded
        unfold sizeOfByteIndex at *
        refine ⟨?_, k + 1, ?_⟩
        · dsimp only
          omega
        · dsimp only
          rw [hk, hdoubled, pow_succ]
          omega

end Segments

/-! ## The storage -/

/-- The segment of the storage is small. -/
def Storage.Small : Storage → Prop
  | .i64 store => store.Small
  | .u64 store => store.Small
  | .f64 store => store.Small
  | .bytes store => store.Small

section Storage

variable {Env : Fault → Prop} {account : ResourceAccount} {storage : Storage}

theorem Storage.sat_grow_memory (henv : MemoryFaults ω Env)
    (h : Allocatable ω → storage.Small) (value : OwnedValue) :
    Sat (storage.grow value account : Run ω Fault _) (fun next => next.kind = storage.kind ∧
      (Allocatable ω → next.Small)) Env := by
  cases storage with
  | i64 store => exact (sat_growFixed_memory henv h).map fun _ hnext => ⟨rfl, hnext⟩
  | u64 store => exact (sat_growFixed_memory henv h).map fun _ hnext => ⟨rfl, hnext⟩
  | f64 store => exact (sat_growFixed_memory henv h).map fun _ hnext => ⟨rfl, hnext⟩
  | bytes store => exact (sat_growBytes_memory henv h _).map fun _ hnext => ⟨rfl, hnext⟩

theorem Storage.sat_insert_memory (henv : MemoryFaults ω Env)
    (hpanic : Env (.panic "byte capacity fits u32")) (h : Allocatable ω → storage.Small)
    {value : OwnedValue} (hkind : value.kind = storage.kind) (row : UInt64) :
    Sat (storage.insert row account value : Run ω Fault _) (fun next =>
      next.kind = storage.kind ∧ (Allocatable ω → next.Small)) Env := by
  cases storage <;> cases value <;> try cases hkind
  case i64.i64 store value =>
    exact (sat_insertFixed_memory henv h value row).map fun _ hnext => ⟨rfl, hnext⟩
  case u64.u64 store value =>
    exact (sat_insertFixed_memory henv h value row).map fun _ hnext => ⟨rfl, hnext⟩
  case f64.f64 store bits =>
    exact (sat_insertFixed_memory henv h ⟨bits⟩ row).map fun _ hnext => ⟨rfl, hnext⟩
  case bytes.bytes store value =>
    exact (sat_insertBytes_memory henv hpanic h value row).map fun _ hnext => ⟨rfl, hnext⟩

/-- A value of the storage's kind is not refused for its kind. -/
theorem Storage.isFull_of_kind {value : OwnedValue} (hkind : value.kind = storage.kind) :
    ∃ full, storage.isFull value = .ok full := by
  cases storage <;> cases value <;> first
    | exact ⟨_, rfl⟩
    | cases hkind

end Storage

/-! ## The state -/

variable [Crates]

/-- A state that has nowhere to spill to and has spilled nothing. -/
structure ExactState.Unspilled (ω : Type) [Host ω] (kind : ValueKind) (state : ExactState) :
    Prop where
  directory_eq : state.directory = none
  runs_eq : state.runs = []
  kind_eq : state.storage.kind = kind
  small : Allocatable ω → state.storage.Small

namespace ExactState

variable {Env : Fault → Prop} {kind : ValueKind} {state : ExactState}

theorem sat_compactRunsIfNeeded_memory (h : state.runs = []) :
    Sat (state.compactRunsIfNeeded : Run ω Fault _) (· = state) Env := by
  refine sat_loop (· = state) (fun _ => 0) ?_ _ _ rfl (Nat.succ_pos _)
  rintro _ rfl
  unfold compactTurn
  rw [if_pos (by rw [h]; exact Nat.zero_le _)]
  exact sat_pure rfl

theorem Unspilled.sat_insert (henv : MemoryFaults ω Env)
    (hpanic : Env (.panic "byte capacity fits u32")) (h : state.Unspilled ω kind)
    {value : OwnedValue} (hkind : value.kind = kind) (row : UInt64) :
    Sat (state.insert value row : Run ω Fault _) (Unspilled ω kind) Env := by
  obtain ⟨full, hfull⟩ := Storage.isFull_of_kind (hkind.trans h.kind_eq.symm)
  unfold ExactState.insert
  apply Sat.bind (Q := fun _ => True)
  · rw [hfull]
    exact sat_lift (fun _ _ => trivial) (by rintro _ ⟨⟩)
  · intro full _
    apply Sat.bind (Q := Unspilled ω kind)
    · apply Sat.ite
      · intro _
        unfold makeRoom
        rw [if_pos (by rw [h.directory_eq]; rfl)]
        apply (Storage.sat_grow_memory henv h.small value).bind
        rintro storage ⟨hkindEq, hsmall⟩
        exact sat_pure ⟨h.directory_eq, h.runs_eq, hkindEq.trans h.kind_eq, hsmall⟩
      · intro _
        exact sat_pure h
    · intro current hcurrent
      apply (Storage.sat_insert_memory henv hpanic hcurrent.small
        (hkind.trans hcurrent.kind_eq.symm) row).bind
      rintro storage ⟨hkindEq, hsmall⟩
      have hnext : Unspilled ω kind { current with storage } :=
        ⟨hcurrent.directory_eq, hcurrent.runs_eq, hkindEq.trans hcurrent.kind_eq, hsmall⟩
      apply (sat_compactRunsIfNeeded_memory hnext.runs_eq).post
      rintro _ rfl
      exact hnext

/-- A state that spilled nothing reports no run. -/
theorem Unspilled.sat_finish (henv : MemoryFaults ω Env) (h : state.Unspilled ω kind) :
    Sat (state.finish : Run ω Fault _) (fun summary =>
      summary.metrics.spillBytes = 0 ∧ summary.metrics.runs = 0) Env := by
  unfold ExactState.finish
  rw [if_pos (by rw [h.runs_eq]; rfl)]
  apply Sat.bind (Q := fun _ => True)
  · apply sat_foldlM fun _ _ => True
    · trivial
    · rintro done ⟨record, index⟩ rest scan _ _
      apply Sat.bind (Q := fun _ => True)
      · exact Sat.ite (fun _ => henv.cancelled) fun _ => sat_pure trivial
      · exact fun _ _ => sat_pure trivial
  · intro scan _
    apply (sat_peakUsed (Q := fun _ => True) fun _ => trivial).bind
    intro _ _
    apply (sat_peakUsed (Q := fun _ => True) fun _ => trivial).bind
    intro _ _
    exact sat_pure ⟨rfl, rfl⟩

omit [Crates] in
/-- A state without a directory asks for its samples alone. -/
theorem sat_new_memory (henv : MemoryFaults ω Env) (kind : ValueKind) (account : ResourceAccount)
    (rowCountHint : Option ℕ)
    (hsamples : account.limits.maxSamples * sizeOfDuplicateSample < 2 ^ 64 ∨
      ∀ message, Env (corrupt message)) :
    Sat (ExactState.new kind account none rowCountHint : Run ω Fault _) (Unspilled ω kind)
      Env := by
  unfold ExactState.new
  apply Sat.bind (Q := fun _ => True)
  · exact sat_whenever (by rintro ⟨⟩) fun _ => trivial
  · intro _ _
    apply Sat.bind (Q := fun _ => True)
    · unfold checkedMul
      apply Sat.bind (Q := fun _ => True)
      · refine (sat_failIf fun hover => ?_).post fun _ _ => trivial
        rcases hsamples with hlt | hany
        · omega
        · exact hany _
      · exact fun _ _ => sat_pure trivial
    · intro bytes _
      apply (sat_reserve_memory henv).bind
      intro _ _
      refine sat_pure ⟨rfl, rfl, ?_, fun _ => ?_⟩
      · cases kind <;> rfl
      · cases kind with
        | bytes =>
            refine ⟨⟨?_, 14, rfl⟩, ?_⟩
            · show clamp 1 maxByteRecordsPerSegment defaultByteRecordsPerSegment ≤ _
              decide
            · rintro _ ⟨⟩
        | _ =>
            refine ⟨?_, ?_⟩
            · show clamp 1 maxFixedRecordsPerSegment defaultFixedRecordsPerSegment ≤ _
              decide
            · rintro _ ⟨⟩

end ExactState

end ProofFrame.Distinct
