import Mathlib.Algebra.BigOperators.Group.List.Basic
import ProofFrame.Distinct.StateSpec

/-!
# What exact state asks for

The bytes a state reserves to be finished, by the sizes of its runs and of the
values it still holds.  A state is finished without meeting a limit exactly if
its account grants them, each when it is asked for.
-/

namespace ProofFrame.Distinct

open Lib Lib.Run

/-! ## Where a limit can be met -/

section Limits

variable {ω α β σ : Type}

/-- The run ends because a budget is exhausted. -/
def MeetsLimit (m : Run ω Fault α) (world : ω) : Prop :=
  ∃ e : ProofFrameError, m world = .error (.error e) ∧ e.code = .resourceLimit

/-- A run that has no part in any budget. -/
def Unlimited (m : Run ω Fault α) : Prop := ∀ world, ¬MeetsLimit m world

variable {m : Run ω Fault α} {f : α → Run ω Fault β} {world : ω}

theorem not_meetsLimit_of_ok {a : α} {world' : ω} (h : m world = .ok (a, world')) :
    ¬MeetsLimit m world := by
  rintro ⟨e, hm, -⟩
  rw [h] at hm
  cases hm

theorem meetsLimit_bind_of_ok {a : α} {world' : ω} (h : m world = .ok (a, world')) :
    MeetsLimit (m >>= f) world ↔ MeetsLimit (f a) world' := by
  unfold MeetsLimit
  rw [bind_eq, h]

theorem meetsLimit_bind_iff :
    MeetsLimit (m >>= f) world ↔ MeetsLimit m world ∨
      ∃ a world', m world = .ok (a, world') ∧ MeetsLimit (f a) world' := by
  cases hm : m world with
  | ok r =>
      obtain ⟨a, world'⟩ := r
      rw [meetsLimit_bind_of_ok hm]
      constructor
      · exact fun h => .inr ⟨a, world', rfl, h⟩
      · rintro (h | ⟨_, _, ⟨⟩, h⟩)
        · exact absurd h (not_meetsLimit_of_ok hm)
        · exact h
  | error fault =>
      unfold MeetsLimit
      rw [bind_eq, hm]
      simp

/-- After a step without budgets. -/
theorem Unlimited.meetsLimit_bind (h : Unlimited m) :
    MeetsLimit (m >>= f) world ↔ ∃ a world', m world = .ok (a, world') ∧ MeetsLimit (f a) world' := by
  rw [meetsLimit_bind_iff]
  exact or_iff_right (h world)

theorem meetsLimit_map_iff {g : α → β} : MeetsLimit (g <$> m) world ↔ MeetsLimit m world := by
  rw [map_eq_pure_bind, meetsLimit_bind_iff]
  refine or_iff_left ?_
  rintro ⟨_, _, -, _, ⟨⟩, _⟩

/-- Before steps without budgets. -/
theorem meetsLimit_bind_unlimited (h : ∀ a, Unlimited (f a)) :
    MeetsLimit (m >>= f) world ↔ MeetsLimit m world := by
  rw [meetsLimit_bind_iff]
  refine or_iff_left ?_
  rintro ⟨a, world', -, hlimit⟩
  exact h a world' hlimit

theorem unlimited_pure (a : α) : Unlimited (pure a : Run ω Fault α) := by
  rintro world ⟨_, ⟨⟩, _⟩

theorem Unlimited.bind (h : Unlimited m) (hf : ∀ a, Unlimited (f a)) : Unlimited (m >>= f) := by
  intro world
  rw [meetsLimit_bind_unlimited hf]
  exact h world

theorem Unlimited.map (h : Unlimited m) (g : α → β) : Unlimited (g <$> m) := by
  rw [map_eq_pure_bind]
  exact h.bind fun _ => unlimited_pure _

theorem unlimited_throw {fault : Fault} (h : ∀ e, fault = .error e → e.code ≠ .resourceLimit) :
    Unlimited (throw fault : Run ω Fault α) := by
  rintro world ⟨e, ⟨⟩, hlimit⟩
  exact h e rfl hlimit

theorem Unlimited.ite {c : Prop} [Decidable c] {t e : Run ω Fault α} (ht : c → Unlimited t)
    (he : ¬c → Unlimited e) : Unlimited (if c then t else e) := by
  split
  · exact ht ‹c›
  · exact he ‹¬c›

theorem unlimited_failIf {c : Prop} [Decidable c] {fault : Fault}
    (h : ∀ e, fault = .error e → e.code ≠ .resourceLimit) :
    Unlimited (failIf c fault : Run ω Fault Unit) :=
  Unlimited.ite (fun _ => unlimited_throw h) fun _ => unlimited_pure ()

theorem unlimited_someOr {value : Option α} {fault : Fault}
    (h : ∀ e, fault = .error e → e.code ≠ .resourceLimit) :
    Unlimited (someOr value fault : Run ω Fault α) := by
  cases value with
  | none => exact unlimited_throw h
  | some a => exact unlimited_pure a

theorem unlimited_foldlM {items : List β} {step : σ → β → Run ω Fault σ}
    (h : ∀ state item, Unlimited (step state item)) (state : σ) :
    Unlimited (items.foldlM step state) := by
  induction items generalizing state with
  | nil => exact unlimited_pure state
  | cons item items ih =>
      rw [List.foldlM_cons]
      exact (h state item).bind ih

theorem unlimited_mapM {items : List β} {step : β → Run ω Fault α}
    (h : ∀ item, Unlimited (step item)) : Unlimited (items.mapM step) := by
  induction items with
  | nil => exact unlimited_pure []
  | cons item items ih =>
      rw [List.mapM_cons]
      exact (h item).bind fun _ => ih.bind fun _ => unlimited_pure _

theorem unlimited_forM {items : List β} {step : β → Run ω Fault Unit}
    (h : ∀ item, Unlimited (step item)) : Unlimited (items.forM step) := by
  induction items with
  | nil => exact unlimited_pure ()
  | cons item items ih => exact (h item).bind fun _ => ih

/-- Steps meet a limit in the first of them that does. -/
theorem meetsLimit_mapM_iff {items : List β} {step : β → Run ω Fault α} {world : ω} :
    MeetsLimit (items.mapM step) world ↔ ∃ earlier item later, items = earlier ++ item :: later ∧
      ∃ results next, earlier.mapM step world = .ok (results, next) ∧ MeetsLimit (step item) next := by
  induction items generalizing world with
  | nil =>
      refine iff_of_false (unlimited_pure _ world) ?_
      rintro ⟨earlier, item, later, hitems, -⟩
      simp at hitems
  | cons item items ih =>
      rw [List.mapM_cons, meetsLimit_bind_iff]
      constructor
      · rintro (hmeets | ⟨a, middle, ha, hmeets⟩)
        · exact ⟨[], item, items, rfl, [], world, rfl, hmeets⟩
        · rw [meetsLimit_bind_unlimited fun _ => unlimited_pure _, ih] at hmeets
          obtain ⟨earlier, other, later, rfl, results, next, hresults, hmeets⟩ := hmeets
          refine ⟨item :: earlier, other, later, rfl, a :: results, next, ?_, hmeets⟩
          exact mapM_cons_ok_iff.mpr ⟨a, middle, ha, results, next, hresults, rfl⟩
      · rintro ⟨earlier, other, later, hitems, results, next, hresults, hmeets⟩
        rcases List.cons_eq_append_iff.mp hitems with ⟨rfl, hcons⟩ | ⟨rest, rfl, rfl⟩
        · cases hcons
          cases hresults
          exact .inl hmeets
        · obtain ⟨a, middle, ha, results, _, hrest, ⟨⟩⟩ := mapM_cons_ok_iff.mp hresults
          refine .inr ⟨a, middle, ha, ?_⟩
          rw [meetsLimit_bind_unlimited fun _ => unlimited_pure _, ih]
          exact ⟨rest, other, later, rfl, results, next, hrest, hmeets⟩

theorem unlimited_loop {turn : σ → Run ω Fault (Turn σ α)} (h : ∀ state, Unlimited (turn state))
    (fuel : ℕ) (state : σ) : Unlimited (loop .diverged turn fuel state) := by
  induction fuel generalizing state with
  | zero => exact unlimited_throw (by rintro _ ⟨⟩)
  | succ fuel ih =>
      refine (h state).bind fun outcome => ?_
      cases outcome with
      | again next => exact ih next
      | leave result => exact unlimited_pure result

theorem unlimited_checkedAdd (message : String) (a b : ℕ) :
    Unlimited (checkedAdd message a b : Run ω Fault ℕ) :=
  (unlimited_failIf (by rintro _ ⟨⟩ hlimit; cases hlimit)).bind fun _ => unlimited_pure _

end Limits

section Requests

variable {ω : Type} [Host ω] {α β : Type}

theorem unlimited_checkCancelled : Unlimited (checkCancelled : Run ω Fault Unit) := by
  rintro world ⟨e, h, hlimit⟩
  unfold checkCancelled at h
  split at h
  · cases h
    cases hlimit
  · cases h

theorem unlimited_ioOperation (operation : IoOperation) :
    Unlimited (ioOperation operation : Run ω Fault Unit) := by
  rintro world ⟨e, h, hlimit⟩
  unfold ioOperation at h
  split at h
  · cases h
  · cases h
    cases hlimit

theorem unlimited_peakUsed (account : ResourceAccount) (kind : ResourceKind) :
    Unlimited (peakUsed account kind : Run ω Fault ℕ) := by
  rintro world ⟨_, ⟨⟩, _⟩

/-- The account grants the bytes.  A sum that is no `u64` is not asked for. -/
def Grants (account : ResourceAccount) (kind : ResourceKind) (bytes : ℕ) (world : ω) : Prop :=
  bytes < 2 ^ 64 → (Host.reserve world account kind bytes).1 = .ok ()

/-- The account grants the bytes when the steps before have been taken. -/
def GrantsAfter (before : Run ω Fault α) (account : ResourceAccount) (kind : ResourceKind)
    (bytes : ℕ) (world : ω) : Prop :=
  ∀ a next, before world = .ok (a, next) → Grants account kind bytes next

theorem meetsLimit_reserve_iff {account : ResourceAccount} {kind : ResourceKind} {bytes : ℕ}
    {world : ω} : MeetsLimit (reserve account kind bytes) world ↔
      (Host.reserve world account kind bytes).1 ≠ .ok () := by
  unfold MeetsLimit reserve tryReserve
  rw [bind_eq]
  rcases hreserve : Host.reserve world account kind bytes with ⟨⟨used, limit⟩ | ⟨⟩, world'⟩
  · simp only [ne_eq, reduceCtorEq, not_false_eq_true, iff_true]
    exact ⟨_, rfl, rfl⟩
  · simp only [ne_eq, not_true_eq_false, iff_false]
    rintro ⟨_, ⟨⟩, _⟩

end Requests

/-! ## Checked sums -/

section Checked

variable {ω α β : Type}

/-- The step returns the number, or ends because it is no `u64`. -/
def Checked (m : Run ω Fault ℕ) (n : ℕ) : Prop :=
  ∀ world, (n < 2 ^ 64 ∧ m world = .ok (n, world)) ∨
    (2 ^ 64 ≤ n ∧ ∃ message, m world = .error (corrupt message))

variable {m : Run ω Fault ℕ} {n : ℕ} {world : ω}

theorem Checked.of_eq {k : ℕ} (h : Checked m n) (heq : n = k) : Checked m k := heq ▸ h

theorem checked_checkedAdd (message : String) (a b : ℕ) :
    Checked (checkedAdd message a b : Run ω Fault ℕ) (a + b) := by
  intro world
  by_cases h : 2 ^ 64 ≤ a + b
  · exact .inr ⟨h, message, by rw [checkedAdd, failIf, if_pos h]; rfl⟩
  · exact .inl ⟨not_le.mp h, by rw [checkedAdd, failIf, if_neg h]; rfl⟩

theorem checked_checkedMul (message : String) (a b : ℕ) :
    Checked (checkedMul message a b : Run ω Fault ℕ) (a * b) := by
  intro world
  by_cases h : 2 ^ 64 ≤ a * b
  · exact .inr ⟨h, message, by rw [checkedMul, failIf, if_pos h]; rfl⟩
  · exact .inl ⟨not_le.mp h, by rw [checkedMul, failIf, if_neg h]; rfl⟩

theorem Checked.bind {f : ℕ → Run ω Fault ℕ} {k : ℕ} (h : Checked m n) (hf : Checked (f n) k)
    (hle : n ≤ k) : Checked (m >>= f) k := by
  intro world
  rw [bind_eq]
  rcases h world with ⟨-, hm⟩ | ⟨hlarge, message, hm⟩
  · rw [hm]
    exact hf world
  · rw [hm]
    exact .inr ⟨hlarge.trans hle, message, rfl⟩

theorem checked_foldlM {step : ℕ → α → Run ω Fault ℕ} {size : α → ℕ}
    (hstep : ∀ total item, Checked (step total item) (total + size item)) {items : List α}
    {total : ℕ} (htotal : total < 2 ^ 64) :
    Checked (items.foldlM step total) (total + (items.map size).sum) := by
  induction items generalizing total with
  | nil =>
      intro world
      exact .inl ⟨htotal, rfl⟩
  | cons item items ih =>
      intro world
      rw [List.foldlM_cons, List.map_cons, List.sum_cons, ← add_assoc, bind_eq]
      rcases hstep total item world with ⟨hlt, hm⟩ | ⟨hlarge, message, hm⟩
      · rw [hm]
        exact ih hlt world
      · rw [hm]
        exact .inr ⟨hlarge.trans (Nat.le_add_right _ _), message, rfl⟩

theorem Checked.meetsLimit_bind {f : ℕ → Run ω Fault β} (h : Checked m n) :
    MeetsLimit (m >>= f) world ↔ n < 2 ^ 64 ∧ MeetsLimit (f n) world := by
  rcases h world with ⟨hlt, hm⟩ | ⟨hlarge, message, hm⟩
  · rw [meetsLimit_bind_of_ok hm]
    exact (and_iff_right hlt).symm
  · refine iff_of_false ?_ fun hmeets => absurd hmeets.1 (not_lt.mpr hlarge)
    rintro ⟨e, herror, hlimit⟩
    rw [bind_eq, hm] at herror
    cases herror
    cases hlimit

theorem Checked.unlimited (h : Checked m n) : Unlimited m := by
  rintro world ⟨e, herror, hlimit⟩
  rcases h world with ⟨-, hm⟩ | ⟨-, message, hm⟩ <;> rw [hm] at herror <;> cases herror
  cases hlimit

/-- A sum that is asked for before steps without budgets. -/
theorem Checked.meetsLimit_reserve [Host ω] {account : ResourceAccount} {kind : ResourceKind}
    {next : ℕ → Run ω Fault β} (h : Checked m n) (hnext : ∀ bytes, Unlimited (next bytes)) :
    MeetsLimit (m >>= fun bytes => reserve account kind bytes >>= fun _ => next bytes) world ↔
      ¬Grants account kind n world := by
  rw [h.meetsLimit_bind, meetsLimit_bind_unlimited fun _ => hnext n, meetsLimit_reserve_iff, Grants,
    Classical.not_imp]

end Checked

/-! ## Sizes -/

/-- The bytes of a run's payload, and of its longest value. -/
structure RunSize where
  payload : ℕ
  longest : ℕ
  deriving DecidableEq

def RunMeta.size (run : RunMeta) : RunSize :=
  { payload := run.payloadBytes, longest := run.maxRecordBytes }

namespace RunSize

/-- The bytes of the file. -/
def fileBytes (size : RunSize) : ℕ := headerBytes + size.payload

/-- The run that replaces these. -/
def compacted (sizes : List RunSize) : RunSize :=
  { payload := (sizes.map payload).sum, longest := (sizes.map longest).foldl max 0 }

/-- The bytes a merge of these runs holds. -/
def mergeBytes [Crates] (sizes : List RunSize) : ℕ :=
  (sizes.map fun size => mergeBufferBytes + Crates.sizeOfRunCursor + Crates.sizeOfMergeEntry +
    size.longest).sum + (compacted sizes).longest

end RunSize

/-- The run the buffered records are written to. -/
def Storage.tailSize : Storage → RunSize
  | .bytes store =>
      { payload := (store.contents.map fun record => 12 + record.value.byteLength).sum
        longest := (store.contents.map fun record => record.value.byteLength).foldl max 0 }
  | storage => { payload := storage.contents.length * 16, longest := 8 }

section Writing

variable {ω : Type} [Host ω] {account : ResourceAccount} {world : ω}

theorem meetsLimit_writeRun_iff {spec : RunSpec} {payload : List UInt8} :
    MeetsLimit (writeRun spec account payload) world ↔
      ¬Grants account .temp (headerBytes + spec.payloadBytes) world :=
  (checked_checkedAdd _ _ _).meetsLimit_reserve fun _ => (unlimited_ioOperation _).bind fun _ =>
    (unlimited_ioOperation _).bind fun _ => (unlimited_ioOperation _).bind fun _ => unlimited_pure _

theorem size_of_writeRun {spec : RunSpec} {payload : List UInt8} :
    Sat (writeRun spec account payload : Run ω Fault _)
      (·.size = ⟨spec.payloadBytes, spec.maxRecordBytes⟩) fun _ => True := by
  unfold writeRun
  refine (sat_known trivial).bind fun _ _ => (sat_known trivial).bind fun _ _ => ?_
  refine (sat_known trivial).bind fun _ _ => (sat_known trivial).bind fun _ _ => ?_
  exact (sat_known trivial).bind fun _ _ => sat_pure rfl

/-- A run whose payload is counted before it is written. -/
theorem meetsLimit_counted_iff {m : Run ω Fault ℕ} {bytes : ℕ} (h : Checked m bytes)
    {spec : ℕ → RunSpec} (hspec : ∀ bytes, (spec bytes).payloadBytes = bytes)
    {payload : List UInt8} :
    MeetsLimit (m >>= fun bytes => writeRun (spec bytes) account payload) world ↔
      ¬Grants account .temp (headerBytes + bytes) world := by
  rw [h.meetsLimit_bind, meetsLimit_writeRun_iff, hspec, Grants, Classical.not_imp]
  refine and_iff_right_of_imp fun hrefused => ?_
  exact (Nat.le_add_left _ _).trans_lt hrefused.1

omit [Host ω] in
theorem checked_payload (records : List Record) :
    Checked (records.foldlM (fun total record => do
        let total ← checkedAdd "Exact byte run overflowed u64" total 12
        checkedAdd "Exact byte run overflowed u64" total record.value.byteLength) 0 :
      Run ω Fault ℕ) (records.map fun record => 12 + record.value.byteLength).sum := by
  rw [← Nat.zero_add (List.sum _)]
  refine checked_foldlM (fun total record => ?_) (by norm_num)
  refine Checked.of_eq ?_ (Nat.add_assoc total 12 _)
  exact (checked_checkedAdd _ _ _).bind (checked_checkedAdd _ _ _) (Nat.le_add_right _ _)

variable [Crates]

theorem meetsLimit_writeBytes_iff {records : List Record} :
    MeetsLimit (writeBytes (sortRecords records) account) world ↔ ¬Grants account .temp
      (headerBytes + (records.map fun record => 12 + record.value.byteLength).sum) world := by
  have hcounted := checked_payload (ω := ω) (sortRecords records)
  rw [((perm_sortRecords records).map _).sum_eq] at hcounted
  refine meetsLimit_counted_iff hcounted ?_
  exact fun _ => rfl

theorem meetsLimit_writeFixed_iff {kind : ValueKind} {records : List Record} :
    MeetsLimit (writeFixed kind (sortRecords records) account) world ↔
      ¬Grants account .temp (headerBytes + records.length * 16) world := by
  rw [← (perm_sortRecords records).length_eq]
  refine meetsLimit_counted_iff (checked_checkedMul _ _ _) ?_
  exact fun _ => rfl

/-! ## Spilling -/

theorem meetsLimit_spillFixed_iff {α : Type} [FixedValue α] {store : FixedStore α} :
    MeetsLimit (spillFixed store account) world ↔ store.contents ≠ [] ∧
      ¬Grants account .temp (headerBytes + store.contents.length * 16) world := by
  unfold spillFixed
  by_cases hempty : store.contents = []
  · rw [if_pos (List.isEmpty_iff.mpr hempty)]
    exact iff_of_false (unlimited_pure _ world) fun h => h.1 hempty
  · rw [if_neg (List.isEmpty_iff.not.mpr hempty),
      meetsLimit_bind_unlimited fun _ => unlimited_pure _, meetsLimit_writeFixed_iff]
    exact (and_iff_right hempty).symm

theorem meetsLimit_spillBytes_iff {store : ByteStore} :
    MeetsLimit (spillBytes store account) world ↔ store.contents ≠ [] ∧
      ¬Grants account .temp
        (headerBytes + (store.contents.map fun record => 12 + record.value.byteLength).sum) world := by
  unfold spillBytes
  by_cases hempty : store.contents = []
  · rw [if_pos (List.isEmpty_iff.mpr hempty)]
    exact iff_of_false (unlimited_pure _ world) fun h => h.1 hempty
  · rw [if_neg (List.isEmpty_iff.not.mpr hempty),
      meetsLimit_bind_unlimited fun _ => unlimited_pure _, meetsLimit_writeBytes_iff]
    exact (and_iff_right hempty).symm

/-- A segment is spilled unless its file is refused. -/
theorem Storage.meetsLimit_spill_iff (storage : Storage) :
    MeetsLimit (storage.spill account) world ↔
      storage.contents ≠ [] ∧ ¬Grants account .temp storage.tailSize.fileBytes world := by
  cases storage with
  | i64 store => exact meetsLimit_map_iff.trans meetsLimit_spillFixed_iff
  | u64 store => exact meetsLimit_map_iff.trans meetsLimit_spillFixed_iff
  | f64 store => exact meetsLimit_map_iff.trans meetsLimit_spillFixed_iff
  | bytes store => exact meetsLimit_map_iff.trans meetsLimit_spillBytes_iff

/-- The sizes of the run a segment is spilled to, if there is any. -/
def Storage.tail (storage : Storage) : List RunSize :=
  if storage.contents.isEmpty then [] else [storage.tailSize]

theorem size_of_spillFixed {α : Type} [FixedValue α] {store : FixedStore α} :
    Sat (spillFixed store account : Run ω Fault _) (fun spilled => spilled.2.toList.map RunMeta.size =
      if store.contents.isEmpty then [] else [⟨store.contents.length * 16, 8⟩]) fun _ => True := by
  unfold spillFixed
  by_cases hempty : store.contents.isEmpty = true
  · rw [if_pos hempty, if_pos hempty]
    exact sat_pure rfl
  · rw [if_neg hempty, if_neg hempty]
    apply Sat.bind (Q := fun run => run.size = ⟨store.contents.length * 16, 8⟩)
    · unfold writeFixed
      refine (sat_checkedMul trivial).bind fun bytes hbytes => size_of_writeRun.post fun run hrun => ?_
      rw [hrun, hbytes.1, (perm_sortRecords _).length_eq]
    · intro run hrun
      exact sat_pure (congrArg (fun size => [size]) hrun)

theorem size_of_spillBytes {store : ByteStore} :
    Sat (spillBytes store account : Run ω Fault _) (fun spilled =>
      spilled.2.toList.map RunMeta.size = (Storage.bytes store).tail) fun _ => True := by
  unfold spillBytes Storage.tail
  show Sat _ (fun spilled => _ = if store.contents.isEmpty then _ else _) _
  by_cases hempty : store.contents.isEmpty = true
  · rw [if_pos hempty, if_pos hempty]
    exact sat_pure rfl
  · rw [if_neg hempty, if_neg hempty]
    apply Sat.bind (Q := fun run => run.size = (Storage.bytes store).tailSize)
    · intro world
      unfold writeBytes
      rw [bind_eq]
      rcases checked_payload (ω := ω) (sortRecords store.contents) world with
        ⟨-, hbytes⟩ | ⟨-, message, hbytes⟩
      · rw [hbytes]
        refine (size_of_writeRun.post fun run hrun => ?_) world
        have hperm := perm_sortRecords store.contents
        rw [hrun, (hperm.map _).sum_eq, (hperm.map _).foldl_op_eq]
        rfl
      · rw [hbytes]
        trivial
    · intro run hrun
      exact sat_pure (congrArg (fun size => [size]) hrun)

theorem Storage.size_of_spill (storage : Storage) :
    Sat (storage.spill account : Run ω Fault _)
      (fun spilled => spilled.2.toList.map RunMeta.size = storage.tail) fun _ => True := by
  cases storage with
  | i64 store => exact size_of_spillFixed.map fun _ h => h
  | u64 store => exact size_of_spillFixed.map fun _ h => h
  | f64 store => exact size_of_spillFixed.map fun _ h => h
  | bytes store => exact size_of_spillBytes.map fun _ h => h

end Writing

/-! ## Merging -/

section Merging

variable {ω : Type} [Host ω] {account : ResourceAccount} {world : ω}

omit [Host ω] in
theorem unlimited_corrupt {c : Prop} [Decidable c] {message : String} :
    Unlimited (failIf c (corrupt message) : Run ω Fault Unit) :=
  unlimited_failIf (by rintro _ ⟨⟩ hlimit; cases hlimit)

theorem unlimited_readExact (count : ℕ) (reader : List UInt8) :
    Unlimited (readExact count reader : Run ω Fault _) :=
  (unlimited_ioOperation _).bind fun _ =>
    unlimited_someOr (by rintro _ ⟨⟩ hlimit; cases hlimit)

theorem unlimited_open (run : RunMeta) : Unlimited (RunCursor.open run : Run ω Fault _) := by
  unfold RunCursor.open
  refine (unlimited_ioOperation _).bind fun _ => unlimited_corrupt.bind fun _ => ?_
  refine (unlimited_readExact _ _).bind fun _ => unlimited_corrupt.bind fun _ => ?_
  refine (unlimited_readExact _ _).bind fun _ => unlimited_corrupt.bind fun _ => ?_
  refine (unlimited_readExact _ _).bind fun _ => ?_
  refine (unlimited_someOr (by rintro _ ⟨⟩ hlimit; cases hlimit)).bind fun _ => ?_
  refine (unlimited_readExact _ _).bind fun _ => (unlimited_readExact _ _).bind fun _ => ?_
  exact (unlimited_readExact _ _).bind fun _ => unlimited_corrupt.bind fun _ => unlimited_pure _

theorem unlimited_readPayload (cursor : RunCursor) (count : ℕ) :
    Unlimited (cursor.readPayload count : Run ω Fault _) :=
  unlimited_corrupt.bind fun _ => (unlimited_readExact _ _).bind fun _ => unlimited_pure _

theorem unlimited_next (cursor : RunCursor) : Unlimited (cursor.next : Run ω Fault _) := by
  have hvalue : Unlimited (cursor.readValue : Run ω Fault _) := by
    unfold RunCursor.readValue
    split
    case h_4 =>
      refine (unlimited_readPayload _ _).bind fun _ => unlimited_corrupt.bind fun _ => ?_
      exact (unlimited_readPayload _ _).bind fun _ => unlimited_pure _
    all_goals exact (unlimited_readPayload _ _).bind fun _ => unlimited_pure _
  unfold RunCursor.next
  refine Unlimited.ite (fun _ => ?_) fun _ => ?_
  · refine Unlimited.bind ?_ fun _ => unlimited_pure _
    exact unlimited_corrupt.bind fun _ => (unlimited_ioOperation _).bind fun _ => unlimited_corrupt
  · exact hvalue.bind fun _ => (unlimited_readPayload _ _).bind fun _ => unlimited_pure _

theorem unlimited_refill (state : MergeState) (run : ℕ) :
    Unlimited (state.refill run : Run ω Fault _) := by
  unfold MergeState.refill
  refine (unlimited_someOr (by rintro _ ⟨⟩)).bind fun _ => (unlimited_next _).bind fun found => ?_
  rcases found with ⟨_ | _, _⟩ <;> exact unlimited_pure _

theorem unlimited_openMergeCursors (runs : List RunMeta) :
    Unlimited (openMergeCursors runs : Run ω Fault _) :=
  (unlimited_mapM unlimited_open).bind fun _ => unlimited_foldlM unlimited_refill _

theorem unlimited_checkEvery (iteration : ℕ) : Unlimited (checkEvery iteration : Run ω Fault Unit) :=
  Unlimited.ite (fun _ => unlimited_checkCancelled) fun _ => unlimited_pure ()

theorem unlimited_mergeTurn (maxSamples : ℕ) (state : MergeState × Scan × ℕ) :
    Unlimited (mergeTurn maxSamples state : Run ω Fault _) := by
  unfold mergeTurn
  split
  split
  · exact unlimited_pure _
  · exact (unlimited_checkEvery _).bind fun _ => (unlimited_refill _ _).bind fun _ => unlimited_pure _

theorem unlimited_compactTurn (state : MergeState × List UInt8 × ℕ) :
    Unlimited (compactTurn state : Run ω Fault _) := by
  unfold compactTurn
  split
  split
  · exact unlimited_pure _
  · refine (unlimited_checkEvery _).bind fun _ => unlimited_corrupt.bind fun _ => ?_
    refine (unlimited_ioOperation _).bind fun _ => (unlimited_checkedAdd _ _ _).bind fun _ => ?_
    exact (unlimited_refill _ _).bind fun _ => unlimited_pure _

variable [Crates]

theorem unlimited_verifyPayload (run : RunMeta) : Unlimited (verifyPayload run : Run ω Fault _) := by
  unfold verifyPayload
  refine (unlimited_ioOperation _).bind fun _ => unlimited_corrupt.bind fun _ => ?_
  refine (unlimited_forM fun _ => ?_).bind fun _ => unlimited_corrupt
  exact unlimited_checkCancelled.bind fun _ => unlimited_ioOperation _

omit [Host ω] in
theorem checked_mergeMemoryBytes (runs : List RunMeta) :
    Checked (mergeMemoryBytes runs : Run ω Fault ℕ) (RunSize.mergeBytes (runs.map RunMeta.size)) := by
  have hruns : (runs.map RunMeta.size).map RunSize.longest = runs.map RunMeta.maxRecordBytes := by
    rw [List.map_map]
    rfl
  have hcursors : ((runs.map RunMeta.size).map fun size => mergeBufferBytes + Crates.sizeOfRunCursor +
      Crates.sizeOfMergeEntry + size.longest) = runs.map fun run => mergeBufferBytes +
        Crates.sizeOfRunCursor + Crates.sizeOfMergeEntry + run.maxRecordBytes := by
    rw [List.map_map]
    rfl
  unfold mergeMemoryBytes RunSize.mergeBytes RunSize.compacted
  rw [hruns, hcursors, ← Nat.zero_add (List.sum _)]
  refine (checked_foldlM (fun total run => ?_) (by norm_num)).bind (checked_checkedAdd _ _ _)
    (Nat.le_add_right _ _)
  refine (checked_checkedAdd _ _ _).bind ((checked_checkedAdd _ _ _).bind
    ((checked_checkedAdd _ _ _).bind ?_ ?_) ?_) ?_
  · exact (checked_checkedAdd _ _ _).of_eq (Nat.add_assoc _ _ _)
  all_goals omega

/-- What a merge of the runs asks for once it has read them. -/
theorem meetsLimit_mergeScan_iff {runs : List RunMeta} :
    MeetsLimit (mergeScan runs account) world ↔ ¬GrantsAfter (runs.forM verifyPayload) account .memory
      (RunSize.mergeBytes (runs.map RunMeta.size)) world := by
  unfold mergeScan GrantsAfter
  rw [(unlimited_forM unlimited_verifyPayload).meetsLimit_bind]
  push Not
  refine exists_congr fun _ => exists_congr fun next => and_congr_right fun _ => ?_
  exact (checked_mergeMemoryBytes runs).meetsLimit_reserve fun _ =>
    (unlimited_openMergeCursors _).bind fun _ => unlimited_loop (unlimited_mergeTurn _) _ _

/-! ## Compaction -/

theorem unlimited_compactionSpec (runs : List RunMeta) :
    Unlimited (compactionSpec runs : Run ω Fault _) := by
  unfold compactionSpec
  refine (unlimited_someOr (by rintro _ ⟨⟩ hlimit; cases hlimit)).bind fun _ => ?_
  refine unlimited_corrupt.bind fun _ => (unlimited_forM unlimited_verifyPayload).bind fun _ => ?_
  refine (unlimited_foldlM (fun _ _ => unlimited_checkedAdd _ _ _) _).bind fun _ => ?_
  refine (unlimited_foldlM (fun _ _ => unlimited_checkedAdd _ _ _) _).bind fun _ => ?_
  exact (unlimited_checkedAdd _ _ _).bind fun _ => unlimited_pure _

/-- The compacted run has the sizes of its sources together. -/
theorem size_of_compactionSpec (runs : List RunMeta) :
    Sat (compactionSpec runs : Run ω Fault _) (fun spec =>
      ⟨spec.payloadBytes, spec.maxRecordBytes⟩ = RunSize.compacted (runs.map RunMeta.size) ∧
        spec.totalBytes = (RunSize.compacted (runs.map RunMeta.size)).fileBytes ∧
        spec.totalBytes < 2 ^ 64) fun _ => True := by
  have hpayload : Checked (runs.foldlM (fun total run =>
      checkedAdd "Exact compacted run payload overflowed u64" total run.payloadBytes) 0 :
        Run ω Fault ℕ) (runs.map RunMeta.payloadBytes).sum := by
    rw [← Nat.zero_add (List.sum _)]
    refine checked_foldlM (fun total run => ?_) (by norm_num)
    exact checked_checkedAdd _ _ _
  have hsize : RunSize.compacted (runs.map RunMeta.size) =
      ⟨(runs.map RunMeta.payloadBytes).sum, (runs.map RunMeta.maxRecordBytes).foldl max 0⟩ := by
    rw [RunSize.compacted, List.map_map, List.map_map]
    rfl
  rw [hsize]
  unfold compactionSpec
  refine (sat_known trivial).bind fun _ _ => (sat_known trivial).bind fun _ _ => ?_
  refine (sat_known trivial).bind fun _ _ => (sat_known trivial).bind fun _ _ => ?_
  apply Sat.bind (Q := fun bytes => bytes = (runs.map RunMeta.payloadBytes).sum)
  · intro world
    rcases hpayload world with ⟨-, h⟩ | ⟨-, message, h⟩
    · rw [h]
    · rw [h]
      trivial
  rintro _ rfl
  refine (sat_checkedAdd trivial).bind fun total htotal => ?_
  rw [htotal.1]
  exact sat_pure ⟨rfl, rfl, htotal.2⟩

/-- What a compaction asks for once it has read its sources: the file, and the memory to merge
them. -/
structure CompactsWithin (runs : List RunMeta) (account : ResourceAccount) (world : ω) : Prop where
  file : GrantsAfter (compactionSpec runs) account .temp
    (RunSize.compacted (runs.map RunMeta.size)).fileBytes world
  memory : GrantsAfter (do
      let spec ← compactionSpec runs
      reserve account .temp spec.totalBytes) account .memory
    (RunSize.mergeBytes (runs.map RunMeta.size)) world

theorem meetsLimit_compact_iff {runs : List RunMeta} :
    MeetsLimit (compact runs account) world ↔ ¬CompactsWithin runs account world := by
  have hcompact : ∃ rest : CompactionSpec → Run ω Fault RunMeta, (∀ spec, Unlimited (rest spec)) ∧
      compact runs account = compactionSpec runs >>= fun spec =>
        reserve account .temp spec.totalBytes >>= fun _ => mergeMemoryBytes runs >>=
          fun bytes => reserve account .memory bytes >>= fun _ => rest spec := by
    refine ⟨_, fun spec => ?_, rfl⟩
    refine (unlimited_ioOperation _).bind fun _ => (unlimited_ioOperation _).bind fun _ => ?_
    refine (unlimited_openMergeCursors _).bind fun _ => ?_
    refine (unlimited_loop unlimited_compactTurn _ _).bind fun _ => unlimited_corrupt.bind fun _ => ?_
    exact (unlimited_ioOperation _).bind fun _ => unlimited_pure _
  obtain ⟨rest, hrest, hcompact⟩ := hcompact
  -- between the two requests nothing asks for anything
  have hstep : ∀ (spec : CompactionSpec) (next : ω), spec.totalBytes < 2 ^ 64 →
      (¬MeetsLimit (reserve account .temp spec.totalBytes >>= fun _ => mergeMemoryBytes runs >>=
          fun bytes => reserve account .memory bytes >>= fun _ => rest spec) next ↔
        Grants account .temp spec.totalBytes next ∧
          GrantsAfter (reserve account .temp spec.totalBytes) account .memory
            (RunSize.mergeBytes (runs.map RunMeta.size)) next) := by
    intro spec next hlt
    have hmemory : ∀ last : ω, MeetsLimit (mergeMemoryBytes runs >>= fun bytes =>
        reserve account .memory bytes >>= fun _ => rest spec) last ↔ ¬Grants account .memory
          (RunSize.mergeBytes (runs.map RunMeta.size)) last := fun last =>
      (checked_mergeMemoryBytes runs).meetsLimit_reserve fun _ => hrest spec
    rw [meetsLimit_bind_iff, not_or, meetsLimit_reserve_iff, not_not]
    refine and_congr ⟨fun h _ => h, fun h => h hlt⟩ ?_
    simp only [hmemory, not_exists, not_and, not_not]
    rfl
  rw [hcompact, (unlimited_compactionSpec runs).meetsLimit_bind, ← not_iff_not, not_not]
  have hspec : ∀ {spec : CompactionSpec} {next : ω}, compactionSpec runs world = .ok (spec, next) →
      spec.totalBytes = (RunSize.compacted (runs.map RunMeta.size)).fileBytes ∧
        spec.totalBytes < 2 ^ 64 := fun h => ((size_of_compactionSpec runs).of_ok h).2
  constructor
  · intro h
    push Not at h
    constructor
    · intro spec next hok
      have hgranted := ((hstep spec next (hspec hok).2).mp (h spec next hok)).1
      rwa [(hspec hok).1] at hgranted
    · intro _ last hok
      obtain ⟨spec, next, hok, hreserve⟩ := bind_ok_iff.mp hok
      exact ((hstep spec next (hspec hok).2).mp (h spec next hok)).2 _ _ hreserve
  · rintro hwithin ⟨spec, next, hok, hmeets⟩
    refine absurd hmeets ((hstep spec next (hspec hok).2).mpr ⟨?_, ?_⟩)
    · rw [(hspec hok).1]
      exact hwithin.file _ _ hok
    · intro _ last hreserve
      exact hwithin.memory _ _ (bind_ok_iff.mpr ⟨spec, next, hok, hreserve⟩)

theorem size_of_compact {runs : List RunMeta} :
    Sat (compact runs account : Run ω Fault _)
      (·.size = RunSize.compacted (runs.map RunMeta.size)) fun _ => True := by
  unfold compact
  refine (size_of_compactionSpec runs).bind fun spec hspec => ?_
  refine (sat_known trivial).bind fun _ _ => (sat_known trivial).bind fun _ _ => ?_
  refine (sat_known trivial).bind fun _ _ => (sat_known trivial).bind fun _ _ => ?_
  refine (sat_known trivial).bind fun _ _ => (sat_known trivial).bind fun _ _ => ?_
  refine (sat_known trivial).bind fun _ _ => (sat_known trivial).bind fun _ _ => ?_
  exact (sat_known trivial).bind fun _ _ => sat_pure hspec.1

end Merging

/-! ## Finishing a state -/

namespace ExactState

/-- The runs of a state whose segment has been spilled. -/
def spilledSizes (state : ExactState) : List RunSize :=
  state.runs.map RunMeta.size ++ state.storage.tail

/-- The runs that are merged in the end. -/
def sealedSizes (state : ExactState) : List RunSize :=
  if state.spilledSizes.length ≤ Distinct.maxMergeFanIn then state.spilledSizes
  else RunSize.compacted (state.spilledSizes.take Distinct.maxMergeFanIn) ::
    state.spilledSizes.drop Distinct.maxMergeFanIn

/-- A state between two insertions: it has no more runs than are merged at once, and runs only
where there is a directory. -/
structure Settled (state : ExactState) : Prop where
  runs_le : state.runs.length ≤ Distinct.maxMergeFanIn
  directory : state.runs ≠ [] → state.directory.isSome = true

variable {ω : Type} [Host ω] [Crates] {state : ExactState} {world : ω}

/-- What happens to a state before its runs are compacted. -/
def beforeCompaction (state : ExactState) : Run ω Fault ExactState := do
  checkCancelled
  let next ← state.spillCurrent
  checkCancelled
  pure next

/-- What happens to a state before its runs are merged. -/
def beforeMerge (state : ExactState) : Run ω Fault Unit := do
  let next ← state.seal
  next.runs.forM verifyPayload

/-- The surroundings grant what a state with runs asks for to be finished: the file of its segment,
the file and the memory of a compaction if that makes too many runs, and the memory of the merge. -/
structure MergesWithin (state : ExactState) (world : ω) : Prop where
  tail : state.storage.contents ≠ [] →
    GrantsAfter checkCancelled state.account .temp state.storage.tailSize.fileBytes world
  compaction : Distinct.maxMergeFanIn < state.spilledSizes.length →
    ∀ next last, state.beforeCompaction world = .ok (next, last) →
      CompactsWithin (next.runs.take Distinct.maxMergeFanIn) state.account last
  merge : GrantsAfter state.beforeMerge state.account .memory
    (RunSize.mergeBytes state.sealedSizes) world

/-- A segment is spilled to a directory unless its file is refused. -/
theorem meetsLimit_spillCurrent_iff (h : state.directory.isSome = true) :
    MeetsLimit state.spillCurrent world ↔ state.storage.contents ≠ [] ∧
      ¬Grants state.account .temp state.storage.tailSize.fileBytes world := by
  have htarget : (state.spillTarget state.storage.contents.length : Run ω Fault Unit) = pure () := by
    unfold spillTarget failIf
    rw [if_neg]
    simp [Option.isNone_iff_eq_none, Option.isSome_iff_ne_none.mp h]
  unfold spillCurrent
  rw [htarget, pure_bind, meetsLimit_bind_unlimited fun _ => unlimited_pure _]
  exact state.storage.meetsLimit_spill_iff

theorem size_of_spillCurrent (state : ExactState) :
    Sat (state.spillCurrent : Run ω Fault _) (fun next =>
      next.runs.map RunMeta.size = state.spilledSizes ∧ next.account = state.account ∧
        next.directory = state.directory) fun _ => True := by
  unfold spillCurrent
  refine (sat_known trivial).bind fun _ _ => state.storage.size_of_spill.bind fun spilled hspilled => ?_
  refine sat_pure ⟨?_, rfl, rfl⟩
  rw [List.map_append, hspilled]
  rfl

/-- A state with few runs is not compacted. -/
theorem loop_compactTurn_of_le (h : state.runs.length ≤ Distinct.maxMergeFanIn) (fuel : ℕ) :
    (loop .diverged compactTurn (fuel + 1) state : Run ω Fault _) = pure state := by
  rw [loop]
  unfold compactTurn
  rw [if_pos h, pure_bind]

/-- One run too many is one compaction. -/
theorem compactRunsIfNeeded_of_lt (h : Distinct.maxMergeFanIn < state.runs.length)
    (hle : state.runs.length ≤ Distinct.maxMergeFanIn + 1) (hdirectory : state.directory.isSome = true) :
    (state.compactRunsIfNeeded : Run ω Fault _) = checkCancelled >>= fun _ =>
      compact (state.runs.take Distinct.maxMergeFanIn) state.account >>= fun compacted =>
        pure { state with
          runs := compacted :: state.runs.drop Distinct.maxMergeFanIn
          compactions := state.compactions + 1
          maxMergeFanIn :=
            max state.maxMergeFanIn (state.runs.take Distinct.maxMergeFanIn).length } := by
  have htarget : (state.spillTarget 0 : Run ω Fault Unit) = pure () := by
    unfold spillTarget failIf
    rw [if_neg]
    simp [Option.isNone_iff_eq_none, Option.isSome_iff_ne_none.mp hdirectory]
  unfold compactRunsIfNeeded
  rw [loop]
  unfold compactTurn
  rw [if_neg (not_le.mpr h), htarget]
  simp only [pure_bind, bind_assoc]
  refine bind_congr fun _ => bind_congr fun compacted => ?_
  obtain ⟨fuel, hfuel⟩ := Nat.exists_eq_succ_of_ne_zero (Nat.ne_of_gt (Nat.zero_lt_of_lt h))
  rw [hfuel]
  refine loop_compactTurn_of_le ?_ fuel
  rw [List.length_cons, List.length_drop]
  have htwo : 2 ≤ Distinct.maxMergeFanIn := by decide
  omega

omit [Crates] in
theorem length_spilledSizes (state : ExactState) :
    state.runs.length ≤ state.spilledSizes.length ∧
      state.spilledSizes.length ≤ state.runs.length + 1 := by
  rw [spilledSizes, List.length_append, List.length_map, Storage.tail]
  split <;> simp

omit [Crates] in
/-- A settled state of which there are too many runs once its segment is spilled has runs. -/
theorem Settled.isSome_directory (h : state.Settled)
    (hmany : Distinct.maxMergeFanIn < state.spilledSizes.length) : state.directory.isSome = true := by
  have hlength := (length_spilledSizes state).2
  have hpos : 0 < Distinct.maxMergeFanIn := by decide
  exact h.directory (List.ne_nil_of_length_pos (by omega))

theorem size_of_seal (h : state.Settled) :
    Sat (state.seal : Run ω Fault _) (fun next =>
      next.runs.map RunMeta.size = state.sealedSizes ∧ next.account = state.account)
        fun _ => True := by
  refine (sat_known trivial).bind fun _ _ => (size_of_spillCurrent state).bind ?_
  rintro next ⟨hsizes, haccount, hdirectory⟩
  have hlength : next.runs.length = state.spilledSizes.length := by
    rw [← hsizes, List.length_map]
  by_cases hmany : next.runs.length ≤ Distinct.maxMergeFanIn
  · rw [sealedSizes, if_pos (hlength ▸ hmany)]
    refine Sat.mono (E := fun _ => True) ?_ (fun _ h => h) fun _ _ => trivial
    unfold compactRunsIfNeeded
    rw [loop_compactTurn_of_le hmany]
    exact sat_pure ⟨hsizes, haccount⟩
  · have hmany := not_le.mp hmany
    have hle : next.runs.length ≤ Distinct.maxMergeFanIn + 1 := by
      rw [hlength]
      exact (length_spilledSizes state).2.trans (Nat.add_le_add_right h.runs_le 1)
    rw [compactRunsIfNeeded_of_lt hmany hle (hdirectory ▸ h.isSome_directory (hlength ▸ hmany)),
      sealedSizes, if_neg (not_le.mpr (hlength ▸ hmany))]
    refine (sat_known trivial).bind fun _ _ => size_of_compact.bind fun run hrun => ?_
    refine sat_pure ⟨?_, haccount⟩
    rw [List.map_cons, hrun, List.map_take, List.map_drop, hsizes]

/-- Spilled runs meet a limit if there are too many and a file or the memory to compact them is
refused. -/
theorem meetsLimit_compactRunsIfNeeded_iff (h : state.Settled) {next : ExactState} {spilled : ω}
    (hspill : state.spillCurrent world = .ok (next, spilled)) :
    MeetsLimit next.compactRunsIfNeeded spilled ↔
      Distinct.maxMergeFanIn < state.spilledSizes.length ∧ ∃ u last,
        checkCancelled spilled = .ok (u, last) ∧
          ¬CompactsWithin (next.runs.take Distinct.maxMergeFanIn) state.account last := by
  obtain ⟨hsizes, haccount, hdirectory⟩ := (size_of_spillCurrent state).of_ok hspill
  have hlength : next.runs.length = state.spilledSizes.length := by
    rw [← hsizes, List.length_map]
  rw [← hlength]
  by_cases hmany : next.runs.length ≤ Distinct.maxMergeFanIn
  · have hrun : (next.compactRunsIfNeeded : Run ω Fault _) = pure next :=
      loop_compactTurn_of_le hmany _
    rw [hrun]
    exact iff_of_false (unlimited_pure _ _) fun h => absurd h.1 (not_lt.mpr hmany)
  · have hmany := not_le.mp hmany
    have hle : next.runs.length ≤ Distinct.maxMergeFanIn + 1 := by
      rw [hlength]
      exact (length_spilledSizes state).2.trans (Nat.add_le_add_right h.runs_le 1)
    rw [compactRunsIfNeeded_of_lt hmany hle (hdirectory ▸ h.isSome_directory (hlength ▸ hmany)),
      unlimited_checkCancelled.meetsLimit_bind, and_iff_right hmany, haccount]
    refine exists_congr fun _ => exists_congr fun last => and_congr_right fun _ => ?_
    rw [meetsLimit_bind_unlimited fun _ => unlimited_pure _, meetsLimit_compact_iff]

/-- A state is sealed without meeting a limit where its file and its compaction are granted. -/
theorem not_meetsLimit_seal_iff (h : state.Settled) (hruns : state.runs ≠ []) :
    ¬MeetsLimit state.seal world ↔
      (state.storage.contents ≠ [] → GrantsAfter checkCancelled state.account .temp
        state.storage.tailSize.fileBytes world) ∧
      (Distinct.maxMergeFanIn < state.spilledSizes.length → ∀ next last,
        state.beforeCompaction world = .ok (next, last) →
          CompactsWithin (next.runs.take Distinct.maxMergeFanIn) state.account last) := by
  have hseal : MeetsLimit state.seal world ↔ ∃ u middle, checkCancelled world = .ok (u, middle) ∧
      ((state.storage.contents ≠ [] ∧
          ¬Grants state.account .temp state.storage.tailSize.fileBytes middle) ∨
        ∃ next spilled, state.spillCurrent middle = .ok (next, spilled) ∧
          MeetsLimit next.compactRunsIfNeeded spilled) := by
    unfold «seal»
    rw [unlimited_checkCancelled.meetsLimit_bind]
    refine exists_congr fun _ => exists_congr fun middle => and_congr_right fun _ => ?_
    rw [meetsLimit_bind_iff, meetsLimit_spillCurrent_iff (h.directory hruns)]
  rw [hseal]
  -- the check for cancellation and the spill come before the requests, in the order of the source
  constructor
  · intro hnot
    constructor
    · intro hcontents u middle hcheck
      by_contra hrefused
      exact hnot ⟨u, middle, hcheck, .inl ⟨hcontents, hrefused⟩⟩
    · intro hmany next last hbefore
      obtain ⟨u, middle, hcheck, hbefore⟩ := bind_ok_iff.mp hbefore
      obtain ⟨spilledState, spilled, hspill, hbefore⟩ := bind_ok_iff.mp hbefore
      obtain ⟨v, checked, hagain, hbefore⟩ := bind_ok_iff.mp hbefore
      cases hbefore
      by_contra hrefused
      exact hnot ⟨u, middle, hcheck, .inr ⟨next, spilled, hspill,
        (meetsLimit_compactRunsIfNeeded_iff h hspill).mpr ⟨hmany, v, last, hagain, hrefused⟩⟩⟩
  · rintro ⟨htail, hcompaction⟩ ⟨u, middle, hcheck,
      ⟨hcontents, hrefused⟩ | ⟨next, spilled, hspill, hmeets⟩⟩
    · exact hrefused (htail hcontents u middle hcheck)
    · obtain ⟨hmany, v, last, hagain, hrefused⟩ :=
        (meetsLimit_compactRunsIfNeeded_iff h hspill).mp hmeets
      refine hrefused (hcompaction hmany next last (bind_ok_iff.mpr ⟨u, middle, hcheck, ?_⟩))
      exact bind_ok_iff.mpr ⟨next, spilled, hspill, bind_ok_iff.mpr ⟨v, last, hagain, rfl⟩⟩

omit [Crates] in
theorem unlimited_summarize (scan : Scan) (metrics : ExactMetrics) :
    Unlimited (state.summarize scan metrics : Run ω Fault _) :=
  (unlimited_peakUsed _ _).bind fun _ => (unlimited_peakUsed _ _).bind fun _ => unlimited_pure _

omit [Crates] in
theorem unlimited_scanInMemory : Unlimited (state.scanInMemory : Run ω Fault _) :=
  unlimited_foldlM (fun _ _ => (unlimited_checkEvery _).bind fun _ => unlimited_pure _) _

/-- A state meets a limit when it is finished if it has spilled and something it asks for is
refused. -/
theorem meetsLimit_finish_iff (h : state.Settled) :
    MeetsLimit state.finish world ↔ state.runs ≠ [] ∧ ¬state.MergesWithin world := by
  unfold finish
  by_cases hruns : state.runs = []
  · rw [if_pos (List.isEmpty_iff.mpr hruns)]
    refine iff_of_false ?_ fun hmeets => hmeets.1 hruns
    exact unlimited_scanInMemory.bind (fun _ => unlimited_summarize _ _) world
  rw [if_neg (List.isEmpty_iff.not.mpr hruns), and_iff_right hruns, meetsLimit_bind_iff]
  have hmerge : (∃ next last, state.seal world = .ok (next, last) ∧
      MeetsLimit (mergeScan next.runs next.account >>= fun scan => next.summarize scan
        { runs := next.runs.length
          spillBytes := (next.runs.map RunMeta.totalBytes).sum
          compactions := next.compactions
          maxMergeFanIn := max next.maxMergeFanIn next.runs.length
          peakMemoryBytes := 0
          peakTempBytes := 0 }) last) ↔
      ¬GrantsAfter state.beforeMerge state.account .memory
        (RunSize.mergeBytes state.sealedSizes) world := by
    constructor
    · rintro ⟨next, last, hseal, hmeets⟩ hgranted
      obtain ⟨hsizes, haccount⟩ := (size_of_seal h).of_ok hseal
      rw [meetsLimit_bind_unlimited fun _ => unlimited_summarize _ _, meetsLimit_mergeScan_iff, hsizes,
        haccount] at hmeets
      refine hmeets fun u verified hverified => hgranted u verified ?_
      exact bind_ok_iff.mpr ⟨next, last, hseal, hverified⟩
    · intro hrefused
      unfold GrantsAfter at hrefused
      push Not at hrefused
      obtain ⟨u, verified, hbefore, hrefused⟩ := hrefused
      obtain ⟨next, last, hseal, hverified⟩ := bind_ok_iff.mp hbefore
      obtain ⟨hsizes, haccount⟩ := (size_of_seal h).of_ok hseal
      refine ⟨next, last, hseal, ?_⟩
      rw [meetsLimit_bind_unlimited fun _ => unlimited_summarize _ _, meetsLimit_mergeScan_iff, hsizes,
        haccount]
      exact fun hgranted => hrefused (hgranted u verified hverified)
  rw [hmerge, ← not_iff_not, not_or, not_not, not_not, not_meetsLimit_seal_iff h hruns]
  exact ⟨fun ⟨⟨htail, hcompaction⟩, hmerge⟩ => ⟨htail, hcompaction, hmerge⟩,
    fun hwithin => ⟨⟨hwithin.tail, hwithin.compaction⟩, hwithin.merge⟩⟩

/-! ## States between insertions -/

omit [Crates] in
/-- A new state asks for its samples. -/
theorem meetsLimit_new_iff {kind : ValueKind} {account : ResourceAccount} {directory : Option String}
    {rowCountHint : Option ℕ} : MeetsLimit (new kind account directory rowCountHint) world ↔
      ¬GrantsAfter (whenever directory.isSome (ioOperation .openDirectory)) account .memory
        (account.limits.maxSamples * sizeOfDuplicateSample) world := by
  have hopen : Unlimited (whenever directory.isSome (ioOperation .openDirectory) : Run ω Fault Unit) :=
    Unlimited.ite (fun _ => unlimited_ioOperation _) fun _ => unlimited_pure ()
  unfold new GrantsAfter
  rw [hopen.meetsLimit_bind]
  push Not
  refine exists_congr fun _ => exists_congr fun next => and_congr_right fun _ => ?_
  exact (checked_checkedMul _ _ _).meetsLimit_reserve fun _ => unlimited_pure _

omit [Crates] in
theorem settled_new {kind : ValueKind} {account : ResourceAccount} {directory : Option String}
    {rowCountHint : Option ℕ} :
    Sat (new kind account directory rowCountHint : Run ω Fault _) Settled fun _ => True := by
  unfold new
  refine (sat_known trivial).bind fun _ _ => (sat_known trivial).bind fun _ _ => ?_
  exact (sat_known trivial).bind fun _ _ => sat_pure ⟨Nat.zero_le _, fun h => absurd rfl h⟩

theorem settled_compactRunsIfNeeded (h : state.runs ≠ [] → state.directory.isSome = true) :
    Sat (state.compactRunsIfNeeded : Run ω Fault _) Settled fun _ => True := by
  refine sat_loop (fun current => current.runs ≠ [] → current.directory.isSome = true)
    (fun current => current.runs.length) (fun current hcurrent => ?_) _ _ h (Nat.lt_succ_self _)
  unfold compactTurn
  refine Sat.ite (fun hfew => sat_pure ⟨hfew, hcurrent⟩) fun hmany => ?_
  have hmany := not_le.mp hmany
  refine (sat_known trivial).bind fun _ _ => (sat_known trivial).bind fun _ _ => ?_
  refine (sat_known trivial).bind fun compacted _ => sat_pure ⟨fun _ => ?_, ?_⟩
  · exact hcurrent (List.ne_nil_of_length_pos (Nat.zero_lt_of_lt hmany))
  · show (compacted :: current.runs.drop Distinct.maxMergeFanIn).length < current.runs.length
    have htwo : 2 ≤ Distinct.maxMergeFanIn := by decide
    rw [List.length_cons, List.length_drop]
    omega

theorem Settled.sat_insert (h : state.Settled) (value : OwnedValue) (row : UInt64) :
    Sat (state.insert value row : Run ω Fault _) Settled fun _ => True := by
  unfold insert
  refine (sat_known trivial).bind fun needsSpill _ => ?_
  apply Sat.bind (Q := Settled)
  · refine Sat.ite (fun _ => ?_) fun _ => sat_pure h
    unfold makeRoom
    refine Sat.ite (fun _ => ?_) fun hdirectory => ?_
    · exact (sat_known trivial).bind fun _ _ => sat_pure ⟨h.runs_le, h.directory⟩
    · refine (size_of_spillCurrent state).bind fun next hnext => settled_compactRunsIfNeeded fun _ => ?_
      rw [hnext.2.2]
      exact Option.isSome_iff_ne_none.mpr (Option.isNone_iff_eq_none.not.mp hdirectory)
  · intro current hcurrent
    exact (sat_known trivial).bind fun _ _ => settled_compactRunsIfNeeded hcurrent.directory

end ExactState

end ProofFrame.Distinct
