import ProofFrame.Distinct.RunSpec
import ProofFrame.Lib.Sorted.Groups

/-!
# What the merges of runs compute

A merge over runs that hold some lists of records goes through the sorted union
of those lists.  From this the scan of `merge` counts what the union contains and
compaction writes a run that holds the union.
-/

namespace ProofFrame.Distinct

open Lib Lib.Run Lib.Sorted

/-! ## Scans -/

/-- What a finished scan says about the records it went through. -/
structure Scan.Counts (limit : ℕ) (records : List Record) (scan : Scan) : Prop where
  distinct_eq : scan.distinctCount = (values Record.value records).length
  duplicate_eq : scan.duplicateCount = (duplicates Record.value records).length
  samples_eq : scan.duplicateSamples = (duplicates Record.value records).take limit

/-- What a scan knows after the sorted records `done`. -/
def Scan.After (limit : ℕ) (done : List Record) (scan : Scan) : Prop :=
  Scanned Record.value limit done scan.distinctCount scan.duplicateCount scan.duplicateSamples
    scan.previous

theorem Scan.after_start (limit : ℕ) : Scan.start.After limit [] := Scanned.nil limit

theorem Scan.After.observe {limit : ℕ} {done : List Record} {scan : Scan} {record : Record}
    (h : scan.After limit done) (hsorted : (done ++ [record]).Pairwise (· ≤ ·)) :
    (scan.observe limit record).After limit (done ++ [record]) := by
  unfold Scan.observe
  cases hprevious : scan.previous with
  | none => exact h.next Record.monotone_value hsorted (by simp [hprevious])
  | some first =>
      by_cases hvalue : first.value = record.value
      · simp only [hvalue, ↓reduceIte]
        have := Scanned.repeat h hsorted hprevious hvalue
        rwa [hprevious] at this
      · simp only [hvalue, ↓reduceIte]
        refine h.next Record.monotone_value hsorted fun other hother => ?_
        rw [hprevious, Option.some.injEq] at hother
        exact hother ▸ hvalue

theorem Scan.After.counts {limit : ℕ} {done records : List Record} {scan : Scan}
    (h : scan.After limit done) (hperm : done.Perm records) : scan.Counts limit records :=
  ⟨by rw [h.distinct_eq, values_perm hperm], by rw [h.duplicate_eq, duplicates_perm hperm],
    by rw [h.samples_eq, duplicates_perm hperm]⟩

variable {ω : Type}

theorem sat_mergeMemoryBytes [Crates] (runs : List RunMeta) :
    Sat (mergeMemoryBytes runs : Run ω Fault ℕ) (fun _ => True) ExactFault := by
  have hfold : ∀ (total : ℕ) (run : RunMeta), Sat (do
      let fixed ← checkedAdd "Exact merge size overflowed" mergeBufferBytes Crates.sizeOfRunCursor
      let fixed ← checkedAdd "Exact merge size overflowed" fixed Crates.sizeOfMergeEntry
      let total ← checkedAdd "Exact merge size overflowed" total fixed
      checkedAdd "Exact merge size overflowed" total run.maxRecordBytes : Run ω Fault ℕ)
      (fun _ => True) ExactFault := by
    intro total run
    refine (sat_checkedAdd_exact _ _ _).bind fun _ _ => ?_
    refine (sat_checkedAdd_exact _ _ _).bind fun _ _ => ?_
    refine (sat_checkedAdd_exact _ _ _).bind fun _ _ => ?_
    exact (sat_checkedAdd_exact _ _ _).post fun _ _ => trivial
  unfold mergeMemoryBytes
  refine (sat_foldlM (fun _ _ => True) trivial fun _ run _ total _ _ =>
    hfold total run).bind fun _ _ => ?_
  exact (sat_checkedAdd_exact _ _ _).post fun _ _ => trivial

variable [Host ω]

theorem sat_checkEvery (iteration : ℕ) :
    Sat (checkEvery iteration : Run ω Fault Unit) (fun _ => True) ExactFault :=
  Sat.ite (fun _ => sat_checkCancelled_exact) fun _ => sat_pure trivial

/-! ## The merge state -/

/-- The records a merge has still to pop; the sources in `hungry` have yet to be asked. -/
def MergeState.Pending (hungry : Set ℕ) (state : MergeState) (pending : List Record) : Prop :=
  ∃ sources, List.Forall₂ RunCursor.Reads state.cursors sources ∧
    Merging hungry state.heap sources pending

theorem forall₂_getElem? {α β : Type} {R : α → β → Prop} {xs : List α} {ys : List β}
    (h : List.Forall₂ R xs ys) {i : ℕ} {x : α} (hx : xs[i]? = some x) :
    ∃ y, ys[i]? = some y ∧ R x y := by
  induction h generalizing i with
  | nil => simp at hx
  | cons hhead _ ih =>
      cases i with
      | zero =>
          rw [List.getElem?_cons_zero, Option.some.injEq] at hx
          exact ⟨_, List.getElem?_cons_zero, hx ▸ hhead⟩
      | succ i => exact ih hx

theorem forall₂_set {α β : Type} {R : α → β → Prop} {xs : List α} {ys : List β}
    (h : List.Forall₂ R xs ys) (i : ℕ) {x : α} {y : β} (hxy : R x y) :
    List.Forall₂ R (xs.set i x) (ys.set i y) := by
  induction h generalizing i with
  | nil => exact .nil
  | cons hhead htail ih =>
      cases i with
      | zero => exact .cons hxy htail
      | succ i => exact .cons hhead (ih i)

theorem sum_remaining {cursors : List RunCursor} {sources : List (List Record)}
    (h : List.Forall₂ RunCursor.Reads cursors sources) :
    (cursors.map RunCursor.remaining).sum = sources.flatten.length := by
  induction h with
  | nil => rfl
  | cons hhead _ ih => simp [ih, hhead.remaining_eq]

/-- The fuel of a merge is enough for one turn per pending record and one more. -/
theorem MergeState.Pending.fuel_eq {hungry : Set ℕ} {state : MergeState} {pending : List Record}
    (h : state.Pending hungry pending) : state.fuel = pending.length + 1 := by
  obtain ⟨sources, hreads, hmerging⟩ := h
  rw [MergeState.fuel, sum_remaining hreads, hmerging.pending_perm.length_eq]
  simp

theorem MergeState.sat_refill {hungry : Set ℕ} {state : MergeState} {pending : List Record} {run : ℕ}
    (h : state.Pending hungry pending) (hrun : run < state.cursors.length) :
    Sat (state.refill run : Run ω Fault _)
      (fun next => next.Pending (hungry \ {run}) pending ∧
        next.cursors.length = state.cursors.length) ExactFault := by
  obtain ⟨sources, hreads, hmerging⟩ := h
  unfold MergeState.refill
  refine (sat_someOr (E := ExactFault) fun hnone => ?_).bind fun cursor hcursor => ?_
  · rw [List.getElem?_eq_getElem hrun] at hnone
    cases hnone
  obtain ⟨records, hsource, hcursor⟩ := forall₂_getElem? hreads hcursor
  refine ((RunCursor.sat_next sat_io_exact hcursor).mono (fun _ hr => hr)
    fun _ => ReadFault.exact).bind fun r hr => ?_
  obtain ⟨record, cursor'⟩ := r
  obtain ⟨rfl, hcursor', -⟩ := hr
  cases records with
  | nil =>
      refine sat_pure ⟨⟨sources, ?_, hmerging.refill_nil hsource⟩, by simp⟩
      have hsame : sources.set run [] = sources := by
        obtain ⟨hlt, hget⟩ := List.getElem?_eq_some_iff.mp hsource
        rw [← hget, List.set_getElem_self]
      exact hsame ▸ forall₂_set hreads run hcursor'
  | cons record rest =>
      exact sat_pure ⟨⟨sources.set run rest, forall₂_set hreads run hcursor',
        hmerging.refill_cons hsource⟩, by simp⟩

/-- Popping the heap takes the least pending record and leaves its source to be asked. -/
theorem MergeState.Pending.pop {state : MergeState} {pending : List Record} {record : Record}
    {run : ℕ} {heap : List (Record × ℕ)} (h : state.Pending ∅ pending)
    (hheap : state.heap = (record, run) :: heap) :
    ∃ rest, pending = record :: rest ∧ run < state.cursors.length ∧
      MergeState.Pending {run} { state with heap } rest := by
  obtain ⟨sources, hreads, hmerging⟩ := h
  rw [hheap] at hmerging
  obtain ⟨source, hsource, -⟩ := hmerging.entry_le (record, run) (List.mem_cons_self ..)
  obtain ⟨rest, hpending, hrest⟩ := hmerging.pop
  refine ⟨rest, hpending, ?_, sources, hreads, hrest⟩
  rw [hreads.length_eq]
  exact (List.getElem?_eq_some_iff.mp hsource).1

theorem MergeState.Pending.nil {state : MergeState} {pending : List Record}
    (h : state.Pending ∅ pending) (hheap : state.heap = []) : pending = [] := by
  obtain ⟨sources, -, hmerging⟩ := h
  exact (hheap ▸ hmerging).done

theorem MergeState.Pending.exists_rest {state : MergeState} {pending : List Record}
    {record : Record} {run : ℕ} {heap : List (Record × ℕ)} (h : state.Pending ∅ pending)
    (hheap : state.heap = (record, run) :: heap) : ∃ rest, pending = record :: rest := by
  obtain ⟨rest, hpending, -⟩ := h.pop hheap
  exact ⟨rest, hpending⟩

/-- Popping and asking the source, as every merge loop does. -/
theorem MergeState.sat_pop_refill {state : MergeState} {rest : List Record} {record : Record}
    {run : ℕ} {heap : List (Record × ℕ)} (h : state.Pending ∅ (record :: rest))
    (hheap : state.heap = (record, run) :: heap) :
    Sat (MergeState.refill { state with heap } run : Run ω Fault _)
      (fun next => next.Pending ∅ rest) ExactFault := by
  obtain ⟨rest', hpending, hrun, hrest⟩ := h.pop hheap
  obtain ⟨-, rfl⟩ := List.cons.inj hpending
  refine (sat_refill hrest hrun).post fun next hnext => ?_
  simpa using hnext.1

theorem patchChecksum_header (kind : ValueKind) (records payloadBytes : ℕ) (checksum : Digest)
    (payload : List UInt8) :
    patchChecksum (header kind records payloadBytes (List.replicate 32 0) ++ payload) checksum =
      header kind records payloadBytes checksum.val ++ payload := by
  have hprefix : (magic ++ Bytes.toLe 2 version ++ [kind.tag, 0] ++ Bytes.toLe 8 records ++
      Bytes.toLe 8 payloadBytes).length = checksumOffset := by
    simp [magic, checksumOffset]
  unfold patchChecksum header
  rw [List.append_assoc _ (List.replicate 32 0), List.take_left' hprefix, ← List.drop_drop,
    List.drop_left' hprefix, List.drop_left' (List.length_replicate ..)]

variable [Crates]

/-- Opening the cursors of runs makes their sorted union pending. -/
theorem sat_openMergeCursors {runs : List RunMeta} {contents : List (List Record)}
    {pending : List Record} (h : List.Forall₂ RunMeta.Holds runs contents)
    (hsorted : pending.Pairwise (· ≤ ·)) (hperm : pending.Perm contents.flatten) :
    Sat (openMergeCursors runs : Run ω Fault _) (fun state => state.Pending ∅ pending)
      ExactFault := by
  unfold openMergeCursors
  have hopen : Sat (runs.mapM RunCursor.open : Run ω Fault _)
      (fun cursors => List.Forall₂ RunCursor.Reads cursors contents) ExactFault := by
    clear hsorted hperm
    induction h with
    | nil =>
        rw [List.mapM_nil]
        exact sat_pure .nil
    | cons hhead _ ih =>
        rw [List.mapM_cons]
        refine (RunCursor.sat_open sat_io_exact hhead).bind fun cursor hcursor => ?_
        exact ih.bind fun cursors hcursors => sat_pure (.cons hcursor hcursors)
  refine hopen.bind fun cursors hcursors => ?_
  have hstart : Merging Set.univ [] contents pending := by
    refine .start (fun source hsource => ?_) hsorted hperm
    obtain ⟨i, hi⟩ := List.getElem?_of_mem hsource
    obtain ⟨run, -, hrun⟩ := forall₂_getElem? h.flip hi
    exact hrun.sorted
  refine (sat_foldlM (fun done state => state.Pending {run | done.length ≤ run} pending ∧
    state.cursors.length = cursors.length) ?_ ?_).post fun state hstate => ?_
  · refine ⟨⟨contents, hcursors, ?_⟩, rfl⟩
    simpa using hstart
  · intro done run rest state hrange hinv
    have hrun : run = done.length := by
      have := congrArg (·[done.length]?) hrange
      have hlt : done.length < cursors.length := by
        have := congrArg List.length hrange
        simp at this
        omega
      simpa [List.getElem?_range hlt] using this.symm
    have hlt : run < state.cursors.length := by
      have := congrArg List.length hrange
      simp at this
      omega
    refine (MergeState.sat_refill hinv.1 hlt).post fun next hnext => ⟨?_, hnext.2.trans hinv.2⟩
    convert hnext.1 using 1
    ext other
    simp only [List.length_append, List.length_singleton, Set.mem_ofPred_eq, Set.mem_sdiff,
      Set.mem_singleton_iff]
    omega
  · obtain ⟨⟨sources, hreads, hmerging⟩, hlength⟩ := hstate
    refine ⟨sources, hreads, hmerging.fed fun run hrun => ?_⟩
    rw [← hreads.length_eq, hlength]
    simpa using hrun

/-! ## Checks before a merge -/

theorem sat_verifyPayload (run : RunMeta) :
    Sat (verifyPayload run : Run ω Fault Unit) (fun _ => True) ExactFault := by
  unfold verifyPayload
  refine (sat_io_exact _).bind fun _ _ => ?_
  refine sat_failIf_corrupt.bind fun _ _ => ?_
  have hread : ∀ _ : ℕ, Sat (do checkCancelled; ioOperation .readFile : Run ω Fault Unit)
      (fun _ => True) ExactFault := fun _ =>
    sat_checkCancelled_exact.bind fun _ _ => sat_io_exact _
  refine (sat_forM fun n _ => hread n).bind fun _ _ => ?_
  exact sat_failIf_corrupt.post fun _ _ => trivial

theorem sat_verifyAll (runs : List RunMeta) :
    Sat (runs.forM verifyPayload : Run ω Fault Unit) (fun _ => True) ExactFault :=
  sat_forM fun run _ => sat_verifyPayload run

/-! ## The scan of a merge -/

theorem sat_mergeScan {runs : List RunMeta} {account : ResourceAccount}
    {contents : List (List Record)} (h : List.Forall₂ RunMeta.Holds runs contents) :
    Sat (mergeScan runs account : Run ω Fault _)
      (Scan.Counts account.limits.maxSamples contents.flatten) ExactFault := by
  have hperm := List.perm_insertionSort (· ≤ ·) contents.flatten
  have hsorted := List.pairwise_insertionSort (· ≤ ·) contents.flatten
  revert hperm hsorted
  generalize contents.flatten.insertionSort (· ≤ ·) = sorted
  intro hperm hsorted
  unfold mergeScan
  refine (sat_verifyAll runs).bind fun _ _ => ?_
  refine (sat_mergeMemoryBytes runs).bind fun _ _ => ?_
  refine (sat_reserve_exact _ _ _).bind fun _ _ => ?_
  refine (sat_openMergeCursors h hsorted hperm).bind fun state hstate => ?_
  -- the records popped so far and the pending ones make up the sorted union
  refine sat_loop (fun turn => ∃ done pending, sorted = done ++ pending ∧
      turn.1.Pending ∅ pending ∧ turn.2.1.After account.limits.maxSamples done)
    (fun turn => turn.1.fuel - 1) ?_ _ _
    ⟨[], sorted, rfl, hstate, Scan.after_start _⟩ ?_
  · rintro ⟨state, scan, iterations⟩ ⟨done, pending, hsplit, hpending, hscan⟩
    dsimp only [mergeTurn]
    cases hheap : state.heap with
    | nil =>
        refine sat_pure (hscan.counts ?_)
        rw [hsplit, hpending.nil hheap, List.append_nil] at hperm
        exact hperm
    | cons entry heap =>
        obtain ⟨record, run⟩ := entry
        obtain ⟨rest, rfl⟩ := hpending.exists_rest hheap
        refine (sat_checkEvery iterations).bind fun _ _ => ?_
        refine (MergeState.sat_pop_refill hpending hheap).bind fun next hnext =>
          sat_pure ⟨⟨done ++ [record], rest, ?_, hnext, ?_⟩, ?_⟩
        · rw [hsplit, List.append_assoc, List.singleton_append]
        · refine hscan.observe ?_
          rw [hsplit, ← List.singleton_append, ← List.append_assoc] at hsorted
          exact (List.pairwise_append.mp hsorted).1
        · rw [hpending.fuel_eq, hnext.fuel_eq]
          simp
  · have := hstate.fuel_eq
    show state.fuel - 1 < state.fuel
    omega

/-! ## Compaction -/

theorem sat_compactionSpec (runs : List RunMeta) :
    Sat (compactionSpec runs : Run ω Fault _) (fun spec =>
      (∀ run ∈ runs, run.kind = spec.kind) ∧ headerBytes + spec.payloadBytes < 2 ^ 64)
      ExactFault := by
  unfold compactionSpec
  refine sat_someOr_corrupt.bind fun first hfirst => ?_
  refine sat_failIf_corrupt.bind fun _ hmixed => ?_
  refine (sat_verifyAll runs).bind fun _ _ => ?_
  refine (sat_foldlM (fun _ _ => True) trivial fun _ run _ total _ _ =>
    (sat_checkedAdd_exact _ total run.records).post fun _ _ => trivial).bind fun _ _ => ?_
  refine (sat_foldlM (fun _ _ => True) trivial fun _ run _ total _ _ =>
    (sat_checkedAdd_exact _ total run.payloadBytes).post fun _ _ => trivial).bind fun _ _ => ?_
  refine (sat_checkedAdd_exact _ _ _).bind fun total htotal => sat_pure ⟨?_, htotal.2⟩
  intro run hrun
  by_contra hne
  exact hmixed ⟨run, hrun, hne⟩

/-- Compaction writes a run that holds the sorted union of its inputs. -/
theorem sat_compact {runs : List RunMeta} {account : ResourceAccount}
    {contents : List (List Record)} {sorted : List Record}
    (h : List.Forall₂ RunMeta.Holds runs contents)
    (hsorted : sorted.Pairwise (· ≤ ·)) (hperm : sorted.Perm contents.flatten) :
    Sat (compact runs account : Run ω Fault _)
      (fun run => run.Holds sorted ∧ ∀ source ∈ runs, source.kind = run.kind) ExactFault := by
  unfold compact
  refine (sat_compactionSpec runs).bind fun spec hspec => ?_
  obtain ⟨hkind, hsize⟩ := hspec
  have hstorable : Storable spec.kind sorted := by
    constructor <;> intro record hrecord <;>
      obtain ⟨source, hsource, hmem⟩ := List.mem_flatten.mp (hperm.mem_iff.mp hrecord) <;>
      obtain ⟨i, hi⟩ := List.getElem?_of_mem hsource <;>
      obtain ⟨run, hrun, hholds⟩ := forall₂_getElem? h.flip hi
    · rw [hholds.storable.kind_eq record hmem, hkind run (List.mem_of_getElem? hrun)]
    · exact hholds.storable.length_lt record hmem
  refine (sat_reserve_exact _ _ _).bind fun _ _ => ?_
  refine (sat_mergeMemoryBytes runs).bind fun _ _ => ?_
  refine (sat_reserve_exact _ _ _).bind fun _ _ => ?_
  refine (sat_io_exact _).bind fun _ _ => ?_
  refine (sat_io_exact _).bind fun _ _ => ?_
  refine (sat_openMergeCursors h hsorted hperm).bind fun state hstate => ?_
  -- each turn moves the least record from the sources to the payload
  have hloop : Sat (loop .diverged compactTurn state.fuel (state, [], 0) : Run ω Fault _)
      (· = (encodeAll sorted, sorted.length)) ExactFault := by
    refine sat_loop (fun turn => ∃ done pending, sorted = done ++ pending ∧
        turn.1.Pending ∅ pending ∧ turn.2.1 = encodeAll done ∧ turn.2.2 = done.length)
      (fun turn => turn.1.fuel - 1) ?_ _ _ ⟨[], sorted, rfl, hstate, rfl, rfl⟩ ?_
    · rintro ⟨state, payload, written⟩ ⟨done, pending, hsplit, hpending, rfl, rfl⟩
      dsimp only [compactTurn]
      cases hheap : state.heap with
      | nil =>
          rw [hpending.nil hheap, List.append_nil] at hsplit
          exact sat_pure (by rw [hsplit])
      | cons entry heap =>
          obtain ⟨record, run⟩ := entry
          obtain ⟨rest, rfl⟩ := hpending.exists_rest hheap
          refine (sat_checkEvery _).bind fun _ _ => ?_
          refine sat_failIf_corrupt.bind fun _ _ => ?_
          refine (sat_io_exact _).bind fun _ _ => ?_
          refine (sat_checkedAdd_exact _ _ _).bind fun _ _ => ?_
          refine (MergeState.sat_pop_refill hpending hheap).bind fun next hnext =>
            sat_pure ⟨⟨done ++ [record], rest, ?_, hnext, by simp, by simp⟩, ?_⟩
          · rw [hsplit, List.append_assoc, List.singleton_append]
          · have := hpending.fuel_eq
            have := hnext.fuel_eq
            simp only [List.length_cons] at *
            omega
    · have := hstate.fuel_eq
      show state.fuel - 1 < state.fuel
      omega
  refine hloop.bind fun r hr => ?_
  subst hr
  refine sat_failIf_corrupt.bind fun _ hwritten => ?_
  rw [not_or, not_not, not_not] at hwritten
  obtain ⟨hrecords, hpayload⟩ := hwritten
  refine (sat_io_exact _).bind fun _ _ => sat_pure
    ⟨⟨?_, rfl, hrecords.symm, hpayload.symm, hstorable, hsorted, ?_⟩, hkind⟩
  · rw [patchChecksum_header, ← hrecords, ← hpayload]
  · rw [hpayload]
    exact hsize

end ProofFrame.Distinct
