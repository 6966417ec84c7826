import Mathlib.Data.List.Sort
import Mathlib.Data.Set.Insert

/-!
# Merging sorted sequences

`Merging` relates the state of a k-way merge, a heap with at most one entry per
source and the unread rest of every source, to the sequence it is still going to
emit.  Popping the least entry and refilling from its source emits the head of
that sequence and keeps the relation, so a merge loop of any shape goes through
exactly one list, the sorted union of its sources.

`absent` is what the anti-join of two sorted sequences computes; its equations
are the branches of the two-pointer walk.
-/

namespace ProofFrame.Lib.Sorted

/-! ## The k-way merge -/

theorem perm_flatten_set {α : Type} {sources : List (List α)} {run : ℕ}
    {record : α} {rest : List α}
    (hsource : sources[run]? = some (record :: rest)) :
    sources.flatten.Perm (record :: (sources.set run rest).flatten) := by
  induction sources generalizing run with
  | nil => simp at hsource
  | cons source sources ih =>
      cases run with
      | zero =>
          rw [List.getElem?_cons_zero, Option.some.injEq] at hsource
          simp [hsource]
      | succ run =>
          rw [List.getElem?_cons_succ] at hsource
          rw [List.flatten_cons, List.set_cons_succ, List.flatten_cons]
          exact ((ih hsource).append_left source).trans List.perm_middle

section Merging

variable {α : Type} [LinearOrder α]

/-- The order of the heap entries: by record, then by the source. -/
def entryLE (left right : α × ℕ) : Prop :=
  left.1 < right.1 ∨ left.1 = right.1 ∧ left.2 ≤ right.2

instance : DecidableRel (entryLE (α := α)) := fun left right =>
  inferInstanceAs (Decidable (left.1 < right.1 ∨ left.1 = right.1 ∧ left.2 ≤ right.2))

theorem entryLE_total (left right : α × ℕ) : entryLE left right ∨ entryLE right left := by
  rcases lt_trichotomy left.1 right.1 with h | h | h
  · exact Or.inl (Or.inl h)
  · rcases le_total left.2 right.2 with hrun | hrun
    · exact Or.inl (Or.inr ⟨h, hrun⟩)
    · exact Or.inr (Or.inr ⟨h.symm, hrun⟩)
  · exact Or.inr (Or.inl h)

theorem entryLE_trans {a b c : α × ℕ} (hab : entryLE a b) (hbc : entryLE b c) : entryLE a c := by
  rcases hab with hab | ⟨hab, hrun⟩ <;> rcases hbc with hbc | ⟨hbc, hrun'⟩
  · exact Or.inl (hab.trans hbc)
  · exact Or.inl (hbc ▸ hab)
  · exact Or.inl (hab ▸ hbc)
  · exact Or.inr ⟨hab.trans hbc, hrun.trans hrun'⟩

instance : Std.Total (entryLE (α := α)) := ⟨entryLE_total⟩

instance : IsTrans (α × ℕ) entryLE := ⟨fun _ _ _ => entryLE_trans⟩

theorem entryLE.le {left right : α × ℕ} (h : entryLE left right) : left.1 ≤ right.1 := by
  rcases h with h | ⟨h, -⟩
  · exact h.le
  · exact h.le

/-- Add an entry to a heap kept as a list, least entry first. -/
def push (entry : α × ℕ) (heap : List (α × ℕ)) : List (α × ℕ) := heap.orderedInsert entryLE entry

/-- The heap and the unread records of the sources, with what is still to be emitted.  A source
in `hungry` may be missing from the heap although it is not exhausted. -/
structure Merging (hungry : Set ℕ) (heap : List (α × ℕ)) (sources : List (List α))
    (pending : List α) : Prop where
  heap_sorted : heap.Pairwise entryLE
  sources_sorted : ∀ (run : ℕ) (source : List α), sources[run]? = some source →
    source.Pairwise (· ≤ ·)
  entry_le : ∀ entry ∈ heap, ∃ source, sources[entry.2]? = some source ∧
    ∀ record ∈ source, entry.1 ≤ record
  covered : ∀ (run : ℕ) (source : List α), sources[run]? = some source → source ≠ [] → run ∉ hungry →
    ∃ entry ∈ heap, entry.2 = run
  pending_sorted : pending.Pairwise (· ≤ ·)
  pending_perm : pending.Perm (heap.map Prod.fst ++ sources.flatten)

variable {hungry : Set ℕ} {heap : List (α × ℕ)} {sources : List (List α)} {pending : List α}

/-- Before any source has been asked, everything is pending. -/
theorem Merging.start (hsources : ∀ source ∈ sources, source.Pairwise (· ≤ ·))
    (hsorted : pending.Pairwise (· ≤ ·)) (hperm : pending.Perm sources.flatten) :
    Merging Set.univ [] sources pending where
  heap_sorted := .nil
  sources_sorted _ _ hsource := hsources _ (List.mem_of_getElem? hsource)
  entry_le := by simp
  covered _ _ _ _ hrun := absurd (Set.mem_univ _) hrun
  pending_sorted := hsorted
  pending_perm := by simpa using hperm

/-- Once every source has been asked, none is hungry. -/
theorem Merging.fed (h : Merging hungry heap sources pending)
    (hfed : ∀ run ∈ hungry, sources.length ≤ run) : Merging ∅ heap sources pending where
  heap_sorted := h.heap_sorted
  sources_sorted := h.sources_sorted
  entry_le := h.entry_le
  covered run source hsource hne _ := by
    refine h.covered run source hsource hne fun hrun => ?_
    have := (List.getElem?_eq_some_iff.mp hsource).1
    have := hfed run hrun
    omega
  pending_sorted := h.pending_sorted
  pending_perm := h.pending_perm

/-- A source that is asked and turns out to be exhausted. -/
theorem Merging.refill_nil (h : Merging hungry heap sources pending) {run : ℕ}
    (hsource : sources[run]? = some []) : Merging (hungry \ {run}) heap sources pending where
  heap_sorted := h.heap_sorted
  sources_sorted := h.sources_sorted
  entry_le := h.entry_le
  covered other source hother hne hfed := by
    refine h.covered other source hother hne fun hhungry => hfed ⟨hhungry, ?_⟩
    rintro rfl
    rw [hsource, Option.some.injEq] at hother
    exact hne hother.symm
  pending_sorted := h.pending_sorted
  pending_perm := h.pending_perm

/-- A source that is asked and hands over its next record. -/
theorem Merging.refill_cons (h : Merging hungry heap sources pending) {run : ℕ} {record : α}
    {rest : List α} (hsource : sources[run]? = some (record :: rest)) :
    Merging (hungry \ {run}) (push (record, run) heap) (sources.set run rest) pending where
  heap_sorted := h.heap_sorted.orderedInsert _ _
  sources_sorted other source hother := by
    rw [List.getElem?_set] at hother
    split at hother
    · have hsorted := h.sources_sorted run _ hsource
      split at hother
      · rw [← Option.some.inj hother]
        exact (List.pairwise_cons.mp hsorted).2
      · cases hother
    · exact h.sources_sorted other source hother
  entry_le entry hentry := by
    have hlt := (List.getElem?_eq_some_iff.mp hsource).1
    have hsorted := List.pairwise_cons.mp (h.sources_sorted run _ hsource)
    rcases (List.mem_orderedInsert _).mp hentry with rfl | hentry
    · exact ⟨rest, List.getElem?_set_self hlt, hsorted.1⟩
    · obtain ⟨source, hother, hle⟩ := h.entry_le entry hentry
      by_cases hrun : run = entry.2
      · subst hrun
        rw [hsource, Option.some.injEq] at hother
        exact ⟨rest, List.getElem?_set_self hlt, fun record hrecord =>
          hle record (hother ▸ List.mem_cons_of_mem _ hrecord)⟩
      · exact ⟨source, by rw [List.getElem?_set_ne hrun, hother], hle⟩
  covered other source hother hne hfed := by
    by_cases hrun : run = other
    · exact ⟨(record, run), (List.mem_orderedInsert _).mpr (Or.inl rfl), hrun⟩
    · rw [List.getElem?_set_ne hrun] at hother
      obtain ⟨entry, hentry, hsame⟩ := h.covered other source hother hne fun hhungry =>
        hfed ⟨hhungry, fun heq => hrun heq.symm⟩
      exact ⟨entry, (List.mem_orderedInsert _).mpr (Or.inr hentry), hsame⟩
  pending_sorted := h.pending_sorted
  pending_perm := by
    have hheap : ((push (record, run) heap).map Prod.fst).Perm (record :: heap.map Prod.fst) :=
      (List.perm_orderedInsert _ _ _).map _
    refine h.pending_perm.trans (((perm_flatten_set hsource).append_left _).trans ?_)
    exact List.perm_middle.trans (hheap.symm.append_right _)

/-- The least entry of a heap that knows every source is the next record to emit. -/
theorem Merging.pop {record : α} {run : ℕ} (h : Merging ∅ ((record, run) :: heap) sources pending) :
    ∃ rest, pending = record :: rest ∧ Merging {run} heap sources rest := by
  obtain ⟨hhead, hsorted⟩ := List.pairwise_cons.mp h.heap_sorted
  have hperm : pending.Perm (record :: (heap.map Prod.fst ++ sources.flatten)) := h.pending_perm
  -- every pending record is in the heap, or behind an entry of its source that is
  have hleast : ∀ other ∈ pending, record ≤ other := by
    intro other hother
    rcases List.mem_append.mp (h.pending_perm.mem_iff.mp hother) with hheap | hsource
    · obtain ⟨entry, hentry, rfl⟩ := List.mem_map.mp hheap
      rcases List.mem_cons.mp hentry with rfl | hentry
      · exact le_rfl
      · exact (hhead entry hentry).le
    · obtain ⟨source, hmem, hother⟩ := List.mem_flatten.mp hsource
      obtain ⟨other_run, hget⟩ := List.getElem?_of_mem hmem
      obtain ⟨entry, hentry, rfl⟩ :=
        h.covered other_run source hget (List.ne_nil_of_mem hother) (Set.notMem_empty _)
      obtain ⟨source', hget', hle⟩ := h.entry_le entry hentry
      rw [hget, Option.some.injEq] at hget'
      refine le_trans ?_ (hle other (hget' ▸ hother))
      rcases List.mem_cons.mp hentry with rfl | hentry
      · exact le_rfl
      · exact (hhead entry hentry).le
  cases hpending : pending with
  | nil => simp [hpending] at hperm
  | cons first rest =>
      have hfirst : first = record := by
        refine le_antisymm ?_ (hleast first (hpending ▸ List.mem_cons_self ..))
        have hmem : record ∈ first :: rest :=
          hpending ▸ hperm.mem_iff.mpr (List.mem_cons_self ..)
        rcases List.mem_cons.mp hmem with rfl | hrest
        · exact le_rfl
        · exact List.rel_of_pairwise_cons (hpending ▸ h.pending_sorted) hrest
      subst hfirst
      refine ⟨rest, rfl, hsorted, h.sources_sorted,
        fun entry hentry => h.entry_le entry (List.mem_cons_of_mem _ hentry), ?_, ?_, ?_⟩
      · intro other source hother hne hrun
        obtain ⟨entry, hentry, hsame⟩ := h.covered other source hother hne (Set.notMem_empty _)
        refine ⟨entry, (List.mem_cons.mp hentry).resolve_left ?_, hsame⟩
        rintro rfl
        exact hrun hsame.symm
      · exact (List.pairwise_cons.mp (hpending ▸ h.pending_sorted)).2
      · exact (hpending ▸ hperm).cons_inv

/-- An empty heap that knows every source has nothing left to emit. -/
theorem Merging.done (h : Merging ∅ [] sources pending) : pending = [] := by
  have hsources : sources.flatten = [] := by
    rw [List.flatten_eq_nil_iff]
    intro source hsource
    obtain ⟨run, hget⟩ := List.getElem?_of_mem hsource
    by_contra hne
    obtain ⟨entry, hentry, -⟩ := h.covered run source hget hne (Set.notMem_empty _)
    cases hentry
  have := h.pending_perm
  rw [hsources] at this
  simpa using this

end Merging

/-! ## The anti-join -/

section Absent

variable {α κ : Type} [LinearOrder κ] (key : α → κ)

local instance lawfulBEqKey : LawfulBEq κ := inferInstance

/-- The records of `left` whose key does not occur in `right`. -/
def absent (left : List α) (right : List κ) : List α := left.filter fun record => key record ∉ right

variable {key} {x : α} {left : List α} {value : κ} {right : List κ}

theorem absent_nil : absent key left [] = left := by simp [absent]

/-- The left key is below every remaining right key. -/
theorem absent_of_lt (h : key x < value) (hright : (value :: right).Pairwise (· < ·)) :
    absent key (x :: left) (value :: right) = x :: absent key left (value :: right) := by
  have hnot : key x ∉ value :: right := by
    rw [List.mem_cons]
    rintro (heq | hmem)
    · exact h.ne heq
    · exact (h.trans (List.rel_of_pairwise_cons hright hmem)).false
  exact List.filter_cons_of_pos (by simpa using hnot)

/-- The right key is below every remaining left key. -/
theorem absent_of_gt (h : ∀ record ∈ left, value < key record) :
    absent key left (value :: right) = absent key left right := by
  refine List.filter_congr fun record hrecord => ?_
  simp [(h record hrecord).ne']

/-- The keys meet. -/
theorem absent_of_eq (h : key x = value) (hleft : (x :: left).Pairwise (key · < key ·)) :
    absent key (x :: left) (value :: right) = absent key left right := by
  have hskip : absent key (x :: left) (value :: right) = absent key left (value :: right) :=
    List.filter_cons_of_neg (by simp [h])
  rw [hskip]
  exact absent_of_gt fun record hrecord => h ▸ List.rel_of_pairwise_cons hleft hrecord

end Absent

end ProofFrame.Lib.Sorted
