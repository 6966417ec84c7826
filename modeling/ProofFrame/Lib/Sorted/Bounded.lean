import Mathlib.Data.List.Sort
import Mathlib.Data.List.TakeWhile

/-!
# The least items of a stream

A bounded selection keeps, of the items that have arrived, the `limit` ones with
the least keys, in ascending order.  `Kept` says what it holds: the least keys,
with multiplicity, each carried by an item that arrived.  Which of two items
with one key is held may depend on the order of arrival; the keys never do.
-/

namespace ProofFrame.Lib.Sorted

variable {α κ : Type} [LinearOrder κ] {key : α → κ} {limit : ℕ} {items samples : List α} {x : α}

/-- The keys of the items in ascending order. -/
def sortedKeys (key : α → κ) (items : List α) : List κ := (items.map key).insertionSort (· ≤ ·)

theorem sortedKeys_pairwise (items : List α) : (sortedKeys key items).Pairwise (· ≤ ·) :=
  List.pairwise_insertionSort _ _

theorem sortedKeys_eq {keys : List κ} (hsorted : keys.Pairwise (· ≤ ·))
    (hperm : keys.Perm (items.map key)) : sortedKeys key items = keys :=
  ((List.perm_insertionSort _ _).trans hperm.symm).eq_of_pairwise
    (fun _ _ _ _ => le_antisymm) (sortedKeys_pairwise items) hsorted

theorem sortedKeys_perm {items' : List α} (h : items.Perm items') :
    sortedKeys key items = sortedKeys key items' :=
  sortedKeys_eq (sortedKeys_pairwise items')
    ((List.perm_insertionSort _ _).trans (h.map key).symm)

theorem length_sortedKeys (items : List α) : (sortedKeys key items).length = items.length := by
  rw [sortedKeys, List.length_insertionSort, List.length_map]

theorem sortedKeys_snoc (items : List α) (x : α) :
    sortedKeys key (items ++ [x]) = (sortedKeys key items).orderedInsert (· ≤ ·) (key x) := by
  apply sortedKeys_eq
  · exact (sortedKeys_pairwise items).orderedInsert _ _
  · apply (List.perm_orderedInsert ..).trans
    rw [List.map_append, List.map_singleton]
    exact ((List.perm_insertionSort _ _).cons _).trans (List.perm_append_singleton ..).symm

/-- Only the part that is kept matters for what is kept after an insertion. -/
theorem take_orderedInsert (k : κ) : ∀ (limit : ℕ) (keys : List κ),
    (keys.orderedInsert (· ≤ ·) k).take limit =
      ((keys.take limit).orderedInsert (· ≤ ·) k).take limit := by
  intro limit
  induction limit with
  | zero => simp
  | succ limit ih =>
      intro keys
      cases keys with
      | nil => rfl
      | cons head keys =>
          rw [List.take_succ_cons, List.orderedInsert, List.orderedInsert]
          split
          · rw [List.take_succ_cons, List.take_succ_cons]
            cases limit with
            | zero => rfl
            | succ limit => rw [List.take_succ_cons, List.take_succ_cons, List.take_take,
                Nat.min_eq_left (Nat.le_succ limit)]
          · rw [List.take_succ_cons, List.take_succ_cons, ih]

/-- What a bounded selection holds of the items that have arrived. -/
structure Kept (key : α → κ) (limit : ℕ) (items samples : List α) : Prop where
  keys_eq : samples.map key = (sortedKeys key items).take limit
  subset : samples ⊆ items

theorem Kept.nil (key : α → κ) (limit : ℕ) : Kept key limit [] [] :=
  ⟨by simp [sortedKeys], fun _ h => h⟩

theorem Kept.zero (key : α → κ) (items : List α) : Kept key 0 items [] :=
  ⟨by simp, fun _ h => absurd h (by simp)⟩

theorem Kept.length_eq (h : Kept key limit items samples) :
    samples.length = min limit items.length := by
  rw [← List.length_map (f := key), h.keys_eq, List.length_take, length_sortedKeys]

theorem Kept.sorted (h : Kept key limit items samples) : (samples.map key).Pairwise (· ≤ ·) := by
  rw [h.keys_eq]
  exact (sortedKeys_pairwise items).sublist (List.take_sublist ..)

/-- An item that is not below a full selection is passed over. -/
theorem Kept.skip (h : Kept key limit items samples) (hfull : limit ≤ samples.length)
    (hle : ∀ sample ∈ samples, key sample ≤ key x) : Kept key limit (items ++ [x]) samples := by
  refine ⟨?_, fun _ hmem => List.mem_append_left _ (h.subset hmem)⟩
  have hsnoc : (samples.map key).orderedInsert (· ≤ ·) (key x) = samples.map key ++ [key x] := by
    apply List.Perm.eq_of_pairwise (fun _ _ _ _ => le_antisymm) (h.sorted.orderedInsert _ _)
    · rw [List.pairwise_append]
      refine ⟨h.sorted, List.pairwise_singleton .., ?_⟩
      intro a ha b hb
      obtain ⟨sample, hsample, rfl⟩ := List.mem_map.mp ha
      rw [List.mem_singleton.mp hb]
      exact hle sample hsample
    · exact (List.perm_orderedInsert ..).trans (List.perm_append_singleton ..).symm
  have hlength : limit ≤ (samples.map key).length := by rwa [List.length_map]
  have hkeys : (samples.map key).take limit = samples.map key := by
    rw [h.keys_eq, List.take_take, Nat.min_self]
  rw [sortedKeys_snoc, take_orderedInsert, ← h.keys_eq, hsnoc,
    List.take_append_of_le_length hlength, hkeys]

/-- An item is inserted where the order allows, and what exceeds the limit is dropped. -/
theorem Kept.insert {before after : List α} (h : Kept key limit items (before ++ after))
    (hbefore : ∀ sample ∈ before, key sample ≤ key x)
    (hafter : ∀ sample ∈ after, key x ≤ key sample) :
    Kept key limit (items ++ [x]) ((before ++ x :: after).take limit) := by
  constructor
  · have hinsert : (before ++ x :: after).map key =
        ((before ++ after).map key).orderedInsert (· ≤ ·) (key x) := by
      have hsorted := h.sorted
      apply List.Perm.eq_of_pairwise (fun _ _ _ _ => le_antisymm) _ (hsorted.orderedInsert _ _)
      · refine List.Perm.trans ?_ (List.perm_orderedInsert ..).symm
        rw [List.map_append, List.map_append, List.map_cons]
        exact List.perm_middle
      · rw [List.map_append, List.pairwise_append] at hsorted ⊢
        obtain ⟨hleft, hright, hcross⟩ := hsorted
        refine ⟨hleft, ?_, ?_⟩
        · rw [List.map_cons, List.pairwise_cons]
          refine ⟨fun b hb => ?_, hright⟩
          obtain ⟨sample, hsample, rfl⟩ := List.mem_map.mp hb
          exact hafter sample hsample
        · intro a ha b hb
          rw [List.map_cons, List.mem_cons] at hb
          rcases hb with rfl | hb
          · obtain ⟨sample, hsample, rfl⟩ := List.mem_map.mp ha
            exact hbefore sample hsample
          · exact hcross a ha b hb
    rw [List.map_take, hinsert, h.keys_eq, ← take_orderedInsert, ← sortedKeys_snoc]
  · intro sample hsample
    have hmem := List.mem_of_mem_take hsample
    rw [List.mem_append, List.mem_cons] at hmem
    rw [List.mem_append, List.mem_singleton]
    rcases hmem with hmem | rfl | hmem
    · exact .inl (h.subset (List.mem_append_left _ hmem))
    · exact .inr rfl
    · exact .inl (h.subset (List.mem_append_right _ hmem))

/-- What is kept of the items in another order has the same keys, sample by sample. -/
theorem Kept.aligned {items' samples' : List α} (h : Kept key limit items samples)
    (h' : Kept key limit items' samples') (hperm : items.Perm items') :
    List.Forall₂ (fun a b => key a = key b ∧ a ∈ items ∧ b ∈ items) samples samples' := by
  have hkeys : samples.map key = samples'.map key := by
    rw [h.keys_eq, h'.keys_eq, sortedKeys_perm hperm]
  have hsubset := h.subset
  have hsubset' : samples' ⊆ items := fun _ hmem => hperm.symm.subset (h'.subset hmem)
  clear h h'
  induction samples generalizing samples' with
  | nil =>
      rw [List.map_nil, eq_comm, List.map_eq_nil_iff] at hkeys
      rw [hkeys]
      exact .nil
  | cons sample samples ih =>
      cases samples' with
      | nil => simp at hkeys
      | cons sample' samples' =>
          rw [List.map_cons, List.map_cons, List.cons.injEq] at hkeys
          rw [List.cons_subset] at hsubset hsubset'
          exact .cons ⟨hkeys.1, hsubset.1, hsubset'.1⟩ (ih hkeys.2 hsubset.2 hsubset'.2)

/-- Where the key tells the items apart, what is kept does not depend on the order of arrival. -/
theorem Kept.unique {items' samples' : List α} (h : Kept key limit items samples)
    (h' : Kept key limit items' samples') (hperm : items.Perm items')
    (hinjective : ∀ a ∈ items, ∀ b ∈ items, key a = key b → a = b) : samples = samples' := by
  rw [← List.forall₂_eq_eq_eq]
  exact (h.aligned h' hperm).imp fun a b hab => hinjective a hab.2.1 b hab.2.2 hab.1

end ProofFrame.Lib.Sorted
