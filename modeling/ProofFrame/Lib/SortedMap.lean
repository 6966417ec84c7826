import Mathlib.Algebra.GroupWithZero.Nat
import Mathlib.Data.List.Induction
import Mathlib.Order.Lattice
import Mathlib.Data.List.Forall2
import Mathlib.Data.Option.Basic

/-!
# Maps iterated in key order

A finite map as the list of its entries in ascending key order.
-/

namespace ProofFrame.Lib.SortedMap

variable {κ ν : Type} [LinearOrder κ]

/-- Change the value at a key, or insert one. -/
def upsert (key : κ) (change : Option ν → ν) : List (κ × ν) → List (κ × ν)
  | [] => [(key, change none)]
  | (other, value) :: rest =>
      if key < other then (key, change none) :: (other, value) :: rest
      else if key = other then (other, change (some value)) :: rest
      else (other, value) :: upsert key change rest

/-- The value at a key. -/
def find (key : κ) (entries : List (κ × ν)) : Option ν :=
  (entries.find? (·.1 = key)).map Prod.snd

/-- Insert, replacing the value there. -/
def insert (key : κ) (value : ν) (entries : List (κ × ν)) : List (κ × ν) :=
  upsert key (fun _ => value) entries

/-- Everything but the entry at a key. -/
def remove (key : κ) (entries : List (κ × ν)) : List (κ × ν) :=
  entries.filter (·.1 ≠ key)

/-- The keys, in order. -/
def keys (entries : List (κ × ν)) : List κ := entries.map Prod.fst

variable {key other : κ} {value value' : ν} {entries : List (κ × ν)}

@[simp] theorem find_nil : find key ([] : List (κ × ν)) = none := rfl

theorem upsert_ne_nil (change : Option ν → ν) : upsert key change entries ≠ [] := by
  cases entries with
  | nil => simp [upsert]
  | cons entry entries =>
      unfold upsert
      split
      · simp
      · split <;> simp

/-- What holds of the entries and of the changed one holds of the entries after. -/
theorem forall_mem_upsert {P : κ × ν → Prop} {change : Option ν → ν} (hnone : P (key, change none))
    (hsome : ∀ value, P (key, value) → P (key, change (some value)))
    (h : ∀ entry ∈ entries, P entry) : ∀ entry ∈ upsert key change entries, P entry := by
  induction entries with
  | nil => simpa [upsert] using hnone
  | cons head rest ih =>
      obtain ⟨other, value⟩ := head
      rw [List.forall_mem_cons] at h
      unfold upsert
      split
      · rw [List.forall_mem_cons, List.forall_mem_cons]
        exact ⟨hnone, h⟩
      · split
        · rename_i heq
          subst heq
          rw [List.forall_mem_cons]
          exact ⟨hsome value h.1, h.2⟩
        · rw [List.forall_mem_cons]
          exact ⟨h.1, ih h.2⟩

/-- A map that entries were put into one by one is empty only if there were none. -/
theorem eq_nil_of_foldl_upsert {ι : Type} {key : ι → κ} {change : ι → Option ν → ν}
    {items : List ι} :
    ∀ {entries : List (κ × ν)},
      items.foldl (fun entries item => upsert (key item) (change item) entries) entries = [] →
      items = [] ∧ entries = [] := by
  induction items with
  | nil => exact fun h => ⟨rfl, h⟩
  | cons item items ih =>
      intro entries h
      exact absurd (ih h).2 (upsert_ne_nil _)

theorem find_cons : find key ((other, value) :: entries) =
    if other = key then some value else find key entries := by
  unfold find
  by_cases h : other = key <;> simp [h]

theorem find_append {more : List (κ × ν)} :
    find key (entries ++ more) = (find key entries).or (find key more) := by
  rw [find, find, find, List.find?_append, Option.map_or]

@[simp] theorem find_insert_self : find key (insert key value entries) = some value := by
  induction entries with
  | nil => simp [insert, upsert, find_cons]
  | cons entry entries ih =>
      obtain ⟨other, value'⟩ := entry
      unfold insert upsert
      split
      · rw [find_cons, if_pos rfl]
      · split
        · rename_i heq
          rw [find_cons, if_pos heq.symm]
        · rename_i hne
          rw [find_cons, if_neg fun heq => hne heq.symm]
          exact ih

theorem find_insert_of_ne (h : other ≠ key) :
    find other (insert key value entries) = find other entries := by
  induction entries with
  | nil => simp [insert, upsert, find_cons, h.symm]
  | cons entry entries ih =>
      obtain ⟨third, value'⟩ := entry
      unfold insert upsert
      split
      · rw [find_cons, if_neg h.symm]
      · split
        · rename_i heq
          rw [find_cons, find_cons, if_neg fun heq' => h (heq'.symm.trans heq.symm),
            if_neg fun heq' => h (heq'.symm.trans heq.symm)]
        · rw [find_cons, find_cons]
          split
          · rfl
          · exact ih

theorem find_remove_of_ne (h : other ≠ key) : find other (remove key entries) = find other entries := by
  induction entries with
  | nil => rfl
  | cons entry entries ih =>
      obtain ⟨third, value⟩ := entry
      unfold remove at ih ⊢
      by_cases hthird : third = key
      · rw [List.filter_cons_of_neg (by simpa using hthird), ih, find_cons, if_neg]
        rintro rfl
        exact h hthird
      · rw [List.filter_cons_of_pos (by simpa using hthird), find_cons, find_cons, ih]

@[simp] theorem find_remove_self : find key (remove key entries) = none := by
  unfold find remove
  rw [Option.map_eq_none_iff, List.find?_eq_none]
  intro entry hentry
  simpa using (List.mem_filter.mp hentry).2

theorem find_remove_of_none (h : find other entries = none) :
    find other (remove key entries) = none := by
  by_cases heq : other = key
  · rw [heq, find_remove_self]
  · rw [find_remove_of_ne heq, h]

theorem mem_keys_iff : key ∈ keys entries ↔ (find key entries).isSome := by
  induction entries with
  | nil => simp [keys]
  | cons entry entries ih =>
      obtain ⟨third, value⟩ := entry
      rw [find_cons]
      by_cases h : third = key
      · simp [keys, h]
      · simp only [keys, List.map_cons, List.mem_cons] at ih ⊢
        rw [if_neg h, ← ih]
        exact ⟨fun hmem => hmem.resolve_left fun heq => h heq.symm, .inr⟩

theorem mem_of_find_eq_some (h : find key entries = some value) : (key, value) ∈ entries := by
  obtain ⟨⟨other, _⟩, hfind, rfl⟩ := Option.map_eq_some_iff.mp h
  have hkey : other = key := of_decide_eq_true (List.find?_some (p := fun entry : κ × ν =>
    decide (entry.1 = key)) hfind)
  rw [← hkey]
  exact List.mem_of_find?_eq_some hfind

theorem mem_keys_insert {third : κ} :
    third ∈ keys (insert key value entries) ↔ third = key ∨ third ∈ keys entries := by
  rw [mem_keys_iff, mem_keys_iff]
  by_cases heq : third = key
  · subst heq
    simp
  · rw [find_insert_of_ne heq]
    simp [heq]

/-! ## Ascending keys -/

/-- The keys ascend, so there is at most one entry at each. -/
def Ascending (entries : List (κ × ν)) : Prop := (keys entries).Pairwise (· < ·)

theorem Ascending.nil : Ascending ([] : List (κ × ν)) := List.Pairwise.nil

theorem Ascending.nodup (h : Ascending entries) : (keys entries).Nodup :=
  List.Pairwise.imp ne_of_lt h

theorem Ascending.insert (h : Ascending entries) : Ascending (SortedMap.insert key value entries) := by
  induction entries with
  | nil => exact List.pairwise_singleton _ _
  | cons entry entries ih =>
      obtain ⟨third, value'⟩ := entry
      obtain ⟨hhead, htail⟩ := List.pairwise_cons.mp h
      unfold SortedMap.insert upsert
      split
      · rename_i hlt
        refine List.pairwise_cons.mpr ⟨fun later hlater => ?_, h⟩
        rcases List.mem_cons.mp hlater with rfl | hmem
        · exact hlt
        · exact hlt.trans (hhead later hmem)
      · split
        · exact h
        · rename_i hnot hne
          refine List.pairwise_cons.mpr ⟨fun later hlater => ?_, ih htail⟩
          rcases mem_keys_insert.mp hlater with rfl | hmem
          · exact lt_of_le_of_ne (not_lt.mp hnot) (Ne.symm hne)
          · exact hhead later hmem

/-- What is changed in an ascending map is what is found in it. -/
theorem Ascending.upsert_eq (h : Ascending entries) (change : Option ν → ν) :
    upsert key change entries = SortedMap.insert key (change (find key entries)) entries := by
  induction entries with
  | nil => rfl
  | cons entry entries ih =>
      obtain ⟨third, value'⟩ := entry
      obtain ⟨hhead, htail⟩ := List.pairwise_cons.mp h
      unfold SortedMap.insert upsert
      by_cases hlt : key < third
      · have hnone : find key ((third, value') :: entries) = none := by
          rw [← Option.not_isSome_iff_eq_none, ← mem_keys_iff]
          intro hmem
          rcases List.mem_cons.mp hmem with rfl | hmem
          · exact lt_irrefl _ hlt
          · exact lt_asymm hlt (hhead key hmem)
        rw [if_pos hlt, if_pos hlt, hnone]
      · rw [if_neg hlt, if_neg hlt, find_cons]
        by_cases heq : key = third
        · rw [if_pos heq, if_pos heq, if_pos heq.symm]
        · rw [if_neg heq, if_neg heq, if_neg (Ne.symm heq), ih htail]
          rfl

theorem mem_iff_find (h : (keys entries).Nodup) :
    (key, value) ∈ entries ↔ find key entries = some value := by
  induction entries with
  | nil => simp
  | cons entry entries ih =>
      obtain ⟨third, value'⟩ := entry
      obtain ⟨hhead, htail⟩ := List.nodup_cons.mp h
      rw [find_cons, List.mem_cons, ih htail]
      by_cases heq : third = key
      · subst heq
        have hnone : find third entries = none := by
          rw [← Option.not_isSome_iff_eq_none, ← mem_keys_iff]
          exact hhead
        simp [hnone, eq_comm]
      · rw [if_neg heq]
        refine or_iff_right fun hentry => heq ?_
        exact (Prod.ext_iff.mp hentry).1.symm

theorem Ascending.mem_insert_iff (h : Ascending entries) :
    (other, value') ∈ SortedMap.insert key value entries ↔
      (other = key ∧ value' = value) ∨ (other ≠ key ∧ (other, value') ∈ entries) := by
  rw [mem_iff_find h.insert.nodup, mem_iff_find h.nodup]
  by_cases heq : other = key
  · subst heq
    simp [eq_comm]
  · rw [find_insert_of_ne heq]
    simp [heq]

theorem insert_of_forall_lt (h : ∀ third ∈ keys entries, third < key) :
    insert key value entries = entries ++ [(key, value)] := by
  induction entries with
  | nil => rfl
  | cons entry entries ih =>
      obtain ⟨third, value'⟩ := entry
      have hlt : third < key := h third (List.mem_cons_self ..)
      unfold insert upsert
      rw [if_neg (not_lt.mpr hlt.le), if_neg (ne_of_gt hlt)]
      exact congrArg _ (ih fun later hlater => h later (List.mem_cons_of_mem _ hlater))

theorem eq_or_mem_of_mem_insert {entry : κ × ν} (h : entry ∈ insert key value entries) :
    entry = (key, value) ∨ entry ∈ entries := by
  induction entries with
  | nil => exact .inl (List.mem_singleton.mp h)
  | cons head entries ih =>
      obtain ⟨third, value'⟩ := head
      unfold insert upsert at h
      split at h
      · rcases List.mem_cons.mp h with rfl | hmem
        · exact .inl rfl
        · exact .inr hmem
      · split at h
        · rename_i heq
          rcases List.mem_cons.mp h with rfl | hmem
          · exact .inl (by rw [heq])
          · exact .inr (List.mem_cons_of_mem _ hmem)
        · rcases List.mem_cons.mp h with rfl | hmem
          · exact .inr (List.mem_cons_self ..)
          · exact (ih hmem).imp_right (List.mem_cons_of_mem _)

/-! ## Maps with the same keys -/

variable {μ : Type} {R : μ → ν → Prop}

/-- The maps have the same keys, with related values. -/
def Related (R : μ → ν → Prop) : List (κ × μ) → List (κ × ν) → Prop :=
  List.Forall₂ fun model entry => model.1 = entry.1 ∧ R model.2 entry.2

variable {models : List (κ × μ)}

theorem Related.find (h : Related R models entries) (key : κ) :
    Option.Rel R (SortedMap.find key models) (SortedMap.find key entries) := by
  induction h with
  | nil => exact .none
  | @cons model entry _ _ hhead _ ih =>
      obtain ⟨modelKey, modelValue⟩ := model
      obtain ⟨entryKey, entryValue⟩ := entry
      obtain ⟨rfl, hvalue⟩ := hhead
      rw [find_cons, find_cons]
      split
      · exact .some hvalue
      · exact ih

theorem Related.isSome_find (h : Related R models entries) (key : κ) :
    (SortedMap.find key entries).isSome = (SortedMap.find key models).isSome := by
  have hrel := h.find key
  generalize SortedMap.find key entries = found at hrel ⊢
  generalize SortedMap.find key models = model at hrel ⊢
  cases hrel with
  | none => rfl
  | some _ => rfl

theorem Related.insert (h : Related R models entries) {model : μ} (hvalue : R model value) :
    Related R (SortedMap.insert key model models) (SortedMap.insert key value entries) := by
  induction h with
  | nil => exact .cons ⟨rfl, hvalue⟩ .nil
  | @cons head entry _ _ hhead htail ih =>
      obtain ⟨headKey, headValue⟩ := head
      obtain ⟨entryKey, entryValue⟩ := entry
      obtain ⟨rfl, hentry⟩ := hhead
      unfold SortedMap.insert upsert
      dsimp only
      split
      · exact .cons ⟨rfl, hvalue⟩ (.cons ⟨rfl, hentry⟩ htail)
      · split
        · exact .cons ⟨rfl, hvalue⟩ htail
        · exact .cons ⟨rfl, hentry⟩ ih

/-! ## Tallies -/

/-- How often each key occurs among the items. -/
def tally {ι : Type} (key : ι → κ) (items : List ι) : List (κ × ℕ) :=
  items.foldl (fun counts item => upsert (key item) (fun count => count.getD 0 + 1) counts) []

section Tally

variable {ι : Type} {label : ι → κ} {items : List ι}

theorem tally_append_singleton (item : ι) : tally label (items ++ [item]) =
    upsert (label item) (fun count => count.getD 0 + 1) (tally label items) := by
  rw [tally, List.foldl_append]
  rfl

theorem ascending_tally (label : ι → κ) (items : List ι) : Ascending (tally label items) := by
  induction items using List.reverseRecOn with
  | nil => exact .nil
  | append_singleton items item ih =>
      rw [tally_append_singleton, ih.upsert_eq]
      exact ih.insert

/-- A key is counted exactly if it occurs, and as often as it occurs. -/
theorem find_tally (label : ι → κ) (items : List ι) (key : κ) : find key (tally label items) =
    if items.countP (fun item => label item = key) = 0 then none
    else some (items.countP fun item => label item = key) := by
  induction items using List.reverseRecOn with
  | nil => rfl
  | append_singleton items item ih =>
      rw [tally_append_singleton, (ascending_tally label items).upsert_eq, List.countP_append,
        List.countP_singleton]
      by_cases heq : label item = key
      · rw [heq, find_insert_self, ih]
        split <;> simp_all
      · rw [find_insert_of_ne (Ne.symm heq), ih]
        simp [heq]

theorem sum_upsert_succ (entries : List (κ × ℕ)) :
    ((upsert key (fun count => count.getD 0 + 1) entries).map Prod.snd).sum =
      (entries.map Prod.snd).sum + 1 := by
  induction entries with
  | nil => rfl
  | cons entry entries ih =>
      obtain ⟨third, count⟩ := entry
      unfold upsert
      split
      · rw [List.map_cons, List.sum_cons, Nat.add_comm]
        rfl
      · split
        · rw [List.map_cons, List.map_cons, List.sum_cons, List.sum_cons, Option.getD_some]
          omega
        · rw [List.map_cons, List.map_cons, List.sum_cons, List.sum_cons, ih, Nat.add_assoc]

theorem sum_tally (label : ι → κ) (items : List ι) :
    ((tally label items).map Prod.snd).sum = items.length := by
  induction items using List.reverseRecOn with
  | nil => rfl
  | append_singleton items item ih =>
      rw [tally_append_singleton, sum_upsert_succ, ih, List.length_append, List.length_singleton]

end Tally

end ProofFrame.Lib.SortedMap
