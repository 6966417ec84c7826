import Mathlib.Data.Finset.Sort
import Mathlib.Data.List.Sort
import Mathlib.Data.List.TakeWhile

/-!
# A collection grouped by a monotone key

The records of a collection carry a key.  `values` lists the keys that occur,
`firsts` the least record of each key, and `duplicates` pairs the least record of
a key with every other record of that key, all in ascending order.  None of the
three depends on the order in which the records are listed, so they say what a
sorted scan is for without saying how it proceeds.

The second half reads them off a sorted list: one record at a time from the
back, as a scan with one accumulator sees them, and one group at a time from the
front, as a scan that skips to the next key sees them.
-/

namespace ProofFrame.Lib.Sorted

section Values

variable {α κ : Type} [LinearOrder κ] (key : α → κ)

/-- The keys that occur, in ascending order. -/
def values (records : List α) : List κ := (records.map key).toFinset.sort (· ≤ ·)

variable {key} {records records' : List α}

@[simp] theorem values_nil : values key [] = [] := by simp [values]

theorem mem_values {value : κ} :
    value ∈ values key records ↔ ∃ record ∈ records, key record = value := by
  simp [values]

theorem key_mem_values {record : α} (h : record ∈ records) : key record ∈ values key records :=
  mem_values.mpr ⟨record, h, rfl⟩

theorem values_pairwise : (values key records).Pairwise (· < ·) :=
  (Finset.sortedLT_sort _).pairwise

theorem length_values : (values key records).length = (records.map key).toFinset.card :=
  Finset.length_sort _

/-- The strictly ascending list of the keys that occur is `values`. -/
theorem values_eq {keys : List κ} (hsorted : keys.Pairwise (· < ·))
    (hmem : ∀ value, value ∈ keys ↔ ∃ record ∈ records, key record = value) :
    values key records = keys := by
  have hperm : (values key records).Perm keys := by
    refine (List.perm_ext_iff_of_nodup ?_ ?_).mpr fun value => ?_
    · exact values_pairwise.imp fun h => ne_of_lt h
    · exact hsorted.imp fun h => ne_of_lt h
    · rw [mem_values, hmem]
  exact hperm.eq_of_pairwise' (values_pairwise.imp le_of_lt) (hsorted.imp le_of_lt)

theorem values_perm (h : records.Perm records') : values key records = values key records' :=
  values_eq values_pairwise fun value => by
    rw [mem_values]
    simp only [h.mem_iff]

end Values

variable {α κ : Type} [LinearOrder α] [LinearOrder κ] (key : α → κ)

/-- The records with the key `value`, in ascending order. -/
def group (value : κ) (records : List α) : List α :=
  (records.filter fun record => key record = value).insertionSort (· ≤ ·)

/-- The least record of each key. -/
def firsts (records : List α) : List α :=
  (values key records).filterMap fun value => (group key value records).head?

/-- The least member of a group, paired with each of the others. -/
def pairs : List α → List (α × α)
  | [] => []
  | first :: rest => rest.map fun duplicate => (first, duplicate)

/-- Every record that is not the least of its key, next to the one that is. -/
def duplicates (records : List α) : List (α × α) :=
  (values key records).flatMap fun value => pairs (group key value records)

variable {key} {records records' : List α}

@[simp] theorem firsts_nil : firsts key ([] : List α) = [] := by simp [firsts]

@[simp] theorem duplicates_nil : duplicates key ([] : List α) = [] := by simp [duplicates]

/-! ## Independence of the order of the records -/

theorem group_perm (h : records.Perm records') (value : κ) :
    group key value records = group key value records' := by
  unfold group
  refine List.Perm.eq_of_pairwise' (List.pairwise_insertionSort _ _)
    (List.pairwise_insertionSort _ _) ?_
  exact ((List.perm_insertionSort _ _).trans (h.filter _)).trans (List.perm_insertionSort _ _).symm

theorem firsts_perm (h : records.Perm records') : firsts key records = firsts key records' := by
  unfold firsts
  simp only [values_perm h, group_perm h]

theorem duplicates_perm (h : records.Perm records') :
    duplicates key records = duplicates key records' := by
  unfold duplicates
  simp only [values_perm h, group_perm h]

/-! ## Groups and their least members -/

theorem mem_group {value : κ} {record : α} :
    record ∈ group key value records ↔ record ∈ records ∧ key record = value := by
  simp [group]

/-- In a sorted list the records of one key need no sorting. -/
theorem group_of_sorted (h : records.Pairwise (· ≤ ·)) (value : κ) :
    group key value records = records.filter fun record => key record = value :=
  (h.filter _).insertionSort_eq

theorem head_group {record : α} (hmem : record ∈ records)
    (hleast : ∀ other ∈ records, key other = key record → record ≤ other) :
    (group key (key record) records).head? = some record := by
  have hgroup : record ∈ group key (key record) records := mem_group.mpr ⟨hmem, rfl⟩
  cases hg : group key (key record) records with
  | nil => simp [hg] at hgroup
  | cons first rest =>
      have hfirst : first ∈ group key (key record) records := hg ▸ List.mem_cons_self ..
      have hsorted : (first :: rest).Pairwise (· ≤ ·) := hg ▸ List.pairwise_insertionSort _ _
      have hle : first ≤ record := by
        rcases List.mem_cons.mp (hg ▸ hgroup) with rfl | hrest
        · exact le_rfl
        · exact List.rel_of_pairwise_cons hsorted hrest
      obtain ⟨hmem', hkey⟩ := mem_group.mp hfirst
      rw [List.head?_cons, le_antisymm hle (hleast first hmem' hkey)]

/-- `firsts` is the list of least members with strictly ascending keys. -/
theorem firsts_eq {least : List α} (hsorted : least.Pairwise (key · < key ·))
    (hleast : ∀ record ∈ least, record ∈ records ∧
      ∀ other ∈ records, key other = key record → record ≤ other)
    (hcover : ∀ record ∈ records, ∃ first ∈ least, key first = key record) :
    firsts key records = least := by
  have hvalues : values key records = least.map key := by
    refine values_eq (List.pairwise_map.mpr hsorted) fun value => ?_
    rw [List.mem_map]
    constructor
    · rintro ⟨first, hfirst, rfl⟩
      exact ⟨first, (hleast first hfirst).1, rfl⟩
    · rintro ⟨record, hrecord, rfl⟩
      exact hcover record hrecord
  unfold firsts
  rw [hvalues, List.filterMap_map]
  refine (List.filterMap_congr fun first hfirst => ?_).trans List.filterMap_some
  exact head_group (hleast first hfirst).1 (hleast first hfirst).2

/-- A key that occurs has a least record. -/
theorem exists_head_group {value : κ} (h : value ∈ values key records) :
    ∃ first rest, group key value records = first :: rest ∧ first ∈ records ∧ key first = value ∧
      ∀ other ∈ records, key other = value → first ≤ other := by
  obtain ⟨record, hrecord, hkey⟩ := mem_values.mp h
  have hmem : record ∈ group key value records := mem_group.mpr ⟨hrecord, hkey⟩
  cases hg : group key value records with
  | nil => simp [hg] at hmem
  | cons first rest =>
      have hsorted : (first :: rest).Pairwise (· ≤ ·) := hg ▸ List.pairwise_insertionSort _ _
      obtain ⟨hfirst, hvalue⟩ := mem_group.mp (hg ▸ List.mem_cons_self .. :
        first ∈ group key value records)
      refine ⟨first, rest, rfl, hfirst, hvalue, fun other hother hkey => ?_⟩
      have : other ∈ first :: rest := hg ▸ mem_group.mpr ⟨hother, hkey⟩
      rcases List.mem_cons.mp this with rfl | hrest
      · exact le_rfl
      · exact List.rel_of_pairwise_cons hsorted hrest

theorem map_key_firsts : (firsts key records).map key = values key records := by
  unfold firsts
  rw [List.map_filterMap]
  refine (List.filterMap_congr fun value hvalue => ?_).trans List.filterMap_some
  obtain ⟨first, rest, hg, -, hkey, -⟩ := exists_head_group hvalue
  simp [hg, hkey]

theorem exists_first {value : κ} (h : value ∈ values key records) :
    ∃ first ∈ firsts key records, key first = value := by
  rw [← map_key_firsts] at h
  exact List.mem_map.mp h

theorem mem_firsts {first : α} (h : first ∈ firsts key records) : first ∈ records ∧
    ∀ other ∈ records, key other = key first → first ≤ other := by
  obtain ⟨value, hvalue, hhead⟩ := List.mem_filterMap.mp h
  obtain ⟨least, rest, hg, hmem, rfl, hleast⟩ := exists_head_group hvalue
  rw [hg, List.head?_cons, Option.some.injEq] at hhead
  exact hhead ▸ ⟨hmem, hleast⟩

theorem firsts_pairwise : (firsts key records).Pairwise (key · < key ·) := by
  rw [← List.pairwise_map (f := key), map_key_firsts]
  exact values_pairwise

/-! ## The members that repeat a key -/

omit [LinearOrder α] in
theorem map_snd_pairs : ∀ group : List α, (pairs group).map Prod.snd = group.tail
  | [] => rfl
  | first :: rest => by
      rw [pairs, List.map_map, List.tail_cons]
      exact List.map_id _

/-- In an ascending list, all but the first have another before them. -/
theorem mem_tail_iff {x : α} {members : List α} (h : members.Pairwise (· < ·)) :
    x ∈ members.tail ↔ x ∈ members ∧ ∃ other ∈ members, other < x := by
  cases members with
  | nil => simp
  | cons first rest =>
      rw [List.pairwise_cons] at h
      constructor
      · intro hx
        exact ⟨List.mem_cons_of_mem _ hx, first, List.mem_cons_self .., h.1 x hx⟩
      · rintro ⟨hx, other, hother, hlt⟩
        rcases List.mem_cons.mp hx with rfl | hrest
        · rcases List.mem_cons.mp hother with rfl | hother
          · exact absurd hlt (lt_irrefl _)
          · exact absurd hlt (h.1 other hother).asymm
        · exact hrest

theorem group_pairwise (h : records.Nodup) (value : κ) :
    (group key value records).Pairwise (· < ·) := by
  have hnodup : (group key value records).Nodup :=
    (List.perm_insertionSort _ _).nodup_iff.mpr (h.filter _)
  have hsorted : (group key value records).Pairwise (· ≤ ·) := List.pairwise_insertionSort _ _
  exact (hsorted.and hnodup).imp fun hle => lt_of_le_of_ne hle.1 hle.2

/-- A record repeats its key if a smaller record has it. -/
theorem mem_map_snd_duplicates {x : α} (h : records.Nodup) :
    x ∈ (duplicates key records).map Prod.snd ↔
      x ∈ records ∧ ∃ other ∈ records, key other = key x ∧ other < x := by
  simp only [duplicates, List.map_flatMap, map_snd_pairs, List.mem_flatMap,
    mem_tail_iff (group_pairwise h _), mem_group]
  constructor
  · rintro ⟨value, -, ⟨hx, rfl⟩, other, ⟨hother, hkey⟩, hlt⟩
    exact ⟨hx, other, hother, hkey, hlt⟩
  · rintro ⟨hx, other, hother, hkey, hlt⟩
    exact ⟨key x, key_mem_values hx, ⟨hx, rfl⟩, other, ⟨hother, hkey⟩, hlt⟩

theorem nodup_map_snd_duplicates (h : records.Nodup) :
    ((duplicates key records).map Prod.snd).Nodup := by
  simp only [duplicates, List.map_flatMap, map_snd_pairs]
  rw [List.nodup_flatMap]
  refine ⟨fun value _ => ?_, ?_⟩
  · exact ((group_pairwise h value).imp fun hlt => hlt.ne).sublist (List.tail_sublist _)
  · refine values_pairwise.imp fun {value other} hlt => ?_
    intro record hrecord hother
    have hkey := (mem_group.mp (List.mem_of_mem_tail hrecord)).2
    have hkey' := (mem_group.mp (List.mem_of_mem_tail hother)).2
    exact hlt.ne (hkey.symm.trans hkey')
/-! ## A sorted list, one more record at a time -/

section Snoc

variable {done : List α} {x : α}

theorem le_of_sorted_snoc (h : (done ++ [x]).Pairwise (· ≤ ·)) {record : α}
    (hrecord : record ∈ done) : record ≤ x :=
  (List.pairwise_append.mp h).2.2 record hrecord x (List.mem_singleton_self x)

theorem firsts_snoc_of_mem (h : (done ++ [x]).Pairwise (· ≤ ·)) (hkey : key x ∈ values key done) :
    firsts key (done ++ [x]) = firsts key done := by
  refine firsts_eq firsts_pairwise (fun first hfirst => ?_) fun record hrecord => ?_
  · obtain ⟨hmem, hleast⟩ := mem_firsts hfirst
    refine ⟨List.mem_append_left _ hmem, fun other hother hsame => ?_⟩
    rcases List.mem_append.mp hother with hdone | hx
    · exact hleast other hdone hsame
    · exact List.mem_singleton.mp hx ▸ le_of_sorted_snoc h hmem
  · rw [← List.mem_map, map_key_firsts]
    rcases List.mem_append.mp hrecord with hdone | hx
    · exact key_mem_values hdone
    · exact List.mem_singleton.mp hx ▸ hkey

theorem firsts_snoc_of_not_mem (hmono : Monotone key) (h : (done ++ [x]).Pairwise (· ≤ ·))
    (hkey : key x ∉ values key done) :
    firsts key (done ++ [x]) = firsts key done ++ [x] := by
  refine firsts_eq ?_ (fun first hfirst => ?_) fun record hrecord => ?_
  · refine List.pairwise_append.mpr ⟨firsts_pairwise, List.pairwise_singleton _ _, ?_⟩
    intro first hfirst other hother
    obtain ⟨hmem, -⟩ := mem_firsts hfirst
    rw [List.mem_singleton.mp hother]
    exact lt_of_le_of_ne (hmono (le_of_sorted_snoc h hmem)) fun heq =>
      hkey (heq ▸ key_mem_values hmem)
  · rcases List.mem_append.mp hfirst with hfirst | hx
    · obtain ⟨hmem, hleast⟩ := mem_firsts hfirst
      refine ⟨List.mem_append_left _ hmem, fun other hother hsame => ?_⟩
      rcases List.mem_append.mp hother with hdone | hx
      · exact hleast other hdone hsame
      · exact List.mem_singleton.mp hx ▸ le_of_sorted_snoc h hmem
    · rw [List.mem_singleton.mp hx]
      refine ⟨List.mem_append_right _ (List.mem_singleton_self x), fun other hother hsame => ?_⟩
      rcases List.mem_append.mp hother with hdone | hx
      · exact absurd (hsame ▸ key_mem_values hdone) hkey
      · exact (List.mem_singleton.mp hx).ge
  · rcases List.mem_append.mp hrecord with hdone | hx
    · have hvalue : key record ∈ values key done := key_mem_values hdone
      obtain ⟨first, hfirst, hsame⟩ := exists_first hvalue
      exact ⟨first, List.mem_append_left _ hfirst, hsame⟩
    · exact ⟨x, List.mem_append_right _ (List.mem_singleton_self x),
        by rw [List.mem_singleton.mp hx]⟩

theorem group_snoc (h : (done ++ [x]).Pairwise (· ≤ ·)) (value : κ) :
    group key value (done ++ [x]) =
      group key value done ++ if key x = value then [x] else [] := by
  rw [group_of_sorted h, group_of_sorted (List.pairwise_append.mp h).1, List.filter_append]
  by_cases hkey : key x = value <;> simp [hkey]

/-- The last of the least members has the key of the last record. -/
theorem getLast_firsts (hmono : Monotone key) (h : (done ++ [x]).Pairwise (· ≤ ·)) :
    ∃ first, (firsts key (done ++ [x])).getLast? = some first ∧ key first = key x := by
  by_cases hkey : key x ∈ values key done
  · rw [firsts_snoc_of_mem h hkey]
    obtain ⟨first, hfirst, hsame⟩ := exists_first hkey
    obtain ⟨last, hlast⟩ : ∃ last, (firsts key done).getLast? = some last :=
      Option.isSome_iff_exists.mp (by simpa using List.ne_nil_of_mem hfirst)
    refine ⟨last, hlast, le_antisymm (hmono ?_) ?_⟩
    · exact le_of_sorted_snoc h (mem_firsts (List.mem_of_getLast? hlast)).1
    · rw [← hsame]
      obtain ⟨init, hinit⟩ := List.getLast?_eq_some_iff.mp hlast
      rcases List.mem_append.mp (hinit ▸ hfirst) with hmem | hmem
      · have hpairwise : (init ++ [last]).Pairwise (key · < key ·) := hinit ▸ firsts_pairwise
        exact ((List.pairwise_append.mp hpairwise).2.2 first hmem last
          (List.mem_singleton_self last)).le
      · rw [List.mem_singleton.mp hmem]
  · rw [firsts_snoc_of_not_mem hmono h hkey]
    exact ⟨x, by simp, rfl⟩

/-- The next record repeats a key exactly if it has the key of the group scanned last. -/
theorem key_mem_values_iff (hmono : Monotone key) (h : (done ++ [x]).Pairwise (· ≤ ·)) :
    key x ∈ values key done ↔
      ∃ first, (firsts key done).getLast? = some first ∧ key first = key x := by
  constructor
  · intro hkey
    obtain ⟨record, hrecord, hsame⟩ := mem_values.mp hkey
    obtain ⟨init, last, rfl⟩ :=
      (List.eq_nil_or_concat' done).resolve_left (List.ne_nil_of_mem hrecord)
    have hsorted : (init ++ [last]).Pairwise (· ≤ ·) := (List.pairwise_append.mp h).1
    obtain ⟨first, hfirst, hlast⟩ := getLast_firsts hmono hsorted
    refine ⟨first, hfirst, hlast.trans (le_antisymm (hmono ?_) ?_)⟩
    · exact le_of_sorted_snoc h (List.mem_append_right _ (List.mem_singleton_self last))
    · rw [← hsame]
      rcases List.mem_append.mp hrecord with hinit | hmem
      · exact hmono (le_of_sorted_snoc hsorted hinit)
      · rw [List.mem_singleton.mp hmem]
  · rintro ⟨first, hfirst, hsame⟩
    exact hsame ▸ key_mem_values (mem_firsts (List.mem_of_getLast? hfirst)).1

theorem duplicates_snoc_of_not_mem (hmono : Monotone key) (h : (done ++ [x]).Pairwise (· ≤ ·))
    (hkey : key x ∉ values key done) :
    duplicates key (done ++ [x]) = duplicates key done := by
  have hvalues : values key (done ++ [x]) = values key done ++ [key x] := by
    rw [← map_key_firsts, firsts_snoc_of_not_mem hmono h hkey, List.map_append, map_key_firsts]
    rfl
  have hnone : group key (key x) done = [] := by
    rw [List.eq_nil_iff_forall_not_mem]
    intro record hrecord
    obtain ⟨hmem, hsame⟩ := mem_group.mp hrecord
    exact hkey (hsame ▸ key_mem_values hmem)
  unfold duplicates
  rw [hvalues, List.flatMap_append, List.flatMap_singleton, group_snoc h, hnone]
  simp only [↓reduceIte, List.nil_append, pairs, List.map_nil, List.append_nil]
  refine List.flatMap_congr fun value hvalue => ?_
  have hne : key x ≠ value := fun heq => hkey (heq ▸ hvalue)
  rw [group_snoc h, if_neg hne, List.append_nil]

theorem duplicates_snoc_of_mem (h : (done ++ [x]).Pairwise (· ≤ ·)) {first : α}
    (hfirst : (firsts key done).getLast? = some first) (hkey : key first = key x) :
    duplicates key (done ++ [x]) = duplicates key done ++ [(first, x)] := by
  obtain ⟨hmem, hleast⟩ := mem_firsts (List.mem_of_getLast? hfirst)
  have hoccurs : key x ∈ values key done := hkey ▸ key_mem_values hmem
  have hvalues : values key (done ++ [x]) = values key done := by
    rw [← map_key_firsts, firsts_snoc_of_mem h hoccurs, map_key_firsts]
  obtain ⟨init, hinit⟩ := List.getLast?_eq_some_iff.mp hfirst
  have hlast : values key done = init.map key ++ [key x] := by
    rw [← map_key_firsts, hinit, List.map_append, ← hkey]
    rfl
  have hstrict : ∀ value ∈ init.map key, key x ≠ value := by
    intro value hvalue
    have := hlast ▸ (values_pairwise : (values key done).Pairwise (· < ·))
    exact ((List.pairwise_append.mp this).2.2 value hvalue _ (List.mem_singleton_self _)).ne'
  obtain ⟨rest, hgroup⟩ : ∃ rest, group key (key x) done = first :: rest := by
    rw [← hkey]
    exact List.head?_eq_some_iff.mp (head_group hmem hleast)
  unfold duplicates
  rw [hvalues, hlast, List.flatMap_append, List.flatMap_append, List.flatMap_singleton,
    List.flatMap_singleton, group_snoc h, hgroup, List.append_assoc]
  congr 1
  · refine List.flatMap_congr fun value hvalue => ?_
    rw [group_snoc h, if_neg (hstrict value hvalue), List.append_nil]
  · simp [pairs]

end Snoc

/-! ## The scan with one accumulator -/

/-- What a scan knows once it has gone through the sorted list `done`. -/
structure Scanned (key : α → κ) (limit : ℕ) (done : List α) (distinct duplicate : ℕ)
    (samples : List (α × α)) (previous : Option α) : Prop where
  distinct_eq : distinct = (values key done).length
  duplicate_eq : duplicate = (duplicates key done).length
  samples_eq : samples = (duplicates key done).take limit
  previous_eq : previous = (firsts key done).getLast?

theorem Scanned.nil (limit : ℕ) : Scanned key limit ([] : List α) 0 0 [] none := by
  constructor <;> simp

section Scan

variable {limit distinct duplicate : ℕ} {samples : List (α × α)} {previous : Option α}
  {done : List α} {x : α}

/-- The record repeats the key of the group being scanned. -/
theorem Scanned.repeat (hscan : Scanned key limit done distinct duplicate samples previous)
    (h : (done ++ [x]).Pairwise (· ≤ ·)) {first : α} (hprevious : previous = some first)
    (hkey : key first = key x) :
    Scanned key limit (done ++ [x]) distinct (duplicate + 1)
      (if samples.length < limit then samples ++ [(first, x)] else samples) previous := by
  have hfirst : (firsts key done).getLast? = some first := hscan.previous_eq ▸ hprevious
  have hoccurs : key x ∈ values key done :=
    hkey ▸ key_mem_values (mem_firsts (List.mem_of_getLast? hfirst)).1
  have hduplicates := duplicates_snoc_of_mem h hfirst hkey
  constructor
  · rw [hscan.distinct_eq, ← map_key_firsts, ← map_key_firsts, firsts_snoc_of_mem h hoccurs]
  · rw [hduplicates, List.length_append, hscan.duplicate_eq, List.length_singleton]
  · rw [hduplicates, hscan.samples_eq, List.length_take]
    split
    · rw [List.take_of_length_le (by omega), List.take_of_length_le (by simp; omega)]
    · rw [List.take_append_of_le_length (by omega)]
  · rw [hscan.previous_eq, firsts_snoc_of_mem h hoccurs]

/-- The record opens a new group. -/
theorem Scanned.next (hscan : Scanned key limit done distinct duplicate samples previous)
    (hmono : Monotone key) (h : (done ++ [x]).Pairwise (· ≤ ·))
    (hkey : ∀ first, previous = some first → key first ≠ key x) :
    Scanned key limit (done ++ [x]) (distinct + 1) duplicate samples (some x) := by
  have hnew : key x ∉ values key done := by
    rw [key_mem_values_iff hmono h]
    rintro ⟨first, hfirst, hsame⟩
    exact hkey first (hscan.previous_eq ▸ hfirst) hsame
  have hduplicates := duplicates_snoc_of_not_mem hmono h hnew
  have hfirsts := firsts_snoc_of_not_mem hmono h hnew
  constructor
  · rw [hscan.distinct_eq, ← map_key_firsts, ← map_key_firsts, hfirsts]
    simp
  · rw [hduplicates, hscan.duplicate_eq]
  · rw [hduplicates, hscan.samples_eq]
  · rw [hfirsts, List.getLast?_concat]

end Scan

/-- Every record is the least of its key or a duplicate. -/
theorem length_duplicates (hmono : Monotone key) (records : List α) :
    (duplicates key records).length + (values key records).length = records.length := by
  have hperm := List.perm_insertionSort (· ≤ ·) records
  rw [← duplicates_perm hperm, ← values_perm hperm, ← hperm.length_eq]
  have hsorted := List.pairwise_insertionSort (· ≤ ·) records
  revert hsorted
  generalize records.insertionSort (· ≤ ·) = sorted
  induction sorted using List.reverseRecOn with
  | nil => simp
  | append_singleton done x ih =>
      intro h
      have ih := ih (List.pairwise_append.mp h).1
      by_cases hkey : key x ∈ values key done
      · obtain ⟨first, hfirst, hsame⟩ := (key_mem_values_iff hmono h).mp hkey
        rw [duplicates_snoc_of_mem h hfirst hsame, ← map_key_firsts, firsts_snoc_of_mem h hkey,
          map_key_firsts]
        simp
        omega
      · rw [duplicates_snoc_of_not_mem hmono h hkey, ← map_key_firsts,
          firsts_snoc_of_not_mem hmono h hkey, List.map_append, map_key_firsts]
        simp
        omega

/-! ## A sorted list, one group at a time -/

theorem lt_key_of_mem_dropWhile (hmono : Monotone key) {x : α} {rest : List α}
    (h : rest.Pairwise (· ≤ ·)) (hle : ∀ record ∈ rest, x ≤ record) :
    ∀ record ∈ rest.dropWhile (fun record => key record = key x), key x < key record := by
  induction rest with
  | nil => simp
  | cons y rest ih =>
      obtain ⟨hy, hrest⟩ := List.pairwise_cons.mp h
      by_cases hkey : key y = key x
      · rw [List.dropWhile_cons_of_pos (by simpa using hkey)]
        exact ih hrest fun record hrecord => hle record (List.mem_cons_of_mem _ hrecord)
      · rw [List.dropWhile_cons_of_neg (by simpa using hkey)]
        have hlt : key x < key y :=
          lt_of_le_of_ne (hmono (hle y (List.mem_cons_self ..))) (Ne.symm hkey)
        intro record hrecord
        rcases List.mem_cons.mp hrecord with rfl | hrecord
        · exact hlt
        · exact hlt.trans_le (hmono (hy record hrecord))

/-- The first record of a sorted list is the least of its key, and the other groups are those
of the list from the next key on. -/
theorem firsts_cons (hmono : Monotone key) {x : α} {rest : List α}
    (h : (x :: rest).Pairwise (· ≤ ·)) :
    firsts key (x :: rest) =
      x :: firsts key (rest.dropWhile fun record => key record = key x) := by
  set dropped := rest.dropWhile fun record => key record = key x with hdropped
  have hrest : ∀ record ∈ rest, x ≤ record := fun record => List.rel_of_pairwise_cons h
  have hsub : ∀ record ∈ dropped, record ∈ rest := (List.dropWhile_suffix _).subset
  have hkept : ∀ record ∈ rest, key record ≠ key x → record ∈ dropped := by
    intro record hrecord hne
    rw [← List.takeWhile_append_dropWhile (p := fun record => key record = key x) (l := rest)]
      at hrecord
    refine (List.mem_append.mp hrecord).resolve_left fun htaken => hne ?_
    simpa using List.mem_takeWhile_imp htaken
  have hafter : ∀ record ∈ dropped, key x < key record :=
    lt_key_of_mem_dropWhile hmono (List.pairwise_cons.mp h).2 hrest
  refine firsts_eq ?_ (fun first hfirst => ?_) fun record hrecord => ?_
  · exact List.pairwise_cons.mpr
      ⟨fun first hfirst => hafter first (mem_firsts hfirst).1, firsts_pairwise⟩
  · rcases List.mem_cons.mp hfirst with rfl | hfirst
    · refine ⟨List.mem_cons_self .., fun other hother _ => ?_⟩
      rcases List.mem_cons.mp hother with rfl | hother
      · exact le_rfl
      · exact hrest other hother
    · obtain ⟨hmem, hleast⟩ := mem_firsts hfirst
      refine ⟨List.mem_cons_of_mem _ (hsub first hmem), fun other hother hsame => ?_⟩
      have hne : key other ≠ key x := hsame ▸ (hafter first hmem).ne'
      rcases List.mem_cons.mp hother with rfl | hother
      · exact absurd rfl hne
      · exact hleast other (hkept other hother hne) hsame
  · by_cases hkey : key record = key x
    · exact ⟨x, List.mem_cons_self .., hkey.symm⟩
    · have hmem : record ∈ rest := by
        refine (List.mem_cons.mp hrecord).resolve_left fun heq => hkey ?_
        rw [heq]
      have hvalue : key record ∈ values key dropped := key_mem_values (hkept record hmem hkey)
      obtain ⟨first, hfirst, hsame⟩ := exists_first hvalue
      exact ⟨first, List.mem_cons_of_mem _ hfirst, hsame⟩

/-! ## The intersection -/

section Shared

variable {κ : Type} [LinearOrder κ]

/-- The keys of `left` that occur in `right`. -/
def shared (left right : List κ) : List κ := left.filter (· ∈ right)

variable {x y : κ} {left right : List κ}

theorem shared_nil : shared left [] = [] := by simp [shared]

/-- The left key is below every remaining right key. -/
theorem shared_of_lt (h : x < y) (hright : (y :: right).Pairwise (· < ·)) :
    shared (x :: left) (y :: right) = shared left (y :: right) := by
  have hnot : x ∉ y :: right := by
    rw [List.mem_cons]
    rintro (heq | hmem)
    · exact h.ne heq
    · exact (h.trans (List.rel_of_pairwise_cons hright hmem)).false
  exact List.filter_cons_of_neg (by simpa using hnot)

/-- The right key is below every remaining left key. -/
theorem shared_of_gt (h : ∀ key ∈ left, y < key) : shared left (y :: right) = shared left right := by
  refine List.filter_congr fun key hkey => ?_
  simp [(h key hkey).ne']

/-- The keys meet. -/
theorem shared_of_eq (hleft : (x :: left).Pairwise (· < ·)) :
    shared (x :: left) (x :: right) = x :: shared left right := by
  have htake : shared (x :: left) (x :: right) = x :: shared left (x :: right) :=
    List.filter_cons_of_pos (by simp)
  rw [htake, shared_of_gt fun key hkey => List.rel_of_pairwise_cons hleft hkey]

/-- Of two sets in ascending order, the intersection in ascending order. -/
theorem shared_sort (s t : Finset κ) :
    shared (s.sort (· ≤ ·)) (t.sort (· ≤ ·)) = (s ∩ t).sort (· ≤ ·) := by
  have hsorted : (shared (s.sort (· ≤ ·)) (t.sort (· ≤ ·))).Pairwise (· < ·) :=
    (Finset.sortedLT_sort s).pairwise.sublist List.filter_sublist
  have hperm : (shared (s.sort (· ≤ ·)) (t.sort (· ≤ ·))).Perm ((s ∩ t).sort (· ≤ ·)) := by
    refine (List.perm_ext_iff_of_nodup ?_ (Finset.sort_nodup _ _)).mpr fun key => ?_
    · exact hsorted.imp fun h => ne_of_lt h
    · simp [shared]
  exact hperm.eq_of_pairwise' (hsorted.imp le_of_lt)
    ((Finset.sortedLT_sort (s ∩ t)).pairwise.imp le_of_lt)

end Shared

end ProofFrame.Lib.Sorted
