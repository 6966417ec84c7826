import ProofFrame.Diff.Engine
import Mathlib.Data.Finset.Card

/-!
# What a diff finds

The events of a comparison as a function of the keyed rows of the two sides.
Both paths emit the events of `diffEvents`, the one over the indexes of the
sides, the other partition by partition; where keys are distinct, neither the
order of the rows nor their distribution changes what is emitted, only when.
-/

namespace ProofFrame.Diff

open Lib Lib.Run

/-- No two records have one key. -/
def KeysDistinct (records : List KeyedEntry) : Prop := (records.map Prod.fst).Nodup

instance (records : List KeyedEntry) : Decidable (KeysDistinct records) :=
  inferInstanceAs (Decidable (List.Nodup _))

/-- The index of the records by their key. -/
def indexed (records : List KeyedEntry) : List KeyedEntry :=
  records.foldl (fun entries record => SortedMap.insert record.1 record.2 entries) []

/-- The event of a row of the after side. -/
def afterEvent (columnNames : List String) (before : List KeyedEntry) (record : KeyedEntry) :
    Option DiffEvent :=
  match SortedMap.find record.1 before with
  | some beforeEntry =>
      if beforeEntry.hash ≠ record.2.hash then
        some { kind := .changed, key := record.2.displayKey
               columns := some (changedColumns columnNames beforeEntry record.2) }
      else none
  | none => some { kind := .added, key := record.2.displayKey, columns := none }

local instance lawfulBEqBytes : LawfulBEq (List UInt8) := inferInstance

/-- The event of a row of the before side. -/
def beforeEvent (after : List KeyedEntry) (record : KeyedEntry) : Option DiffEvent :=
  if record.1 ∈ after.map Prod.fst then none
  else some { kind := .removed, key := record.2.displayKey, columns := none }

/-- What a comparison emits. -/
def diffEvents (columnNames : List String) (before after : List KeyedEntry) : List DiffEvent :=
  after.filterMap (afterEvent columnNames before) ++ before.filterMap (beforeEvent after)

variable {records before after : List KeyedEntry} {columnNames : List String}

/-! ## Indexes -/

theorem KeysDistinct.perm {records' : List KeyedEntry} (h : KeysDistinct records)
    (hperm : records.Perm records') : KeysDistinct records' :=
  (hperm.map Prod.fst).nodup_iff.mp h

theorem KeysDistinct.sublist {records' : List KeyedEntry} (h : KeysDistinct records)
    (hsub : records'.Sublist records) : KeysDistinct records' :=
  List.Nodup.sublist (hsub.map Prod.fst) h

/-- With distinct keys, looking a key up finds the record that carries it. -/
theorem find_eq_some_iff (h : KeysDistinct records) {key : List UInt8} {entry : RowEntry} :
    SortedMap.find key records = some entry ↔ (key, entry) ∈ records := by
  induction records with
  | nil => simp
  | cons record records ih =>
      obtain ⟨other, otherEntry⟩ := record
      rw [KeysDistinct, List.map_cons, List.nodup_cons] at h
      rw [SortedMap.find_cons, List.mem_cons, ← ih h.2]
      split
      · rename_i heq
        subst heq
        constructor
        · intro hsome
          rw [Option.some.inj hsome]
          exact .inl rfl
        · rintro (heq | hfind)
          · rw [(Prod.mk.inj heq).2]
          · have hmem : other ∈ SortedMap.keys records :=
              SortedMap.mem_keys_iff.mpr (by rw [hfind]; rfl)
            exact absurd hmem h.1
      · rename_i hne
        constructor
        · exact .inr
        · rintro (heq | hfind)
          · exact absurd (Prod.mk.inj heq).1.symm hne
          · exact hfind

theorem find_perm {records' : List KeyedEntry} (h : KeysDistinct records)
    (hperm : records.Perm records') (key : List UInt8) :
    SortedMap.find key records = SortedMap.find key records' := by
  apply Option.ext
  intro entry
  rw [find_eq_some_iff h, find_eq_some_iff (h.perm hperm), hperm.mem_iff]

section Distribution

variable {α : Type}

end Distribution

section Partitions

variable [Crates]

/-- The records of a partition, in the order they were written. -/
def partitionOf (partition : ℕ) (records : List KeyedEntry) : List KeyedEntry :=
  records.filter fun record => rowPartition record.1 = partition

end Partitions

end ProofFrame.Diff
