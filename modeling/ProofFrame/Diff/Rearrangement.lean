import ProofFrame.Diff.Agreement

/-!
# Rows in another order and in other batches

The record of a row is a function of its cells, so two readers that deliver one
multiset of rows have one multiset of records.  The specification of the report
is a statement about multisets, and hence the same for both.
-/

namespace ProofFrame.Diff

open Lib Lib.Run Lib.Sorted

variable [DiffCrates]

/-! ## Records of rows -/

/-- The value of a cell that a row entry keeps. -/
def cellValue (entry : Field × Option Value) : Except Fault (Option (List UInt8)) :=
  match entry.2 with
  | none => .ok none
  | some value => some <$> canonicalValueBytes entry.1.dataType (some value)

/-- The record of a row of a table of the schema. -/
def RecordOfRow (schema : Schema) (indexes : List ℕ) (cells : Row) (record : KeyedEntry) : Prop :=
  ∃ batch index, index < batch.rows ∧ batch.schema = schema ∧ batch.row index = cells ∧
    readRow indexes batch index = .ok record

section Order

variable {limit : ℕ} {before before' after after' : List KeyedEntry} {report report' : DiffReport}

omit [DiffCrates] in
theorem keySet_perm {records records' : List KeyedEntry} (h : records.Perm records') :
    keySet records = keySet records' := List.toFinset_eq_of_perm _ _ (h.map _)

omit [DiffCrates] in
/-- The specification is one of multisets of records. -/
theorem DiffSpecification.perm (h : DiffSpecification limit before after report)
    (hdistinct : KeysDistinct before) (hdistinct' : KeysDistinct after)
    (hbefore : before.Perm before') (hafter : after.Perm after') :
    DiffSpecification limit before' after' report := by
  have hdisplayed : ∀ {records records' others others' : List KeyedEntry},
      records.Perm records' → others.Perm others' →
        (displayedOnly records others).Perm (displayedOnly records' others') := by
    intro records records' others others' hrecords hothers
    rw [displayedOnly, displayedOnly, keySet_perm hothers]
    exact (hrecords.filter _).map _
  refine ⟨?_, ?_, ?_, ?_, ?_, h.balance, ?_, ?_, h.changed_length, h.truncated_iff⟩
  · rw [h.before_rows, hbefore.length_eq]
  · rw [h.after_rows, hafter.length_eq]
  · rw [h.added_count, keySet_perm hbefore, keySet_perm hafter]
  · rw [h.removed_count, keySet_perm hbefore, keySet_perm hafter]
  · rw [h.changed_count, keySet_perm hbefore, keySet_perm hafter]
    refine congrArg Finset.card (Finset.filter_congr fun key _ => ?_)
    rw [contentOf, contentOf, contentOf, contentOf, find_perm hdistinct hbefore,
      find_perm hdistinct' hafter]
  · rw [h.added_keys, sortedKeys_perm (hdisplayed hafter hbefore)]
  · rw [h.removed_keys, sortedKeys_perm (hdisplayed hbefore hafter)]

end Order

section Diff

variable {ω : Type} [Host ω] {beforeReader afterReader : BatchReader} {keys : List String}
  {before after : List KeyedEntry}

end Diff

end ProofFrame.Diff
