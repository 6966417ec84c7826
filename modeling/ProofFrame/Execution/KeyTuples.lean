import ProofFrame.Encoding.Keys
import ProofFrame.Execution.ReferencesMeaning
import ProofFrame.Lib.Steps

/-!
# Key tuples

The keys of a dataset as tuples of values, and what the reference rules count in
these terms.  A key is complete when none of its columns is null; the state of a
rule holds the bytes of the complete keys, which determine the tuples.
-/

namespace ProofFrame

open Lib Lib.Sorted Distinct

/-! ## The key of a row -/

/-- The part a cell contributes to a key; a null contributes none. -/
def keyPart (array : ArrowArray) (row : ℕ) : Option KeyPart :=
  match array.cells[row]? with
  | some (some (.scalar scalar)) => some { dataType := array.dataType.identity, scalar }
  | _ => none

/-- The key of a row, if it is complete. -/
def keyTuple (batch : RecordBatch) (indexes : List ℕ) (row : ℕ) : Option (List KeyPart) :=
  indexes.mapM fun index => batch.columns[index]?.bind (keyPart · row)

theorem identity_identity (dataType : DataType) : dataType.identity.identity = dataType.identity := by
  cases dataType <;> rfl

theorem keyPart_typed {array : ArrowArray} {row : ℕ} {part : KeyPart}
    (h : keyPart array row = some part) : part.Typed := by
  unfold keyPart at h
  split at h
  · rename_i scalar hcell
    cases h
    have hpresent := (array.typed _ (List.mem_of_getElem? hcell)).present _ rfl
    have hadmits : array.dataType.AdmitsScalar scalar := by
      change array.dataType.Admits (.scalar scalar) at hpresent
      revert hpresent
      cases array.dataType <;> exact id
    exact ⟨identity_identity _, (admitsScalar_identity _ _).mpr hadmits⟩
  · cases h

theorem keyTuple_cons {batch : RecordBatch} {index : ℕ} {indexes : List ℕ} {row : ℕ} :
    keyTuple batch (index :: indexes) row =
      (batch.columns[index]?.bind (keyPart · row)).bind fun part =>
        (keyTuple batch indexes row).map (part :: ·) := by
  unfold keyTuple
  rw [List.mapM_cons]
  generalize indexes.mapM (fun index => batch.columns[index]?.bind (keyPart · row)) = rest
  cases batch.columns[index]?.bind (keyPart · row) with
  | none => rfl
  | some part => cases rest <;> rfl

theorem keyTuple_typed {batch : RecordBatch} {indexes : List ℕ} {row : ℕ} :
    ∀ {key : List KeyPart}, keyTuple batch indexes row = some key → ∀ part ∈ key, part.Typed := by
  induction indexes with
  | nil =>
      intro key h
      cases h
      simp
  | cons index indexes ih =>
      intro key h
      rw [keyTuple_cons, Option.bind_eq_some_iff] at h
      obtain ⟨part, hpart, h⟩ := h
      obtain ⟨rest, hrest, rfl⟩ := Option.map_eq_some_iff.mp h
      obtain ⟨array, -, harray⟩ := Option.bind_eq_some_iff.mp hpart
      rintro other hother
      rcases List.mem_cons.mp hother with rfl | hother
      · exact keyPart_typed harray
      · exact ih hrest other hother

theorem column_eq_ok {batch : RecordBatch} {index : ℕ} {array : ArrowArray} :
    batch.column index = .ok array ↔ batch.columns[index]? = some array := by
  unfold RecordBatch.column
  cases batch.columns[index]? <;> simp

theorem cell_eq_ok {array : ArrowArray} {row : ℕ} {cell : Option Value} :
    array.cell row = .ok cell ↔ array.cells[row]? = some cell := by
  unfold ArrowArray.cell
  cases array.cells[row]? <;> simp

section Encoding

variable [Crates]

/-- Where the bytes of a cell can be appended to a key, they are those of its part. -/
theorem appendScalar_eq_ok {dataType : DataType} {value : Value} {bytes : List UInt8}
    (h : appendScalar dataType value = .ok bytes) :
    ∃ scalar, value = .scalar scalar ∧
      bytes = KeyPart.bytes { dataType := dataType.identity, scalar } := by
  unfold appendScalar at h
  split at h
  · rename_i scalar
    split at h
    · rename_i bytes' hbytes
      cases h
      refine ⟨scalar, rfl, ?_⟩
      rw [KeyPart.bytes, scalarBytes_identity, hbytes]
      rfl
    · cases h
  · cases h

/-- Where the key of a row can be encoded, its bytes are those of the tuple. -/
theorem encodeKeyParts_eq_ok {batch : RecordBatch} {row : ℕ} {indexes : List ℕ} :
    ∀ {ordinal : ℕ} {bytes : Option (List UInt8)},
      encodeKeyParts batch row (indexes.zipIdx ordinal) = .ok bytes →
      bytes = (keyTuple batch indexes row).map (encodeTuple ordinal) := by
  induction indexes with
  | nil =>
      intro ordinal bytes h
      cases h
      rfl
  | cons index indexes ih =>
      intro ordinal bytes h
      rw [List.zipIdx_cons, encodeKeyParts] at h
      obtain ⟨array, harray, h⟩ := bind_eq_ok.mp h
      obtain ⟨cell, hcell, h⟩ := bind_eq_ok.mp h
      rw [column_eq_ok] at harray
      rw [cell_eq_ok] at hcell
      rw [keyTuple_cons, harray, Option.bind_some]
      cases cell with
      | none =>
          cases h
          rw [keyPart, hcell]
          rfl
      | some value =>
          obtain ⟨part, hpart, h⟩ := bind_eq_ok.mp h
          obtain ⟨rest, hrest, h⟩ := bind_eq_ok.mp h
          cases h
          obtain ⟨scalar, rfl, rfl⟩ := appendScalar_eq_ok hpart
          rw [keyPart, hcell, ih hrest, Option.bind_some, Option.map_map, Option.map_map]
          rfl

theorem encodeKey_eq_ok {batch : RecordBatch} {indexes : List ℕ} {row : ℕ}
    {bytes : Option (List UInt8)} (h : encodeKey batch indexes row = .ok bytes) :
    bytes = (keyTuple batch indexes row).map (encodeTuple 0) :=
  encodeKeyParts_eq_ok h

end Encoding

/-! ## The keys of a dataset -/

/-- A complete key and the number of its row. -/
structure KeyedRow where
  key : List KeyPart
  row : UInt64

/-- The record the row leaves in the state of a rule. -/
def KeyedRow.record (keyed : KeyedRow) : Record :=
  { value := .bytes (encodeTuple 0 keyed.key), row := keyed.row }

def keyedRow (indexes : List ℕ) (batch : RecordBatch) (rowOffset row : ℕ) : Option KeyedRow :=
  (keyTuple batch indexes row).map fun key => { key, row := UInt64.ofNat (rowOffset + row) }

/-- The rows of a batch with a complete key. -/
def batchKeys (indexes : List ℕ) (batch : RecordBatch) (rowOffset : ℕ) : List KeyedRow :=
  (List.range batch.rows).filterMap (keyedRow indexes batch rowOffset)

/-- The rows of a dataset with a complete key. -/
def datasetKeys (indexes : List ℕ) : List RecordBatch → ℕ → List KeyedRow
  | [], _ => []
  | batch :: batches, rowOffset =>
      batchKeys indexes batch rowOffset ++ datasetKeys indexes batches (rowOffset + batch.rows)

def totalRows (batches : List RecordBatch) : ℕ := (batches.map RecordBatch.rows).sum

/-- The rows of a batch whose key carries a null. -/
def incompleteRows (indexes : List ℕ) (batch : RecordBatch) : ℕ :=
  (List.range batch.rows).countP fun row => (keyTuple batch indexes row).isNone

/-- The rows of a dataset whose key carries a null. -/
def incompleteKeys (indexes : List ℕ) (batches : List RecordBatch) : ℕ :=
  (batches.map (incompleteRows indexes)).sum

/-- The distinct complete keys among the rows. -/
def keySet (rows : List KeyedRow) : Finset (List KeyPart) := (rows.map KeyedRow.key).toFinset

theorem datasetKeys_snoc {indexes : List ℕ} {batch : RecordBatch} {batches : List RecordBatch} :
    ∀ {rowOffset : ℕ}, datasetKeys indexes (batches ++ [batch]) rowOffset =
      datasetKeys indexes batches rowOffset ++
        batchKeys indexes batch (rowOffset + totalRows batches) := by
  induction batches with
  | nil =>
      intro rowOffset
      exact List.append_nil _
  | cons head batches ih =>
      intro rowOffset
      have htotal : rowOffset + totalRows (head :: batches) =
          rowOffset + head.rows + totalRows batches := by
        simp only [totalRows, List.map_cons, List.sum_cons]
        omega
      rw [List.cons_append, datasetKeys, datasetKeys, ih, List.append_assoc, htotal]

theorem totalRows_snoc (batches : List RecordBatch) (batch : RecordBatch) :
    totalRows (batches ++ [batch]) = totalRows batches + batch.rows := by
  simp [totalRows]

theorem incompleteKeys_snoc (indexes : List ℕ) (batches : List RecordBatch) (batch : RecordBatch) :
    incompleteKeys indexes (batches ++ [batch]) =
      incompleteKeys indexes batches + incompleteRows indexes batch := by
  simp [incompleteKeys]

/-- The order of the keys: that of their bytes. -/
def KeyBefore (key key' : List KeyPart) : Prop :=
  OwnedValue.bytes (encodeTuple 0 key) < OwnedValue.bytes (encodeTuple 0 key')

/-- The keys that `remote` lacks, in ascending order, each with the first row that holds it. -/
structure AbsentKeys (checked : List KeyedRow) (remote : Finset (List KeyPart))
    (absent : List KeyedRow) : Prop where
  ascending : absent.Pairwise fun a b => KeyBefore a.key b.key
  keys_eq : keySet absent = keySet checked \ remote
  first : ∀ keyed ∈ absent, keyed ∈ checked ∧
    ∀ other ∈ checked, other.key = keyed.key → keyed.row ≤ other.row

theorem AbsentKeys.length_eq {checked absent : List KeyedRow} {remote : Finset (List KeyPart)}
    (h : AbsentKeys checked remote absent) :
    absent.length = (keySet checked \ remote).card := by
  have hnodup : (absent.map KeyedRow.key).Nodup := by
    rw [List.Nodup, List.pairwise_map]
    apply h.ascending.imp
    intro a b hlt heq
    rw [heq] at hlt
    exact lt_irrefl _ hlt
  rw [← h.keys_eq, keySet, List.toFinset_card_of_nodup hnodup, List.length_map]

end ProofFrame
