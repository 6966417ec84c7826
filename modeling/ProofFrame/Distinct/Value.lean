import Mathlib.Data.List.Lex
import Mathlib.Data.Prod.Lex
import ProofFrame.Lib.Bytes

/-!
# Exact values and their records

The values the exact state holds, in the order of its sorted runs, and the byte
encoding a run file stores them in.
-/

namespace ProofFrame.Distinct

open Lib

inductive ValueKind where
  | i64 | u64 | f64 | bytes
  deriving DecidableEq, Repr

namespace ValueKind

def tag : ValueKind → UInt8
  | .i64 => 1
  | .u64 => 2
  | .f64 => 3
  | .bytes => 4

def fromTag : UInt8 → Option ValueKind
  | 1 => some .i64
  | 2 => some .u64
  | 3 => some .f64
  | 4 => some .bytes
  | _ => none

@[simp] theorem fromTag_tag (kind : ValueKind) : fromTag kind.tag = some kind := by
  cases kind <;> rfl

end ValueKind

/-- A value by itself.  A float is its bit pattern. -/
inductive OwnedValue where
  | i64 (value : Int64)
  | u64 (value : UInt64)
  | f64 (bits : UInt64)
  | bytes (value : List UInt8)

namespace OwnedValue

def kind : OwnedValue → ValueKind
  | .i64 _ => .i64
  | .u64 _ => .u64
  | .f64 _ => .f64
  | .bytes _ => .bytes

/-- The derived order: by variant, then by the payload. -/
def sortKey : OwnedValue → ℕ ×ₗ ℤ ×ₗ List ℕ
  | .i64 value => toLex (0, toLex (value.toInt, []))
  | .u64 value => toLex (1, toLex ((value.toNat : ℤ), []))
  | .f64 bits => toLex (2, toLex ((bits.toNat : ℤ), []))
  | .bytes value => toLex (3, toLex (0, value.map UInt8.toNat))

theorem sortKey_injective : Function.Injective sortKey := by
  intro a b h
  cases a <;> cases b <;> simp only [sortKey, EmbeddingLike.apply_eq_iff_eq, Prod.mk.injEq] at h
  case i64.i64 a b => rw [Int64.toInt_inj.mp h.2.1]
  case u64.u64 a b => rw [UInt64.toNat_inj.mp (Int.ofNat_inj.mp h.2.1)]
  case f64.f64 a b => rw [UInt64.toNat_inj.mp (Int.ofNat_inj.mp h.2.1)]
  case bytes.bytes a b =>
    rw [List.map_injective_iff.mpr (fun _ _ => UInt8.toNat_inj.mp) h.2.2]
  all_goals simp at h

instance : LinearOrder OwnedValue := LinearOrder.lift' sortKey sortKey_injective

/-- The bytes of a value in the payload of a run. -/
def encode : OwnedValue → List UInt8
  | .i64 value => Bytes.toLe 8 value.toUInt64.toNat
  | .u64 value | .f64 value => Bytes.toLe 8 value.toNat
  | .bytes value => Bytes.toLe 4 value.length ++ value

/-- The length of a byte value; a fixed-width value has none to bound. -/
def byteLength : OwnedValue → ℕ
  | .bytes value => value.length
  | _ => 0

end OwnedValue

/-- A value and the row it came from. -/
structure Record where
  value : OwnedValue
  row : UInt64

namespace Record

/-- The order of the sorted runs: by value, then by row. -/
def sortKey (record : Record) : OwnedValue ×ₗ ℕ := toLex (record.value, record.row.toNat)

theorem sortKey_injective : Function.Injective sortKey := by
  rintro ⟨value, row⟩ ⟨value', row'⟩ h
  simp only [sortKey, EmbeddingLike.apply_eq_iff_eq, Prod.mk.injEq] at h
  rw [h.1, UInt64.toNat_inj.mp h.2]

instance : LinearOrder Record := LinearOrder.lift' sortKey sortKey_injective

theorem monotone_value : Monotone value := by
  intro a b h
  rcases Prod.Lex.le_iff.mp (show sortKey a ≤ sortKey b from h) with hlt | ⟨heq, -⟩
  · exact le_of_lt hlt
  · exact le_of_eq heq

/-- `write_owned_record`: the bytes of a record in the payload of a run. -/
def encode (record : Record) : List UInt8 :=
  record.value.encode ++ Bytes.toLe 8 record.row.toNat

end Record

/-- The payload of a run. -/
def encodeAll (records : List Record) : List UInt8 := records.flatMap Record.encode

@[simp] theorem encodeAll_nil : encodeAll [] = [] := rfl

@[simp] theorem encodeAll_cons (record : Record) (records : List Record) :
    encodeAll (record :: records) = record.encode ++ encodeAll records := rfl

@[simp] theorem encodeAll_append (records records' : List Record) :
    encodeAll (records ++ records') = encodeAll records ++ encodeAll records' :=
  List.flatMap_append

end ProofFrame.Distinct
