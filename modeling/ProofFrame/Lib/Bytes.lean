import Mathlib.Data.Nat.Notation
import Mathlib.Tactic.Ring
import Mathlib.Tactic.Linarith

/-!
# Little-endian integers and byte cursors

The fixed-width encoding of a number and the reader that takes a prefix of a
byte sequence, with the facts a binary format is read back by.
-/

namespace ProofFrame.Lib.Bytes

/-- The low `width` bytes of a number, least significant first. -/
def toLe : ℕ → ℕ → List UInt8
  | 0, _ => []
  | width + 1, value => UInt8.ofNat (value % 256) :: toLe width (value / 256)

/-- The number a little-endian byte sequence stands for. -/
def ofLe : List UInt8 → ℕ
  | [] => 0
  | byte :: rest => byte.toNat + 256 * ofLe rest

@[simp] theorem length_toLe (width value : ℕ) : (toLe width value).length = width := by
  induction width generalizing value with
  | zero => rfl
  | succ width ih => simp [toLe, ih]

theorem ofLe_toLe (width value : ℕ) : ofLe (toLe width value) = value % 256 ^ width := by
  induction width generalizing value with
  | zero => simp [toLe, ofLe, Nat.mod_one]
  | succ width ih =>
      have hbyte : (UInt8.ofNat (value % 256)).toNat = value % 256 := by
        rw [UInt8.toNat_ofNat']
        omega
      rw [toLe, ofLe, ih, hbyte, Nat.pow_succ', Nat.mod_mul]

theorem toLe_injective {width a b : ℕ} (ha : a < 256 ^ width) (hb : b < 256 ^ width)
    (h : toLe width a = toLe width b) : a = b := by
  have hle := congrArg ofLe h
  rwa [ofLe_toLe, ofLe_toLe, Nat.mod_eq_of_lt ha, Nat.mod_eq_of_lt hb] at hle

theorem ofLe_lt (bytes : List UInt8) : ofLe bytes < 256 ^ bytes.length := by
  induction bytes with
  | nil => simp [ofLe]
  | cons byte rest ih =>
      have := byte.toNat_lt
      rw [ofLe, List.length_cons, Nat.pow_succ]
      omega

/-- The first `count` bytes and the bytes after them, if there are that many. -/
def split (count : ℕ) (bytes : List UInt8) : Option (List UInt8 × List UInt8) :=
  if count ≤ bytes.length then some (bytes.take count, bytes.drop count) else none

theorem split_append {count : ℕ} {field : List UInt8} (h : field.length = count)
    (rest : List UInt8) : split count (field ++ rest) = some (field, rest) := by
  subst h
  simp [split]

theorem split_eq_some {count : ℕ} {bytes field rest : List UInt8} :
    split count bytes = some (field, rest) ↔ bytes = field ++ rest ∧ field.length = count := by
  constructor
  · intro h
    unfold split at h
    split at h
    · rename_i hle
      cases h
      exact ⟨(List.take_append_drop count bytes).symm, List.length_take_of_le hle⟩
    · cases h
  · rintro ⟨rfl, hlength⟩
    exact split_append hlength rest

theorem length_of_split {count : ℕ} {bytes field rest : List UInt8}
    (h : split count bytes = some (field, rest)) : field.length = count :=
  (split_eq_some.mp h).2

/-- A field is the encoding of the number it stands for. -/
theorem toLe_ofLe (bytes : List UInt8) : toLe bytes.length (ofLe bytes) = bytes := by
  induction bytes with
  | nil => rfl
  | cons byte rest ih =>
      have hlt := byte.toNat_lt
      have hlow : (byte.toNat + 256 * ofLe rest) % 256 = byte.toNat := by omega
      have hhigh : (byte.toNat + 256 * ofLe rest) / 256 = ofLe rest := by omega
      rw [List.length_cons, toLe, ofLe, hlow, hhigh, ih, UInt8.ofNat_toNat]

end ProofFrame.Lib.Bytes
