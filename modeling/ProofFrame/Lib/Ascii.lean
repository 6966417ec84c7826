import Mathlib.Algebra.GroupWithZero.Nat
import Mathlib.Data.List.Basic

/-!
# ASCII texts

Every character of such a text is a single byte.
-/

namespace ProofFrame.Lib

def IsAscii (chars : List Char) : Prop := ∀ c ∈ chars, c.toNat < 128

@[simp] theorem isAscii_nil : IsAscii [] := by simp [IsAscii]

@[simp] theorem isAscii_cons {c : Char} {chars : List Char} :
    IsAscii (c :: chars) ↔ c.toNat < 128 ∧ IsAscii chars := by
  simp [IsAscii]

@[simp] theorem isAscii_append {chars more : List Char} :
    IsAscii (chars ++ more) ↔ IsAscii chars ∧ IsAscii more := by
  simp [IsAscii, or_imp, forall_and]

theorem isAscii_flatMap {α : Type*} {items : List α} {f : α → List Char}
    (h : ∀ item ∈ items, IsAscii (f item)) : IsAscii (items.flatMap f) := by
  intro c hc
  obtain ⟨item, hitem, hmem⟩ := List.mem_flatMap.mp hc
  exact h item hitem c hmem

/-- What holds of every character of a text is decided on the text, not on every `Char`. -/
theorem forall_mem_of_all {p : Char → Prop} [DecidablePred p] {chars : List Char}
    (h : chars.all (fun c => decide (p c)) = true) : ∀ c ∈ chars, p c := by
  intro c hc
  exact of_decide_eq_true (List.all_eq_true.mp h c hc)

theorem utf8ByteSize_eq_sum (text : String) :
    text.utf8ByteSize = (text.toList.map Char.utf8Size).sum := by
  have hsize : text.utf8ByteSize = text.toList.utf8Encode.size := by
    rw [String.utf8Encode_toList]
    rfl
  rw [hsize, List.utf8Encode, List.size_toByteArray, List.length_flatMap]
  congr 1
  exact List.map_congr_left fun c _ => String.length_utf8EncodeChar c

theorem utf8Size_of_ascii {c : Char} (h : c.toNat < 128) : c.utf8Size = 1 := by
  rw [Char.utf8Size_eq_one_iff]
  exact Nat.le_of_lt_succ h

/-- The bytes of an ASCII text are its characters. -/
theorem utf8ByteSize_of_ascii {text : String} (h : IsAscii text.toList) :
    text.utf8ByteSize = text.toList.length := by
  rw [utf8ByteSize_eq_sum]
  generalize text.toList = chars at h
  induction chars with
  | nil => rfl
  | cons c chars ih =>
      have hrest := ih fun c hc => h c (List.mem_cons_of_mem _ hc)
      rw [List.map_cons, List.sum_cons, hrest, utf8Size_of_ascii (h c List.mem_cons_self),
        List.length_cons, Nat.add_comm]

end ProofFrame.Lib
