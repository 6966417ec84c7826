import ProofFrame.Lib.Ieee754.Arithmetic

/-!
# Partial comparison

Comparison of values some of which may be unordered, as the comparison operators
of the kernels use it: an operator holds only of an ordered pair.
-/

namespace ProofFrame.Lib

/-- `PartialOrd`. -/
class PartialOrd (α : Type) where
  partialCmp : α → α → Option Ordering

namespace PartialOrd

variable {α : Type} [PartialOrd α]

def lt (a b : α) : Bool := partialCmp a b == some .lt

def gt (a b : α) : Bool := partialCmp a b == some .gt

def eq (a b : α) : Bool := partialCmp a b == some .eq

def ne (a b : α) : Bool := !eq a b

def le (a b : α) : Bool := lt a b || eq a b

def ge (a b : α) : Bool := gt a b || eq a b

end PartialOrd

/-- A total order compares every pair. -/
abbrev PartialOrd.ofOrd (α : Type) [Ord α] : PartialOrd α := ⟨fun a b => some (compare a b)⟩

instance : PartialOrd ℤ := .ofOrd ℤ

instance : PartialOrd ℕ := .ofOrd ℕ

instance : PartialOrd Bool := .ofOrd Bool

instance : PartialOrd String := .ofOrd String

instance {eb mb : ℕ} : PartialOrd (Ieee754.Ieee eb mb) := ⟨Ieee754.Ieee.partialCmp⟩

end ProofFrame.Lib
