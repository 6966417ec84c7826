import ProofFrame.Lib.Ieee754.Magnitude
import Mathlib.Data.Nat.Sqrt
import Mathlib.Tactic.Positivity
import Mathlib.Tactic.NormNum

/-!
# Arithmetic of a binary interchange format

`Ieee eb mb` is the format with `eb` exponent bits and `mb` fraction bits.  Each
operation takes the exact rational result and rounds it once, to nearest with
ties to even, as the standard asks; infinities and NaN are handled before that.
A NaN result is the quiet one with an empty payload.
-/

namespace ProofFrame.Lib.Ieee754

/-- A word of the format: the sign bit and the bits below it. -/
@[ext] structure Ieee (eb mb : ℕ) where
  negative : Bool
  magnitude : Fin (2 ^ (eb + mb))
  deriving DecidableEq

variable {eb mb : ℕ}

/-- The word of infinity: an exponent field of ones and an empty fraction. -/
def infinityIndex (eb mb : ℕ) : ℕ := (2 ^ eb - 1) * 2 ^ mb

theorem infinityIndex_lt : infinityIndex eb mb < 2 ^ (eb + mb) := by
  rw [infinityIndex, pow_add]
  exact Nat.mul_lt_mul_of_pos_right (Nat.sub_lt (Nat.two_pow_pos eb) one_pos) (Nat.two_pow_pos mb)

/-- The smallest positive magnitude of the format. -/
def unit (eb mb : ℕ) : ℚ := 2 ^ (2 - 2 ^ (eb - 1) - mb : ℤ)

theorem unit_pos : 0 < unit eb mb := zpow_pos (by norm_num) _

namespace Ieee

def isNaN (x : Ieee eb mb) : Bool := decide (infinityIndex eb mb < x.magnitude)

def isInfinite (x : Ieee eb mb) : Bool := decide (x.magnitude = infinityIndex eb mb)

def isFinite (x : Ieee eb mb) : Bool := decide (x.magnitude < infinityIndex eb mb)

/-- Infinity of the given sign. -/
def infinity (negative : Bool) : Ieee eb mb := ⟨negative, infinityIndex eb mb, infinityIndex_lt⟩

/-- Zero of the given sign. -/
def zero (negative : Bool) : Ieee eb mb := ⟨negative, 0, Nat.two_pow_pos _⟩

/-- The quiet NaN with an empty payload. -/
def nan : Ieee eb mb := ⟨false, Fin.ofNat _ (infinityIndex eb mb + 2 ^ (mb - 1))⟩

/-- The word with the given bits, sign bit first. -/
def ofBits (bits : ℕ) : Ieee eb mb :=
  ⟨decide (2 ^ (eb + mb) ≤ bits % 2 ^ (eb + mb + 1)), Fin.ofNat _ bits⟩

def toBits (x : Ieee eb mb) : ℕ := (if x.negative then 2 ^ (eb + mb) else 0) + x.magnitude

/-- The exact value of a finite word. -/
def toRat (x : Ieee eb mb) : ℚ :=
  (if x.negative then -1 else 1) * (units mb x.magnitude * unit eb mb)

/-- Round a magnitude, counted in units; past the largest finite word it is infinite. -/
def roundMagnitude (q : ℚ) : Fin (2 ^ (eb + mb)) :=
  ⟨min (roundIndex mb q) (infinityIndex eb mb), (min_le_right _ _).trans_lt infinityIndex_lt⟩

/-- Round a rational.  An exact zero takes the sign the operation prescribes. -/
def ofRat (q : ℚ) (zeroSign : Bool) : Ieee eb mb :=
  ⟨if q = 0 then zeroSign else decide (q < 0), roundMagnitude (|q| / unit eb mb)⟩

def neg (x : Ieee eb mb) : Ieee eb mb := { x with negative := !x.negative }

def abs (x : Ieee eb mb) : Ieee eb mb := { x with negative := false }

def add (x y : Ieee eb mb) : Ieee eb mb :=
  if x.isNaN || y.isNaN then nan
  else if x.isInfinite then
    if y.isInfinite && x.negative != y.negative then nan else x
  else if y.isInfinite then y
  else ofRat (x.toRat + y.toRat) (x.negative && y.negative)

def sub (x y : Ieee eb mb) : Ieee eb mb := add x (neg y)

def mul (x y : Ieee eb mb) : Ieee eb mb :=
  if x.isNaN || y.isNaN then nan
  else if x.isInfinite || y.isInfinite then
    if x.magnitude = (0 : ℕ) || y.magnitude = (0 : ℕ) then nan
    else infinity (x.negative != y.negative)
  else ofRat (x.toRat * y.toRat) (x.negative != y.negative)

def div (x y : Ieee eb mb) : Ieee eb mb :=
  if x.isNaN || y.isNaN then nan
  else if x.isInfinite then
    if y.isInfinite then nan else infinity (x.negative != y.negative)
  else if y.isInfinite then zero (x.negative != y.negative)
  else if y.magnitude = (0 : ℕ) then
    if x.magnitude = (0 : ℕ) then nan else infinity (x.negative != y.negative)
  else ofRat (x.toRat / y.toRat) (x.negative != y.negative)

/-- The word nearest to the square root of a nonnegative rational, in units.  The
lower neighbour is found by the integer square root, the rounding by squares. -/
def roundSqrt (q : ℚ) : Fin (2 ^ (eb + mb)) :=
  let square := q / unit eb mb ^ 2
  let n := floorIndex mb (Nat.sqrt ⌊square⌋₊)
  let middle : ℚ := units mb n + units mb (n + 1)
  let rounded :=
    if 4 * square < middle ^ 2 then n
    else if middle ^ 2 < 4 * square then n + 1
    else if n % 2 = 0 then n else n + 1
  ⟨min rounded (infinityIndex eb mb), (min_le_right _ _).trans_lt infinityIndex_lt⟩

def sqrt (x : Ieee eb mb) : Ieee eb mb :=
  if x.isNaN then nan
  else if x.magnitude = (0 : ℕ) then x
  else if x.negative then nan
  else if x.isInfinite then x
  else ⟨false, roundSqrt x.toRat⟩

/-- The position of a number in the numeric order; the two zeros share one. -/
def key (x : Ieee eb mb) : ℤ := if x.negative then -(x.magnitude : ℤ) else x.magnitude

/-- The position in the total order of the standard, where every word differs. -/
def totalKey (x : Ieee eb mb) : ℤ :=
  if x.negative then -(x.magnitude : ℤ) - 1 else x.magnitude

/-- Numeric comparison; a NaN is unordered. -/
def partialCmp (x y : Ieee eb mb) : Option Ordering :=
  if x.isNaN || y.isNaN then none else some (compare x.key y.key)

def totalCmp (x y : Ieee eb mb) : Ordering := compare x.totalKey y.totalKey

def lt (x y : Ieee eb mb) : Bool := x.partialCmp y == some .lt

def gt (x y : Ieee eb mb) : Bool := x.partialCmp y == some .gt

def le (x y : Ieee eb mb) : Bool := x.lt y || x.partialCmp y == some .eq

def ge (x y : Ieee eb mb) : Bool := x.gt y || x.partialCmp y == some .eq

def eq (x y : Ieee eb mb) : Bool := x.partialCmp y == some .eq

/-- The nearest word to an integer. -/
def ofInt (z : ℤ) : Ieee eb mb := ofRat z false

/-- Truncation toward zero, saturated to `[low, high]`; NaN becomes zero. -/
def toIntSat (low high : ℤ) (x : Ieee eb mb) : ℤ :=
  if x.isNaN then 0
  else if x.isInfinite then (if x.negative then low else high)
  else max low (min high (if x.negative then ⌈x.toRat⌉ else ⌊x.toRat⌋))

/-- The quiet NaN of another format with the sign and the leading payload bits of a NaN. -/
def convertNaN {eb' mb' : ℕ} (x : Ieee eb mb) : Ieee eb' mb' :=
  let payload := x.magnitude - infinityIndex eb mb
  let shifted := if mb ≤ mb' then payload * 2 ^ (mb' - mb) else payload / 2 ^ (mb - mb')
  ⟨x.negative, Fin.ofNat _ (infinityIndex eb' mb' + (shifted ||| 2 ^ (mb' - 1)))⟩

/-- Conversion to another format of the family. -/
def convert {eb' mb' : ℕ} (x : Ieee eb mb) : Ieee eb' mb' :=
  if x.isNaN then x.convertNaN
  else if x.isInfinite then infinity x.negative
  else ofRat x.toRat x.negative

end Ieee

/-- The 64-bit format. -/
abbrev F64 := Ieee 11 52

/-- The 32-bit format. -/
abbrev F32 := Ieee 8 23

end ProofFrame.Lib.Ieee754
