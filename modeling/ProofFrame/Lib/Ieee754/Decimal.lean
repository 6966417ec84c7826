import ProofFrame.Lib.Ieee754.Arithmetic
import Mathlib.Data.Int.Log

/-!
# Decimal text of a binary interchange format

A word is written with the fewest significant digits that read back as the same
word, the closest such decimal if there are several, and without an exponent.
Writers differ in which of two equally close decimals they take.
-/

namespace ProofFrame.Lib.Ieee754.Ieee

variable {eb mb : ℕ}

/-- The magnitude of the word nearest to a nonnegative rational. -/
def nearest (q : ℚ) : Fin (2 ^ (eb + mb)) := (ofRat q false : Ieee eb mb).magnitude

/-- Which of two equally close decimals is written. -/
inductive Halfway where
  | upper | even
  deriving DecidableEq, Repr

/-- Whether the lower of two equally close coefficients is written. -/
def Halfway.takesLower : Halfway → (low : ℕ) → Bool
  | .upper, _ => false
  | .even, low => low % 2 = 0

/-- The decimal of `digits` significant digits closest to `q > 0` among its two neighbours that
read back as `word`, as a coefficient and a power of ten. -/
def shortestOf (halfway : Halfway) (word : Fin (2 ^ (eb + mb))) (q : ℚ) (digits : ℕ) :
    Option (ℕ × ℤ) :=
  let exponent : ℤ := Int.log 10 q + 1 - digits
  let scaled := q / 10 ^ exponent
  let low := ⌊scaled⌋₊
  let readsBack := fun coefficient : ℕ =>
    nearest (coefficient * 10 ^ exponent) = word
  let lower := scaled - low < 1 / 2 ∨ scaled - low = 1 / 2 ∧ halfway.takesLower low = true
  let candidates := if lower then [low, low + 1] else [low + 1, low]
  (candidates.find? fun coefficient => decide (readsBack coefficient)).map (·, exponent)

/-- The shortest decimal that reads back; seventeen digits suffice for the formats in use. -/
def shortest (halfway : Halfway) (word : Fin (2 ^ (eb + mb))) (q : ℚ) : ℕ × ℤ :=
  ((List.range' 1 17).findSome? (shortestOf halfway word q)).getD (0, 0)

/-- A coefficient and a power of ten, written out without an exponent. -/
def plainDecimal (coefficient : ℕ) (exponent : ℤ) : String :=
  if 0 ≤ exponent then toString (coefficient * 10 ^ exponent.toNat)
  else
    let places := exponent.natAbs
    let fraction := toString (coefficient % 10 ^ places)
    let padded := String.ofList (List.replicate (places - fraction.length) '0') ++ fraction
    let kept := padded.toList.reverse.dropWhile (· = '0')
    let whole := toString (coefficient / 10 ^ places)
    if kept.isEmpty then whole else whole ++ "." ++ String.ofList kept.reverse

/-- `Display` of a float. -/
def display (x : Ieee eb mb) : String :=
  let sign := if x.negative then "-" else ""
  if x.isNaN then "NaN"
  else if x.isInfinite then sign ++ "inf"
  else if x.magnitude = (0 : ℕ) then sign ++ "0"
  else
    let decimal := shortest .upper x.magnitude |x.toRat|
    sign ++ plainDecimal decimal.1 decimal.2

end ProofFrame.Lib.Ieee754.Ieee
