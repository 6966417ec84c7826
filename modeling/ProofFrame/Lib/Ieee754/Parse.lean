import ProofFrame.Lib.Ieee754.Arithmetic
import Mathlib.Data.Nat.Digits.Lemmas

/-!
# Words of decimal texts

A decimal text stands for a rational, which is rounded once to the nearest word.
-/

namespace ProofFrame.Lib.Ieee754.Ieee

variable {eb mb : ℕ}

/-- The exponent behind the digits of a number. -/
def parseExponent : List Char → Option ℤ
  | [] => some 0
  | mark :: rest =>
      if mark = 'e' ∨ mark = 'E' then
        let (negative, digits) := match rest with
          | '-' :: digits => (true, digits)
          | '+' :: digits => (false, digits)
          | digits => (false, digits)
        if digits.isEmpty || !digits.all Char.isDigit then none
        else
          let magnitude : ℤ := Nat.ofDigitChars 10 digits 0
          some (if negative then -magnitude else magnitude)
      else none

/-- The rational of a decimal number without a sign: digits on at least one side of the point. -/
def parseMagnitude (text : List Char) : Option ℚ :=
  let (whole, rest) := text.span Char.isDigit
  let (fraction, rest) := match rest with
    | '.' :: rest => rest.span Char.isDigit
    | rest => ([], rest)
  if whole.isEmpty && fraction.isEmpty then none
  else (parseExponent rest).map fun exponent : ℤ =>
    (Nat.ofDigitChars 10 (whole ++ fraction) 0 : ℚ) * (10 : ℚ) ^ (exponent - (fraction.length : ℤ))

/-- `str::parse` of a float. -/
def parse (text : String) : Option (Ieee eb mb) :=
  let (negative, body) := match text.toList with
    | '-' :: body => (true, body)
    | '+' :: body => (false, body)
    | body => (false, body)
  let lower := body.map Char.toLower
  if lower = ['n', 'a', 'n'] then some { (nan : Ieee eb mb) with negative }
  else if lower = ['i', 'n', 'f'] ∨ lower = ['i', 'n', 'f', 'i', 'n', 'i', 't', 'y'] then
    some (infinity negative)
  else (parseMagnitude body).map fun q => ofRat (if negative then -q else q) negative

end ProofFrame.Lib.Ieee754.Ieee
