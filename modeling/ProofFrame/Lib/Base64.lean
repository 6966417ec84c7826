import Mathlib.Data.Nat.Notation

/-!
# Base64 digits

Bytes as digits of six bits, three bytes in four digits; one or two bytes at the end
take two or three digits.  Reading the digits gives the bytes back.
-/

namespace ProofFrame.Lib.Base64

/-- The digits of a byte sequence. -/
def digits : List UInt8 → List ℕ
  | a :: b :: c :: rest =>
      a.toNat / 4 :: (a.toNat % 4 * 16 + b.toNat / 16) :: (b.toNat % 16 * 4 + c.toNat / 64) ::
        c.toNat % 64 :: digits rest
  | [a, b] => [a.toNat / 4, a.toNat % 4 * 16 + b.toNat / 16, b.toNat % 16 * 4]
  | [a] => [a.toNat / 4, a.toNat % 4 * 16]
  | [] => []

/-- The bytes of a digit sequence; the bits past the last whole byte are dropped. -/
def bytes : List ℕ → Option (List UInt8)
  | w :: x :: y :: z :: rest =>
      (bytes rest).map fun read =>
        UInt8.ofNat (w * 4 + x / 16) :: UInt8.ofNat (x % 16 * 16 + y / 4) ::
          UInt8.ofNat (y % 4 * 64 + z) :: read
  | [w, x, y] => some [UInt8.ofNat (w * 4 + x / 16), UInt8.ofNat (x % 16 * 16 + y / 4)]
  | [w, x] => some [UInt8.ofNat (w * 4 + x / 16)]
  | [_] => none
  | [] => some []

theorem bytes_digits (input : List UInt8) : bytes (digits input) = some input := by
  fun_induction digits input with
  | case1 a b c rest ih =>
      have ha := a.toNat_lt
      have hb := b.toNat_lt
      have hc := c.toNat_lt
      have h₁ : a.toNat / 4 * 4 + (a.toNat % 4 * 16 + b.toNat / 16) / 16 = a.toNat := by omega
      have h₂ : (a.toNat % 4 * 16 + b.toNat / 16) % 16 * 16 +
          (b.toNat % 16 * 4 + c.toNat / 64) / 4 = b.toNat := by omega
      have h₃ : (b.toNat % 16 * 4 + c.toNat / 64) % 4 * 64 + c.toNat % 64 = c.toNat := by omega
      simp only [bytes, ih, h₁, h₂, h₃, UInt8.ofNat_toNat, Option.map_some]
  | case2 a b =>
      have ha := a.toNat_lt
      have hb := b.toNat_lt
      have h₁ : a.toNat / 4 * 4 + (a.toNat % 4 * 16 + b.toNat / 16) / 16 = a.toNat := by omega
      have h₂ : (a.toNat % 4 * 16 + b.toNat / 16) % 16 * 16 + b.toNat % 16 * 4 / 4 = b.toNat := by
        omega
      simp only [bytes, h₁, h₂, UInt8.ofNat_toNat]
  | case3 a =>
      have ha := a.toNat_lt
      have h₁ : a.toNat / 4 * 4 + a.toNat % 4 * 16 / 16 = a.toNat := by omega
      simp only [bytes, h₁, UInt8.ofNat_toNat]
  | case4 => rfl

theorem lt_of_mem_digits {input : List UInt8} : ∀ digit ∈ digits input, digit < 64 := by
  fun_induction digits input with
  | case1 a b c rest ih =>
      have ha := a.toNat_lt
      have hb := b.toNat_lt
      have hc := c.toNat_lt
      simp only [List.mem_cons]
      rintro digit (rfl | rfl | rfl | rfl | hmem)
      · omega
      · omega
      · omega
      · omega
      · exact ih digit hmem
  | case2 a b =>
      have ha := a.toNat_lt
      have hb := b.toNat_lt
      simp only [List.mem_cons, List.not_mem_nil, or_false]
      rintro digit (rfl | rfl | rfl) <;> omega
  | case3 a =>
      have ha := a.toNat_lt
      simp only [List.mem_cons, List.not_mem_nil, or_false]
      rintro digit (rfl | rfl) <;> omega
  | case4 => simp

/-- No sequence of bytes takes one digit more than a multiple of four. -/
theorem length_digits (input : List UInt8) : (digits input).length % 4 ≠ 1 := by
  fun_induction digits input with
  | case1 a b c rest ih =>
      simp only [List.length_cons]
      omega
  | _ => simp

/-! ## The alphabet for addresses -/

/-- The character of a digit. -/
def digitChar (digit : ℕ) : Char :=
  if digit < 26 then Char.ofNat (65 + digit)
  else if digit < 52 then Char.ofNat (97 + (digit - 26))
  else if digit < 62 then Char.ofNat (48 + (digit - 52))
  else if digit = 62 then '-'
  else '_'

/-- The digit of a character; the ones of the plain alphabet stand for the same digits. -/
def charDigit (c : Char) : Option ℕ :=
  if 'A' ≤ c ∧ c ≤ 'Z' then some (c.toNat - 65)
  else if 'a' ≤ c ∧ c ≤ 'z' then some (c.toNat - 97 + 26)
  else if '0' ≤ c ∧ c ≤ '9' then some (c.toNat - 48 + 52)
  else if c = '-' ∨ c = '+' then some 62
  else if c = '_' ∨ c = '/' then some 63
  else none

theorem charDigit_digitChar {digit : ℕ} (h : digit < 64) :
    charDigit (digitChar digit) = some digit ∧ digitChar digit ≠ '=' := by
  have hall : ∀ digit < 64, charDigit (digitChar digit) = some digit ∧ digitChar digit ≠ '=' := by
    decide +kernel
  exact hall digit h

theorem mapM_charDigit {input : List ℕ} (h : ∀ digit ∈ input, digit < 64) :
    (input.map digitChar).mapM charDigit = some input := by
  induction input with
  | nil => rfl
  | cons digit rest ih =>
      rw [List.map_cons, List.mapM_cons,
        (charDigit_digitChar (h digit (List.mem_cons_self ..))).1,
        ih fun other hother => h other (List.mem_cons_of_mem _ hother)]
      rfl

end ProofFrame.Lib.Base64
