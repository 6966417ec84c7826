import Mathlib.Data.Int.ModEq
import ProofFrame.Encoding.Keys
import ProofFrame.Pii

/-!
# The checksums equal their definitions

An account number is a numeral modulo 97, of which the detector only ever holds the
remainder; the digits of a card number are weighted from the right.  Neither
detector leaves the range of its arithmetic.
-/

namespace ProofFrame

open Lib

/-! ## Definitions -/

/-- White space of the detector: tab, line feed, form feed, carriage return, space. -/
def isAsciiWhitespace (c : Char) : Bool := [9, 10, 12, 13, 32].contains c.toNat

/-- A text without its white space. -/
def ibanChars (value : String) : List Char := value.toList.filter fun c => !isAsciiWhitespace c

/-- Two letters, two digits, then letters or digits. -/
structure IbanShape (chars : List Char) : Prop where
  le_length : 15 ≤ chars.length
  length_le : chars.length ≤ 34
  country : (chars.take 2).all Char.isAlpha = true
  check : ((chars.drop 2).take 2).all Char.isDigit = true
  account : (chars.drop 4).all Char.isAlphanum = true

/-- A letter stands for a number from 10 to 35. -/
def expandLetter (c : Char) : List Char :=
  if c.isDigit then [c] else Nat.toDigits 10 (c.toUpper.toNat - 'A'.toNat + 10)

/-- The numeral with the first four characters moved to its end. -/
def ibanNumeral (chars : List Char) : ℕ :=
  Nat.ofDigitChars 10 ((chars.drop 4 ++ chars.take 4).flatMap expandLetter) 0

structure IsIban (value : String) : Prop where
  ascii : IsAscii value.toList
  shape : IbanShape (ibanChars value)
  checksum : ibanNumeral (ibanChars value) % 97 = 1

/-- What a digit adds: every other one is doubled, and the digits of its double are added. -/
def luhnWeight (digit position : ℕ) : ℕ :=
  if position % 2 = 0 then digit else 2 * digit / 10 + 2 * digit % 10

/-- The sum of the digits, with their positions from the right. -/
def luhnSum (digits : List ℕ) : ℕ :=
  (digits.reverse.zipIdx.map fun (digit, position) => luhnWeight digit position).sum

def cardDigits (value : String) : List Char := value.toList.filter Char.isDigit

structure IsLuhn (value : String) : Prop where
  characters : ∀ c ∈ value.toList, c.isDigit = true ∨ c = ' ' ∨ c = '-'
  size : 13 ≤ value.utf8ByteSize ∧ value.utf8ByteSize ≤ 23
  digits : 13 ≤ (cardDigits value).length ∧ (cardDigits value).length ≤ 19
  checksum : luhnSum ((cardDigits value).map fun c => c.toNat - 48) % 10 = 0

/-! ## Characters and bytes -/

/-- The byte of an ASCII character. -/
def asciiByte (c : Char) : UInt8 := UInt8.ofNat c.toNat

theorem isAscii_iff {value : String} : isAscii value = true ↔ IsAscii value.toList := by
  simp [isAscii, IsAscii]

theorem utf8Bytes_of_ascii {value : String} (h : IsAscii value.toList) :
    utf8Bytes value = value.toList.map asciiByte := by
  unfold utf8Bytes
  rw [← List.flatMap_singleton' (value.toList.map asciiByte), List.flatMap_map]
  apply List.flatMap_congr
  intro c hc
  rw [String.utf8EncodeChar_eq_singleton (utf8Size_of_ascii (h c hc))]
  rfl

section Character

variable {c : Char} (h : c.toNat < 128)

include h

theorem toNat_asciiByte : (asciiByte c).toNat = c.toNat := by
  rw [asciiByte, UInt8.toNat_ofNat']
  exact Nat.mod_eq_of_lt (by omega)

theorem isDigit_asciiByte : AsciiByte.isDigit (asciiByte c) = c.isDigit := by
  rw [Bool.eq_iff_iff, isDigit_iff, AsciiByte.isDigit, toNat_asciiByte h]
  simp

theorem isAlphabetic_asciiByte : AsciiByte.isAlphabetic (asciiByte c) = c.isAlpha := by
  rw [Bool.eq_iff_iff, AsciiByte.isAlphabetic, toNat_asciiByte h]
  have halpha : c.isAlpha = (decide (65 ≤ c.val ∧ c.val ≤ 90) ||
      (decide (97 ≤ c.val) && decide (c.val ≤ 122))) := rfl
  rw [halpha]
  simp [UInt32.le_iff_toNat_le]

theorem isAlphanumeric_asciiByte : AsciiByte.isAlphanumeric (asciiByte c) = c.isAlphanum := by
  rw [AsciiByte.isAlphanumeric, isAlphabetic_asciiByte h, isDigit_asciiByte h, Char.isAlphanum]

theorem isWhitespace_asciiByte : AsciiByte.isWhitespace (asciiByte c) = isAsciiWhitespace c := by
  rw [AsciiByte.isWhitespace, isAsciiWhitespace, toNat_asciiByte h]

theorem toUppercase_asciiByte : AsciiByte.toUppercase (asciiByte c) = c.toUpper.toNat := by
  have hall : ∀ n : Fin 128, AsciiByte.toUppercase (asciiByte (Char.ofNat n)) =
      (Char.ofNat n).toUpper.toNat := by decide
  have hc := hall ⟨c.toNat, h⟩
  rwa [Char.ofNat_toNat] at hc

theorem toUpper_range (halpha : c.isAlpha = true) :
    65 ≤ c.toUpper.toNat ∧ c.toUpper.toNat ≤ 90 := by
  have hall : ∀ n : Fin 128, (Char.ofNat n).isAlpha = true →
      65 ≤ (Char.ofNat n).toUpper.toNat ∧ (Char.ofNat n).toUpper.toNat ≤ 90 := by decide
  have hc := hall ⟨c.toNat, h⟩
  rw [Char.ofNat_toNat] at hc
  exact hc halpha

end Character

/-! ## The remainder -/

/-- Only the remainder of the digits before matters. -/
theorem ofDigitChars_mod (digits : List Char) (start modulus : ℕ) :
    Nat.ofDigitChars 10 digits (start % modulus) % modulus =
      Nat.ofDigitChars 10 digits start % modulus := by
  have hstart : ∀ start, Nat.ofDigitChars 10 digits start =
      10 ^ digits.length * start + Nat.ofDigitChars 10 digits 0 :=
    fun start => Nat.ofDigitChars_eq_ofDigitChars_zero
  rw [hstart, hstart start]
  exact Nat.ModEq.add_right _ (Nat.ModEq.mul_left _ (Nat.mod_modEq start modulus))

theorem checkedU32_eq {value : ℕ} (h : value < 2 ^ 32) : checkedU32 value = some value := if_pos h

theorem checkedDifference_eq {left right : ℕ} (h : right ≤ left) :
    checkedDifference left right = some (left - right) := if_pos h

/-- One character continues the numeral, and stays in the range of `u32`. -/
theorem ibanRemainder_eq {c : Char} (hascii : c.toNat < 128) (halphanum : c.isAlphanum = true)
    {remainder : ℕ} (hremainder : remainder < 97) :
    ibanRemainder remainder (asciiByte c) =
      some (Nat.ofDigitChars 10 (expandLetter c) remainder % 97) := by
  unfold ibanRemainder expandLetter
  rw [isDigit_asciiByte hascii]
  by_cases hdigit : c.isDigit = true
  · have hrange := isDigit_iff.mp hdigit
    rw [if_pos hdigit, if_pos hdigit, toNat_asciiByte hascii, checkedDifference_eq hrange.1,
      checkedU32_eq (by omega)]
    show (checkedU32 (remainder * 10 + (c.toNat - 48)) >>= _) = _
    rw [checkedU32_eq (by omega), Nat.ofDigitChars_cons, Nat.ofDigitChars_nil, Nat.mul_comm 10]
    rfl
  · have halpha : c.isAlpha = true := by
      rw [Char.isAlphanum, Bool.or_eq_true] at halphanum
      exact halphanum.resolve_right hdigit
    have hrange := toUpper_range hascii halpha
    have hletter : 'A'.toNat = 65 := rfl
    have hlog : Nat.log 10 (c.toUpper.toNat - 65 + 10) = 1 :=
      (Nat.log_eq_iff (by simp)).mpr ⟨by omega, by omega⟩
    have hlength : (Nat.toDigits 10 (c.toUpper.toNat - 65 + 10)).length = 2 := by
      rw [length_toDigits, hlog]
    rw [if_neg hdigit, if_neg hdigit, toUppercase_asciiByte hascii, hletter,
      checkedDifference_eq hrange.1, Nat.ofDigitChars_eq_ofDigitChars_zero,
      Nat.ofDigitChars_toDigits (by decide) (by decide), hlength]
    show (checkedU32 (c.toUpper.toNat - 65 + 10) >>= _) = _
    rw [checkedU32_eq (by omega)]
    show (checkedU32 (remainder * 100) >>= _) = _
    rw [checkedU32_eq (by omega)]
    show (checkedU32 (remainder * 100 + (c.toUpper.toNat - 65 + 10)) >>= _) = _
    rw [checkedU32_eq (by omega), Nat.mul_comm (10 ^ 2)]
    rfl

theorem foldlM_ibanRemainder {chars : List Char} (hascii : IsAscii chars)
    (halphanum : chars.all Char.isAlphanum = true) :
    ∀ {remainder : ℕ}, remainder < 97 → (chars.map asciiByte).foldlM ibanRemainder remainder =
      some (Nat.ofDigitChars 10 (chars.flatMap expandLetter) remainder % 97) := by
  induction chars with
  | nil =>
      intro remainder hremainder
      simp [Nat.mod_eq_of_lt hremainder]
  | cons c chars ih =>
      intro remainder hremainder
      rw [List.all_cons, Bool.and_eq_true] at halphanum
      have hc := hascii c List.mem_cons_self
      have hrest : IsAscii chars := fun d hd => hascii d (List.mem_cons_of_mem _ hd)
      rw [List.map_cons, List.foldlM_cons, ibanRemainder_eq hc halphanum.1 hremainder,
        List.flatMap_cons, Nat.ofDigitChars_append]
      show List.foldlM _ _ _ = _
      rw [ih hrest halphanum.2 (Nat.mod_lt _ (by decide)), ofDigitChars_mod]

/-! ## The shape -/

/-- Where a character may stand. -/
def placed (position : ℕ) (c : Char) : Bool :=
  if position ≤ 1 then c.isAlpha else if position ≤ 3 then c.isDigit else c.isAlphanum

/-- Every character may stand where it does. -/
def AllPlaced : ℕ → List Char → Prop
  | _, [] => True
  | position, c :: chars => placed position c = true ∧ AllPlaced (position + 1) chars

theorem allPlaced_account {position : ℕ} (h : 4 ≤ position) {chars : List Char} :
    AllPlaced position chars ↔ chars.all Char.isAlphanum = true := by
  induction chars generalizing position with
  | nil => simp [AllPlaced]
  | cons c chars ih =>
      have hplaced : placed position c = c.isAlphanum := by
        rw [placed, if_neg (by omega), if_neg (by omega)]
      rw [AllPlaced, ih (by omega), hplaced, List.all_cons, Bool.and_eq_true]

theorem AllPlaced.alphanum {position : ℕ} {chars : List Char} (h : AllPlaced position chars) :
    chars.all Char.isAlphanum = true := by
  induction chars generalizing position with
  | nil => rfl
  | cons c chars ih =>
      have hc : c.isAlphanum = true := by
        have hplaced := h.1
        unfold placed at hplaced
        split at hplaced
        · rw [Char.isAlphanum, hplaced, Bool.true_or]
        · split at hplaced
          · rw [Char.isAlphanum, hplaced, Bool.or_true]
          · exact hplaced
      rw [List.all_cons, hc, ih h.2, Bool.true_and]

theorem ibanShape_iff {chars : List Char} :
    IbanShape chars ↔ AllPlaced 0 chars ∧ 15 ≤ chars.length ∧ chars.length ≤ 34 := by
  constructor
  · rintro ⟨hlong, hshort, hcountry, hcheck, haccount⟩
    refine ⟨?_, hlong, hshort⟩
    match chars, hlong with
    | a :: b :: c :: d :: rest, _ =>
        simp only [List.take, List.drop, List.all_cons, List.all_nil, Bool.and_true,
          Bool.and_eq_true] at hcountry hcheck haccount
        exact ⟨hcountry.1, hcountry.2, hcheck.1, hcheck.2, (allPlaced_account le_rfl).mpr haccount⟩
  · rintro ⟨hplaced, hlong, hshort⟩
    match chars, hlong with
    | a :: b :: c :: d :: rest, hlong =>
        obtain ⟨ha, hb, hc, hd, hrest⟩ := hplaced
        refine ⟨hlong, hshort, ?_, ?_, (allPlaced_account le_rfl).mp hrest⟩
        · show (a.isAlpha && (b.isAlpha && true)) = true
          rw [show a.isAlpha = true from ha, show b.isAlpha = true from hb]
          rfl
        · show (c.isDigit && (d.isDigit && true)) = true
          rw [show c.isDigit = true from hc, show d.isDigit = true from hd]
          rfl

/-- The detector counts the characters that may stand where they do. -/
theorem normalizedLength_eq_some {chars : List Char} (hascii : IsAscii chars) {start length : ℕ} :
    normalizedLength (chars.map asciiByte) start = some length ↔
      AllPlaced start (chars.filter fun c => !isAsciiWhitespace c) ∧
        length = start + (chars.filter fun c => !isAsciiWhitespace c).length := by
  induction chars generalizing start with
  | nil => simp [normalizedLength, AllPlaced, eq_comm]
  | cons c chars ih =>
      have hc := hascii c List.mem_cons_self
      have hrest : IsAscii chars := fun d hd => hascii d (List.mem_cons_of_mem _ hd)
      rw [List.map_cons, normalizedLength, isWhitespace_asciiByte hc, isAlphabetic_asciiByte hc,
        isDigit_asciiByte hc, isAlphanumeric_asciiByte hc]
      cases hspace : isAsciiWhitespace c with
      | true => simp [ih hrest, hspace]
      | false =>
          have hkept : (c :: chars).filter (fun c => !isAsciiWhitespace c) =
              c :: chars.filter fun c => !isAsciiWhitespace c := by simp [hspace]
          rw [hkept, AllPlaced, List.length_cons, if_neg (by decide)]
          dsimp only
          rw [show (if start ≤ 1 then c.isAlpha else if start ≤ 3 then c.isDigit
            else c.isAlphanum) = placed start c from rfl]
          cases placed start c with
          | true =>
              rw [if_pos rfl, ih hrest, Nat.add_assoc, Nat.add_comm 1]
              simp
          | false => simp

theorem filter_map_asciiByte {chars : List Char} (hascii : IsAscii chars) :
    (chars.map asciiByte).filter (fun byte => !AsciiByte.isWhitespace byte) =
      (chars.filter fun c => !isAsciiWhitespace c).map asciiByte := by
  rw [List.filter_map]
  congr 1
  apply List.filter_congr
  intro c hc
  rw [Function.comp_apply, isWhitespace_asciiByte (hascii c hc)]

/-- The detector of account numbers decides its definition, without overflow. -/
theorem validIban_eq (value : String) :
    ∃ result, validIban value = some result ∧ (result = true ↔ IsIban value) := by
  by_cases hascii : IsAscii value.toList
  swap
  · refine ⟨false, ?_, ?_⟩
    · unfold validIban
      rw [Bool.eq_false_iff.mpr (mt isAscii_iff.mp hascii)]
      rfl
    · simpa using fun h : IsIban value => hascii h.ascii
  have hkept : IsAscii (ibanChars value) := fun c hc => hascii c (List.mem_of_mem_filter hc)
  have hlength : ∀ length, normalizedLength (utf8Bytes value) 0 = some length ↔
      AllPlaced 0 (ibanChars value) ∧ length = 0 + (ibanChars value).length := by
    intro length
    rw [utf8Bytes_of_ascii hascii]
    exact normalizedLength_eq_some hascii
  unfold validIban
  rw [isAscii_iff.mpr hascii]
  cases hfound : normalizedLength (utf8Bytes value) 0 with
  | none =>
      refine ⟨false, rfl, ?_⟩
      have hnot : ¬IsIban value := by
        intro h
        have hsome := (hlength _).mpr ⟨(ibanShape_iff.mp h.shape).1, rfl⟩
        rw [hfound] at hsome
        cases hsome
      simp [hnot]
  | some length =>
      obtain ⟨hplaced, heq⟩ := (hlength length).mp hfound
      rw [Nat.zero_add] at heq
      by_cases hrange : 15 ≤ length ∧ length ≤ 34
      · have hshape : IbanShape (ibanChars value) :=
          ibanShape_iff.mpr ⟨hplaced, heq ▸ hrange.1, heq ▸ hrange.2⟩
        have hbytes : (utf8Bytes value).filter (fun byte => !AsciiByte.isWhitespace byte) =
            (ibanChars value).map asciiByte := by
          rw [utf8Bytes_of_ascii hascii, filter_map_asciiByte hascii]
          rfl
        -- the first four characters go to the end before the remainder is taken
        have hmoved : IsAscii ((ibanChars value).drop 4 ++ (ibanChars value).take 4) := by
          intro c hc
          rcases List.mem_append.mp hc with hc | hc
          · exact hkept c (List.mem_of_mem_drop hc)
          · exact hkept c (List.mem_of_mem_take hc)
        have halphanum : ((ibanChars value).drop 4 ++ (ibanChars value).take 4).all
            Char.isAlphanum = true := by
          rw [List.all_append, Bool.and_comm, ← List.all_append, List.take_append_drop]
          exact hplaced.alphanum
        have hfold := foldlM_ibanRemainder hmoved halphanum (show 0 < 97 by decide)
        refine ⟨decide (ibanNumeral (ibanChars value) % 97 = 1), ?_, ?_⟩
        · dsimp only
          rw [if_neg (by decide), if_neg (not_not.mpr hrange), hbytes, ← List.map_drop,
            ← List.map_take, ← List.map_append, hfold]
          rfl
        · rw [decide_eq_true_eq]
          exact ⟨fun h => ⟨hascii, hshape, h⟩, fun h => h.checksum⟩
      · refine ⟨false, ?_, ?_⟩
        · dsimp only
          rw [if_neg (by decide), if_pos hrange]
        · have hnot : ¬IsIban value := by
            intro h
            exact hrange ⟨heq ▸ h.shape.le_length, heq ▸ h.shape.length_le⟩
          simp [hnot]

/-! ## The sum -/

/-- The digits of a text, in its order. -/
def digitValues (chars : List Char) : List ℕ :=
  (chars.filter Char.isDigit).map fun c => c.toNat - 48

theorem luhnWeight_le {digit : ℕ} (h : digit ≤ 9) (position : ℕ) : luhnWeight digit position ≤ 9 := by
  unfold luhnWeight
  split <;> omega

/-- One digit adds its weight, and stays in the range of `u32`. -/
theorem luhnStep_digit {c : Char} (hdigit : c.isDigit = true) {sum position : ℕ}
    (hsum : sum + 9 < 2 ^ 32) :
    luhnStep (sum, decide (position % 2 = 1)) (asciiByte c) =
      some (sum + luhnWeight (c.toNat - 48) position, decide ((position + 1) % 2 = 1)) := by
  have hrange := isDigit_iff.mp hdigit
  have hascii : c.toNat < 128 := by omega
  have hparity : (!decide (position % 2 = 1)) = decide ((position + 1) % 2 = 1) := by
    rw [← decide_not, decide_eq_decide]
    omega
  unfold luhnStep
  rw [isDigit_asciiByte hascii, hdigit, toNat_asciiByte hascii, checkedDifference_eq hrange.1]
  dsimp only
  rw [hparity]
  simp only [Bool.not_true, Bool.false_eq_true, if_false, Option.bind_eq_bind, Option.bind_some,
    decide_eq_true_eq]
  by_cases hodd : position % 2 = 1
  · have heven : ¬position % 2 = 0 := by omega
    rw [if_pos hodd, checkedU32_eq (by omega), Option.bind_some]
    -- the digits of a double of two digits add up to nine less than it
    by_cases hcarry : 9 < (c.toNat - 48) * 2
    · have hweight : luhnWeight (c.toNat - 48) position = (c.toNat - 48) * 2 - 9 := by
        rw [luhnWeight, if_neg heven]
        omega
      rw [if_pos hcarry, checkedDifference_eq hcarry.le, Option.bind_some,
        checkedU32_eq (by omega), Option.bind_some, hweight]
    · have hweight : luhnWeight (c.toNat - 48) position = (c.toNat - 48) * 2 := by
        rw [luhnWeight, if_neg heven]
        omega
      rw [if_neg hcarry, checkedU32_eq (by omega), Option.bind_some, hweight]
  · have hweight : luhnWeight (c.toNat - 48) position = c.toNat - 48 := if_pos (by omega)
    rw [if_neg hodd, checkedU32_eq (by omega), Option.bind_some, hweight]

theorem luhnStep_other {c : Char} (hascii : c.toNat < 128) (hdigit : c.isDigit = false)
    (state : ℕ × Bool) : luhnStep state (asciiByte c) = some state := by
  unfold luhnStep
  rw [isDigit_asciiByte hascii, hdigit]
  rfl

/-- The sum over a text in the order in which the detector goes through it. -/
theorem foldlM_luhnStep {chars : List Char} (hascii : IsAscii chars) :
    ∀ {sum position : ℕ}, sum + 9 * (digitValues chars).length < 2 ^ 32 →
      ∃ double, (chars.map asciiByte).foldlM luhnStep (sum, decide (position % 2 = 1)) =
        some (sum + (((digitValues chars).zipIdx position).map fun (digit, position) =>
          luhnWeight digit position).sum, double) := by
  induction chars with
  | nil =>
      intro sum position _
      exact ⟨_, rfl⟩
  | cons c chars ih =>
      intro sum position hsum
      have hc := hascii c List.mem_cons_self
      have hrest : IsAscii chars := fun d hd => hascii d (List.mem_cons_of_mem _ hd)
      rw [List.map_cons, List.foldlM_cons]
      cases hdigit : c.isDigit with
      | true =>
          have hvalues : digitValues (c :: chars) = (c.toNat - 48) :: digitValues chars := by
            simp [digitValues, hdigit]
          rw [hvalues, List.length_cons] at hsum
          have hrange := isDigit_iff.mp hdigit
          have hweight := @luhnWeight_le (c.toNat - 48) (by omega) position
          obtain ⟨double, hfold⟩ := @ih hrest (sum + luhnWeight (c.toNat - 48) position)
            (position + 1) (by omega)
          refine ⟨double, ?_⟩
          rw [luhnStep_digit hdigit (by omega)]
          show List.foldlM _ _ _ = _
          rw [hfold, hvalues, List.zipIdx_cons, List.map_cons, List.sum_cons, Nat.add_assoc]
      | false =>
          have hvalues : digitValues (c :: chars) = digitValues chars := by
            simp [digitValues, hdigit]
          rw [hvalues] at hsum ⊢
          rw [luhnStep_other hc hdigit]
          exact ih hrest hsum

theorem luhnCharacters_iff {value : String} (hascii : IsAscii value.toList) :
    (utf8Bytes value).all (fun byte =>
        AsciiByte.isDigit byte || byte.toNat == 32 || byte.toNat == 45) = true ↔
      ∀ c ∈ value.toList, c.isDigit = true ∨ c = ' ' ∨ c = '-' := by
  rw [utf8Bytes_of_ascii hascii, List.all_map, List.all_eq_true]
  apply forall₂_congr
  intro c hc
  rw [Function.comp_apply, isDigit_asciiByte (hascii c hc), toNat_asciiByte (hascii c hc),
    Bool.or_eq_true, Bool.or_eq_true, beq_iff_eq, beq_iff_eq, or_assoc, ← Char.toNat_inj,
    ← Char.toNat_inj]
  rfl

/-- The detector of card numbers decides its definition, without overflow. -/
theorem luhnFiltered_eq (value : String) :
    ∃ result, luhnFiltered value = some result ∧ (result = true ↔ IsLuhn value) := by
  have hsize : (utf8Bytes value).length = value.utf8ByteSize := length_utf8Bytes value
  unfold luhnFiltered
  dsimp only
  rw [hsize]
  by_cases hsized : 13 ≤ value.utf8ByteSize ∧ value.utf8ByteSize ≤ 23
  swap
  · refine ⟨false, by rw [if_pos (.inl hsized)], ?_⟩
    simpa using fun h : IsLuhn value => hsized h.size
  by_cases hascii : IsAscii value.toList
  swap
  · refine ⟨false, ?_, ?_⟩
    · rw [Bool.eq_false_iff.mpr (mt isAscii_iff.mp hascii), if_pos (.inr rfl)]
    · have hnot : ¬IsLuhn value := by
        intro h
        apply hascii
        intro c hc
        rcases h.characters c hc with hdigit | rfl | rfl
        · have := isDigit_iff.mp hdigit
          omega
        · decide
        · decide
      simp [hnot]
  rw [if_neg (by simp [hsized, isAscii_iff.mpr hascii])]
  by_cases hcharacters : ∀ c ∈ value.toList, c.isDigit = true ∨ c = ' ' ∨ c = '-'
  swap
  · refine ⟨false, ?_, ?_⟩
    · rw [Bool.eq_false_iff.mpr (mt (luhnCharacters_iff hascii).mp hcharacters)]
      rfl
    · simpa using fun h : IsLuhn value => hcharacters h.characters
  rw [(luhnCharacters_iff hascii).mpr hcharacters, if_neg (by decide)]
  have hcount : (utf8Bytes value).countP AsciiByte.isDigit = (cardDigits value).length := by
    rw [utf8Bytes_of_ascii hascii, List.countP_map, cardDigits, ← List.countP_eq_length_filter]
    apply List.countP_congr
    intro c hc
    rw [Function.comp_apply, isDigit_asciiByte (hascii c hc)]
  rw [hcount]
  by_cases hdigits : 13 ≤ (cardDigits value).length ∧ (cardDigits value).length ≤ 19
  swap
  · refine ⟨false, by rw [if_pos hdigits], ?_⟩
    simpa using fun h : IsLuhn value => hdigits h.digits
  rw [if_neg (not_not.mpr hdigits)]
  have hreversed : IsAscii value.toList.reverse := fun c hc => hascii c (List.mem_reverse.mp hc)
  -- the source walks the bytes backwards: the last digit is not doubled, the one before it is
  have hvalues : digitValues value.toList.reverse =
      ((cardDigits value).map fun c => c.toNat - 48).reverse := by
    rw [digitValues, List.filter_reverse, List.map_reverse]
    rfl
  obtain ⟨double, hfold⟩ := @foldlM_luhnStep _ hreversed 0 0 (by
    rw [hvalues, List.length_reverse, List.length_map]
    omega)
  refine ⟨decide (luhnSum ((cardDigits value).map fun c => c.toNat - 48) % 10 = 0), ?_, ?_⟩
  · rw [utf8Bytes_of_ascii hascii, ← List.map_reverse]
    show (List.foldlM luhnStep (0, decide (0 % 2 = 1)) _).bind _ = _
    rw [hfold, hvalues, Nat.zero_add]
    rfl
  · rw [decide_eq_true_eq]
    exact ⟨fun h => ⟨hcharacters, hsized, hdigits, h⟩, fun h => h.checksum⟩

/-- **The checksum detectors equal their definitions.**  On every value both finish within the
range of their arithmetic, and each answers whether the value is of its kind. -/
theorem checksums_equal_definitions (value : String) :
    (∃ result, validIban value = some result ∧ (result = true ↔ IsIban value)) ∧
      ∃ result, luhnFiltered value = some result ∧ (result = true ↔ IsLuhn value) :=
  ⟨validIban_eq value, luhnFiltered_eq value⟩

example : validIban "GB82 WEST 1234 5698 7654 32" = some true := by decide +kernel

example : luhnFiltered "4111-1111-1111-1111" = some true := by decide +kernel

end ProofFrame
