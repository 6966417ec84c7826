import ProofFrame.Contract.Bounds
import ProofFrame.Lib.Digits
import ProofFrame.Lib.Steps

/-!
# Decimal bounds

A decimal bound is an exact rational.  It is accepted where the column can hold it:
where its value in units of the scale is an integer of few enough digits.
-/

namespace ProofFrame

open Lib Lib.Run Lib.Ieee754

/-! ## Literals -/

inductive DecimalSign : List Char → Bool → Prop
  | absent : DecimalSign [] false
  | plus : DecimalSign ['+'] false
  | minus : DecimalSign ['-'] true

inductive DecimalTail : List Char → List Char → Prop
  | absent : DecimalTail [] []
  | point {fraction : List Char} (digits : fraction.all Char.isDigit = true) :
      DecimalTail ('.' :: fraction) fraction

/-- `[+-]? digit+ ('.' digit*)?` -/
inductive DecimalText : List Char → Bool → List Char → List Char → Prop
  | intro {sign whole tail fraction : List Char} {negative : Bool}
      (sign_spelled : DecimalSign sign negative) (whole_ne : whole ≠ [])
      (whole_digits : whole.all Char.isDigit = true) (tail_spelled : DecimalTail tail fraction) :
      DecimalText (sign ++ whole ++ tail) negative whole fraction

/-- The magnitude the digits before and behind a decimal point spell. -/
def decimalUnsigned (whole fraction : List Char) : ℚ :=
  Nat.ofDigitChars 10 whole 0 + fractionOf fraction

/-- The rational a decimal literal denotes. -/
def DecimalLiteral (source : List Char) (value : ℚ) : Prop :=
  ∃ negative whole fraction, DecimalText source negative whole fraction ∧
    value = (if negative then -1 else 1) * decimalUnsigned whole fraction

theorem DecimalTail.fraction_digits {tail fraction : List Char} (h : DecimalTail tail fraction) :
    fraction.all Char.isDigit = true := by
  cases h with
  | absent => rfl
  | point digits => exact digits

theorem ne_of_isDigit {c d : Char} (hc : c.isDigit = true) (hd : d.isDigit = false) : c ≠ d := by
  rintro rfl
  rw [hc] at hd
  exact absurd hd (by decide)

/-! ## Reading -/

/-- The sign is one character, if there is one. -/
def decimalSign (source : List Char) : Bool × List Char :=
  match source with
  | '-' :: rest => (true, rest)
  | '+' :: rest => (false, rest)
  | _ => (false, source)

theorem splitDecimal_eq_some {chars whole fraction : List Char} :
    splitDecimal chars = some (whole, fraction) ↔
      whole ≠ [] ∧ whole.all Char.isDigit = true ∧
        ∃ tail, DecimalTail tail fraction ∧ chars = whole ++ tail := by
  rw [splitDecimal, List.span_eq_takeWhile_dropWhile]
  dsimp only
  constructor
  · intro h
    split at h
    · cases h
    rename_i hvalid
    obtain ⟨rfl, rfl⟩ : chars.takeWhile (· ≠ '.') = whole ∧
        (chars.dropWhile (· ≠ '.')).drop 1 = fraction := by simpa using h
    simp only [not_or, Bool.not_eq_true', Bool.not_eq_false] at hvalid
    refine ⟨hvalid.1, hvalid.2.1, chars.dropWhile (· ≠ '.'), ?_,
      List.takeWhile_append_dropWhile.symm⟩
    cases hrest : chars.dropWhile (· ≠ '.') with
    | nil => exact .absent
    | cons c rest =>
        have hhead := List.head?_dropWhile_not (fun d : Char => decide (d ≠ '.')) chars
        rw [hrest, List.head?_cons] at hhead
        obtain rfl : c = '.' := by simpa using hhead
        rw [hrest] at hvalid
        exact .point hvalid.2.2
  · rintro ⟨hne, hdigits, tail, htail, rfl⟩
    have hwhole : ∀ c ∈ whole, decide (c ≠ '.') = true := by
      intro c hc
      exact decide_eq_true (ne_of_isDigit (List.all_eq_true.mp hdigits c hc) (by decide))
    rw [List.takeWhile_append_of_pos hwhole, List.dropWhile_append_of_pos hwhole]
    cases htail with
    | absent => simp [hne, hdigits]
    | point digits => simp [hne, hdigits, digits]

theorem decimalSign_spelled (source : List Char) :
    ∃ sign, DecimalSign sign (decimalSign source).1 ∧ source = sign ++ (decimalSign source).2 := by
  unfold decimalSign
  split
  · exact ⟨_, .minus, rfl⟩
  · exact ⟨_, .plus, rfl⟩
  · exact ⟨_, .absent, rfl⟩

theorem decimalSign_append {sign : List Char} {negative : Bool} (hsign : DecimalSign sign negative)
    {c : Char} (hdigit : c.isDigit = true) (rest : List Char) :
    decimalSign (sign ++ c :: rest) = (negative, c :: rest) := by
  cases hsign with
  | plus => rfl
  | minus => rfl
  | absent =>
      rw [List.nil_append, decimalSign.eq_3]
      · rintro tail ⟨rfl, _⟩
        exact absurd hdigit (by decide)
      · rintro tail ⟨rfl, _⟩
        exact absurd hdigit (by decide)

/-- A text is read as the parts it is spelled of. -/
theorem decimalText_iff {source whole fraction : List Char} {negative : Bool} :
    DecimalText source negative whole fraction ↔
      (decimalSign source).1 = negative ∧
        splitDecimal (decimalSign source).2 = some (whole, fraction) := by
  constructor
  · rintro ⟨hsign, hne, hdigits, htail⟩
    rename_i sign tail
    have hsplit := splitDecimal_eq_some.mpr ⟨hne, hdigits, tail, htail, rfl⟩
    obtain ⟨c, rest, rfl⟩ := List.exists_cons_of_ne_nil hne
    have hdigit : c.isDigit = true := List.all_eq_true.mp hdigits c List.mem_cons_self
    have hread := decimalSign_append hsign hdigit (rest ++ tail)
    rw [List.append_assoc, List.cons_append, hread]
    exact ⟨rfl, hsplit⟩
  · rintro ⟨rfl, hsplit⟩
    obtain ⟨hne, hdigits, tail, htail, heq⟩ := splitDecimal_eq_some.mp hsplit
    obtain ⟨sign, hsign, hsource⟩ := decimalSign_spelled source
    have hspelled := DecimalText.intro hsign hne hdigits htail
    rwa [List.append_assoc, ← heq, ← hsource] at hspelled

/-! ## Guards -/

/-- The characters of a literal. -/
def isDecimalChar (c : Char) : Bool := c.isDigit || c = '.' || c = '+' || c = '-'

theorem DecimalText.chars {source whole fraction : List Char} {negative : Bool}
    (h : DecimalText source negative whole fraction) : source.all isDecimalChar = true := by
  obtain ⟨hsign, hne, hdigits, htail⟩ := h
  have hdigit : ∀ {digits : List Char}, digits.all Char.isDigit = true →
      digits.all isDecimalChar = true := by
    intro digits h
    rw [List.all_eq_true] at h ⊢
    intro c hc
    simp [isDecimalChar, h c hc]
  rw [List.all_append, List.all_append, hdigit hdigits, Bool.and_true, Bool.and_eq_true]
  refine ⟨?_, ?_⟩
  · cases hsign <;> rfl
  · cases htail with
    | absent => rfl
    | point digits =>
        rw [List.all_cons, hdigit digits]
        rfl

theorem not_isWhiteSpace {c : Char} (hc : isDecimalChar c = true) : isWhiteSpace c = false := by
  have hrange : 43 ≤ c.toNat ∧ c.toNat ≤ 57 := by
    simp only [isDecimalChar, Bool.or_eq_true, decide_eq_true_eq] at hc
    rcases hc with ((hdigit | rfl) | rfl) | rfl
    · have hdigit := isDigit_iff.mp hdigit
      omega
    · decide
    · decide
    · decide
  simp only [isWhiteSpace, Bool.or_eq_false_iff, decide_eq_false_iff_not, List.contains_eq_mem,
    List.mem_cons, List.not_mem_nil, or_false]
  omega

/-- A literal passes the first checks of the parser. -/
theorem DecimalText.plain {source whole fraction : List Char} {negative : Bool}
    (h : DecimalText source negative whole fraction) :
    ¬(source = [] ∨ hasOuterSpace source = true ∨ source.contains 'e' = true ∨
      source.contains 'E' = true) := by
  have hchars := List.all_eq_true.mp h.chars
  have hexponent : ∀ c, isDecimalChar c = false → source.contains c = false := by
    intro c hc
    rw [List.contains_eq_mem, decide_eq_false_iff_not]
    intro hmem
    rw [hchars c hmem] at hc
    exact absurd hc (by decide)
  have hspace : hasOuterSpace source = false := by
    rw [hasOuterSpace, Bool.or_eq_false_iff, Option.any_eq_false, Option.any_eq_false]
    refine ⟨fun c hc => ?_, fun c hc => ?_⟩
    · exact not_isWhiteSpace (hchars c (List.mem_of_head? hc))
    · exact not_isWhiteSpace (hchars c (List.mem_of_getLast? hc))
  have hne : source ≠ [] := by
    obtain ⟨hsign, hne, hdigits, htail⟩ := h
    simp [hne]
  rw [hspace, hexponent 'e' (by decide), hexponent 'E' (by decide)]
  simp [hne]

/-! ## Magnitudes -/

theorem parseI128_eq_some {digits : List Char} (hne : digits ≠ [])
    (hdigits : digits.all Char.isDigit = true) {value : ℤ} :
    parseI128 digits = some value ↔
      (Nat.ofDigitChars 10 digits 0 : ℤ) = value ∧ value < 2 ^ 127 := by
  have hparse : parseDigits digits = some (Nat.ofDigitChars 10 digits 0) := by
    rw [parseDigits, if_pos ⟨hne, hdigits⟩]
  rw [parseI128, hparse, Option.map_some, Option.bind_some, checkedSigned]
  split
  · rename_i hfits
    have hlt : (Nat.ofDigitChars 10 digits 0 : ℤ) < 2 ^ 127 := hfits.2
    simp only [Option.some.injEq, Int.ofNat_eq_natCast]
    exact ⟨fun h => ⟨h, h ▸ hlt⟩, And.left⟩
  · rename_i hfits
    refine iff_of_false (by simp) ?_
    rintro ⟨rfl, hlt⟩
    refine hfits ⟨?_, hlt⟩
    have hnonneg : (0 : ℤ) ≤ Nat.ofDigitChars 10 digits 0 := Int.natCast_nonneg _
    exact le_trans (by norm_num) hnonneg

/-- A count and a proper fraction make an integer if the fraction is nothing. -/
theorem natCast_add_eq_intCast {count : ℕ} {fraction : ℚ} (hlow : 0 ≤ fraction)
    (hhigh : fraction < 1) {value : ℤ} :
    (count : ℚ) + fraction = value ↔ fraction = 0 ∧ (count : ℤ) = value := by
  constructor
  · intro h
    have hlow' : ((count : ℤ) : ℚ) ≤ value := by
      rw [← h, Int.cast_natCast]
      linarith
    have hhigh' : (value : ℚ) < ((count + 1 : ℤ) : ℚ) := by
      rw [← h, Int.cast_add, Int.cast_natCast, Int.cast_one]
      linarith
    have heq : (count : ℤ) = value := by
      have hle := Int.cast_le.mp hlow'
      have hlt := Int.cast_lt.mp hhigh'
      omega
    refine ⟨?_, heq⟩
    rw [← heq, Int.cast_natCast] at h
    linarith
  · rintro ⟨hzero, rfl⟩
    rw [hzero, add_zero, Int.cast_natCast]

section Scale

variable {whole fraction : List Char}

/-- The digits that a scale keeps spell the integer part of the scaled magnitude. -/
theorem decimalUnsigned_mul_pow (scale : ℕ) :
    decimalUnsigned whole fraction * 10 ^ scale =
      Nat.ofDigitChars 10 (whole ++ fraction.take scale ++
        List.replicate (scale - (fraction.take scale).length) '0') 0 +
        fractionOf (fraction.drop scale) := by
  have hlength : (fraction.take scale).length + (scale - (fraction.take scale).length) = scale :=
    Nat.add_sub_cancel' (List.length_take_le _ _)
  have hdropped : fractionOf (fraction.drop scale) * 10 ^ (scale - (fraction.take scale).length) =
      fractionOf (fraction.drop scale) := by
    rcases le_total scale fraction.length with hle | hle
    · have hzero : scale - (fraction.take scale).length = 0 := by
        rw [List.length_take]
        omega
      rw [hzero, pow_zero, mul_one]
    · rw [List.drop_eq_nil_of_le hle]
      simp [fractionOf]
  have hkept := @fractionOf_append (fraction.take scale) (fraction.drop scale)
  rw [List.take_append_drop] at hkept
  rw [Nat.ofDigitChars_append, Nat.ofDigitChars_replicate_zero, ofDigitChars_append_zero,
    decimalUnsigned]
  push_cast
  generalize (fraction.take scale).length = kept at *
  generalize scale - kept = added at *
  calc ((Nat.ofDigitChars 10 whole 0 : ℚ) + fractionOf fraction) * 10 ^ scale
      = 10 ^ added * (10 ^ kept * Nat.ofDigitChars 10 whole 0 +
          fractionOf fraction * 10 ^ kept) := by
        rw [← hlength, pow_add]
        ring
    _ = 10 ^ added * (10 ^ kept * Nat.ofDigitChars 10 whole 0 +
          Nat.ofDigitChars 10 (fraction.take scale) 0) +
          fractionOf (fraction.drop scale) * 10 ^ added := by
        rw [hkept]
        ring
    _ = _ := by rw [hdropped]

theorem ten_zpow_of_neg {scale : ℤ} (h : scale < 0) : (10 : ℚ) ^ scale = (10 ^ scale.natAbs)⁻¹ := by
  have hneg : scale = -(scale.natAbs : ℤ) := by omega
  conv_lhs => rw [hneg, zpow_neg, zpow_natCast]

theorem power_fits {scale : ℤ} (hlow : -38 ≤ scale) (hhigh : scale ≤ 38) :
    InSigned 128 (10 ^ scale.natAbs) := by
  refine ⟨le_trans (by norm_num) (pow_nonneg (by norm_num) _), ?_⟩
  have hle : (10 : ℤ) ^ scale.natAbs ≤ 10 ^ 38 := pow_le_pow_right₀ (by norm_num) (by omega)
  exact hle.trans_lt (by norm_num)

/-- The bound on what the parser reads as one integer. -/
def DecimalFits (scale : ℤ) (magnitude : ℚ) : Prop :=
  if 0 ≤ scale then magnitude * 10 ^ scale < 2 ^ 127 else magnitude < 2 ^ 127

/-- A magnitude is found where the literal scales to an integer and can be read. -/
theorem decimalMagnitude_eq_ok (hne : whole ≠ []) (hwhole : whole.all Char.isDigit = true)
    (hfraction : fraction.all Char.isDigit = true) {scale : ℤ} (hscale : -38 ≤ scale)
    {magnitude : ℤ} :
    decimalMagnitude whole fraction scale = .ok magnitude ↔
      decimalUnsigned whole fraction * 10 ^ scale = magnitude ∧
        DecimalFits scale (decimalUnsigned whole fraction) := by
  rw [DecimalFits]
  by_cases hnonneg : 0 ≤ scale
  · obtain ⟨scale, rfl⟩ := Int.eq_ofNat_of_zero_le hnonneg
    -- the digits within the scale are shifted into the integer; those beyond it have to be zero
    have hdropped : (fraction.drop scale).all Char.isDigit = true :=
      List.all_eq_true.mpr fun c hc => List.all_eq_true.mp hfraction c (List.mem_of_mem_drop hc)
    have hkept : (whole ++ fraction.take scale ++
        List.replicate (scale - (fraction.take scale).length) '0').all Char.isDigit = true := by
      rw [List.all_append, List.all_append, hwhole, Bool.true_and, Bool.and_eq_true]
      refine ⟨List.all_eq_true.mpr fun c hc =>
        List.all_eq_true.mp hfraction c (List.mem_of_mem_take hc), ?_⟩
      simp
    rw [decimalMagnitude, if_pos hnonneg, if_pos hnonneg, Int.toNat_natCast, zpow_natCast,
      decimalUnsigned_mul_pow, natCast_add_eq_intCast (fractionOf_nonneg _)
        (fractionOf_lt_one hdropped), fractionOf_eq_zero hdropped]
    dsimp only
    cases hany : (fraction.drop scale).any (· ≠ '0') with
    | true => simp
    | false =>
        have hzero := (fractionOf_eq_zero hdropped).mpr hany
        rw [if_neg (by decide), required_eq_ok, parseI128_eq_some (by simp [hne]) hkept, hzero,
          add_zero]
        simp only [true_and]
        refine and_congr_right ?_
        rintro rfl
        norm_cast
  -- a negative scale divides, and the division has to be exact
  · have hpow := ten_zpow_of_neg (not_le.mp hnonneg)
    have hscaled : decimalUnsigned whole fraction * (10 ^ scale.natAbs)⁻¹ = (magnitude : ℚ) ↔
        decimalUnsigned whole fraction = ((magnitude * 10 ^ scale.natAbs : ℤ) : ℚ) := by
      rw [← div_eq_mul_inv, div_eq_iff (by positivity)]
      push_cast
      exact Iff.rfl
    have hdivisor : checkedSigned 128 (10 ^ scale.natAbs) = some (10 ^ scale.natAbs) :=
      if_pos (power_fits hscale (by omega))
    rw [decimalMagnitude, if_neg hnonneg, if_neg hnonneg, hpow, hscaled, decimalUnsigned,
      natCast_add_eq_intCast (fractionOf_nonneg _) (fractionOf_lt_one hfraction),
      fractionOf_eq_zero hfraction]
    cases hany : fraction.any (· ≠ '0') with
    | true => simp [Run.rejectIf, bind, Except.bind]
    | false =>
        have hzero := (fractionOf_eq_zero hfraction).mpr hany
        rw [hzero, add_zero, hdivisor]
        simp only [bind_eq_ok, rejectIf_eq_ok, required_eq_ok, parseI128_eq_some hne hwhole,
          Bool.false_eq_true, not_false_eq_true, exists_const, true_and, Option.some.injEq,
          Decidable.not_not]
        constructor
        · rintro ⟨_, ⟨rfl, hlt⟩, _, rfl, hdvd, hquotient⟩
          refine ⟨?_, by exact_mod_cast hlt⟩
          rw [← Except.ok.inj hquotient]
          exact (Int.ediv_mul_cancel (Int.dvd_of_emod_eq_zero hdvd)).symm
        · rintro ⟨hvalue, hlt⟩
          refine ⟨_, ⟨rfl, by exact_mod_cast hlt⟩, _, rfl, ?_, ?_⟩
          · rw [hvalue, Int.mul_emod_left]
          · rw [hvalue, Int.mul_ediv_cancel _ (by positivity)]

end Scale

theorem parseDecimalChars_eq_ok {source : List Char} {precision : ℕ} {scale value : ℤ} :
    parseDecimalChars source precision scale = .ok value ↔
      ∃ negative whole fraction magnitude, DecimalText source negative whole fraction ∧
        decimalMagnitude whole fraction scale = .ok magnitude ∧
        value = (if negative then -magnitude else magnitude) ∧
        decimalDigits value ≤ precision := by
  have hsteps : parseDecimalChars source precision scale = .ok value ↔
      ¬(source = [] ∨ hasOuterSpace source = true ∨ source.contains 'e' = true ∨
        source.contains 'E' = true) ∧ (decimalSign source).2 ≠ [] ∧
      ∃ parts, splitDecimal (decimalSign source).2 = some parts ∧
        ∃ magnitude, decimalMagnitude parts.1 parts.2 scale = .ok magnitude ∧
          ¬decimalDigits (if (decimalSign source).1 then -magnitude else magnitude) > precision ∧
          (if (decimalSign source).1 then -magnitude else magnitude) = value := by
    unfold parseDecimalChars
    simp only [bind_eq_ok, rejectIf_eq_ok, required_eq_ok, exists_const, Except.ok.injEq]
    exact Iff.rfl
  rw [hsteps]
  constructor
  · rintro ⟨-, -, ⟨whole, fraction⟩, hsplit, magnitude, hmagnitude, hdigits, rfl⟩
    exact ⟨_, whole, fraction, magnitude, decimalText_iff.mpr ⟨rfl, hsplit⟩, hmagnitude, rfl,
      not_lt.mp hdigits⟩
  · rintro ⟨negative, whole, fraction, magnitude, htext, hmagnitude, rfl, hdigits⟩
    obtain ⟨rfl, hsplit⟩ := decimalText_iff.mp htext
    refine ⟨htext.plain, ?_, ⟨whole, fraction⟩, hsplit, magnitude, hmagnitude, not_lt.mpr hdigits,
      rfl⟩
    intro hnil
    have hnone : splitDecimal [] = none := rfl
    rw [hnil, hnone] at hsplit
    cases hsplit

theorem DecimalText.digits {source whole fraction : List Char} {negative : Bool}
    (h : DecimalText source negative whole fraction) :
    whole ≠ [] ∧ whole.all Char.isDigit = true ∧ fraction.all Char.isDigit = true := by
  obtain ⟨_, hne, hdigits, htail⟩ := h
  exact ⟨hne, hdigits, htail.fraction_digits⟩

theorem decimalUnsigned_nonneg (whole fraction : List Char) :
    0 ≤ decimalUnsigned whole fraction := by
  have hfraction := fractionOf_nonneg fraction
  unfold decimalUnsigned
  positivity

theorem abs_sign_mul (negative : Bool) (value : ℚ) :
    |(if negative then -1 else 1) * value| = |value| := by
  cases negative <;> simp

/-! ## Exactness -/

/-- A string is accepted exactly where the column holds the number it denotes. -/
structure ParsesExactly (source : String) (precision : ℕ) (scale : ℤ) : Prop where
  parsed : ∀ path value, parseDecimal source precision scale path = .ok value ↔
    ∃ literal, DecimalLiteral source.toList literal ∧ literal * 10 ^ scale = value ∧
      (Nat.toDigits 10 value.natAbs).length ≤ precision
  power_fits : InSigned 128 (10 ^ scale.natAbs)
  negation_fits : ∀ whole fraction magnitude,
    splitDecimal (decimalSign source.toList).2 = some (whole, fraction) →
      decimalMagnitude whole fraction scale = .ok magnitude → InSigned 128 (-magnitude)

/-- A multiple of the power of ten under a negative scale that the column holds, but that
is too large to be read before it is divided. -/
def OversizedMultiple (source : String) (precision : ℕ) (scale : ℤ) : Prop :=
  scale < 0 ∧ ∃ literal, DecimalLiteral source.toList literal ∧ 2 ^ 127 ≤ |literal| ∧
    |literal| < 10 ^ (precision + scale.natAbs) ∧ ∃ count : ℤ, literal = count * 10 ^ scale.natAbs

theorem parseDecimal_eq_ok {source path : String} {precision : ℕ} {scale value : ℤ} :
    parseDecimal source precision scale path = .ok value ↔
      parseDecimalChars source.toList precision scale = .ok value := by
  rw [parseDecimal]
  split <;> simp [*]

theorem negation_fits {whole fraction : List Char} (hne : whole ≠ [])
    (hwhole : whole.all Char.isDigit = true) (hfraction : fraction.all Char.isDigit = true)
    {scale : ℤ} (hscale : -38 ≤ scale) {magnitude : ℤ}
    (h : decimalMagnitude whole fraction scale = .ok magnitude) : InSigned 128 (-magnitude) := by
  obtain ⟨hvalue, hfits⟩ := (decimalMagnitude_eq_ok hne hwhole hfraction hscale).mp h
  have hunsigned := decimalUnsigned_nonneg whole fraction
  have hnonneg : (0 : ℚ) ≤ magnitude := by
    rw [← hvalue]
    exact mul_nonneg hunsigned (zpow_nonneg (by norm_num) _)
  have hlt : (magnitude : ℚ) < 2 ^ 127 := by
    rw [← hvalue]
    rw [DecimalFits] at hfits
    by_cases hscale : 0 ≤ scale
    · rwa [if_pos hscale] at hfits
    · rw [if_neg hscale] at hfits
      refine lt_of_le_of_lt ?_ hfits
      exact mul_le_of_le_one_right hunsigned (zpow_le_one_of_nonpos₀ (by norm_num) (by omega))
  have hnonneg' : 0 ≤ magnitude := by exact_mod_cast hnonneg
  have hlt' : magnitude < 2 ^ 127 := by exact_mod_cast hlt
  exact ⟨by norm_num; omega, lt_of_le_of_lt (by omega) (by norm_num : (0 : ℤ) < 2 ^ 127)⟩

theorem decimalDigits_eq (value : ℤ) :
    decimalDigits value = (Nat.toDigits 10 value.natAbs).length := (length_toDigits _).symm

/-- What is parsed is the scaled literal. -/
theorem literal_of_parsed {source : List Char} {precision : ℕ} {scale value : ℤ}
    (hscale : -38 ≤ scale) (h : parseDecimalChars source precision scale = .ok value) :
    ∃ literal, DecimalLiteral source literal ∧ literal * 10 ^ scale = value ∧
      (Nat.toDigits 10 value.natAbs).length ≤ precision ∧ DecimalFits scale |literal| := by
  obtain ⟨negative, whole, fraction, magnitude, htext, hmagnitude, rfl, hdigits⟩ :=
    parseDecimalChars_eq_ok.mp h
  obtain ⟨hne, hwhole, hfraction⟩ := htext.digits
  obtain ⟨hvalue, hfits⟩ := (decimalMagnitude_eq_ok hne hwhole hfraction hscale).mp hmagnitude
  refine ⟨_, ⟨negative, whole, fraction, htext, rfl⟩, ?_, decimalDigits_eq _ ▸ hdigits, ?_⟩
  · rw [mul_assoc, hvalue]
    cases negative <;> simp
  · rwa [abs_sign_mul, abs_of_nonneg (decimalUnsigned_nonneg _ _)]

/-- A scaled literal that can be read is parsed. -/
theorem parsed_of_literal {source : List Char} {precision : ℕ} {scale value : ℤ} {literal : ℚ}
    (hscale : -38 ≤ scale) (hliteral : DecimalLiteral source literal)
    (hvalue : literal * 10 ^ scale = value)
    (hdigits : (Nat.toDigits 10 value.natAbs).length ≤ precision)
    (hfits : DecimalFits scale |literal|) :
    parseDecimalChars source precision scale = .ok value := by
  obtain ⟨negative, whole, fraction, htext, rfl⟩ := hliteral
  obtain ⟨hne, hwhole, hfraction⟩ := htext.digits
  rw [abs_sign_mul, abs_of_nonneg (decimalUnsigned_nonneg _ _)] at hfits
  refine parseDecimalChars_eq_ok.mpr ⟨negative, whole, fraction,
    if negative then -value else value, htext, ?_, ?_, decimalDigits_eq _ ▸ hdigits⟩
  · refine (decimalMagnitude_eq_ok hne hwhole hfraction hscale).mpr ⟨?_, hfits⟩
    cases negative with
    | true =>
        rw [if_pos rfl, Int.cast_neg, ← hvalue, if_pos rfl]
        ring
    | false =>
        rw [if_neg (by decide), ← hvalue, if_neg (by decide)]
        ring
  · cases negative <;> simp

theorem digits_of_natAbs_lt {value : ℤ} {precision : ℕ} (h : |(value : ℚ)| < 10 ^ precision)
    (hne : value ≠ 0) : (Nat.toDigits 10 value.natAbs).length ≤ precision := by
  rw [← Int.cast_abs, Int.abs_eq_natAbs, Int.cast_natCast] at h
  have hlt : value.natAbs < 10 ^ precision := by exact_mod_cast h
  have hpos : 0 < precision := by
    by_contra hzero
    rw [Nat.eq_zero_of_not_pos hzero, pow_zero] at hlt
    omega
  exact (Nat.length_toDigits_le_iff (by decide) hpos).mpr hlt

theorem natAbs_lt_of_digits {value : ℤ} {precision : ℕ}
    (h : (Nat.toDigits 10 value.natAbs).length ≤ precision) : |(value : ℚ)| < 10 ^ precision := by
  have hpos : 0 < precision := Nat.length_toDigits_pos.trans_le h
  rw [Nat.length_toDigits_le_iff (by decide) hpos] at h
  rw [← Int.cast_abs, Int.abs_eq_natAbs, Int.cast_natCast]
  exact_mod_cast h

/-- Decimal literals are parsed exactly, but for the multiples of a power of ten that are
read before they are divided. -/
theorem parsesExactly_iff {source : String} {precision : ℕ} {scale : ℤ} (hprecision : precision ≤ 38)
    (hlow : -38 ≤ scale) (hhigh : scale ≤ 38) :
    ParsesExactly source precision scale ↔ ¬OversizedMultiple source precision scale := by
  constructor
  -- the multiple is read before it is divided, and it does not fit where the quotient would
  · rintro hexact ⟨hneg, _, hliteral, hlarge, hsmall, count, rfl⟩
    have hscaled : (count : ℚ) * 10 ^ scale.natAbs * 10 ^ scale = count := by
      rw [ten_zpow_of_neg hneg, mul_assoc, mul_inv_cancel₀ (by positivity), mul_one]
    have hcount : |(count : ℚ)| < 10 ^ precision := by
      rw [abs_mul, abs_of_pos (by positivity : (0 : ℚ) < 10 ^ scale.natAbs), pow_add] at hsmall
      exact lt_of_mul_lt_mul_right hsmall (by positivity)
    have hparsed := parseDecimal_eq_ok.mp ((hexact.parsed "$" count).mpr
      ⟨_, hliteral, hscaled, digits_of_natAbs_lt hcount ?_⟩)
    · obtain ⟨literal, -, hvalue, -, hfits⟩ := literal_of_parsed hlow hparsed
      rw [← hscaled] at hvalue
      rw [mul_right_cancel₀ (zpow_ne_zero _ (by norm_num)) hvalue, DecimalFits,
        if_neg (not_le.mpr hneg)] at hfits
      exact absurd hlarge (not_le.mpr hfits)
    · rintro rfl
      norm_num at hlarge
  · intro hfits
    refine ⟨fun path value => ?_, power_fits hlow hhigh, ?_⟩
    · rw [parseDecimal_eq_ok]
      constructor
      · intro hparsed
        obtain ⟨literal, hliteral, hvalue, hdigits, -⟩ := literal_of_parsed hlow hparsed
        exact ⟨literal, hliteral, hvalue, hdigits⟩
      · rintro ⟨literal, hliteral, hvalue, hdigits⟩
        refine parsed_of_literal hlow hliteral hvalue hdigits ?_
        have hbound := natAbs_lt_of_digits hdigits
        rw [DecimalFits]
        split
        · have hpos : (0 : ℚ) < 10 ^ scale := zpow_pos (by norm_num) _
          have hle : (10 : ℚ) ^ precision ≤ 10 ^ 38 :=
            pow_le_pow_right₀ (by norm_num) hprecision
          calc |literal| * 10 ^ scale = |literal * 10 ^ scale| := by
                rw [abs_mul, abs_of_pos hpos]
            _ = |(value : ℚ)| := by rw [hvalue]
            _ < 10 ^ precision := hbound
            _ ≤ 10 ^ 38 := hle
            _ < 2 ^ 127 := by norm_num
        · rename_i hneg
          have hmultiple : literal = value * 10 ^ scale.natAbs := by
            rw [← hvalue, ten_zpow_of_neg (not_le.mp hneg), mul_assoc,
              inv_mul_cancel₀ (by positivity), mul_one]
          by_contra hlarge
          refine hfits ⟨not_le.mp hneg, literal, hliteral, not_lt.mp hlarge, ?_, value, hmultiple⟩
          rw [hmultiple, abs_mul, abs_of_pos (by positivity : (0 : ℚ) < 10 ^ scale.natAbs), pow_add]
          gcongr
    · intro whole fraction magnitude hsplit hmagnitude
      obtain ⟨hne, hwhole, tail, htail, -⟩ := splitDecimal_eq_some.mp hsplit
      exact negation_fits hne hwhole htail.fraction_digits hlow hmagnitude

/-- One followed by 39 zeros. -/
def tenTo39 : String := "1000000000000000000000000000000000000000"

theorem tenTo39_literal : DecimalLiteral tenTo39.toList (10 * 10 ^ 38) := by
  refine ⟨false, tenTo39.toList, [], decimalText_iff.mpr ⟨rfl, by decide⟩, ?_⟩
  have hdigits : Nat.ofDigitChars 10 tenTo39.toList 0 = 10 ^ 39 := by decide
  rw [decimalUnsigned, hdigits, fractionOf]
  norm_num

/-- The column holds ten, but the literal is refused. -/
theorem tenTo39_refused : ¬ParsesExactly tenTo39 38 (-38) := by
  intro h
  have hscaled : (10 * 10 ^ 38 : ℚ) * 10 ^ (-38 : ℤ) = (10 : ℤ) := by norm_num
  have hparsed := (h.parsed "$" 10).mpr ⟨_, tenTo39_literal, hscaled, by decide⟩
  have hrefused : parseDecimalChars tenTo39.toList 38 (-38) =
      .error "decimal magnitude exceeds i128" := by decide
  rw [parseDecimal, hrefused] at hparsed
  cases hparsed

theorem parsesExactly_iff_tenTo39 :
    ParsesExactly tenTo39 38 (-38) ↔ ¬OversizedMultiple tenTo39 38 (-38) :=
  parsesExactly_iff (by decide) (by decide) (by decide)

end ProofFrame
