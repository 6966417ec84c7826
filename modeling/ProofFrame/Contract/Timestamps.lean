import Mathlib.Algebra.Order.Floor.Ring
import Mathlib.Data.Rat.Floor
import Mathlib.Tactic.LinearCombination
import ProofFrame.Contract.Bounds
import ProofFrame.Lib.Steps

/-!
# Timestamp bounds

A timestamp bound names an instant, here counted in nanoseconds since the epoch.
The reader of RFC 3339 texts returns the second the instant lies in and the whole
nanoseconds past it.  The parser scales the second first, and the second of an
instant can lie outside the range of the ticks although the instant does not: the
last second before 1970 that `i64` nanoseconds reach is not a whole one.
-/

namespace ProofFrame

open Lib Lib.Run

/-- The nanoseconds of a tick. -/
def TimeUnit.precision (unit : TimeUnit) : ℕ := unit.ticks.2

/-- The ticks of a second. -/
def TimeUnit.scale (unit : TimeUnit) : ℤ := unit.ticks.1

/-- The instant is a whole number of ticks. -/
def TimeUnit.Counts (unit : TimeUnit) (instant : ℚ) (value : ℤ) : Prop :=
  (value : ℚ) * unit.precision = instant

section Chrono

variable [Crates]

/-- The text is no count of ticks, and names the instant: it is read as the second the instant lies
in and the whole nanoseconds past it. -/
structure NamesInstant (source : String) (instant : ℚ) : Prop where
  not_ticks : parseSigned 64 source = none
  read : Crates.parseRfc3339 source = some (⌊instant⌋ / 10 ^ 9, (⌊instant⌋ % 10 ^ 9).toNat)

/-- The bound of a text is the exact number of ticks of its instant, if there is one that fits. -/
def BoundsExactly (source : String) (instant : ℚ) (unit : TimeUnit) (path : String) : Prop :=
  ∀ bound, parseTimestamp source unit path = .ok bound ↔
    ∃ value, bound = .timestamp value unit ∧ unit.Counts instant value ∧ InSigned 64 value

end Chrono

/-- Where the whole nanoseconds are ticks that fit, either nothing was cut off and the whole second
fits as well, or something was cut off and it does not. -/
def TicksKept (instant : ℚ) (unit : TimeUnit) : Prop :=
  ∀ value : ℤ, value * unit.precision = ⌊instant⌋ → InSigned 64 value →
    (instant = ⌊instant⌋ ↔ -2 ^ 63 ≤ ⌊instant⌋ / 10 ^ 9 * unit.scale)

/-! ## Seconds and ticks -/

theorem TimeUnit.scale_mul_precision (unit : TimeUnit) :
    unit.scale * unit.precision = 10 ^ 9 := by
  cases unit <;> rfl

theorem TimeUnit.precision_pos (unit : TimeUnit) : (0 : ℤ) < unit.precision := by
  cases unit <;> decide

/-- The parts of a second in ticks: whole ticks if the nanoseconds are. -/
theorem ticks_eq_iff (unit : TimeUnit) (nanoseconds value : ℤ) :
    value * unit.precision = nanoseconds ↔
      (nanoseconds % 10 ^ 9) % unit.precision = 0 ∧
        value = nanoseconds / 10 ^ 9 * unit.scale + nanoseconds % 10 ^ 9 / unit.precision := by
  have hscale := unit.scale_mul_precision
  have hpos := unit.precision_pos
  have hsplit := Int.mul_ediv_add_emod nanoseconds (10 ^ 9)
  have hrest := Int.mul_ediv_add_emod (nanoseconds % 10 ^ 9) unit.precision
  generalize nanoseconds / 10 ^ 9 = seconds at *
  generalize nanoseconds % 10 ^ 9 = past at *
  generalize (unit.precision : ℤ) = precision at *
  constructor
  · intro h
    have hdvd : precision ∣ past := by
      refine ⟨value - seconds * unit.scale, ?_⟩
      linear_combination hsplit - h + seconds * hscale
    have hzero := Int.emod_eq_zero_of_dvd hdvd
    refine ⟨hzero, ?_⟩
    rw [hzero, add_zero] at hrest
    apply mul_right_cancel₀ hpos.ne'
    linear_combination h - hsplit - seconds * hscale - hrest
  · rintro ⟨hzero, rfl⟩
    rw [hzero, add_zero] at hrest
    linear_combination hsplit + seconds * hscale + hrest

/-! ## The parser -/

theorem checkedSigned_eq_some {bits : ℕ} {value checked : ℤ} :
    checkedSigned bits value = some checked ↔ InSigned bits value ∧ value = checked := by
  unfold checkedSigned
  split <;> simp_all

variable [Crates]

/-- What the parser accepts of a text that names an instant. -/
theorem parseTimestamp_eq_ok {source : String} {instant : ℚ} (h : NamesInstant source instant)
    (unit : TimeUnit) (path : String) (bound : TypedBound) :
    parseTimestamp source unit path = .ok bound ↔
      ∃ value : ℤ, bound = .timestamp value unit ∧ value * unit.precision = ⌊instant⌋ ∧
        InSigned 64 value ∧ -2 ^ 63 ≤ ⌊instant⌋ / 10 ^ 9 * unit.scale := by
  have hpast : ((⌊instant⌋ % 10 ^ 9).toNat : ℤ) = ⌊instant⌋ % 10 ^ 9 :=
    Int.toNat_of_nonneg (Int.emod_nonneg _ (by norm_num))
  have hticks := fun value => ticks_eq_iff unit ⌊instant⌋ value
  unfold parseTimestamp
  rw [h.not_ticks, h.read]
  simp only [hticks]
  rw [← hpast]
  generalize ⌊instant⌋ / 10 ^ 9 = seconds
  generalize (⌊instant⌋ % 10 ^ 9).toNat = past
  have hpos := unit.precision_pos
  show (rejectIf (past % unit.precision ≠ 0) _ >>= fun _ => required ((checkedSigned 64
    (seconds * unit.scale)).bind fun whole => checkedSigned 64 (whole + (past / unit.precision : ℕ)))
      _ >>= fun value => .ok (.timestamp value unit)) = .ok bound ↔ _
  generalize unit.precision = precision at *
  have hquotient : (0 : ℤ) ≤ (past / precision : ℕ) := Int.natCast_nonneg _
  constructor
  · intro h
    obtain ⟨_, hwhole, h⟩ := bind_eq_ok.mp h
    obtain ⟨value, hvalue, h⟩ := bind_eq_ok.mp h
    cases h
    have hzero : past % precision = 0 := not_not.mp (rejectIf_eq_ok.mp hwhole)
    obtain ⟨whole, hscaled, hadded⟩ := Option.bind_eq_some_iff.mp (required_eq_ok.mp hvalue)
    obtain ⟨hwholeFits, rfl⟩ := checkedSigned_eq_some.mp hscaled
    obtain ⟨hvalueFits, rfl⟩ := checkedSigned_eq_some.mp hadded
    refine ⟨_, rfl, ⟨?_, ?_⟩, hvalueFits, hwholeFits.1⟩
    · rw [← Int.natCast_mod, hzero, Int.natCast_zero]
    · rw [Int.natCast_div]
  · rintro ⟨value, rfl, ⟨hzero, rfl⟩, hvalue, hlow⟩
    have hzero : past % precision = 0 := by
      rw [← Int.natCast_mod] at hzero
      exact Int.natCast_eq_zero.mp hzero
    rw [← Int.natCast_div] at hvalue ⊢
    have hfits : InSigned 64 (seconds * unit.scale) := ⟨hlow, by
      have := hvalue.2
      omega⟩
    rw [rejectIf, if_neg (not_not.mpr hzero), ok_bind, checkedSigned, if_pos hfits, Option.bind_some,
      checkedSigned, if_pos hvalue]
    rfl

/-! ## Exactness -/

omit [Crates] in
theorem counts_iff_floor {unit : TimeUnit} {instant : ℚ} {value : ℤ} :
    unit.Counts instant value ↔ value * unit.precision = ⌊instant⌋ ∧ instant = ⌊instant⌋ := by
  unfold TimeUnit.Counts
  constructor
  · intro hvalue
    have hinteger : ((value * unit.precision : ℤ) : ℚ) = instant := by
      push_cast
      exact hvalue
    rw [← hinteger, Int.floor_intCast]
    exact ⟨rfl, rfl⟩
  · rintro ⟨hvalue, hinteger⟩
    rw [hinteger, ← hvalue]
    push_cast
    rfl

/-- **Timestamp bounds are exact where the second of the instant fits.**  The bound of a text is
the exact number of ticks of its instant, wherever there is one, if and only if the parser cuts
nothing off that is not a tick and the whole second is in the range of the ticks. -/
theorem boundsExactly_iff {source : String} {instant : ℚ} (h : NamesInstant source instant)
    (unit : TimeUnit) (path : String) :
    BoundsExactly source instant unit path ↔ TicksKept instant unit := by
  unfold BoundsExactly TicksKept
  simp only [parseTimestamp_eq_ok h, counts_iff_floor]
  constructor
  · intro hexact value hvalue hfits
    have hbound := hexact (.timestamp value unit)
    simp only [TypedBound.timestamp.injEq, and_true, exists_eq_left', hvalue, true_and] at hbound
    tauto
  · intro hkept bound
    apply exists_congr
    intro value
    have := hkept value
    tauto

/-- Crates that read the texts of two instants. -/
@[reducible] def Crates.twoInstants : Crates where
  __ := Crates.zeroDigests
  parseRfc3339 source :=
    if source = "1677-09-21T00:12:43.145224192Z" then some (-9223372037, 145224192)
    else if source = "1969-12-31T23:59:59.5Z" then some (-1, 500000000)
    else none

omit [Crates] in
/-- The first instant of the range of the nanoseconds is rejected. -/
theorem not_boundsExactly_first : let _ : Crates := Crates.twoInstants
    NamesInstant "1677-09-21T00:12:43.145224192Z" (-2 ^ 63) ∧
      ¬BoundsExactly "1677-09-21T00:12:43.145224192Z" (-2 ^ 63) .nanosecond "$" := by
  intro _
  refine ⟨⟨by decide +kernel, by decide +kernel⟩, ?_⟩
  intro hexact
  have hbound := (hexact (.timestamp (-2 ^ 63) .nanosecond)).mpr ⟨_, rfl, by
    norm_num [TimeUnit.Counts, TimeUnit.precision, TimeUnit.ticks], by decide⟩
  have hrejected : (parseTimestamp "1677-09-21T00:12:43.145224192Z" .nanosecond "$").isOk = false := by
    decide +kernel
  rw [hbound] at hrejected
  exact absurd hrejected (by decide)

omit [Crates] in
/-- Half a second before 1970. -/
theorem boundsExactly_iff_half : let _ : Crates := Crates.twoInstants
    TicksKept (-500000000) .millisecond ∧
      BoundsExactly "1969-12-31T23:59:59.5Z" (-500000000) .millisecond "$" := by
  intro _
  have hfloor : ⌊(-500000000 : ℚ)⌋ = -500000000 := by
    decide +kernel
  have hkept : TicksKept (-500000000) .millisecond := by
    intro value _ _
    rw [hfloor]
    norm_num [TimeUnit.scale, TimeUnit.ticks]
  exact ⟨hkept, (boundsExactly_iff ⟨by decide +kernel, by decide +kernel⟩ _ _).mpr hkept⟩

end ProofFrame
