import ProofFrame.Contract.Readers
import ProofFrame.Execution.Ratio
import ProofFrame.JsonReader

/-!
# Ratios against the bounds as written

A contract writes a ratio bound as a decimal number.  The number is rounded to a float when
the contract is read, and the ratio is then compared exactly with the float.  So a rule means
what is written wherever the ratio does not lie between the number and its float.
-/

namespace ProofFrame

open Lib Lib.Run Lib.Ieee754 JsonReader

/-! ## Numbers as written -/

/-- The rational a decimal number denotes. -/
def literalValue (text : String) : Option ℚ :=
  match text.toList with
  | '-' :: body => (Ieee.parseMagnitude body).map (-·)
  | body => Ieee.parseMagnitude body

section Literals

variable {chars : List Char} {text : String}

theorem toLower_of_isDigit {c : Char} (h : c.isDigit = true) : c.toLower = c := by
  have hrange := isDigit_iff.mp h
  have hdigits : ∀ n : Fin 58, (Char.ofNat n).isDigit = true →
      (Char.ofNat n).toLower = Char.ofNat n := by decide
  have hchar := hdigits ⟨c.toNat, by omega⟩
  rw [Char.ofNat_toNat] at hchar
  exact hchar h

/-- A number names neither a NaN nor an infinity. -/
theorem lower_ne_of_isMagnitude (h : isMagnitude chars = true) {first : Char} {name : List Char}
    (hfirst : first.isDigit = false) : chars.map Char.toLower ≠ first :: name := by
  obtain ⟨c, tail, rfl, hdigit⟩ := head_of_isMagnitude h
  rw [List.map_cons, toLower_of_isDigit hdigit]
  intro heq
  rw [(List.cons.inj heq).1, hfirst] at hdigit
  cases hdigit

/-- A number of JSON is read as the float nearest to it. -/
theorem parse_eq_of_literalValue (h : isNumber text.toList = true) {value : ℚ}
    (hvalue : literalValue text = some value) :
    ∃ zeroSign, (Ieee.parse text : Option F64) = some (Ieee.ofRat value zeroSign) := by
  unfold isNumber at h
  have hsigned := ((Bool.and_eq_true _ _).mp h).2
  unfold literalValue at hvalue
  unfold Ieee.parse
  split at hsigned
  · rename_i body hbody
    simp only [hbody] at hvalue ⊢
    obtain ⟨magnitude, hmagnitude, rfl⟩ := Option.map_eq_some_iff.mp hvalue
    have hname {first : Char} {name : List Char} (hfirst : first.isDigit = false) :=
      @lower_ne_of_isMagnitude _ hsigned first name hfirst
    exact ⟨true, by simp [hname, hmagnitude]⟩
  · rename_i hunsigned
    obtain ⟨c, tail, hbody, hdigit⟩ := head_of_isMagnitude hsigned
    have hname {first : Char} {name : List Char} (hfirst : first.isDigit = false) :=
      @lower_ne_of_isMagnitude _ hsigned first name hfirst
    rw [hbody] at hvalue hname ⊢
    have hminus : c ≠ '-' := by rintro rfl; cases hdigit
    have hplus : c ≠ '+' := by rintro rfl; cases hdigit
    exact ⟨false, by simp_all⟩

end Literals

/-- A ratio a contract may write as a bound. -/
structure RatioLiteral where
  text : String
  value : ℚ
  isNumber : isNumber text.toList = true
  denotes : literalValue text = some value
  nonneg : 0 ≤ value
  le_one : value ≤ 1

/-! ## The two ends of a range -/

/-- The end of a range a bound stands at. -/
inductive RatioEnd where
  | min
  | max

namespace RatioEnd

def name : RatioEnd → String
  | min => "min"
  | max => "max"

/-- The range with a bound at this end alone. -/
def range : RatioEnd → F64 → RatioRangeAst
  | min, bound => ⟨some bound, none⟩
  | max, bound => ⟨none, some bound⟩

/-- The bound leaves the ratio out. -/
def Excludes : RatioEnd → ℚ → ℚ → Prop
  | min, bound, ratio => ratio < bound
  | max, bound, ratio => bound < ratio

/-- One of two bounds leaves the ratio out and the other does not. -/
def Between : RatioEnd → ℚ → ℚ → ℚ → Prop
  | .min, bound, other, ratio => Min.min bound other ≤ ratio ∧ ratio < Max.max bound other
  | .max, bound, other, ratio => Min.min bound other < ratio ∧ ratio ≤ Max.max bound other

theorem excludes_iff_excludes (side : RatioEnd) (bound other ratio : ℚ) :
    (side.Excludes other ratio ↔ side.Excludes bound ratio) ↔ ¬side.Between bound other ratio := by
  cases side <;> rcases le_total bound other with h | h <;>
    simp only [Excludes, Between, min_eq_left, min_eq_right, max_eq_left, max_eq_right, h,
      not_and, not_lt, not_le] <;> grind

/-- A contract that states one bound is read as the range with its float. -/
theorem read_range (side : RatioEnd) {text : String} {bound : F64}
    (h : Ieee.parse text = some bound) :
    Reader.ratioRangeAst.read (.object [(side.name, .number text)]) = some (side.range bound) := by
  have hread : Reader.f64.read (.number text) = some bound := h
  have hfields : Serde.fields true ["min", "max"] (.object [(side.name, .number text)]) =
      some fun name => .ofMember (SortedMap.find name [(side.name, .number text)]) := by
    refine if_pos ⟨fun key _ => ?_, fun _ member hmember => ?_⟩
    · exact List.countP_le_length.trans_eq List.length_singleton
    · rw [List.mem_singleton.mp hmember]
      cases side <;> simp [name]
  refine Option.bind_eq_some_iff.mpr ⟨_, hfields, ?_⟩
  generalize hslots : (fun key => Serde.Slot.ofMember
    (SortedMap.find key [(side.name, Json.number text)])) = slots
  change ((Serde.optional Reader.f64.read (slots "min")).bind
    fun lower => some (RatioRangeAst.mk lower)).bind (fun build =>
      (Serde.optional Reader.f64.read (slots "max")).bind fun upper => some (build upper)) = _
  subst hslots
  cases side <;>
    simp [name, range, SortedMap.find, Serde.Slot.ofMember, Serde.optional, hread]

end RatioEnd

/-! ## The float of a bound -/

theorem nearestFloat_zero : nearestFloat 0 = 0 :=
  (represents_zero false).isDouble.2

theorem nearestFloat_one : nearestFloat 1 = 1 := toRat_one

theorem validateRatio_range {side : RatioEnd} {bound : F64} {path : String}
    (hvalid : ∀ name, ContractAstV2.validateRatioBound path (name, some bound) = .ok ()) :
    ContractAstV2.validateRatio (side.range bound) path = .ok () := by
  have hnone (name : String) : ContractAstV2.validateRatioBound path (name, none) = .ok () := rfl
  cases side
  · exact bind_eq_ok.mpr ⟨(), forM_eq_ok.mpr (by simp [RatioEnd.range, hvalid, hnone]), rfl⟩
  · exact bind_eq_ok.mpr ⟨(), forM_eq_ok.mpr (by simp [RatioEnd.range, hvalid, hnone]), rfl⟩

/-- Counts are compared with an admitted bound as rationals, whatever the sign of a zero. -/
theorem contains_range {side : RatioEnd} {bound : F64} {path : String}
    (hvalid : ∀ name, ContractAstV2.validateRatioBound path (name, some bound) = .ok ())
    (numerator : ℕ) {rows : ℕ} (hrows : 0 < rows) (hword : rows < 2 ^ 64) :
    (side.range bound).contains numerator rows = false ↔
      side.Excludes bound.toRat (numerator / rows) := by
  have hcompare : compareFractionToBound numerator rows bound =
      compare ((numerator : ℚ) / rows) bound.toRat := by
    by_cases hzero : bound = Ieee.zero true
    · -- negative zero is compared as zero, which has no smaller count
      have hpos : (0 : ℚ) < rows := by exact_mod_cast hrows
      rw [compareFractionToBound, if_neg hrows.ne', if_pos (by rw [hzero]; decide), hzero,
        (represents_zero true).toRat_eq]
      refine compare_congr ?_ ?_
      · exact iff_of_false (Nat.not_lt_zero _) (not_lt.mpr (by positivity))
      · rw [lt_div_iff₀ hpos, zero_mul, Nat.cast_pos]
    · exact (ratioBound_of_validate (hvalid "min") hzero).compareFractionToBound_eq_compare
        numerator hword
  cases side
  · simp [RatioEnd.range, RatioRangeAst.contains, hcompare, RatioEnd.Excludes, compare_lt_iff_lt]
  · simp [RatioEnd.range, RatioRangeAst.contains, hcompare, RatioEnd.Excludes, compare_gt_iff_gt]

namespace RatioLiteral

variable (literal : RatioLiteral)

/-- A literal is read as a float the contract admits, with the value of the nearest one. -/
theorem exists_bound : ∃ bound : F64, Ieee.parse literal.text = some bound ∧
    bound.toRat = nearestFloat literal.value ∧
    ∀ path name, ContractAstV2.validateRatioBound path (name, some bound) = .ok () := by
  obtain ⟨zeroSign, hparse⟩ := parse_eq_of_literalValue literal.isNumber literal.denotes
  have hvalue := toRat_ofRat literal.value zeroSign
  refine ⟨_, hparse, hvalue, fun path name => validateRatioBound_iff.mpr ⟨?_, ?_, ?_⟩⟩
  · refine isFinite_ofRat_of_le ?_
    rw [abs_of_nonneg literal.nonneg]
    exact literal.le_one.trans (by norm_num)
  · rw [hvalue, ← nearestFloat_zero]
    exact nearestFloat_mono literal.nonneg
  · rw [hvalue, ← nearestFloat_one]
    exact nearestFloat_mono literal.le_one

/-- A contract with the bound is admitted, and its ratio rules find a violation exactly where
the bound as written leaves the ratio out. -/
def InclusiveAt (literal : RatioLiteral) (side : RatioEnd) (numerator rows : ℕ) : Prop :=
  ∃ range, Reader.ratioRangeAst.read (.object [(side.name, .number literal.text)]) = some range ∧
    (∀ path, ContractAstV2.validateRatio range path = .ok ()) ∧
    (∀ plan : RatioPlan, plan.range = range →
      (nullRatioFindings rows plan numerator ≠ [] ↔
        side.Excludes literal.value (numerator / rows))) ∧
    ∀ (X : Type) (state : DistinctState X) (exactDistinct : ℕ), state.ratioRange = some range →
      numerator = exactDistinct + (if state.sawNull then 1 else 0) →
      ((∃ finding ∈ state.findings rows exactDistinct, finding.rule = "distinct_ratio") ↔
        side.Excludes literal.value (numerator / rows))

theorem inclusiveAt_iff_excludes (side : RatioEnd) {numerator rows : ℕ} (hrows : 0 < rows)
    (hword : rows < 2 ^ 64) :
    literal.InclusiveAt side numerator rows ↔
      (side.Excludes (nearestFloat literal.value) (numerator / rows) ↔
        side.Excludes literal.value (numerator / rows)) := by
  obtain ⟨bound, hparse, hvalue, hvalid⟩ := literal.exists_bound
  have hread := side.read_range hparse
  have hcontains := @contains_range side _ _ (hvalid "$") numerator _ hrows hword
  rw [hvalue] at hcontains
  have hnulls (plan : RatioPlan) (hplan : plan.range = side.range bound) :
      nullRatioFindings rows plan numerator ≠ [] ↔
        side.Excludes (nearestFloat literal.value) (numerator / rows) := by
    rw [ne_eq, nullRatioFindings_eq_nil, hplan, Bool.not_eq_true, hcontains]
  constructor
  · rintro ⟨range, hrange, -, hfindings, -⟩
    rw [hread, Option.some_inj] at hrange
    subst hrange
    rw [← hnulls ⟨0, "", _, .i64⟩ rfl]
    exact hfindings _ rfl
  · intro hagree
    refine ⟨_, hread, ?_, fun plan hplan => (hnulls plan hplan).trans hagree, ?_⟩
    · exact fun path => validateRatio_range (hvalid path)
    · rintro X state exactDistinct hrange rfl
      rw [state.exists_ratio_finding hrange, hcontains, hagree]

/-- A rule means what is written exactly where the ratio does not lie between the number and
the float nearest to it. -/
theorem inclusiveAt_iff (side : RatioEnd) {numerator rows : ℕ} (hrows : 0 < rows)
    (hword : rows < 2 ^ 64) :
    literal.InclusiveAt side numerator rows ↔
      ¬side.Between literal.value (nearestFloat literal.value) (numerator / rows) :=
  (literal.inclusiveAt_iff_excludes side hrows hword).trans
    (side.excludes_iff_excludes literal.value _ _)

/-- `0.3`. -/
def threeTenths : RatioLiteral where
  text := "0.3"
  value := 3 / 10
  isNumber := by decide
  denotes := by decide +kernel
  nonneg := by norm_num
  le_one := by norm_num

/-- `0.9`. -/
def nineTenths : RatioLiteral where
  text := "0.9"
  value := 9 / 10
  isNumber := by decide
  denotes := by decide +kernel
  nonneg := by norm_num
  le_one := by norm_num

theorem inclusiveAt_iff_tenths : threeTenths.InclusiveAt .max 3 10 ↔
    ¬RatioEnd.Between .max (3 / 10) (nearestFloat (3 / 10)) ((3 : ℕ) / (10 : ℕ)) :=
  threeTenths.inclusiveAt_iff .max (by norm_num) (by norm_num)

/-- Three tenths are rounded down and nine tenths up, past the counts they are to admit. -/
theorem not_inclusiveAt_tenths :
    ¬threeTenths.InclusiveAt .max 3 10 ∧ ¬nineTenths.InclusiveAt .min 9 10 := by
  have hdown : nearestFloat (3 / 10) < 3 / 10 := by decide +kernel
  have hup : 9 / 10 < nearestFloat (9 / 10) := by decide +kernel
  constructor
  · rw [inclusiveAt_iff_excludes _ _ (by norm_num) (by norm_num)]
    simpa [RatioEnd.Excludes, threeTenths] using hdown
  · rw [inclusiveAt_iff_excludes _ _ (by norm_num) (by norm_num)]
    simpa [RatioEnd.Excludes, nineTenths] using hup

end RatioLiteral

end ProofFrame
