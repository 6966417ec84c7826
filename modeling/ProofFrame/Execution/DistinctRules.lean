import ProofFrame.Contract.CompileContract
import ProofFrame.Encoding.Keys
import ProofFrame.Execution.ColumnRuns
import ProofFrame.Execution.Predicates
import ProofFrame.Execution.Ratio

/-!
# What the distinct rules count

A distinct rule collects the values of its column in an exact state and remembers
whether it saw a null.  At the end it compares one more than the values it
collected where there was one, so it counts the values of a column with nulls
exactly only where its ranges do not see the difference.
-/

namespace ProofFrame

open Lib Lib.Run Lib.Ieee754 Distinct

/-! ## Exact values -/

theorem ofNat_injective {a b : ℕ} (ha : a < 2 ^ 64) (hb : b < 2 ^ 64)
    (h : UInt64.ofNat a = UInt64.ofNat b) : a = b := by
  rw [← UInt64.toNat_ofNat_of_lt' ha, ← UInt64.toNat_ofNat_of_lt' hb, h]

theorem ofInt_injective {bits : ℕ} (hbits : bits ≤ 64) {a b : ℤ} (ha : InSigned bits a)
    (hb : InSigned bits b) (h : Int64.ofInt a = Int64.ofInt b) : a = b := by
  have hpow : (2 : ℤ) ^ (bits - 1) ≤ 2 ^ 63 := by
    gcongr
    · norm_num
    · omega
  obtain ⟨ha, ha'⟩ := ha
  obtain ⟨hb, hb'⟩ := hb
  have hinverse : ∀ v : ℤ, -2 ^ (bits - 1) ≤ v → v < 2 ^ (bits - 1) → (Int64.ofInt v).toInt = v := by
    intro v hlow hhigh
    exact Int64.toInt_ofInt_of_le (by omega) (by omega)
  rw [← hinverse a ha ha', ← hinverse b hb hb', h]

/-- Within one type, an exact state tells two values apart. -/
theorem exactValue_injective {dataType : DataType} {a b : Scalar}
    (ha : dataType.AdmitsScalar a) (hb : dataType.AdmitsScalar b)
    (h : a.exactValue = b.exactValue) : a = b := by
  cases dataType with
  | int8 | int16 | int32 | int64 | date32 | date64 | timestamp =>
      cases a <;> first | exact absurd ha id | skip
      cases b <;> first | exact absurd hb id | skip
      rw [ofInt_injective (by decide) ha hb (OwnedValue.i64.inj h)]
  | decimal128 precision scale =>
      cases a <;> first | exact absurd ha id | skip
      cases b <;> first | exact absurd hb id | skip
      rw [signedLe_injective (OwnedValue.bytes.inj h) (by decide) ha hb]
  | uint8 | uint16 | uint32 | uint64 =>
      cases a <;> first | exact absurd ha id | skip
      cases b <;> first | exact absurd hb id | skip
      rw [ofNat_injective (ha.trans_le (by norm_num)) (hb.trans_le (by norm_num))
        (OwnedValue.u64.inj h)]
  | float32 | float64 =>
      cases a <;> first | exact absurd ha id | skip
      cases b <;> first | exact absurd hb id | skip
      rw [toBits_injective (ofNat_injective ((toBits_lt _).trans_le (by norm_num))
        ((toBits_lt _).trans_le (by norm_num)) (OwnedValue.f64.inj h))]
  | boolean =>
      cases a <;> first | exact absurd ha id | skip
      cases b <;> first | exact absurd hb id | skip
      rename_i v w
      revert h
      cases v <;> cases w <;> decide
  | utf8 | largeUtf8 | utf8View =>
      cases a <;> first | exact absurd ha id | skip
      cases b <;> first | exact absurd hb id | skip
      rw [utf8Bytes_injective (OwnedValue.bytes.inj h)]
  | binary | largeBinary | binaryView =>
      cases a <;> first | exact absurd ha id | skip
      cases b <;> first | exact absurd hb id | skip
      rw [OwnedValue.bytes.inj h]
  | _ => cases a <;> exact absurd ha id

/-- How many values a column has, nulls apart. -/
def distinctValues (values : List (Option Scalar)) : ℕ := values.reduceOption.toFinset.card

/-! ## Ranges -/

/-- A count is inside its range. -/
def CountRangeAst.Holds (range : CountRangeAst) (count : ℕ) : Prop :=
  (∀ exact ∈ range.exact, count = exact) ∧ (∀ min ∈ range.min, min ≤ count) ∧
    ∀ max ∈ range.max, count ≤ max

theorem CountRangeAst.contains_iff {range : CountRangeAst} {count : ℕ} :
    range.contains count = true ↔ range.Holds count := by
  simp [contains, Holds, Option.all_eq_true, and_assoc]

instance {range : CountRangeAst} {count : ℕ} : Decidable (range.Holds count) :=
  decidable_of_iff _ CountRangeAst.contains_iff

theorem toRat_negativeZero : (Ieee.zero true : F64).toRat = 0 := by simp [Ieee.toRat, Ieee.zero]

/-- A ratio of rows is compared with negative zero as with zero; a ratio of no rows is above it. -/
theorem compareFractionToBound_negativeZero (numerator denominator : ℕ) :
    compareFractionToBound numerator denominator (Ieee.zero true) =
      if denominator = 0 then .gt else compare ((numerator : ℚ) / denominator) 0 := by
  unfold compareFractionToBound
  split
  · decide
  · rename_i hne
    rw [if_pos (by decide)]
    have hpos : (0 : ℚ) < denominator := by exact_mod_cast Nat.pos_of_ne_zero hne
    refine compare_congr ?_ ?_
    · exact iff_of_false (Nat.not_lt_zero _) (not_lt.mpr (by positivity))
    · rw [lt_div_iff₀ hpos, zero_mul, Nat.cast_pos]

/-- An admitted range is decided exactly, but that an upper end of negative zero rejects the
ratio of no rows. -/
theorem RatioRangeAst.contains_iff_holds {range : RatioRangeAst} {path : String}
    (hvalid : ContractAstV2.validateRatio range path = .ok ()) (numerator : ℕ) {denominator : ℕ}
    (hdenominator : denominator < 2 ^ 64) :
    range.contains numerator denominator = true ↔ range.Holds (numerator / denominator) ∧
      ¬(denominator = 0 ∧ range.max = some (Ieee.zero true)) := by
  have hmin : range.min.all (compareFractionToBound numerator denominator · ≠ .lt) = true ↔
      ∀ min ∈ range.min, min.toRat ≤ (numerator : ℚ) / denominator := by
    rw [Option.all_eq_true]
    refine forall₂_congr fun min hmem => ?_
    rw [decide_eq_true_iff]
    by_cases hzero : min = Ieee.zero true
    · rw [hzero, compareFractionToBound_negativeZero, toRat_negativeZero]
      refine iff_of_true ?_ (by positivity)
      split
      · decide
      · rw [ne_eq, compare_lt_iff_lt, not_lt]
        positivity
    · rw [(ratioBound_of_validateRatio hvalid (.inl hmem) hzero).compareFractionToBound_eq_compare
        numerator hdenominator, ne_eq, compare_lt_iff_lt, not_lt]
  have hmax : range.max.all (compareFractionToBound numerator denominator · ≠ .gt) = true ↔
      (∀ max ∈ range.max, (numerator : ℚ) / denominator ≤ max.toRat) ∧
        ¬(denominator = 0 ∧ range.max = some (Ieee.zero true)) := by
    cases hrange : range.max with
    | none => simp
    | some max =>
        rw [Option.all_some, decide_eq_true_iff]
        by_cases hzero : max = Ieee.zero true
        · rw [hzero, compareFractionToBound_negativeZero]
          by_cases hrows : denominator = 0
          · rw [if_pos hrows]
            exact iff_of_false (by decide) fun h => h.2 ⟨hrows, rfl⟩
          · rw [if_neg hrows, ne_eq, compare_gt_iff_gt, not_lt]
            simp [hrows, toRat_negativeZero]
        · rw [(ratioBound_of_validateRatio hvalid (.inr hrange)
            hzero).compareFractionToBound_eq_compare numerator hdenominator, ne_eq,
            compare_gt_iff_gt, not_lt]
          simp [hzero]
  rw [contains, Bool.and_eq_true, hmin, hmax, Holds, and_assoc]

/-! ## Rules -/

/-- What is known of the distinct rules of one column that compiled against a schema. -/
structure DistinctSpec.CompiledFor (schema : Schema) (rule : ℕ × DistinctSpec) : Prop where
  kernel : ∃ field, schema.fields[rule.1]? = some field ∧
    rule.2.kernel = .fromDataType field.dataType
  ratio : ∀ range ∈ rule.2.ratioRange, ∃ path, ContractAstV2.validateRatio range path = .ok ()

section Compiled

variable {contract : ContractAstV2} {schema : Schema} {plan : DatasetPlan}

theorem countPlan_field {entry : String × CountRangeAst} {count : CountPlan}
    (h : countPlan schema entry = .ok count) : ∃ field,
      schema.fields[count.columnIndex]? = some field ∧ count.kernel = .fromDataType field.dataType := by
  obtain ⟨⟨index, field⟩, hcolumn, h⟩ := bind_eq_ok.mp h
  cases h
  exact ⟨field, field_of_requireColumn hcolumn, rfl⟩

theorem ratioPlan_field {rule : String} {entry : String × RatioRangeAst} {ratio : RatioPlan}
    (h : ratioPlan schema rule entry = .ok ratio) : ratio.range = entry.2 ∧ ∃ field,
      schema.fields[ratio.columnIndex]? = some field ∧ ratio.kernel = .fromDataType field.dataType := by
  obtain ⟨⟨index, field⟩, hcolumn, h⟩ := bind_eq_ok.mp h
  cases h
  exact ⟨rfl, field, field_of_requireColumn hcolumn, rfl⟩

/-- Every rule the distinct rules of a contract are gathered into reads its column by the
column's type, and its ratios are admitted. -/
theorem compiledFor_of_mem_distinctSpecs [Crates] (hvalid : contract.validateSemantics = .ok ())
    (hcompile : DatasetPlan.compile contract schema = .ok plan) :
    ∀ rule ∈ distinctSpecs plan, DistinctSpec.CompiledFor schema rule := by
  obtain ⟨_, -, hcompile⟩ := bind_eq_ok.mp hcompile
  obtain ⟨counts, hcounts, hcompile⟩ := bind_eq_ok.mp hcompile
  obtain ⟨ratios, hratios, hcompile⟩ := bind_eq_ok.mp hcompile
  have hplan : plan.distinctCounts = counts ∧ plan.distinctRatios = ratios := by
    iterate 12 obtain ⟨_, -, hcompile⟩ := bind_eq_ok.mp hcompile
    cases hcompile
    exact ⟨rfl, rfl⟩
  obtain ⟨_, -, hvalid⟩ := bind_eq_ok.mp hvalid
  obtain ⟨_, -, hvalid⟩ := bind_eq_ok.mp hvalid
  obtain ⟨_, hadmitted, -⟩ := bind_eq_ok.mp hvalid
  have hadmitted := forM_eq_ok.mp hadmitted
  rw [distinctSpecs, hplan.1, hplan.2]
  -- the count rules put in a rule for their column, the ratio rules change it or put one in
  refine List.foldlRecOn ratios _ (motive := fun specs => ∀ rule ∈ specs,
    DistinctSpec.CompiledFor schema rule) ?_ fun specs hspecs ratio hmem => ?_
  · refine List.foldlRecOn counts _ (motive := fun specs => ∀ rule ∈ specs,
      DistinctSpec.CompiledFor schema rule) (by simp) fun specs hspecs count hmem => ?_
    obtain ⟨entry, -, hentry⟩ := exists_of_forall₂ (mapM_eq_ok.mp hcounts).flip hmem
    have hcompiled : ∀ range : Option RatioRangeAst, range = none →
        DistinctSpec.CompiledFor schema (count.columnIndex,
          { column := count.column, kernel := count.kernel
            countRange := some count.range, ratioRange := range }) := by
      rintro _ rfl
      exact ⟨countPlan_field hentry, by simp⟩
    exact SortedMap.forall_mem_upsert (hcompiled none rfl) (fun _ _ => hcompiled none rfl) hspecs
  · obtain ⟨entry, hin, hentry⟩ := exists_of_forall₂ (mapM_eq_ok.mp hratios).flip hmem
    obtain ⟨hrange, hfield⟩ := ratioPlan_field hentry
    have hratio : ∀ range ∈ some ratio.range, ∃ path,
        ContractAstV2.validateRatio range path = .ok () := by
      rintro _ ⟨⟩
      rw [hrange]
      exact ⟨_, hadmitted entry hin⟩
    exact SortedMap.forall_mem_upsert ⟨hfield, hratio⟩
      (fun spec hspec => ⟨hspec.kernel, hratio⟩) hspecs

end Compiled

/-! ## Runs -/

namespace DistinctState

/-- The state of a rule that has seen the values. -/
structure After (rule : ℕ × DistinctSpec) (values : List (Option Scalar))
    (state : DistinctState (List Record)) : Prop where
  state_eq : state = { fresh rule with exact := state.exact, sawNull := values.any Option.isNone }
  values_eq : state.exact.map Record.value = values.reduceOption.map Scalar.exactValue

variable {rule : ℕ × DistinctSpec} {dataType : DataType}

theorem after_fresh : After rule [] (fresh rule) := ⟨rfl, rfl⟩

/-- The exact state of a rule counts the values of the column. -/
theorem After.distinctCount_eq {values : List (Option Scalar)} {state : DistinctState (List Record)}
    (h : After rule values state)
    (hvalues : ∀ value ∈ values.reduceOption, dataType.AdmitsScalar value) :
    distinctCount state.exact = distinctValues values := by
  have himage : (values.reduceOption.map Scalar.exactValue).toFinset =
      values.reduceOption.toFinset.image Scalar.exactValue := by
    ext value
    simp
  rw [distinctCount, h.values_eq, himage, distinctValues]
  refine Finset.card_image_of_injOn fun a ha b hb heq => ?_
  rw [Finset.mem_coe, List.mem_toFinset] at ha hb
  exact exactValue_injective (hvalues a ha) (hvalues b hb) heq

variable [Crates]

theorem exactScalar_eq {array : ArrowArray} {scalar : Scalar}
    (hadmits : array.dataType.AdmitsScalar scalar) :
    exactScalar (.fromDataType array.dataType) array (.scalar scalar) = .ok scalar.exactValue := by
  have hreads : (KernelKind.fromDataType array.dataType).reads array.dataType = true := by
    generalize array.dataType = dataType at hadmits
    cases dataType <;> first | rfl | exact decide_eq_true rfl | (cases scalar <;> exact hadmits.elim)
  have hdowncast : datasetDowncast (.fromDataType array.dataType) array = .ok () := if_pos hreads
  unfold exactScalar
  split
  · rename_i hkernel
    rw [hkernel] at hreads
    cases hreads
  · rename_i hkernel
    rw [hkernel] at hreads
    cases hreads
  · rw [hdowncast]
    rfl

/-- The cells of a batch bring the values they hold. -/
theorem collectRows_distinctEvents {array : ArrowArray} {cells : List (Option Value)}
    {values : List (Option Scalar)} (hcells : List.Forall₂ (CellReads Eq) cells values)
    (htyped : ∀ cell ∈ cells, array.field.AdmitsCell cell) (rowOffset : ℕ) :
    ∃ events, collectRows (distinctEvents (.fromDataType array.dataType) array) cells rowOffset =
        .ok events ∧
      (recordsOf events).map Record.value = values.reduceOption.map Scalar.exactValue ∧
      findingsOf events = [] := by
  induction hcells generalizing rowOffset with
  | nil => exact ⟨[], rfl, rfl, rfl⟩
  | @cons cell value cells values hcell _ ih =>
      rw [List.forall_mem_cons] at htyped
      obtain ⟨events, hevents, hrecords, hfound⟩ := ih htyped.2 (rowOffset + 1)
      rw [collectRows_eq_ok] at hevents
      obtain ⟨parts, hparts, rfl⟩ := hevents
      match cell, value, hcell with
      | none, none, _ =>
          exact ⟨_, collectRows_eq_ok.mpr ⟨[] :: parts, .cons rfl hparts, rfl⟩, hrecords, hfound⟩
      | some (.scalar scalar), some _, rfl =>
          have hadmits : array.dataType.AdmitsScalar scalar := admitsScalar_of_cell htyped.1
          refine ⟨_, collectRows_eq_ok.mpr
            ⟨[.insert scalar.exactValue rowOffset] :: parts, .cons ?_ hparts, rfl⟩, ?_, ?_⟩
          · exact bind_eq_ok.mpr ⟨_, exactScalar_eq hadmits, rfl⟩
          · rw [List.flatten_cons, recordsOf_append, List.map_append, hrecords,
              List.reduceOption_cons_of_some, List.map_cons]
            rfl
          · rw [List.flatten_cons, findingsOf_append, hfound]
            rfl

/-- The batches take a rule from the values before them to those with their own. -/
theorem observeAll_after {batches : List RecordBatch} {values : List (Option Scalar)}
    (hkernel : rule.2.kernel = .fromDataType dataType)
    (hcarries : Carries Eq rule.1 dataType batches values) :
    ∀ {seen : List (Option Scalar)} {state : DistinctState (List Record)} (rowOffset : ℕ),
      After rule seen state → ∃ next,
        observeAll (fun state batch rowOffset => observe batch rowOffset state) batches rowOffset
          state = .ok (next, []) ∧ After rule (seen ++ values) next := by
  induction hcarries with
  | nil =>
      intro seen state rowOffset hstate
      rw [List.append_nil]
      exact ⟨state, rfl, hstate⟩
  | @cons batch batches array values rest hcolumn hdataType hcells _ ih =>
      intro seen state rowOffset hstate
      obtain ⟨events, hevents, hrecords, hfound⟩ :=
        collectRows_distinctEvents hcells array.typed rowOffset
      have hnulls : array.cells.any Option.isNone = values.any Option.isNone := any_isNone_eq hcells
      have hobserve : observe batch rowOffset state = .ok ({ state with
          exact := state.exact ++ recordsOf events
          sawNull := state.sawNull || array.cells.any Option.isNone }, []) := by
        have hindex : state.columnIndex = rule.1 := by rw [hstate.state_eq]; rfl
        have hstateKernel : state.kernel = .fromDataType array.dataType := by
          rw [hdataType, ← hkernel, hstate.state_eq]; rfl
        rw [observe, hindex, hcolumn, ok_bind, hstateKernel, hevents, ok_bind, hfound]
      have hnext : After rule (seen ++ values) { state with
          exact := state.exact ++ recordsOf events
          sawNull := state.sawNull || array.cells.any Option.isNone } := by
        constructor
        · rw [hnulls, List.any_append, hstate.state_eq]
        · rw [List.map_append, hstate.values_eq, hrecords, List.reduceOption_append,
            List.map_append]
      obtain ⟨last, hlast, hafter⟩ := ih (rowOffset + batch.rows) hnext
      rw [List.append_assoc] at hafter
      refine ⟨last, ?_, hafter⟩
      rw [observeAll, hobserve, ok_bind]
      dsimp only
      rw [hlast]
      rfl

omit [Crates] in
theorem exists_count_finding {X : Type} {state : DistinctState X} {range : CountRangeAst}
    (hrange : state.countRange = some range) (rows exactDistinct : ℕ) :
    (∃ finding ∈ state.findings rows exactDistinct, finding.rule = "distinct_count") ↔
      range.contains (exactDistinct + if state.sawNull then 1 else 0) = false := by
  rw [findings, hrange]
  generalize (exactDistinct + if state.sawNull = true then 1 else 0) = distinct
  constructor
  · rintro ⟨finding, hmem, hrule⟩
    rcases List.mem_append.mp hmem with hcount | hratio
    · by_contra hcontains
      rw [Bool.not_eq_false] at hcontains
      simp [hcontains] at hcount
    · split at hratio
      · exact absurd hratio List.not_mem_nil
      · split at hratio
        · exact absurd hratio List.not_mem_nil
        · rw [List.mem_singleton.mp hratio] at hrule
          have hname : ¬"distinct_ratio" = "distinct_count" := by decide
          exact absurd hrule hname
  · intro hcontains
    simp only [hcontains]
    exact ⟨⟨"distinct_count", state.column, none,
      s!"Exact distinct count `{distinct}` is outside the contract range"⟩,
      List.mem_append_left _ (List.mem_singleton_self _), rfl⟩

end DistinctState

/-! ## What is counted -/

/-- A count rule is broken by exactly the columns whose values number outside its range, a ratio
rule by exactly those whose values, over all rows, do. -/
def CountsDistinct [Crates] (rule : ℕ × DistinctSpec) (batches : List RecordBatch)
    (values : List (Option Scalar)) : Prop :=
  ∃ state found,
    observeAll (fun state batch rowOffset => DistinctState.observe batch rowOffset state) batches 0
      (.fresh rule) = .ok (state, found) ∧
    (∀ range ∈ rule.2.countRange,
      ((∃ finding ∈ state.found values.length, finding.rule = "distinct_count") ↔
        ¬range.Holds (distinctValues values))) ∧
    ∀ range ∈ rule.2.ratioRange,
      ((∃ finding ∈ state.found values.length, finding.rule = "distinct_ratio") ↔
        ¬range.Holds ((distinctValues values : ℚ) / values.length))

/-- No range of the rule tells the values of the column from one more, where it has a null, and
none ends at negative zero, where it has no rows. -/
structure NullUnseen (rule : ℕ × DistinctSpec) (values : List (Option Scalar)) : Prop where
  count : none ∈ values → ∀ range ∈ rule.2.countRange,
    (range.Holds (distinctValues values) ↔ range.Holds (distinctValues values + 1))
  ratio : none ∈ values → ∀ range ∈ rule.2.ratioRange,
    (range.Holds ((distinctValues values : ℚ) / values.length) ↔
      range.Holds ((distinctValues values + 1 : ℕ) / values.length))
  signed : values = [] → ∀ range ∈ rule.2.ratioRange, range.max ≠ some (Ieee.zero true)

/-- An admitted range that ends at negative zero holds zero. -/
theorem RatioRangeAst.holds_zero {range : RatioRangeAst} {path : String}
    (hvalid : ContractAstV2.validateRatio range path = .ok ())
    (hmax : range.max = some (Ieee.zero true)) : range.Holds 0 := by
  obtain ⟨_, hbounds, hordered⟩ := bind_eq_ok.mp hvalid
  refine ⟨fun min hmin => ?_, fun max hmem => ?_⟩
  · have hordered := rejectIf_eq_ok.mp hordered
    have hall := forM_eq_ok.mp hbounds ("min", range.min) (by simp)
    rw [show range.min = some min from hmin] at hall hordered
    have hfinite := (validateRatioBound_iff.mp hall).1
    rw [hmax, Option.map₂_some_some, Option.getD_some, Ieee.gt_iff_of_not_nan
      (Ieee.isNaN_of_isFinite hfinite) (by decide), toRat_negativeZero, not_lt] at hordered
    exact hordered
  · rw [hmax] at hmem
    cases hmem
    exact toRat_negativeZero.ge

/-- **What the distinct rules count.**  For every column, batching and range, the distinct rules
of a compiled contract judge the values that are not null, if and only if no range sees the null
they count besides. -/
theorem countsDistinct_iff [Crates] {contract : ContractAstV2} {schema : Schema} {plan : DatasetPlan}
    (hvalid : contract.validateSemantics = .ok ())
    (hcompile : DatasetPlan.compile contract schema = .ok plan) {rule : ℕ × DistinctSpec}
    (hrule : rule ∈ distinctSpecs plan) {field : Field}
    (hfield : schema.fields[rule.1]? = some field) {batches : List RecordBatch}
    {values : List (Option Scalar)} (hcarries : Carries Eq rule.1 field.dataType batches values)
    (hrows : values.length < 2 ^ 64) :
    CountsDistinct rule batches values ↔ NullUnseen rule values := by
  obtain ⟨⟨_, hfound, hkernel⟩, hratio⟩ := compiledFor_of_mem_distinctSpecs hvalid hcompile rule hrule
  rw [hfield] at hfound
  cases hfound
  obtain ⟨state, hrun, hafter⟩ :=
    DistinctState.observeAll_after hkernel hcarries 0 DistinctState.after_fresh
  rw [List.nil_append] at hafter
  have hcountRange : state.countRange = rule.2.countRange := by rw [hafter.state_eq]; rfl
  have hratioRange : state.ratioRange = rule.2.ratioRange := by rw [hafter.state_eq]; rfl
  have hnull : state.sawNull = values.any Option.isNone := by rw [hafter.state_eq]
  have hdistinct := hafter.distinctCount_eq hcarries.admits
  -- what the verdict is about: the distinct values, and one more where there is a null
  have hjudged : CountsDistinct rule batches values ↔
      (∀ range ∈ rule.2.countRange, (range.Holds
          (distinctValues values + if values.any Option.isNone then 1 else 0) ↔
        range.Holds (distinctValues values))) ∧
      ∀ range ∈ rule.2.ratioRange, (range.Holds
          ((distinctValues values + if values.any Option.isNone then 1 else 0 : ℕ) /
            (values.length : ℚ)) ∧
          ¬(values.length = 0 ∧ range.max = some (Ieee.zero true)) ↔
        range.Holds ((distinctValues values : ℚ) / values.length)) := by
    have hcount : ∀ range ∈ rule.2.countRange,
        ((∃ finding ∈ state.found values.length, finding.rule = "distinct_count") ↔
          ¬range.Holds (distinctValues values + if values.any Option.isNone then 1 else 0)) := by
      intro range hrange
      rw [DistinctState.found, DistinctState.exists_count_finding (hcountRange.trans hrange),
        hdistinct, hnull, ← Bool.not_eq_true, CountRangeAst.contains_iff]
    have hratio : ∀ range ∈ rule.2.ratioRange,
        ((∃ finding ∈ state.found values.length, finding.rule = "distinct_ratio") ↔
          ¬(range.Holds ((distinctValues values + if values.any Option.isNone then 1 else 0 : ℕ) /
              (values.length : ℚ)) ∧
            ¬(values.length = 0 ∧ range.max = some (Ieee.zero true)))) := by
      intro range hrange
      obtain ⟨path, hadmitted⟩ := hratio range hrange
      rw [DistinctState.found, DistinctState.exists_ratio_finding (hratioRange.trans hrange),
        hdistinct, hnull, ← Bool.not_eq_true, RatioRangeAst.contains_iff_holds hadmitted _ hrows]
    have hunique : CountsDistinct rule batches values ↔
        (∀ range ∈ rule.2.countRange,
          ((∃ finding ∈ state.found values.length, finding.rule = "distinct_count") ↔
            ¬range.Holds (distinctValues values))) ∧
        ∀ range ∈ rule.2.ratioRange,
          ((∃ finding ∈ state.found values.length, finding.rule = "distinct_ratio") ↔
            ¬range.Holds ((distinctValues values : ℚ) / values.length)) := by
      refine ⟨?_, fun h => ⟨state, [], hrun, h⟩⟩
      rintro ⟨other, found, hother, h⟩
      rw [hrun] at hother
      cases hother
      exact h
    rw [hunique]
    refine and_congr (forall₂_congr fun range hrange => ?_)
      (forall₂_congr fun range hrange => ?_)
    · rw [hcount range hrange, not_iff_not]
    · rw [hratio range hrange, not_iff_not]
  rw [hjudged]
  by_cases hmem : none ∈ values
  · have hany : values.any Option.isNone = true := List.any_eq_true.mpr ⟨none, hmem, rfl⟩
    have hne : values ≠ [] := List.ne_nil_of_mem hmem
    have hlength : values.length ≠ 0 := List.length_eq_zero_iff.not.mpr hne
    simp only [hany, if_true, hlength, false_and, not_false_iff, and_true]
    refine ⟨fun ⟨hcount, hratio⟩ => ⟨fun _ range hrange => (hcount range hrange).symm,
      fun _ range hrange => (hratio range hrange).symm, fun h => absurd h hne⟩, fun h => ?_⟩
    exact ⟨fun range hrange => (h.count hmem range hrange).symm,
      fun range hrange => (h.ratio hmem range hrange).symm⟩
  -- without a null the count is exact; an empty column divides by zero
  · have hany : values.any Option.isNone = false := by
      rw [List.any_eq_false]
      rintro value hvalue hnone
      rw [Option.isNone_iff_eq_none] at hnone
      exact hmem (hnone ▸ hvalue)
    simp only [hany, if_false, Nat.add_zero, Bool.false_eq_true, implies_true, true_and]
    refine ⟨fun h => ⟨fun hnone => absurd hnone hmem, fun hnone => absurd hnone hmem, ?_⟩,
      fun h range hrange => and_iff_left fun ⟨hlength, hmax⟩ =>
        h.signed (List.length_eq_zero_iff.mp hlength) range hrange hmax⟩
    rintro rfl range hrange hmax
    obtain ⟨path, hadmitted⟩ := hratio range hrange
    have hholds := (h range hrange).mpr (by simpa using RatioRangeAst.holds_zero hadmitted hmax)
    exact hholds.2 ⟨rfl, hmax⟩

/-! ## One value and a null -/

/-- The contract that asks a column for exactly one value. -/
def oneValueContract : ContractAstV2 where
  version := .v2
  status := .active
  suggestedFrom := none
  columns := []
  rowRules := []
  datasetRules := { Reader.noDatasetRules with distinctCount := [("x", ⟨some 1, none, none⟩)] }
  maxFindings := 100

def integerSchema : Schema := { fields := [.mk "x" .int64 true []], metadata := [] }

def oneValueRule : ℕ × DistinctSpec :=
  (0, { column := "x", kernel := .i64, countRange := some ⟨some 1, none, none⟩, ratioRange := none })

theorem compile_oneValue [Crates] : ∃ plan,
    DatasetPlan.compile oneValueContract integerSchema = .ok plan ∧ oneValueRule ∈ distinctSpecs plan :=
  ⟨_, rfl, List.mem_singleton.mpr rfl⟩

theorem carries_integers (values : List (Option Int64)) :
    Carries Eq 0 .int64 [.ofColumn (.ofInt64 "x" values)]
      (values.map fun value => value.map fun value => .signed value.toInt) := by
  rw [← List.append_nil (values.map _)]
  refine .cons rfl rfl ?_ .nil
  show List.Forall₂ _ (values.map _) (values.map _)
  rw [List.forall₂_map_left_iff, List.forall₂_map_right_iff]
  refine List.forall₂_same.mpr fun value _ => ?_
  cases value with
  | none => trivial
  | some value => rfl

theorem countsDistinct_iff_twice : let _ : Crates := Crates.zeroDigests
    CountsDistinct oneValueRule [.ofColumn (.ofInt64 "x" [some 7, some 7])]
      [some (.signed 7), some (.signed 7)] ↔
        NullUnseen oneValueRule [some (.signed 7), some (.signed 7)] := by
  intro _
  obtain ⟨plan, hplan, hrule⟩ := compile_oneValue
  exact @countsDistinct_iff _ oneValueContract integerSchema plan rfl hplan _ hrule _ rfl _ _
    (carries_integers [some 7, some 7]) (by decide)

/-- One value and a null are counted as two. -/
theorem null_counted : let _ : Crates := Crates.zeroDigests
    oneValueContract.validateSemantics = .ok () ∧
    (∃ plan, DatasetPlan.compile oneValueContract integerSchema = .ok plan ∧
      oneValueRule ∈ distinctSpecs plan) ∧
    ¬CountsDistinct oneValueRule [.ofColumn (.ofInt64 "x" [some 7, none])]
      [some (.signed 7), none] := by
  intro _
  refine ⟨rfl, compile_oneValue, ?_⟩
  rintro ⟨state, found, hrun, hcount, -⟩
  cases hrun
  have hviolation := hcount _ rfl
  revert hviolation
  decide

end ProofFrame
