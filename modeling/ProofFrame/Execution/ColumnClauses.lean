import ProofFrame.Contract.Strictness
import ProofFrame.Execution.ColumnScan

/-!
# What a column rule asks

A column rule of a contract is a list of clauses.  Each is described here from the source of the
rule, cell by cell, without the plan that the compiler makes of it.

## Strategy

* The compiled rules break a clause on a value exactly if the rule of the contract does
  (`valueBreaks_iff`).
* The plan at a position of the schema is the one compiled for the field there (`find_columns`).
* A clause that no cell of a type can break is ignored there, and so is a clause the kernel of the
  type never tests.
-/

namespace ProofFrame

open Lib Lib.Run Lib.Ieee754 Distinct
open ContractAst (columnPath appendPath)

/-! ## Clauses of a column -/

/-- What a rule may ask of a column: something of each cell, or that no value comes again. -/
inductive ColumnClause where
  | cell (clause : Clause)
  | unique

def ColumnClause.rule : ColumnClause → String
  | .cell clause => clause.rule
  | .unique => "unique"

/-- The rule has the clause. -/
def RuleAstV2.declares (rules : RuleAstV2) : Clause → Bool
  | .notNull => rules.notNull
  | .min => rules.min.isSome
  | .max => rules.max.isSome
  | .nan => rules.nan.isSome
  | .pattern => rules.pattern.isSome
  | .allowed => rules.allowed.isSome
  | .minLength => rules.minLength.isSome
  | .maxLength => rules.maxLength.isSome

def DataType.isText : DataType → Bool
  | .utf8 | .largeUtf8 | .utf8View => true
  | _ => false

def DataType.isFloat : DataType → Bool
  | .float32 | .float64 => true
  | _ => false

/-- The types whose values a bound of a contract can be compared with. -/
def DataType.isBounded : DataType → Bool
  | .int8 | .int16 | .int32 | .int64 | .uint8 | .uint16 | .uint32 | .uint64 | .float32 | .float64
  | .date32 | .date64 | .decimal128 _ _ | .timestamp _ _ => true
  | _ => false

/-- The cells of the type are something the clause is about. -/
def Clause.appliesTo (dataType : DataType) : Clause → Bool
  | .notNull => true
  | .min | .max => dataType.isBounded
  | .nan => dataType.isFloat
  | .pattern | .allowed | .minLength | .maxLength => dataType.isText

/-- The nulls of a column of the type are its rows without a value. -/
def DataType.showsNulls : DataType → Bool
  | .null | .union _ _ | .runEndEncoded _ _ | .dictionary _ _ => false
  | _ => true

/-- The rows may be the null rows of a column of the type: every row of the null type; the rows
without a value and others, where a value may stand for a null; and elsewhere the rows without a
value. -/
def DataType.NullRows : DataType → List (Option Value) → (ℕ → Prop) → Prop
  | .null, cells, isNull => ∀ row < cells.length, isNull row
  | .union _ _, cells, isNull | .runEndEncoded _ _, cells, isNull
  | .dictionary _ _, cells, isNull =>
      ∀ row, cells[row]? = some none → isNull row
  | _, cells, isNull => ∀ row, isNull row ↔ cells[row]? = some none

theorem nullRows_iff {dataType : DataType} {cells : List (Option Value)} {isNull : ℕ → Prop}
    (hshows : dataType.showsNulls = true) (h : dataType.NullRows cells isNull) {row : ℕ} :
    isNull row ↔ cells[row]? = some none := by
  cases dataType <;> first | exact h row | exact absurd hshows Bool.false_ne_true

section Enforcement

variable [Crates]

/-- The value of a column breaks the clause of the rule. -/
def RuleAstV2.ValueBreaks (rules : RuleAstV2) (field : Field) (value : Scalar) : Clause → Prop
  | .notNull => False
  | .min => ∃ bound typed, rules.min = some bound ∧
      parseBound bound field.dataType (appendPath (columnPath field.name) "min") = .ok typed ∧
      typed.isAbove value = true
  | .max => ∃ bound typed, rules.max = some bound ∧
      parseBound bound field.dataType (appendPath (columnPath field.name) "max") = .ok typed ∧
      typed.isBelow value = true
  -- a rule with a bound rejects NaN unless it says otherwise
  | .nan => value.isNaN = true ∧ (rules.nan = some .reject ∨
      rules.nan = none ∧ (rules.min.isSome = true ∨ rules.max.isSome = true))
  | .pattern => ∃ pattern text, rules.pattern = some pattern ∧ value = .text text ∧
      Crates.regexMatch pattern text = false
  | .allowed => ∃ allowed text, rules.allowed = some allowed ∧ value = .text text ∧ text ∉ allowed
  | .minLength => ∃ length text, rules.minLength = some length ∧ value = .text text ∧
      text.toList.length < length
  | .maxLength => ∃ length text, rules.maxLength = some length ∧ value = .text text ∧
      length < text.toList.length

/-- The row of a column breaks the clause of the rule. -/
def RuleAstV2.BreaksAt (rules : RuleAstV2) (field : Field) (cells : List (Option Value))
    (isNull : ℕ → Prop) (row : ℕ) : ColumnClause → Prop
  | .cell .notNull => rules.notNull = true ∧ row < cells.length ∧ isNull row
  | .cell clause => ∃ value, cells[row]? = some (some (.scalar value)) ∧
      rules.ValueBreaks field value clause
  | .unique => rules.unique = true ∧ RepeatsAt cells row

/-! ## What a plan enforces -/

/-- What the rule of the column at a position of the schema finds in the arrays of the column. -/
def CompiledContract.columnFindings (plan : CompiledContract) (index : ℕ)
    (arrays : List ArrowArray) : Except Fault (List Finding) :=
  match plan.columns.find? (·.columnIndex = index) with
  | none => .ok []
  | some column => column.findings <$> column.run arrays 0

/-- The plan enforces the rule on the column at the position: the column has the type the rule
requires, each clause is about the cells of that type, in the arrays of the column each row that
breaks a clause is found once and nothing else is found, and an execution finds the same. -/
structure RuleAstV2.EnforcedAt (rules : RuleAstV2) (index : ℕ) (field : Field)
    (plan : CompiledContract) : Prop where
  type : ∀ expected, rules.expectedType = some expected → field.dataType = expected.dataType
  applies : ∀ clause, rules.declares clause = true → clause.appliesTo field.dataType = true
  tested : ∀ (arrays : List ArrowArray) (isNull : ℕ → Prop),
    (∀ array ∈ arrays, array.field = field) →
    SizedColumn field.dataType (arrays.flatMap ArrowArray.cells) →
    field.dataType.NullRows (arrays.flatMap ArrowArray.cells) isNull →
    ∃ findings, plan.columnFindings index arrays = .ok findings ∧
      (findings.map Finding.what).Nodup ∧
      ∀ what, what ∈ findings.map Finding.what ↔ ∃ row clause,
        what = (clause.rule, field.name, some row) ∧
        rules.BreaksAt field (arrays.flatMap ArrowArray.cells) isNull row clause
  reported : ∀ reader fingerprint references maxMemoryBytes verdict,
    verdictOf reader plan fingerprint references maxMemoryBytes = .ok verdict →
    ∀ (batches : List RecordBatch) arrays, reader.items = batches.map .ok →
      batches.mapM (fun batch => batch.column index) = .ok arrays →
      ∃ findings rest, plan.columnFindings index arrays = .ok findings ∧
        verdict.findings.Perm (findings ++ rest)

/-- The rule of a column asks for something. -/
def RuleAstV2.AsksFor (rules : RuleAstV2) : Prop :=
  rules.required = true ∨ rules.expectedType.isSome = true ∨ rules.unique = true ∨
    ∃ clause, rules.declares clause = true

/-- The plan enforces the rule for a column: where the rule asks for something there is such a
column, and the plan enforces the rule on every one. -/
structure RuleAstV2.EnforcedIn (rules : RuleAstV2) (name : String) (schema : Schema)
    (plan : CompiledContract) : Prop where
  present : rules.AsksFor → ∃ field ∈ schema.fields, field.name = name
  enforced : ∀ index field, schema.fields[index]? = some field → field.name = name →
    rules.EnforcedAt index field plan

/-- What the compiler does not look at: a length is only asked of texts, nulls only where they
show, uniqueness only of values that have canonical bytes, and a type only of columns that all have
it. -/
structure RuleAstV2.FitsField (rules : RuleAstV2) (schema : Schema) (field : Field) : Prop where
  length : rules.declaresLength = true → field.dataType.isText = true
  notNull : rules.notNull = true → field.dataType.showsNulls = true
  unique : rules.unique = true → ∀ value, field.dataType.Admits value →
    ∃ bytes, canonicalValueBytes field.dataType (some value) = .ok bytes
  type : rules.expectedType.isSome = true →
    ∀ other ∈ schema.fields, other.name = field.name → other.dataType = field.dataType

/-! ## Compiled rules -/

/-- What the compiler makes of the rule of a column. -/
structure RuleAstV2.CompilesTo (rules : RuleAstV2) (field : Field) (compiled : CompiledRules) :
    Prop where
  support : checkSupport field.name field.dataType (.fromDataType field.dataType) rules.asV1 =
    .ok ()
  min : compileBound rules.min field.dataType (appendPath (columnPath field.name) "min") =
    .ok compiled.min
  max : compileBound rules.max field.dataType (appendPath (columnPath field.name) "max") =
    .ok compiled.max
  notNull : compiled.notNull = rules.notNull
  unique : compiled.unique = rules.unique
  nan : compiled.nan = .ofAst rules.nan
  validateNan : compiled.validateNan = (rules.nan.isSome || rules.min.isSome || rules.max.isSome)
  pattern : compiled.pattern = rules.pattern
  allowed : compiled.allowed = rules.allowed
  minLength : compiled.minLength = rules.minLength
  maxLength : compiled.maxLength = rules.maxLength

section Compiled

variable {rules : RuleAstV2} {field : Field} {compiled : CompiledRules}

theorem compilesTo_of_compileRules
    (h : compileRules field.name field.dataType (.fromDataType field.dataType) rules.asV1
      (rules.minLength, rules.maxLength) = .ok compiled) : rules.CompilesTo field compiled := by
  obtain ⟨⟨⟩, hsupport, h⟩ := bind_eq_ok.mp h
  obtain ⟨min, hmin, h⟩ := bind_eq_ok.mp h
  obtain ⟨max, hmax, h⟩ := bind_eq_ok.mp h
  obtain ⟨_, -, h⟩ := bind_eq_ok.mp h
  obtain ⟨pattern, hpattern, h⟩ := bind_eq_ok.mp h
  obtain ⟨_, -, h⟩ := bind_eq_ok.mp h
  cases h
  refine ⟨hsupport, hmin, hmax, rfl, rfl, rfl, rfl, ?_, rfl, rfl, rfl⟩
  -- a pattern that compiles is kept as it is
  change rules.pattern.mapM _ = Except.ok pattern at hpattern
  change pattern = rules.pattern
  cases hsource : rules.pattern with
  | none =>
      rw [hsource] at hpattern
      cases hpattern
      rfl
  | some source =>
      rw [hsource] at hpattern
      obtain ⟨found, hfound, rfl⟩ := map_eq_ok.mp hpattern
      unfold compilePattern at hfound
      split at hfound <;> cases hfound
      rfl

theorem any_bound_iff {bound : Option BoundAst} {typed : Option TypedBound} {dataType : DataType}
    {path : String} (h : compileBound bound dataType path = .ok typed) {P : TypedBound → Bool} :
    typed.any P = true ↔ ∃ source found, bound = some source ∧
      parseBound source dataType path = .ok found ∧ P found = true := by
  cases bound with
  | none =>
      cases h
      exact iff_of_false Bool.false_ne_true (by rintro ⟨_, _, ⟨⟩, -⟩)
  | some source =>
      obtain ⟨found, hfound, rfl⟩ := map_eq_ok.mp h
      constructor
      · intro hP
        exact ⟨source, found, rfl, hfound, hP⟩
      · rintro ⟨_, found', ⟨⟩, hfound', hP⟩
        obtain rfl := Except.ok.inj (hfound.symm.trans hfound')
        exact hP

/-- The clauses on texts are broken by texts only. -/
theorem CompiledRules.valueBreaks_text_iff {rules : CompiledRules} {value : Scalar} {clause : Clause}
    (hclause : clause ∈ [.pattern, .allowed, .minLength, .maxLength]) :
    rules.valueBreaks value clause = true ↔
      ∃ text, value = .text text ∧ rules.textBreaks text clause = true := by
  simp only [List.mem_cons, List.not_mem_nil, or_false] at hclause
  rcases hclause with rfl | rfl | rfl | rfl <;> cases value <;> simp [valueBreaks]

/-- The compiled rules break a clause on a value exactly if the rule does. -/
theorem RuleAstV2.CompilesTo.valueBreaks_iff (h : rules.CompilesTo field compiled) (value : Scalar)
    (clause : Clause) :
    compiled.valueBreaks value clause = true ↔ rules.ValueBreaks field value clause := by
  cases clause with
  | notNull =>
      refine iff_of_false ?_ id
      cases value <;> exact Bool.false_ne_true
  | min => exact any_bound_iff h.min
  | max => exact any_bound_iff h.max
  | nan =>
      rw [CompiledRules.valueBreaks, Bool.and_eq_true, decide_eq_true_iff, h.validateNan, h.nan,
        RuleAstV2.ValueBreaks]
      refine and_congr_right fun _ => ?_
      rcases rules.nan with _ | _ | _ <;> simp [NaNPolicy.ofAst]
  | pattern =>
      refine (CompiledRules.valueBreaks_text_iff (by simp)).trans ?_
      simp only [CompiledRules.textBreaks, h.pattern, RuleAstV2.ValueBreaks]
      cases rules.pattern <;> simp
  | allowed =>
      refine (CompiledRules.valueBreaks_text_iff (by simp)).trans ?_
      simp only [CompiledRules.textBreaks, h.allowed, RuleAstV2.ValueBreaks]
      cases rules.allowed <;> simp
  | minLength =>
      refine (CompiledRules.valueBreaks_text_iff (by simp)).trans ?_
      simp only [CompiledRules.textBreaks, h.minLength, RuleAstV2.ValueBreaks]
      cases rules.minLength <;> simp
  | maxLength =>
      refine (CompiledRules.valueBreaks_text_iff (by simp)).trans ?_
      simp only [CompiledRules.textBreaks, h.maxLength, RuleAstV2.ValueBreaks]
      cases rules.maxLength <;> simp

/-- A row breaks a clause exactly if its cell does. -/
theorem RuleAstV2.CompilesTo.breaksAt_iff (h : rules.CompilesTo field compiled)
    {cells : List (Option Value)} {isNull : ℕ → Prop} (hnull : field.dataType.NullRows cells isNull)
    (hshows : rules.notNull = true → field.dataType.showsNulls = true) {row : ℕ}
    (clause : Clause) :
    (∃ cell, cells[row]? = some cell ∧ compiled.breaks cell clause = true) ↔
      rules.BreaksAt field cells isNull row (.cell clause) := by
  by_cases hclause : clause = .notNull
  · subst hclause
    have hcell (cell : Option Value) :
        compiled.breaks cell .notNull = true ↔ rules.notNull = true ∧ cell = none := by
      rw [← h.notNull]
      rcases cell with _ | (scalar | _ | _ | _)
      · exact (and_iff_left rfl).symm
      · refine iff_of_false ?_ (by rintro ⟨-, ⟨⟩⟩)
        cases scalar <;> exact Bool.false_ne_true
      all_goals exact iff_of_false Bool.false_ne_true (by rintro ⟨-, ⟨⟩⟩)
    simp only [hcell, RuleAstV2.BreaksAt]
    constructor
    · rintro ⟨_, hrow, hnotNull, rfl⟩
      refine ⟨hnotNull, (List.getElem?_eq_some_iff.mp hrow).1, ?_⟩
      exact (nullRows_iff (hshows hnotNull) hnull).mpr hrow
    · rintro ⟨hnotNull, -, hrow⟩
      exact ⟨none, (nullRows_iff (hshows hnotNull) hnull).mp hrow, hnotNull, rfl⟩
  · have hcell (cell : Option Value) : compiled.breaks cell clause = true ↔
        ∃ value, cell = some (.scalar value) ∧ rules.ValueBreaks field value clause := by
      rcases cell with _ | (scalar | _ | _ | _)
      · refine iff_of_false ?_ (by rintro ⟨_, ⟨⟩, -⟩)
        cases clause <;> first | exact absurd rfl hclause | exact Bool.false_ne_true
      · refine (h.valueBreaks_iff scalar clause).trans ?_
        simp
      all_goals
        refine iff_of_false ?_ (by rintro ⟨_, ⟨⟩, -⟩)
        cases clause <;> exact Bool.false_ne_true
    have hbreaks : rules.BreaksAt field cells isNull row (.cell clause) ↔
        ∃ value, cells[row]? = some (some (.scalar value)) ∧
          rules.ValueBreaks field value clause := by
      cases clause <;> first | exact absurd rfl hclause | exact Iff.rfl
    rw [hbreaks]
    simp only [hcell]
    constructor
    · rintro ⟨_, hrow, value, rfl, hvalue⟩
      exact ⟨value, hrow, hvalue⟩
    · rintro ⟨value, hrow, hvalue⟩
      exact ⟨_, hrow, value, rfl, hvalue⟩

/-- A value breaks only a clause that the rule has, or NaN by a bound. -/
theorem valueBreaks_declared {value : Scalar} {clause : Clause}
    (h : rules.ValueBreaks field value clause) : ∃ clause, rules.declares clause = true := by
  cases clause with
  | notNull => exact absurd h id
  | min =>
      obtain ⟨bound, _, hbound, -⟩ := h
      exact ⟨.min, by rw [RuleAstV2.declares, hbound]; rfl⟩
  | max =>
      obtain ⟨bound, _, hbound, -⟩ := h
      exact ⟨.max, by rw [RuleAstV2.declares, hbound]; rfl⟩
  | nan =>
      obtain ⟨-, hnan | ⟨-, hmin | hmax⟩⟩ := h
      · exact ⟨.nan, by rw [RuleAstV2.declares, hnan]; rfl⟩
      · exact ⟨.min, hmin⟩
      · exact ⟨.max, hmax⟩
  | pattern =>
      obtain ⟨pattern, _, hpattern, -⟩ := h
      exact ⟨.pattern, by rw [RuleAstV2.declares, hpattern]; rfl⟩
  | allowed =>
      obtain ⟨allowed, _, hallowed, -⟩ := h
      exact ⟨.allowed, by rw [RuleAstV2.declares, hallowed]; rfl⟩
  | minLength =>
      obtain ⟨length, _, hlength, -⟩ := h
      exact ⟨.minLength, by rw [RuleAstV2.declares, hlength]; rfl⟩
  | maxLength =>
      obtain ⟨length, _, hlength, -⟩ := h
      exact ⟨.maxLength, by rw [RuleAstV2.declares, hlength]; rfl⟩

end Compiled

/-! ## The plan of a field -/

section Plans

variable [DebugText] {contract : ContractAstV2} {schema : Schema} {plan : CompiledContract}
  {index : ℕ} {field : Field} {rules : RuleAstV2}

/-- The rule has a clause for the kernel of the column. -/
def RuleAstV2.HasPlan (rules : RuleAstV2) : Prop :=
  rules.asV1.hasValueRules = true ∨ rules.declaresLength = true

omit [Crates] [DebugText] in
theorem hasPlan_iff : rules.HasPlan ↔
    rules.unique = true ∨ ∃ clause, rules.declares clause = true := by
  simp only [RuleAstV2.HasPlan, RuleAst.hasValueRules, RuleAstV2.asV1, RuleAstV2.declaresLength,
    Bool.or_eq_true]
  constructor
  · rintro (((((((h | h) | h) | h) | h) | h) | h) | (h | h))
    · exact .inr ⟨.notNull, h⟩
    · exact .inl h
    · exact .inr ⟨.min, h⟩
    · exact .inr ⟨.max, h⟩
    · exact .inr ⟨.nan, h⟩
    · exact .inr ⟨.pattern, h⟩
    · exact .inr ⟨.allowed, h⟩
    · exact .inr ⟨.minLength, h⟩
    · exact .inr ⟨.maxLength, h⟩
  · rintro (h | ⟨clause, h⟩)
    · simp [h]
    · cases clause <;> simp only [RuleAstV2.declares] at h <;> simp [h]

omit [DebugText] in
theorem planColumnV2_eq_ok {found : Option ColumnPlan}
    (h : CompiledContract.planColumnV2 contract (field, index) = .ok found)
    (hrules : SortedMap.find field.name contract.columns = some rules) :
    (¬rules.HasPlan ∧ found = none) ∨ rules.HasPlan ∧ ∃ compiled,
      rules.CompilesTo field compiled ∧
        found = some ⟨index, field, .fromDataType field.dataType, compiled⟩ := by
  unfold CompiledContract.planColumnV2 at h
  rw [hrules] at h
  dsimp only at h
  have hplan : (!rules.asV1.hasValueRules && !rules.declaresLength) = true ↔ ¬rules.HasPlan := by
    rw [RuleAstV2.HasPlan]
    cases rules.asV1.hasValueRules <;> cases rules.declaresLength <;> simp
  by_cases hnone : rules.HasPlan
  · rw [if_neg (mt hplan.mp (not_not.mpr hnone))] at h
    obtain ⟨column, hcolumn, rfl⟩ := map_eq_ok.mp h
    obtain ⟨compiled, hcompiled, hcolumn⟩ := bind_eq_ok.mp hcolumn
    cases hcolumn
    exact .inr ⟨hnone, compiled, compilesTo_of_compileRules hcompiled, rfl⟩
  · rw [if_pos (hplan.mpr hnone)] at h
    cases h
    exact .inl ⟨hnone, rfl⟩

omit [DebugText] in
theorem index_of_planColumnV2 {column : ColumnPlan}
    (h : CompiledContract.planColumnV2 contract (field, index) = .ok (some column)) :
    column.columnIndex = index := by
  cases hrules : SortedMap.find field.name contract.columns with
  | none =>
      unfold CompiledContract.planColumnV2 at h
      rw [hrules] at h
      cases h
  | some rules =>
      rcases planColumnV2_eq_ok h hrules with ⟨-, hnone⟩ | ⟨-, compiled, -, hsome⟩
      · cases hnone
      · cases hsome
        rfl

/-- At a position of the schema stands the plan compiled for the field there. -/
theorem find_columns (h : CompiledContract.compileV2 contract schema = .ok plan)
    (hfield : schema.fields[index]? = some field) :
    CompiledContract.planColumnV2 contract (field, index) =
      .ok (plan.columns.find? (·.columnIndex = index)) := by
  obtain ⟨_, -, h⟩ := bind_eq_ok.mp h
  obtain ⟨plans, hplans, h⟩ := bind_eq_ok.mp h
  obtain ⟨_, -, h⟩ := bind_eq_ok.mp h
  obtain ⟨_, -, h⟩ := bind_eq_ok.mp h
  cases h
  rw [mapM_eq_ok] at hplans
  have hat {position : ℕ} {found : Option ColumnPlan} (hfound : plans[position]? = some found) :
      ∃ other, schema.fields[position]? = some other ∧
        CompiledContract.planColumnV2 contract (other, position) = .ok found := by
    obtain ⟨hlt, rfl⟩ := List.getElem?_eq_some_iff.mp hfound
    have hlt' : position < schema.fields.zipIdx.length := hplans.length_eq ▸ hlt
    have hplan := hplans.get hlt' hlt
    rw [List.get_eq_getElem, List.get_eq_getElem, List.getElem_zipIdx, Nat.zero_add] at hplan
    exact ⟨_, List.getElem?_eq_getElem _, hplan⟩
  -- the columns are the plans there are, each with the position it was compiled for
  have hmem {column : ColumnPlan} (hcolumn : column ∈ plans.reduceOption) :
      plans[column.columnIndex]? = some (some column) := by
    obtain ⟨position, hposition⟩ :=
      List.mem_iff_getElem?.mp (List.reduceOption_mem_iff.mp hcolumn)
    obtain ⟨other, -, hplan⟩ := hat hposition
    rw [index_of_planColumnV2 hplan, hposition]
  obtain ⟨found, hfound⟩ : ∃ found, plans[index]? = some found := by
    obtain ⟨hlt, -⟩ := List.getElem?_eq_some_iff.mp hfield
    have hlt' : index < plans.length := by
      rw [← hplans.length_eq, List.length_zipIdx]
      exact hlt
    exact ⟨_, List.getElem?_eq_getElem hlt'⟩
  obtain ⟨other, hother, hplan⟩ := hat hfound
  obtain rfl := Option.some.inj (hfield.symm.trans hother)
  rw [hplan]
  refine congrArg Except.ok ?_
  cases hfind : plans.reduceOption.find? (·.columnIndex = index) with
  | none =>
      cases found with
      | none => rfl
      | some column =>
          have hcolumn : column ∈ plans.reduceOption :=
            List.reduceOption_mem_iff.mpr (List.mem_of_getElem? hfound)
          have hnone := List.find?_eq_none.mp hfind column hcolumn
          exact absurd (decide_eq_true (index_of_planColumnV2 hplan)) hnone
  | some column =>
      have hindex := List.find?_some hfind
      rw [decide_eq_true_iff] at hindex
      have hcolumn := hmem (List.mem_of_find?_eq_some hfind)
      rw [hindex, hfound] at hcolumn
      exact Option.some.inj hcolumn

omit [DebugText] in
/-- A rule without a plan is broken by nothing. -/
theorem not_breaksAt_of_not_hasPlan {rules : RuleAstV2} (h : ¬rules.HasPlan)
    {cells : List (Option Value)} {isNull : ℕ → Prop} {row : ℕ} {clause : ColumnClause} :
    ¬rules.BreaksAt field cells isNull row clause := by
  rw [hasPlan_iff, not_or, not_exists] at h
  intro hbreaks
  cases clause with
  | unique => exact h.1 hbreaks.1
  | cell clause =>
      have hdeclared : ∃ clause, rules.declares clause = true := by
        by_cases hclause : clause = .notNull
        · subst hclause
          exact ⟨.notNull, hbreaks.1⟩
        · have hvalue : ∃ value, rules.ValueBreaks field value clause := by
            cases clause <;> first
              | exact absurd rfl hclause
              | exact hbreaks.imp fun value hvalue => hvalue.2
          obtain ⟨value, hvalue⟩ := hvalue
          exact valueBreaks_declared hvalue
      obtain ⟨clause, hclause⟩ := hdeclared
      exact h.2 clause hclause

omit [Crates] [DebugText] in
theorem map_what_uniqueFindings {column : ColumnPlan} {records : List Record} :
    (uniqueFindings (column, some records)).map Finding.what =
      (duplicateRows records).map fun row => ("unique", column.field.name, some row) :=
  List.map_map ..

omit [DebugText] in
/-- The compiled rule finds each row that breaks a clause once. -/
theorem tested_of_compilesTo {compiled : CompiledRules}
    (hcompiled : rules.CompilesTo field compiled) (hfits : rules.FitsField schema field)
    {arrays : List ArrowArray} {isNull : ℕ → Prop}
    (harrays : ∀ array ∈ arrays, array.field = field)
    (hsized : SizedColumn field.dataType (arrays.flatMap ArrowArray.cells))
    (hnull : field.dataType.NullRows (arrays.flatMap ArrowArray.cells) isNull) :
    ∃ events, ColumnPlan.run ⟨index, field, .fromDataType field.dataType, compiled⟩ arrays 0 =
        .ok events ∧
      ((ColumnPlan.findings ⟨index, field, .fromDataType field.dataType, compiled⟩ events).map
        Finding.what).Nodup ∧
      ∀ what, what ∈ (ColumnPlan.findings ⟨index, field, .fromDataType field.dataType, compiled⟩
          events).map Finding.what ↔ ∃ row clause, what = (clause.rule, field.name, some row) ∧
        rules.BreaksAt field (arrays.flatMap ArrowArray.cells) isNull row clause := by
  generalize hcolumn :
    (⟨index, field, .fromDataType field.dataType, compiled⟩ : ColumnPlan) = column
  have hkind : column.kernel = .fromDataType field.dataType := by rw [← hcolumn]
  have hname : column.field.name = field.name := by rw [← hcolumn]
  have hrules : column.rules = compiled := by rw [← hcolumn]
  have hadmits : ∀ cell ∈ arrays.flatMap ArrowArray.cells, field.dataType.AdmitsPresent cell := by
    intro cell hcell
    obtain ⟨array, harray, hcell⟩ := List.mem_flatMap.mp hcell
    rw [← harrays array harray]
    exact (array.typed cell hcell).present
  have hencodes : column.rules.unique = true → ∀ value, field.dataType.Admits value →
      ∃ bytes, canonicalValueBytes field.dataType (some value) = .ok bytes := by
    rw [hrules, hcompiled.unique]
    exact hfits.unique
  obtain ⟨kernel, hkernel, -⟩ := @exists_cellKernel column field.dataType column.rules.unique _
    (by rw [hkind, hrules]; exact readsBound_of_compileBound hcompiled.min)
    (by rw [hkind, hrules]; exact readsBound_of_compileBound hcompiled.max)
  obtain ⟨parts, hscanned⟩ := column.exists_scanned hkind hkernel hadmits hencodes
  have hprepare : ∀ array ∈ arrays, column.prepare array column.rules.unique = .ok kernel := by
    intro array harray
    have htype : array.dataType = field.dataType := congrArg Field.dataType (harrays array harray)
    rw [ColumnPlan.prepare_eq (by rw [hkind, htype]), htype, hkernel]
  refine ⟨parts.flatten, (run_eq_ok hprepare).mpr ⟨parts, hscanned.events, rfl⟩, ?_⟩
  have hviolations {what : String × String × Option ℕ} :
      what ∈ (findingsOf parts.flatten).map Finding.what ↔ ∃ row clause,
        what = (clause.rule, field.name, some row) ∧
        rules.BreaksAt field (arrays.flatMap ArrowArray.cells) isNull row (.cell clause) := by
    change what ∈ violationsOf parts.flatten ↔ _
    rw [hscanned.violations_eq, mem_violations_iff, hname, hrules]
    constructor
    · rintro ⟨row, cell, clause, hcell, hbreaks, rfl⟩
      exact ⟨row, clause, rfl, (hcompiled.breaksAt_iff hnull hfits.notNull clause).mp
        ⟨cell, hcell, hbreaks⟩⟩
    · rintro ⟨row, clause, rfl, hbreaks⟩
      obtain ⟨cell, hcell, hbreaks⟩ :=
        (hcompiled.breaksAt_iff hnull hfits.notNull clause).mpr hbreaks
      exact ⟨row, cell, clause, hcell, hbreaks, rfl⟩
  have hnodup : ((findingsOf parts.flatten).map Finding.what).Nodup := by
    change (violationsOf parts.flatten).Nodup
    rw [hscanned.violations_eq]
    exact nodup_violations
  -- what repeats is found at the end of the scan, and only if the rule is declared
  rw [ColumnPlan.findings, List.map_append]
  cases hunique : column.rules.unique with
  | false =>
      have hnone : rules.unique = false := by rw [← hcompiled.unique, ← hrules, hunique]
      rw [if_neg Bool.false_ne_true]
      change (_ ++ []).Nodup ∧ ∀ what, what ∈ _ ++ [] ↔ _
      rw [List.append_nil]
      refine ⟨hnodup, fun what => hviolations.trans ?_⟩
      constructor
      · rintro ⟨row, clause, hwhat, hbreaks⟩
        exact ⟨row, .cell clause, hwhat, hbreaks⟩
      · rintro ⟨row, _ | _, hwhat, hbreaks⟩
        · exact ⟨row, _, hwhat, hbreaks⟩
        · exact absurd hbreaks.1 (Bool.eq_false_iff.mp hnone)
  | true =>
      have hdeclared : rules.unique = true := by rw [← hcompiled.unique, ← hrules, hunique]
      rw [if_pos rfl, map_what_uniqueFindings, hname]
      refine ⟨List.nodup_append.mpr ⟨hnodup, ?_, ?_⟩, fun what => ?_⟩
      · refine (hscanned.nodup_duplicateRows hunique hsized.rows).map fun row other h => ?_
        exact Option.some.inj (Prod.mk.inj (Prod.mk.inj h).2).2
      · rintro _ hwhat _ hrepeated rfl
        obtain ⟨row, clause, rfl, -⟩ := hviolations.mp hwhat
        obtain ⟨_, -, hsame⟩ := List.mem_map.mp hrepeated
        exact absurd (Prod.mk.inj hsame).1 (by cases clause <;> decide)
      · rw [List.mem_append, hviolations, List.mem_map]
        constructor
        · rintro (⟨row, clause, hwhat, hbreaks⟩ | ⟨row, hrow, rfl⟩)
          · exact ⟨row, .cell clause, hwhat, hbreaks⟩
          · exact ⟨row, .unique, rfl, hdeclared,
              (hscanned.mem_duplicateRows hunique hsized).mp hrow⟩
        · rintro ⟨row, _ | _, rfl, hbreaks⟩
          · exact .inl ⟨row, _, rfl, hbreaks⟩
          · exact .inr ⟨row, (hscanned.mem_duplicateRows hunique hsized).mpr hbreaks.2, rfl⟩

omit [DebugText] in
/-- The compiler only accepts clauses about the cells of the type, lengths apart. -/
theorem RuleAstV2.CompilesTo.appliesTo {compiled : CompiledRules}
    (h : rules.CompilesTo field compiled)
    (hlength : rules.declaresLength = true → field.dataType.isText = true) {clause : Clause}
    (hdeclares : rules.declares clause = true) : clause.appliesTo field.dataType = true := by
  have hbounds : (KernelKind.fromDataType field.dataType).supportsBounds =
      field.dataType.isBounded := by
    cases field.dataType <;> rfl
  have htext : (KernelKind.fromDataType field.dataType).supportsTextRules =
      field.dataType.isText := by
    cases field.dataType <;> rfl
  have hfloat : (KernelKind.fromDataType field.dataType).isFloat = field.dataType.isFloat := by
    cases field.dataType <;> rfl
  obtain ⟨_, hminMax, hsupport⟩ := bind_eq_ok.mp h.support
  obtain ⟨_, hpattern, hsupport⟩ := bind_eq_ok.mp hsupport
  obtain ⟨_, hallowed, hsupport⟩ := bind_eq_ok.mp hsupport
  obtain ⟨_, hnan, -⟩ := bind_eq_ok.mp hsupport
  rw [rejectIf_eq_ok] at hminMax hpattern hallowed hnan
  rw [hbounds] at hminMax
  rw [htext] at hpattern hallowed
  rw [hfloat] at hnan
  have hsupported {declared supported : Bool} (h : ¬(declared && !supported) = true)
      (hdeclared : declared = true) : supported = true := by
    rw [hdeclared] at h
    simpa using h
  cases clause with
  | notNull => rfl
  | min => exact hsupported hminMax (Bool.or_eq_true _ _ ▸ .inl hdeclares)
  | max => exact hsupported hminMax (Bool.or_eq_true _ _ ▸ .inr hdeclares)
  | nan => exact hsupported hnan hdeclares
  | pattern => exact hsupported hpattern hdeclares
  | allowed => exact hsupported hallowed hdeclares
  | minLength => exact hlength (Bool.or_eq_true _ _ ▸ .inl hdeclares)
  | maxLength => exact hlength (Bool.or_eq_true _ _ ▸ .inr hdeclares)

omit [Crates] [DebugText] in
theorem asksFor_iff : rules.AsksFor ↔ (rules.required || rules.hasValueRules) = true := by
  simp only [RuleAstV2.AsksFor, RuleAstV2.hasValueRules, Bool.or_eq_true]
  constructor
  · rintro (h | h | h | ⟨clause, h⟩)
    · simp [h]
    · simp [h]
    · simp [h]
    · cases clause <;> simp only [RuleAstV2.declares] at h <;> simp [h]
  · rintro (h | (((((((((h | h) | h) | h) | h) | h) | h) | h) | h) | h))
    · exact .inl h
    · exact .inr (.inr (.inr ⟨.notNull, h⟩))
    · exact .inr (.inr (.inl h))
    · exact .inr (.inr (.inr ⟨.minLength, h⟩))
    · exact .inr (.inr (.inr ⟨.maxLength, h⟩))
    · exact .inr (.inl h)
    · exact .inr (.inr (.inr ⟨.min, h⟩))
    · exact .inr (.inr (.inr ⟨.max, h⟩))
    · exact .inr (.inr (.inr ⟨.nan, h⟩))
    · exact .inr (.inr (.inr ⟨.pattern, h⟩))
    · exact .inr (.inr (.inr ⟨.allowed, h⟩))

omit [Crates] [DebugText] in
theorem exists_resolve {name : String} (hmem : field ∈ schema.fields) (hname : field.name = name) :
    ∃ index found, schema.resolve name = some (index, found) := by
  have hindex : (schema.indexOf name).isSome = true := by
    rw [Schema.indexOf, List.findIdx?_isSome, List.any_eq_true]
    exact ⟨field, hmem, by simpa using hname⟩
  obtain ⟨index, hindex⟩ := Option.isSome_iff_exists.mp hindex
  obtain ⟨hlt, -, -⟩ := List.findIdx?_eq_some_iff_getElem.mp hindex
  refine ⟨index, schema.fields[index], ?_⟩
  rw [Schema.resolve, hindex, Option.bind_some, List.getElem?_eq_getElem hlt, Option.map_some]

omit [DebugText] in
/-- What an execution finds in a column is in its verdict. -/
theorem reported_columnFindings {reader : BatchReader} {fingerprint : Bool}
    {references : ReferenceBindings} {maxMemoryBytes : ℕ} {verdict : Verdict}
    (h : verdictOf reader plan fingerprint references maxMemoryBytes = .ok verdict)
    {batches : List RecordBatch} {arrays : List ArrowArray}
    (hitems : reader.items = batches.map .ok)
    (harrays : batches.mapM (fun batch => batch.column index) = .ok arrays) :
    ∃ findings rest, plan.columnFindings index arrays = .ok findings ∧
      verdict.findings.Perm (findings ++ rest) := by
  unfold CompiledContract.columnFindings
  cases hfind : plan.columns.find? (·.columnIndex = index) with
  | none => exact ⟨[], verdict.findings, rfl, List.Perm.refl _⟩
  | some column =>
      obtain ⟨batches', arrays', events, rest, hitems', -, harrays', hevents, hperm⟩ :=
        verdict_column h (List.mem_of_find?_eq_some hfind)
      have hindex := List.find?_some hfind
      rw [decide_eq_true_iff] at hindex
      obtain rfl : batches = batches' :=
        List.map_injective_iff.mpr (fun _ _ => Except.ok.inj) (hitems.symm.trans hitems')
      rw [hindex, harrays] at harrays'
      cases harrays'
      exact ⟨column.findings events, rest, map_eq_ok.mpr ⟨events, hevents, rfl⟩, hperm⟩

/-- What the compiler has looked at: a rule that asks for something has its column, and the first
column of the name has the required type. -/
theorem checked_of_compileV2 {name : String}
    (h : CompiledContract.compileV2 contract schema = .ok plan)
    (hrules : SortedMap.find name contract.columns = some rules) :
    (rules.AsksFor → ∃ field ∈ schema.fields, field.name = name) ∧
      ∀ index field, schema.resolve name = some (index, field) →
        ∀ expected, rules.expectedType = some expected → field.dataType = expected.dataType := by
  obtain ⟨⟨⟩, hchecked, -⟩ := bind_eq_ok.mp h
  have hcheck : CompiledContract.checkColumnV2 schema (name, rules) = .ok () :=
    forM_eq_ok.mp hchecked _ (SortedMap.mem_of_find_eq_some hrules)
  unfold CompiledContract.checkColumnV2 at hcheck
  cases hresolve : schema.resolve name with
  | none =>
      rw [hresolve] at hcheck
      refine ⟨fun hasks => ?_, by rintro _ _ ⟨⟩⟩
      exact absurd (asksFor_iff.mp hasks) (rejectIf_eq_ok.mp hcheck)
  | some found =>
      obtain ⟨index, field⟩ := found
      rw [hresolve] at hcheck
      refine ⟨fun _ => ⟨field, List.mem_of_getElem? (field_of_resolve hresolve),
        name_of_resolve hresolve⟩, ?_⟩
      rintro _ _ ⟨⟩ expected hexpected
      dsimp only at hcheck
      rw [hexpected] at hcheck
      have hmatches := rejectIf_eq_ok.mp hcheck
      rw [Bool.not_eq_true', Bool.not_eq_false, expectedTypeMatches, decide_eq_true_iff] at hmatches
      exact hmatches

/-- Where the rule fits the columns of its name, they are all held to it. -/
theorem enforcedAt_of_fitsField (h : CompiledContract.compileV2 contract schema = .ok plan)
    (hrules : SortedMap.find field.name contract.columns = some rules)
    (hfield : schema.fields[index]? = some field) (hfits : rules.FitsField schema field) :
    rules.EnforcedAt index field plan := by
  have hmem := List.mem_of_getElem? hfield
  have hcolumn := planColumnV2_eq_ok (find_columns h hfield) hrules
  refine ⟨fun expected hexpected => ?_, fun clause hdeclares => ?_, ?_, ?_⟩
  · obtain ⟨position, first, hresolve⟩ := exists_resolve hmem rfl
    have hfirst := List.mem_of_getElem? (field_of_resolve hresolve)
    rw [← hfits.type (by rw [hexpected]; rfl) first hfirst (name_of_resolve hresolve)]
    exact (checked_of_compileV2 h hrules).2 position first hresolve expected hexpected
  · rcases hcolumn with ⟨hnone, -⟩ | ⟨-, compiled, hcompiled, -⟩
    · exact absurd (hasPlan_iff.mpr (.inr ⟨clause, hdeclares⟩)) hnone
    · exact hcompiled.appliesTo hfits.length hdeclares
  · intro arrays isNull harrays hsized hnull
    unfold CompiledContract.columnFindings
    rcases hcolumn with ⟨hnone, hfind⟩ | ⟨-, compiled, hcompiled, hfind⟩ <;> rw [hfind]
    · refine ⟨[], rfl, List.nodup_nil, fun what => ?_⟩
      refine iff_of_false List.not_mem_nil ?_
      rintro ⟨row, clause, -, hbreaks⟩
      exact not_breaksAt_of_not_hasPlan hnone hbreaks
    · obtain ⟨events, hevents, hnodup, hiff⟩ :=
        @tested_of_compilesTo _ _ index _ _ _ hcompiled hfits _ _ harrays hsized hnull
      exact ⟨_, map_eq_ok.mpr ⟨events, hevents, rfl⟩, hnodup, hiff⟩
  · intro reader fingerprint references maxMemoryBytes verdict hverdict batches arrays hitems
      harrays
    exact reported_columnFindings hverdict hitems harrays

omit [Crates] [DebugText] in
theorem exists_nullRows (dataType : DataType) (cells : List (Option Value)) :
    ∃ isNull, dataType.NullRows cells isNull := by
  cases hshows : dataType.showsNulls with
  | true =>
      refine ⟨fun row => cells[row]? = some none, ?_⟩
      cases dataType <;> first | exact fun _ => Iff.rfl | exact absurd hshows Bool.false_ne_true
  | false =>
      refine ⟨fun _ => True, ?_⟩
      cases dataType <;> first
        | exact fun _ _ => trivial
        | exact absurd hshows.symm Bool.false_ne_true

/-- What is found in a column of one cell comes from that cell. -/
theorem exists_part_of_columnFindings (h : CompiledContract.compileV2 contract schema = .ok plan)
    (hrules : SortedMap.find field.name contract.columns = some rules)
    (hfield : schema.fields[index]? = some field) (hplan : rules.HasPlan) {array : ArrowArray}
    (harray : array.field = field) {cell : Option Value} (hcells : array.cells = [cell])
    {findings : List Finding} (hfindings : plan.columnFindings index [array] = .ok findings) :
    ∃ compiled kernel part, rules.CompilesTo field compiled ∧
      ColumnPlan.cellKernel ⟨index, field, .fromDataType field.dataType, compiled⟩ field.dataType
        rules.unique = .ok kernel ∧
      ColumnPlan.cellEvents ⟨index, field, .fromDataType field.dataType, compiled⟩ kernel cell 0 =
        .ok part ∧
      findings =
        ColumnPlan.findings ⟨index, field, .fromDataType field.dataType, compiled⟩ part := by
  unfold CompiledContract.columnFindings at hfindings
  rcases planColumnV2_eq_ok (find_columns h hfield) hrules with ⟨hnone, -⟩ | ⟨-, compiled,
    hcompiled, hfind⟩
  · exact absurd hplan hnone
  rw [hfind] at hfindings
  obtain ⟨events, hevents, rfl⟩ := map_eq_ok.mp hfindings
  obtain ⟨first, hfirst, hevents⟩ := bind_eq_ok.mp hevents
  obtain ⟨rest, hrest, hevents⟩ := bind_eq_ok.mp hevents
  cases hrest
  cases hevents
  obtain ⟨kernel, hkernel, hfirst⟩ := bind_eq_ok.mp hfirst
  have hkernel := cellKernel_of_prepare hkernel
  obtain ⟨parts, hparts, rfl⟩ := collectRows_eq_ok.mp hfirst
  rw [hcells, List.zipIdx_singleton, List.forall₂_cons_left_iff] at hparts
  obtain ⟨part, _, hpart, hnil, rfl⟩ := hparts
  rw [List.forall₂_nil_left_iff] at hnil
  subst hnil
  refine ⟨compiled, kernel, part, hcompiled, ?_, hpart, ?_⟩
  · have htype : array.dataType = field.dataType := congrArg Field.dataType harray
    rw [htype] at hkernel
    rw [← hcompiled.unique]
    exact hkernel
  · rw [List.flatten_cons, List.flatten_nil, List.append_nil, List.append_nil]

/-- A column with one cell. -/
def ArrowArray.ofCell (field : Field) (cell : Option Value) (h : field.AdmitsCell cell) :
    ArrowArray where
  field
  cells := [cell]
  typed := by
    intro other hother
    rw [List.mem_singleton.mp hother]
    exact h

omit [Crates] [DebugText] in
theorem admitsCell_some {value : Value} :
    field.AdmitsCell (some value) ↔ field.dataType.Admits value := by
  cases field
  exact Iff.rfl

/-- Where nulls are found by a declared clause, the column shows them. -/
theorem showsNulls_of_enforcedAt (h : CompiledContract.compileV2 contract schema = .ok plan)
    (hrules : SortedMap.find field.name contract.columns = some rules)
    (hfield : schema.fields[index]? = some field) (hat : rules.EnforcedAt index field plan)
    (hnotNull : rules.notNull = true) : field.dataType.showsNulls = true := by
  by_contra hshows
  -- such a column has no cell without a value, and its rows may all be null
  have hadmits : field.dataType.Admits (.raw []) := by
    cases hdataType : field.dataType <;> rw [hdataType] at hshows <;> first
      | exact absurd rfl hshows
      | rfl
  have hnull : field.dataType.NullRows [some (.raw [])] fun _ => True := by
    cases hdataType : field.dataType <;> rw [hdataType] at hshows <;> first
      | exact absurd rfl hshows
      | exact fun _ _ => trivial
  obtain ⟨findings, hfindings, -, hiff⟩ := hat.tested
    [.ofCell field (some (.raw [])) (admitsCell_some.mpr hadmits)] (fun _ => True)
    (by simp [ArrowArray.ofCell])
    ⟨by simp [ArrowArray.ofCell], by
      intro value hmem bytes hbytes
      simp only [List.flatMap_cons, List.flatMap_nil, ArrowArray.ofCell, List.append_nil,
        List.mem_singleton, Option.some.injEq] at hmem
      rw [hmem, canonicalValueBytes] at hbytes
      cases hbytes⟩
    (by simpa [ArrowArray.ofCell] using hnull)
  have hfound := (hiff ("not_null", field.name, some 0)).mpr ⟨0, .cell .notNull, rfl, hnotNull,
    by simp [ArrowArray.ofCell], trivial⟩
  -- but the kernel finds nothing there, and what the end of the scan finds is no null
  obtain ⟨compiled, kernel, part, hcompiled, hkernel, hpart, rfl⟩ :=
    exists_part_of_columnFindings h hrules hfield (hasPlan_iff.mpr (.inr ⟨.notNull, hnotNull⟩))
      rfl rfl hfindings
  have hviolations : violationsOf part = [] := by
    rw [violationsOf_cellEvents rfl hkernel
      (fun _ heq => Option.some.inj heq ▸ hadmits) hpart, broken_of_not_scalar (by rintro _ ⟨⟩)]
    rfl
  rw [ColumnPlan.findings, List.map_append, List.mem_append] at hfound
  rcases hfound with hfound | hfound
  · change _ ∈ violationsOf part at hfound
    rw [hviolations] at hfound
    cases hfound
  · obtain ⟨finding, hfinding, hwhat⟩ := List.mem_map.mp hfound
    have hrule : finding.rule = "not_null" := congrArg Prod.fst hwhat
    unfold uniqueFindings at hfinding
    split at hfinding
    · cases hfinding
    · obtain ⟨_, -, rfl⟩ := List.mem_map.mp hfinding
      have hrule : "unique" = "not_null" := hrule
      exact absurd hrule (by decide)

/-- Where repeated values are found, the values of the column have canonical bytes. -/
theorem exists_canonicalValueBytes_of_enforcedAt
    (h : CompiledContract.compileV2 contract schema = .ok plan)
    (hrules : SortedMap.find field.name contract.columns = some rules)
    (hfield : schema.fields[index]? = some field) (hat : rules.EnforcedAt index field plan)
    (hunique : rules.unique = true) {value : Value} (hvalue : field.dataType.Admits value) :
    ∃ bytes, canonicalValueBytes field.dataType (some value) = .ok bytes := by
  by_contra hnone
  -- scalars have such bytes, so the column goes through the fallback kernel, which asks for them
  have hscalar : field.dataType.isScalar = false := by
    rw [Bool.eq_false_iff]
    intro hscalar
    obtain ⟨scalar, rfl⟩ := (isScalar_iff_of_admits hvalue).mp hscalar
    obtain ⟨bytes, hbytes⟩ := exists_scalarBytes (admitsScalar_of_admits hvalue)
    exact hnone ⟨bytes, by rw [canonicalValueBytes, hbytes]⟩
  obtain ⟨isNull, hnull⟩ := exists_nullRows field.dataType [some value]
  obtain ⟨findings, hfindings, -⟩ := hat.tested
    [.ofCell field (some value) (admitsCell_some.mpr hvalue)] isNull
    (by simp [ArrowArray.ofCell])
    ⟨by simp [ArrowArray.ofCell], by
      intro other hmem bytes hbytes
      simp only [List.flatMap_cons, List.flatMap_nil, ArrowArray.ofCell, List.append_nil,
        List.mem_singleton, Option.some.injEq] at hmem
      rw [hmem] at hbytes
      exact absurd ⟨bytes, hbytes⟩ hnone⟩
    (by simpa [ArrowArray.ofCell] using hnull)
  obtain ⟨compiled, kernel, part, -, hkernel, hpart, -⟩ :=
    exists_part_of_columnFindings h hrules hfield (hasPlan_iff.mpr (.inl hunique))
      rfl rfl hfindings
  rw [hunique] at hkernel
  have hkernel : kernel = scanFallback field.dataType true := by
    unfold ColumnPlan.cellKernel at hkernel
    cases hdataType : field.dataType <;> rw [hdataType] at hkernel hscalar <;> first
      | exact absurd hscalar.symm Bool.false_ne_true
      | (cases hkernel; rfl)
  rw [hkernel] at hpart
  obtain ⟨bytes, hbytes, -⟩ := bind_eq_ok.mp hpart
  exact hnone ⟨bytes, hbytes⟩

/-- A plan that enforces a rule on a column fits the column. -/
theorem fitsField_of_enforcedAt (h : CompiledContract.compileV2 contract schema = .ok plan)
    (hrules : SortedMap.find field.name contract.columns = some rules)
    (hfield : schema.fields[index]? = some field)
    (henforced : ∀ position other, schema.fields[position]? = some other →
      other.name = field.name → rules.EnforcedAt position other plan) :
    rules.FitsField schema field := by
  have hat := henforced index field hfield rfl
  constructor
  case length =>
    intro hlength
    rcases Bool.or_eq_true _ _ ▸ hlength with hmin | hmax
    · exact hat.applies .minLength hmin
    · exact hat.applies .maxLength hmax
  case notNull => exact showsNulls_of_enforcedAt h hrules hfield hat
  case unique =>
    intro hunique value hvalue
    exact exists_canonicalValueBytes_of_enforcedAt h hrules hfield hat hunique hvalue
  case type =>
    intro hexpected other hother hname
    obtain ⟨expected, hexpected⟩ := Option.isSome_iff_exists.mp hexpected
    obtain ⟨position, hposition⟩ := List.mem_iff_getElem?.mp hother
    rw [(henforced position other hposition hname).type expected hexpected,
      hat.type expected hexpected]

/-- The rules of the columns of a contract are enforced exactly if each fits the columns of its
name.  It is about the scan and the verdict: where the schema has a type without canonical bytes
(`Time32`, `Duration`, `Null`), the report that would show the verdict ends in `UnsupportedType`. -/
theorem columnClauses_enforced_iff (h : CompiledContract.compileV2 contract schema = .ok plan) :
    (∀ name rules, SortedMap.find name contract.columns = some rules →
        rules.EnforcedIn name schema plan) ↔
      ∀ name rules, SortedMap.find name contract.columns = some rules →
        ∀ field ∈ schema.fields, field.name = name → rules.FitsField schema field := by
  constructor
  · rintro henforced name rules hrules field hmem rfl
    obtain ⟨index, hindex⟩ := List.mem_iff_getElem?.mp hmem
    exact fitsField_of_enforcedAt h hrules hindex (henforced _ rules hrules).enforced
  · intro hfits name rules hrules
    refine ⟨(checked_of_compileV2 h hrules).1, ?_⟩
    rintro index field hfield rfl
    exact enforcedAt_of_fitsField h hrules hfield
      (hfits _ rules hrules field (List.mem_of_getElem? hfield) rfl)

end Plans

end Enforcement

/-- The rule that asks for a minimum of five characters. -/
def atLeastFiveCharacters : RuleAstV2 where
  required := false
  notNull := false
  unique := false
  expectedType := none
  min := none
  max := none
  nan := none
  pattern := none
  allowed := none
  minLength := some 5
  maxLength := none

/-- The contract with this rule for a column, and no other. -/
def fiveCharactersContract (name : String) : ContractAstV2 where
  version := .v2
  status := .active
  suggestedFrom := none
  columns := [(name, atLeastFiveCharacters)]
  rowRules := []
  datasetRules := Reader.noDatasetRules
  maxFindings := Reader.defaultMaxFindings

/-- A column of texts. -/
def labelsSchema : Schema := ⟨[.mk "label" .utf8 true []], []⟩

/-- A text may have five characters. -/
theorem columnClauses_enforced_iff_label : let _ : Crates := Crates.zeroDigests
    let _ : DebugText := .quotes
    ∃ plan, CompiledContract.compileV2 (fiveCharactersContract "label") labelsSchema = .ok plan ∧
      atLeastFiveCharacters.EnforcedIn "label" labelsSchema plan := by
  intro _ _
  have hplan : CompiledContract.compileV2 (fiveCharactersContract "label") labelsSchema =
      .ok _ := rfl
  refine ⟨_, hplan, (columnClauses_enforced_iff hplan).mpr ?_ "label" _ rfl⟩
  intro name rules hrules field hfield hname
  obtain rfl := List.mem_singleton.mp hfield
  subst hname
  obtain rfl : atLeastFiveCharacters = rules := Option.some.inj hrules
  exact ⟨fun _ => rfl, nofun, nofun, nofun⟩

/-- A document that asks for five characters of a column of bytes. -/
def fiveCharactersDocument : Json := .object [
  ("version", .string "proofframe.contract.v2"),
  ("columns", .object [("value", .object [("min_length", .number "5")])])]

/-- The document is accepted, and no byte is ever held to it. -/
theorem atLeastFiveCharacters_unenforced : let _ : Crates := Crates.zeroDigests
    let _ : SerdeJson := .reading fiveCharactersDocument
    let _ : SerdeContent := .same
    let _ : DebugText := .quotes
    ∃ plan, ContractDocument.fromJson fiveCharactersDocument.compact =
        .ok (.v2 (fiveCharactersContract "value")) ∧
      CompiledContract.compileV2 (fiveCharactersContract "value") byteBatch.schema = .ok plan ∧
      ¬∀ name rules,
        SortedMap.find name (fiveCharactersContract "value").columns = some rules →
          rules.EnforcedIn name byteBatch.schema plan := by
  intro _ _ _ _
  have hvalue : ContractDocument.parseValue fiveCharactersDocument.compact =
      .ok fiveCharactersDocument.toValue := by
    have hparse : SerdeJson.parse fiveCharactersDocument.compact = .ok fiveCharactersDocument :=
      if_pos rfl
    rw [ContractDocument.parseValue, hparse]
  refine ⟨_, ?_, rfl, fun henforced => ?_⟩
  · unfold ContractDocument.fromJson
    rw [hvalue]
    rfl
  · have hat := (henforced "value" atLeastFiveCharacters rfl).enforced 0
      (.mk "value" .int8 true []) rfl rfl
    exact absurd (hat.applies .minLength rfl) (by decide)

end ProofFrame
