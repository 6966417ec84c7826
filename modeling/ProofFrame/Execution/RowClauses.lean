import ProofFrame.Contract.Strictness
import ProofFrame.Execution.Clauses
import ProofFrame.Execution.WellTyped

/-!
# What a row rule asks

A row rule compares two operands of a row, or asks something of a cell in the rows that a guard
selects.  Both forms are described here from the source of the rule, row by row, without the
plan that the compiler makes of it.

## Strategy

* An operand has a cell in every row, and a comparison an outcome under its null policy
  (`hasOutcome_iff`: the one its plan computes).
* An assertion fails in a row whose cell breaks a clause (`scanAssertionRow_eq`).
* A clause is ignored if the plan is the same whatever it says.  The compiler reads `compare`
  first and then nothing else, so `when` and `assert` beside it are ignored.
* An assertion on a type without a kernel of its own, or on bytes, is compiled, but a scan ends
  at the first selected row with a value (`RowRuleAst.Unjudged`).
-/

namespace ProofFrame

open Lib Lib.Run Lib.Ieee754

/-! ## Comparisons -/

/-- The cell an operand has in a row, where it is compared at the type. -/
def OperandAst.HasCell (batch : RecordBatch) (dataType : DataType) (row : ℕ) :
    OperandAst → Option Value → Prop
  | .column name, cell => ∃ index field array, batch.schema.resolve name = some (index, field) ∧
      field.dataType = dataType ∧ batch.columns[index]? = some array ∧ array.cells[row]? = some cell
  | .literal json, cell => ∃ scalar, (KernelKind.fromDataType dataType).Relates scalar ∧
      json.Denotes scalar ∧ cell = some (.scalar scalar)

/-- The outcome of a comparison with a null: two nulls are equal to each other and to nothing
else, where the policy says so. -/
def CompareAst.nullOutcome (source : CompareAst) (leftNull rightNull : Bool) : Option Bool :=
  match source.nulls, source.op with
  | .skip, _ => none
  | .fail, _ => some false
  | .equal, .eq => some (leftNull && rightNull)
  | .equal, .ne => some (leftNull != rightNull)
  | .equal, _ => some false

/-- The outcome of a comparison of two cells. -/
def CompareAst.CellsHaveOutcome (source : CompareAst) :
    Option Value → Option Value → Option Bool → Prop
  | some (.scalar left), some (.scalar right), outcome =>
      ∃ holds, compareScalars source.op left right = .ok holds ∧ outcome = some holds
  | some _, some _, _ => False
  | left, right, outcome => outcome = source.nullOutcome left.isNone right.isNone

/-- The outcome of a comparison in a row. -/
def CompareAst.HasOutcome (source : CompareAst) (batch : RecordBatch) (row : ℕ)
    (outcome : Option Bool) : Prop :=
  ∃ dataType left right, ¬(source.left.isLiteral = true ∧ source.right.isLiteral = true) ∧
    source.left.HasCell batch dataType row left ∧ source.right.HasCell batch dataType row right ∧
    source.CellsHaveOutcome left right outcome

section Comparisons

variable {schema : Schema} {dataType : DataType} {batch : RecordBatch} {row : ℕ}

/-- Among the scalars of a kernel, a literal denotes at most one. -/
theorem denotes_unique {kernel : KernelKind} {json : Json} {scalar other : Scalar}
    (h : kernel.Relates scalar) (h' : kernel.Relates other) (hdenotes : json.Denotes scalar)
    (hdenotes' : json.Denotes other) : scalar = other := by
  have hsame {text : String} {value value' : ℤ} {bits : ℕ} (h : parseSigned bits text = some value)
      (h' : parseSigned bits text = some value') : value = value' :=
    Option.some.inj (h.symm.trans h')
  unfold KernelKind.Relates at h
  split at h
  all_goals first
    | exact absurd h id
    | (cases other <;> first | exact absurd h' id | skip)
  all_goals cases json <;> first | exact absurd hdenotes id | skip
  case h_1 => exact congrArg Scalar.boolean (Eq.trans hdenotes (Eq.symm hdenotes'))
  case h_2 | h_3 | h_4 | h_5 | h_6 | h_7 | h_8 => exact congrArg Scalar.signed (hsame hdenotes hdenotes')
  case h_9 | h_10 | h_11 | h_12 =>
    have hvalue := Option.some.inj (Eq.trans (Eq.symm hdenotes) hdenotes')
    exact congrArg Scalar.unsigned (by exact_mod_cast hvalue)
  case h_13 =>
    obtain ⟨-, wide, hwide, rfl⟩ := hdenotes
    obtain ⟨-, wide', hwide', rfl⟩ := hdenotes'
    rw [hwide] at hwide'
    cases hwide'
    rfl
  case h_14 => exact congrArg Scalar.float64 (Option.some.inj (Eq.trans (Eq.symm hdenotes) hdenotes'))
  all_goals exact congrArg Scalar.text (Eq.trans hdenotes (Eq.symm hdenotes'))

theorem exists_literalScalar {json : Json} {literal : ScalarValuePlan}
    (hliteral : literalPlan json dataType = some literal) :
    ∃ scalar, literalScalar (.fromDataType dataType) literal = some scalar ∧
      json.Denotes scalar := by
  by_cases htext : ∃ text, json = .string text
  · obtain ⟨text, rfl⟩ := htext
    cases dataType <;> cases hliteral
    all_goals exact ⟨.text text, rfl, rfl⟩
  · obtain ⟨scalar, hadmits, hdenotes⟩ := exists_denotes hliteral fun text h => htext ⟨text, h⟩
    exact ⟨scalar, literalScalar_of_denotes hliteral hadmits hdenotes, hdenotes⟩

/-- The cast of a literal gives what it denotes. -/
theorem literalScalar_iff {json : Json} {literal : ScalarValuePlan}
    (hliteral : literalPlan json dataType = some literal) {scalar : Scalar} :
    literalScalar (.fromDataType dataType) literal = some scalar ↔
      (KernelKind.fromDataType dataType).Relates scalar ∧ json.Denotes scalar := by
  obtain ⟨found, hfound, hdenotes⟩ := exists_literalScalar hliteral
  constructor
  · intro h
    obtain rfl := Option.some.inj (hfound.symm.trans h)
    exact ⟨relates_of_literalScalar h, hdenotes⟩
  · rintro ⟨hrelates, hscalar⟩
    rw [hfound, denotes_unique (relates_of_literalScalar hfound) hrelates hdenotes hscalar]

/-- The cell an operand has is the one its plan reads. -/
theorem hasCell_iff {source : OperandAst} {plan : OperandPlan}
    (h : source.CompilesTo batch.schema dataType plan) (hrow : row < batch.rows)
    {cell : Option Value} :
    source.HasCell batch dataType row cell ↔
      cell = plan.cellAt (.fromDataType dataType) batch row := by
  cases source with
  | column name =>
      obtain ⟨index, field, hresolve, rfl, rfl⟩ := h
      obtain ⟨array, harray, -, hrows⟩ := column_of_resolve rfl hresolve
      have hlt : row < array.cells.length := hrows ▸ hrow
      rw [OperandPlan.ofColumn, cellAt_column harray, List.getElem?_eq_getElem hlt,
        Option.join_some]
      constructor
      · rintro ⟨found, foundField, other, hfound, -, hother, hcell⟩
        rw [hresolve] at hfound
        cases hfound
        rw [harray] at hother
        cases hother
        rw [List.getElem?_eq_getElem hlt] at hcell
        exact (Option.some.inj hcell).symm
      · rintro rfl
        exact ⟨index, field, array, hresolve, rfl, harray, List.getElem?_eq_getElem hlt⟩
  | literal json =>
      obtain ⟨literal, hliteral, rfl⟩ := h
      obtain ⟨scalar, hscalar, -⟩ := exists_literalScalar hliteral
      have hdenoted := (literalScalar_iff hliteral).mp hscalar
      rw [OperandPlan.cellAt, hscalar, Option.map_some]
      constructor
      · rintro ⟨other, hrelates, hdenotes, rfl⟩
        rw [denotes_unique hrelates hdenoted.1 hdenotes hdenoted.2]
      · rintro rfl
        exact ⟨scalar, hdenoted.1, hdenoted.2, rfl⟩

theorem cellsHaveOutcome_iff {source : CompareAst} {plan : ComparePlan} (hop : plan.op = source.op)
    (hnulls : plan.nulls = source.nulls) {left right : Option Value} {outcome : Option Bool} :
    source.CellsHaveOutcome left right outcome ↔
      compareCells plan left right = .ok outcome := by
  obtain ⟨sourceLeft, op, sourceRight, nulls⟩ := source
  dsimp only at hop hnulls
  have hnull (leftNull rightNull : Bool) : nullOutcome leftNull rightNull plan =
      CompareAst.nullOutcome ⟨sourceLeft, op, sourceRight, nulls⟩ leftNull rightNull := by
    unfold nullOutcome CompareAst.nullOutcome
    rw [hop, hnulls]
    cases nulls <;> cases op <;> rfl
  rcases left with _ | (left | _ | _ | _) <;> rcases right with _ | (right | _ | _ | _)
  case some.scalar.some.scalar =>
    change (∃ holds, compareScalars op left right = .ok holds ∧ outcome = some holds) ↔
      (compareScalars plan.op left right >>= fun holds => .ok (some holds)) = .ok outcome
    rw [hop, bind_eq_ok]
    simp only [Except.ok.injEq, eq_comm]
  all_goals first
    | (change outcome = _ ↔ Except.ok _ = Except.ok outcome
       rw [hnull, Except.ok.injEq, eq_comm])
    | (constructor <;> intro h <;> first | cases h)

/-- The type at which two operands are compared is the one of a column among them. -/
theorem dataType_of_hasCell {source : OperandAst} {plan : OperandPlan}
    (h : source.CompilesTo batch.schema dataType plan) (hcolumn : source.isLiteral = false)
    {other : DataType} {cell : Option Value} (hcell : source.HasCell batch other row cell) :
    other = dataType := by
  cases source with
  | column name =>
      obtain ⟨index, field, hresolve, rfl, -⟩ := h
      obtain ⟨found, foundField, array, hfound, rfl, -⟩ := hcell
      rw [hresolve] at hfound
      cases hfound
      rfl
  | literal json => cases hcolumn

/-- The outcome of a comparison in a row is the one its plan computes. -/
theorem hasOutcome_iff {source : CompareAst} {plan : ComparePlan}
    (h : source.CompilesTo batch.schema dataType plan) {outcomes : List (Option Bool)}
    (houtcomes : scanPredicate plan batch = .ok outcomes) (hrow : row < batch.rows)
    {outcome : Option Bool} :
    source.HasOutcome batch row outcome ↔ outcomes[row]? = some outcome := by
  have hplan := scanPredicate_eq h rfl
  rw [houtcomes, eq_comm, mapM_eq_ok] at hplan
  have hlength : outcomes.length = batch.rows := by rw [← hplan.length_eq, List.length_range]
  have hlt : row < outcomes.length := hlength.symm ▸ hrow
  have hcomputed := hplan.get (by rwa [List.length_range]) hlt
  rw [List.get_eq_getElem, List.get_eq_getElem, List.getElem_range] at hcomputed
  rw [List.getElem?_eq_getElem hlt]
  constructor
  · rintro ⟨other, left, right, -, hleft, hright, hcells⟩
    have hother : other = dataType := by
      by_cases hliteral : source.left.isLiteral = true
      · have hcolumn : source.right.isLiteral = false := by
          simpa [hliteral] using h.column
        exact dataType_of_hasCell h.right hcolumn hright
      · exact dataType_of_hasCell h.left (by simpa using hliteral) hleft
    subst hother
    rw [hasCell_iff h.left hrow] at hleft
    rw [hasCell_iff h.right hrow] at hright
    rw [cellsHaveOutcome_iff h.op h.nulls, hleft, hright, hcomputed] at hcells
    exact congrArg some (Except.ok.inj hcells)
  · intro houtcome
    refine ⟨dataType, _, _, h.column, (hasCell_iff h.left hrow).mpr rfl,
      (hasCell_iff h.right hrow).mpr rfl, ?_⟩
    rw [cellsHaveOutcome_iff h.op h.nulls, hcomputed, Option.some.inj houtcome]

end Comparisons

/-! ## Row rules -/

section Rules

variable [Crates] {batch : RecordBatch} {row : ℕ}

/-- The cell an assertion is about breaks one of its clauses. -/
def AssertionAst.FailsAt (assertion : AssertionAst) (batch : RecordBatch) (row : ℕ) : Prop :=
  ∃ index field array cell rules clause,
    batch.schema.resolve assertion.column = some (index, field) ∧
    batch.columns[index]? = some array ∧ array.cells[row]? = some cell ∧
    compileRules assertion.column field.dataType (.fromDataType field.dataType) assertion.rules
      (none, none) = .ok rules ∧
    rules.breaks cell clause = true

/-- The guard holds in the row, if there is one, and the comparison or the assertion fails. -/
def RowRuleAst.Violated (rule : RowRuleAst) (batch : RecordBatch) (row : ℕ) : Prop :=
  (∀ guard, rule.when = some guard → guard.HasOutcome batch row (some true)) ∧
    ((∃ comparison, rule.compare = some comparison ∧
        comparison.HasOutcome batch row (some false)) ∨
      ∃ assertion, rule.assertion = some assertion ∧ assertion.FailsAt batch row)

/-- The guard selects a row with a value, and the type of the value is one that no kernel judges. -/
def RowRuleAst.Unjudged (rule : RowRuleAst) (schema : Schema) : Prop :=
  ∃ guard assertion index field, rule.compare = none ∧ rule.when = some guard ∧
    rule.assertion = some assertion ∧ schema.resolve assertion.column = some (index, field) ∧
    (KernelKind.fromDataType field.dataType).judgesRows = false ∧
    ∃ batch row array value, batch.schema = schema ∧ guard.HasOutcome batch row (some true) ∧
      row < batch.rows ∧ batch.columns[index]? = some array ∧
      array.cells[row]? = some (some value)

/-- The plan enforces the rule: it would be another plan without one of the clauses of the rule,
and a scan of a batch ends with violations in the rows that violate the rule. -/
structure RowRuleAst.EnforcedBy (rule : RowRuleAst) (index : ℕ) (schema : Schema) (plan : RowPlan) :
    Prop where
  compare : rule.compare.isSome →
    ¬∀ other, RowPlan.compile { rule with compare := other } schema index = .ok plan
  when : rule.when.isSome →
    ¬∀ other, RowPlan.compile { rule with when := other } schema index = .ok plan
  assertion : rule.assertion.isSome →
    ¬∀ other, RowPlan.compile { rule with assertion := other } schema index = .ok plan
  violated : ∀ batch, batch.schema = schema → ∀ rowOffset, ∃ events,
    plan.events batch rowOffset = .ok events ∧ ∀ flagged, flagged ∈ rowsOf events ↔
      ∃ row < batch.rows, flagged = some (rowOffset + row) ∧ rule.Violated batch row

omit [Crates] in
/-- The rows flagged are those with a violation. -/
theorem mem_rowsOf_collectRows {ι : Type} {events : ι → ℕ → Except Fault (List Event)}
    {items : List ι} {rowOffset : ℕ} {performed : List Event}
    (h : collectRows events items rowOffset = .ok performed)
    (hrow : ∀ item row part, events item row = .ok part → ∀ flagged ∈ rowsOf part, flagged = some row)
    {flagged : Option ℕ} :
    flagged ∈ rowsOf performed ↔ ∃ row item part, items[row]? = some item ∧
      flagged = some (rowOffset + row) ∧ events item (rowOffset + row) = .ok part ∧
        rowsOf part ≠ [] := by
  obtain ⟨parts, hparts, rfl⟩ := collectRows_eq_ok.mp h
  rw [rowsOf_flatten, List.mem_flatMap]
  constructor
  · rintro ⟨part, hpart, hflagged⟩
    obtain ⟨⟨item, position⟩, hentry, hevents⟩ := exists_of_forall₂ hparts.flip hpart
    obtain ⟨hle, hitem⟩ := List.mk_mem_zipIdx_iff_le_and_getElem?_sub.mp hentry
    have hposition : rowOffset + (position - rowOffset) = position := by omega
    refine ⟨position - rowOffset, item, part, hitem, ?_, ?_, List.ne_nil_of_mem hflagged⟩
    · rw [hposition]
      exact hrow _ _ _ hevents _ hflagged
    · rwa [hposition]
  · rintro ⟨row, item, part, hitem, rfl, hevents, hnonempty⟩
    have hentry : (item, rowOffset + row) ∈ items.zipIdx rowOffset := by
      rw [List.mk_mem_zipIdx_iff_le_and_getElem?_sub]
      exact ⟨Nat.le_add_right .., by rwa [Nat.add_sub_cancel_left]⟩
    obtain ⟨found, hfound, hsame⟩ := exists_of_forall₂ hparts hentry
    obtain rfl : part = found := Except.ok.inj (hevents.symm.trans hsame)
    refine ⟨part, hfound, ?_⟩
    obtain ⟨first, hfirst⟩ := List.exists_mem_of_ne_nil _ hnonempty
    rwa [← hrow _ _ _ hevents _ hfirst]

omit [Crates] in
theorem exists_part_of_collectRows {ι : Type} {events : ι → ℕ → Except Fault (List Event)}
    {items : List ι} {rowOffset : ℕ} {performed : List Event}
    (h : collectRows events items rowOffset = .ok performed) {item : ι}
    (hitem : items[row]? = some item) : ∃ part, events item (rowOffset + row) = .ok part := by
  obtain ⟨parts, hparts, -⟩ := collectRows_eq_ok.mp h
  have hentry : (item, rowOffset + row) ∈ items.zipIdx rowOffset := by
    rw [List.mk_mem_zipIdx_iff_le_and_getElem?_sub]
    exact ⟨Nat.le_add_right .., by rwa [Nat.add_sub_cancel_left]⟩
  obtain ⟨part, -, hpart⟩ := exists_of_forall₂ hparts hentry
  exact ⟨part, hpart⟩

omit [Crates] in
theorem rowsOf_compareEvents {name : String} {plan : ComparePlan} {outcome : Option Bool × ℕ} :
    rowsOf (compareEvents name plan outcome row) =
      if outcome.1 = some false then [some row] else [] := by
  unfold compareEvents
  rw [rowsOf_record_if]

omit [Crates] in
theorem rowsOf_failuresFor {column ruleName : String} {clauses : List Clause} :
    rowsOf (failuresFor column ruleName row clauses) = clauses.map fun _ => some row := by
  induction clauses with
  | nil => rfl
  | cons clause clauses ih => exact congrArg (some row :: ·) ih

theorem exists_breaks_iff {rules : CompiledRules} {cell : Option Value} :
    rules.broken cell ≠ [] ↔ ∃ clause, rules.breaks cell clause = true := by
  rw [CompiledRules.broken, ne_eq, List.filter_eq_nil_iff, not_forall]
  constructor
  · rintro ⟨clause, h⟩
    exact ⟨clause, not_not.mp fun hbreaks => h fun _ => hbreaks⟩
  · rintro ⟨clause, h⟩
    exact ⟨clause, fun hall => hall clause.mem_all h⟩

omit [Crates] in
theorem mem_zipIdx_outcomes {outcomes : List (Option Bool)} {item : Option Bool × ℕ} :
    outcomes.zipIdx[row]? = some item ↔ outcomes[row]? = some item.1 ∧ item.2 = row := by
  rw [List.getElem?_zipIdx, Nat.zero_add, Option.map_eq_some_iff]
  constructor
  · rintro ⟨outcome, houtcome, rfl⟩
    exact ⟨houtcome, rfl⟩
  · rintro ⟨houtcome, rfl⟩
    exact ⟨item.1, houtcome, rfl⟩

omit [Crates] in
theorem getElem?_outcomes_lt {plan : ComparePlan} {outcomes : List (Option Bool)}
    (h : scanPredicate plan batch = .ok outcomes) {outcome : Option Bool}
    (hrow : outcomes[row]? = some outcome) : row < batch.rows := by
  obtain ⟨hlt, -⟩ := List.getElem?_eq_some_iff.mp hrow
  rwa [length_scanPredicate h] at hlt

/-- A relational rule flags the rows in which its comparison fails. -/
theorem mem_rowsOf_compare {name : String} {comparison : CompareAst} {plan : ComparePlan}
    {dataType : DataType} (h : comparison.CompilesTo batch.schema dataType plan) {rowOffset : ℕ}
    {events : List Event} (hevents : RowPlan.events ⟨name, .compare plan⟩ batch rowOffset = .ok events)
    {flagged : Option ℕ} :
    flagged ∈ rowsOf events ↔ ∃ row < batch.rows, flagged = some (rowOffset + row) ∧
      comparison.HasOutcome batch row (some false) := by
  obtain ⟨_, hprepare, hcollect⟩ := bind_eq_ok.mp hevents
  obtain ⟨outcomes, houtcomes, hprepare⟩ := bind_eq_ok.mp hprepare
  cases hprepare
  have hrows (item : Option Bool × ℕ) (row : ℕ) (part : List Event)
      (hpart : Except.ok (compareEvents name plan item row) = (.ok part : Except Fault _)) :
      ∀ flagged ∈ rowsOf part, flagged = some row := by
    cases hpart
    rw [rowsOf_compareEvents]
    intro flagged hflagged
    split at hflagged
    · exact List.mem_singleton.mp hflagged
    · cases hflagged
  rw [mem_rowsOf_collectRows hcollect hrows]
  refine exists_congr fun row => ?_
  constructor
  · rintro ⟨item, part, hitem, rfl, hpart, hnonempty⟩
    cases hpart
    obtain ⟨houtcome, -⟩ := mem_zipIdx_outcomes.mp hitem
    have hrow := getElem?_outcomes_lt houtcomes houtcome
    refine ⟨hrow, rfl, (hasOutcome_iff h houtcomes hrow).mpr ?_⟩
    rw [rowsOf_compareEvents, ne_eq, ite_eq_right_iff, Classical.not_imp] at hnonempty
    rw [houtcome, hnonempty.1]
  · rintro ⟨hrow, rfl, hfails⟩
    have houtcome := (hasOutcome_iff h houtcomes hrow).mp hfails
    refine ⟨(some false, row), _, mem_zipIdx_outcomes.mpr ⟨houtcome, rfl⟩, rfl, rfl, ?_⟩
    rw [rowsOf_compareEvents, if_pos rfl]
    exact List.cons_ne_nil _ _

/-- The cell of an assertion fails where it breaks a clause. -/
theorem failsAt_iff {assertion : AssertionAst} {index : ℕ} {field : Field} {array : ArrowArray}
    {rules : CompiledRules} {cell : Option Value}
    (hresolve : batch.schema.resolve assertion.column = some (index, field))
    (harray : batch.columns[index]? = some array) (hcell : array.cells[row]? = some cell)
    (hrules : compileRules assertion.column field.dataType (.fromDataType field.dataType)
      assertion.rules (none, none) = .ok rules) :
    assertion.FailsAt batch row ↔ rules.broken cell ≠ [] := by
  rw [exists_breaks_iff]
  constructor
  · rintro ⟨_, _, _, _, _, clause, hresolve', harray', hcell', hrules', hbreaks⟩
    rw [hresolve] at hresolve'
    cases hresolve'
    rw [harray] at harray'
    cases harray'
    rw [hcell] at hcell'
    cases hcell'
    rw [hrules] at hrules'
    cases hrules'
    exact ⟨clause, hbreaks⟩
  · rintro ⟨clause, hbreaks⟩
    exact ⟨index, field, array, cell, rules, clause, hresolve, harray, hcell, hrules, hbreaks⟩

omit [Crates] in
theorem boolean_of_cell {array : ArrowArray} {field : Field} (hfield : array.field = field)
    (hkind : KernelKind.fromDataType field.dataType = .boolean) {position : ℕ} {value : Value}
    (hcell : array.cells[position]? = some (some value)) :
    ∃ truth, value = .scalar (.boolean truth) := by
  obtain ⟨scalar, rfl, hrelates⟩ := @related_of_cell field.dataType (by rw [hkind]; rfl) array
    (congrArg Field.dataType hfield) position value (Option.join_eq_some_iff.mpr hcell)
  rw [hkind] at hrelates
  cases scalar with
  | boolean truth => exact ⟨truth, rfl⟩
  | _ => exact absurd hrelates id

/-- What a conditional rule records in a row. -/
theorem conditionalEvents_eq_ok {name : String} {array : ArrowArray} {field : Field}
    {rules : CompiledRules} (hfield : array.field = field) (hminLength : rules.minLength = none)
    (hmaxLength : rules.maxLength = none) {item : Option Bool × ℕ} {part : List Event}
    (h : conditionalEvents name array field rules item row = .ok part) :
    (item.1 = some true ∧ ∃ cell, array.cells[item.2]? = some cell ∧
      part = failuresFor field.name name row (rules.broken cell)) ∨
    (item.1 ≠ some true ∧ part = []) := by
  unfold conditionalEvents at h
  split at h
  · rename_i hholds
    obtain ⟨cell, hcell, h⟩ := bind_eq_ok.mp h
    rw [cell_eq_ok] at hcell
    refine Or.inl ⟨hholds, cell, hcell, scanAssertionRow_eq hminLength hmaxLength h ?_⟩
    rintro hkind value rfl
    exact boolean_of_cell hfield hkind hcell
  · rename_i hfails
    cases h
    exact Or.inr ⟨hfails, rfl⟩

/-- A conditional rule flags the rows in which its guard holds and its assertion fails. -/
theorem mem_rowsOf_conditional {name : String} {guard : CompareAst} {predicate : ComparePlan}
    {dataType : DataType} (h : guard.CompilesTo batch.schema dataType predicate)
    {assertion : AssertionAst} {index : ℕ} {field : Field} {rules : CompiledRules}
    (hresolve : batch.schema.resolve assertion.column = some (index, field))
    (hrules : compileRules assertion.column field.dataType (.fromDataType field.dataType)
      assertion.rules (none, none) = .ok rules) {rowOffset : ℕ} {events : List Event}
    (hevents : RowPlan.events ⟨name, .conditional predicate index field rules⟩ batch rowOffset =
      .ok events) {flagged : Option ℕ} :
    flagged ∈ rowsOf events ↔ ∃ row < batch.rows, flagged = some (rowOffset + row) ∧
      guard.HasOutcome batch row (some true) ∧ assertion.FailsAt batch row := by
  obtain ⟨_, hprepare, hcollect⟩ := bind_eq_ok.mp hevents
  obtain ⟨array, harray, hprepare⟩ := bind_eq_ok.mp hprepare
  obtain ⟨outcomes, houtcomes, hprepare⟩ := bind_eq_ok.mp hprepare
  cases hprepare
  rw [column_eq_ok] at harray
  obtain ⟨found, hfound, hfield, hlength⟩ := column_of_resolve rfl hresolve
  obtain rfl : array = found := Option.some.inj (harray.symm.trans hfound)
  have hfits := fits_of_compileRules hrules
  have hparts {item : Option Bool × ℕ} {row : ℕ} {part : List Event}
      (hpart : conditionalEvents name array field rules item row = .ok part) :=
    conditionalEvents_eq_ok hfield hfits.minLength hfits.maxLength hpart
  have hrows (item : Option Bool × ℕ) (row : ℕ) (part : List Event)
      (hpart : conditionalEvents name array field rules item row = .ok part) :
      ∀ flagged ∈ rowsOf part, flagged = some row := by
    intro flagged hflagged
    rcases hparts hpart with ⟨-, cell, -, rfl⟩ | ⟨-, rfl⟩
    · rw [rowsOf_failuresFor] at hflagged
      obtain ⟨_, -, rfl⟩ := List.mem_map.mp hflagged
      rfl
    · cases hflagged
  rw [mem_rowsOf_collectRows hcollect hrows]
  refine exists_congr fun row => ?_
  constructor
  · rintro ⟨item, part, hitem, rfl, hpart, hnonempty⟩
    obtain ⟨houtcome, hposition⟩ := mem_zipIdx_outcomes.mp hitem
    have hrow := getElem?_outcomes_lt houtcomes houtcome
    rcases hparts hpart with ⟨hholds, cell, hcell, rfl⟩ | ⟨-, rfl⟩
    · rw [hposition] at hcell
      rw [hholds] at houtcome
      refine ⟨hrow, rfl, (hasOutcome_iff h houtcomes hrow).mpr houtcome,
        (failsAt_iff hresolve harray hcell hrules).mpr fun hnil => hnonempty ?_⟩
      rw [hnil]
      rfl
    · exact absurd rfl hnonempty
  · rintro ⟨hrow, rfl, hholds, hfails⟩
    have houtcome := (hasOutcome_iff h houtcomes hrow).mp hholds
    have hitem : outcomes.zipIdx[row]? = some (some true, row) :=
      mem_zipIdx_outcomes.mpr ⟨houtcome, rfl⟩
    obtain ⟨part, hpart⟩ := exists_part_of_collectRows hcollect hitem
    refine ⟨_, part, hitem, rfl, hpart, ?_⟩
    rcases hparts hpart with ⟨-, cell, hcell, rfl⟩ | ⟨hnot, -⟩
    · rw [rowsOf_failuresFor, ne_eq, List.map_eq_nil_iff]
      exact (failsAt_iff hresolve harray hcell hrules).mp hfails
    · exact absurd rfl hnot

omit [Crates] in
/-- A run over rows ends if every row does. -/
theorem exists_collectRows {ι : Type} {events : ι → ℕ → Except Fault (List Event)} {items : List ι}
    (h : ∀ item ∈ items, ∀ row, ∃ part, events item row = .ok part) (rowOffset : ℕ) :
    ∃ performed, collectRows events items rowOffset = .ok performed := by
  obtain ⟨parts, hparts⟩ : ∃ parts, (items.zipIdx rowOffset).mapM
      (fun entry => events entry.1 entry.2) = .ok parts :=
    exists_mapM fun entry hentry => h entry.1 (List.fst_mem_of_mem_zipIdx hentry) entry.2
  exact ⟨parts.flatten, collectRows_eq_ok.mpr ⟨parts, mapM_eq_ok.mp hparts, rfl⟩⟩

theorem exists_events_compare (name : String) {comparison : CompareAst} {plan : ComparePlan}
    {dataType : DataType} (h : comparison.CompilesTo batch.schema dataType plan) (rowOffset : ℕ) :
    ∃ events, RowPlan.events ⟨name, .compare plan⟩ batch rowOffset = .ok events := by
  obtain ⟨outcomes, houtcomes⟩ := exists_scanPredicate h rfl
  obtain ⟨events, hevents⟩ : ∃ performed, collectRows
      (fun outcome row => .ok (compareEvents name plan outcome row)) outcomes.zipIdx rowOffset =
        .ok performed :=
    exists_collectRows (fun _ _ _ => ⟨_, rfl⟩) rowOffset
  exact ⟨events, bind_eq_ok.mpr ⟨_, bind_eq_ok.mpr ⟨outcomes, houtcomes, rfl⟩, hevents⟩⟩

/-- A conditional rule ends on the batches in which no selected row has a value that no kernel
judges. -/
theorem exists_events_conditional_iff (name : String) {guard : CompareAst}
    {predicate : ComparePlan} {dataType : DataType}
    (h : guard.CompilesTo batch.schema dataType predicate) {column : String} {index : ℕ}
    {field : Field} {rules : CompiledRules}
    (hresolve : batch.schema.resolve column = some (index, field))
    (hbounded : rules.Bounded (.fromDataType field.dataType)) (rowOffset : ℕ) :
    (∃ events, RowPlan.events ⟨name, .conditional predicate index field rules⟩ batch rowOffset =
        .ok events) ↔
      ((KernelKind.fromDataType field.dataType).judgesRows = false →
        ∀ row < batch.rows, guard.HasOutcome batch row (some true) → ∀ array value,
          batch.columns[index]? = some array → array.cells[row]? ≠ some (some value)) := by
  obtain ⟨outcomes, houtcomes⟩ := exists_scanPredicate h rfl
  obtain ⟨array, harray, hfield, hlength⟩ := column_of_resolve rfl hresolve
  constructor
  -- a part of the events comes from the selected row, and its value would have ended the scan
  · rintro ⟨events, hevents⟩ hunjudged row hrow hselected other value hother hcell
    obtain rfl := Option.some.inj (harray.symm.trans hother)
    obtain ⟨_, hprepare, hcollect⟩ := bind_eq_ok.mp hevents
    obtain ⟨target, htarget, hprepare⟩ := bind_eq_ok.mp hprepare
    obtain ⟨found, hfound, hprepare⟩ := bind_eq_ok.mp hprepare
    cases hprepare
    obtain rfl := Except.ok.inj (houtcomes.symm.trans hfound)
    obtain rfl := Option.some.inj (harray.symm.trans (column_eq_ok.mp htarget))
    have houtcome := (hasOutcome_iff h houtcomes hrow).mp hselected
    have hitem : outcomes.zipIdx[row]? = some (some true, row) :=
      mem_zipIdx_outcomes.mpr ⟨houtcome, rfl⟩
    obtain ⟨part, hpart⟩ := exists_part_of_collectRows hcollect hitem
    unfold conditionalEvents at hpart
    rw [if_pos rfl, cell_eq_ok.mpr hcell, ok_bind, scanAssertionRow_unjudged hunjudged] at hpart
    cases hpart
  -- each row is skipped or has a value that the kernel of the column judges
  · intro hjudged
    obtain ⟨events, hevents⟩ : ∃ performed, collectRows (conditionalEvents name array field rules)
        outcomes.zipIdx rowOffset = .ok performed := by
      refine exists_collectRows ?_ rowOffset
      rintro ⟨outcome, position⟩ hitem row
      unfold conditionalEvents
      split
      · rename_i hholds
        obtain rfl : outcome = some true := hholds
        have houtcome := List.mk_mem_zipIdx_iff_getElem?.mp hitem
        have hrow := getElem?_outcomes_lt houtcomes houtcome
        have hlt : position < array.cells.length := hlength ▸ hrow
        have hcell : array.cells[position]? = some array.cells[position] :=
          List.getElem?_eq_getElem hlt
        rw [cell_eq_ok.mpr hcell, ok_bind]
        refine exists_scanAssertion hbounded (congrArg Field.dataType hfield)
          (List.getElem_mem hlt) ?_ ..
        by_contra hnot
        push Not at hnot
        obtain ⟨value, hvalue⟩ := Option.ne_none_iff_exists'.mp hnot.2
        exact hjudged (Bool.not_eq_true _ ▸ hnot.1) position hrow
          ((hasOutcome_iff h houtcomes hrow).mpr houtcome) array value harray
          (hcell.trans (congrArg some hvalue))
      · exact ⟨[], rfl⟩
    exact ⟨events, bind_eq_ok.mpr ⟨_, bind_eq_ok.mpr ⟨array, column_eq_ok.mpr harray,
      bind_eq_ok.mpr ⟨outcomes, houtcomes, rfl⟩⟩, hevents⟩⟩

/-! ## What the compiler accepts -/

variable {schema : Schema} {rule : RowRuleAst} {index : ℕ} {plan : RowPlan}

theorem compile_eq_ok (h : RowPlan.compile rule schema index = .ok plan) :
    ∃ kind, compileKind rule schema s!"$.row_rules[{index}]" = .ok kind ∧
      plan = ⟨rule.name, kind⟩ := by
  obtain ⟨kind, hkind, h⟩ := bind_eq_ok.mp h
  cases h
  exact ⟨kind, hkind, rfl⟩

theorem compileConditional_eq_ok {path : String} {kind : RowPlanKind}
    (h : compileConditional rule schema path = .ok kind) :
    ∃ guard assertion position field rules predicate dataType,
      rule.when = some guard ∧ rule.assertion = some assertion ∧
      schema.resolve assertion.column = some (position, field) ∧
      compileRules assertion.column field.dataType (.fromDataType field.dataType) assertion.rules
        (none, none) = .ok rules ∧
      guard.CompilesTo schema dataType predicate ∧
      kind = .conditional predicate position field rules := by
  obtain ⟨guard, hguard, h⟩ := bind_eq_ok.mp h
  obtain ⟨assertion, hassertion, h⟩ := bind_eq_ok.mp h
  obtain ⟨⟨position, field⟩, hresolve, h⟩ := bind_eq_ok.mp h
  obtain ⟨rules, hrules, h⟩ := bind_eq_ok.mp h
  obtain ⟨predicate, hpredicate, h⟩ := bind_eq_ok.mp h
  cases h
  obtain ⟨dataType, hcompiles⟩ := compileCompare_eq_ok.mp hpredicate
  exact ⟨guard, assertion, position, field, rules, predicate, dataType, required_eq_ok.mp hguard,
    required_eq_ok.mp hassertion, required_eq_ok.mp hresolve, hrules, hcompiles, rfl⟩

/-- A rule without a comparison is compiled from a guard and an assertion. -/
theorem compile_conditional_eq_ok (h : RowPlan.compile rule schema index = .ok plan)
    (hcompare : rule.compare = none) :
    ∃ guard assertion position field rules predicate dataType,
      rule.when = some guard ∧ rule.assertion = some assertion ∧
      schema.resolve assertion.column = some (position, field) ∧
      compileRules assertion.column field.dataType (.fromDataType field.dataType) assertion.rules
        (none, none) = .ok rules ∧
      guard.CompilesTo schema dataType predicate ∧
      plan = ⟨rule.name, .conditional predicate position field rules⟩ := by
  obtain ⟨kind, hkind, rfl⟩ := compile_eq_ok h
  unfold compileKind at hkind
  rw [hcompare] at hkind
  obtain ⟨guard, assertion, position, field, rules, predicate, dataType, hguard, hassertion,
    hresolve, hrules, hcompiles, rfl⟩ := compileConditional_eq_ok hkind
  exact ⟨guard, assertion, position, field, rules, predicate, dataType, hguard, hassertion, hresolve,
    hrules, hcompiles, rfl⟩

/-- A rule with a comparison is compiled from the comparison alone. -/
theorem compile_compare_eq_ok {comparison : CompareAst}
    (h : RowPlan.compile rule schema index = .ok plan) (hcompare : rule.compare = some comparison) :
    ∃ compiled dataType, comparison.CompilesTo schema dataType compiled ∧
      plan = ⟨rule.name, .compare compiled⟩ := by
  obtain ⟨kind, hkind, rfl⟩ := compile_eq_ok h
  unfold compileKind at hkind
  rw [hcompare] at hkind
  obtain ⟨compiled, hcompiled, rfl⟩ := map_eq_ok.mp hkind
  obtain ⟨dataType, hcompiles⟩ := compileCompare_eq_ok.mp hcompiled
  exact ⟨compiled, dataType, hcompiles, rfl⟩

/-- A comparison leaves the other clauses unread. -/
theorem compile_of_compare {comparison : CompareAst} (hcompare : rule.compare = some comparison)
    (h : RowPlan.compile rule schema index = .ok plan) (when : Option CompareAst)
    (assertion : Option AssertionAst) :
    RowPlan.compile { rule with when, assertion } schema index = .ok plan := by
  obtain ⟨kind, hkind, rfl⟩ := compile_eq_ok h
  unfold compileKind at hkind
  rw [hcompare] at hkind
  unfold RowPlan.compile compileKind
  dsimp only
  rw [hcompare]
  exact bind_eq_ok.mpr ⟨kind, hkind, rfl⟩

/-- An enforced rule has no clause beside a comparison. -/
theorem RowRuleAst.EnforcedBy.no_clauses (henforced : rule.EnforcedBy index schema plan)
    (h : RowPlan.compile rule schema index = .ok plan) :
    rule.compare = none ∨ (rule.when = none ∧ rule.assertion = none) := by
  cases hcompare : rule.compare with
  | none => exact Or.inl rfl
  | some comparison =>
      refine Or.inr ⟨?_, ?_⟩
      · by_contra hwhen
        refine henforced.when (Option.isSome_iff_ne_none.mpr hwhen) fun other => ?_
        exact compile_of_compare hcompare h other rule.assertion
      · by_contra hassertion
        refine henforced.assertion (Option.isSome_iff_ne_none.mpr hassertion) fun other => ?_
        exact compile_of_compare hcompare h rule.when other

/-- The guard of an enforced rule selects no value that no kernel judges. -/
theorem RowRuleAst.EnforcedBy.not_unjudged (henforced : rule.EnforcedBy index schema plan)
    (h : RowPlan.compile rule schema index = .ok plan) : ¬rule.Unjudged schema := by
  rintro ⟨guard, assertion, position, field, hcompare, hguard, hassertion, hresolve, hunjudged,
    batch, row, array, value, rfl, hselected, hrow, harray, hcell⟩
  obtain ⟨guard', assertion', position', field', rules, predicate, dataType, hguard', hassertion',
    hresolve', hrules, hcompiles, rfl⟩ := compile_conditional_eq_ok h hcompare
  obtain rfl := Option.some.inj (hguard.symm.trans hguard')
  obtain rfl := Option.some.inj (hassertion.symm.trans hassertion')
  obtain ⟨rfl, rfl⟩ := Prod.mk.inj (Option.some.inj (hresolve.symm.trans hresolve'))
  obtain ⟨events, hevents, -⟩ := henforced.violated batch rfl 0
  exact (exists_events_conditional_iff rule.name hcompiles hresolve (bounded_of_compileRules hrules)
    0).mp ⟨events, hevents⟩ hunjudged row hrow hselected array value harray hcell

/-- A conditional rule is enforced as long as a kernel judges what its guard selects. -/
theorem enforcedBy_of_conditional (hcompare : rule.compare = none) (hjudged : ¬rule.Unjudged schema)
    (h : RowPlan.compile rule schema index = .ok plan) : rule.EnforcedBy index schema plan := by
  obtain ⟨guard, assertion, position, field, rules, predicate, dataType, hguard, hassertion,
    hresolve, hrules, hcompiles, rfl⟩ := compile_conditional_eq_ok h hcompare
  refine ⟨fun hsome => ?_, fun _ hall => ?_, fun _ hall => ?_, ?_⟩
  · rw [hcompare] at hsome
    cases hsome
  -- without either of its clauses the rule does not compile
  · obtain ⟨_, _, _, _, _, _, _, hnone, -⟩ := compile_conditional_eq_ok (hall none) hcompare
    cases hnone
  · obtain ⟨_, _, _, _, _, _, _, -, hnone, -⟩ := compile_conditional_eq_ok (hall none) hcompare
    cases hnone
  · rintro batch rfl rowOffset
    obtain ⟨events, hevents⟩ := (exists_events_conditional_iff rule.name hcompiles hresolve
      (bounded_of_compileRules hrules) rowOffset).mpr
      fun hunjudged row hrow hselected array value harray hcell =>
        hjudged ⟨guard, assertion, position, field, hcompare, hguard, hassertion, hresolve,
          hunjudged, batch, row, array, value, rfl, hselected, hrow, harray, hcell⟩
    refine ⟨events, hevents, fun flagged => ?_⟩
    rw [mem_rowsOf_conditional hcompiles hresolve hrules hevents]
    simp only [RowRuleAst.Violated, hguard, hassertion, hcompare, Option.some.injEq,
      forall_eq', exists_eq_left', reduceCtorEq, false_and, exists_false, false_or]

/-- A comparison by itself is enforced. -/
theorem enforcedBy_of_compare {comparison : CompareAst} (hcompare : rule.compare = some comparison)
    (hwhen : rule.when = none) (hassertion : rule.assertion = none)
    (h : RowPlan.compile rule schema index = .ok plan) : rule.EnforcedBy index schema plan := by
  obtain ⟨compiled, dataType, hcompiles, rfl⟩ := compile_compare_eq_ok h hcompare
  refine ⟨fun _ hall => ?_, fun hsome => ?_, fun hsome => ?_, ?_⟩
  -- without its comparison the rule is conditional and lacks a guard
  · obtain ⟨_, _, _, _, _, _, _, hguard, -⟩ := compile_conditional_eq_ok (hall none) rfl
    rw [show rule.when = some _ from hguard] at hwhen
    cases hwhen
  · rw [hwhen] at hsome
    cases hsome
  · rw [hassertion] at hsome
    cases hsome
  · rintro batch rfl rowOffset
    obtain ⟨events, hevents⟩ := exists_events_compare rule.name hcompiles rowOffset
    refine ⟨events, hevents, fun flagged => ?_⟩
    rw [mem_rowsOf_compare hcompiles hevents]
    simp only [RowRuleAst.Violated, hwhen, hassertion, hcompare, Option.some.injEq,
      exists_eq_left', reduceCtorEq, false_and, exists_false, or_false, false_imp_iff,
      implies_true, true_and]

/-- A rule is enforced exactly if no comparison stands beside its other clauses and its guard
selects no value that no kernel judges. -/
theorem enforcedBy_iff (h : RowPlan.compile rule schema index = .ok plan) :
    rule.EnforcedBy index schema plan ↔
      (rule.compare = none ∨ (rule.when = none ∧ rule.assertion = none)) ∧
        ¬rule.Unjudged schema := by
  constructor
  · exact fun henforced => ⟨henforced.no_clauses h, henforced.not_unjudged h⟩
  · rintro ⟨hclauses, hjudged⟩
    cases hcompare : rule.compare with
    | none => exact enforcedBy_of_conditional hcompare hjudged h
    | some comparison =>
        obtain ⟨hwhen, hassertion⟩ := hclauses.resolve_left (by rw [hcompare]; nofun)
        exact enforcedBy_of_compare hcompare hwhen hassertion h

variable [DebugText]

/-- The row rules of a contract are enforced exactly if none of them has a guard or an assertion
beside a comparison, and no guard selects a value that no kernel judges. -/
theorem rowRules_enforced_iff {contract : ContractAstV2} {compiled : CompiledContract}
    (h : CompiledContract.compileV2 contract schema = .ok compiled) :
    List.Forall₂ (fun entry rowPlan => entry.1.EnforcedBy entry.2 schema rowPlan)
        contract.rowRules.zipIdx compiled.rowPlans ↔
      ∀ rule ∈ contract.rowRules,
        (rule.compare = none ∨ (rule.when = none ∧ rule.assertion = none)) ∧
          ¬rule.Unjudged schema := by
  obtain ⟨_, -, h⟩ := bind_eq_ok.mp h
  obtain ⟨_, -, h⟩ := bind_eq_ok.mp h
  obtain ⟨rowPlans, hrowPlans, h⟩ := bind_eq_ok.mp h
  obtain ⟨_, -, h⟩ := bind_eq_ok.mp h
  cases h
  rw [mapM_eq_ok] at hrowPlans
  conv_rhs => rw [← List.zipIdx_map_fst 0 contract.rowRules, List.forall_mem_map]
  exact forall₂_iff_forall hrowPlans fun _ _ hplan => enforcedBy_iff hplan

end Rules

/-- A contract of row rules only. -/
def rowRulesContract (rowRules : List RowRuleAst) : ContractAstV2 where
  version := .v2
  status := .active
  suggestedFrom := none
  columns := []
  rowRules
  datasetRules := Reader.noDatasetRules
  maxFindings := Reader.defaultMaxFindings

/-- A guard and an assertion without a comparison. -/
theorem rowRules_enforced_iff_guarded : let _ : Crates := Crates.zeroDigests
    let _ : DebugText := .quotes
    ∃ plan, CompiledContract.compileV2 (rowRulesContract [atLeastTheLimit]) byteBatch.schema =
      .ok plan ∧
      List.Forall₂ (fun entry rowPlan => entry.1.EnforcedBy entry.2 byteBatch.schema rowPlan)
        [(atLeastTheLimit, 0)] plan.rowPlans := by
  intro _ _
  have hplan : CompiledContract.compileV2 (rowRulesContract [atLeastTheLimit]) byteBatch.schema =
      .ok _ := rfl
  refine ⟨_, hplan, (rowRules_enforced_iff hplan).mpr ?_⟩
  intro rule hrule
  obtain rfl := List.mem_singleton.mp hrule
  refine ⟨Or.inl rfl, ?_⟩
  rintro ⟨guard, assertion, index, field, -, -, hassertion, hresolve, hunjudged, -⟩
  cases hassertion
  cases hresolve
  cases hunjudged

/-- Where the limit is positive, the value is below it. -/
def guardedComparison : RowRuleAst where
  name := "below_the_limit"
  compare := some ⟨.column "value", .lt, .column "limit", .fail⟩
  when := some ⟨.column "limit", .gt, .literal (.number "0"), .skip⟩
  assertion := none

/-- A document with this rule only. -/
def guardedDocument : Json := .object [
  ("version", .string "proofframe.contract.v2"),
  ("columns", .object []),
  ("row_rules", .array [.object [
    ("name", .string "below_the_limit"),
    ("compare", .object [("left", .object [("column", .string "value")]), ("op", .string "lt"),
      ("right", .object [("column", .string "limit")]), ("nulls", .string "fail")]),
    ("when", .object [("left", .object [("column", .string "limit")]), ("op", .string "gt"),
      ("right", .object [("literal", .number "0")])])]])]

/-- The document is accepted, and the plan is the same whatever its guard says. -/
theorem guardedComparison_unguarded : let _ : Crates := Crates.zeroDigests
    let _ : SerdeJson := .reading guardedDocument
    let _ : SerdeContent := .same
    let _ : DebugText := .quotes
    ∃ plan, ContractDocument.fromJson guardedDocument.compact =
        .ok (.v2 (rowRulesContract [guardedComparison])) ∧
      CompiledContract.compileV2 (rowRulesContract [guardedComparison]) byteBatch.schema =
        .ok plan ∧
      ¬List.Forall₂ (fun entry rowPlan => entry.1.EnforcedBy entry.2 byteBatch.schema rowPlan)
        [(guardedComparison, 0)] plan.rowPlans := by
  intro _ _ _ _
  have hvalue : ContractDocument.parseValue guardedDocument.compact = .ok guardedDocument.toValue := by
    have hparse : SerdeJson.parse guardedDocument.compact = .ok guardedDocument := if_pos rfl
    rw [ContractDocument.parseValue, hparse]
  refine ⟨_, ?_, rfl, fun henforced => ?_⟩
  · unfold ContractDocument.fromJson
    rw [hvalue]
    rfl
  · cases henforced with
    | cons hrule _ =>
        refine hrule.when rfl fun other => ?_
        rfl

end ProofFrame
