import ProofFrame.Contract.Compile
import ProofFrame.Execution.Columns
import ProofFrame.Execution.KeyTuples
import ProofFrame.Execution.RowKernels
import ProofFrame.Lib.Parts
import ProofFrame.Lib.Ieee754.Widening

/-!
# Row predicates as one relation

A comparison against a literal and a comparison against a column have kernels of their own.
Both relate the cells their two operands have in a row, where a literal has the same cell in
every row, and the relation does not depend on which operand is written first.

## Strategy

* A compiled comparison is described without the order of its operands
  (`compileCompare_eq_ok`), so it is accepted from either side.
* Both kernels become one map over the rows, from the cells of the two operands
  (`scanPredicate_eq`).  Whatever gives the same cells gives the same outcomes.
* The casts of a literal are undone by the range checks of the compiler
  (`literalScalar_of_denotes`).
-/

namespace ProofFrame

open Lib Lib.Run Lib.Ieee754

/-! ## The other side -/

/-- The operator that says the same of the operands in the other order. -/
def CompareOpAst.mirror : CompareOpAst → CompareOpAst
  | .eq => .eq
  | .ne => .ne
  | .lt => .gt
  | .lte => .gte
  | .gt => .lt
  | .gte => .lte

/-- The comparison read from its other side. -/
def CompareAst.mirror (source : CompareAst) : CompareAst :=
  { source with left := source.right, op := source.op.mirror, right := source.left }

/-- Two values are ordered in opposite ways from the two sides, or unordered from both. -/
class Mirrored (α : Type) [PartialOrd α] : Prop where
  swap (a b : α) : PartialOrd.partialCmp b a = (PartialOrd.partialCmp a b).map Ordering.swap

section Mirrored

theorem mirrored_ofOrd (α : Type) [Ord α] [Std.OrientedOrd α] :
    @Mirrored α (PartialOrd.ofOrd α) :=
  @Mirrored.mk α (PartialOrd.ofOrd α) fun _ _ => congrArg some Std.OrientedOrd.eq_swap

instance : Mirrored ℤ := mirrored_ofOrd ℤ

instance : Mirrored ℕ := mirrored_ofOrd ℕ

instance : Mirrored Bool := mirrored_ofOrd Bool

instance : Mirrored String := mirrored_ofOrd String

instance {eb mb : ℕ} : Mirrored (Ieee eb mb) where
  swap a b := by
    change Ieee.partialCmp b a = (Ieee.partialCmp a b).map Ordering.swap
    unfold Ieee.partialCmp
    rw [Bool.or_comm]
    split
    · rfl
    · exact congrArg some Std.OrientedOrd.eq_swap

theorem compareValues_mirror {α : Type} [PartialOrd α] [Mirrored α] (left right : α)
    (op : CompareOpAst) : compareValues right left op.mirror = compareValues left right op := by
  have hswap := Mirrored.swap left right
  unfold compareValues CompareOpAst.mirror
  cases op <;> simp only [PartialOrd.eq, PartialOrd.ne, PartialOrd.lt, PartialOrd.le,
    PartialOrd.gt, PartialOrd.ge, hswap]
  all_goals
    cases PartialOrd.partialCmp left right with
    | none => rfl
    | some order => cases order <;> rfl

theorem compareScalars_mirror (op : CompareOpAst) (left right : Scalar) :
    compareScalars op.mirror right left = compareScalars op left right := by
  cases left <;> cases right <;>
    first | rfl | exact congrArg Except.ok (compareValues_mirror _ _ op)

/-- A comparison of the operands in the other order. -/
def ComparePlan.mirror (plan : ComparePlan) : ComparePlan :=
  { plan with left := plan.right, op := plan.op.mirror, right := plan.left }

theorem nullOutcome_mirror (plan : ComparePlan) (leftNull rightNull : Bool) :
    nullOutcome rightNull leftNull plan.mirror = nullOutcome leftNull rightNull plan := by
  obtain ⟨left, op, right, nulls⟩ := plan
  cases nulls <;> cases op <;> cases leftNull <;> cases rightNull <;> rfl

/-- The outcome of a row does not depend on the side it is read from. -/
theorem compareCells_mirror (plan : ComparePlan) (left right : Option Value) :
    compareCells plan.mirror right left = compareCells plan left right := by
  rcases left with _ | (left | _ | _ | _) <;> rcases right with _ | (right | _ | _ | _)
  case some.scalar.some.scalar =>
    exact congrArg (· >>= fun outcome => .ok (some outcome)) (compareScalars_mirror plan.op left right)
  all_goals first | rfl | exact congrArg Except.ok (nullOutcome_mirror plan _ _)

/-- Of a plan, only its operator and its null policy matter to an outcome. -/
theorem compareCells_congr {plan other : ComparePlan} (hop : plan.op = other.op)
    (hnulls : plan.nulls = other.nulls) (left right : Option Value) :
    compareCells plan left right = compareCells other left right := by
  unfold compareCells nullOutcome
  rw [hop, hnulls]

end Mirrored

/-! ## Compilation from either side -/

/-- The operand compiles to the plan beside columns of the type. -/
def OperandAst.CompilesTo (schema : Schema) (dataType : DataType) :
    OperandAst → OperandPlan → Prop
  | .column name, plan => ∃ index field, schema.resolve name = some (index, field) ∧
      field.dataType = dataType ∧ plan = .ofColumn (index, field)
  | .literal json, plan => ∃ literal, literalPlan json dataType = some literal ∧
      plan = .literal literal

def OperandAst.isLiteral : OperandAst → Bool
  | .column _ => false
  | .literal _ => true

/-- What a compiled comparison is, whichever operand is written first. -/
structure CompareAst.CompilesTo (source : CompareAst) (schema : Schema) (dataType : DataType)
    (plan : ComparePlan) : Prop where
  left : source.left.CompilesTo schema dataType plan.left
  right : source.right.CompilesTo schema dataType plan.right
  column : ¬(source.left.isLiteral = true ∧ source.right.isLiteral = true)
  boolean : KernelKind.fromDataType dataType = .boolean → source.op = .eq ∨ source.op = .ne
  comparable : (KernelKind.fromDataType dataType).isIncomparable = false
  op : plan.op = source.op
  nulls : plan.nulls = source.nulls

theorem CompareAst.CompilesTo.mirror {source : CompareAst} {schema : Schema} {dataType : DataType}
    {plan : ComparePlan} (h : source.CompilesTo schema dataType plan) :
    source.mirror.CompilesTo schema dataType plan.mirror where
  left := h.right
  right := h.left
  column := fun hboth => h.column hboth.symm
  boolean := fun hboolean => by
    rcases h.boolean hboolean with heq | hne
    · exact Or.inl (congrArg CompareOpAst.mirror heq)
    · exact Or.inr (congrArg CompareOpAst.mirror hne)
  comparable := h.comparable
  op := congrArg CompareOpAst.mirror h.op
  nulls := h.nulls

section Compile

variable {schema : Schema} {dataType : DataType}

theorem kernel_of_compilesTo {source : OperandAst} {plan : OperandPlan}
    (h : source.CompilesTo schema dataType plan) :
    plan.kernel = if source.isLiteral then none else some (.fromDataType dataType) := by
  cases source with
  | column name =>
      obtain ⟨index, field, -, rfl, rfl⟩ := h
      rfl
  | literal json =>
      obtain ⟨literal, -, rfl⟩ := h
      rfl

theorem operandKernel_of_compilesTo {left right : OperandAst} {leftPlan rightPlan : OperandPlan}
    (hleft : left.CompilesTo schema dataType leftPlan)
    (hright : right.CompilesTo schema dataType rightPlan)
    (hcolumn : ¬(left.isLiteral = true ∧ right.isLiteral = true)) :
    operandKernel leftPlan rightPlan = .ok (.fromDataType dataType) := by
  rw [operandKernel, kernel_of_compilesTo hleft, kernel_of_compilesTo hright]
  cases hleftLiteral : left.isLiteral with
  | false => rfl
  | true =>
      have hrightLiteral : right.isLiteral = false := by simpa [hleftLiteral] using hcolumn
      rw [hrightLiteral]
      rfl

variable [Crates] {path : String}

theorem compileOperands_eq_ok {source : CompareAst} {left right : OperandPlan} :
    (compileOperands source schema path = .ok (left, right) ∧
      checkOperandTypes left right path = .ok ()) ↔
      ∃ dataType, source.left.CompilesTo schema dataType left ∧
        source.right.CompilesTo schema dataType right ∧
        ¬(source.left.isLiteral = true ∧ source.right.isLiteral = true) := by
  obtain ⟨leftSource, op, rightSource, nulls⟩ := source
  constructor
  · rintro ⟨hoperands, htypes⟩
    cases leftSource <;> cases rightSource
    case column.column leftName rightName =>
      obtain ⟨leftColumn, hleft, hoperands⟩ := bind_eq_ok.mp hoperands
      obtain ⟨rightColumn, hright, hoperands⟩ := bind_eq_ok.mp hoperands
      cases hoperands
      have hequal : leftColumn.2.dataType = rightColumn.2.dataType :=
        not_not.mp (rejectIf_eq_ok.mp htypes)
      exact ⟨_, ⟨_, _, required_eq_ok.mp hleft, rfl, rfl⟩,
        ⟨_, _, required_eq_ok.mp hright, hequal.symm, rfl⟩, by simp [OperandAst.isLiteral]⟩
    case column.literal name json =>
      obtain ⟨column, hcolumn, hoperands⟩ := bind_eq_ok.mp hoperands
      obtain ⟨literal, hliteral, hoperands⟩ := bind_eq_ok.mp hoperands
      cases hoperands
      exact ⟨_, ⟨_, _, required_eq_ok.mp hcolumn, rfl, rfl⟩,
        ⟨_, required_eq_ok.mp hliteral, rfl⟩, by simp [OperandAst.isLiteral]⟩
    case literal.column json name =>
      obtain ⟨column, hcolumn, hoperands⟩ := bind_eq_ok.mp hoperands
      obtain ⟨literal, hliteral, hoperands⟩ := bind_eq_ok.mp hoperands
      cases hoperands
      exact ⟨_, ⟨_, required_eq_ok.mp hliteral, rfl⟩,
        ⟨_, _, required_eq_ok.mp hcolumn, rfl, rfl⟩, by simp [OperandAst.isLiteral]⟩
    case literal.literal => cases hoperands
  · rintro ⟨dataType, hleft, hright, hcolumn⟩
    cases leftSource <;> cases rightSource
    case column.column leftName rightName =>
      obtain ⟨leftIndex, leftField, hleft, htype, rfl⟩ := hleft
      obtain ⟨rightIndex, rightField, hright, htype', rfl⟩ := hright
      exact ⟨bind_eq_ok.mpr ⟨_, required_eq_ok.mpr hleft, bind_eq_ok.mpr
        ⟨_, required_eq_ok.mpr hright, rfl⟩⟩,
        rejectIf_eq_ok.mpr (not_not.mpr (htype.trans htype'.symm))⟩
    case column.literal name json =>
      obtain ⟨index, field, hcolumn, rfl, rfl⟩ := hleft
      obtain ⟨literal, hliteral, rfl⟩ := hright
      exact ⟨bind_eq_ok.mpr ⟨_, required_eq_ok.mpr hcolumn, bind_eq_ok.mpr
        ⟨_, required_eq_ok.mpr hliteral, rfl⟩⟩, rfl⟩
    case literal.column json name =>
      obtain ⟨index, field, hcolumn, rfl, rfl⟩ := hright
      obtain ⟨literal, hliteral, rfl⟩ := hleft
      exact ⟨bind_eq_ok.mpr ⟨_, required_eq_ok.mpr hcolumn, bind_eq_ok.mpr
        ⟨_, required_eq_ok.mpr hliteral, rfl⟩⟩, rfl⟩
    case literal.literal => exact absurd ⟨rfl, rfl⟩ hcolumn

theorem compileCompare_eq_ok {source : CompareAst} {plan : ComparePlan} :
    compileCompare source schema path = .ok plan ↔
      ∃ dataType, source.CompilesTo schema dataType plan := by
  constructor
  · intro h
    obtain ⟨⟨left, right⟩, hoperands, h⟩ := bind_eq_ok.mp h
    obtain ⟨_, htypes, h⟩ := bind_eq_ok.mp h
    obtain ⟨kernel, hkernel, h⟩ := bind_eq_ok.mp h
    obtain ⟨_, hboolean, h⟩ := bind_eq_ok.mp h
    obtain ⟨_, hcomparable, h⟩ := bind_eq_ok.mp h
    cases h
    obtain ⟨dataType, hleft, hright, hcolumn⟩ := compileOperands_eq_ok.mp ⟨hoperands, htypes⟩
    rw [operandKernel_of_compilesTo hleft hright hcolumn] at hkernel
    cases hkernel
    refine ⟨dataType, hleft, hright, hcolumn, fun hkind => ?_, ?_, rfl, rfl⟩
    · have hop := rejectIf_eq_ok.mp hboolean
      grind
    · simpa using rejectIf_eq_ok.mp hcomparable
  · rintro ⟨dataType, h⟩
    obtain ⟨hoperands, htypes⟩ :=
      (@compileOperands_eq_ok _ _ path source _ _).mpr ⟨dataType, h.left, h.right, h.column⟩
    refine bind_eq_ok.mpr ⟨_, hoperands, bind_eq_ok.mpr ⟨_, htypes, bind_eq_ok.mpr ⟨_,
      operandKernel_of_compilesTo h.left h.right h.column, bind_eq_ok.mpr ⟨(), ?_,
        bind_eq_ok.mpr ⟨(), ?_, ?_⟩⟩⟩⟩⟩
    · refine rejectIf_eq_ok.mpr ?_
      have hop := h.boolean
      grind
    · exact rejectIf_eq_ok.mpr (by simp [h.comparable])
    · rw [← h.op, ← h.nulls]

end Compile

/-! ## Cells of operands -/

/-- The cell a literal stands for in every row. -/
def Json.Denotes : Json → Scalar → Prop
  | .bool value, .boolean cell => cell = value
  | .number text, .signed cell => parseSigned 64 text = some cell
  | .number text, .unsigned cell => parseUnsigned 64 text = some (cell : ℤ)
  -- the nearest 32-bit float to the nearest 64-bit one
  | .number text, .float32 cell => cell.isFinite = true ∧
      ∃ wide : F64, Ieee.parse text = some wide ∧ cell = wide.convert
  | .number text, .float64 cell => Ieee.parse text = some cell
  | .string value, .text cell => cell = value
  | _, _ => False

/-- The scalars a comparison of the kernel relates. -/
def KernelKind.Relates : KernelKind → Scalar → Prop
  | .boolean, .boolean _ => True
  | .i8, .signed _ | .i16, .signed _ | .i32, .signed _ | .i64, .signed _ | .date32, .signed _
  | .date64, .signed _ | .timestamp _, .signed _ => True
  | .u8, .unsigned _ | .u16, .unsigned _ | .u32, .unsigned _ | .u64, .unsigned _ => True
  | .f32, .float32 _ | .f64, .float64 _ | .decimal128 _ _, .decimal _ => True
  | .utf8, .text _ | .largeUtf8, .text _ | .utf8View, .text _ => True
  | _, _ => False

section Cells

variable {dataType : DataType} {scalar left right : Scalar} {kernel : KernelKind}

theorem exists_compareScalars (op : CompareOpAst) (hleft : kernel.Relates left)
    (hright : kernel.Relates right) : ∃ outcome, compareScalars op left right = .ok outcome := by
  unfold KernelKind.Relates at hleft
  split at hleft
  all_goals first
    | exact absurd hleft id
    | (cases right <;> first | exact ⟨_, rfl⟩ | exact absurd hright id)

theorem relates_of_admits (hcomparable : (KernelKind.fromDataType dataType).isIncomparable = false)
    (h : dataType.AdmitsScalar scalar) : (KernelKind.fromDataType dataType).Relates scalar := by
  cases dataType <;> cases scalar <;>
    first | exact trivial | exact absurd h id | cases hcomparable

theorem relates_of_literalScalar {literal : ScalarValuePlan}
    (h : literalScalar kernel literal = some scalar) : kernel.Relates scalar := by
  unfold literalScalar at h
  split at h <;> cases h <;> exact trivial

theorem castSigned_eq {bits : ℕ} {value : ℤ} (h : InSigned bits value) (hbits : 0 < bits) :
    castSigned bits value = value := by
  have hpow : (2 : ℤ) * 2 ^ (bits - 1) = ((2 ^ bits : ℕ) : ℤ) := by
    have hsucc : bits - 1 + 1 = bits := by omega
    calc (2 : ℤ) * 2 ^ (bits - 1) = 2 ^ (bits - 1 + 1) := by ring
      _ = ((2 ^ bits : ℕ) : ℤ) := by rw [hsucc]; norm_cast
  obtain ⟨hlower, hupper⟩ := h
  exact Int.bmod_eq_of_le_mul_two (by omega) (by omega)

theorem asSigned_of_parse {bits : ℕ} {text : String} {value : ℤ}
    (h : parseSigned 64 text = some value) (hbits : InSigned bits value) :
    (Json.number text).asSigned bits = some value := by
  rw [Json.asSigned, h, Option.bind_some, checkedSigned, if_pos hbits]

theorem asUnsigned_of_parse {bits : ℕ} {text : String} {value : ℕ}
    (h : parseUnsigned 64 text = some (value : ℤ)) (hbits : value < 2 ^ bits) :
    (Json.number text).asUnsigned bits = some value := by
  simp [Json.asUnsigned, h, hbits]

/-- A literal beside 32-bit floats is one of them, kept as a 64-bit float. -/
theorem narrowed_of_literalPlan {json : Json} {literal : ScalarValuePlan}
    (h : literalPlan json .float32 = some literal) :
    ∃ wide : F64, json.asF64 = some wide ∧ (wide.convert : F32).isFinite = true ∧
      literal = .f64 (wide.convert : F32).convert := by
  obtain ⟨wide, hwide, hnarrowed⟩ := Option.bind_eq_some_iff.mp h
  dsimp only at hnarrowed
  split at hnarrowed
  · rename_i hfinite
    exact ⟨wide, hwide, hfinite, (Option.some.inj hnarrowed).symm⟩
  · cases hnarrowed

/-- The cast of a literal loses nothing: the literal has been checked against the range. -/
theorem literalScalar_of_denotes {json : Json} {literal : ScalarValuePlan}
    (hliteral : literalPlan json dataType = some literal) (hadmits : dataType.AdmitsScalar scalar)
    (hdenotes : json.Denotes scalar) :
    literalScalar (.fromDataType dataType) literal = some scalar := by
  cases dataType <;> cases scalar <;> first | exact absurd hadmits id | skip
  all_goals cases json <;> first | exact absurd hdenotes id | skip
  case boolean.boolean cell value =>
    cases hliteral
    rw [show cell = value from hdenotes]
    rfl
  case int8.signed | int16.signed | int32.signed | date32.signed =>
    rw [literalPlan, asSigned_of_parse hdenotes hadmits] at hliteral
    cases hliteral
    exact congrArg (some ∘ Scalar.signed) (castSigned_eq hadmits (by decide))
  case int64.signed | date64.signed | timestamp.signed =>
    rw [literalPlan, asSigned_of_parse hdenotes hadmits] at hliteral
    cases hliteral
    rfl
  case uint8.unsigned | uint16.unsigned | uint32.unsigned =>
    rw [literalPlan, asUnsigned_of_parse hdenotes hadmits] at hliteral
    cases hliteral
    exact congrArg (some ∘ Scalar.unsigned) (Nat.mod_eq_of_lt hadmits)
  case uint64.unsigned =>
    rw [literalPlan, asUnsigned_of_parse hdenotes hadmits] at hliteral
    cases hliteral
    rfl
  case float32.float32 cell text =>
    obtain ⟨hfinite, wide, hparse, rfl⟩ := hdenotes
    obtain ⟨found, hfound, -, rfl⟩ := narrowed_of_literalPlan hliteral
    rw [Json.asF64, hparse] at hfound
    obtain rfl := Option.some.inj (Option.filter_eq_some_iff.mp hfound).1
    exact congrArg (some ∘ Scalar.float32) (F32.convert_convert hfinite)
  case float64.float64 cell text =>
    obtain ⟨found, hfound, rfl⟩ := Option.map_eq_some_iff.mp hliteral
    have hparse := (Option.filter_eq_some_iff.mp hfound).1
    rw [show Ieee.parse text = some cell from hdenotes] at hparse
    cases hparse
    rfl
  case utf8.text cell value | largeUtf8.text cell value | utf8View.text cell value =>
    cases hliteral
    rw [show cell = value from hdenotes]
    rfl

theorem exists_parse_of_asSigned {bits : ℕ} {json : Json} {value : ℤ}
    (h : json.asSigned bits = some value) : InSigned bits value ∧ json.Denotes (.signed value) := by
  cases json with
  | number text =>
      obtain ⟨found, hparse, hchecked⟩ := Option.bind_eq_some_iff.mp h
      rw [checkedSigned] at hchecked
      split at hchecked
      · rename_i hbits
        cases hchecked
        exact ⟨hbits, hparse⟩
      · cases hchecked
  | _ => cases h

theorem exists_parse_of_asUnsigned {bits : ℕ} {json : Json} {value : ℕ}
    (h : json.asUnsigned bits = some value) :
    value < 2 ^ bits ∧ json.Denotes (.unsigned value) := by
  cases json with
  | number text =>
      obtain ⟨hmap, hbits⟩ := Option.filter_eq_some_iff.mp h
      obtain ⟨found, hparse, rfl⟩ := Option.map_eq_some_iff.mp hmap
      have hrange : 0 ≤ found ∧ found < 2 ^ 64 := by
        have hfilter := hparse
        unfold parseUnsigned parseInteger at hfilter
        exact of_decide_eq_true (Option.filter_eq_some_iff.mp hfilter).2
      refine ⟨of_decide_eq_true hbits, ?_⟩
      change parseUnsigned 64 text = some (found.toNat : ℤ)
      rw [Int.toNat_of_nonneg hrange.1, hparse]
  | _ => cases h

theorem exists_parse_of_asF64 {json : Json} {value : F64} (h : json.asF64 = some value) :
    ∃ text, json = .number text ∧ Ieee.parse text = some value := by
  cases json with
  | number text => exact ⟨text, rfl, (Option.filter_eq_some_iff.mp h).1⟩
  | _ => cases h

/-- Every literal a comparison accepts is a value of the column, unless it is a text too long
for any array. -/
theorem exists_denotes {json : Json} {literal : ScalarValuePlan}
    (hliteral : literalPlan json dataType = some literal) (htext : ∀ text, json ≠ .string text) :
    ∃ scalar, dataType.AdmitsScalar scalar ∧ json.Denotes scalar := by
  cases dataType <;> first | cases hliteral | skip
  case boolean =>
    obtain ⟨value, hvalue, -⟩ := Option.map_eq_some_iff.mp hliteral
    cases json <;> cases hvalue
    exact ⟨.boolean value, trivial, rfl⟩
  case int8 | int16 | int32 | int64 | date32 | date64 | timestamp =>
    obtain ⟨value, hvalue, -⟩ := Option.map_eq_some_iff.mp hliteral
    exact ⟨.signed value, exists_parse_of_asSigned hvalue⟩
  case uint8 | uint16 | uint32 | uint64 =>
    obtain ⟨value, hvalue, -⟩ := Option.map_eq_some_iff.mp hliteral
    exact ⟨.unsigned value, exists_parse_of_asUnsigned hvalue⟩
  case float32 =>
    obtain ⟨wide, hwide, hfinite, -⟩ := narrowed_of_literalPlan hliteral
    obtain ⟨text, rfl, hparse⟩ := exists_parse_of_asF64 hwide
    exact ⟨.float32 wide.convert, trivial, hfinite, wide, hparse, rfl⟩
  case float64 =>
    obtain ⟨value, hvalue, -⟩ := Option.map_eq_some_iff.mp hliteral
    obtain ⟨text, rfl, hparse⟩ := exists_parse_of_asF64 hvalue
    exact ⟨.float64 value, trivial, hparse⟩
  case utf8 | largeUtf8 | utf8View =>
    cases json with
    | string text => exact absurd rfl (htext text)
    | _ => cases hliteral

end Cells

/-! ## Outcomes of rows -/

/-- The cell an operand has in a row, where a literal is cast for the kernel. -/
def OperandPlan.cellAt (kernel : KernelKind) (batch : RecordBatch) (row : ℕ) :
    OperandPlan → Option Value
  | .column index _ _ => ((batch.columns[index]?).bind fun array => array.cells[row]?).join
  | .literal value => (literalScalar kernel value).map Value.scalar

theorem mapM_zipIdx {α β : Type} {f : Option α × ℕ → Except Fault β} {cells : List (Option α)} :
    cells.zipIdx.mapM f = (List.range cells.length).mapM fun row => f (cells[row]?.join, row) := by
  have hcells : cells.zipIdx = (List.range cells.length).map fun row => (cells[row]?.join, row) := by
    apply List.ext_getElem
    · simp
    · intro row hrow _
      have hlt : row < cells.length := by simpa using hrow
      simp [List.getElem?_eq_getElem hlt]
  rw [hcells, List.mapM_map]
  rfl

theorem cells_eq_map {α : Type} (cells : List (Option α)) :
    cells = (List.range cells.length).map fun row => cells[row]?.join := by
  apply List.ext_getElem
  · simp
  · intro row hrow _
    simp [List.getElem?_eq_getElem hrow]

theorem mapM_cells_eq {α β : Type} {f : Option α → Except Fault β} {cells : List (Option α)} :
    cells.mapM f = (List.range cells.length).mapM fun row => f cells[row]?.join := by
  conv_lhs => rw [cells_eq_map cells, List.mapM_map]
  rfl

section Outcomes

variable {schema : Schema} {dataType : DataType} {batch : RecordBatch}

theorem column_of_resolve (hbatch : batch.schema = schema) {name : String} {index : ℕ}
    {field : Field} (h : schema.resolve name = some (index, field)) :
    ∃ array, batch.columns[index]? = some array ∧ array.field = field ∧
      array.cells.length = batch.rows := by
  obtain ⟨found, -, hfield⟩ := Option.bind_eq_some_iff.mp h
  obtain ⟨resolved, hresolved, heq⟩ := Option.map_eq_some_iff.mp hfield
  cases heq
  rw [← hbatch, ← batch.fields_eq, List.getElem?_map] at hresolved
  obtain ⟨array, harray, hfield⟩ := Option.map_eq_some_iff.mp hresolved
  exact ⟨array, harray, hfield, batch.lengths_eq array (List.mem_of_getElem? harray)⟩

theorem reads_of_comparable (h : (KernelKind.fromDataType dataType).isIncomparable = false) :
    (KernelKind.fromDataType dataType).reads dataType = true := by
  cases dataType <;> first | rfl | exact decide_eq_true rfl | cases h

theorem comparesColumns_of_comparable {kernel : KernelKind} (h : kernel.isIncomparable = false) :
    kernel.comparesColumns = true := by
  cases kernel <;> first | rfl | cases h

/-- A literal that compiles has a comparison, with what the cast makes of it. -/
theorem literalOperand_of_literalPlan {json : Json} {literal : ScalarValuePlan}
    (h : literalPlan json dataType = some literal) {array : ArrowArray}
    (harray : array.dataType = dataType) (plan : ComparePlan) :
    ∃ scalar, literalScalar (.fromDataType dataType) literal = some scalar ∧
      literalOperand (.fromDataType dataType) array literal plan = .ok scalar := by
  have hdowncast (hreads : (KernelKind.fromDataType dataType).reads dataType = true) :
      downcast (.fromDataType dataType) array = .ok () := by
    rw [downcast, harray, if_pos hreads]
  cases dataType <;> first | cases h | skip
  case boolean | int8 | int16 | int32 | int64 | date32 | date64 | timestamp | uint8 | uint16
      | uint32 | uint64 | float64 =>
    obtain ⟨value, -, rfl⟩ := Option.map_eq_some_iff.mp h
    exact ⟨_, rfl, bind_eq_ok.mpr ⟨(), hdowncast (by first | rfl | exact decide_eq_true rfl), rfl⟩⟩
  case float32 =>
    obtain ⟨wide, -, -, rfl⟩ := narrowed_of_literalPlan h
    exact ⟨_, rfl, bind_eq_ok.mpr ⟨(), hdowncast rfl, rfl⟩⟩
  case utf8 | largeUtf8 | utf8View =>
    obtain ⟨value, -, rfl⟩ := Option.map_eq_some_iff.mp h
    exact ⟨_, rfl, bind_eq_ok.mpr ⟨_, rfl, bind_eq_ok.mpr ⟨(), hdowncast rfl, rfl⟩⟩⟩

theorem cellAt_column {index : ℕ} {field : Field} {kernel other : KernelKind} {array : ArrowArray}
    (h : batch.columns[index]? = some array) (row : ℕ) :
    (OperandPlan.column index field other).cellAt kernel batch row = array.cells[row]?.join := by
  rw [OperandPlan.cellAt, h, Option.bind_some]

theorem scanColumnPair_eq {kernel : KernelKind} {left right : ArrowArray} {plan : ComparePlan}
    (hcompares : kernel.comparesColumns = true) (hleft : kernel.reads left.dataType = true)
    (hright : kernel.reads right.dataType = true)
    (hlength : right.cells.length = left.cells.length) :
    scanColumnPair kernel left right plan = (List.range left.cells.length).mapM fun row =>
      compareCells plan left.cells[row]?.join right.cells[row]?.join := by
  unfold scanColumnPair downcast
  rw [if_pos hcompares, if_pos hleft, if_pos hright]
  change left.cells.zipIdx.mapM _ = _
  rw [mapM_zipIdx]
  apply mapM_congr
  intro row hrow
  have hlt : row < right.cells.length := hlength ▸ List.mem_range.mp hrow
  have hcell : right.cell row = .ok right.cells[row] := by
    rw [cell_eq_ok, List.getElem?_eq_getElem hlt]
  dsimp only
  rw [hcell, List.getElem?_eq_getElem hlt, Option.join_some]
  rfl

theorem scanColumnLiteral_eq {kernel : KernelKind} {array : ArrowArray} {literal : ScalarValuePlan}
    {literalIsLeft : Bool} {plan : ComparePlan} {scalar : Scalar}
    (h : literalOperand kernel array literal plan = .ok scalar) :
    scanColumnLiteral kernel array literal literalIsLeft plan =
      (List.range array.cells.length).mapM fun row =>
        if literalIsLeft then compareCells plan (some (.scalar scalar)) array.cells[row]?.join
        else compareCells plan array.cells[row]?.join (some (.scalar scalar)) := by
  unfold scanColumnLiteral
  rw [h]
  exact mapM_cells_eq

/-- Every predicate relates the cells of its operands row by row. -/
theorem scanPredicate_eq {source : CompareAst} {plan : ComparePlan}
    (h : source.CompilesTo schema dataType plan) (hbatch : batch.schema = schema) :
    scanPredicate plan batch = (List.range batch.rows).mapM fun row =>
      compareCells plan (plan.left.cellAt (.fromDataType dataType) batch row)
        (plan.right.cellAt (.fromDataType dataType) batch row) := by
  have hreads := reads_of_comparable h.comparable
  have hcompares := comparesColumns_of_comparable h.comparable
  obtain ⟨left, op, right, nulls⟩ := plan
  obtain ⟨leftSource, sourceOp, rightSource, sourceNulls⟩ := source
  obtain ⟨hleft, hright, hcolumn, -, -, -, -⟩ := h
  -- the operands are two columns, or a column and a literal on either side
  cases leftSource <;> cases rightSource
  case column.column leftName rightName =>
    obtain ⟨leftIndex, leftField, hleftFound, rfl, rfl⟩ := hleft
    obtain ⟨rightIndex, rightField, hrightFound, htype, rfl⟩ := hright
    obtain ⟨leftArray, hleftArray, rfl, hleftRows⟩ := column_of_resolve hbatch hleftFound
    obtain ⟨rightArray, hrightArray, rfl, hrightRows⟩ := column_of_resolve hbatch hrightFound
    have hscan := @scanColumnPair_eq _ leftArray rightArray ⟨.ofColumn (leftIndex, leftArray.field),
      op, .ofColumn (rightIndex, rightArray.field), nulls⟩ hcompares hreads
      ((congrArg _ htype).trans hreads) (hrightRows.trans hleftRows.symm)
    rw [hleftRows] at hscan
    unfold scanPredicate
    simp only [OperandPlan.ofColumn, column_eq_ok.mpr hleftArray, column_eq_ok.mpr hrightArray,
      ok_bind, cellAt_column hleftArray, cellAt_column hrightArray]
    exact hscan
  case column.literal name json =>
    obtain ⟨index, field, hfound, rfl, rfl⟩ := hleft
    obtain ⟨literal, hliteral, rfl⟩ := hright
    obtain ⟨array, harray, rfl, hrows⟩ := column_of_resolve hbatch hfound
    obtain ⟨scalar, hscalar, hoperand⟩ := literalOperand_of_literalPlan hliteral rfl
      ⟨.ofColumn (index, array.field), op, .literal literal, nulls⟩
    have hscan := @scanColumnLiteral_eq _ _ _ false _ _ hoperand
    rw [hrows] at hscan
    unfold scanPredicate
    simp only [OperandPlan.ofColumn, column_eq_ok.mpr harray, ok_bind, cellAt_column harray]
    simp only [OperandPlan.cellAt, hscalar, Option.map_some]
    exact hscan
  case literal.column json name =>
    obtain ⟨index, field, hfound, rfl, rfl⟩ := hright
    obtain ⟨literal, hliteral, rfl⟩ := hleft
    obtain ⟨array, harray, rfl, hrows⟩ := column_of_resolve hbatch hfound
    obtain ⟨scalar, hscalar, hoperand⟩ := literalOperand_of_literalPlan hliteral rfl
      ⟨.literal literal, op, .ofColumn (index, array.field), nulls⟩
    have hscan := @scanColumnLiteral_eq _ _ _ true _ _ hoperand
    rw [hrows] at hscan
    unfold scanPredicate
    simp only [OperandPlan.ofColumn, column_eq_ok.mpr harray, ok_bind, cellAt_column harray]
    simp only [OperandPlan.cellAt, hscalar, Option.map_some]
    exact hscan
  case literal.literal => exact absurd ⟨rfl, rfl⟩ hcolumn

/-- No cell of a column stops a comparison. -/
theorem related_of_cell (hcomparable : (KernelKind.fromDataType dataType).isIncomparable = false)
    {array : ArrowArray} (harray : array.dataType = dataType) {row : ℕ} {value : Value}
    (h : array.cells[row]?.join = some value) :
    ∃ scalar, value = .scalar scalar ∧ (KernelKind.fromDataType dataType).Relates scalar := by
  rw [Option.join_eq_some_iff] at h
  have hpresent := (array.typed _ (List.mem_of_getElem? h)).present value rfl
  change array.dataType.Admits value at hpresent
  rw [harray] at hpresent
  have hscalar : dataType.isScalar = true := by
    cases dataType <;> first | rfl | cases hcomparable
  cases value with
  | scalar scalar =>
      exact ⟨scalar, rfl, relates_of_admits hcomparable ((admits_scalar hscalar).mp hpresent)⟩
  | _ =>
      exfalso
      revert hpresent
      cases dataType <;> first
        | exact id
        | exact fun h => Bool.noConfusion (show true = false from h)
        | cases hscalar

theorem cellAt_relates {source : OperandAst} {plan : OperandPlan}
    (hcomparable : (KernelKind.fromDataType dataType).isIncomparable = false)
    (h : source.CompilesTo schema dataType plan) (hbatch : batch.schema = schema) {row : ℕ}
    {value : Value} (hcell : plan.cellAt (.fromDataType dataType) batch row = some value) :
    ∃ scalar, value = .scalar scalar ∧ (KernelKind.fromDataType dataType).Relates scalar := by
  cases source with
  | column name =>
      obtain ⟨index, field, hfound, rfl, rfl⟩ := h
      obtain ⟨array, harray, rfl, -⟩ := column_of_resolve hbatch hfound
      rw [OperandPlan.ofColumn, cellAt_column harray] at hcell
      exact related_of_cell hcomparable rfl hcell
  | literal json =>
      obtain ⟨literal, -, rfl⟩ := h
      obtain ⟨scalar, hscalar, rfl⟩ := Option.map_eq_some_iff.mp hcell
      exact ⟨scalar, rfl, relates_of_literalScalar hscalar⟩

/-- A predicate that compiles has an outcome in every row of every batch. -/
theorem exists_scanPredicate {source : CompareAst} {plan : ComparePlan}
    (h : source.CompilesTo schema dataType plan) (hbatch : batch.schema = schema) :
    ∃ outcomes, scanPredicate plan batch = .ok outcomes := by
  rw [scanPredicate_eq h hbatch]
  apply exists_mapM
  intro row _
  have hleft := @cellAt_relates _ _ _ _ _ h.comparable h.left hbatch row
  have hright := @cellAt_relates _ _ _ _ _ h.comparable h.right hbatch row
  cases hleftCell : plan.left.cellAt (.fromDataType dataType) batch row with
  | none =>
      cases plan.right.cellAt (.fromDataType dataType) batch row <;> exact ⟨_, rfl⟩
  | some left =>
      obtain ⟨left, rfl, hleft⟩ := hleft hleftCell
      cases hrightCell : plan.right.cellAt (.fromDataType dataType) batch row with
      | none => exact ⟨_, rfl⟩
      | some right =>
          obtain ⟨right, rfl, hright⟩ := hright hrightCell
          obtain ⟨outcome, houtcome⟩ := exists_compareScalars plan.op hleft hright
          exact ⟨some outcome, bind_eq_ok.mpr ⟨outcome, houtcome, rfl⟩⟩

end Outcomes

/-! ## Flagged rows -/

theorem collectRows_eq_ok {ι : Type} {events : ι → ℕ → Except Fault (List Event)} {items : List ι}
    {rowOffset : ℕ} {performed : List Event} :
    collectRows events items rowOffset = .ok performed ↔
      ∃ parts, List.Forall₂ (fun entry part => events entry.1 entry.2 = .ok part)
        (items.zipIdx rowOffset) parts ∧ performed = parts.flatten := by
  unfold collectRows
  rw [collect_eq_mapM_flatten (fun entry : ι × ℕ => events entry.1 entry.2), map_eq_ok]
  refine exists_congr fun parts => ?_
  rw [mapM_eq_ok, eq_comm (a := performed)]

/-- The rows of the violations among the events. -/
def rowsOf (events : List Event) : List (Option ℕ) := (findingsOf events).map Finding.row

@[simp] theorem rowsOf_nil : rowsOf [] = [] := rfl

@[simp] theorem rowsOf_append (events events' : List Event) :
    rowsOf (events ++ events') = rowsOf events ++ rowsOf events' := by
  simp [rowsOf]

theorem rowsOf_flatten (parts : List (List Event)) :
    rowsOf parts.flatten = parts.flatMap rowsOf := by
  induction parts with
  | nil => rfl
  | cons part parts ih => rw [List.flatten_cons, rowsOf_append, ih, List.flatMap_cons]

/-- The rows of the violations a rule finds in a batch. -/
def RowPlan.flaggedRows [Crates] (plan : RowPlan) (batch : RecordBatch) (rowOffset : ℕ) :
    Except Fault (List (Option ℕ)) := rowsOf <$> plan.events batch rowOffset

/-- Two comparisons have the same outcome in every row, so their rules flag the same rows. -/
structure Alike [Crates] (batch : RecordBatch) (plan other : ComparePlan) : Prop where
  outcomes : scanPredicate plan batch = scanPredicate other batch
  flagged : ∀ name otherName rowOffset,
    RowPlan.flaggedRows ⟨name, .compare plan⟩ batch rowOffset =
      RowPlan.flaggedRows ⟨otherName, .compare other⟩ batch rowOffset

section Flagged

variable [Crates] {batch : RecordBatch}

theorem flaggedRows_compare {plan : ComparePlan} {name : String} {rowOffset : ℕ}
    {outcomes : List (Option Bool)} (h : scanPredicate plan batch = .ok outcomes) :
    RowPlan.flaggedRows ⟨name, .compare plan⟩ batch rowOffset =
      .ok ((outcomes.zipIdx.zipIdx rowOffset).flatMap fun entry =>
        if entry.1.1 = some false then [some entry.2] else []) := by
  have hprepare : RowPlan.prepare ⟨name, .compare plan⟩ batch =
      .ok (outcomes.zipIdx, fun outcome row => .ok (compareEvents name plan outcome row)) := by
    unfold RowPlan.prepare
    dsimp only
    rw [h]
    rfl
  have hcollect : collectRows (fun outcome row => .ok (compareEvents name plan outcome row))
      outcomes.zipIdx rowOffset = .ok ((outcomes.zipIdx.zipIdx rowOffset).map fun entry =>
        compareEvents name plan entry.1 entry.2).flatten := by
    refine collectRows_eq_ok.mpr ⟨_, ?_, rfl⟩
    rw [List.forall₂_map_right_iff]
    exact List.forall₂_same.mpr fun _ _ => rfl
  have hevents : RowPlan.events ⟨name, .compare plan⟩ batch rowOffset = .ok _ :=
    bind_eq_ok.mpr ⟨_, hprepare, hcollect⟩
  rw [RowPlan.flaggedRows, hevents]
  refine congrArg Except.ok ?_
  rw [rowsOf_flatten, List.flatMap_map]
  refine List.flatMap_congr fun entry _ => ?_
  unfold compareEvents
  split <;> rfl

theorem alike_of_scanPredicate {plan other : ComparePlan}
    (h : scanPredicate plan batch = scanPredicate other batch) : Alike batch plan other := by
  refine ⟨h, fun name otherName rowOffset => ?_⟩
  cases hscan : scanPredicate plan batch with
  | error fault =>
      have hother := h ▸ hscan
      unfold RowPlan.flaggedRows RowPlan.events RowPlan.prepare
      dsimp only
      rw [hscan, hother]
      rfl
  | ok outcomes => rw [flaggedRows_compare hscan, flaggedRows_compare (h ▸ hscan)]

/-! ## One relation -/

/-- The column is constantly the value the literal denotes. -/
def ConstantlyDenotes (batch : RecordBatch) (name : String) (literal : Json) : Prop :=
  ∃ index field array scalar, batch.schema.resolve name = some (index, field) ∧
    batch.columns[index]? = some array ∧ array.dataType.AdmitsScalar scalar ∧
    literal.Denotes scalar ∧ ∀ cell ∈ array.cells, cell = some (.scalar scalar)

omit [Crates] in
theorem cellAt_of_constantly {name : String} {literal : Json} {dataType : DataType}
    (h : ConstantlyDenotes batch name literal) {columnPlan literalPlan : OperandPlan}
    (hcolumn : (OperandAst.column name).CompilesTo batch.schema dataType columnPlan)
    (hliteral : (OperandAst.literal literal).CompilesTo batch.schema dataType literalPlan)
    {row : ℕ} (hrow : row < batch.rows) :
    columnPlan.cellAt (.fromDataType dataType) batch row =
      literalPlan.cellAt (.fromDataType dataType) batch row := by
  obtain ⟨index, field, array, scalar, hresolve, harray, hadmits, hdenotes, hconstant⟩ := h
  obtain ⟨found, foundField, hfound, rfl, rfl⟩ := hcolumn
  obtain ⟨value, hvalue, rfl⟩ := hliteral
  rw [hresolve] at hfound
  cases hfound
  obtain ⟨other, hother, rfl, hrows⟩ := column_of_resolve rfl hresolve
  rw [harray] at hother
  cases hother
  have hlt : row < array.cells.length := hrows ▸ hrow
  rw [OperandPlan.ofColumn, cellAt_column harray, List.getElem?_eq_getElem hlt, Option.join_some,
    hconstant _ (List.getElem_mem hlt)]
  simp only [OperandPlan.cellAt]
  rw [literalScalar_of_denotes hvalue hadmits hdenotes]
  rfl

omit [Crates] in
theorem scanPredicate_mirror {source : CompareAst} {dataType : DataType} {plan : ComparePlan}
    (h : source.CompilesTo batch.schema dataType plan) :
    scanPredicate plan.mirror batch = scanPredicate plan batch := by
  rw [scanPredicate_eq h rfl, scanPredicate_eq h.mirror rfl]
  exact mapM_congr fun row _ => compareCells_mirror plan _ _

omit [Crates] in
/-- A column in the place of a literal on the right. -/
theorem scanPredicate_constantly {source : CompareAst} {dataType pairType : DataType}
    {plan pair : ComparePlan} (h : source.CompilesTo batch.schema dataType plan) {literal : Json}
    (hright : source.right = .literal literal) {other : String}
    (hpair : CompareAst.CompilesTo { source with right := .column other } batch.schema pairType
      pair) (hconstant : ConstantlyDenotes batch other literal) :
    scanPredicate pair batch = scanPredicate plan batch := by
  have hliteral := h.right
  rw [hright] at hliteral
  have hcolumn := h.left
  have hpairColumn := hpair.left
  cases hleft : source.left with
  | literal value =>
      refine absurd ⟨?_, ?_⟩ h.column
      · rw [hleft]
        rfl
      · rw [hright]
        rfl
  | column name =>
      rw [hleft] at hcolumn hpairColumn
      obtain ⟨index, field, hresolve, rfl, hplanLeft⟩ := hcolumn
      obtain ⟨pairIndex, pairField, hpairResolve, rfl, hpairLeft⟩ := hpairColumn
      rw [hresolve] at hpairResolve
      cases hpairResolve
      rw [scanPredicate_eq h rfl, scanPredicate_eq hpair rfl]
      apply mapM_congr
      intro row hrow
      rw [compareCells_congr (hpair.op.trans h.op.symm) (hpair.nulls.trans h.nulls.symm),
        hpairLeft, hplanLeft, cellAt_of_constantly hconstant hpair.right hliteral
          (List.mem_range.mp hrow)]

/-- Row predicates are one relation: a predicate that compiles has an outcome in every row, the
same as its mirror image, and the same as with a column that is constantly its literal. -/
theorem predicates_are_one_relation {source : CompareAst} {schema : Schema} {path : String}
    {plan : ComparePlan} (hplan : compileCompare source schema path = .ok plan)
    (hbatch : batch.schema = schema) :
    (∃ outcomes, scanPredicate plan batch = .ok outcomes) ∧
    (∃ mirrored, compileCompare source.mirror schema path = .ok mirrored ∧
      Alike batch mirrored plan) ∧
    ∀ literal,
      (source.left = .literal literal ∨ source.right = .literal literal →
        (∀ text, literal ≠ .string text) → ∃ dataType scalar,
          source.CompilesTo schema dataType plan ∧ dataType.AdmitsScalar scalar ∧
            literal.Denotes scalar) ∧
      ∀ other, ConstantlyDenotes batch other literal → ∀ pair,
        (source.right = .literal literal →
          compileCompare { source with right := .column other } schema path = .ok pair →
            Alike batch pair plan) ∧
        (source.left = .literal literal →
          compileCompare { source with left := .column other } schema path = .ok pair →
            Alike batch pair plan) := by
  subst hbatch
  obtain ⟨dataType, h⟩ := compileCompare_eq_ok.mp hplan
  refine ⟨exists_scanPredicate h rfl, ⟨_, compileCompare_eq_ok.mpr ⟨_, h.mirror⟩,
    alike_of_scanPredicate (scanPredicate_mirror h)⟩, fun literal => ⟨?_, ?_⟩⟩
  · intro hoperand htext
    have hliteral : ∃ value, literalPlan literal dataType = some value := by
      rcases hoperand with hleft | hright
      · obtain ⟨value, hvalue, -⟩ := hleft ▸ h.left
        exact ⟨value, hvalue⟩
      · obtain ⟨value, hvalue, -⟩ := hright ▸ h.right
        exact ⟨value, hvalue⟩
    obtain ⟨value, hvalue⟩ := hliteral
    obtain ⟨scalar, hadmits, hdenotes⟩ := exists_denotes hvalue htext
    exact ⟨dataType, scalar, h, hadmits, hdenotes⟩
  · refine fun other hconstant pair => ⟨fun hright hpair => ?_, fun hleft hpair => ?_⟩
    · obtain ⟨pairType, hpair⟩ := compileCompare_eq_ok.mp hpair
      exact alike_of_scanPredicate (scanPredicate_constantly h hright hpair hconstant)
    · obtain ⟨pairType, hpair⟩ := compileCompare_eq_ok.mp hpair
      apply alike_of_scanPredicate
      -- read from the other side, the literal is on the right
      calc scanPredicate pair batch = scanPredicate pair.mirror batch :=
            (scanPredicate_mirror hpair).symm
        _ = scanPredicate plan.mirror batch :=
            scanPredicate_constantly h.mirror hleft hpair.mirror hconstant
        _ = scanPredicate plan batch := scanPredicate_mirror h

end Flagged

/-- A column of bytes. -/
def byteColumn (name : String) (cells : List (Option ℤ))
    (h : ∀ value ∈ cells.reduceOption, InSigned 8 value) : ArrowArray where
  field := .mk name .int8 true []
  cells := cells.map (·.map (.scalar ∘ .signed))
  typed := by
    intro cell hcell
    obtain ⟨value, hvalue, rfl⟩ := List.mem_map.mp hcell
    cases value with
    | none => exact ⟨rfl, rfl⟩
    | some value => exact h value (List.reduceOption_mem_iff.mpr hvalue)

/-- The least byte and a null, beside a column of its own. -/
def byteBatch : RecordBatch where
  schema := ⟨[.mk "value" .int8 true [], .mk "limit" .int8 true []], []⟩
  rows := 2
  columns := [byteColumn "value" [some (-128), none] (by decide),
    byteColumn "limit" [some (-5), some (-5)] (by decide)]
  fields_eq := rfl
  lengths_eq := by decide

/-- `value < -5`, where nulls are equal to themselves. -/
def belowMinusFive : CompareAst := ⟨.column "value", .lt, .literal (.number "-5"), .equal⟩

theorem predicates_are_one_relation_bytes : let _ : Crates := Crates.zeroDigests
    ∃ plan pair, compileCompare belowMinusFive byteBatch.schema "$" = .ok plan ∧
      compileCompare { belowMinusFive with right := .column "limit" } byteBatch.schema "$" =
        .ok pair ∧
      Alike byteBatch pair plan := by
  intro _
  have hplan : compileCompare belowMinusFive byteBatch.schema "$" = .ok _ := rfl
  have hpair : compileCompare { belowMinusFive with right := .column "limit" } byteBatch.schema "$" =
      .ok _ := rfl
  have hbits : InSigned 8 (-5) := by decide
  have hdenotes : parseSigned 64 "-5" = some (-5) := by decide
  have hconstant : ConstantlyDenotes byteBatch "limit" (.number "-5") :=
    ⟨1, _, _, .signed (-5), rfl, rfl, hbits, hdenotes, by simp [byteColumn]⟩
  exact ⟨_, _, hplan, hpair,
    (((predicates_are_one_relation hplan rfl).2.2 (.number "-5")).2 "limit" hconstant _).1 rfl
      hpair⟩

end ProofFrame
