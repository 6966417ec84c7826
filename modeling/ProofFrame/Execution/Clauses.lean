import ProofFrame.Execution.Assertions

/-!
# Clauses

A rule about a column is a set of clauses, each of which a cell keeps or breaks.  The kernels
test the clauses of a cell in turn; a column rule records one violation for each clause that the
cell breaks, and so does an assertion.
-/

namespace ProofFrame

open Lib Lib.Run Lib.Ieee754

/-- What a rule may ask of a cell. -/
inductive Clause where
  | notNull | min | max | nan | pattern | allowed | minLength | maxLength
  deriving DecidableEq, Repr

/-- The name a violation of the clause is recorded under. -/
def Clause.rule : Clause → String
  | .notNull => "not_null"
  | .min => "min"
  | .max => "max"
  | .nan => "nan"
  | .pattern => "pattern"
  | .allowed => "allowed"
  | .minLength => "min_length"
  | .maxLength => "max_length"

/-- The clauses in the order in which they are tested. -/
def Clause.all : List Clause := [.notNull, .min, .max, .nan, .pattern, .allowed, .minLength, .maxLength]

theorem Clause.mem_all (clause : Clause) : clause ∈ Clause.all := by
  cases clause <;> decide

theorem Clause.rule_injective {clause other : Clause} (h : clause.rule = other.rule) :
    clause = other := by
  revert h
  cases clause <;> cases other <;> decide

/-! ## What breaks a clause -/

/-- The value is below the bound. -/
def TypedBound.isAbove : TypedBound → Scalar → Bool
  | .i64 bound, .signed value => PartialOrd.lt value bound
  | .u64 bound, .unsigned value => PartialOrd.lt value bound
  | .f32 bound, .float32 value => PartialOrd.lt value bound
  | .f64 bound, .float64 value => PartialOrd.lt value bound
  | .decimal128 bound _, .decimal value => PartialOrd.lt value bound
  | .timestamp bound _, .signed value => PartialOrd.lt value bound
  | _, _ => false

/-- The value is above the bound. -/
def TypedBound.isBelow : TypedBound → Scalar → Bool
  | .i64 bound, .signed value => PartialOrd.gt value bound
  | .u64 bound, .unsigned value => PartialOrd.gt value bound
  | .f32 bound, .float32 value => PartialOrd.gt value bound
  | .f64 bound, .float64 value => PartialOrd.gt value bound
  | .decimal128 bound _, .decimal value => PartialOrd.gt value bound
  | .timestamp bound _, .signed value => PartialOrd.gt value bound
  | _, _ => false

def Scalar.isNaN : Scalar → Bool
  | .float32 value => value.isNaN
  | .float64 value => value.isNaN
  | _ => false

variable [Crates]

/-- The text breaks the clause. -/
def CompiledRules.textBreaks (rules : CompiledRules) (text : String) : Clause → Bool
  | .pattern => rules.pattern.any (!Crates.regexMatch · text)
  | .allowed => rules.allowed.any (!·.contains text)
  | .minLength => rules.minLength.any (text.toList.length < ·)
  | .maxLength => rules.maxLength.any (text.toList.length > ·)
  | _ => false

/-- The value breaks the clause. -/
def CompiledRules.valueBreaks (rules : CompiledRules) (value : Scalar) : Clause → Bool
  | .min => rules.min.any (·.isAbove value)
  | .max => rules.max.any (·.isBelow value)
  | .nan => value.isNaN && decide (rules.validateNan ∧ rules.nan = .reject)
  | clause => match value with
      | .text text => rules.textBreaks text clause
      | _ => false

/-- The cell breaks the clause. -/
def CompiledRules.breaks (rules : CompiledRules) : Option Value → Clause → Bool
  | none, .notNull => rules.notNull
  | some (.scalar value), clause => rules.valueBreaks value clause
  | _, _ => false

/-- The clauses a cell breaks. -/
def CompiledRules.broken (rules : CompiledRules) (cell : Option Value) : List Clause :=
  Clause.all.filter (rules.breaks cell)

section Broken

variable {rules : CompiledRules}

theorem broken_none : rules.broken none = if rules.notNull then [.notNull] else [] := by
  cases h : rules.notNull <;> simp [CompiledRules.broken, Clause.all, CompiledRules.breaks, h]

theorem broken_of_not_scalar {value : Value} (h : ∀ scalar, value ≠ .scalar scalar) :
    rules.broken (some value) = [] := by
  rw [CompiledRules.broken, List.filter_eq_nil_iff]
  intro clause _
  cases value with
  | scalar scalar => exact absurd rfl (h scalar)
  | _ => exact Bool.false_ne_true

omit [Crates] in
theorem filter_cons_eq_append {breaks : Clause → Bool} {clause : Clause} {clauses : List Clause} :
    (clause :: clauses).filter breaks =
      (if breaks clause then [clause] else []) ++ clauses.filter breaks := by
  rw [List.filter_cons]
  split <;> rfl

/-- What a value that is no text breaks. -/
theorem broken_value {value : Scalar} (htext : ∀ text, value ≠ .text text) :
    rules.broken (some (.scalar value)) =
      (if rules.min.any (·.isAbove value) then [.min] else []) ++
      (if rules.max.any (·.isBelow value) then [.max] else []) ++
      (if value.isNaN && decide (rules.validateNan ∧ rules.nan = .reject) then [.nan] else []) := by
  have hrest (clause : Clause) (hclause : clause ∈ [Clause.pattern, .allowed, .minLength, .maxLength]) :
      rules.breaks (some (.scalar value)) clause = false := by
    cases value with
    | text text => exact absurd rfl (htext text)
    | _ =>
        simp only [List.mem_cons, List.not_mem_nil, or_false] at hclause
        rcases hclause with rfl | rfl | rfl | rfl <;> rfl
  rw [CompiledRules.broken, Clause.all]
  simp only [filter_cons_eq_append, hrest, List.mem_cons, List.filter_nil, true_or, or_true]
  simp only [CompiledRules.breaks, CompiledRules.valueBreaks, Bool.false_eq_true, if_false,
    List.nil_append, List.append_nil, List.append_assoc]
  rfl

/-- What a text breaks. -/
theorem broken_text {text : String} :
    rules.broken (some (.scalar (.text text))) =
      (if rules.pattern.any (!Crates.regexMatch · text) then [.pattern] else []) ++
      (if rules.allowed.any (!·.contains text) then [.allowed] else []) ++
      (if rules.minLength.any (text.toList.length < ·) then [.minLength] else []) ++
      (if rules.maxLength.any (text.toList.length > ·) then [.maxLength] else []) := by
  have hrest (clause : Clause) (hclause : clause ∈ [Clause.notNull, .min, .max, .nan]) :
      rules.breaks (some (.scalar (.text text))) clause = false := by
    simp only [List.mem_cons, List.not_mem_nil, or_false] at hclause
    rcases hclause with rfl | rfl | rfl | rfl
    · rfl
    · change rules.min.any (fun bound => bound.isAbove (.text text)) = false
      rw [Option.any_eq_false]
      rintro (_ | _ | _ | _ | _ | _) - <;> rfl
    · change rules.max.any (fun bound => bound.isBelow (.text text)) = false
      rw [Option.any_eq_false]
      rintro (_ | _ | _ | _ | _ | _) - <;> rfl
    · rfl
  rw [CompiledRules.broken, Clause.all]
  simp only [filter_cons_eq_append, hrest, List.mem_cons, List.filter_nil, true_or, or_true]
  simp only [CompiledRules.breaks, CompiledRules.valueBreaks, CompiledRules.textBreaks,
    Bool.false_eq_true, if_false, List.nil_append, List.append_nil, List.append_assoc]
  rfl

/-- A value without an order and without characters breaks nothing. -/
theorem broken_of_untested {scalar : Scalar}
    (habove : ∀ bound : TypedBound, bound.isAbove scalar = false)
    (hbelow : ∀ bound : TypedBound, bound.isBelow scalar = false) (hnan : scalar.isNaN = false)
    (htext : ∀ text, scalar ≠ .text text) : rules.broken (some (.scalar scalar)) = [] := by
  have hmin : rules.min.any (·.isAbove scalar) = false := by simp [habove]
  have hmax : rules.max.any (·.isBelow scalar) = false := by simp [hbelow]
  rw [broken_value htext, hmin, hmax, hnan]
  rfl

end Broken

/-! ## What is recorded -/

/-- A violation without its message. -/
def Finding.what (finding : Finding) : String × String × Option ℕ :=
  (finding.rule, finding.column, finding.row)

/-- The violations among the events, without their messages. -/
def violationsOf (events : List Event) : List (String × String × Option ℕ) :=
  (findingsOf events).map Finding.what

/-- The violations of a cell that breaks the clauses. -/
def violationsFor (name : String) (row : ℕ) (clauses : List Clause) :
    List (String × String × Option ℕ) :=
  clauses.map fun clause => (clause.rule, name, some row)

section Recorded

variable {rules : CompiledRules} {name : String} {row : ℕ}

omit [Crates] in
@[simp] theorem violationsOf_append (events events' : List Event) :
    violationsOf (events ++ events') = violationsOf events ++ violationsOf events' := by
  simp [violationsOf]

omit [Crates] in
@[simp] theorem violationsOf_insert (value : Distinct.OwnedValue) :
    violationsOf [.insert value row] = [] := rfl

omit [Crates] in
theorem violationsOf_record_if {condition : Prop} [Decidable condition] {finding : Finding} :
    violationsOf (if condition then [.record finding] else []) =
      if condition then [finding.what] else [] := by
  split <;> rfl

omit [Crates] in
@[simp] theorem violationsFor_append (clauses clauses' : List Clause) :
    violationsFor name row (clauses ++ clauses') =
      violationsFor name row clauses ++ violationsFor name row clauses' :=
  List.map_append ..

omit [Crates] in
theorem violationsFor_if {condition : Prop} [Decidable condition] {clause : Clause} :
    violationsFor name row (if condition then [clause] else []) =
      if condition then [(clause.rule, name, some row)] else [] := by
  split <;> rfl

end Recorded

/-! ## Bounds as the kernels read them -/

section Bounds

variable {bound : Option TypedBound}

omit [Crates] in
theorem any_signedBound {read : Option ℤ} (h : signedBound bound = .ok read) (value : ℤ) :
    read.any (PartialOrd.lt value) = bound.any (·.isAbove (.signed value)) ∧
      read.any (PartialOrd.gt value) = bound.any (·.isBelow (.signed value)) := by
  unfold signedBound at h
  split at h <;> cases h <;> exact ⟨rfl, rfl⟩

omit [Crates] in
theorem any_timestampBound {read : Option ℤ} (h : timestampBound bound = .ok read) (value : ℤ) :
    read.any (PartialOrd.lt value) = bound.any (·.isAbove (.signed value)) ∧
      read.any (PartialOrd.gt value) = bound.any (·.isBelow (.signed value)) := by
  unfold timestampBound at h
  split at h <;> cases h <;> exact ⟨rfl, rfl⟩

omit [Crates] in
theorem any_decimalBound {read : Option ℤ} (h : decimalBound bound = .ok read) (value : ℤ) :
    read.any (PartialOrd.lt value) = bound.any (·.isAbove (.decimal value)) ∧
      read.any (PartialOrd.gt value) = bound.any (·.isBelow (.decimal value)) := by
  unfold decimalBound at h
  split at h <;> cases h <;> exact ⟨rfl, rfl⟩

omit [Crates] in
theorem any_unsignedBound {read : Option ℕ} (h : unsignedBound bound = .ok read) (value : ℕ) :
    read.any (PartialOrd.lt value) = bound.any (·.isAbove (.unsigned value)) ∧
      read.any (PartialOrd.gt value) = bound.any (·.isBelow (.unsigned value)) := by
  unfold unsignedBound at h
  split at h <;> cases h <;> exact ⟨rfl, rfl⟩

omit [Crates] in
theorem any_float32Bound {read : Option F32} (h : float32Bound bound = .ok read) (value : F32) :
    read.any (PartialOrd.lt value) = bound.any (·.isAbove (.float32 value)) ∧
      read.any (PartialOrd.gt value) = bound.any (·.isBelow (.float32 value)) := by
  unfold float32Bound at h
  split at h <;> cases h <;> exact ⟨rfl, rfl⟩

omit [Crates] in
theorem any_float64Bound {read : Option F64} (h : float64Bound bound = .ok read) (value : F64) :
    read.any (PartialOrd.lt value) = bound.any (·.isAbove (.float64 value)) ∧
      read.any (PartialOrd.gt value) = bound.any (·.isBelow (.float64 value)) := by
  unfold float64Bound at h
  split at h <;> cases h <;> exact ⟨rfl, rfl⟩

omit [Crates] in
/-- A NaN is on neither side of a bound. -/
theorem any_of_isNaN {eb mb : ℕ} {value : Ieee eb mb} (hnan : value.isNaN = true)
    (read : Option (Ieee eb mb)) :
    read.any (PartialOrd.lt value) = false ∧ read.any (PartialOrd.gt value) = false := by
  have hcmp (bound : Ieee eb mb) : PartialOrd.partialCmp value bound = none := by
    change Ieee.partialCmp value bound = none
    rw [Ieee.partialCmp, hnan, Bool.true_or, if_pos rfl]
  cases read with
  | none => exact ⟨rfl, rfl⟩
  | some bound =>
      simp [PartialOrd.lt, PartialOrd.gt, hcmp]

end Bounds

/-! ## Column rules -/

section Kernels

variable {rules : CompiledRules} {name : String} {row : ℕ}

omit [Crates] in
theorem violationsOf_recordRange {α : Type} [PartialOrd α] (value : α) (minimum maximum : Option α) :
    violationsOf (recordRange value minimum maximum name row) =
      (if minimum.any (PartialOrd.lt value) then [("min", name, some row)] else []) ++
      (if maximum.any (PartialOrd.gt value) then [("max", name, some row)] else []) := by
  rw [recordRange, violationsOf_append, violationsOf_record_if, violationsOf_record_if]
  rfl

omit [Crates] in
theorem violationsOf_scanFloat {eb mb : ℕ} (value : Ieee eb mb) (minimum maximum : Option (Ieee eb mb)) :
    violationsOf (scanFloat name rules minimum maximum value row) =
      (if minimum.any (PartialOrd.lt value) then [("min", name, some row)] else []) ++
      (if maximum.any (PartialOrd.gt value) then [("max", name, some row)] else []) ++
      (if value.isNaN && decide (rules.validateNan ∧ rules.nan = .reject) then
        [("nan", name, some row)] else []) := by
  rw [scanFloat, violationsOf_append, violationsOf_insert, List.append_nil]
  cases hnan : value.isNaN with
  | true =>
      rw [(any_of_isNaN hnan minimum).1, (any_of_isNaN hnan maximum).2, if_pos rfl, recordNan,
        violationsOf_record_if]
      simp only [Bool.true_and, decide_eq_true_eq]
      rfl
  | false =>
      rw [if_neg Bool.false_ne_true, violationsOf_recordRange]
      simp

theorem violationsOf_scanStrings {value : Value} {events : List Event}
    (h : scanStrings name rules value row = .ok events) :
    violationsOf events = violationsFor name row (rules.broken (some value)) := by
  unfold scanStrings at h
  split at h
  · cases h
    rw [broken_text]
    simp only [checkLength, violationsOf_append, violationsOf_insert, violationsOf_record_if,
      violationsFor_append, violationsFor_if, List.nil_append, List.append_assoc]
    rfl
  · cases h

/-- A kernel that tests the bounds of a value that is no text. -/
theorem violationsOf_bounded {α : Type} [PartialOrd α] {value : α} {scalar : Scalar}
    {minimum maximum : Option α} {inserted : Distinct.OwnedValue}
    (hmin : minimum.any (PartialOrd.lt value) = rules.min.any (·.isAbove scalar))
    (hmax : maximum.any (PartialOrd.gt value) = rules.max.any (·.isBelow scalar))
    (hnan : scalar.isNaN = false) (htext : ∀ text, scalar ≠ .text text) :
    violationsOf (recordRange value minimum maximum name row ++ [.insert inserted row]) =
      violationsFor name row (rules.broken (some (.scalar scalar))) := by
  rw [broken_value htext, violationsOf_append, violationsOf_insert, violationsOf_recordRange,
    hmin, hmax, hnan]
  simp only [violationsFor_append, violationsFor_if, Bool.false_and, Bool.false_eq_true, if_false]
  rfl

theorem violationsOf_float {eb mb : ℕ} {value : Ieee eb mb} {scalar : Scalar}
    {minimum maximum : Option (Ieee eb mb)}
    (hmin : minimum.any (PartialOrd.lt value) = rules.min.any (·.isAbove scalar))
    (hmax : maximum.any (PartialOrd.gt value) = rules.max.any (·.isBelow scalar))
    (hnan : scalar.isNaN = value.isNaN) (htext : ∀ text, scalar ≠ .text text) :
    violationsOf (scanFloat name rules minimum maximum value row) =
      violationsFor name row (rules.broken (some (.scalar scalar))) := by
  rw [broken_value htext, violationsOf_scanFloat, hmin, hmax, hnan]
  simp only [violationsFor_append, violationsFor_if]
  rfl

omit [Crates] in
theorem not_scalar_of_admits {dataType : DataType} (hscalar : dataType.isScalar = false)
    {value : Value} (h : dataType.Admits value) (scalar : Scalar) : value ≠ .scalar scalar := by
  rintro rfl
  cases dataType <;> first | exact h | (cases scalar <;> exact h) | cases hscalar

/-- A column rule records one violation for each clause that a cell breaks. -/
theorem violationsOf_cellEvents {plan : ColumnPlan} {dataType : DataType} {unique : Bool}
    {kernel : CellKernel} (hkind : plan.kernel = .fromDataType dataType)
    (hkernel : plan.cellKernel dataType unique = .ok kernel) {cell : Option Value}
    (hcell : ∀ value, cell = some value → dataType.Admits value) {events : List Event}
    (h : plan.cellEvents kernel cell row = .ok events) :
    violationsOf events = violationsFor plan.field.name row (plan.rules.broken cell) := by
  obtain ⟨position, field, kind, rules⟩ := plan
  cases cell with
  | none =>
      cases h
      dsimp only
      rw [recordNull, violationsOf_record_if, broken_none]
      split <;> rfl
  | some value =>
  -- a kernel for each kind of column: bounds first, then texts, and those that look at nothing
  change kernel value row = .ok events at h
  cases kind
  case i8 | i16 | i32 | i64 | date32 | date64 =>
    obtain ⟨minimum, hmin, hkernel⟩ := bind_eq_ok.mp hkernel
    obtain ⟨maximum, hmax, hkernel⟩ := bind_eq_ok.mp hkernel
    cases hkernel
    dsimp only at h
    split at h <;> cases h
    exact violationsOf_bounded (any_signedBound hmin _).1 (any_signedBound hmax _).2 rfl
      fun _ => Scalar.noConfusion
  case u8 | u16 | u32 | u64 =>
    obtain ⟨minimum, hmin, hkernel⟩ := bind_eq_ok.mp hkernel
    obtain ⟨maximum, hmax, hkernel⟩ := bind_eq_ok.mp hkernel
    cases hkernel
    dsimp only at h
    split at h <;> cases h
    exact violationsOf_bounded (any_unsignedBound hmin _).1 (any_unsignedBound hmax _).2 rfl
      fun _ => Scalar.noConfusion
  case timestamp =>
    obtain ⟨minimum, hmin, hkernel⟩ := bind_eq_ok.mp hkernel
    obtain ⟨maximum, hmax, hkernel⟩ := bind_eq_ok.mp hkernel
    cases hkernel
    dsimp only at h
    split at h <;> cases h
    exact violationsOf_bounded (any_timestampBound hmin _).1 (any_timestampBound hmax _).2 rfl
      fun _ => Scalar.noConfusion
  case decimal128 =>
    obtain ⟨minimum, hmin, hkernel⟩ := bind_eq_ok.mp hkernel
    obtain ⟨maximum, hmax, hkernel⟩ := bind_eq_ok.mp hkernel
    cases hkernel
    dsimp only at h
    split at h <;> cases h
    exact violationsOf_bounded (any_decimalBound hmin _).1 (any_decimalBound hmax _).2 rfl
      fun _ => Scalar.noConfusion
  case f32 =>
    obtain ⟨minimum, hmin, hkernel⟩ := bind_eq_ok.mp hkernel
    obtain ⟨maximum, hmax, hkernel⟩ := bind_eq_ok.mp hkernel
    cases hkernel
    dsimp only at h
    split at h <;> cases h
    exact violationsOf_float (any_float32Bound hmin _).1 (any_float32Bound hmax _).2 rfl
      fun _ => Scalar.noConfusion
  case f64 =>
    obtain ⟨minimum, hmin, hkernel⟩ := bind_eq_ok.mp hkernel
    obtain ⟨maximum, hmax, hkernel⟩ := bind_eq_ok.mp hkernel
    cases hkernel
    dsimp only at h
    split at h <;> cases h
    exact violationsOf_float (any_float64Bound hmin _).1 (any_float64Bound hmax _).2 rfl
      fun _ => Scalar.noConfusion
  case utf8 | largeUtf8 | utf8View =>
    cases hkernel
    exact violationsOf_scanStrings h
  case boolean =>
    cases hkernel
    unfold scanBooleanKernel at h
    split at h <;> cases h
    have hbroken (value : Bool) : rules.broken (some (.scalar (.boolean value))) = [] :=
      broken_of_untested (fun bound => by cases bound <;> rfl) (fun bound => by cases bound <;> rfl)
        rfl (fun _ => Scalar.noConfusion)
    dsimp only
    rw [hbroken]
    rfl
  case binary | largeBinary | binaryView =>
    cases hkernel
    unfold scanBinary at h
    split at h <;> cases h
    have hbroken (value : List UInt8) : rules.broken (some (.scalar (.binary value))) = [] :=
      broken_of_untested (fun bound => by cases bound <;> rfl) (fun bound => by cases bound <;> rfl)
        rfl (fun _ => Scalar.noConfusion)
    dsimp only
    rw [hbroken]
    rfl
  case nested | nullOnly =>
    cases hkernel
    have hscalar : dataType.isScalar = false := by
      cases dataType <;> first | rfl | cases hkind
    dsimp only
    rw [broken_of_not_scalar (not_scalar_of_admits hscalar (hcell value rfl))]
    unfold scanFallback at h
    split at h
    · obtain ⟨encoded, -, h⟩ := bind_eq_ok.mp h
      cases h
      rfl
    · cases h
      rfl

end Kernels

/-! ## Assertions -/

section Assertions

variable {rules : CompiledRules} {column ruleName : String} {row : ℕ}

/-- The events of an assertion on a cell that breaks the clauses. -/
def failuresFor (column ruleName : String) (row : ℕ) (clauses : List Clause) : List Event :=
  clauses.map fun clause => recordConditional column ruleName row clause.rule

omit [Crates] in
@[simp] theorem failuresFor_append (clauses clauses' : List Clause) :
    failuresFor column ruleName row (clauses ++ clauses') =
      failuresFor column ruleName row clauses ++ failuresFor column ruleName row clauses' :=
  List.map_append ..

omit [Crates] in
theorem failuresFor_if {condition : Prop} [Decidable condition] {clause : Clause} :
    failuresFor column ruleName row (if condition then [clause] else []) =
      if condition then [recordConditional column ruleName row clause.rule] else [] := by
  split <;> rfl

theorem scanAssertionRange_eq {α : Type} [PartialOrd α] {value : α} {scalar : Scalar}
    {minimum maximum : Option α}
    (hmin : minimum.any (PartialOrd.lt value) = rules.min.any (·.isAbove scalar))
    (hmax : maximum.any (PartialOrd.gt value) = rules.max.any (·.isBelow scalar))
    (hnan : scalar.isNaN = false) (htext : ∀ text, scalar ≠ .text text) :
    scanAssertionRange column ruleName row value minimum maximum =
      failuresFor column ruleName row (rules.broken (some (.scalar scalar))) := by
  rw [broken_value htext, scanAssertionRange, hmin, hmax, hnan]
  simp only [failuresFor_append, failuresFor_if, Bool.false_and, Bool.false_eq_true, if_false,
    List.append_nil]
  rfl

theorem scanFloatAssertion_eq {eb mb : ℕ} {value : Ieee eb mb} {scalar : Scalar}
    {minimum maximum : Option (Ieee eb mb)}
    (hmin : minimum.any (PartialOrd.lt value) = rules.min.any (·.isAbove scalar))
    (hmax : maximum.any (PartialOrd.gt value) = rules.max.any (·.isBelow scalar))
    (hnan : scalar.isNaN = value.isNaN) (htext : ∀ text, scalar ≠ .text text) :
    scanFloatAssertion column ruleName row rules value minimum maximum =
      failuresFor column ruleName row (rules.broken (some (.scalar scalar))) := by
  unfold scanFloatAssertion
  split
  · rename_i hvalue
    rw [broken_value htext, ← hmin, ← hmax, (any_of_isNaN hvalue minimum).1,
      (any_of_isNaN hvalue maximum).2, hnan, hvalue]
    simp only [failuresFor_if, Bool.true_and, Bool.false_eq_true, if_false, List.nil_append,
      decide_eq_true_eq]
    rfl
  · rename_i hvalue
    exact scanAssertionRange_eq hmin hmax (hnan.trans (Bool.not_eq_true _ ▸ hvalue)) htext

theorem scanTextAssertion_eq {text : String} (hminLength : rules.minLength = none)
    (hmaxLength : rules.maxLength = none) :
    scanTextAssertion column ruleName row rules text =
      failuresFor column ruleName row (rules.broken (some (.scalar (.text text)))) := by
  rw [broken_text, hminLength, hmaxLength, scanTextAssertion]
  simp only [failuresFor_append, failuresFor_if, Option.any_none, Bool.false_eq_true, if_false,
    List.append_nil]
  rfl

theorem scanAssertionValue_eq {kind : KernelKind} {scalar : Scalar} {events : List Event}
    (hminLength : rules.minLength = none) (hmaxLength : rules.maxLength = none)
    (h : scanAssertionValue column ruleName row kind rules scalar = .ok events) :
    events = failuresFor column ruleName row (rules.broken (some (.scalar scalar))) := by
  unfold scanAssertionValue at h
  split at h
  case h_1 | h_2 | h_3 | h_4 | h_5 | h_6 =>
    obtain ⟨minimum, hmin, h⟩ := bind_eq_ok.mp h
    obtain ⟨maximum, hmax, h⟩ := bind_eq_ok.mp h
    cases h
    exact scanAssertionRange_eq (any_signedBound hmin _).1 (any_signedBound hmax _).2 rfl nofun
  case h_7 | h_8 | h_9 | h_10 =>
    obtain ⟨minimum, hmin, h⟩ := bind_eq_ok.mp h
    obtain ⟨maximum, hmax, h⟩ := bind_eq_ok.mp h
    cases h
    exact scanAssertionRange_eq (any_unsignedBound hmin _).1 (any_unsignedBound hmax _).2 rfl nofun
  case h_11 =>
    obtain ⟨minimum, hmin, h⟩ := bind_eq_ok.mp h
    obtain ⟨maximum, hmax, h⟩ := bind_eq_ok.mp h
    cases h
    exact scanFloatAssertion_eq (any_float32Bound hmin _).1 (any_float32Bound hmax _).2 rfl nofun
  case h_12 =>
    obtain ⟨minimum, hmin, h⟩ := bind_eq_ok.mp h
    obtain ⟨maximum, hmax, h⟩ := bind_eq_ok.mp h
    cases h
    exact scanFloatAssertion_eq (any_float64Bound hmin _).1 (any_float64Bound hmax _).2 rfl nofun
  case h_13 =>
    obtain ⟨minimum, hmin, h⟩ := bind_eq_ok.mp h
    obtain ⟨maximum, hmax, h⟩ := bind_eq_ok.mp h
    cases h
    exact scanAssertionRange_eq (any_decimalBound hmin _).1 (any_decimalBound hmax _).2 rfl nofun
  case h_14 =>
    obtain ⟨minimum, hmin, h⟩ := bind_eq_ok.mp h
    obtain ⟨maximum, hmax, h⟩ := bind_eq_ok.mp h
    cases h
    exact scanAssertionRange_eq (any_timestampBound hmin _).1 (any_timestampBound hmax _).2 rfl nofun
  case h_15 | h_16 | h_17 =>
    cases h
    exact scanTextAssertion_eq hminLength hmaxLength
  case h_18 => cases h

/-- An assertion records one violation for each clause that a cell breaks. -/
theorem scanAssertionRow_eq {kind : KernelKind} (hminLength : rules.minLength = none)
    (hmaxLength : rules.maxLength = none) {array : ArrowArray} {cell : Option Value}
    {events : List Event}
    (h : scanAssertionRow column ruleName row kind rules array cell = .ok events)
    (hboolean : kind = .boolean → ∀ value, cell = some value → ∃ truth, value = .scalar (.boolean truth)) :
    events = failuresFor column ruleName row (rules.broken cell) := by
  unfold scanAssertionRow at h
  split at h
  · cases h
    rw [broken_none, failuresFor_if]
    rfl
  rename_i value
  split at h
  · cases h
    obtain ⟨truth, rfl⟩ := hboolean rfl value rfl
    rw [broken_of_untested (fun bound => by cases bound <;> rfl)
      (fun bound => by cases bound <;> rfl) rfl (fun _ => Scalar.noConfusion)]
    rfl
  case h_7 =>
    obtain ⟨_, -, h⟩ := bind_eq_ok.mp h
    split at h
    · exact scanAssertionValue_eq hminLength hmaxLength h
    · cases h
  all_goals cases h

end Assertions

end ProofFrame
