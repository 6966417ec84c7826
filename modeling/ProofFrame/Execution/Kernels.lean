import ProofFrame.Execution.Cells
import ProofFrame.Execution.Scan
import ProofFrame.Lib.PartialOrd
import ProofFrame.Lib.Steps

/-!
# Column kernels

The rules of one column: null cells, ranges, NaN, patterns, allowlists, lengths,
and the values a uniqueness rule collects.  Each kernel gives the events of a
non-null cell; `scanColumn` runs the kernel of the plan over an array.
-/

namespace ProofFrame

open Lib Lib.Run Lib.Ieee754 Distinct

/-! ## What is recorded -/

def recordNull (notNull : Bool) (name : String) (row : ℕ) : List Event :=
  if notNull then [.record ⟨"not_null", name, some row, "Null value is not allowed"⟩] else []

def recordNan (rules : CompiledRules) (name : String) (row : ℕ) : List Event :=
  if rules.validateNan ∧ rules.nan = .reject then
    [.record ⟨"nan", name, some row, "NaN value is not allowed"⟩]
  else []

def recordRange {α : Type} [PartialOrd α] (value : α) (minimum maximum : Option α) (name : String)
    (row : ℕ) : List Event :=
  (if minimum.any (PartialOrd.lt value) then
    [.record ⟨"min", name, some row, "Value is below the compiled minimum"⟩] else []) ++
  (if maximum.any (PartialOrd.gt value) then
    [.record ⟨"max", name, some row, "Value is above the compiled maximum"⟩] else [])

/-- The length of a text in Unicode characters. -/
def checkLength (rules : CompiledRules) (name : String) (row : ℕ) (value : String) : List Event :=
  let length := value.toList.length
  (if rules.minLength.any (length < ·) then
    [.record ⟨"min_length", name, some row,
      s!"Value is {length} character(s), shorter than the contract allows"⟩] else []) ++
  (if rules.maxLength.any (length > ·) then
    [.record ⟨"max_length", name, some row,
      s!"Value is {length} character(s), longer than the contract allows"⟩] else [])

/-! ## Bounds -/

def boundMismatch : Fault := .panic "bound type is fixed by contract compilation"

def signedBound : Option TypedBound → Except Fault (Option ℤ)
  | some (.i64 value) => .ok (some value)
  | none => .ok none
  | _ => .error boundMismatch

def unsignedBound : Option TypedBound → Except Fault (Option ℕ)
  | some (.u64 value) => .ok (some value)
  | none => .ok none
  | _ => .error boundMismatch

def float32Bound : Option TypedBound → Except Fault (Option F32)
  | some (.f32 value) => .ok (some value)
  | none => .ok none
  | _ => .error boundMismatch

def float64Bound : Option TypedBound → Except Fault (Option F64)
  | some (.f64 value) => .ok (some value)
  | none => .ok none
  | _ => .error boundMismatch

def timestampBound : Option TypedBound → Except Fault (Option ℤ)
  | some (.timestamp value _) => .ok (some value)
  | none => .ok none
  | _ => .error boundMismatch

def decimalBound : Option TypedBound → Except Fault (Option ℤ)
  | some (.decimal128 value _) => .ok (some value)
  | none => .ok none
  | _ => .error boundMismatch

/-! ## Kernels -/

/-- The events of a non-null cell. -/
abbrev CellKernel : Type := Value → ℕ → Except Fault (List Event)

section Kernels

variable (name : String) (rules : CompiledRules)

def scanSignedKernel : Except Fault CellKernel := do
  let minimum ← signedBound rules.min
  let maximum ← signedBound rules.max
  .ok fun
    | .scalar (.signed value), row =>
        .ok (recordRange value minimum maximum name row ++ [.insert (.i64 (Int64.ofInt value)) row])
    | _, _ => .error downcastFailed

def scanUnsignedKernel : Except Fault CellKernel := do
  let minimum ← unsignedBound rules.min
  let maximum ← unsignedBound rules.max
  .ok fun
    | .scalar (.unsigned value), row =>
        .ok (recordRange value minimum maximum name row ++ [.insert (.u64 (UInt64.ofNat value)) row])
    | _, _ => .error downcastFailed

/-- The body of both float kernels. -/
def scanFloat {eb mb : ℕ} (minimum maximum : Option (Ieee eb mb)) (value : Ieee eb mb) (row : ℕ) :
    List Event :=
  (if value.isNaN then recordNan rules name row
    else recordRange value minimum maximum name row) ++
  [.insert (.f64 (UInt64.ofNat value.toBits)) row]

def scanFloat32Kernel : Except Fault CellKernel := do
  let minimum ← float32Bound rules.min
  let maximum ← float32Bound rules.max
  .ok fun
    | .scalar (.float32 value), row => .ok (scanFloat name rules minimum maximum value row)
    | _, _ => .error downcastFailed

def scanFloat64Kernel : Except Fault CellKernel := do
  let minimum ← float64Bound rules.min
  let maximum ← float64Bound rules.max
  .ok fun
    | .scalar (.float64 value), row => .ok (scanFloat name rules minimum maximum value row)
    | _, _ => .error downcastFailed

def scanTimestampKernel : Except Fault CellKernel := do
  let minimum ← timestampBound rules.min
  let maximum ← timestampBound rules.max
  .ok fun
    | .scalar (.signed value), row =>
        .ok (recordRange value minimum maximum name row ++ [.insert (.i64 (Int64.ofInt value)) row])
    | _, _ => .error downcastFailed

def scanDecimalKernel : Except Fault CellKernel := do
  let minimum ← decimalBound rules.min
  let maximum ← decimalBound rules.max
  .ok fun
    | .scalar (.decimal value), row =>
        .ok (recordRange value minimum maximum name row ++ [.insert (.bytes (signedLe 16 value)) row])
    | _, _ => .error downcastFailed

def scanBooleanKernel : CellKernel
  | .scalar (.boolean value), row => .ok [.insert (.u64 (if value then 1 else 0)) row]
  | _, _ => .error downcastFailed

variable [Crates]

/-- `scan_strings` and `scan_string_view`. -/
def scanStrings : CellKernel
  | .scalar (.text value), row =>
      .ok ([.insert (.bytes (utf8Bytes value)) row] ++
        (if rules.pattern.any (!Crates.regexMatch · value) then
          [.record ⟨"pattern", name, some row, "Value does not match the required pattern"⟩]
          else []) ++
        (if rules.allowed.any (!·.contains value) then
          [.record ⟨"allowed", name, some row, "Value is not in the allowlist"⟩] else []) ++
        checkLength rules name row value)
  | _, _ => .error downcastFailed

omit [Crates] in
/-- `scan_binary` and `scan_binary_view`. -/
def scanBinary : CellKernel
  | .scalar (.binary value), row => .ok [.insert (.bytes value) row]
  | _, _ => .error downcastFailed

/-- `scan_fallback`: the canonical bytes, where a uniqueness rule asks for them. -/
def scanFallback (dataType : DataType) (unique : Bool) : CellKernel := fun value row =>
  if unique then do
    let encoded ← canonicalValueBytes dataType (some value)
    .ok [.insert (.bytes encoded) row]
  else .ok []

end Kernels

variable [Crates]

/-- The kernel of the plan for an array of the type. -/
def ColumnPlan.cellKernel (plan : ColumnPlan) (dataType : DataType) (unique : Bool) :
    Except Fault CellKernel :=
  let name := plan.field.name
  let rules := plan.rules
  match plan.kernel with
  | .i8 | .i16 | .i32 | .i64 | .date32 | .date64 => scanSignedKernel name rules
  | .u8 | .u16 | .u32 | .u64 => scanUnsignedKernel name rules
  | .f32 => scanFloat32Kernel name rules
  | .f64 => scanFloat64Kernel name rules
  | .timestamp _ => scanTimestampKernel name rules
  | .decimal128 _ _ => scanDecimalKernel name rules
  | .boolean => .ok scanBooleanKernel
  | .utf8 | .largeUtf8 | .utf8View => .ok (scanStrings name rules)
  | .binary | .largeBinary | .binaryView => .ok scanBinary
  | .nested | .nullOnly => .ok (scanFallback dataType unique)

/-- Whether the kernel reads the array without a downcast. -/
def KernelKind.isFallback : KernelKind → Bool
  | .nested | .nullOnly => true
  | _ => false

omit [Crates] in
theorem reads_of_not_isFallback {dataType : DataType}
    (h : (KernelKind.fromDataType dataType).isFallback = false) :
    (KernelKind.fromDataType dataType).reads dataType = true := by
  cases dataType <;> first | rfl | exact decide_eq_true rfl | cases h

/-- The kernel, once the array is known to be one it reads. -/
def ColumnPlan.prepare (plan : ColumnPlan) (array : ArrowArray) (unique : Bool) :
    Except Fault CellKernel := do
  if plan.kernel.isFallback then .ok () else downcast plan.kernel array
  plan.cellKernel array.dataType unique

/-- The events of a cell, null or not. -/
def ColumnPlan.cellEvents (plan : ColumnPlan) (kernel : CellKernel) (cell : Option Value) (row : ℕ) :
    Except Fault (List Event) :=
  match cell with
  | none => .ok (recordNull plan.rules.notNull plan.field.name row)
  | some value => kernel value row

/-- The events of an array. -/
def ColumnPlan.events (plan : ColumnPlan) (array : ArrowArray) (unique : Bool) (rowOffset : ℕ) :
    Except Fault (List Event) := do
  let kernel ← plan.prepare array unique
  collectRows (plan.cellEvents kernel) array.cells rowOffset

variable {ω : Type} [Host ω]

/-- `scan_column`. -/
def scanColumn (plan : ColumnPlan) (array : ArrowArray) (rowOffset : ℕ) (sink : Sink) :
    Run ω Fault Sink := do
  let kernel ← lift (plan.prepare array sink.exact.isSome)
  scanRows (plan.cellEvents kernel) array.cells rowOffset sink

/-- `exact_kind`: the kind of value an exact state of the kernel holds. -/
def exactKind : KernelKind → ValueKind
  | .i8 | .i16 | .i32 | .i64 | .date32 | .date64 | .timestamp _ => .i64
  | .u8 | .u16 | .u32 | .u64 | .boolean => .u64
  | .f32 | .f64 => .f64
  | .decimal128 _ _ | .utf8 | .largeUtf8 | .utf8View | .binary | .largeBinary | .binaryView
  | .nested | .nullOnly => .bytes

/-! ## The kinds of value the kernels collect -/

section Kinds

variable {kind : ValueKind} {name : String} {rules : CompiledRules} {row : ℕ}

/-- Only values of the kind are among the events of a cell. -/
def CellKernel.Of (kind : ValueKind) (kernel : CellKernel) : Prop :=
  ∀ value row performed, kernel value row = .ok performed → ∀ event ∈ performed, event.Of kind

omit [Crates] [Host ω] in
theorem of_append {events events' : List Event} (h : ∀ event ∈ events, event.Of kind)
    (h' : ∀ event ∈ events', event.Of kind) : ∀ event ∈ events ++ events', event.Of kind := by
  intro event hevent
  exact (List.mem_append.mp hevent).elim (h event) (h' event)

omit [Crates] [Host ω] in
theorem of_insert {value : OwnedValue} (h : value.kind = kind) :
    ∀ event ∈ [Event.insert value row], event.Of kind := by
  intro event hevent
  obtain rfl := List.mem_singleton.mp hevent
  exact h

omit [Crates] [Host ω] in
theorem of_record_if {condition : Prop} [Decidable condition] {finding : Finding} :
    ∀ event ∈ (if condition then [Event.record finding] else []), event.Of kind := by
  intro event hevent
  split at hevent
  · obtain rfl := List.mem_singleton.mp hevent
    trivial
  · cases hevent

omit [Crates] [Host ω] in
theorem of_recordRange {α : Type} [PartialOrd α] {value : α} {minimum maximum : Option α} :
    ∀ event ∈ recordRange value minimum maximum name row, event.Of kind :=
  of_append of_record_if of_record_if

omit [Crates] [Host ω] in
/-- A kernel that reads its bounds first. -/
theorem of_bounded {α : Type} {bound : Option TypedBound → Except Fault (Option α)}
    {body : Option α → Option α → CellKernel} {kernel : CellKernel}
    (hbody : ∀ minimum maximum, (body minimum maximum).Of kind)
    (h : (do
      let minimum ← bound rules.min
      let maximum ← bound rules.max
      .ok (body minimum maximum)) = .ok kernel) : kernel.Of kind := by
  obtain ⟨minimum, -, h⟩ := bind_eq_ok.mp h
  obtain ⟨maximum, -, h⟩ := bind_eq_ok.mp h
  cases h
  exact hbody minimum maximum

omit [Crates] [Host ω] in
theorem of_scanSignedKernel {kernel : CellKernel} (h : scanSignedKernel name rules = .ok kernel) :
    kernel.Of .i64 := by
  refine of_bounded (fun minimum maximum value row performed hperformed => ?_) h
  split at hperformed
  · cases hperformed
    exact of_append of_recordRange (of_insert rfl)
  · cases hperformed

omit [Crates] [Host ω] in
theorem of_scanUnsignedKernel {kernel : CellKernel}
    (h : scanUnsignedKernel name rules = .ok kernel) : kernel.Of .u64 := by
  refine of_bounded (fun minimum maximum value row performed hperformed => ?_) h
  split at hperformed
  · cases hperformed
    exact of_append of_recordRange (of_insert rfl)
  · cases hperformed

omit [Crates] [Host ω] in
theorem of_scanFloat {eb mb : ℕ} {minimum maximum : Option (Ieee eb mb)} {value : Ieee eb mb} :
    ∀ event ∈ scanFloat name rules minimum maximum value row, event.Of .f64 := by
  unfold scanFloat
  refine of_append ?_ (of_insert rfl)
  split
  · exact of_record_if
  · exact of_recordRange

omit [Crates] [Host ω] in
theorem of_scanFloat32Kernel {kernel : CellKernel}
    (h : scanFloat32Kernel name rules = .ok kernel) : kernel.Of .f64 := by
  refine of_bounded (fun minimum maximum value row performed hperformed => ?_) h
  split at hperformed
  · cases hperformed
    exact of_scanFloat
  · cases hperformed

omit [Crates] [Host ω] in
theorem of_scanFloat64Kernel {kernel : CellKernel}
    (h : scanFloat64Kernel name rules = .ok kernel) : kernel.Of .f64 := by
  refine of_bounded (fun minimum maximum value row performed hperformed => ?_) h
  split at hperformed
  · cases hperformed
    exact of_scanFloat
  · cases hperformed

omit [Crates] [Host ω] in
theorem of_scanTimestampKernel {kernel : CellKernel}
    (h : scanTimestampKernel name rules = .ok kernel) : kernel.Of .i64 := by
  refine of_bounded (fun minimum maximum value row performed hperformed => ?_) h
  split at hperformed
  · cases hperformed
    exact of_append of_recordRange (of_insert rfl)
  · cases hperformed

omit [Crates] [Host ω] in
theorem of_scanDecimalKernel {kernel : CellKernel}
    (h : scanDecimalKernel name rules = .ok kernel) : kernel.Of .bytes := by
  refine of_bounded (fun minimum maximum value row performed hperformed => ?_) h
  split at hperformed
  · cases hperformed
    exact of_append of_recordRange (of_insert rfl)
  · cases hperformed

omit [Crates] [Host ω] in
theorem of_scanBooleanKernel : CellKernel.Of .u64 scanBooleanKernel := by
  intro value row performed hperformed
  unfold scanBooleanKernel at hperformed
  split at hperformed
  · cases hperformed
    exact of_insert rfl
  · cases hperformed

omit [Host ω] in
theorem of_scanStrings : CellKernel.Of .bytes (scanStrings name rules) := by
  intro value row performed hperformed
  unfold scanStrings at hperformed
  split at hperformed
  · cases hperformed
    exact of_append (of_append (of_append (of_insert rfl) of_record_if) of_record_if)
      (of_append of_record_if of_record_if)
  · cases hperformed

omit [Crates] [Host ω] in
theorem of_scanBinary : CellKernel.Of .bytes scanBinary := by
  intro value row performed hperformed
  unfold scanBinary at hperformed
  split at hperformed
  · cases hperformed
    exact of_insert rfl
  · cases hperformed

omit [Host ω] in
theorem of_scanFallback {dataType : DataType} {unique : Bool} :
    CellKernel.Of .bytes (scanFallback dataType unique) := by
  intro value row performed hperformed
  unfold scanFallback at hperformed
  split at hperformed
  · obtain ⟨encoded, -, hperformed⟩ := bind_eq_ok.mp hperformed
    cases hperformed
    exact of_insert rfl
  · cases hperformed
    rintro _ ⟨⟩

omit [Host ω] in
theorem cellKernel_of_prepare {plan : ColumnPlan} {array : ArrowArray} {unique : Bool}
    {kernel : CellKernel} (h : plan.prepare array unique = .ok kernel) :
    plan.cellKernel array.dataType unique = .ok kernel := by
  unfold ColumnPlan.prepare at h
  split at h
  · exact h
  · obtain ⟨_, -, h⟩ := bind_eq_ok.mp h
    exact h

omit [Host ω] in
/-- A column collects the kind of value its kernel stands for. -/
theorem ColumnPlan.of_prepare {plan : ColumnPlan} {array : ArrowArray} {unique : Bool}
    {kernel : CellKernel} (h : plan.prepare array unique = .ok kernel) :
    kernel.Of (exactKind plan.kernel) := by
  have h := cellKernel_of_prepare h
  unfold ColumnPlan.cellKernel at h
  dsimp only at h
  cases hkernel : plan.kernel <;> rw [hkernel] at h
  case i8 | i16 | i32 | i64 | date32 | date64 => exact of_scanSignedKernel h
  case u8 | u16 | u32 | u64 => exact of_scanUnsignedKernel h
  case f32 => exact of_scanFloat32Kernel h
  case f64 => exact of_scanFloat64Kernel h
  case timestamp => exact of_scanTimestampKernel h
  case decimal128 => exact of_scanDecimalKernel h
  all_goals cases h
  case boolean => exact of_scanBooleanKernel
  case utf8 | largeUtf8 | utf8View => exact of_scanStrings
  case binary | largeBinary | binaryView => exact of_scanBinary
  case nested | nullOnly => exact of_scanFallback

omit [Host ω] in
theorem ColumnPlan.eventsOf_cellEvents {plan : ColumnPlan} {array : ArrowArray} {unique : Bool}
    {kernel : CellKernel} (h : plan.prepare array unique = .ok kernel) :
    EventsOf (exactKind plan.kernel) (plan.cellEvents kernel) array.cells := by
  intro cell _ row performed hperformed
  cases cell with
  | none =>
      cases hperformed
      exact of_record_if
  | some value => exact ColumnPlan.of_prepare h value row performed hperformed

end Kinds

theorem refines_scanColumn (keep : Keeping ω) {plan : ColumnPlan} {array : ArrowArray}
    {rowOffset limit : ℕ} {evaluated : List ℕ} {findings : List Finding} {records : List Record}
    {sink : Sink}
    (h : sink.Received (keep.Holds (exactKind plan.kernel)) limit evaluated findings records) :
    Refines keep.Env (scanColumn plan array rowOffset sink : Run ω Fault _)
      (plan.events array sink.exact.isSome rowOffset)
      (fun events next => next.Received (keep.Holds (exactKind plan.kernel)) limit evaluated
        (findings ++ findingsOf events) (records ++ recordsOf events) ∧
        next.exact.isSome = sink.exact.isSome) := by
  apply (refines_lift (S := Eq) fun _ _ => rfl).bind
  rintro kernel _ hkernel rfl
  exact h.refines_scanRows keep fun _ => ColumnPlan.eventsOf_cellEvents hkernel

end ProofFrame
