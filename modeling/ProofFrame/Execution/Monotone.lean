import ProofFrame.Contract.CompileDataset
import ProofFrame.Execution.ColumnRuns
import ProofFrame.Lib.Adjacent

/-!
# What an ordering rule counts

An ordering rule compares each value of its column with the last one that was not
null.  The comparison is a total order on the values of each type, so that no
neighbours are out of order exactly when no two values are.
-/

namespace ProofFrame

open Lib Lib.Run Lib.Ieee754

/-! ## The order of the values -/

/-- The kinds of values that have an order. -/
inductive OrderedKind where
  | int | uint | float | text
  deriving DecidableEq, Repr

namespace Ordered

def kind : Ordered → OrderedKind
  | .int _ => .int
  | .uint _ => .uint
  | .float _ => .float
  | .text _ => .text

/-- Numbers by their value, floats by the total order of their words, texts by their bytes. -/
def Lt : Ordered → Ordered → Prop
  | .int left, .int right => left < right
  | .uint left, .uint right => left < right
  | .float left, .float right => left.totalKey < right.totalKey
  | .text left, .text right => List.Lex (· < ·) left right
  | _, _ => False

def Le (left right : Ordered) : Prop := left.kind = right.kind ∧ ¬right.Lt left

theorem Lt.trans {a b c : Ordered} (h : a.Lt b) (h' : b.Lt c) : a.Lt c := by
  cases a <;> cases b <;> first | exact absurd h id | skip
  all_goals cases c <;> first | exact absurd h' id | skip
  · exact lt_trans h h'
  · exact lt_trans h h'
  · exact lt_trans h h'
  · exact List.lt_trans h h'

theorem Le.trans {a b c : Ordered} (h : a.Le b) (h' : b.Le c) : a.Le c := by
  refine ⟨h.1.trans h'.1, ?_⟩
  obtain ⟨hkind, hle⟩ := h
  obtain ⟨hkind', hle'⟩ := h'
  cases a <;> cases b <;> cases hkind
  all_goals cases c <;> cases hkind'
  · exact not_lt.mpr (le_trans (not_lt.mp hle) (not_lt.mp hle'))
  · exact not_lt.mpr (le_trans (not_lt.mp hle) (not_lt.mp hle'))
  · exact not_lt.mpr (le_trans (not_lt.mp hle) (not_lt.mp hle'))
  · exact List.le_trans hle hle'

/-- Values of one kind are compared by their order. -/
theorem compare_eq {a b : Ordered} (h : a.kind = b.kind) : ∃ ordering, a.compare b = some ordering ∧
    (ordering = .lt ↔ a.Lt b) ∧ (ordering = .gt ↔ b.Lt a) := by
  cases a <;> cases b <;> cases h
  · exact ⟨_, rfl, compare_lt_iff_lt, compare_gt_iff_gt⟩
  · exact ⟨_, rfl, compare_lt_iff_lt, compare_gt_iff_gt⟩
  · exact ⟨_, rfl, compare_lt_iff_lt, compare_gt_iff_gt⟩
  · rename_i left right
    refine ⟨_, rfl, ?_, ?_⟩
    · rw [compareOfLessAndEq_eq_lt]
      exact List.lex_lt.symm
    · rw [@compareOfLessAndEq_eq_gt _ _ List.instLE _ _ List.le_antisymm List.le_total List.not_le]
      exact List.lex_lt.symm

end Ordered

/-- The order a direction requires between a value and the one before it. -/
def MonotonicDirectionAst.Allows (direction : MonotonicDirectionAst) (previous next : Ordered) :
    Prop :=
  match direction with
  | .increasing => previous.Le next
  | .strictlyIncreasing => previous.Lt next
  | .decreasing => next.Le previous
  | .strictlyDecreasing => next.Lt previous

theorem MonotonicDirectionAst.Allows.trans {direction : MonotonicDirectionAst} {a b c : Ordered}
    (h : direction.Allows a b) (h' : direction.Allows b c) : direction.Allows a c := by
  cases direction with
  | increasing => exact Ordered.Le.trans h h'
  | strictlyIncreasing => exact Ordered.Lt.trans h h'
  | decreasing => exact Ordered.Le.trans h' h
  | strictlyDecreasing => exact Ordered.Lt.trans h' h

/-- The values of one kind. -/
abbrev OrderedKind.Values (kind : OrderedKind) : Type := { value : Ordered // value.kind = kind }

/-- A scalar that is read as the value. -/
def OrderedKind.reads (kind : OrderedKind) (scalar : Scalar) (value : kind.Values) : Prop :=
  scalar.ordered = some value.val

/-- The kind the values of a type have, where they have an order. -/
def DataType.orderedKind : DataType → Option OrderedKind
  | .int8 | .int16 | .int32 | .int64 | .date32 | .date64 | .timestamp _ _ | .decimal128 _ _ =>
      some .int
  | .boolean | .uint8 | .uint16 | .uint32 | .uint64 => some .uint
  | .float32 | .float64 => some .float
  | .utf8 | .largeUtf8 | .utf8View => some .text
  | _ => none

/-- Whether the direction lets a value follow another one. -/
def MonotonicDirectionAst.inOrder (direction : MonotonicDirectionAst) (previous next : Ordered) :
    Bool :=
  (follows direction previous next).toOption.getD false

theorem follows_eq {direction : MonotonicDirectionAst} {previous next : Ordered}
    (h : previous.kind = next.kind) :
    follows direction previous next = .ok (direction.inOrder previous next) ∧
      (direction.inOrder previous next = true ↔ direction.Allows previous next) := by
  obtain ⟨ordering, hcompare, hlt, hgt⟩ := Ordered.compare_eq h
  unfold MonotonicDirectionAst.inOrder follows MonotonicDirectionAst.Allows Ordered.Le
  rw [hcompare, ← hlt, ← hgt]
  refine ⟨rfl, ?_⟩
  cases direction <;> cases ordering <;> simp [h, Except.toOption]

/-- The kernel of a type with an order reads its values as values of its kind. -/
theorem orderedKind_spec {dataType : DataType} {kind : OrderedKind}
    (h : dataType.orderedKind = some kind) :
    (KernelKind.fromDataType dataType).isOrdered = true ∧
      (KernelKind.fromDataType dataType).reads dataType = true ∧
      ∀ value, dataType.Admits value → ∃ read : kind.Values,
        CellReads kind.reads (some value) (some read) := by
  unfold DataType.orderedKind at h
  split at h <;> cases h
  all_goals refine ⟨rfl, by first | rfl | exact decide_eq_true rfl, ?_⟩
  all_goals
    intro value hvalue
    cases value with
    | scalar scalar =>
        cases scalar <;> first | exact absurd hvalue id | exact ⟨⟨_, rfl⟩, rfl⟩
    | sequence | record => exact absurd hvalue id
    | raw bytes => exact absurd hvalue (by simp [DataType.Admits, DataType.isScalar])

/-! ## What a rule records -/

def MonotonicityPlan.nullMessage (plan : MonotonicityPlan) : String :=
  s!"Rule `{plan.name}` rejects null values"

def MonotonicityPlan.orderMessage (plan : MonotonicityPlan) : String :=
  s!"Rule `{plan.name}` " ++ plan.direction.describe ++ " but this row is out of order"

/-- The two messages part behind the name of the rule. -/
theorem MonotonicityPlan.nullMessage_ne (plan : MonotonicityPlan) :
    plan.nullMessage ≠ plan.orderMessage := by
  intro h
  have hchars := congrArg String.toList h
  unfold nullMessage orderMessage at hchars
  simp only [String.toList_append, List.append_assoc, List.append_cancel_left_eq] at hchars
  cases hdirection : plan.direction <;> rw [hdirection] at hchars <;>
    exact absurd hchars (by decide +kernel)

def MonotonicityPlan.violation (plan : MonotonicityPlan) (message : String) (row : ℕ) : Finding :=
  ⟨"monotonicity", plan.column, some row, message⟩

section Values

variable {kind : OrderedKind}

instance (direction : MonotonicDirectionAst) (previous next : kind.Values) :
    Decidable (direction.Allows previous.val next.val) :=
  decidable_of_iff _ (follows_eq (previous.property.trans next.property.symm)).2

theorem follows_values (direction : MonotonicDirectionAst) (previous next : kind.Values) :
    follows direction previous.val next.val =
      .ok (decide (direction.Allows previous.val next.val)) := by
  obtain ⟨hfollows, hallows⟩ := @follows_eq direction _ _
    (previous.property.trans next.property.symm)
  rw [hfollows]
  congr 1
  rw [Bool.eq_iff_iff, hallows, decide_eq_true_eq]

/-- The neighbours of the values that are not null that break the order. -/
def inversions (direction : MonotonicDirectionAst) (values : List (Option kind.Values)) : ℕ :=
  (adjacent values.reduceOption).countP fun pair => ¬direction.Allows pair.1.val pair.2.val

/-- What a rule records of a value behind those it has seen. -/
def MonotonicityPlan.record (plan : MonotonicityPlan) (seen : List (Option kind.Values)) :
    Option kind.Values → List Finding
  | none => if plan.nulls = .reject then [plan.violation plan.nullMessage seen.length] else []
  | some next =>
      if seen.reduceOption.getLast?.all fun last => plan.direction.Allows last.val next.val then []
      else [plan.violation plan.orderMessage seen.length]

namespace OrderingState

/-- The state of a rule before the first batch. -/
def fresh (plan : MonotonicityPlan) : OrderingState := { plan, previous := none }

/-- The state of a rule that has seen the values. -/
def after (plan : MonotonicityPlan) (values : List (Option kind.Values)) : OrderingState where
  plan := plan
  previous := values.reduceOption.getLast?.map fun value => value.val

/-- One cell takes the state of the values before it to the state with its own value. -/
theorem observeCell_after [Crates] {plan : MonotonicityPlan}
    (hordered : plan.kernel.isOrdered = true) {array : ArrowArray}
    (hreads : plan.kernel.reads array.dataType = true) (seen : List (Option kind.Values))
    {cell : Option Value} {value : Option kind.Values} (hcell : CellReads kind.reads cell value) :
    (after plan seen).observeCell array cell seen.length =
      .ok (after plan (seen ++ [value]), plan.record seen value) := by
  match cell, value, hcell with
  | none, none, _ =>
      have hseen : (seen ++ [none]).reduceOption = seen.reduceOption := by
        rw [List.reduceOption_append]
        exact List.append_nil _
      unfold observeCell after MonotonicityPlan.record
      rw [hseen]
      rfl
  | some (.scalar scalar), some value, hcell =>
      have hread : orderedValue plan.kernel array (.scalar scalar) = .ok value.val := by
        have hdowncast : datasetDowncast plan.kernel array = .ok () := if_pos hreads
        simp only [orderedValue, hordered, hdowncast, show scalar.ordered = _ from hcell]
        rfl
      have hseen : (seen ++ [some value]).reduceOption = seen.reduceOption ++ [value] := by
        rw [List.reduceOption_append]
        rfl
      unfold observeCell after MonotonicityPlan.record
      dsimp only
      rw [hread, hseen, List.getLast?_append]
      cases seen.reduceOption.getLast? with
      | none => rfl
      | some last =>
          simp only [Option.map_some, ok_bind, follows_values]
          rfl

/-- The rule goes through batches. -/
def observeBatches [Crates] : List RecordBatch → ℕ → OrderingState →
    Except Fault (OrderingState × List Finding) :=
  observeAll observe

end OrderingState

/-- A new last value breaks the order with the one before it, or with none. -/
theorem countP_order_record (plan : MonotonicityPlan) (seen : List (Option kind.Values))
    (value : Option kind.Values) :
    inversions plan.direction (seen ++ [value]) = inversions plan.direction seen +
      (plan.record seen value).countP (·.message = plan.orderMessage) := by
  unfold inversions
  rw [List.reduceOption_append]
  cases value with
  | none =>
      have hnull : (plan.record seen none).countP (·.message = plan.orderMessage) = 0 := by
        unfold MonotonicityPlan.record
        dsimp only
        split
        · simp [MonotonicityPlan.violation, plan.nullMessage_ne]
        · rfl
      rw [hnull, Nat.add_zero]
      exact congrArg _ (congrArg adjacent (List.append_nil _))
  | some next =>
      have hsingle : List.reduceOption [some next] = [next] := rfl
      rw [hsingle, adjacent_append_singleton, List.countP_append]
      unfold MonotonicityPlan.record
      cases seen.reduceOption.getLast? with
      | none => rfl
      | some last =>
          by_cases horder : plan.direction.Allows last.val next.val <;>
            simp [horder, MonotonicityPlan.violation]

theorem countP_null_record (plan : MonotonicityPlan) (seen : List (Option kind.Values))
    (value : Option kind.Values) :
    (plan.record seen value).countP (·.message = plan.nullMessage) =
      if plan.nulls = .reject ∧ value = none then 1 else 0 := by
  unfold MonotonicityPlan.record
  cases value with
  | none =>
      by_cases hnulls : plan.nulls = .reject <;> simp [hnulls, MonotonicityPlan.violation]
  | some next =>
      dsimp only
      split
      · simp
      · simp [MonotonicityPlan.violation, plan.nullMessage_ne.symm]

/-- All that a rule records is one of its two messages. -/
theorem message_of_mem_recorded {plan : MonotonicityPlan} {seen values : List (Option kind.Values)}
    {finding : Finding} (h : finding ∈ recorded plan.record seen values) :
    finding.message = plan.nullMessage ∨ finding.message = plan.orderMessage := by
  induction values generalizing seen with
  | nil => cases h
  | cons value values ih =>
      rcases List.mem_append.mp h with hfirst | hrest
      · unfold MonotonicityPlan.record at hfirst
        cases value with
        | none =>
            dsimp only at hfirst
            split at hfirst
            · exact .inl (congrArg Finding.message (List.mem_singleton.mp hfirst))
            · cases hfirst
        | some next =>
            dsimp only at hfirst
            split at hfirst
            · cases hfirst
            · exact .inr (congrArg Finding.message (List.mem_singleton.mp hfirst))
      · exact ih hrest

/-- The order violations of the values count their inversions. -/
theorem countP_order_recorded (plan : MonotonicityPlan) (seen values : List (Option kind.Values)) :
    inversions plan.direction (seen ++ values) = inversions plan.direction seen +
      (recorded plan.record seen values).countP (·.message = plan.orderMessage) := by
  induction values generalizing seen with
  | nil => rw [List.append_nil]; rfl
  | cons value values ih =>
      rw [recorded, List.countP_append, ← Nat.add_assoc, ← countP_order_record, ← ih,
        List.append_assoc]
      rfl

theorem countP_null_recorded (plan : MonotonicityPlan) (seen values : List (Option kind.Values)) :
    (recorded plan.record seen values).countP (·.message = plan.nullMessage) =
      if plan.nulls = .reject then values.countP Option.isNone else 0 := by
  induction values generalizing seen with
  | nil => simp [recorded]
  | cons value values ih =>
      rw [recorded, List.countP_append, ih, countP_null_record]
      cases value <;> by_cases hnulls : plan.nulls = .reject <;> simp [hnulls, Nat.add_comm]

/-- Without inversions the values are in order pairwise. -/
theorem inversions_eq_zero {direction : MonotonicDirectionAst} {values : List (Option kind.Values)} :
    inversions direction values = 0 ↔ values.reduceOption.Pairwise fun previous next =>
      direction.Allows previous.val next.val := by
  have htrans : ∀ a b c : kind.Values, direction.Allows a.val b.val →
      direction.Allows b.val c.val → direction.Allows a.val c.val :=
    fun _ _ _ h h' => h.trans h'
  rw [← forall_mem_adjacent_iff_pairwise htrans, inversions, List.countP_eq_zero]
  simp

end Values

/-! ## Counting -/

/-- **An ordering rule counts inversions.**  Whatever the batches, it records one order violation
for each neighbours of the values that are not null and out of order, none exactly when all the
values are in order pairwise, and one violation for each null if it rejects nulls. -/
theorem monotonicity_counts_inversions [Crates] {schema : Schema} {entry : MonotonicityAst × ℕ}
    {plan : MonotonicityPlan} (hcompile : compileMonotonicity schema entry = .ok plan)
    {field : Field} (hfield : schema.fields[plan.columnIndex]? = some field) {kind : OrderedKind}
    (hkind : field.dataType.orderedKind = some kind) {batches : List RecordBatch}
    (hbatches : ∀ batch ∈ batches, batch.schema = schema) :
    ∃ (values : List (Option kind.Values)) (state : OrderingState) (found : List Finding),
      Carries kind.reads plan.columnIndex field.dataType batches values ∧
      OrderingState.observeBatches batches 0 (.fresh plan) = .ok (state, found) ∧
      (∀ finding ∈ found, finding.message = plan.nullMessage ∨
        finding.message = plan.orderMessage) ∧
      found.countP (·.message = plan.orderMessage) = inversions plan.direction values ∧
      (found.countP (·.message = plan.orderMessage) = 0 ↔
        values.reduceOption.Pairwise fun previous next =>
          plan.direction.Allows previous.val next.val) ∧
      found.countP (·.message = plan.nullMessage) =
        if plan.nulls = .reject then values.countP Option.isNone else 0 := by
  have hkernel : plan.kernel = .fromDataType field.dataType := by
    obtain ⟨⟨index, found⟩, hcolumn, h⟩ := bind_eq_ok.mp hcompile
    cases h
    have hfound := field_of_requireColumn hcolumn
    rw [hfield] at hfound
    rw [Option.some.inj hfound]
    rfl
  obtain ⟨hordered, hreads, hadmits⟩ := orderedKind_spec hkind
  rw [← hkernel] at hordered hreads
  have hreadable : ∀ value, field.dataType.Admits value → ∃ read : kind.Values,
      CellReads kind.reads (some value) (some read) ∧ True :=
    fun value hvalue => (hadmits value hvalue).imp fun read hread => ⟨hread, trivial⟩
  obtain ⟨values, hcarries, -⟩ := @exists_carries _ _ _ schema field hfield _ hreadable _ hbatches
  have hrun := @observeAll_after _ _ kind.reads _ _ OrderingState.observe
    (fun array state => state.observeCell array) plan.columnIndex _ (fun seen batch rowOffset => rfl)
    (fun array seen cell value hdataType hcell =>
      OrderingState.observeCell_after hordered (by rw [hdataType]; exact hreads) seen hcell)
    _ _ hcarries []
  have hcount := countP_order_recorded plan [] values
  have hnone : inversions plan.direction ([] : List (Option kind.Values)) = 0 := rfl
  rw [List.nil_append, hnone, Nat.zero_add] at hcount
  refine ⟨values, _, _, hcarries, hrun, fun finding => message_of_mem_recorded, hcount.symm, ?_,
    countP_null_recorded plan [] values⟩
  rw [← hcount]
  exact inversions_eq_zero

/-- A rule that no value may be less than the one before it, and none may be null. -/
def neverDecreasing : MonotonicityAst :=
  { name := "rising", column := "value", direction := .increasing, nulls := .reject }

/-- Three, nothing, two. -/
theorem monotonicity_counts_inversions_three : let _ : Crates := Crates.zeroDigests
    let batch := RecordBatch.ofColumn (.ofInt64 "value" [some 3, none, some 2])
    ∃ (values : List (Option OrderedKind.int.Values)) (state : OrderingState) (found : List Finding),
      Carries OrderedKind.int.reads 0 .int64 [batch] values ∧
      (∃ plan, compileMonotonicity batch.schema (neverDecreasing, 0) = .ok plan ∧
        OrderingState.observeBatches [batch] 0 (.fresh plan) = .ok (state, found) ∧
        found.countP (·.message = plan.orderMessage) = inversions plan.direction values) := by
  intro _ batch
  obtain ⟨values, state, found, hcarries, hrun, -, hcount, -⟩ :=
    @monotonicity_counts_inversions _ batch.schema (neverDecreasing, 0) _ rfl _ rfl .int rfl [batch]
      (by simp)
  exact ⟨values, state, found, hcarries, _, rfl, hrun, hcount⟩

end ProofFrame
