import ProofFrame.Execution.Balances
import ProofFrame.Execution.FloatSteps

/-!
# Rules over statistics that are no numbers

Every comparison with NaN is false, so a rule whose statistic is NaN finds nothing
to report.  A rule is therefore silent only on statistics within its bounds exactly
where the values of its column keep their sum or their mean among the doubles.
-/

namespace ProofFrame

open Lib Lib.Run Lib.Ieee754

/-! ## Bounds -/

/-- A number within its bounds. -/
structure WithinBounds (value : F64) (min max : Option F64) : Prop where
  not_nan : value.isNaN = false
  min : ∀ bound ∈ min, bound.le value = true
  max : ∀ bound ∈ max, value.le bound = true

theorem lt_eq_false_iff {x y : F64} (hx : x.isNaN = false) (hy : y.isNaN = false) :
    x.lt y = false ↔ y.le x = true := by
  rw [Ieee.lt, Ieee.le, Ieee.lt, Ieee.partialCmp_of_not_nan hx hy, Ieee.partialCmp_of_not_nan hy hx]
  rcases lt_trichotomy x.key y.key with h | h | h
  · simp [compare_lt_iff_lt.mpr h, compare_gt_iff_gt.mpr h]
  · simp [h]
  · simp [compare_lt_iff_lt.mpr h, compare_gt_iff_gt.mpr h]

theorem gt_eq_false_iff {x y : F64} (hx : x.isNaN = false) (hy : y.isNaN = false) :
    x.gt y = false ↔ x.le y = true := by
  rw [Ieee.gt, Ieee.le, Ieee.lt, Ieee.partialCmp_of_not_nan hx hy]
  rcases lt_trichotomy x.key y.key with h | h | h
  · simp [compare_lt_iff_lt.mpr h]
  · simp [h]
  · simp [compare_gt_iff_gt.mpr h]

theorem floatOutside_eq_none {value : F64} {min max : Option F64} :
    floatOutside value min max = none ↔
      (∀ bound ∈ min, value.lt bound = false) ∧ ∀ bound ∈ max, value.gt bound = false := by
  unfold floatOutside
  cases min with
  | none => cases max with
    | none => simp
    | some max => cases hmax : value.gt max <;> simp [Option.filter, hmax]
  | some min =>
      cases hmin : value.lt min with
      | true => simp [Option.filter, hmin]
      | false =>
          cases max with
          | none => simp [Option.filter, hmin]
          | some max => cases hmax : value.gt max <;> simp [Option.filter, hmin, hmax]

/-- A float is outside no bound because it lies within them, or because it is NaN. -/
theorem floatOutside_iff {value : F64} {min max : Option F64}
    (hmin : ∀ bound ∈ min, bound.isFinite = true) (hmax : ∀ bound ∈ max, bound.isFinite = true) :
    (floatOutside value min max = none → WithinBounds value min max) ↔ value.isNaN = false := by
  rw [floatOutside_eq_none]
  constructor
  · intro h
    by_contra hnan
    rw [Bool.not_eq_false] at hnan
    have hwithin := h ⟨fun bound _ => by simp [Ieee.lt, Ieee.partialCmp, hnan],
      fun bound _ => by simp [Ieee.gt, Ieee.partialCmp, hnan]⟩
    rw [hwithin.not_nan] at hnan
    cases hnan
  · rintro hnan ⟨hlow, hhigh⟩
    exact ⟨hnan,
      fun bound hbound => (lt_eq_false_iff hnan (Ieee.isNaN_of_isFinite (hmin bound hbound))).mp
        (hlow bound hbound),
      fun bound hbound => (gt_eq_false_iff hnan (Ieee.isNaN_of_isFinite (hmax bound hbound))).mp
        (hhigh bound hbound)⟩

/-! ## Sums -/

/-- A silent rule has a total within its bounds. -/
def SumState.Sound (state : SumState) : Prop :=
  state.finish = [] → match state.total, state.plan.bounds with
    | .integer total, .integer min max =>
        (∀ bound ∈ min, bound ≤ total) ∧ ∀ bound ∈ max, total ≤ bound
    | .float total, .float min max => WithinBounds total.value min max
    | _, _ => False

theorem SumState.finish_eq_nil {state : SumState} :
    state.finish = [] ↔ state.total.outside state.plan.bounds = none := by
  rw [finish]
  split <;> simp [*]

theorem integerOutside_eq_none {value : ℤ} {min max : Option ℤ}
    (h : integerOutside value min max = none) :
    (∀ bound ∈ min, bound ≤ value) ∧ ∀ bound ∈ max, value ≤ bound := by
  unfold integerOutside at h
  cases min with
  | none => cases max with
    | none => simp
    | some max =>
        by_cases hmax : max < value
        · simp [Option.filter, hmax] at h
        · simpa using not_lt.mp hmax
  | some min =>
      by_cases hmin : value < min
      · simp [Option.filter, hmin] at h
      · cases max with
        | none => simpa using not_lt.mp hmin
        | some max =>
            by_cases hmax : max < value
            · simp [Option.filter, hmin, hmax] at h
            · exact ⟨by simpa using not_lt.mp hmin, by simpa using not_lt.mp hmax⟩

section Runs

variable [Crates] {schema : Schema} {batches : List RecordBatch}
  (hbatches : ∀ batch ∈ batches, batch.schema = schema)

include hbatches

/-- A total over floats is a number exactly where the values add up among the doubles; one over
integers is exact. -/
theorem SumState.sound_iff {plan : SumPlan} (hcompiled : plan.CompiledFor schema)
    {state : SumState} (hrun : SumState.observeBatches batches (.new plan) = .ok state) :
    state.Sound ↔ (plan.kernel.isFloat = true →
      (CompensatedSum.of (numbersOf plan.columnIndex batches)).isSome = true) := by
  obtain ⟨field, hfield, hkernel⟩ := hcompiled.column
  have hnumeric := hcompiled.numeric
  cases hinteger : plan.kernel.isInteger with
  | true =>
      obtain ⟨min, max, hbounds⟩ := hcompiled.integer hinteger
      have hfloat : ¬plan.kernel.isFloat = true := by
        generalize plan.kernel = kernel at hinteger
        cases kernel <;> first | decide | cases hinteger
      refine iff_of_true (fun hsilent => ?_) fun h => absurd h hfloat
      rw [SumState.new, hbounds] at hrun
      obtain ⟨total, rfl⟩ := SumState.exists_integer_total hinteger hrun
      rw [SumState.finish_eq_nil, hbounds] at hsilent
      rw [hbounds]
      exact integerOutside_eq_none hsilent
  | false =>
      obtain ⟨min, max, hbounds, hmin, hmax⟩ := hcompiled.float hinteger
      have hfloat : plan.kernel.isFloat = true := by
        rw [KernelKind.isNumeric, hinteger, Bool.false_or] at hnumeric
        exact hnumeric
      have hnew : SumState.new plan = { plan, total := .float .new } := by
        rw [SumState.new, hbounds]
      rw [hnew, SumState.observeBatches_float hnumeric
        (hkernel ▸ reads_of_isNumeric (hkernel ▸ hnumeric))
        (carries_numbers hfield (hkernel ▸ hnumeric) hbatches)] at hrun
      cases hrun
      rw [Sound, finish_eq_nil, hbounds]
      refine (floatOutside_iff hmin hmax).trans ?_
      rw [Neumaier.isNaN_value_iff, ← Neumaier.isSome_of_iff]
      exact ⟨fun h _ => h, fun h => h hfloat⟩

end Runs

/-! ## Means and deviations -/

namespace StatisticState

/-- A silent rule has a statistic within its bounds. -/
def Sound (state : StatisticState) : Prop :=
  state.finish = [] → ∃ observed, state.moments.statistic state.plan.kind = some observed ∧
    WithinBounds observed state.plan.min state.plan.max

theorem finish_eq_nil {state : StatisticState} : state.finish = [] ↔
    ∃ observed, state.moments.statistic state.plan.kind = some observed ∧
      floatOutside observed state.plan.min state.plan.max = none := by
  rw [finish]
  split
  · simp [*]
  · rename_i observed hobserved
    rw [hobserved]
    split <;> simp [*]

theorem sound_iff {state : StatisticState}
    (hmin : ∀ bound ∈ state.plan.min, bound.isFinite = true)
    (hmax : ∀ bound ∈ state.plan.max, bound.isFinite = true) :
    state.Sound ↔ ∀ observed, state.moments.statistic state.plan.kind = some observed →
      observed.isNaN = false := by
  rw [Sound, finish_eq_nil]
  constructor
  · intro h observed hobserved
    refine (floatOutside_iff hmin hmax).mp fun hinside => ?_
    obtain ⟨other, hother, hwithin⟩ := h ⟨observed, hobserved, hinside⟩
    rw [hobserved] at hother
    exact Option.some.inj hother ▸ hwithin
  · rintro h ⟨observed, hobserved, hinside⟩
    exact ⟨observed, hobserved, (floatOutside_iff hmin hmax).mpr (h observed hobserved) hinside⟩

end StatisticState

/-- Where a statistic of the values is a number. -/
def StatisticKind.Defined (values : List F64) : StatisticKind → Prop
  | .mean => ∀ earlier last, values = earlier ++ [last] →
      (RunningMean.of earlier).isSome = true ∧ last.isNaN = false
  | .stdDev => (RunningMean.of values).isSome = true

theorem StatisticKind.defined_iff {values : List F64} (hrows : values.length < 2 ^ 64)
    (kind : StatisticKind) : kind.Defined values ↔
      ∀ observed, (Moments.observed values).statistic kind = some observed →
        observed.isNaN = false := by
  cases kind with
  | mean =>
      show (∀ earlier last, _ → _) ↔ ∀ observed, (Moments.observed values).observedMean = _ → _
      rw [Moments.observedMean, Moments.count_observed]
      rcases List.eq_nil_or_concat values with rfl | ⟨earlier, last, rfl⟩
      · simp
      · rw [List.concat_eq_append] at hrows ⊢
        rw [List.length_append, List.length_singleton] at hrows
        simp only [List.length_append, List.length_singleton, Nat.succ_ne_zero, if_false,
          Option.some.injEq, forall_eq']
        rw [Moments.isNaN_mean_append hrows, ← Moments.isSome_of_iff (by omega)]
        refine ⟨fun h => h earlier last rfl, fun h other value heq => ?_⟩
        obtain ⟨rfl, hlast⟩ := List.append_inj' heq rfl
        obtain rfl := List.singleton_inj.mp hlast
        exact h
  | stdDev =>
      show (RunningMean.of values).isSome = true ↔
        ∀ deviation, (Moments.observed values).stdDev = _ → _
      rw [Moments.isSome_of_iff hrows]
      refine ⟨fun h deviation hdeviation => (Moments.isNaN_stdDev_iff hrows hdeviation).mpr h,
        fun h => ?_⟩
      cases hdeviation : (Moments.observed values).stdDev with
      | some deviation => exact (Moments.isNaN_stdDev_iff hrows hdeviation).mp (h _ hdeviation)
      | none =>
          rw [Moments.stdDev, Moments.count_observed] at hdeviation
          split at hdeviation
          · rename_i hzero
            rw [List.length_eq_zero_iff.mp hzero]
            decide
          · cases hdeviation

theorem StatisticState.sound_iff_defined [Crates] {schema : Schema} {batches : List RecordBatch}
    (hbatches : ∀ batch ∈ batches, batch.schema = schema) {plan : StatisticPlan}
    (hcompiled : plan.CompiledFor schema)
    (hrows : (numbersOf plan.columnIndex batches).length < 2 ^ 64) {state : StatisticState}
    (hrun : StatisticState.observeBatches batches (.fresh plan) = .ok state) :
    state.Sound ↔ plan.kind.Defined (numbersOf plan.columnIndex batches) := by
  obtain ⟨field, hfield, hkernel⟩ := hcompiled.column
  have hnumeric := hcompiled.numeric
  rw [StatisticState.observeBatches_eq hnumeric (hkernel ▸ reads_of_isNumeric (hkernel ▸ hnumeric))
    (carries_numbers hfield (hkernel ▸ hnumeric) hbatches)] at hrun
  cases hrun
  rw [StatisticState.sound_iff hcompiled.min hcompiled.max, StatisticKind.defined_iff hrows]
  rfl

/-! ## Balances -/

/-- A silent balance has totals a number apart that is within the tolerance. -/
def BalanceState.Sound (state : BalanceState) : Prop :=
  state.finish = [] → (state.left.asFloat.sub state.right.asFloat).abs.isNaN = false ∧
    (state.left.asFloat.sub state.right.asFloat).abs.le state.plan.tolerance = true

/-- Both columns add up among the doubles, and their totals are not past them on one side. -/
def BalanceDefined (left right : List F64) : Prop :=
  ∃ sum sum', CompensatedSum.of left = some sum ∧ CompensatedSum.of right = some sum' ∧
    ∀ side, ¬(sum.total = .beyond side ∧ sum'.total = .beyond side)

theorem beyond_iff {x : F64} {rounded : Rounded} (h : rounded.IsWord x) (side : Bool) :
    rounded = .beyond side ↔ x.isInfinite = true ∧ x.negative = side := by
  cases rounded with
  | finite value =>
      have h : Represents x value := h
      rw [Ieee.isInfinite_of_isFinite h.finite]
      simp
  | beyond negative =>
      obtain rfl : x = Ieee.infinity negative := h
      rw [Rounded.beyond.injEq]
      exact (and_iff_right (Ieee.isInfinite_infinity negative)).symm

/-- Two compensated sums are a number apart exactly where the balance is defined. -/
theorem isNaN_sub_addFloats_iff (left right : List F64) :
    ((Neumaier.addFloats .new left).value.sub (Neumaier.addFloats .new right).value).isNaN = false ↔
      BalanceDefined left right := by
  rw [isNaN_sub_iff, HasDistance, Neumaier.isNaN_value_iff, Neumaier.isNaN_value_iff,
    ← Neumaier.isSome_of_iff, ← Neumaier.isSome_of_iff, BalanceDefined]
  cases hleft : CompensatedSum.of left with
  | none => simp
  | some sum =>
      cases hright : CompensatedSum.of right with
      | none => simp
      | some sum' =>
          have hvalue := beyond_iff (Neumaier.follows_addFloats hleft).isWord_value
          have hvalue' := beyond_iff (Neumaier.follows_addFloats hright).isWord_value
          simp only [Option.isSome_some, true_and, Option.some.injEq, exists_and_left,
            exists_eq_left', hvalue, hvalue']
          constructor
          · rintro h side ⟨⟨hinfinite, hside⟩, hinfinite', hside'⟩
            exact h ⟨hinfinite', hinfinite, hside'.trans hside.symm⟩
          · rintro h ⟨hinfinite', hinfinite, hside⟩
            exact h _ ⟨⟨hinfinite, rfl⟩, hinfinite', hside⟩

theorem BalanceState.sound_iff [Crates] {schema : Schema} {batches : List RecordBatch}
    (hbatches : ∀ batch ∈ batches, batch.schema = schema) {plan : BalanceEqualPlan}
    (hcompiled : plan.CompiledFor schema) {state : BalanceState}
    (hrun : BalanceState.observeBatches batches (.fresh plan) = .ok state) :
    state.Sound ↔ BalanceDefined (numbersOf plan.left batches) (numbersOf plan.right batches) := by
  have hobserved := hcompiled.observeBatches_eq hbatches
  rw [hobserved] at hrun
  cases hrun
  rw [Sound, finish_eq_nil, ← isNaN_sub_addFloats_iff]
  show (Ieee.gt (Ieee.abs (Ieee.sub (Neumaier.value _) (Neumaier.value _))) _ = false → _) ↔ _
  constructor
  · intro h
    by_contra hnan
    rw [Bool.not_eq_false] at hnan
    have hnan : (Ieee.sub (Neumaier.addFloats .new (numbersOf plan.left batches)).value
        (Neumaier.addFloats .new (numbersOf plan.right batches)).value).abs.isNaN = true := hnan
    have hwithin := h (by simp [Ieee.gt, Ieee.partialCmp, hnan])
    exact Bool.false_ne_true (hwithin.1.symm.trans hnan)
  · intro hnumber hsilent
    have habs : (Ieee.sub (Neumaier.addFloats .new (numbersOf plan.left batches)).value
        (Neumaier.addFloats .new (numbersOf plan.right batches)).value).abs.isNaN = false := hnumber
    exact ⟨habs,
      (gt_eq_false_iff habs (Ieee.isNaN_of_isFinite hcompiled.tolerance_finite)).mp hsilent⟩

/-! ## Moderate columns -/

/-- Moderate values have a mean and a deviation. -/
theorem StatisticKind.defined_of_moderate {values : List F64} (h : Moderate values)
    (kind : StatisticKind) : kind.Defined values := by
  have hmean {values : List F64} (h : Moderate values) : (RunningMean.of values).isSome = true := by
    obtain ⟨running, hof, -⟩ := h.exists_mean
    rw [hof]
    rfl
  cases kind with
  | mean =>
      rintro earlier last rfl
      obtain ⟨hearlier, hlast, -⟩ := h.of_append_singleton
      exact ⟨hmean hearlier, Ieee.isNaN_of_isFinite hlast⟩
  | stdDev => exact hmean h

/-- Two moderate columns can be balanced. -/
theorem balanceDefined_of_moderate {left right : List F64} (hleft : Moderate left)
    (hright : Moderate right) : BalanceDefined left right := by
  obtain ⟨sum, total, hof, htotal⟩ := hleft.exists_total
  obtain ⟨sum', total', hof', -⟩ := hright.exists_total
  refine ⟨sum, sum', hof, hof', ?_⟩
  rintro side ⟨hbeyond, -⟩
  rw [htotal] at hbeyond
  cases hbeyond

/-- Columns that can be balanced have finite values only. -/
theorem BalanceDefined.isFinite {left right : List F64} (h : BalanceDefined left right) :
    ∀ value ∈ left ++ right, value.isFinite = true := by
  obtain ⟨sum, sum', hof, hof', -⟩ := h
  refine List.forall_mem_append.mpr ⟨CompensatedSum.isFinite_of_isSome ?_,
    CompensatedSum.isFinite_of_isSome ?_⟩
  · rw [hof]
    rfl
  · rw [hof']
    rfl

/-! ## Executions -/

/-- **Silence on undefined statistics.**  In every execution of a compiled contract that ends in a
report, a sum, a mean, a deviation or a balance that finds nothing has a number within its bounds,
if and only if the values of its columns keep what it accumulates among the doubles.  In a valid
report all of them find nothing. -/
theorem silent_within_bounds_iff [Crates] [DebugText] {ω : Type} [Host ω]
    {document : ContractDocument} {schema : Schema} {plan : CompiledContract}
    (hcompile : CompiledContract.compileDocument document schema = .ok plan) {reader : BatchReader}
    {options : ExecutionOptions} {fingerprint : Bool} {references : ReferenceBindings}
    {world last : ω} {ended : FastValidationReport × Option Fingerprint}
    (hrun : executeReaderInner reader plan options fingerprint references world = .ok (ended, last))
    (hrows : ended.1.rows < 2 ^ 64) :
    ∃ runs : RuleRuns reader plan options ended.1,
      (ended.1.valid = true → (∀ state ∈ runs.dataset.sums, state.finish = []) ∧
        (∀ state ∈ runs.dataset.statistics, state.finish = []) ∧
        ∀ state ∈ runs.dataset.balances, state.finish = []) ∧
      List.Forall₂ (fun rule state => state.Sound ↔ (rule.kernel.isFloat = true →
          (CompensatedSum.of (numbersOf rule.columnIndex runs.batches)).isSome = true))
        plan.datasetPlan.sums runs.dataset.sums ∧
      List.Forall₂ (fun rule state => state.Sound ↔
          rule.kind.Defined (numbersOf rule.columnIndex runs.batches))
        plan.datasetPlan.statistics runs.dataset.statistics ∧
      List.Forall₂ (fun rule state => state.Sound ↔
          BalanceDefined (numbersOf rule.left runs.batches) (numbersOf rule.right runs.batches))
        plan.datasetPlan.balanceEqual runs.dataset.balances := by
  obtain ⟨runs⟩ := exists_ruleRuns hrun
  obtain ⟨hsums, hstatistics, hbalances⟩ := numeric_of_compileDocument hcompile
  refine ⟨runs, runs.silent_of_valid, (forall₂_mem_left runs.sums).imp ?_,
    (forall₂_mem_left runs.statistics).imp ?_, (forall₂_mem_left runs.balances).imp ?_⟩
  · rintro rule state ⟨hrule, hstate⟩
    exact SumState.sound_iff runs.schema_eq (hsums rule hrule) hstate
  · rintro rule state ⟨hrule, hstate⟩
    exact StatisticState.sound_iff_defined runs.schema_eq (hstatistics rule hrule)
      ((runs.length_numbersOf_le _).trans_lt hrows) hstate
  · rintro rule state ⟨hrule, hstate⟩
    exact BalanceState.sound_iff runs.schema_eq (hbalances rule hrule) hstate

/-! ## A column of floats -/

def floatReader (values : List F64) : BatchReader :=
  { schema := floatSchema, items := [.ok (.ofColumn (floatColumn values))] }

/-- A mean of at most one. -/
def unitMean : StatisticAst :=
  { name := "mean", column := "value", min := none, max := some unitFloat }

def unitMeanPlan : StatisticPlan :=
  { columnIndex := 0, column := "value", name := "mean", kernel := .f64, kind := .mean
    min := none, max := some unitFloat }

/-- The mean, a total without bounds, and a balance of the column with itself. -/
def numericContract : ContractAstV2 where
  version := .v2
  status := .active
  suggestedFrom := none
  columns := []
  rowRules := []
  datasetRules := { Reader.noDatasetRules with
    mean := [unitMean]
    sum := [{ name := "total", column := "value", min := none, max := none }]
    balanceEqual := [{ name := "balance", leftColumn := "value", rightColumn := "value"
                       tolerance := unitFloat }] }
  maxFindings := 10

def numericPlan : CompiledContract where
  schema := floatSchema
  columns := []
  rowPlans := []
  datasetPlan := { DatasetPlan.empty with
    statistics := [unitMeanPlan]
    sums := [{ columnIndex := 0, column := "value", name := "total", kernel := .f64
               bounds := .float none none }]
    balanceEqual := [{ name := "balance", left := 0, right := 0, leftColumn := "value"
                       rightColumn := "value", leftKernel := .f64, rightKernel := .f64
                       tolerance := unitFloat }] }
  version := .v2
  maxFindings := 10

theorem compile_numeric : let _ : Crates := Crates.zeroDigests
    let _ : DebugText := .quotes
    CompiledContract.compileDocument (.v2 numericContract) floatSchema = .ok numericPlan := by
  intro _ _
  rfl

theorem silent_within_bounds_iff_ones : let _ : Crates := Crates.zeroDigests
    ∃ ended last, executeReaderInner (floatReader [unitFloat, unitFloat]) numericPlan smallOptions
        false [] Granting.granting = .ok (ended, last) ∧
      ∃ runs : RuleRuns (floatReader [unitFloat, unitFloat]) numericPlan smallOptions ended.1,
        List.Forall₂ (fun _ state => SumState.Sound state)
          numericPlan.datasetPlan.sums runs.dataset.sums ∧
        List.Forall₂ (fun _ state => StatisticState.Sound state)
          numericPlan.datasetPlan.statistics runs.dataset.statistics ∧
        List.Forall₂ (fun _ state => BalanceState.Sound state)
          numericPlan.datasetPlan.balanceEqual runs.dataset.balances := by
  intro _
  let _ : DebugText := .quotes
  have hrun : (executeReaderInner (floatReader [unitFloat, unitFloat]) numericPlan smallOptions false
      [] Granting.granting).map (fun result => result.1.1.rows) = .ok 2 := by decide +kernel
  obtain ⟨⟨ended, last⟩, hended, hrows⟩ := map_eq_ok.mp hrun
  have hrows : ended.1.rows = 2 := hrows
  obtain ⟨runs, -, hsums, hstatistics, hbalances⟩ :=
    silent_within_bounds_iff compile_numeric hended (by rw [hrows]; norm_num)
  have hbatches : runs.batches = [.ofColumn (floatColumn [unitFloat, unitFloat])] :=
    runs.batches_eq rfl
  rw [hbatches] at hsums hstatistics hbalances
  refine ⟨ended, last, hended, runs, (forall₂_mem_left hsums).imp ?_,
    (forall₂_mem_left hstatistics).imp ?_, (forall₂_mem_left hbalances).imp ?_⟩
  · rintro rule state ⟨hrule, hsound⟩
    obtain rfl := List.mem_singleton.mp hrule
    exact hsound.mpr fun _ => by decide +kernel
  · rintro rule state ⟨hrule, hsound⟩
    obtain rfl := List.mem_singleton.mp hrule
    refine hsound.mpr fun earlier last heq => ?_
    have heq : [unitFloat] ++ [unitFloat] = earlier ++ [last] := heq
    obtain ⟨rfl, hlast⟩ := List.append_inj' heq rfl
    obtain rfl := List.singleton_inj.mp hlast
    exact ⟨by decide +kernel, by decide⟩
  · rintro rule state ⟨hrule, hsound⟩
    obtain rfl := List.mem_singleton.mp hrule
    have hsum : CompensatedSum.of (numbersOf 0
        [.ofColumn (floatColumn [unitFloat, unitFloat])]) = some ⟨2, .finite 0⟩ := by decide +kernel
    exact hsound.mpr ⟨_, _, hsum, hsum, by decide +kernel⟩

/-- A column that holds NaN has no mean, and is valid under a bound on its mean. -/
theorem nan_mean_silent : let _ : Crates := Crates.zeroDigests
    let _ : DebugText := .quotes
    CompiledContract.compileDocument (.v2 { numericContract with
        datasetRules := { Reader.noDatasetRules with mean := [unitMean] } }) floatSchema =
      .ok { numericPlan with datasetPlan := { DatasetPlan.empty with statistics := [unitMeanPlan] } } ∧
    (∃ ended last, executeReaderInner (floatReader [Ieee.nan])
      { numericPlan with datasetPlan := { DatasetPlan.empty with statistics := [unitMeanPlan] } }
      smallOptions false [] Granting.granting = .ok (ended, last) ∧ ended.1.valid = true) ∧
    (Moments.observed (numbersOf 0 [.ofColumn (floatColumn [Ieee.nan])])).mean.isNaN = true := by
  intro _ _
  have hrun : (executeReaderInner (floatReader [Ieee.nan])
      { numericPlan with datasetPlan := { DatasetPlan.empty with statistics := [unitMeanPlan] } }
      smallOptions false [] Granting.granting).map (fun result => result.1.1.valid) = .ok true := by
    decide +kernel
  obtain ⟨⟨ended, last⟩, hended, hvalid⟩ := map_eq_ok.mp hrun
  exact ⟨rfl, ⟨ended, last, hended, hvalid⟩, by decide +kernel⟩

end ProofFrame
