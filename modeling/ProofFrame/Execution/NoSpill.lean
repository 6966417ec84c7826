import ProofFrame.Distinct.InMemory
import ProofFrame.Execution.Integrity

/-!
# Runs that may not spill

`SpillPolicy::Never` keeps the exact states of a run in memory.  A run under it
takes no file operation, reports no run, and ends as the run that spills does,
unless the budget stops it, so long as it scans no reference dataset: the scan
of one opens a temporary directory whatever the policy says.
-/

namespace ProofFrame

open Lib Lib.Run Distinct

/-! ## States in memory -/

section Keeping

variable {ω : Type} [Host ω] [Crates] {Env : Fault → Prop}

/-- The state holds the records and has spilled none of them. -/
def HoldsInMemory (ω : Type) [Host ω] (limits : ResourceLimits) (kind : ValueKind)
    (records : List Record) (exact : ExactState) : Prop :=
  ExactHolds limits records exact ∧ exact.Unspilled ω kind

/-- States kept in memory alone. -/
def Keeping.inMemory (limits : ResourceLimits) (henv : MemoryFaults ω Env) : Keeping ω where
  Env := Env
  Holds := HoldsInMemory ω limits
  maxSamples := limits.maxSamples
  Spills bytes runs := bytes = 0 ∧ runs = 0
  refused := henv.refused
  cancelled := henv.cancelled
  insert h hkind row := by
    have hholds := (Keeping.spilling (ω := ω) limits).insert h.1 hkind row
    have hunspilled := h.2.sat_insert henv.exact (fun hpanic => hpanic.elim) hkind row
    exact (hholds.and hunspilled).mono (fun _ hnext => hnext) fun _ he => he.2 he.1
  finish h := by
    have hsummary := ExactState.sat_finish (ω := ω) h.1.1
    rw [h.1.2] at hsummary
    exact (hsummary.and (h.2.sat_finish henv.exact)).mono (fun _ hfinished => hfinished)
      fun _ he => he.2 he.1
  spills_zero := ⟨rfl, rfl⟩
  spills_add h h' := by
    rw [h.1, h.2, h'.1, h'.2]
    exact ⟨rfl, rfl⟩

/-- The samples of a state can be asked for, or a size that overflows is a fault of the run. -/
def SamplesFit (limits : ResourceLimits) (Env : Fault → Prop) : Prop :=
  limits.maxSamples * sizeOfDuplicateSample < 2 ^ 64 ∨ ∀ message, Env (corrupt message)

theorem creates_inMemory (henv : MemoryFaults ω Env) {account : ResourceAccount}
    (hsamples : SamplesFit account.limits Env) (rowCountHint : Option ℕ) :
    Creates ω Env (HoldsInMemory ω account.limits) account rowCountHint none := by
  intro kind
  have hsamples' : SamplesFit account.limits fun fault => ExactFault fault → Env fault :=
    hsamples.imp id fun hany message _ => hany message
  have hunspilled := ExactState.sat_new_memory henv.exact kind
    (account.child account.limits.maxMemoryBytes account.limits.maxTempBytes) rowCountHint hsamples'
  exact ((sat_newExact kind account none rowCountHint).and hunspilled).mono
    (fun _ hnew => hnew) fun _ he => he.2 he.1

/-! ## Where reference rules come in -/

/-- The run gets as far as scanning the dataset of its first reference rule. -/
def ReachesReference (reader : BatchReader) (plan : CompiledContract) (fingerprint : Bool)
    (references : ReferenceBindings) : Prop :=
  ∃ bindings rule rest bound indexes,
    bindingsLeft reader plan fingerprint references = .ok bindings ∧
    plan.datasetPlan.references = rule :: rest ∧
    SortedMap.find rule.reference bindings = some bound ∧
    resolveReferenceKey rule plan.schema bound.schema = .ok indexes

/-- Without reference rules, or with a first rule that refuses its dataset, none is scanned. -/
theorem refines_prepare_unreached {plans : List ReferencePlan} {bindings : ReferenceBindings}
    {schema : Schema} {account : ResourceAccount}
    (h : ∀ rule rest bound indexes, plans = rule :: rest →
      SortedMap.find rule.reference bindings = some bound →
      resolveReferenceKey rule schema bound.schema ≠ .ok indexes) :
    Refines Env (prepare plans bindings schema account : Run ω Fault _)
      (readReferences plans bindings schema) (List.Forall₂ fun _ _ => False) := by
  cases plans with
  | nil =>
      apply Refines.bind (R := fun (model : Preparation (List Record)) current =>
        current.bindings = model.bindings ∧
          List.Forall₂ (fun _ _ => False) model.prepared current.prepared)
      · exact refines_pure ⟨rfl, .nil⟩
      · rintro model current _ ⟨hbindings, hprepared⟩
        dsimp only
        rw [hbindings]
        apply refines_failIf.bind
        intro _ _ _ _
        exact refines_pure hprepared
  | cons rule rest =>
      have hscan : Refines Env
          (prepareRule schema account { bindings, scanned := [], prepared := [] } rule :
            Run ω Fault _)
          (readRule schema { bindings, scanned := [], prepared := [] } rule)
          fun _ _ => False := by
        apply Refines.bind (R := fun _ _ => False)
        · apply refines_someOr_self.bind
          rintro bound _ hbound rfl
          have hrefused : ∀ indexes, resolveReferenceKey rule schema bound.schema ≠ .ok indexes := by
            intro indexes
            apply h rule rest bound indexes rfl
            cases hfind : SortedMap.find rule.reference bindings with
            | none => simp [hfind, required] at hbound
            | some _ => simp [hfind, required] at hbound; rw [hbound]
          apply Refines.bind (R := fun _ _ => False)
          · apply (refines_lift (S := fun _ _ => False) fun indexes hindexes =>
              absurd hindexes (hrefused indexes)).bind
            rintro _ _ _ ⟨⟩
          · rintro _ _ _ ⟨⟩
        · rintro _ _ _ ⟨⟩
      apply Refines.bind (R := fun _ _ => False)
      · rw [List.foldlM_cons, List.foldlM_cons]
        apply hscan.bind
        rintro _ _ _ ⟨⟩
      · rintro _ _ _ ⟨⟩

/-! ## A run in memory -/

section Execution

variable {reader : BatchReader} {plan : CompiledContract} {options : ExecutionOptions}
  {fingerprint : Bool} {references : ReferenceBindings} {account : ResourceAccount}

/-- Whether a run keeps exact states for other rules than references. -/
def KeepsExact (plan : CompiledContract) : Prop :=
  plan.datasetPlan.hasExact = true ∨ plan.columns.any (fun column => column.rules.unique) = true

omit [Crates] in
/-- Under `never` no directory is created, whatever the rules. -/
theorem sat_createDirectoryIf_never {rules : Bool} {spill : SpillPolicy} (h : spill = .never) :
    Sat (createDirectoryIf (rules && spill = .auto) : Run ω Fault _) (· = none) Env := by
  subst h
  have hnever : (rules && decide (SpillPolicy.never = .auto)) = false := by simp
  rw [hnever]
  apply (sat_whenever (Q := fun _ => True) (by rintro ⟨⟩) fun _ => trivial).bind
  intro _ _
  exact sat_pure rfl

theorem Keeping.executes_inMemory (henv : MemoryFaults ω Env) (hspill : options.spill = .never)
    (hsamples : KeepsExact plan → SamplesFit account.limits Env)
    (hreach : ¬ReachesReference reader plan fingerprint references) :
    (Keeping.inMemory account.limits henv).Executes reader plan options fingerprint account
      references fun _ _ => False where
  dataset := DatasetState.sat_new _ _ _ _ ((sat_createDirectoryIf_never hspill).post (by
    rintro _ rfl hexact
    exact creates_inMemory henv (hsamples (.inl hexact)) _))
  uniques := sat_initializeUniqueStates _ _ _ ((sat_createDirectoryIf_never hspill).post (by
    rintro _ rfl hunique
    exact creates_inMemory henv (hsamples (.inr hunique)) _))
  prepare bindings hleft := refines_prepare_unreached fun rule rest bound indexes hplans hbound
    hindexes => hreach ⟨bindings, rule, rest, bound, indexes, hleft, hplans, hbound, hindexes⟩
  entries := by
    rintro _ _ (_ | ⟨⟨⟩, _⟩)
    apply (sat_whenever (Q := fun _ => True) (fun h => absurd rfl h) fun _ => trivial).bind
    intro _ _
    exact sat_pure .nil
  compare _ hfalse _ := hfalse.elim

/-- A run in memory shows its meaning and spills nothing. -/
theorem refines_executeReaderInner_never (henv : MemoryFaults ω Env)
    (hspill : options.spill = .never)
    (hsamples : KeepsExact plan → SamplesFit options.resources Env)
    (hreach : ¬ReachesReference reader plan fingerprint references) :
    Refines Env (executeReaderInner reader plan options fingerprint references : Run ω Fault _)
      (executionMeaning reader plan fingerprint references options.resources.maxMemoryBytes)
      ((Keeping.inMemory options.resources henv).Ended plan options) := by
  have hexecutes := @Keeping.executes_inMemory ω _ _ Env reader plan options fingerprint references
    (.root options.resources) henv hspill hsamples hreach
  exact hexecutes.refines_executeReaderInnerWithAccount _ (Nat.min_le_right _ _) rfl

end Execution

end Keeping

/-! ## What a run that ends in a report could ask for -/

section Samples

variable {ω : Type} [Host ω] {limits : ResourceLimits}

/-- The samples of one exact state are counted in machine words. -/
def SamplesCounted (limits : ResourceLimits) : Prop :=
  limits.maxSamples * sizeOfDuplicateSample < 2 ^ 64

theorem creates_samplesCounted (account : ResourceAccount) (rowCountHint : Option ℕ)
    (directory : Option String) :
    Creates ω (fun _ => True) (fun _ _ _ => SamplesCounted account.limits) account rowCountHint
      directory := by
  intro kind
  unfold newExact ExactState.new
  apply (sat_known trivial).bind
  intro _ _
  apply Sat.bind (sat_checkedMul trivial)
  rintro bytes ⟨-, hcounted⟩
  exact sat_known hcounted

omit [Host ω] in
/-- A plan without distinct states has no rule that counts distinct values. -/
theorem rules_eq_nil_of_distinctSpecs {plan : DatasetPlan} (h : distinctSpecs plan = []) :
    plan.distinctCounts = [] ∧ plan.distinctRatios = [] := by
  obtain ⟨hratios, hcounted⟩ := SortedMap.eq_nil_of_foldl_upsert h
  exact ⟨(SortedMap.eq_nil_of_foldl_upsert hcounted).1, hratios⟩

omit [Host ω] in
/-- A plan with an exact rule has an exact state. -/
theorem samplesCounted_of_models {plan : DatasetPlan} {maxMemoryBytes : ℕ}
    {state : DatasetState ExactState}
    (h : (DatasetState.fresh plan maxMemoryBytes).Models (fun _ _ _ => SamplesCounted limits) state)
    (hexact : plan.hasExact = true) : SamplesCounted limits := by
  obtain ⟨distinct, composites, conditional, -, hdistinct, hcomposites, hconditional⟩ := h
  by_contra hnot
  have hnone : distinctSpecs plan = [] ∧ plan.compositeUnique = [] ∧
      plan.conditionalUnique = [] := by
    refine ⟨?_, ?_, ?_⟩
    · cases hspecs : distinctSpecs plan with
      | nil => rfl
      | cons _ _ =>
          simp only [DatasetState.fresh, DatasetState.initial, hspecs, List.map_cons] at hdistinct
          obtain ⟨_, _, ⟨_, -, hcounted⟩, -, -⟩ := List.forall₂_cons_left_iff.mp hdistinct
          exact absurd hcounted hnot
    · cases hrules : plan.compositeUnique with
      | nil => rfl
      | cons _ _ =>
          simp only [DatasetState.fresh, DatasetState.initial, hrules, List.map_cons] at hcomposites
          obtain ⟨_, _, ⟨_, -, hcounted⟩, -, -⟩ := List.forall₂_cons_left_iff.mp hcomposites
          exact absurd hcounted hnot
    · cases hrules : plan.conditionalUnique with
      | nil => rfl
      | cons _ _ =>
          simp only [DatasetState.fresh, DatasetState.initial, hrules, List.map_cons] at hconditional
          obtain ⟨_, _, ⟨_, -, hcounted⟩, -, -⟩ := List.forall₂_cons_left_iff.mp hconditional
          exact absurd hcounted hnot
  obtain ⟨hspecs, hcomposite, hconditional⟩ := hnone
  obtain ⟨hcounts, hratios⟩ := rules_eq_nil_of_distinctSpecs hspecs
  simp [DatasetPlan.hasExact, hcomposite, hconditional, hcounts, hratios] at hexact

omit [Host ω] in
/-- A unique column has an exact state. -/
theorem samplesCounted_of_uniques {columns : List ColumnPlan}
    {states : List (Option ExactState)}
    (h : UniquesHold (fun _ _ _ => SamplesCounted limits) columns
      (columns.map fun column => if column.rules.unique then some [] else none) states)
    (hunique : columns.any (fun column => column.rules.unique) = true) : SamplesCounted limits := by
  induction columns generalizing states with
  | nil => cases hunique
  | cons column columns ih =>
      cases h with
      | cons hhead htail =>
          cases hcolumn : column.rules.unique with
          | false =>
              rw [List.any_cons, hcolumn, Bool.false_or] at hunique
              exact ih htail hunique
          | true =>
              dsimp only at hhead
              rw [if_pos hcolumn] at hhead
              cases hhead with
              | some hcounted => exact hcounted

/-- A run that ends in a report has asked for the samples of its exact states. -/
theorem sat_executeReaderInner_samplesCounted [Crates] {reader : BatchReader}
    {plan : CompiledContract} {options : ExecutionOptions} {fingerprint : Bool}
    {references : ReferenceBindings} :
    Sat (executeReaderInner reader plan options fingerprint references : Run ω Fault _)
      (fun _ => KeepsExact plan → SamplesCounted options.resources) fun _ => True := by
  have hdirectory : ∀ rules, Sat (createDirectoryIf rules : Run ω Fault (Option String))
      (fun directory => ∀ account : ResourceAccount, Creates ω (fun _ => True)
        (fun _ _ _ => SamplesCounted account.limits) account options.rowCountHint directory)
      fun _ => True := by
    intro rules
    apply sat_known (P := True) trivial |>.post
    intro directory _ account
    exact creates_samplesCounted account _ directory
  have hstart : Sat (startExecution reader plan options fingerprint (.root options.resources)
      references : Run ω Fault _)
      (fun _ => KeepsExact plan → SamplesCounted options.resources) fun _ => True := by
    unfold startExecution
    apply (sat_known trivial).bind
    intro _ _
    apply (sat_known trivial).bind
    intro _ _
    apply Sat.bind (DatasetState.sat_new _ _ _ _ ((hdirectory _).post fun _ h _ => h _))
    intro datasetState hdataset
    apply Sat.bind (sat_initializeUniqueStates _ _ _ ((hdirectory _).post fun _ h _ => h _))
    intro uniqueStates huniques
    apply sat_known
    rintro (hexact | hunique)
    · exact samplesCounted_of_models hdataset hexact
    · exact samplesCounted_of_uniques huniques hunique
  unfold executeReaderInner executeReaderInnerWithAccount
  apply hstart.bind
  intro _ hcounted
  exact sat_known hcounted

end Samples

/-! ## Runs that keep their exact states in memory -/

/-- Every file operation on the host fails with the message. -/
def RefusesFiles (ω : Type) [Host ω] (message : String) : Prop :=
  ∀ (world : ω) (operation : IoOperation), (Host.io world operation).1 = .error message

/-- Two reports with the same verdict. -/
structure SameVerdict (report report' : FastValidationReport) : Prop where
  valid_eq : report.valid = report'.valid
  count_eq : report.violationCount = report'.violationCount
  findings_eq : report.findings = report'.findings
  references_eq : report.references = report'.references

/-- What `SpillPolicy::Never` promises of the runs of a plan over a dataset.  A run takes no file
operation: a host that refuses them all is not heard, where its message is not that of the fault the
dataset has anyway.  It reports no spilled byte and no run.  Where a run that may spill ends in a
report, it ends with the same verdict or at a resource limit, unless it is cancelled. -/
structure KeepsInMemory [Crates] (reader : BatchReader) (plan : CompiledContract)
    (fingerprint : Bool) (references : ReferenceBindings) : Prop where
  files : ∀ options : ExecutionOptions, options.spill = .never → ∃ own : Fault, ∀ message,
    own ≠ .error (.io message) → ∀ (ω : Type) [Host ω], RefusesFiles ω message → ∀ world : ω,
      executeReaderInner reader plan options fingerprint references world ≠
        .error (.error (.io message))
  metrics : ∀ options : ExecutionOptions, options.spill = .never → ∀ (ω : Type) [Host ω]
    (world world' : ω) ended,
    executeReaderInner reader plan options fingerprint references world = .ok (ended, world') →
      ended.1.metrics.spillBytes = 0 ∧ ended.1.metrics.exactRuns = 0
  verdict : ∀ options : ExecutionOptions, options.spill = .never →
    ∀ (δ : Type) [Host δ] (other other' : δ) spilled,
      executeReaderInner reader plan { options with spill := .auto } fingerprint references other =
        .ok (spilled, other') →
      ∀ (ω : Type) [Host ω], Uncancelled ω → Allocatable ω → ∀ world : ω,
        (∃ e, e.code = .resourceLimit ∧
          executeReaderInner reader plan options fingerprint references world =
            .error (.error e)) ∨
        ∃ ended world',
          executeReaderInner reader plan options fingerprint references world =
            .ok (ended, world') ∧ SameVerdict ended.1 spilled.1

section InMemory

variable [Crates] {reader : BatchReader} {plan : CompiledContract} {fingerprint : Bool}
  {references : ReferenceBindings}

/-- The codes of the faults of a run in memory on any host. -/
def memoryCodes : List ErrorCode := [.resourceLimit, .cancelled, .corruptPartition]

omit [Crates] in
theorem memoryFault_corrupt (message : String) : Fault.Coded memoryCodes (corrupt message) := by
  show ErrorCode.corruptPartition ∈ memoryCodes
  decide

omit [Crates] in
theorem memoryFaults_coded (ω : Type) [Host ω] : MemoryFaults ω (Fault.Coded memoryCodes) where
  refused e he := by
    show e.code ∈ memoryCodes
    rw [he]
    decide
  cancelled := by
    intro world
    unfold checkCancelled
    rcases Host.cancelled world with ⟨_ | _, world'⟩
    · trivial
    · show ErrorCode.cancelled ∈ memoryCodes
      decide
  overflow := .inr memoryFault_corrupt

omit [Crates] in
/-- Where nobody cancels and sizes are bounded, only the budget stops a run in memory. -/
theorem memoryFaults_limited {ω : Type} [Host ω] (huncancelled : Uncancelled ω)
    (hbounded : Allocatable ω) : MemoryFaults ω (Fault.Coded [.resourceLimit]) where
  refused e he := by
    show e.code ∈ [ErrorCode.resourceLimit]
    rw [he]
    decide
  cancelled := huncancelled.sat_checkCancelled trivial
  overflow := .inl hbounded

theorem keepsInMemory_of_not_reaches
    (hreach : ¬ReachesReference reader plan fingerprint references) :
    KeepsInMemory reader plan fingerprint references where
  files options hspill := by
    have hrefines : ∀ (ω : Type) [Host ω], Refines (Fault.Coded memoryCodes)
        (executeReaderInner reader plan options fingerprint references : Run ω Fault _)
        (executionMeaning reader plan fingerprint references options.resources.maxMemoryBytes)
        _ := fun ω _ => refines_executeReaderInner_never (memoryFaults_coded ω) hspill
          (fun _ => .inr memoryFault_corrupt) hreach
    have hio : ∀ message, ¬Fault.Coded memoryCodes (.error (.io message)) := by
      intro message
      show ErrorCode.io ∉ memoryCodes
      decide
    -- no file is asked for, so an io error can only be the one the meaning ends in
    cases hmeaning : executionMeaning reader plan fingerprint references
        options.resources.maxMemoryBytes with
    | ok meaning =>
        refine ⟨.diverged, fun message _ ω _ _ world hrun => ?_⟩
        rcases (hrefines ω).of_error hrun with henv | hfault
        · exact hio message henv
        · rw [hmeaning] at hfault
          cases hfault
    | error own =>
        refine ⟨own, fun message hown ω _ _ world hrun => ?_⟩
        rcases (hrefines ω).of_error hrun with henv | hfault
        · exact hio message henv
        · rw [hmeaning] at hfault
          exact hown (Except.error.inj hfault)
  metrics options hspill ω _ world world' ended hrun := by
    obtain ⟨-, -, -, hspilled⟩ := Refines.of_ok (refines_executeReaderInner_never
      (memoryFaults_coded ω) hspill (fun _ => .inr memoryFault_corrupt) hreach) hrun
    exact hspilled
  verdict options hspill δ _ other other' spilled hspilled ω _ huncancelled hbounded world := by
    obtain ⟨meaning, hmeaning, hshown, -⟩ := Refines.of_ok
      (refines_executeReaderInnerWithAccount reader plan { options with spill := .auto } fingerprint
        (.root options.resources) references rfl) hspilled
    have hcounted := Sat.of_ok sat_executeReaderInner_samplesCounted hspilled
    have hrefines := refines_executeReaderInner_never
      (memoryFaults_limited huncancelled hbounded) hspill (fun h => .inl (hcounted h)) hreach
    cases hrun : executeReaderInner reader plan options fingerprint references world with
    | error fault =>
        rcases hrefines.of_error hrun with hlimited | hfault
        · cases fault with
          | error e => exact .inl ⟨e, List.mem_singleton.mp hlimited, rfl⟩
          | panic _ => exact hlimited.elim
          | diverged => exact hlimited.elim
        · rw [hmeaning] at hfault
          cases hfault
    | ok result =>
        obtain ⟨ended, world'⟩ := result
        obtain ⟨meaning', hmeaning', ⟨hshown', -⟩, -⟩ := hrefines.of_ok hrun
        obtain rfl : meaning = meaning' := Except.ok.inj (hmeaning.symm.trans hmeaning')
        refine .inr ⟨ended, world', rfl, ?_⟩
        constructor
        case valid_eq => rw [Bool.eq_iff_iff, hshown'.valid_iff, hshown.valid_iff]
        case count_eq => rw [hshown'.count_eq, hshown.count_eq]
        case findings_eq =>
          rw [hshown'.findings_eq, hshown.findings_eq]
          rfl
        case references_eq => rw [hshown'.references_eq, hshown.references_eq]

end InMemory

/-! ## The scan of a reference dataset -/

/-- A host that grants every request but those for files. -/
inductive Diskless (message : String) where
  | diskless

instance (message : String) : Host (Diskless message) where
  cancelled world := (false, world)
  reserve world _ _ _ := (.ok (), world)
  io world _ := (.error message, world)
  peak _ _ _ := 0

/-- Nothing but memory, and no samples. -/
def unsampledOptions : ExecutionOptions :=
  { rowCountHint := none, resources := ⟨0, 0, 0, 0⟩, threads := none, spill := .never }

section Reached

variable [Crates] {reader : BatchReader} {plan : CompiledContract} {fingerprint : Bool}
  {references : ReferenceBindings} {message : String}

/-- The fault of a refused file operation. -/
def RefusedFile (message : String) (fault : Fault) : Prop := fault = .error (.io message)

omit [Crates] in
theorem creates_diskless (account : ResourceAccount) (hsamples : account.limits.maxSamples = 0)
    (rowCountHint : Option ℕ) :
    Creates (Diskless message) (RefusedFile message) (fun _ _ _ => True) account rowCountHint
      none := by
  intro kind
  unfold newExact ExactState.new
  apply (sat_whenever (Q := fun _ => True) (by rintro ⟨⟩) fun _ => trivial).bind
  intro _ _
  apply Sat.bind (Q := fun _ => True)
  · unfold checkedMul
    apply Sat.bind (Q := fun _ => True)
    · refine (sat_failIf fun hover => ?_).post fun _ _ => trivial
      have hzero : (account.child account.limits.maxMemoryBytes
          account.limits.maxTempBytes).limits.maxSamples = 0 := hsamples
      simp [hzero] at hover
    · exact fun _ _ => sat_pure trivial
  · intro bytes _
    apply Sat.bind (Q := fun _ => True)
    · exact fun _ => trivial
    · exact fun _ _ => sat_pure trivial

/-- The scan resolves the key columns and opens its directory. -/
theorem sat_scanReference_diskless {rule : ReferencePlan} {bound : BatchReader} {schema : Schema}
    {account : ResourceAccount} {indexes : List ℕ}
    (hindexes : resolveReferenceKey rule schema bound.schema = .ok indexes) :
    Sat (scanReference rule bound schema account : Run (Diskless message) Fault _)
      (fun _ => False) (RefusedFile message) := by
  unfold scanReference
  rw [hindexes]
  apply (sat_lift (Q := fun _ => True) (fun _ _ => trivial) (by rintro _ ⟨⟩)).bind
  intro _ _
  apply Sat.bind (Q := fun _ => False)
  · exact fun _ => rfl
  · rintro _ ⟨⟩

/-- The first rule is scanned before any other rule is looked at. -/
theorem sat_prepare_diskless {rule : ReferencePlan} {rest : List ReferencePlan}
    {bindings : ReferenceBindings} {bound : BatchReader} {schema : Schema}
    {account : ResourceAccount} {indexes : List ℕ}
    (hbound : SortedMap.find rule.reference bindings = some bound)
    (hindexes : resolveReferenceKey rule schema bound.schema = .ok indexes) :
    Sat (prepare (rule :: rest) bindings schema account : Run (Diskless message) Fault _)
      (fun _ => False) (RefusedFile message) := by
  have hrule : Sat (prepareRule schema account { bindings, scanned := [], prepared := [] } rule :
      Run (Diskless message) Fault _) (fun _ => False) (RefusedFile message) := by
    unfold prepareRule scanUnlessCached scanBound
    rw [if_neg (by simp)]
    dsimp only
    rw [hbound]
    apply Sat.bind (Q := fun _ => False)
    · apply Sat.bind (Q := (· = bound)) (sat_pure rfl)
      rintro _ rfl
      apply (sat_scanReference_diskless hindexes).bind
      rintro _ ⟨⟩
    · rintro _ ⟨⟩
  unfold prepare
  rw [List.foldlM_cons]
  apply Sat.bind (Q := fun _ => False)
  · apply hrule.bind
    rintro _ ⟨⟩
  · rintro _ ⟨⟩

/-- A run that reaches a reference dataset asks for a directory under any policy. -/
theorem sat_executeReaderInner_reached
    (hreach : ReachesReference reader plan fingerprint references) :
    Sat (executeReaderInner reader plan unsampledOptions fingerprint references :
      Run (Diskless message) Fault _) (fun _ => False) (RefusedFile message) := by
  obtain ⟨bindings, rule, rest, bound, indexes, hleft, hrules, hbound, hindexes⟩ := hreach
  obtain ⟨_, hschema, hleft⟩ := bind_eq_ok.mp hleft
  obtain ⟨_, hfingerprint, hleft⟩ := bind_eq_ok.mp hleft
  obtain ⟨delta, hdelta, hbindings⟩ := bind_eq_ok.mp hleft
  obtain rfl : delta.bindings = bindings := Except.ok.inj hbindings
  -- before the references are read nothing asks for a file
  have hcreates : ∀ rules, Sat (createDirectoryIf (rules && unsampledOptions.spill = .auto) :
      Run (Diskless message) Fault _) (fun directory => rules = true →
        Creates (Diskless message) (RefusedFile message) (fun _ _ _ => True)
          (.root unsampledOptions.resources) unsampledOptions.rowCountHint directory)
      (RefusedFile message) := by
    intro rules
    apply (sat_createDirectoryIf_never rfl).post
    rintro _ rfl _
    exact creates_diskless _ rfl _
  have hcancelled : Sat (checkCancelled : Run (Diskless message) Fault Unit) (fun _ => True)
      (RefusedFile message) := fun _ => trivial
  apply Sat.bind (Q := fun _ => False)
  · apply Sat.bind (Q := fun _ => True)
    · refine (sat_failIf fun hdiffers => ?_).post fun _ _ => trivial
      exact absurd hdiffers (rejectIf_eq_ok.mp hschema)
    · intro _ _
      apply Sat.bind (Q := fun _ => True)
      · rw [hfingerprint]
        exact sat_lift (fun _ _ => trivial) (by rintro _ ⟨⟩)
      · intro _ _
        apply Sat.bind (DatasetState.sat_new _ _ _ _ (hcreates _))
        intro _ _
        apply Sat.bind (sat_initializeUniqueStates _ _ _ (hcreates _))
        intro _ _
        have hcount := refines_countDeltaReferences hcancelled plan.datasetPlan.rowCountDelta
          references
        rw [hdelta] at hcount
        apply Sat.bind (Q := (· = delta))
        · apply hcount.mono
          · rintro _ ⟨_, ⟨⟩, rfl⟩
            rfl
          · rintro _ (hrefused | hfault)
            · exact hrefused
            · cases hfault
        · rintro _ rfl
          rw [hrules]
          apply (sat_prepare_diskless hbound hindexes).bind
          rintro _ ⟨⟩
  · rintro _ ⟨⟩

theorem not_keepsInMemory_of_reaches
    (hreach : ReachesReference reader plan fingerprint references) :
    ¬KeepsInMemory reader plan fingerprint references := by
  intro hkeeps
  obtain ⟨own, hown⟩ := hkeeps.files unsampledOptions rfl
  have hheard : ∀ message, own = .error (.io message) := by
    intro message
    by_contra hother
    have hrefuses : RefusesFiles (Diskless message) message := fun _ _ => rfl
    have hquiet := hown message hother (Diskless message) hrefuses .diskless
    cases hrun : executeReaderInner reader plan unsampledOptions fingerprint references
        (Diskless.diskless : Diskless message) with
    | ok result => exact Sat.of_ok (sat_executeReaderInner_reached hreach) hrun
    | error fault =>
        rw [Sat.of_error (sat_executeReaderInner_reached hreach) hrun] at hrun
        exact hquiet hrun
  have hsame := (hheard "a").symm.trans (hheard "b")
  simp at hsame

/-- **Runs under `SpillPolicy::Never`.**  The runs of a plan over a dataset stay in memory, with the
verdict of the runs that may spill, iff they scan no reference dataset. -/
theorem keepsInMemory_iff (reader : BatchReader) (plan : CompiledContract) (fingerprint : Bool)
    (references : ReferenceBindings) :
    KeepsInMemory reader plan fingerprint references ↔
      ¬ReachesReference reader plan fingerprint references :=
  ⟨fun hkeeps hreach => not_keepsInMemory_of_reaches hreach hkeeps, keepsInMemory_of_not_reaches⟩

end Reached

/-- One reference rule is enough: told not to spill, the run of the ids 7 and null against the known
id 8 fails on a file system that may not be written. -/
theorem not_keepsInMemory_references :
    let _ : Crates := Crates.zeroDigests
    executeReaderInner (idReader [some 7, none]) knownIdsPlan { smallOptions with spill := .never }
        false [("known", idReader [some 8])]
        (Diskless.diskless : Diskless "read-only file system") =
      .error (.error (.io "read-only file system")) ∧
    ¬KeepsInMemory (idReader [some 7, none]) knownIdsPlan false [("known", idReader [some 8])] := by
  intro _
  refine ⟨rfl, not_keepsInMemory_of_reaches ?_⟩
  exact ⟨_, _, _, _, _, rfl, rfl, rfl, rfl⟩

end ProofFrame
