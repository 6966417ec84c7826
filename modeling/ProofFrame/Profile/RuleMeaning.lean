import ProofFrame.Profile.Budgets
import ProofFrame.Profile.FullValidation
import ProofFrame.Table

/-!
# What a full validation finds

The findings of a dataset are a function of its rows: of each cell, of the rule of
its column and of the values seen before it in columns of the same name.  A
validation refines it.  Its profile is the one of the dataset without a contract:
the rules read what the inspection reads and change nothing of it.
-/

namespace ProofFrame

open Lib Lib.Run Lib.Ieee754 Distinct
open Diff (DiffCrates valueForRules)

/-! ## The findings of a dataset -/

/-- What has been found, and which values have been seen in which columns. -/
structure RulesSeen where
  findings : List Finding
  seen : List (String × List UInt8)

section Findings

variable [DiffCrates]

/-- The finding about a value. -/
def aboutValue (dataType : DataType) (value : Value) (globalRow : ℕ) (column rule : String)
    (message : String → String) : Except Fault Finding := do
  let text ← valueForRules dataType value
  .ok { rule, column, row := some globalRow, message := message text }

/-- The finding about a value outside of a bound. -/
def aboutBound (dataType : DataType) (value : Value) (globalRow : ℕ) (column rule : String)
    (message : F64 → String → String) (broken : Option F64) : Except Fault (List Finding) :=
  match broken with
  | none => .ok []
  | some bound => ([·]) <$> aboutValue dataType value globalRow column rule (message bound)

namespace ColumnContract

/-- The findings of the uniqueness rule. -/
def uniqueFindings (rule : ColumnContract) (dataType : DataType) (value : Value) (globalRow : ℕ)
    (column : String) (repeats : Bool) : Except Fault (List Finding) :=
  if rule.unique && repeats then
    ([·]) <$> aboutValue dataType value globalRow column "unique" duplicateMessage
  else .ok []

/-- The findings of the bounds. -/
def numericFindings (rule : ColumnContract) (dataType : DataType) (value : Value) (globalRow : ℕ)
    (column : String) : Except Fault (List Finding) := do
  let numeric := numericValue dataType value
  let low ← aboutBound dataType value globalRow column "min" belowMessage
    (rule.min.filter fun minimum => numeric.any (·.lt minimum))
  let high ← aboutBound dataType value globalRow column "max" aboveMessage
    (rule.max.filter fun maximum => numeric.any (·.gt maximum))
  .ok (low ++ high)

/-- The findings of the pattern and of the allowed values. -/
def textFindings (rule : ColumnContract) (dataType : DataType) (value : Value) (globalRow : ℕ)
    (column : String) : Except Fault (List Finding) :=
  if rule.pattern.isNone && rule.allowed.isNone then .ok []
  else do
    let text ← valueForRules dataType value
    .ok ((mismatched rule.pattern text globalRow column).toList ++
      (unlisted rule.allowed text globalRow column).toList)

/-- The findings of a rule about a value. -/
def valueFindings (rule : ColumnContract) (dataType : DataType) (value : Value) (globalRow : ℕ)
    (column : String) (repeats : Bool) : Except Fault (List Finding) := do
  let duplicates ← rule.uniqueFindings dataType value globalRow column repeats
  let outside ← rule.numericFindings dataType value globalRow column
  let texts ← rule.textFindings dataType value globalRow column
  .ok (duplicates ++ outside ++ texts)

end ColumnContract

/-- The finding about a null. -/
def nullFinding (globalRow : ℕ) (column : String) : Finding :=
  { rule := "not_null", column, row := some globalRow, message := "Null value is not allowed" }

/-- What a cell adds. -/
def checkCell (rules : String → Option ColumnContract) (globalRow : ℕ) (seen : RulesSeen)
    (entry : Field × Option Value) : Except Fault RulesSeen :=
  let column := entry.1.name
  match rules column, entry.2 with
  | none, _ => .ok seen
  | some rule, none =>
      .ok { seen with
        findings := seen.findings ++ if rule.notNull then [nullFinding globalRow column] else [] }
  | some rule, some value => do
      let valueKey ← canonicalValueBytes entry.1.dataType (some value)
      let found ← rule.valueFindings entry.1.dataType value globalRow column
        (decide ((column, valueKey) ∈ seen.seen))
      .ok {
        findings := seen.findings ++ found
        seen := if rule.unique then (column, valueKey) :: seen.seen else seen.seen }

/-- What a row adds. -/
def checkRow (rules : String → Option ColumnContract) (fields : List Field) (seen : RulesSeen)
    (cells : Row × ℕ) : Except Fault RulesSeen :=
  (fields.zip cells.1).foldlM (checkCell rules cells.2) seen

def checkRows (rules : String → Option ColumnContract) (fields : List Field) (rows : List Row)
    (firstRow : ℕ) (seen : RulesSeen) : Except Fault RulesSeen :=
  (rows.zipIdx firstRow).foldlM (checkRow rules fields) seen

/-- The required columns the schema does not have. -/
def missingColumns (schema : Schema) (columns : List (String × ColumnContract)) : List Finding :=
  (columns.filter fun entry => entry.2.required && (schema.indexOf entry.1).isNone).map fun entry =>
    { rule := "required", column := entry.1, row := none
      message := s!"Required column `{entry.1}` is missing" }

/-- The patterns of the contract compile. -/
def checkPattern (entry : String × ColumnContract) : Except Fault Unit :=
  match entry.2.pattern.bind Crates.regexError with
  | none => .ok ()
  | some message => .error (.error (.regex message))

/-- The findings of a contract in the rows of a dataset. -/
def Contract.findings (contract : Contract) (schema : Schema) (rows : List Row) :
    Except Fault (List Finding) := do
  contract.columns.forM checkPattern
  let checked ← checkRows contract.rule schema.fields rows 0
    { findings := missingColumns schema contract.columns, seen := [] }
  .ok checked.findings

end Findings

/-! ## Recording -/

/-- The outcome shows the findings, with as many of them as the limit allows. -/
structure ValidationOutcome.Shows (limit : ℕ) (findings : List Finding)
    (outcome : ValidationOutcome) : Prop where
  findings_eq : outcome.findings = findings.take limit
  count_eq : outcome.violationCount = findings.length
  truncated_iff : outcome.truncated = true ↔ (findings.take limit).length < findings.length

namespace ValidationState

/-- The state has recorded the findings, and charges none of them to a budget. -/
structure Records (limit : ℕ) (all : List Finding) (state : ValidationState) : Prop where
  tracks : state.Tracks limit [] all
  unaccounted : state.findingMemory = none
  settled : state.resourceError = none

variable {limit : ℕ} {all : List Finding} {state : ValidationState}

theorem records_new (limit : ℕ) : Records limit [] (new limit) := by
  refine ⟨⟨rfl, rfl, rfl, fun _ => List.take_nil.symm, ?_⟩, rfl, rfl⟩
  rintro _ ⟨⟩

variable {ω : Type} [Host ω]

theorem Records.sat_record (h : Records limit all state) (finding : Finding) {E : Fault → Prop} :
    Sat (state.record finding : Run ω Fault _) (Records limit (all ++ [finding])) E := by
  have hplain : Sat (state.record finding : Run ω Fault _)
      (fun next => next.findingMemory = none ∧ next.resourceError = none) E := by
    unfold record
    apply Sat.ite
    · intro _
      apply Sat.bind (Q := fun charged : ValidationState × Bool =>
        charged.1.findingMemory = none ∧ charged.1.resourceError = none)
      · unfold reserveFinding
        dsimp only
        rw [h.unaccounted]
        exact sat_pure ⟨rfl, h.settled⟩
      · rintro ⟨charged, reserved⟩ hcharged
        cases reserved
        · exact sat_pure hcharged
        · exact sat_pure hcharged
    · intro _
      exact sat_pure ⟨h.unaccounted, h.settled⟩
  have htracks : Sat (state.record finding : Run ω Fault _)
      (Tracks limit [] (all ++ [finding])) E := h.tracks.sat_record
  exact (htracks.and hplain).mono (fun next hnext => ⟨hnext.1, hnext.2.1, hnext.2.2⟩)
    fun _ herror => herror.1

theorem Records.shows_finish (h : Records limit all state) : state.finish.Shows limit all := by
  have hfindings := h.tracks.findings_eq h.settled
  refine ⟨hfindings, h.tracks.count_eq, ?_⟩
  rw [ValidationState.finish, decide_eq_true_iff, h.tracks.count_eq, hfindings]

end ValidationState

/-! ## A validation refines its meaning -/

section Refinement

variable {ω : Type} [DiffCrates] {Env : Fault → Prop} {limit : ℕ}

/-- The rules have recorded the findings and kept the values. -/
structure RuleValidation.Holds (rules : String → Option ColumnContract) (limit : ℕ)
    (model : RulesSeen) (state : RuleValidation) : Prop where
  records : state.validation.Records limit model.findings
  patterns : ∀ name, SortedMap.find name state.patterns = (rules name).bind ColumnContract.pattern
  seen : ∀ name rule, rules name = some rule → rule.unique = true →
    ∃ keys, SortedMap.find name state.seenUnique = some keys ∧
      ∀ key, key ∈ keys ↔ (name, key) ∈ model.seen

variable [Host ω] {all : List Finding} {validation : ValidationState} {dataType : DataType}
  {value : Value} {globalRow : ℕ} {column : String} {rule : ColumnContract}
  {rules : String → Option ColumnContract} {model : RulesSeen} {state : RuleValidation}
  {valueKey : List UInt8}

theorem refines_recordValue (h : validation.Records limit all) (name : String)
    (message : String → String) :
    Refines Env (recordValue dataType value globalRow column name message validation : Run ω Fault _)
      (([·]) <$> aboutValue dataType value globalRow column name message)
      (fun found next => next.Records limit (all ++ found)) := by
  unfold recordValue aboutValue
  cases valueForRules dataType value with
  | error fault => exact sat_throw (.inr rfl)
  | ok text => exact Refines.of_sat (h.sat_record _)

/-- A bound that is not broken records nothing. -/
theorem refines_recordBound (h : validation.Records limit all) (name : String)
    (message : F64 → String → String) (broken : Option F64) :
    Refines Env
      (recordBound dataType value globalRow column name message broken validation : Run ω Fault _)
      (aboutBound dataType value globalRow column name message broken)
      (fun found next => next.Records limit (all ++ found)) := by
  cases broken with
  | none => exact refines_pure (by rwa [List.append_nil])
  | some bound => exact refines_recordValue h name (message bound)

theorem refines_validateNumericRule (h : validation.Records limit all) :
    Refines Env (validateNumericRule dataType value globalRow column rule validation : Run ω Fault _)
      (rule.numericFindings dataType value globalRow column)
      (fun found next => next.Records limit (all ++ found)) := by
  unfold validateNumericRule ColumnContract.numericFindings
  by_cases hnone : (rule.min.isNone && rule.max.isNone) = true
  · rw [if_pos hnone]
    rw [Bool.and_eq_true, Option.isNone_iff_eq_none, Option.isNone_iff_eq_none] at hnone
    rw [hnone.1, hnone.2]
    apply refines_pure
    show validation.Records limit (all ++ [])
    rwa [List.append_nil]
  · rw [if_neg hnone]
    apply (refines_recordBound h "min" belowMessage _).bind
    intro low next _ hnext
    apply (refines_recordBound hnext "max" aboveMessage _).goOn
    intro high next hnext
    exact ⟨_, rfl, by rwa [← List.append_assoc]⟩

omit [DiffCrates] in
theorem sat_recordSome (h : validation.Records limit all) (finding : Option Finding) :
    Sat (recordSome finding validation : Run ω Fault _)
      (ValidationState.Records limit (all ++ finding.toList)) Env := by
  cases finding with
  | none => exact sat_pure (by rwa [Option.toList_none, List.append_nil])
  | some finding => exact h.sat_record finding

theorem refines_validateTextRule (h : validation.Records limit all)
    {patterns : List (String × String)} (hpattern : SortedMap.find column patterns = rule.pattern) :
    Refines Env
      (validateTextRule dataType value globalRow column rule patterns validation : Run ω Fault _)
      (rule.textFindings dataType value globalRow column)
      (fun found next => next.Records limit (all ++ found)) := by
  unfold validateTextRule ColumnContract.textFindings
  dsimp only
  rw [hpattern]
  by_cases hnone : (rule.pattern.isNone && rule.allowed.isNone) = true
  · rw [if_pos hnone, if_pos hnone]
    exact refines_pure (by rwa [List.append_nil])
  · rw [if_neg hnone, if_neg hnone]
    -- the text is rendered once for the pattern and the allowed values
    apply (refines_lift (S := Eq) fun _ _ => rfl).bind
    rintro text _ _ rfl
    apply Refines.of_sat
    apply (sat_recordSome h _).bind
    intro next hnext
    rw [← List.append_assoc]
    exact sat_recordSome hnext _

omit [DiffCrates] [Host ω] in
/-- A value that comes again is kept twice by the meaning and once by the set. -/
theorem RuleValidation.Holds.keep_again (h : state.Holds rules limit model)
    (hseen : (column, valueKey) ∈ model.seen) (hrecords : validation.Records limit all) :
    RuleValidation.Holds rules limit { findings := all, seen := (column, valueKey) :: model.seen }
      { state with validation } := by
  refine ⟨hrecords, h.patterns, fun name rule hrule hunique => ?_⟩
  obtain ⟨keys, hfind, hkeys⟩ := h.seen name rule hrule hunique
  refine ⟨keys, hfind, fun key => (hkeys key).trans ?_⟩
  rw [List.mem_cons]
  refine ⟨.inr, ?_⟩
  rintro (heq | hold)
  · rwa [heq]
  · exact hold

omit [DiffCrates] [Host ω] in
theorem RuleValidation.Holds.keep_new (h : state.Holds rules limit model) {keys : List (List UInt8)}
    (hfind : SortedMap.find column state.seenUnique = some keys)
    (hkeys : ∀ key, key ∈ keys ↔ (column, key) ∈ model.seen) :
    RuleValidation.Holds rules limit { model with seen := (column, valueKey) :: model.seen }
      { state with
        seenUnique := SortedMap.insert column (valueKey :: keys) state.seenUnique } := by
  refine ⟨h.records, h.patterns, fun name rule hrule hunique => ?_⟩
  by_cases hname : name = column
  · subst hname
    refine ⟨valueKey :: keys, SortedMap.find_insert_self .., fun key => ?_⟩
    rw [List.mem_cons, List.mem_cons, Prod.mk.injEq, hkeys]
    simp only [true_and]
  -- the sets of the other columns are what they were
  · obtain ⟨others, hothers, hseen⟩ := h.seen name rule hrule hunique
    refine ⟨others, ?_, fun key => (hseen key).trans ?_⟩
    · rw [SortedMap.find_insert_of_ne hname, hothers]
    · rw [List.mem_cons, Prod.mk.injEq, or_iff_right fun heq => hname heq.1]

theorem RuleValidation.Holds.refines_validateUniqueRule (h : state.Holds rules limit model)
    (hrule : rules column = some rule) (valueKey : List UInt8) :
    Refines Env
      (validateUniqueRule dataType value globalRow column valueKey rule state : Run ω Fault _)
      (rule.uniqueFindings dataType value globalRow column
        (decide ((column, valueKey) ∈ model.seen)))
      (fun found next => next.Holds rules limit
        { findings := model.findings ++ found
          seen := if rule.unique then (column, valueKey) :: model.seen else model.seen }) := by
  unfold validateUniqueRule ColumnContract.uniqueFindings
  cases hunique : rule.unique with
  | false =>
      refine refines_pure ⟨?_, h.patterns, h.seen⟩
      dsimp only
      rw [List.append_nil]
      exact h.records
  | true =>
      obtain ⟨keys, hfind, hkeys⟩ := h.seen column rule hrule hunique
      rw [hfind, Bool.true_and, if_neg (by decide)]
      show Refines Env (if keys.contains valueKey then _ else _) _ _
      by_cases hrepeats : valueKey ∈ keys
      · have hseen := (hkeys valueKey).mp hrepeats
        rw [if_pos (List.contains_iff_mem.mpr hrepeats), if_pos (decide_eq_true hseen)]
        rw [← bind_pure (_ <$> _)]
        apply (refines_recordValue h.records "unique" duplicateMessage).bind
        intro found next _ hnext
        exact refines_pure (h.keep_again hseen hnext)
      · rw [if_neg (mt List.contains_iff_mem.mp hrepeats),
          if_neg (by rwa [decide_eq_true_eq, ← hkeys])]
        apply refines_pure
        rw [List.append_nil]
        exact h.keep_new hfind hkeys

theorem RuleValidation.Holds.refines_validateColumnRule (h : state.Holds rules limit model)
    (hrule : rules column = some rule) (valueKey : List UInt8) :
    Refines Env
      (validateColumnRule dataType value globalRow column valueKey rule state : Run ω Fault _)
      (rule.valueFindings dataType value globalRow column
        (decide ((column, valueKey) ∈ model.seen)))
      (fun found next => next.Holds rules limit
        { findings := model.findings ++ found
          seen := if rule.unique then (column, valueKey) :: model.seen else model.seen }) := by
  unfold validateColumnRule ColumnContract.valueFindings
  apply (h.refines_validateUniqueRule hrule valueKey).bind
  intro duplicates next _ hnext
  apply (refines_validateNumericRule hnext.records).bind
  intro outside bounded _ hbounded
  have hpattern : SortedMap.find column next.patterns = rule.pattern := by
    rw [hnext.patterns, hrule, Option.bind_some]
  apply (refines_validateTextRule hbounded hpattern).bind
  intro texts validated _ hvalidated
  refine refines_pure ⟨?_, hnext.patterns, hnext.seen⟩
  dsimp only at hvalidated ⊢
  rwa [← List.append_assoc, ← List.append_assoc]

theorem RuleValidation.Holds.refines_validateValue (h : state.Holds rules limit model)
    (field : Field)
    (hkey : canonicalValueBytes field.dataType (some value) = .ok valueKey) :
    Refines Env
      (validateValue field.dataType value globalRow field.name valueKey (rules field.name) state :
        Run ω Fault _)
      (checkCell rules globalRow model (field, some value))
      (fun seen next => next.Holds rules limit seen) := by
  unfold validateValue checkCell
  cases hrule : rules field.name with
  | none =>
      dsimp only
      rw [hrule]
      exact refines_pure h
  | some rule =>
      dsimp only
      rw [hrule]
      dsimp only
      rw [hkey, ok_bind]
      apply (h.refines_validateColumnRule hrule valueKey).goOn
      intro found next hnext
      exact ⟨_, rfl, hnext⟩

omit [Host ω] in
theorem checkCell_none (rules : String → Option ColumnContract) (globalRow : ℕ) (model : RulesSeen)
    (field : Field) : checkCell rules globalRow model (field, none) = .ok { model with
      findings := model.findings ++
        if (rules field.name).any ColumnContract.notNull then [nullFinding globalRow field.name]
        else [] } := by
  unfold checkCell
  cases hrule : rules field.name with
  | none =>
      dsimp only
      rw [hrule, Option.any_none, if_neg Bool.false_ne_true, List.append_nil]
  | some rule =>
      dsimp only
      rw [hrule, Option.any_some]

omit [DiffCrates] in
theorem RuleValidation.Holds.sat_validateNull (h : state.Holds rules limit model)
    (globalRow : ℕ) (column : String) :
    Sat (validateNull globalRow column (rules column) state : Run ω Fault _)
      (fun next => next.Holds rules limit { model with
        findings := model.findings ++
          if (rules column).any ColumnContract.notNull then [nullFinding globalRow column]
          else [] }) Env := by
  unfold validateNull
  cases hnull : (rules column).any ColumnContract.notNull with
  | false =>
      refine sat_pure ⟨?_, h.patterns, h.seen⟩
      dsimp only
      rw [if_neg Bool.false_ne_true, List.append_nil]
      exact h.records
  | true =>
      rw [if_pos rfl, if_pos rfl]
      apply (h.records.sat_record _).bind
      intro validation hvalidation
      exact sat_pure ⟨hvalidation, h.patterns, h.seen⟩

end Refinement

/-! ## Cells, batches and rows -/

section Cells

variable [DiffCrates]

/-- What `inspectRuledCell` sees in a cell: what the inspection sees, and what the rules find. -/
def meanRuledCell (rules : String → Option ColumnContract) (row : ℕ)
    (state : Inspection (List Record) × RulesSeen) (entry : ArrowArray × ℕ) :
    Except Fault (Inspection (List Record) × RulesSeen) := do
  let inspection ← meanCell row state.1 entry
  let cell ← entry.1.cell row
  let seen ← checkCell rules (state.1.rows + row) state.2 (entry.1.field, cell)
  .ok (inspection, seen)

def meanRuledBatch (schema : Schema) (rules : String → Option ColumnContract)
    (state : Inspection (List Record) × RulesSeen) (item : Except String RecordBatch) :
    Except Fault (Inspection (List Record) × RulesSeen) := do
  let batch ← arrowItem item
  rejectIf (batch.schema ≠ schema) profileSchemaChanged
  let state ← (List.range batch.rows).foldlM (fun state row =>
    batch.columns.zipIdx.foldlM (meanRuledCell rules row) state) state
  pure ({ state.1 with rows := state.1.rows + batch.rows }, state.2)

variable {ω : Type} [Resuming ω] {contract : Option Contract} {limit : ℕ}

/-- The rules of the contract, if there is one. -/
def rulesOf (contract : Option Contract) (name : String) : Option ColumnContract :=
  contract.bind (·.rule name)

/-- A traversal that has seen what its meaning has seen, and found what it has found. -/
def Validates (contract : Option Contract) (limit : ℕ)
    (model : Inspection (List Record) × RulesSeen)
    (state : Inspection ExactState × RuleValidation) : Prop :=
  model.1.Models state.1 ∧ state.2.Holds (rulesOf contract) limit model.2

theorem refines_inspectRuledCell (row : ℕ) {model : Inspection (List Record) × RulesSeen}
    {state : Inspection ExactState × RuleValidation} (h : Validates contract limit model state)
    (entry : ArrowArray × ℕ) :
    Refines Unbudgeted (inspectRuledCell contract row state entry : Run ω Fault _)
      (meanRuledCell (rulesOf contract) row model entry) (Validates contract limit) := by
  obtain ⟨model, seen⟩ := model
  obtain ⟨inspection, rules⟩ := state
  obtain ⟨hmodels, hholds⟩ := h
  unfold inspectRuledCell meanRuledCell meanCell
  dsimp only at hmodels hholds ⊢
  rw [hmodels.hasher_eq, hmodels.rows_eq]
  simp only [bind_assoc]
  apply (refines_lift (S := Eq) fun _ _ => rfl).bind
  rintro hasher _ _ rfl
  apply (refines_someOr (hmodels.rel_getElem? entry.2)).bind
  intro columnModel column _ hcolumn
  apply (refines_lift (S := Eq) fun _ _ => rfl).bind
  rintro cell _ hcell rfl
  cases cell with
  | none =>
      -- a null is observed by the profile and by the rules, and neither can fail
      rw [pure_bind, hcell, ok_bind, checkCell_none, ok_bind]
      apply Refines.of_sat
      apply (hholds.sat_validateNull _ _).bind
      intro rules hrules
      have hset := hmodels.set hasher entry.2 hcolumn.observeNull
      rw [hmodels.rows_eq] at hset
      exact sat_pure ⟨hset, hrules⟩
  | some value =>
      rw [bind_assoc]
      apply (refines_lift (S := Eq) fun _ _ => rfl).bind
      rintro valueKey _ hkey rfl
      -- the traversal encodes the value once, for the count and the rules; the meaning twice
      apply Refines.after (hcolumn.sat_insert valueKey _)
      intro next hnext
      rw [pure_bind, hcell, ok_bind]
      apply (hholds.refines_validateValue _ hkey).bind
      intro found validated _ hvalidated
      have hset := hmodels.set hasher entry.2 (hnext.observeValue entry.1.dataType value)
      rw [hmodels.rows_eq] at hset
      exact refines_pure ⟨hset, hvalidated⟩

theorem refines_inspectRuledBatch (schema : Schema) {model : Inspection (List Record) × RulesSeen}
    {state : Inspection ExactState × RuleValidation} (h : Validates contract limit model state)
    (item : Except String RecordBatch) :
    Refines Unbudgeted (inspectRuledBatch schema contract state item : Run ω Fault _)
      (meanRuledBatch schema (rulesOf contract) model item) (Validates contract limit) := by
  unfold inspectRuledBatch traverseBatch meanRuledBatch
  apply (refines_lift (S := Eq) fun _ _ => rfl).bind
  rintro batch _ _ rfl
  apply refines_failIf.bind
  intro _ _ _ _
  apply (refines_foldlM (R := Validates contract limit) (fun row _ _ _ h =>
    refines_foldlM (R := Validates contract limit)
      (fun entry _ _ _ h => refines_inspectRuledCell row h entry) h) h).bind
  intro model state _ h
  exact refines_pure
    ⟨⟨h.1.hasher_eq, congrArg (· + batch.rows) h.1.rows_eq, h.1.states⟩, h.2⟩

/-- The profiled cells and the rules do not look at each other. -/
theorem meanRuledCell_eq_ok {rules : String → Option ColumnContract} {row : ℕ}
    {inspection inspection' : Inspection (List Record)} {seen seen' : RulesSeen}
    {entry : ArrowArray × ℕ} :
    meanRuledCell rules row (inspection, seen) entry = .ok (inspection', seen') ↔
      meanCell row inspection entry = .ok inspection' ∧ ∃ cell, entry.1.cell row = .ok cell ∧
        checkCell rules (inspection.rows + row) seen (entry.1.field, cell) = .ok seen' := by
  unfold meanRuledCell
  constructor
  · intro h
    obtain ⟨next, hnext, h⟩ := bind_eq_ok.mp h
    obtain ⟨cell, hcell, h⟩ := bind_eq_ok.mp h
    obtain ⟨checked, hchecked, h⟩ := bind_eq_ok.mp h
    cases h
    exact ⟨hnext, cell, hcell, hchecked⟩
  · rintro ⟨hnext, cell, hcell, hchecked⟩
    refine bind_eq_ok.mpr ⟨_, hnext, ?_⟩
    exact bind_eq_ok.mpr ⟨cell, hcell, bind_eq_ok.mpr ⟨_, hchecked, rfl⟩⟩

section Split

variable {rules : String → Option ColumnContract} {firstRow : ℕ}
  {inspection inspection' : Inspection (List Record)} {seen seen' : RulesSeen}

theorem rows_meanCell {row : ℕ} {entry : ArrowArray × ℕ}
    (h : meanCell row inspection entry = .ok inspection') : inspection'.rows = inspection.rows := by
  obtain ⟨_, -, h⟩ := bind_eq_ok.mp h
  obtain ⟨_, -, h⟩ := bind_eq_ok.mp h
  obtain ⟨cell, -, h⟩ := bind_eq_ok.mp h
  cases cell with
  | none =>
      cases h
      rfl
  | some value =>
      obtain ⟨_, -, h⟩ := bind_eq_ok.mp h
      cases h
      rfl

theorem meanRuledRow_eq_ok {batch : RecordBatch} {row : ℕ} (hrow : row < batch.rows)
    (hfirst : inspection.rows = firstRow) :
    batch.columns.zipIdx.foldlM (meanRuledCell rules row) (inspection, seen) =
        .ok (inspection', seen') ↔
      batch.columns.zipIdx.foldlM (meanCell row) inspection = .ok inspection' ∧
        checkRow rules batch.schema.fields seen (batch.row row, firstRow + row) = .ok seen' := by
  have hcells : checkRow rules batch.schema.fields seen (batch.row row, firstRow + row) =
      batch.columns.zipIdx.foldlM (fun seen entry => checkCell rules (firstRow + row) seen
        (entry.1.field, (entry.1.cells[row]?).join)) seen := by
    have hview : batch.view row = batch.columns.zipIdx.map fun entry =>
        (entry.1.field, (entry.1.cells[row]?).join) := by
      conv_lhs => rw [RecordBatch.view, ← List.zipIdx_map_fst 0 batch.columns, List.map_map]
      rfl
    rw [checkRow, ← RecordBatch.view_eq, hview, List.foldlM_map]
  rw [hcells]
  -- the count of rows the rules read stays the same within a row
  apply foldlM_pair_eq_ok (P := fun inspection => inspection.rows = firstRow)
  · intro entry _ before after hbefore hafter
    rw [rows_meanCell hafter, hbefore]
  · intro entry hentry before seen after seen' hbefore
    have hcell : entry.1.cell row = .ok (entry.1.cells[row]?).join := by
      rw [ArrowArray.cell, RecordBatch.cells_getElem hrow (List.fst_mem_of_mem_zipIdx hentry)]
      rfl
    rw [meanRuledCell_eq_ok, hbefore, hcell]
    refine and_congr_right fun _ => ⟨?_, fun h => ⟨_, rfl, h⟩⟩
    rintro ⟨_, ⟨⟩, h⟩
    exact h
  · exact hfirst

theorem rows_meanRow {batch : RecordBatch} {row : ℕ}
    (h : batch.columns.zipIdx.foldlM (meanCell row) inspection = .ok inspection') :
    inspection'.rows = inspection.rows := by
  apply foldlM_invariant (P := fun _ state => state.rows = inspection.rows) rfl _ h
  intro _ entry current next _ hcurrent hnext
  rw [rows_meanCell hnext, hcurrent]

theorem rows_meanRows {batch : RecordBatch} (h : (List.range batch.rows).foldlM (fun state row =>
    batch.columns.zipIdx.foldlM (meanCell row) state) inspection = .ok inspection') :
    inspection'.rows = inspection.rows := by
  apply foldlM_invariant (P := fun _ state => state.rows = inspection.rows) rfl _ h
  intro _ row current next _ hcurrent hnext
  rw [rows_meanRow hnext, hcurrent]

omit [DiffCrates] in
theorem tuples_zipIdx (batch : RecordBatch) (firstRow : ℕ) : batch.tuples.zipIdx firstRow =
    (List.range batch.rows).map fun row => (batch.row row, firstRow + row) := by
  apply List.ext_getElem
  · simp [RecordBatch.tuples]
  · intro row _ _
    simp [RecordBatch.tuples]

theorem meanRuledBatch_eq_ok {batch : RecordBatch} {schema : Schema} :
    meanRuledBatch schema rules (inspection, seen) (.ok batch) = .ok (inspection', seen') ↔
      meanBatch schema inspection (.ok batch) = .ok inspection' ∧
        checkRows rules batch.schema.fields batch.tuples inspection.rows seen = .ok seen' := by
  have hrows : ∀ {after after'}, (List.range batch.rows).foldlM (fun state row =>
        batch.columns.zipIdx.foldlM (meanRuledCell rules row) state) (inspection, seen) =
          .ok (after, after') ↔
      (List.range batch.rows).foldlM (fun state row =>
        batch.columns.zipIdx.foldlM (meanCell row) state) inspection = .ok after ∧
      checkRows rules batch.schema.fields batch.tuples inspection.rows seen = .ok after' := by
    intro after after'
    rw [checkRows, tuples_zipIdx, List.foldlM_map]
    apply foldlM_pair_eq_ok (P := fun state => state.rows = inspection.rows)
    · intro row _ before next hbefore hnext
      rw [rows_meanRow hnext, hbefore]
    · intro row hrow before _ _ _ hbefore
      exact meanRuledRow_eq_ok (List.mem_range.mp hrow) hbefore
    · rfl
  unfold meanRuledBatch meanBatch
  constructor
  · intro h
    obtain ⟨_, hitem, h⟩ := bind_eq_ok.mp h
    cases arrowItem_eq_ok.mp hitem
    obtain ⟨_, hschema, h⟩ := bind_eq_ok.mp h
    obtain ⟨⟨after, after'⟩, hfold, h⟩ := bind_eq_ok.mp h
    cases h
    obtain ⟨hinspected, hchecked⟩ := hrows.mp hfold
    exact ⟨bind_eq_ok.mpr ⟨batch, hitem, bind_eq_ok.mpr ⟨_, hschema, bind_eq_ok.mpr
      ⟨after, hinspected, rfl⟩⟩⟩, hchecked⟩
  · rintro ⟨h, hchecked⟩
    obtain ⟨_, hitem, h⟩ := bind_eq_ok.mp h
    cases arrowItem_eq_ok.mp hitem
    obtain ⟨_, hschema, h⟩ := bind_eq_ok.mp h
    obtain ⟨after, hinspected, h⟩ := bind_eq_ok.mp h
    cases h
    exact bind_eq_ok.mpr ⟨batch, hitem, bind_eq_ok.mpr ⟨_, hschema, bind_eq_ok.mpr
      ⟨(after, seen'), hrows.mpr ⟨hinspected, hchecked⟩, rfl⟩⟩⟩

theorem rows_meanBatch {schema : Schema} {batch : RecordBatch}
    (h : meanBatch schema inspection (.ok batch) = .ok inspection') :
    inspection'.rows = inspection.rows + batch.rows := by
  obtain ⟨_, hitem, h⟩ := bind_eq_ok.mp h
  cases arrowItem_eq_ok.mp hitem
  obtain ⟨_, -, h⟩ := bind_eq_ok.mp h
  obtain ⟨after, hinspected, h⟩ := bind_eq_ok.mp h
  cases h
  dsimp only
  rw [rows_meanRows hinspected]

/-- A finished traversal is one of the profile and one of the rows. -/
theorem meanRuledBatches_eq_ok {schema : Schema} {batches : List RecordBatch}
    (hschema : ∀ batch ∈ batches, batch.schema = schema) :
    ∀ {inspection : Inspection (List Record)} {seen : RulesSeen},
      (batches.map .ok).foldlM (meanRuledBatch schema rules) (inspection, seen) =
          .ok (inspection', seen') ↔
        (batches.map .ok).foldlM (meanBatch schema) inspection = .ok inspection' ∧
          checkRows rules schema.fields (batches.flatMap RecordBatch.tuples) inspection.rows seen =
            .ok seen' := by
  induction batches with
  | nil =>
      intro inspection seen
      simp [checkRows, pure, Except.pure]
  | cons batch batches ih =>
      intro inspection seen
      have hhead := hschema batch (List.mem_cons_self ..)
      have htail := @ih fun other hother => hschema other (List.mem_cons_of_mem _ hother)
      rw [List.map_cons, List.foldlM_cons, List.foldlM_cons, List.flatMap_cons, checkRows,
        List.zipIdx_append, List.foldlM_append, bind_eq_ok, bind_eq_ok, bind_eq_ok,
        batch.length_tuples]
      -- the rows of the other batches are numbered from where the first batch ends
      constructor
      · rintro ⟨⟨middle, checked⟩, hfirst, hrest⟩
        obtain ⟨hinspected, hchecked⟩ := meanRuledBatch_eq_ok.mp hfirst
        obtain ⟨hinspected', hchecked'⟩ := htail.mp hrest
        rw [hhead] at hchecked
        rw [rows_meanBatch hinspected] at hchecked'
        exact ⟨⟨middle, hinspected, hinspected'⟩, checked, hchecked, hchecked'⟩
      · rintro ⟨⟨middle, hinspected, hinspected'⟩, checked, hchecked, hchecked'⟩
        refine ⟨(middle, checked), meanRuledBatch_eq_ok.mpr ⟨hinspected, ?_⟩,
          htail.mpr ⟨hinspected', ?_⟩⟩
        · rw [hhead]
          exact hchecked
        · rw [rows_meanBatch hinspected]
          exact hchecked'

end Split

end Cells

/-! ## Preparation -/

section Preparation

variable {ω : Type} [Host ω] [DiffCrates] {Env : Fault → Prop} {limit : ℕ} {schema : Schema}

omit [DiffCrates] in
theorem sat_recordMissing {validation : ValidationState} {done : List (String × ColumnContract)}
    (h : validation.Records limit (missingColumns schema done)) (entry : String × ColumnContract) :
    Sat (recordMissing schema entry.1 entry.2 validation : Run ω Fault _)
      (ValidationState.Records limit (missingColumns schema (done ++ [entry]))) Env := by
  unfold recordMissing missingColumns
  rw [List.filter_append, List.map_append, List.filter_singleton]
  cases hmissing : entry.2.required && (schema.indexOf entry.1).isNone with
  | false =>
      rw [if_neg Bool.false_ne_true, cond_false, List.map_nil, List.append_nil]
      exact sat_pure h
  | true =>
      rw [if_pos rfl, cond_true]
      exact h.sat_record _

omit [Host ω] in
theorem refines_preparePattern {column : String} {rule : ColumnContract}
    {patterns : List (String × String)} :
    Refines Env (preparePattern column rule patterns : Run ω Fault _) (checkPattern (column, rule))
      (fun _ next => next = match rule.pattern with
        | none => patterns
        | some pattern => SortedMap.insert column pattern patterns) := by
  unfold preparePattern checkPattern
  cases hpattern : rule.pattern with
  | none => exact refines_pure rfl
  | some pattern =>
      dsimp only [Option.bind_some]
      cases herror : Crates.regexError pattern with
      | none => exact refines_pure rfl
      | some message => exact sat_throw (.inr rfl)

omit [Host ω] [DiffCrates] in
theorem find_append_fresh {columns : List (String × ColumnContract)}
    {entry : String × ColumnContract} (hfresh : SortedMap.find entry.1 columns = none)
    (name : String) : SortedMap.find name (columns ++ [entry]) =
      if name = entry.1 then some entry.2 else SortedMap.find name columns := by
  rw [SortedMap.find_append, SortedMap.find_cons, SortedMap.find_nil]
  by_cases hname : name = entry.1
  · rw [if_pos hname.symm, if_pos hname, hname, hfresh, Option.none_or]
  · rw [if_neg (Ne.symm hname), if_neg hname, Option.or_none]

theorem refines_prepareColumn {done : List (String × ColumnContract)} {state : RuleValidation}
    {entry : String × ColumnContract} (hfresh : SortedMap.find entry.1 done = none)
    (h : state.Holds (SortedMap.find · done) limit
      { findings := missingColumns schema done, seen := [] }) :
    Refines Env (prepareColumn schema state entry : Run ω Fault _) (checkPattern entry)
      (fun _ next => next.Holds (SortedMap.find · (done ++ [entry])) limit
        { findings := missingColumns schema (done ++ [entry]), seen := [] }) := by
  have hfind := find_append_fresh hfresh
  unfold prepareColumn
  apply Refines.after (sat_recordMissing h.records entry)
  intro validation hvalidation
  rw [← bind_pure (checkPattern entry)]
  apply refines_preparePattern.bind
  rintro _ patterns _ rfl
  refine refines_pure ⟨hvalidation, fun name => ?_, fun name rule hrule hunique => ?_⟩
  -- the patterns
  · rw [hfind]
    by_cases hname : name = entry.1
    · rw [if_pos hname, hname, Option.bind_some]
      cases entry.2.pattern with
      | none => exact (h.patterns entry.1).trans (by rw [hfresh, Option.bind_none])
      | some pattern => exact SortedMap.find_insert_self
    · rw [if_neg hname, ← h.patterns name]
      cases entry.2.pattern with
      | none => rfl
      | some pattern => exact SortedMap.find_insert_of_ne hname
  -- the sets of values, which are empty
  · rw [hfind] at hrule
    by_cases hname : name = entry.1
    · rw [if_pos hname] at hrule
      cases hrule
      refine ⟨[], ?_, fun key => ?_⟩
      · rw [if_pos hunique, hname]
        exact SortedMap.find_insert_self
      · exact iff_of_false List.not_mem_nil List.not_mem_nil
    · rw [if_neg hname] at hrule
      obtain ⟨keys, hkeys, hseen⟩ := h.seen name rule hrule hunique
      refine ⟨keys, ?_, hseen⟩
      cases entry.2.unique with
      | false => exact hkeys
      | true => exact (SortedMap.find_insert_of_ne hname).trans hkeys

theorem refines_prepareColumns {columns : List (String × ColumnContract)} :
    ∀ {done : List (String × ColumnContract)} {state : RuleValidation},
      ((done ++ columns).map Prod.fst).Nodup →
      state.Holds (SortedMap.find · done) limit
        { findings := missingColumns schema done, seen := [] } →
      Refines Env (columns.foldlM (prepareColumn schema) state : Run ω Fault _)
        (columns.forM checkPattern)
        (fun _ next => next.Holds (SortedMap.find · (done ++ columns)) limit
          { findings := missingColumns schema (done ++ columns), seen := [] }) := by
  induction columns with
  | nil =>
      intro done state _ h
      rw [List.append_nil]
      exact refines_pure h
  | cons entry columns ih =>
      intro done state hnodup h
      rw [List.append_cons] at hnodup ⊢
      have hfresh : SortedMap.find entry.1 done = none := by
        rw [List.append_assoc, List.map_append, List.nodup_append] at hnodup
        rw [← Option.not_isSome_iff_eq_none, ← SortedMap.mem_keys_iff]
        intro hmem
        exact hnodup.2.2 entry.1 hmem entry.1 (List.mem_map_of_mem (List.mem_cons_self ..)) rfl
      rw [List.foldlM_cons]
      show Refines Env _ (checkPattern entry >>= fun _ => columns.forM checkPattern) _
      apply (refines_prepareColumn hfresh h).bind
      intro _ next _ hnext
      exact ih hnodup hnext

/-- A prepared validation has found the missing columns, and has kept no value. -/
theorem refines_prepareValidation {contract : Contract} :
    Refines Env (prepareValidation schema (some contract) : Run ω Fault _)
      (contract.columns.forM checkPattern)
      (fun _ next => next.Holds (rulesOf (some contract)) contract.maxFindings
        { findings := missingColumns schema contract.columns, seen := [] }) := by
  apply @refines_prepareColumns ω _ _ Env contract.maxFindings schema contract.columns []
    _ contract.names_distinct
  exact ⟨ValidationState.records_new _, fun _ => rfl, by rintro _ _ ⟨⟩⟩

end Preparation

end ProofFrame
