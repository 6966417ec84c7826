import ProofFrame.Execution.Clauses
import ProofFrame.Profile.RuleReport

/-!
# The verdict of a full validation

The traversal finds violations one by one and in an order.  Their number has
neither: it is counted from the cells,

```text
findings + different values = missing columns + broken clauses + values
```

where the values are those of the columns with a uniqueness rule.  So a report is
valid exactly when no required column is missing, every cell is what its rule
accepts, and no such column holds a value twice; and it does not matter how the
rows and the columns are ordered.
-/

namespace ProofFrame

open Lib Lib.Run Lib.Ieee754
open Diff (DiffCrates valueForRules)

section Verdict

variable [DiffCrates]

/-! ## What a cell contributes -/

/-- The cell breaks the clause. -/
def ColumnContract.breaks (rule : ColumnContract) (dataType : DataType) :
    Option Value → Clause → Bool
  | none, .notNull => rule.notNull
  | some value, .min =>
      rule.min.any fun minimum => (numericValue dataType value).any (·.lt minimum)
  | some value, .max =>
      rule.max.any fun maximum => (numericValue dataType value).any (·.gt maximum)
  | some value, .pattern => rule.pattern.any fun pattern =>
      (valueForRules dataType value).toOption.any (!Crates.regexMatch pattern ·)
  | some value, .allowed => rule.allowed.any fun allowed =>
      (valueForRules dataType value).toOption.any (!allowed.contains ·)
  | _, _ => false

/-- The clauses about the cell alone that it breaks. -/
def cellBroken (rules : String → Option ColumnContract) (entry : Field × Option Value) :
    List Clause :=
  match rules entry.1.name with
  | none => []
  | some rule => Clause.all.filter (rule.breaks entry.1.dataType entry.2)

/-- The value of a cell that may not come again in the columns of its name. -/
def uniqueValue (rules : String → Option ColumnContract) (entry : Field × Option Value) :
    Option (String × List UInt8) :=
  match rules entry.1.name, entry.2 with
  | some rule, some value =>
      if rule.unique then
        (canonicalValueBytes entry.1.dataType (some value)).toOption.map (entry.1.name, ·)
      else none
  | _, _ => none

/-- The violation of a value that comes again. -/
def repeated (rules : String → Option ColumnContract) (seen : List (String × List UInt8))
    (entry : Field × Option Value) (globalRow : ℕ) : List (String × String × Option ℕ) :=
  match uniqueValue rules entry with
  | none => []
  | some value => if seen.contains value then [("unique", entry.1.name, some globalRow)] else []

/-- The cells of rows, each with its field. -/
def cellsOf (fields : List Field) (rows : List Row) : List (Field × Option Value) :=
  rows.flatMap (fields.zip ·)

section Violations

variable {rule : ColumnContract} {dataType : DataType} {value : Value} {globalRow : ℕ}
  {column : String} {found : List Finding}

theorem what_aboutBound {name : String} {message : F64 → String → String} {broken : Option F64}
    (h : aboutBound dataType value globalRow column name message broken = .ok found) :
    found.map Finding.what = if broken.isSome then [(name, column, some globalRow)] else [] := by
  cases broken with
  | none =>
      cases h
      rfl
  | some bound =>
      obtain ⟨finding, hfinding, rfl⟩ := map_eq_ok.mp h
      obtain ⟨text, -, hfinding⟩ := bind_eq_ok.mp hfinding
      cases hfinding
      rfl

theorem what_uniqueFindings {repeats : Bool}
    (h : rule.uniqueFindings dataType value globalRow column repeats = .ok found) :
    found.map Finding.what =
      if rule.unique && repeats then [("unique", column, some globalRow)] else [] := by
  unfold ColumnContract.uniqueFindings at h
  cases hrepeats : rule.unique && repeats with
  | false =>
      rw [hrepeats] at h
      cases h
      rfl
  | true =>
      rw [hrepeats] at h
      obtain ⟨finding, hfinding, rfl⟩ := map_eq_ok.mp h
      obtain ⟨text, -, hfinding⟩ := bind_eq_ok.mp hfinding
      cases hfinding
      rfl

omit [DiffCrates] in
theorem violationsFor_pair {name : String} {row : ℕ} {breaks : Clause → Bool}
    {first second : Clause} : violationsFor name row ([first, second].filter breaks) =
      (if breaks first then [(first.rule, name, some row)] else []) ++
        if breaks second then [(second.rule, name, some row)] else [] := by
  cases hfirst : breaks first <;> cases hsecond : breaks second <;>
    simp [violationsFor, hfirst, hsecond]

theorem what_numericFindings
    (h : rule.numericFindings dataType value globalRow column = .ok found) :
    found.map Finding.what =
      violationsFor column globalRow ([.min, .max].filter (rule.breaks dataType (some value))) := by
  obtain ⟨low, hlow, h⟩ := bind_eq_ok.mp h
  obtain ⟨high, hhigh, h⟩ := bind_eq_ok.mp h
  cases h
  rw [List.map_append, what_aboutBound hlow, what_aboutBound hhigh, Option.isSome_filter,
    Option.isSome_filter, violationsFor_pair]
  rfl

omit [DiffCrates] in
theorem what_unlisted {allowed : Option (List String)} {text : String} :
    (unlisted allowed text globalRow column).toList.map Finding.what =
      if allowed.any fun allowed => !allowed.contains text then
        [("allowed", column, some globalRow)] else [] := by
  cases allowed with
  | none => rfl
  | some allowed =>
      rw [unlisted, Option.filter_some, Option.any_some]
      cases !allowed.contains text <;> rfl

theorem what_mismatched {pattern : Option String} {text : String} :
    (mismatched pattern text globalRow column).toList.map Finding.what =
      if pattern.any fun pattern => !Crates.regexMatch pattern text then
        [("pattern", column, some globalRow)] else [] := by
  cases pattern with
  | none => rfl
  | some pattern =>
      rw [mismatched, Option.filter_some, Option.any_some]
      cases !Crates.regexMatch pattern text <;> rfl

theorem what_textFindings (h : rule.textFindings dataType value globalRow column = .ok found) :
    found.map Finding.what = violationsFor column globalRow
      ([.pattern, .allowed].filter (rule.breaks dataType (some value))) := by
  unfold ColumnContract.textFindings at h
  rw [violationsFor_pair]
  by_cases hnone : (rule.pattern.isNone && rule.allowed.isNone) = true
  · rw [if_pos hnone] at h
    rw [Bool.and_eq_true, Option.isNone_iff_eq_none, Option.isNone_iff_eq_none] at hnone
    cases h
    unfold ColumnContract.breaks
    rw [hnone.1, hnone.2]
    rfl
  · rw [if_neg hnone] at h
    obtain ⟨text, htext, h⟩ := bind_eq_ok.mp h
    cases h
    -- once the text is rendered, a clause is broken by this text
    have hpattern : rule.breaks dataType (some value) .pattern =
        rule.pattern.any fun pattern => !Crates.regexMatch pattern text := by
      rw [ColumnContract.breaks, htext]
      rfl
    have hallowed : rule.breaks dataType (some value) .allowed =
        rule.allowed.any fun allowed => !allowed.contains text := by
      rw [ColumnContract.breaks, htext]
      rfl
    rw [List.map_append, what_mismatched, what_unlisted, hpattern, hallowed]
    rfl

theorem filter_breaks_some : Clause.all.filter (rule.breaks dataType (some value)) =
    [.min, .max].filter (rule.breaks dataType (some value)) ++
      [.pattern, .allowed].filter (rule.breaks dataType (some value)) := by
  have hnotNull : rule.breaks dataType (some value) .notNull = false := rfl
  have hnan : rule.breaks dataType (some value) .nan = false := rfl
  have hminLength : rule.breaks dataType (some value) .minLength = false := rfl
  have hmaxLength : rule.breaks dataType (some value) .maxLength = false := rfl
  cases hmin : rule.breaks dataType (some value) .min <;>
    cases hmax : rule.breaks dataType (some value) .max <;>
    simp [Clause.all, List.filter_cons, hnotNull, hnan, hminLength, hmaxLength, hmin, hmax]

theorem what_valueFindings {repeats : Bool}
    (h : rule.valueFindings dataType value globalRow column repeats = .ok found) :
    found.map Finding.what =
      (if rule.unique && repeats then [("unique", column, some globalRow)] else []) ++
        violationsFor column globalRow
          (Clause.all.filter (rule.breaks dataType (some value))) := by
  obtain ⟨duplicates, hduplicates, h⟩ := bind_eq_ok.mp h
  obtain ⟨outside, houtside, h⟩ := bind_eq_ok.mp h
  obtain ⟨texts, htexts, h⟩ := bind_eq_ok.mp h
  cases h
  rw [List.map_append, List.map_append, what_uniqueFindings hduplicates,
    what_numericFindings houtside, what_textFindings htexts, filter_breaks_some, List.append_assoc]
  congr 1
  exact List.map_append.symm

end Violations

/-! ## Counting -/

section Counting

variable {rules : String → Option ColumnContract} {seen seen' : RulesSeen} {globalRow : ℕ}

theorem seen_checkCell {entry : Field × Option Value}
    (h : checkCell rules globalRow seen entry = .ok seen') :
    seen'.seen = (uniqueValue rules entry).toList ++ seen.seen := by
  obtain ⟨field, cell⟩ := entry
  unfold checkCell at h
  unfold uniqueValue
  dsimp only at h ⊢
  cases hrule : rules field.name with
  | none =>
      rw [hrule] at h
      cases h
      rfl
  | some rule =>
      rw [hrule] at h
      cases cell with
      | none =>
          cases h
          rfl
      | some value =>
          obtain ⟨key, hkey, h⟩ := bind_eq_ok.mp h
          obtain ⟨found, -, h⟩ := bind_eq_ok.mp h
          cases h
          dsimp only
          rw [hkey]
          cases rule.unique <;> rfl

/-- A cell adds the violation of its value, if it comes again, and those of its clauses. -/
theorem what_checkCell {entry : Field × Option Value}
    (h : checkCell rules globalRow seen entry = .ok seen') :
    seen'.findings.map Finding.what = seen.findings.map Finding.what ++
      (repeated rules seen.seen entry globalRow ++
        violationsFor entry.1.name globalRow (cellBroken rules entry)) := by
  obtain ⟨field, cell⟩ := entry
  unfold checkCell at h
  unfold repeated uniqueValue cellBroken
  dsimp only at h ⊢
  cases hrule : rules field.name with
  | none =>
      rw [hrule] at h
      cases h
      exact (List.append_nil _).symm
  | some rule =>
      rw [hrule] at h
      cases cell with
      | none =>
          cases h
          dsimp only
          rw [List.map_append]
          simp only [Clause.all, List.filter_cons, List.filter_nil, ColumnContract.breaks]
          cases rule.notNull <;> rfl
      | some value =>
          obtain ⟨key, hkey, h⟩ := bind_eq_ok.mp h
          obtain ⟨found, hfound, h⟩ := bind_eq_ok.mp h
          cases h
          dsimp only
          rw [List.map_append, what_valueFindings hfound, hkey]
          congr 2
          -- the value of a column without a uniqueness rule is not looked for
          cases rule.unique
          · rfl
          · simp [Except.toOption, List.contains_eq_mem]

/-- A value is a violation or a different one. -/
theorem length_repeated {entry : Field × Option Value} :
    (repeated rules seen.seen entry globalRow).length +
        ((uniqueValue rules entry).toList ++ seen.seen).toFinset.card =
      seen.seen.toFinset.card + (uniqueValue rules entry).toList.length := by
  unfold repeated
  cases uniqueValue rules entry with
  | none => simp
  | some value =>
      dsimp only
      rw [Option.toList_some, List.singleton_append, List.toFinset_cons]
      -- a value of the set does not make the set larger
      by_cases hrepeats : value ∈ seen.seen
      · rw [if_pos (List.contains_iff_mem.mpr hrepeats),
            Finset.insert_eq_of_mem (List.mem_toFinset.mpr hrepeats)]
        exact Nat.add_comm ..
      · rw [if_neg (mt List.contains_iff_mem.mp hrepeats),
            Finset.card_insert_of_notMem (mt List.mem_toFinset.mp hrepeats)]
        exact Nat.zero_add _

/-- The counts after some cells. -/
structure RulesSeen.Counts (rules : String → Option ColumnContract) (first : RulesSeen)
    (cells : List (Field × Option Value)) (last : RulesSeen) : Prop where
  seen_eq : last.seen = (cells.filterMap (uniqueValue rules)).reverse ++ first.seen
  count_eq : last.findings.length + last.seen.toFinset.card =
    first.findings.length + first.seen.toFinset.card +
      ((cells.flatMap (cellBroken rules)).length + (cells.filterMap (uniqueValue rules)).length)

theorem RulesSeen.counts_nil : seen.Counts rules [] seen := ⟨rfl, rfl⟩

theorem RulesSeen.Counts.append {cells cells' : List (Field × Option Value)} {last : RulesSeen}
    (h : seen.Counts rules cells seen') (h' : seen'.Counts rules cells' last) :
    seen.Counts rules (cells ++ cells') last := by
  constructor
  case seen_eq =>
    rw [h'.seen_eq, h.seen_eq, List.filterMap_append, List.reverse_append, List.append_assoc]
  case count_eq =>
    have := h.count_eq
    have := h'.count_eq
    rw [List.flatMap_append, List.length_append, List.filterMap_append, List.length_append]
    omega

theorem counts_checkCell {entry : Field × Option Value}
    (h : checkCell rules globalRow seen entry = .ok seen') : seen.Counts rules [entry] seen' := by
  have hvalues : [entry].filterMap (uniqueValue rules) = (uniqueValue rules entry).toList := by
    rw [List.filterMap_cons, List.filterMap_nil]
    cases uniqueValue rules entry <;> rfl
  have hreverse : (uniqueValue rules entry).toList.reverse = (uniqueValue rules entry).toList := by
    cases uniqueValue rules entry <;> rfl
  constructor
  case seen_eq => rw [seen_checkCell h, hvalues, hreverse]
  case count_eq =>
    -- the violations of the cell, and its value, either repeated or different
    have hwhat := congrArg List.length (what_checkCell h)
    have hrepeated := @length_repeated _ rules seen globalRow entry
    simp only [List.length_map, List.length_append, violationsFor] at hwhat
    rw [seen_checkCell h, hvalues, List.flatMap_singleton]
    omega

theorem counts_checkRow {fields : List Field} {cells : Row × ℕ}
    (h : checkRow rules fields seen cells = .ok seen') :
    seen.Counts rules (fields.zip cells.1) seen' := by
  apply foldlM_invariant (P := fun done (current : RulesSeen) => seen.Counts rules done current)
    RulesSeen.counts_nil _ h
  intro done entry current next _ hcurrent hnext
  exact hcurrent.append (counts_checkCell hnext)

theorem counts_checkRows {fields : List Field} {rows : List Row} {firstRow : ℕ}
    (h : checkRows rules fields rows firstRow seen = .ok seen') :
    seen.Counts rules (cellsOf fields rows) seen' := by
  have hcells : cellsOf fields rows =
      ((rows.zipIdx firstRow).map fun cells => fields.zip cells.1).flatten := by
    rw [cellsOf, List.flatMap_def]
    conv_lhs => rw [← List.zipIdx_map_fst firstRow rows, List.map_map]
    rfl
  rw [hcells]
  apply foldlM_invariant (P := fun done (current : RulesSeen) =>
    seen.Counts rules (done.map fun cells => fields.zip cells.1).flatten current)
    RulesSeen.counts_nil _ h
  intro done cells current next _ hcurrent hnext
  rw [List.map_append, List.flatten_append, List.map_singleton, List.flatten_singleton]
  exact hcurrent.append (counts_checkRow hnext)

end Counting

/-! ## What a rule accepts -/

/-- The value is within the bounds, its text matches the pattern and is among the allowed ones.
Bounds are about what is read as a number: decimals and dates pass them, and so does a NaN. -/
structure ColumnContract.Accepts (rule : ColumnContract) (dataType : DataType) (value : Value) :
    Prop where
  above : ∀ minimum ∈ rule.min, ∀ number ∈ numericValue dataType value, number.lt minimum = false
  below : ∀ maximum ∈ rule.max, ∀ number ∈ numericValue dataType value, number.gt maximum = false
  matched : ∀ pattern ∈ rule.pattern, ∀ text, valueForRules dataType value = .ok text →
    Crates.regexMatch pattern text = true
  listed : ∀ allowed ∈ rule.allowed, ∀ text, valueForRules dataType value = .ok text → text ∈ allowed

/-- A null where nulls are allowed, or a value that is accepted. -/
def ColumnContract.AcceptsCell (rule : ColumnContract) (dataType : DataType) :
    Option Value → Prop
  | none => rule.notNull = false
  | some value => rule.Accepts dataType value

omit [DiffCrates] in
theorem any_any_eq_false {α β : Type} {bound : Option α} {value : Option β} {broken : α → β → Bool} :
    (bound.any fun a => value.any (broken a)) = false ↔
      ∀ a ∈ bound, ∀ b ∈ value, broken a b = false := by
  cases bound <;> cases value <;> simp

omit [DiffCrates] in
theorem mem_toOption {text : Except Fault String} {other : String} :
    other ∈ text.toOption ↔ text = .ok other := by
  cases text with
  | error fault => exact iff_of_false (fun h => nomatch h) (fun h => nomatch h)
  | ok value => rw [Except.toOption, Option.mem_some_iff, Except.ok.injEq]

theorem ColumnContract.accepts_iff {rule : ColumnContract} {dataType : DataType} {value : Value} :
    rule.Accepts dataType value ↔ ∀ clause, rule.breaks dataType (some value) clause = false := by
  have hmin : rule.breaks dataType (some value) .min = false ↔ ∀ minimum ∈ rule.min,
      ∀ number ∈ numericValue dataType value, number.lt minimum = false := any_any_eq_false
  have hmax : rule.breaks dataType (some value) .max = false ↔ ∀ maximum ∈ rule.max,
      ∀ number ∈ numericValue dataType value, number.gt maximum = false := any_any_eq_false
  have hpattern : rule.breaks dataType (some value) .pattern = false ↔ ∀ pattern ∈ rule.pattern,
      ∀ text, valueForRules dataType value = .ok text → Crates.regexMatch pattern text = true := by
    rw [ColumnContract.breaks, any_any_eq_false]
    simp only [mem_toOption, Bool.not_eq_false']
  have hallowed : rule.breaks dataType (some value) .allowed = false ↔ ∀ allowed ∈ rule.allowed,
      ∀ text, valueForRules dataType value = .ok text → text ∈ allowed := by
    rw [ColumnContract.breaks, any_any_eq_false]
    simp only [mem_toOption, Bool.not_eq_false', List.contains_iff_mem]
  constructor
  · intro h clause
    cases clause with
    | min => exact hmin.mpr h.above
    | max => exact hmax.mpr h.below
    | pattern => exact hpattern.mpr h.matched
    | allowed => exact hallowed.mpr h.listed
    | notNull | nan | minLength | maxLength => rfl
  · intro h
    exact ⟨hmin.mp (h .min), hmax.mp (h .max), hpattern.mp (h .pattern), hallowed.mp (h .allowed)⟩

theorem cellBroken_eq_nil_iff {rules : String → Option ColumnContract}
    {entry : Field × Option Value} : cellBroken rules entry = [] ↔
      ∀ rule ∈ rules entry.1.name, rule.AcceptsCell entry.1.dataType entry.2 := by
  obtain ⟨field, cell⟩ := entry
  unfold cellBroken
  dsimp only
  cases rules field.name with
  | none => simp
  | some rule =>
      simp only [Option.mem_some_iff, forall_eq', List.filter_eq_nil_iff, Clause.mem_all,
        forall_true_left, Bool.not_eq_true]
      cases cell with
      | none =>
          refine ⟨fun h => h .notNull, fun h clause => ?_⟩
          cases clause with
          | notNull => exact h
          | _ => rfl
      | some value => exact ColumnContract.accepts_iff.symm

/-- The rows are what the contract asks for. -/
structure Contract.Holds (contract : Contract) (schema : Schema) (rows : List Row) : Prop where
  present : ∀ entry ∈ contract.columns, entry.2.required = true →
    ∃ field ∈ schema.fields, field.name = entry.1
  accepted : ∀ entry ∈ cellsOf schema.fields rows, ∀ rule ∈ contract.rule entry.1.name,
    rule.AcceptsCell entry.1.dataType entry.2
  distinct : ((cellsOf schema.fields rows).filterMap (uniqueValue contract.rule)).Nodup

/-! ## The verdict -/

section Findings

variable {contract : Contract} {schema : Schema} {rows : List Row} {findings : List Finding}

/-- The findings and the different values are the missing columns, the broken clauses and the
values. -/
theorem length_findings (h : contract.findings schema rows = .ok findings) :
    findings.length +
        ((cellsOf schema.fields rows).filterMap (uniqueValue contract.rule)).toFinset.card =
      (missingColumns schema contract.columns).length +
        (((cellsOf schema.fields rows).flatMap (cellBroken contract.rule)).length +
          ((cellsOf schema.fields rows).filterMap (uniqueValue contract.rule)).length) := by
  obtain ⟨_, -, h⟩ := bind_eq_ok.mp h
  obtain ⟨checked, hchecked, h⟩ := bind_eq_ok.mp h
  cases h
  have hcounts := counts_checkRows hchecked
  have hcount := hcounts.count_eq
  -- nothing has been seen before the first row
  rw [hcounts.seen_eq, List.append_nil, List.toFinset_reverse, List.toFinset_nil,
    Finset.card_empty] at hcount
  exact hcount

omit [DiffCrates] in
theorem card_toFinset_eq_length_iff {α : Type} [DecidableEq α] {values : List α} :
    values.toFinset.card = values.length ↔ values.Nodup :=
  @Multiset.toFinset_card_eq_card_iff_nodup α _ values

omit [DiffCrates] in
theorem missingColumns_eq_nil_iff {columns : List (String × ColumnContract)} :
    missingColumns schema columns = [] ↔ ∀ entry ∈ columns, entry.2.required = true →
      ∃ field ∈ schema.fields, field.name = entry.1 := by
  rw [missingColumns, List.map_eq_nil_iff, List.filter_eq_nil_iff]
  refine forall₂_congr fun entry _ => ?_
  rw [Bool.and_eq_true, not_and, Option.isNone_iff_eq_none, Schema.indexOf,
    List.findIdx?_eq_none_iff]
  simp only [not_forall, beq_eq_false_iff_ne, ne_eq, not_not, exists_prop]

omit [DiffCrates] in
theorem missingColumns_perm {schema' : Schema} {columns : List (String × ColumnContract)}
    (hfields : schema.fields.Perm schema'.fields) :
    missingColumns schema columns = missingColumns schema' columns := by
  unfold missingColumns
  congr 1
  refine List.filter_congr fun entry _ => ?_
  congr 1
  rw [Bool.eq_iff_iff, Option.isNone_iff_eq_none, Option.isNone_iff_eq_none, Schema.indexOf,
    Schema.indexOf, List.findIdx?_eq_none_iff, List.findIdx?_eq_none_iff]
  simp only [hfields.mem_iff]

theorem findings_eq_nil_iff (h : contract.findings schema rows = .ok findings) :
    findings = [] ↔ contract.Holds schema rows := by
  have hlength := length_findings h
  have hcard := List.toFinset_card_le
    ((cellsOf schema.fields rows).filterMap (uniqueValue contract.rule))
  have hnodup := @card_toFinset_eq_length_iff _ _
    ((cellsOf schema.fields rows).filterMap (uniqueValue contract.rule))
  have hbroken : ((cellsOf schema.fields rows).flatMap (cellBroken contract.rule)).length = 0 ↔
      ∀ entry ∈ cellsOf schema.fields rows, ∀ rule ∈ contract.rule entry.1.name,
        rule.AcceptsCell entry.1.dataType entry.2 := by
    rw [List.length_eq_zero_iff, List.flatMap_eq_nil_iff]
    exact forall₂_congr fun _ _ => cellBroken_eq_nil_iff
  rw [← List.length_eq_zero_iff]
  -- there are at most as many different values as values, so no summand of the count hides another
  constructor
  · intro hnil
    refine ⟨missingColumns_eq_nil_iff.mp (List.length_eq_zero_iff.mp ?_), hbroken.mp ?_,
      hnodup.mp ?_⟩
    all_goals omega
  · rintro ⟨hpresent, haccepted, hdistinct⟩
    rw [← missingColumns_eq_nil_iff, ← List.length_eq_zero_iff] at hpresent
    rw [← hbroken] at haccepted
    rw [← hnodup] at hdistinct
    omega

/-- The number of findings depends on the cells and on the names of the columns, in any order. -/
theorem length_findings_perm {schema' : Schema} {rows' : List Row} {findings' : List Finding}
    (hfields : schema.fields.Perm schema'.fields)
    (hcells : (cellsOf schema.fields rows).Perm (cellsOf schema'.fields rows'))
    (h : contract.findings schema rows = .ok findings)
    (h' : contract.findings schema' rows' = .ok findings') :
    findings.length = findings'.length := by
  have hlength := length_findings h
  have hlength' := length_findings h'
  have hvalues := hcells.filterMap (uniqueValue contract.rule)
  have hbroken := hcells.flatMap_right (cellBroken contract.rule)
  rw [missingColumns_perm hfields, hbroken.length_eq, List.toFinset_eq_of_perm _ _ hvalues,
    hvalues.length_eq] at hlength
  omega

end Findings

end Verdict

/-! ## Reports -/

section Reports

variable {ω ω' : Type} [Resuming ω] [Resuming ω'] [DiffCrates] {reader reader' : BatchReader}
  {rows rows' : List Row} {contract : Contract} {world next : ω} {world' next' : ω'}
  {report report' : ValidationReport}

/-- **A report is valid when the rows are what the contract asks for.**  Whatever batches they come
in, and wherever the traversal stops recording. -/
theorem validateReader_valid_iff (hrows : reader.HasRows rows)
    (h : validateReader reader contract world = .ok (report, next)) :
    report.valid = true ↔ contract.Holds reader.schema rows := by
  obtain ⟨_, findings, -, -, hfindings, hshows⟩ := (sat_validateReader hrows).of_ok h
  rw [hshows.valid_iff, findings_eq_nil_iff hfindings]

/-- **A verdict does not depend on the order of the rows or of the columns.**  Two datasets with the
same cells have as many violations. -/
theorem validateReader_rearranged (hrows : reader.HasRows rows) (hrows' : reader'.HasRows rows')
    (hfields : reader.schema.fields.Perm reader'.schema.fields)
    (hcells : (cellsOf reader.schema.fields rows).Perm (cellsOf reader'.schema.fields rows'))
    (h : validateReader reader contract world = .ok (report, next))
    (h' : validateReader reader' contract world' = .ok (report', next')) :
    report.valid = report'.valid ∧ report.violationCount = report'.violationCount ∧
      report.truncated = report'.truncated := by
  obtain ⟨_, findings, -, -, hfindings, hshows⟩ := (sat_validateReader hrows).of_ok h
  obtain ⟨_, findings', -, -, hfindings', hshows'⟩ := (sat_validateReader hrows').of_ok h'
  have hlength := length_findings_perm hfields hcells hfindings hfindings'
  refine ⟨?_, ?_, ?_⟩
  · rw [Bool.eq_iff_iff, hshows.valid_iff, hshows'.valid_iff, ← List.length_eq_zero_iff, hlength,
      List.length_eq_zero_iff]
  · rw [hshows.count_eq, hshows'.count_eq, hlength]
  · rw [Bool.eq_iff_iff, hshows.truncated_iff, hshows'.truncated_iff, hshows.findings_eq,
      hshows'.findings_eq, List.length_take, List.length_take, hshows.count_eq, hshows'.count_eq,
      hlength]

end Reports

/-- Orders of different ids up to nine. -/
def soundBatches : List RecordBatch :=
  orderBatches.take 1 ++ [.ofColumns 1 [idColumn [some 9], paidColumn [some ()]] (by decide)]

/-- The rows of the orders, the last first, with the columns in the other order. -/
def rearrangedBatches : List RecordBatch :=
  [.ofColumns 3 [paidColumn [some (), some (), none], idColumn [none, some 10, some 8]]
      (by decide),
    .ofColumns 2 [paidColumn [some (), some ()], idColumn [some 7, some 7]] (by decide)]

def rearrangedReader : BatchReader where
  schema := { fields := [(paidColumn []).field, (idColumn []).field], metadata := [] }
  items := rearrangedBatches.map .ok

/-- A cell of the column of ids, or of the column of names. -/
def orderCell : Option Int64 ⊕ Option Unit → Field × Option Value
  | .inl id => ((idColumn []).field, id.map fun id => .scalar (.signed id.toInt))
  | .inr name => ((paidColumn []).field, name.map fun _ => .scalar (.text "paid"))

/-- The orders break the contract, and those of three different ids up to nine do not. -/
theorem validateReader_valid_iff_orders : let _ := DiffCrates.sample
    ¬orderContract.Holds (orderReader []).schema (orderBatches.flatMap RecordBatch.tuples) ∧
      orderContract.Holds (orderReader []).schema (soundBatches.flatMap RecordBatch.tuples) := by
  let := DiffCrates.sample
  obtain ⟨broken, next, hbroken⟩ := exists_ended (w := Granting.granting)
    (m := validateReader (orderReader orderBatches) orderContract) (by decide +kernel)
  obtain ⟨sound, next', hsound⟩ := exists_ended (w := Granting.granting)
    (m := validateReader (orderReader soundBatches) orderContract) (by decide +kernel)
  have hinvalid : (validateReader (orderReader orderBatches) orderContract
      Granting.granting).toOption.map (fun ended => ended.1.valid) = some false := by
    decide +kernel
  have hvalid : (validateReader (orderReader soundBatches) orderContract
      Granting.granting).toOption.map (fun ended => ended.1.valid) = some true := by
    decide +kernel
  rw [hbroken] at hinvalid
  rw [hsound] at hvalid
  have hholds := validateReader_valid_iff (orderReader_hasRows (by decide)) hbroken
  have hholds' := validateReader_valid_iff (orderReader_hasRows (by decide)) hsound
  have hfalse : broken.valid = false := Option.some.inj hinvalid
  exact ⟨hholds.not.mp (by rw [hfalse]; decide), hholds'.mp (Option.some.inj hvalid)⟩

/-- The cells of the orders, as they are and with the columns and the rows in another order. -/
theorem validateReader_rearranged_orders : let _ := DiffCrates.sample
    ∃ report report' next next',
      validateReader (orderReader orderBatches) orderContract Granting.granting =
          .ok (report, next) ∧
        validateReader rearrangedReader orderContract Granting.granting = .ok (report', next') ∧
        report.violationCount = report'.violationCount := by
  let := DiffCrates.sample
  obtain ⟨report, next, h⟩ := exists_ended (w := Granting.granting)
    (m := validateReader (orderReader orderBatches) orderContract) (by decide +kernel)
  obtain ⟨report', next', h'⟩ := exists_ended (w := Granting.granting)
    (m := validateReader rearrangedReader orderContract) (by decide +kernel)
  have hcells : (cellsOf (orderReader []).schema.fields
      (orderBatches.flatMap RecordBatch.tuples)).Perm
      (cellsOf rearrangedReader.schema.fields (rearrangedBatches.flatMap RecordBatch.tuples)) := by
    have hperm : @List.Perm (Option Int64 ⊕ Option Unit)
        [.inl (some 7), .inr (some ()), .inl (some 8), .inr none, .inl (some 7), .inr (some ()),
          .inl (some 10), .inr (some ()), .inl none, .inr (some ())]
        [.inr (some ()), .inl none, .inr (some ()), .inl (some 10), .inr none, .inl (some 8),
          .inr (some ()), .inl (some 7), .inr (some ()), .inl (some 7)] := by decide
    exact hperm.map orderCell
  have hrows' : rearrangedReader.HasRows (rearrangedBatches.flatMap RecordBatch.tuples) :=
    ⟨rearrangedBatches, rfl, by decide, rfl⟩
  have hfields : (orderReader orderBatches).schema.fields.Perm rearrangedReader.schema.fields :=
    .swap ..
  obtain ⟨-, hcount, -⟩ := validateReader_rearranged (orderReader_hasRows (by decide)) hrows'
    hfields hcells h h'
  exact ⟨report, report', next, next', h, h', hcount⟩

end ProofFrame
