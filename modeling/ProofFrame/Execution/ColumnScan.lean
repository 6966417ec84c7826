import ProofFrame.Encoding.Cells
import ProofFrame.Execution.Clauses
import ProofFrame.Execution.DistinctRules
import ProofFrame.Execution.Preparation

/-!
# A column rule over the batches

What the rule of one column finds in the arrays of the column, from its first batch to its last:
one violation for each clause that a cell breaks, and one for each row whose value an earlier row
has.  In an execution the rule finds exactly that, beside what the other rules find.
-/

namespace ProofFrame

open Lib Lib.Run Lib.Sorted Distinct

variable [Crates]

/-! ## What a uniqueness rule compares -/

/-- A scalar as it is, and any other value by its canonical bytes. -/
def DataType.KeyOf (dataType : DataType) : Value → OwnedValue → Prop
  | .scalar scalar, key => key = scalar.exactValue
  | value, key => ∃ bytes, canonicalValueBytes dataType (some value) = .ok bytes ∧
      key = .bytes bytes

/-- The canonical bytes of the value, if it has any, can be counted in 64 bits. -/
def DataType.Countable (dataType : DataType) (value : Value) : Prop :=
  ∀ bytes, canonicalValueBytes dataType (some value) = .ok bytes → bytes.length < 2 ^ 64

section Keys

variable {dataType : DataType} {value other : Value} {key : OwnedValue}

theorem keyOf_unique {key' : OwnedValue} (h : dataType.KeyOf value key)
    (h' : dataType.KeyOf value key') : key = key' := by
  cases value with
  | scalar scalar => exact h.trans h'.symm
  | _ =>
      obtain ⟨bytes, hbytes, rfl⟩ := h
      obtain ⟨bytes', hbytes', rfl⟩ := h'
      rw [Except.ok.inj (hbytes.symm.trans hbytes')]

omit [Crates] in
/-- The types whose cells are scalars hold nothing else, and the others hold none. -/
theorem isScalar_iff_of_admits (h : dataType.Admits value) :
    dataType.isScalar = true ↔ ∃ scalar, value = .scalar scalar := by
  cases value with
  | scalar scalar =>
      refine iff_of_true ?_ ⟨scalar, rfl⟩
      cases dataType <;> cases scalar <;> first | rfl | exact absurd h id
  | _ =>
      refine iff_of_false (fun hscalar => ?_) (by rintro ⟨_, ⟨⟩⟩)
      cases dataType <;> first
        | exact absurd hscalar Bool.false_ne_true
        | exact absurd h id
        | cases h

/-- Two values of one type that go by the same key are the same. -/
theorem keyOf_injective (hvalue : dataType.Admits value) (hother : dataType.Admits other)
    (hcountable : dataType.Countable value) (h : dataType.KeyOf value key)
    (h' : dataType.KeyOf other key) : value = other := by
  by_cases htype : dataType.isScalar = true
  · obtain ⟨scalar, rfl⟩ := (isScalar_iff_of_admits hvalue).mp htype
    obtain ⟨scalar', rfl⟩ := (isScalar_iff_of_admits hother).mp htype
    rw [exactValue_injective (admitsScalar_of_admits hvalue) (admitsScalar_of_admits hother)
      (h.symm.trans h')]
  · have hbytes (value : Value) (hvalue : dataType.Admits value) (h : dataType.KeyOf value key) :
        ∃ bytes, canonicalValueBytes dataType (some value) = .ok bytes ∧ key = .bytes bytes := by
      cases value with
      | scalar scalar => exact absurd ((isScalar_iff_of_admits hvalue).mpr ⟨scalar, rfl⟩) htype
      | _ => exact h
    obtain ⟨bytes, hencoded, rfl⟩ := hbytes value hvalue h
    obtain ⟨bytes', hencoded', hsame⟩ := hbytes other hother h'
    obtain rfl := OwnedValue.bytes.inj hsame
    have hlength := hcountable bytes hencoded
    have hdecodes := decodes_canonicalValueBytes (some value)
      (fun _ heq => Option.some.inj heq ▸ hvalue) hencoded hlength
    have hdecodes' := decodes_canonicalValueBytes (some other)
      (fun _ heq => Option.some.inj heq ▸ hother) hencoded' hlength
    exact Option.some.inj (hdecodes.injective hdecodes')

end Keys

/-! ## The kernel of a column -/

/-- The kernel of a plan for the type of its column reads the arrays of the column. -/
theorem ColumnPlan.prepare_eq {plan : ColumnPlan} {array : ArrowArray}
    (hkind : plan.kernel = .fromDataType array.dataType) (unique : Bool) :
    plan.prepare array unique = plan.cellKernel array.dataType unique := by
  unfold ColumnPlan.prepare
  rw [hkind]
  by_cases hfallback : (KernelKind.fromDataType array.dataType).isFallback = true
  · rw [if_pos hfallback]
    rfl
  · rw [if_neg hfallback, downcast, if_pos (reads_of_not_isFallback (by simpa using hfallback))]
    rfl

section Records

variable {rules : CompiledRules} {name : String} {row : ℕ}

omit [Crates] in
theorem recordsOf_record_if {condition : Prop} [Decidable condition] {finding : Finding} :
    recordsOf (if condition then [.record finding] else []) = [] := by
  split <;> rfl

omit [Crates] in
theorem recordsOf_recordRange {α : Type} [PartialOrd α] (value : α) (minimum maximum : Option α) :
    recordsOf (recordRange value minimum maximum name row) = [] := by
  rw [recordRange, recordsOf_append, recordsOf_record_if, recordsOf_record_if, List.append_nil]

omit [Crates] in
theorem recordsOf_scanFloat {eb mb : ℕ} (value : Lib.Ieee754.Ieee eb mb)
    (minimum maximum : Option (Lib.Ieee754.Ieee eb mb)) :
    recordsOf (scanFloat name rules minimum maximum value row) =
      [⟨.f64 (UInt64.ofNat value.toBits), UInt64.ofNat row⟩] := by
  rw [scanFloat, recordsOf_append]
  split
  · rw [recordNan, recordsOf_record_if]
    rfl
  · rw [recordsOf_recordRange]
    rfl

theorem recordsOf_scanStrings {text : String} {events : List Event}
    (h : scanStrings name rules (.scalar (.text text)) row = .ok events) :
    recordsOf events = [⟨.bytes (utf8Bytes text), UInt64.ofNat row⟩] := by
  cases h
  simp only [checkLength, recordsOf_append, recordsOf_record_if, List.append_nil]
  rfl

end Records

/-- The kernel goes through the values of the type, and hands their keys to a uniqueness rule. -/
theorem exists_cellEvents {plan : ColumnPlan} {dataType : DataType} {unique : Bool}
    {kernel : CellKernel} (hkind : plan.kernel = .fromDataType dataType)
    (hkernel : plan.cellKernel dataType unique = .ok kernel) {value : Value}
    (hadmits : dataType.Admits value)
    (hencodes : unique = true → ∃ bytes, canonicalValueBytes dataType (some value) = .ok bytes)
    (row : ℕ) : ∃ events, kernel value row = .ok events ∧ (unique = true →
      ∃ key, dataType.KeyOf value key ∧ recordsOf events = [⟨key, UInt64.ofNat row⟩]) := by
  obtain ⟨position, field, kind, rules⟩ := plan
  dsimp only at hkind
  subst hkind
  by_cases hfallback : dataType.isScalar = true
  · obtain ⟨scalar, rfl⟩ := (isScalar_iff_of_admits hadmits).mp hfallback
    have hscalar := admitsScalar_of_admits hadmits
    cases dataType <;> first | exact absurd hscalar id | skip
    case int8 | int16 | int32 | int64 | date32 | date64 | timestamp | uint8 | uint16 | uint32
        | uint64 | decimal128 =>
      obtain ⟨minimum, hmin, hkernel⟩ := bind_eq_ok.mp hkernel
      obtain ⟨maximum, hmax, hkernel⟩ := bind_eq_ok.mp hkernel
      cases hkernel
      cases scalar <;> first | exact absurd hscalar id | skip
      refine ⟨_, rfl, fun _ => ⟨_, rfl, ?_⟩⟩
      rw [recordsOf_append, recordsOf_recordRange]
      rfl
    case float32 | float64 =>
      obtain ⟨minimum, hmin, hkernel⟩ := bind_eq_ok.mp hkernel
      obtain ⟨maximum, hmax, hkernel⟩ := bind_eq_ok.mp hkernel
      cases hkernel
      cases scalar <;> first | exact absurd hscalar id | skip
      exact ⟨_, rfl, fun _ => ⟨_, rfl, recordsOf_scanFloat ..⟩⟩
    case utf8 | largeUtf8 | utf8View =>
      cases hkernel
      cases scalar <;> first | exact absurd hscalar id | skip
      exact ⟨_, rfl, fun _ => ⟨_, rfl, recordsOf_scanStrings rfl⟩⟩
    case boolean | binary | largeBinary | binaryView =>
      cases hkernel
      cases scalar <;> first | exact absurd hscalar id | skip
      exact ⟨_, rfl, fun _ => ⟨_, rfl, rfl⟩⟩
  · have hkernel : kernel = scanFallback dataType unique := by
      cases dataType <;> first | exact absurd rfl hfallback | (cases hkernel; rfl)
    subst hkernel
    unfold scanFallback
    cases unique with
    | false => exact ⟨[], rfl, nofun⟩
    | true =>
        obtain ⟨bytes, hbytes⟩ := hencodes rfl
        refine ⟨[.insert (.bytes bytes) row], bind_eq_ok.mpr ⟨bytes, hbytes, rfl⟩, fun _ => ?_⟩
        refine ⟨.bytes bytes, ?_, rfl⟩
        cases value with
        | scalar scalar =>
            exact absurd ((isScalar_iff_of_admits hadmits).mpr ⟨scalar, rfl⟩) hfallback
        | _ => exact ⟨bytes, hbytes, rfl⟩

/-! ## All arrays of a column -/

/-- The events of a column from its first array on. -/
def ColumnPlan.run (plan : ColumnPlan) : List ArrowArray → ℕ → Except Fault (List Event)
  | [], _ => .ok []
  | array :: arrays, rowOffset => do
      let events ← plan.events array plan.rules.unique rowOffset
      let rest ← plan.run arrays (rowOffset + array.length)
      .ok (events ++ rest)

/-- What the rule of a column finds: what its kernel records, and the values that come again. -/
def ColumnPlan.findings (plan : ColumnPlan) (events : List Event) : List Finding :=
  findingsOf events ++
    uniqueFindings (plan, if plan.rules.unique then some (recordsOf events) else none)

/-- Where the cells of a column are in different arrays does not matter. -/
theorem run_eq_ok {plan : ColumnPlan} {kernel : CellKernel} {arrays : List ArrowArray}
    (hprepare : ∀ array ∈ arrays, plan.prepare array plan.rules.unique = .ok kernel)
    {rowOffset : ℕ} {events : List Event} :
    plan.run arrays rowOffset = .ok events ↔ ∃ parts,
      ((arrays.flatMap ArrowArray.cells).zipIdx rowOffset).mapM
        (fun entry => plan.cellEvents kernel entry.1 entry.2) = .ok parts ∧
      events = parts.flatten := by
  induction arrays generalizing rowOffset events with
  | nil =>
      constructor
      · intro h
        cases h
        exact ⟨[], rfl, rfl⟩
      · rintro ⟨parts, hparts, rfl⟩
        cases hparts
        rfl
  | cons array arrays ih =>
      rw [List.forall_mem_cons] at hprepare
      have hevents (first : List Event) :
          plan.events array plan.rules.unique rowOffset = .ok first ↔ ∃ parts,
            (array.cells.zipIdx rowOffset).mapM
              (fun entry => plan.cellEvents kernel entry.1 entry.2) = .ok parts ∧
            first = parts.flatten := by
        rw [ColumnPlan.events, hprepare.1, ok_bind, collectRows_eq_ok]
        simp only [mapM_eq_ok]
      rw [ColumnPlan.run, List.flatMap_cons, List.zipIdx_append, bind_eq_ok]
      constructor
      · rintro ⟨first, hfirst, h⟩
        obtain ⟨rest, hrest, h⟩ := bind_eq_ok.mp h
        cases h
        obtain ⟨parts, hparts, rfl⟩ := (hevents first).mp hfirst
        obtain ⟨more, hmore, rfl⟩ := (ih hprepare.2).mp hrest
        exact ⟨parts ++ more, mapM_append_eq_ok.mpr ⟨parts, more, hparts, hmore, rfl⟩,
          List.flatten_append.symm⟩
      · rintro ⟨parts, hparts, rfl⟩
        obtain ⟨head, tail, hhead, htail, rfl⟩ := mapM_append_eq_ok.mp hparts
        refine ⟨head.flatten, (hevents _).mpr ⟨head, hhead, rfl⟩, ?_⟩
        refine bind_eq_ok.mpr ⟨tail.flatten, (ih hprepare.2).mpr ⟨tail, htail, rfl⟩, ?_⟩
        rw [List.flatten_append]

omit [Crates] in
theorem violationsOf_flatten (parts : List (List Event)) :
    violationsOf parts.flatten = parts.flatMap violationsOf := by
  induction parts with
  | nil => rfl
  | cons part parts ih => rw [List.flatten_cons, violationsOf_append, ih, List.flatMap_cons]

omit [Crates] in
theorem nodup_violationsFor {name : String} {row : ℕ} {breaks : Clause → Bool} :
    (violationsFor name row (Clause.all.filter breaks)).Nodup := by
  refine List.Nodup.map (fun clause other h => ?_) (List.Nodup.filter _ (by decide))
  exact Clause.rule_injective (Prod.mk.inj h).1

omit [Crates] in
theorem recordsOf_flatten (parts : List (List Event)) :
    recordsOf parts.flatten = parts.flatMap recordsOf := by
  induction parts with
  | nil => rfl
  | cons part parts ih => rw [List.flatten_cons, recordsOf_append, ih, List.flatMap_cons]

/-- The kernel of the plan has gone through the cells of a column of the type. -/
structure ColumnPlan.Scanned (plan : ColumnPlan) (dataType : DataType) (kernel : CellKernel)
    (cells : List (Option Value)) (parts : List (List Event)) : Prop where
  kind : plan.kernel = .fromDataType dataType
  kernel_eq : plan.cellKernel dataType plan.rules.unique = .ok kernel
  admits : ∀ cell ∈ cells, dataType.AdmitsPresent cell
  encodes : plan.rules.unique = true → ∀ value, dataType.Admits value →
    ∃ bytes, canonicalValueBytes dataType (some value) = .ok bytes
  events : (cells.zipIdx 0).mapM (fun entry => plan.cellEvents kernel entry.1 entry.2) = .ok parts

/-- A kernel gets through the cells of its column. -/
theorem ColumnPlan.exists_scanned {plan : ColumnPlan} {dataType : DataType} {kernel : CellKernel}
    {cells : List (Option Value)} (hkind : plan.kernel = .fromDataType dataType)
    (hkernel : plan.cellKernel dataType plan.rules.unique = .ok kernel)
    (hadmits : ∀ cell ∈ cells, dataType.AdmitsPresent cell)
    (hencodes : plan.rules.unique = true → ∀ value, dataType.Admits value →
      ∃ bytes, canonicalValueBytes dataType (some value) = .ok bytes) :
    ∃ parts, plan.Scanned dataType kernel cells parts := by
  obtain ⟨parts, hparts⟩ := @exists_mapM _ _ _
    (fun entry => plan.cellEvents kernel entry.1 entry.2) (cells.zipIdx 0) (by
      rintro ⟨cell, row⟩ hentry
      cases cell with
      | none => exact ⟨_, rfl⟩
      | some value =>
          have hvalue := hadmits _ (List.fst_mem_of_mem_zipIdx hentry) value rfl
          obtain ⟨events, hevents, -⟩ := exists_cellEvents hkind hkernel hvalue
            (fun hunique => hencodes hunique value hvalue) row
          exact ⟨events, hevents⟩)
  exact ⟨parts, hkind, hkernel, hadmits, hencodes, hparts⟩

section Entries

variable {cells : List (Option Value)}

omit [Crates] in
theorem mem_zipIdx_zero {cell : Option Value} {row : ℕ} :
    (cell, row) ∈ cells.zipIdx 0 ↔ cells[row]? = some cell := by
  rw [List.mk_mem_zipIdx_iff_le_and_getElem?_sub, Nat.sub_zero]
  exact and_iff_right (Nat.zero_le row)

omit [Crates] in
theorem pairwise_zipIdx (cells : List (Option Value)) :
    (cells.zipIdx 0).Pairwise fun entry other => entry.2 ≠ other.2 := by
  rw [← List.pairwise_map (f := Prod.snd), List.zipIdx_map_snd]
  exact List.nodup_range'

/-- One violation for each clause a cell breaks. -/
theorem mem_violations_iff {name : String} {rules : CompiledRules}
    {what : String × String × Option ℕ} :
    what ∈ ((cells.zipIdx 0).flatMap fun entry =>
        violationsFor name entry.2 (rules.broken entry.1)) ↔
      ∃ row cell clause, cells[row]? = some cell ∧ rules.breaks cell clause = true ∧
        what = (clause.rule, name, some row) := by
  rw [List.mem_flatMap]
  constructor
  · rintro ⟨⟨cell, row⟩, hentry, hwhat⟩
    obtain ⟨clause, hclause, rfl⟩ := List.mem_map.mp hwhat
    exact ⟨row, cell, clause, mem_zipIdx_zero.mp hentry, (List.mem_filter.mp hclause).2, rfl⟩
  · rintro ⟨row, cell, clause, hcell, hbreaks, rfl⟩
    exact ⟨(cell, row), mem_zipIdx_zero.mpr hcell,
      List.mem_map.mpr ⟨clause, List.mem_filter.mpr ⟨clause.mem_all, hbreaks⟩, rfl⟩⟩

theorem nodup_violations {name : String} {rules : CompiledRules} :
    ((cells.zipIdx 0).flatMap fun entry =>
      violationsFor name entry.2 (rules.broken entry.1)).Nodup := by
  rw [List.nodup_flatMap]
  refine ⟨fun entry _ => nodup_violationsFor, ?_⟩
  refine (pairwise_zipIdx cells).imp fun {entry other} hne => ?_
  intro what hwhat hwhat'
  obtain ⟨clause, -, rfl⟩ := List.mem_map.mp hwhat
  obtain ⟨clause', -, hsame⟩ := List.mem_map.mp hwhat'
  exact hne (Option.some.inj (Prod.mk.inj (Prod.mk.inj hsame).2).2).symm

end Entries

/-- The rows of a column and the bytes of its values can be counted in 64 bits. -/
structure SizedColumn (dataType : DataType) (cells : List (Option Value)) : Prop where
  rows : cells.length < 2 ^ 64
  values : ∀ value, some value ∈ cells → dataType.Countable value

/-- The row has a value that an earlier row has. -/
def RepeatsAt (cells : List (Option Value)) (row : ℕ) : Prop :=
  ∃ value, cells[row]? = some (some value) ∧ ∃ earlier < row, cells[earlier]? = some (some value)

omit [Crates] in
theorem record_lt_iff {record other : Record} (h : record.value = other.value) :
    record < other ↔ record.row.toNat < other.row.toNat := by
  change record.sortKey < other.sortKey ↔ _
  rw [Record.sortKey, Record.sortKey, Prod.Lex.toLex_lt_toLex, h]
  simp

namespace ColumnPlan.Scanned

variable {plan : ColumnPlan} {dataType : DataType} {kernel : CellKernel}
  {cells : List (Option Value)} {parts : List (List Event)}

/-- The violations of the cells, row by row. -/
theorem violations_eq (h : plan.Scanned dataType kernel cells parts) :
    violationsOf parts.flatten = (cells.zipIdx 0).flatMap fun entry =>
      violationsFor plan.field.name entry.2 (plan.rules.broken entry.1) := by
  have hcells : ∀ entry ∈ cells.zipIdx 0, dataType.AdmitsPresent entry.1 := fun entry hentry =>
    h.admits entry.1 (List.fst_mem_of_mem_zipIdx hentry)
  have hparts := mapM_eq_ok.mp h.events
  have hcell {cell : Option Value} {row : ℕ} :=
    @violationsOf_cellEvents _ row plan dataType plan.rules.unique kernel h.kind h.kernel_eq cell
  rw [violationsOf_flatten]
  clear h
  generalize cells.zipIdx 0 = entries at hparts hcells ⊢
  induction hparts with
  | nil => rfl
  | cons hhead _ ih =>
      rw [List.forall_mem_cons] at hcells
      rw [List.flatMap_cons, List.flatMap_cons, ih hcells.2,
        hcell hcells.1 hhead]

/-- A cell with a value hands its key to a uniqueness rule, with its row. -/
theorem mem_records_cell (h : plan.Scanned dataType kernel cells parts)
    (hunique : plan.rules.unique = true) {cell : Option Value}
    (hadmits : dataType.AdmitsPresent cell) {row : ℕ} {part : List Event}
    (hpart : plan.cellEvents kernel cell row = .ok part) {record : Record} :
    record ∈ recordsOf part ↔ ∃ value, cell = some value ∧ dataType.KeyOf value record.value ∧
      record.row = UInt64.ofNat row := by
  cases cell with
  | none =>
      cases hpart
      rw [recordNull, recordsOf_record_if]
      exact iff_of_false List.not_mem_nil (by rintro ⟨_, ⟨⟩, -⟩)
  | some value =>
      have hvalue := hadmits value rfl
      obtain ⟨events, hevents, hrecords⟩ := exists_cellEvents h.kind h.kernel_eq hvalue
        (fun _ => h.encodes hunique value hvalue) row
      obtain rfl : events = part := Except.ok.inj (hevents.symm.trans hpart)
      obtain ⟨key, hkey, hrecords⟩ := hrecords hunique
      rw [hrecords, List.mem_singleton]
      constructor
      · rintro rfl
        exact ⟨value, rfl, hkey, rfl⟩
      · rintro ⟨_, ⟨⟩, hkey', hrow⟩
        obtain ⟨key', row'⟩ := record
        obtain rfl : row' = UInt64.ofNat row := hrow
        exact congrArg (Record.mk · _) (keyOf_unique hkey' hkey)

/-- The keys of a column, with their rows. -/
theorem mem_records (h : plan.Scanned dataType kernel cells parts)
    (hunique : plan.rules.unique = true) {record : Record} :
    record ∈ recordsOf parts.flatten ↔ ∃ row value, cells[row]? = some (some value) ∧
      dataType.KeyOf value record.value ∧ record.row = UInt64.ofNat row := by
  have hparts := mapM_eq_ok.mp h.events
  have hpart {cell : Option Value} {row : ℕ} (hcell : (cell, row) ∈ cells.zipIdx 0)
      {part : List Event} (hpart : plan.cellEvents kernel cell row = .ok part) :
      record ∈ recordsOf part ↔ ∃ value, cell = some value ∧ dataType.KeyOf value record.value ∧
        record.row = UInt64.ofNat row :=
    h.mem_records_cell hunique (h.admits cell (List.fst_mem_of_mem_zipIdx hcell)) hpart
  rw [recordsOf_flatten, List.mem_flatMap]
  constructor
  · rintro ⟨part, hmem, hrecord⟩
    obtain ⟨⟨cell, row⟩, hcell, hevents⟩ := exists_of_forall₂ hparts.flip hmem
    obtain ⟨value, rfl, hkey⟩ := (hpart hcell hevents).mp hrecord
    exact ⟨row, value, mem_zipIdx_zero.mp hcell, hkey⟩
  · rintro ⟨row, value, hcell, hkey⟩
    have hentry := mem_zipIdx_zero.mpr hcell
    obtain ⟨part, hmem, hevents⟩ := exists_of_forall₂ hparts hentry
    exact ⟨part, hmem, (hpart hentry hevents).mpr ⟨value, rfl, hkey⟩⟩

theorem nodup_records_cell (h : plan.Scanned dataType kernel cells parts)
    (hunique : plan.rules.unique = true) {cell : Option Value}
    (hadmits : dataType.AdmitsPresent cell) {row : ℕ} {part : List Event}
    (hpart : plan.cellEvents kernel cell row = .ok part) : (recordsOf part).Nodup := by
  cases cell with
  | none =>
      cases hpart
      rw [recordNull, recordsOf_record_if]
      exact List.nodup_nil
  | some value =>
      have hvalue := hadmits value rfl
      obtain ⟨events, hevents, hrecords⟩ := exists_cellEvents h.kind h.kernel_eq hvalue
        (fun _ => h.encodes hunique value hvalue) row
      obtain rfl : events = part := Except.ok.inj (hevents.symm.trans hpart)
      obtain ⟨key, -, hrecords⟩ := hrecords hunique
      rw [hrecords]
      exact List.nodup_singleton _

/-- No row is handed in twice. -/
theorem nodup_records (h : plan.Scanned dataType kernel cells parts)
    (hunique : plan.rules.unique = true) (hrows : cells.length < 2 ^ 64) :
    (recordsOf parts.flatten).Nodup := by
  have hcells : ∀ entry ∈ cells.zipIdx 0, dataType.AdmitsPresent entry.1 := fun entry hentry =>
    h.admits entry.1 (List.fst_mem_of_mem_zipIdx hentry)
  have hdistinct : (cells.zipIdx 0).Pairwise fun entry other =>
      UInt64.ofNat entry.2 ≠ UInt64.ofNat other.2 := by
    have hlt : ∀ entry ∈ cells.zipIdx 0, entry.2 < 2 ^ 64 := fun entry hentry =>
      (List.snd_lt_of_mem_zipIdx hentry).trans_le (by omega)
    refine (List.Pairwise.and_mem.mp (pairwise_zipIdx cells)).imp ?_
    rintro entry other ⟨hentry, hother, hne⟩ hsame
    exact hne (ofNat_injective (hlt entry hentry) (hlt other hother) hsame)
  have hparts := mapM_eq_ok.mp h.events
  have hnodup {cell : Option Value} (hadmits : dataType.AdmitsPresent cell) {row : ℕ}
      {part : List Event} (hpart : plan.cellEvents kernel cell row = .ok part) :=
    h.nodup_records_cell hunique hadmits hpart
  have hrow {cell : Option Value} (hadmits : dataType.AdmitsPresent cell) {row : ℕ}
      {part : List Event} (hpart : plan.cellEvents kernel cell row = .ok part) {record : Record}
      (hrecord : record ∈ recordsOf part) : record.row = UInt64.ofNat row := by
    obtain ⟨_, -, -, hrow⟩ := (h.mem_records_cell hunique hadmits hpart).mp hrecord
    exact hrow
  rw [recordsOf_flatten]
  clear h
  generalize cells.zipIdx 0 = entries at hparts hcells hdistinct
  -- the records of an entry carry its row, and the entries after it have other rows
  induction hparts with
  | nil => exact List.nodup_nil
  | @cons entry part entries parts hhead hrest ih =>
      rw [List.forall_mem_cons] at hcells
      rw [List.pairwise_cons] at hdistinct
      rw [List.flatMap_cons, List.nodup_append]
      refine ⟨hnodup hcells.1 hhead, ih hcells.2 hdistinct.2, ?_⟩
      rintro record hrecord other hother rfl
      obtain ⟨rest, hmem, hother⟩ := List.mem_flatMap.mp hother
      obtain ⟨entry', hentry', hevents⟩ := exists_of_forall₂ hrest.flip hmem
      exact hdistinct.1 entry' hentry' ((hrow hcells.1 hhead hrecord).symm.trans
        (hrow (hcells.2 entry' hentry') hevents hother))

/-- The rule finds the rows that repeat a value. -/
theorem mem_duplicateRows (h : plan.Scanned dataType kernel cells parts)
    (hunique : plan.rules.unique = true) (hsized : SizedColumn dataType cells) {row : ℕ} :
    row ∈ duplicateRows (recordsOf parts.flatten) ↔ RepeatsAt cells row := by
  have hlt {row : ℕ} {value : Value} (hcell : cells[row]? = some (some value)) : row < 2 ^ 64 :=
    (List.getElem?_eq_some_iff.mp hcell).1.trans hsized.rows
  have hvalue {row : ℕ} {value : Value} (hcell : cells[row]? = some (some value)) :
      dataType.Admits value := h.admits _ (List.mem_of_getElem? hcell) value rfl
  have hnodup := h.nodup_records hunique hsized.rows
  have hmem {row : ℕ} : row ∈ duplicateRows (recordsOf parts.flatten) ↔
      ∃ record ∈ (duplicates Record.value (recordsOf parts.flatten)).map Prod.snd,
        record.row.toNat = row := by
    rw [duplicateRows, List.mem_map]
    simp only [List.mem_map, exists_exists_and_eq_and]
  rw [hmem]
  simp only [mem_map_snd_duplicates hnodup]
  constructor
  · rintro ⟨record, ⟨hrecord, other, hother, hsame, hless⟩, rfl⟩
    obtain ⟨row, value, hcell, hkey, hrow⟩ := (h.mem_records hunique).mp hrecord
    obtain ⟨earlier, value', hcell', hkey', hearlier⟩ := (h.mem_records hunique).mp hother
    rw [record_lt_iff hsame, hrow, hearlier, UInt64.toNat_ofNat_of_lt' (hlt hcell),
      UInt64.toNat_ofNat_of_lt' (hlt hcell')] at hless
    rw [hsame] at hkey'
    obtain rfl := keyOf_injective (hvalue hcell) (hvalue hcell')
      (hsized.values value (List.mem_of_getElem? hcell)) hkey hkey'
    rw [hrow, UInt64.toNat_ofNat_of_lt' (hlt hcell)]
    exact ⟨value, hcell, earlier, hless, hcell'⟩
  · rintro ⟨value, hcell, earlier, hless, hcell'⟩
    obtain ⟨key, hkey⟩ : ∃ key, dataType.KeyOf value key := by
      obtain ⟨bytes, hbytes⟩ := h.encodes hunique value (hvalue hcell)
      cases value with
      | scalar scalar => exact ⟨_, rfl⟩
      | _ => exact ⟨_, bytes, hbytes, rfl⟩
    refine ⟨⟨key, UInt64.ofNat row⟩, ⟨?_, ⟨key, UInt64.ofNat earlier⟩, ?_, rfl, ?_⟩, ?_⟩
    · exact (h.mem_records hunique).mpr ⟨row, value, hcell, hkey, rfl⟩
    · exact (h.mem_records hunique).mpr ⟨earlier, value, hcell', hkey, rfl⟩
    · refine (@record_lt_iff ⟨key, UInt64.ofNat earlier⟩ ⟨key, UInt64.ofNat row⟩ rfl).mpr ?_
      dsimp only
      rw [UInt64.toNat_ofNat_of_lt' (hlt hcell), UInt64.toNat_ofNat_of_lt' (hlt hcell')]
      exact hless
    · exact UInt64.toNat_ofNat_of_lt' (hlt hcell)

theorem nodup_duplicateRows (h : plan.Scanned dataType kernel cells parts)
    (hunique : plan.rules.unique = true) (hrows : cells.length < 2 ^ 64) :
    (duplicateRows (recordsOf parts.flatten)).Nodup := by
  have hnodup := h.nodup_records hunique hrows
  have heq : duplicateRows (recordsOf parts.flatten) =
      ((duplicates Record.value (recordsOf parts.flatten)).map Prod.snd).map
        fun record => record.row.toNat := by
    rw [duplicateRows, List.map_map]
    rfl
  rw [heq]
  refine List.Nodup.map_on ?_ (nodup_map_snd_duplicates hnodup)
  intro record hrecord other hother hsame
  have hrecord := ((mem_map_snd_duplicates hnodup).mp hrecord).1
  have hother := ((mem_map_snd_duplicates hnodup).mp hother).1
  obtain ⟨row, value, hcell, hkey, hrow⟩ := (h.mem_records hunique).mp hrecord
  obtain ⟨row', value', hcell', hkey', hrow'⟩ := (h.mem_records hunique).mp hother
  -- a row has one cell, and a cell one key
  have hlt := (List.getElem?_eq_some_iff.mp hcell).1.trans hrows
  have hlt' := (List.getElem?_eq_some_iff.mp hcell').1.trans hrows
  rw [hrow, hrow', UInt64.toNat_ofNat_of_lt' hlt, UInt64.toNat_ofNat_of_lt' hlt'] at hsame
  subst hsame
  obtain rfl := Option.some.inj (Option.some.inj (hcell.symm.trans hcell'))
  obtain ⟨key, _⟩ := record
  obtain ⟨key', _⟩ := other
  obtain rfl : key = key' := keyOf_unique hkey hkey'
  exact congrArg (Record.mk key) (hrow.trans hrow'.symm)

end ColumnPlan.Scanned

/-! ## A column of an execution -/

section Execution

variable {position : ℕ} {column : ColumnPlan}

theorem observeColumns_column {batch : RecordBatch} {rows : ℕ} {columns : List (ColumnPlan × ℕ)} :
    ∀ {uniques : List (Option (List Record))} {observed : ColumnsObserved} {position planIndex : ℕ}
      {records : Option (List Record)},
      observeColumns batch rows columns uniques = .ok observed →
      columns[position]? = some (column, planIndex) → uniques[position]? = some records →
      ∃ array events before after, batch.column column.columnIndex = .ok array ∧
        column.events array records.isSome rows = .ok events ∧
        observed.uniques[position]? = some (records.map (· ++ recordsOf events)) ∧
        observed.findings = before ++ (findingsOf events ++ after) := by
  induction columns with
  | nil =>
      intro uniques observed position planIndex records _ hcolumn _
      cases hcolumn
  | cons entry columns ih =>
      intro uniques observed position planIndex records h hcolumn hrecords
      cases uniques with
      | nil => cases h
      | cons first uniques =>
          obtain ⟨array, harray, h⟩ := bind_eq_ok.mp h
          obtain ⟨events, hevents, h⟩ := bind_eq_ok.mp h
          obtain ⟨rest, hrest, h⟩ := bind_eq_ok.mp h
          cases h
          cases position with
          | zero =>
              cases hcolumn
              cases hrecords
              exact ⟨array, events, [], rest.findings, harray, hevents, rfl, rfl⟩
          | succ position =>
              obtain ⟨found, performed, before, after, hfound, hperformed, huniques, hfindings⟩ :=
                ih hrest hcolumn hrecords
              refine ⟨found, performed, findingsOf events ++ before, after, hfound, hperformed,
                huniques, ?_⟩
              rw [hfindings, List.append_assoc]

/-- A turn of the scan shows a column its array of the batch. -/
theorem observeBatch_column {plan : CompiledContract} {scan next : ScanMeaning}
    {item : Except String RecordBatch} (h : observeBatch plan scan item = .ok next)
    (hcolumn : plan.columns[position]? = some column) {records : Option (List Record)}
    (hrecords : scan.uniques[position]? = some records) :
    ∃ batch array events rest, item = .ok batch ∧ batch.schema = plan.schema ∧
      batch.column column.columnIndex = .ok array ∧
      column.events array records.isSome scan.rows = .ok events ∧
      next.uniques[position]? = some (records.map (· ++ recordsOf events)) ∧
      next.rows = scan.rows + array.length ∧
      next.findings.Perm (scan.findings ++ (findingsOf events ++ rest)) := by
  obtain ⟨batch, hitem, h⟩ := bind_eq_ok.mp h
  obtain ⟨_, hschema, h⟩ := bind_eq_ok.mp h
  obtain ⟨_, -, h⟩ := bind_eq_ok.mp h
  obtain ⟨columns, hcolumns, h⟩ := bind_eq_ok.mp h
  obtain ⟨rowFindings, -, h⟩ := bind_eq_ok.mp h
  obtain ⟨⟨dataset, found⟩, -, h⟩ := bind_eq_ok.mp h
  obtain ⟨⟨references, nullFindings⟩, -, h⟩ := bind_eq_ok.mp h
  cases h
  have hentry : plan.columns.zipIdx[position]? = some (column, position) := by
    rw [List.getElem?_zipIdx, hcolumn, Option.map_some, Nat.zero_add]
  obtain ⟨array, events, before, after, harray, hevents, huniques, hfindings⟩ :=
    observeColumns_column hcolumns hentry hrecords
  refine ⟨batch, array, events, before ++ after ++ rowFindings ++ found ++ nullFindings,
    arrowItem_eq_ok.mp hitem, not_not.mp (rejectIf_eq_ok.mp hschema), harray, hevents, huniques,
    ?_, ?_⟩
  · rw [batch.lengths_eq array (mem_columns_of_column harray)]
  · dsimp only
    rw [hfindings]
    simp only [List.append_assoc, List.perm_append_left_iff]
    exact List.perm_append_comm_assoc ..

/-- The batches of a scan show a column its arrays. -/
theorem scan_column {plan : CompiledContract} {items : List (Except String RecordBatch)}
    (hcolumn : plan.columns[position]? = some column) :
    ∀ {scan last : ScanMeaning} {records : Option (List Record)},
      items.foldlM (observeBatch plan) scan = .ok last →
      scan.uniques[position]? = some records → records.isSome = column.rules.unique →
      ∃ (batches : List RecordBatch) (arrays : List ArrowArray) (events : List Event)
        (rest : List Finding), items = batches.map .ok ∧
        (∀ batch ∈ batches, batch.schema = plan.schema) ∧
        batches.mapM (fun batch => batch.column column.columnIndex) = .ok arrays ∧
        column.run arrays scan.rows = .ok events ∧
        last.uniques[position]? = some (records.map (· ++ recordsOf events)) ∧
        last.findings.Perm (scan.findings ++ (findingsOf events ++ rest)) := by
  induction items with
  | nil =>
      intro scan last records h hrecords _
      cases h
      refine ⟨[], [], [], [], rfl, by simp, rfl, rfl, ?_, ?_⟩
      · rw [hrecords]
        cases records <;> simp
      · simp
  | cons item items ih =>
      intro scan last records h hrecords hsome
      rw [List.foldlM_cons] at h
      obtain ⟨next, hnext, hlast⟩ := bind_eq_ok.mp h
      obtain ⟨batch, array, events, rest, rfl, hschema, harray, hevents, huniques, hrows, hperm⟩ :=
        observeBatch_column hnext hcolumn hrecords
      obtain ⟨batches, arrays, more, rest', rfl, hschemas, harrays, hmore, huniques', hperm'⟩ :=
        ih hlast huniques (by rw [Option.isSome_map, hsome])
      rw [hsome] at hevents
      rw [hrows] at hmore
      refine ⟨batch :: batches, array :: arrays, events ++ more, rest ++ rest', rfl,
        List.forall_mem_cons.mpr ⟨hschema, hschemas⟩,
        mapM_cons_eq_ok.mpr ⟨array, arrays, harray, harrays, rfl⟩,
        bind_eq_ok.mpr ⟨events, hevents, bind_eq_ok.mpr ⟨more, hmore, rfl⟩⟩, ?_, ?_⟩
      · rw [huniques']
        cases records with
        | none => rfl
        | some records => simp
      · refine hperm'.trans ((hperm.append_right _).trans ?_)
        simp only [findingsOf_append, List.append_assoc, List.perm_append_left_iff]
        exact List.perm_append_comm_assoc ..

/-- In the verdict of an execution stands what the rule of a column finds in the arrays of the
column, beside what the other rules find. -/
theorem verdict_column {reader : BatchReader} {plan : CompiledContract} {fingerprint : Bool}
    {references : ReferenceBindings} {maxMemoryBytes : ℕ} {verdict : Verdict}
    (h : verdictOf reader plan fingerprint references maxMemoryBytes = .ok verdict)
    (hcolumn : column ∈ plan.columns) :
    ∃ (batches : List RecordBatch) (arrays : List ArrowArray) (events : List Event)
      (rest : List Finding), reader.items = batches.map .ok ∧
      (∀ batch ∈ batches, batch.schema = plan.schema) ∧
      batches.mapM (fun batch => batch.column column.columnIndex) = .ok arrays ∧
      column.run arrays 0 = .ok events ∧
      verdict.findings.Perm (column.findings events ++ rest) := by
  obtain ⟨start, hstart, h⟩ := bind_eq_ok.mp h
  obtain ⟨scan, hscan, h⟩ := bind_eq_ok.mp h
  cases h
  obtain ⟨position, hposition⟩ := List.mem_iff_getElem?.mp hcolumn
  have hfresh : start.scan.rows = 0 ∧ start.scan.uniques = freshUniques plan ∧
      start.scan.findings = [] := by
    obtain ⟨_, -, hstart⟩ := bind_eq_ok.mp hstart
    obtain ⟨_, -, hstart⟩ := bind_eq_ok.mp hstart
    obtain ⟨_, -, hstart⟩ := bind_eq_ok.mp hstart
    obtain ⟨_, -, hstart⟩ := bind_eq_ok.mp hstart
    cases hstart
    exact ⟨rfl, rfl, rfl⟩
  have hrecords : start.scan.uniques[position]? =
      some (if column.rules.unique then some [] else none) := by
    rw [hfresh.2.1, freshUniques, List.getElem?_map, hposition]
    rfl
  obtain ⟨batches, arrays, events, rest, hitems, hschemas, harrays, hevents, huniques, hperm⟩ :=
    scan_column hposition hscan hrecords (by cases column.rules.unique <;> rfl)
  rw [hfresh.1] at hevents
  rw [hfresh.2.2, List.nil_append] at hperm
  obtain ⟨before, after, hsplit⟩ : ∃ before after,
      (plan.columns.zip scan.uniques).flatMap uniqueFindings =
        before ++ (uniqueFindings (column, if column.rules.unique then some (recordsOf events)
          else none) ++ after) := by
    have hmem : (column, if column.rules.unique then some (recordsOf events) else none) ∈
        plan.columns.zip scan.uniques := by
      refine List.mem_of_getElem? (i := position) (List.getElem?_zip_eq_some.mpr ⟨hposition, ?_⟩)
      rw [huniques]
      cases column.rules.unique <;> rfl
    obtain ⟨before, after, heq⟩ := List.append_of_mem hmem
    refine ⟨before.flatMap uniqueFindings, after.flatMap uniqueFindings, ?_⟩
    rw [heq, List.flatMap_append, List.flatMap_cons]
  refine ⟨batches, arrays, events, (rest ++ before) ++ (after ++ (
    referenceFindings (scan.references.zip start.prepared) ++
    rowCountDeltas plan.datasetPlan.rowCountDelta scan.rows start.counted ++
    scan.dataset.found scan.rows)), hitems, hschemas, harrays, hevents, ?_⟩
  simp only [ScanMeaning.verdict, ColumnPlan.findings, hsplit, List.append_assoc]
  refine (hperm.append_right _).trans ?_
  simp only [← List.append_assoc rest before, List.append_assoc (findingsOf events),
    List.perm_append_left_iff]
  exact List.perm_append_comm_assoc ..

end Execution

end ProofFrame
