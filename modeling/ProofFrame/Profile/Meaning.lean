import ProofFrame.Distinct.StateSpec
import ProofFrame.Lib.Steps
import ProofFrame.Profile.Inspection

/-!
# What a profile counts

The meaning of a profile keeps every distinct value of a column, so it has no
budget to exhaust.  An inspection refines it: whatever its surroundings answer,
it has fed the same bytes to the hasher and seen the same cells, and a column
that still counts holds the values of the meaning.

`unlessLimited` is where a budget ends without ending the run: a step whose only
faults are those of exact state goes on after the exhausted ones.
-/

namespace ProofFrame

open Lib Lib.Run Distinct

/-! ## Faults beside the budgets -/

/-- The codes of the faults no budget has a part in. -/
def unbudgetedCodes : List ErrorCode := [.io, .cancelled, .corruptPartition]

abbrev Unbudgeted : Fault → Prop := Fault.Coded unbudgetedCodes

/-- A fault of exact state is an exhausted budget or none. -/
theorem unbudgeted_iff {fault : Fault} (h : ExactFault fault) :
    Unbudgeted fault ↔ ¬∃ e, fault = .error e ∧ e.code = .resourceLimit := by
  cases fault with
  | error e =>
      simp only [Fault.Coded, exactCodes, unbudgetedCodes, List.mem_cons, List.not_mem_nil,
        or_false, Fault.error.injEq, exists_eq_left'] at h ⊢
      constructor
      · intro hcode hlimit
        simp [hlimit] at hcode
      · exact fun hlimit => h.resolve_left hlimit
  | panic site => cases h
  | diverged => cases h

/-- A caught step goes on after an exhausted budget, and ends in its other faults. -/
theorem Sat.unlessLimited {ω α : Type} [Resuming ω] {m : Run ω Fault α} {Q : α → Prop}
    {E E' : Fault → Prop} (h : Sat m Q E)
    (hE : ∀ fault, E fault → (∀ e, fault = .error e → e.code ≠ .resourceLimit) → E' fault) :
    Sat (unlessLimited m) (fun result => ∀ a ∈ result, Q a) E' := by
  intro world
  have hm := h world
  unfold ProofFrame.unlessLimited
  revert hm
  cases m world with
  | ok r =>
      rintro hQ a ⟨⟩
      exact hQ
  | error fault =>
      intro hfault
      cases fault with
      | error e =>
          by_cases hlimit : e.code = .resourceLimit
          · simp only [if_pos hlimit]
            rintro a ⟨⟩
          · simp only [if_neg hlimit]
            exact hE _ hfault (by rintro _ ⟨⟩; exact hlimit)
      | panic site => exact hE _ hfault (by rintro _ ⟨⟩)
      | diverged => exact hE _ hfault (by rintro _ ⟨⟩)

/-- A caught step of exact state leaves no exhausted budget behind. -/
theorem sat_unlessLimited {ω α : Type} [Resuming ω] {m : Run ω Fault α} {Q : α → Prop}
    (h : Sat m Q ExactFault) :
    Sat (unlessLimited m) (fun result => ∀ a ∈ result, Q a) Unbudgeted := by
  apply Sat.unlessLimited h
  intro fault hfault hother
  apply (unbudgeted_iff hfault).mpr
  rintro ⟨e, rfl, hlimit⟩
  exact hother e rfl hlimit

/-! ## The meaning -/

/-- One more value of a column. -/
def ColumnState.keep (model : ColumnState (List Record)) (valueKey : List UInt8)
    (globalRow : ℕ) : ColumnState (List Record) :=
  { model with
    distinct := model.distinct.map (· ++ [⟨.bytes valueKey, UInt64.ofNat globalRow⟩]) }

section Meaning

variable [Crates]

/-- What `inspectCell` sees in a cell. -/
def meanCell (row : ℕ) (inspection : Inspection (List Record)) (entry : ArrowArray × ℕ) :
    Except Fault (Inspection (List Record)) := do
  let hasher ← hashCell row inspection.hasher entry
  let model ← required inspection.states[entry.2]? outOfBounds
  let cell ← entry.1.cell row
  match cell with
  | none => pure { inspection with
      hasher, states := inspection.states.set entry.2 model.observeNull }
  | some value => do
      let valueKey ← canonicalValueBytes entry.1.dataType (some value)
      pure { inspection with
        hasher
        states := inspection.states.set entry.2
          ((model.keep valueKey (inspection.rows + row)).observeValue entry.1.dataType value) }

def meanBatch (schema : Schema) (inspection : Inspection (List Record))
    (item : Except String RecordBatch) : Except Fault (Inspection (List Record)) := do
  let batch ← arrowItem item
  rejectIf (batch.schema ≠ schema) profileSchemaChanged
  let inspection ← (List.range batch.rows).foldlM (fun inspection row =>
    batch.columns.zipIdx.foldlM (meanCell row) inspection) inspection
  pure { inspection with rows := inspection.rows + batch.rows }

/-- The columns before the first batch. -/
def meanStart (schema : Schema) (mode : DistinctMode) : Inspection (List Record) :=
  { hasher := profileHasher schema
    states := schema.fields.map fun _ => .initial (if mode = .exact then some [] else none)
    rows := 0 }

/-- The profile of a column that lost no value. -/
def ColumnState.meaning (model : ColumnState (List Record)) (field : Field) : ColumnProfile :=
  model.profile field (model.distinct.map fun records =>
    (records.map Record.value).toFinset.card)

def meanProfile (schema : Schema) (inspection : Inspection (List Record)) : Profile :=
  { rows := inspection.rows
    columns := (schema.fields.zip inspection.states).map fun (field, model) => model.meaning field
    fingerprint := v1Text inspection.hasher }

end Meaning

/-! ## What stands for the meaning -/

variable [Crates]

/-- A column that has seen the cells of its model, and holds its values unless it was limited. -/
structure ColumnState.Models (model : ColumnState (List Record)) (state : ColumnState ExactState) :
    Prop where
  nullCount_eq : state.nullCount = model.nullCount
  nonNullCount_eq : state.nonNullCount = model.nonNullCount
  min_eq : state.min = model.min
  max_eq : state.max = model.max
  unlimited : model.distinctLimited = false
  distinct : state.distinctLimited = true ∧ state.distinct = none ∧ model.distinct.isSome ∨
    state.distinctLimited = false ∧
      Option.Rel (fun records distinct => distinct.Holds records) model.distinct state.distinct

namespace ColumnState.Models

variable {model : ColumnState (List Record)} {state : ColumnState ExactState}

theorem observeNull (h : model.Models state) : model.observeNull.Models state.observeNull where
  nullCount_eq := by rw [ColumnState.observeNull, ColumnState.observeNull, h.nullCount_eq]
  nonNullCount_eq := h.nonNullCount_eq
  min_eq := h.min_eq
  max_eq := h.max_eq
  unlimited := h.unlimited
  distinct := h.distinct

theorem observeValue (h : model.Models state) (dataType : DataType) (value : Value) :
    (model.observeValue dataType value).Models (state.observeValue dataType value) := by
  unfold ColumnState.observeValue
  cases numericValue dataType value with
  | none => exact ⟨h.nullCount_eq, by rw [h.nonNullCount_eq], h.min_eq, h.max_eq, h.unlimited,
      h.distinct⟩
  | some number => exact ⟨h.nullCount_eq, by rw [h.nonNullCount_eq], by rw [h.min_eq],
      by rw [h.max_eq], h.unlimited, h.distinct⟩

/-- A value that finds no room costs the column its count and the run nothing. -/
theorem sat_insert {ω : Type} [Resuming ω] (h : model.Models state) (valueKey : List UInt8)
    (globalRow : ℕ) :
    Sat (state.insert valueKey globalRow : Run ω Fault _)
      ((model.keep valueKey globalRow).Models ·) Unbudgeted := by
  unfold ColumnState.insert
  rcases hstate : state.distinct with _ | distinct
  · apply sat_pure
    rcases h.distinct with ⟨hlimited, -, hsome⟩ | ⟨hlimited, hrel⟩
    · refine ⟨h.nullCount_eq, h.nonNullCount_eq, h.min_eq, h.max_eq, h.unlimited, .inl ?_⟩
      exact ⟨hlimited, hstate, by rw [ColumnState.keep, Option.isSome_map, hsome]⟩
    · refine ⟨h.nullCount_eq, h.nonNullCount_eq, h.min_eq, h.max_eq, h.unlimited, .inr ?_⟩
      refine ⟨hlimited, ?_⟩
      rw [hstate] at hrel ⊢
      unfold ColumnState.keep
      cases hmodel : model.distinct with
      | none => exact .none
      | some records =>
          rw [hmodel] at hrel
          cases hrel
  · obtain ⟨hlimited, hrel⟩ := h.distinct.resolve_left (by simp [hstate])
    rw [hstate] at hrel
    obtain ⟨records, hmodel, hholds⟩ : ∃ records, model.distinct = some records ∧
        distinct.Holds records := by
      cases hmodel : model.distinct with
      | none =>
          rw [hmodel] at hrel
          cases hrel
      | some records =>
          rw [hmodel] at hrel
          cases hrel with
          | some hholds => exact ⟨records, rfl, hholds⟩
    apply (sat_unlessLimited (ExactState.sat_insert hholds _ _)).bind
    intro result hresult
    cases result with
    | none =>
        apply sat_pure
        refine ⟨h.nullCount_eq, h.nonNullCount_eq, h.min_eq, h.max_eq, h.unlimited, .inl ?_⟩
        exact ⟨rfl, rfl, by rw [ColumnState.keep, Option.isSome_map, hmodel, Option.isSome_some]⟩
    | some next =>
        apply sat_pure
        refine ⟨h.nullCount_eq, h.nonNullCount_eq, h.min_eq, h.max_eq, h.unlimited, .inr ?_⟩
        refine ⟨hlimited, ?_⟩
        unfold ColumnState.keep
        rw [hmodel]
        exact .some (hresult next rfl).1

end ColumnState.Models

/-- An inspection that has seen what its model has seen. -/
structure Inspection.Models (model : Inspection (List Record)) (inspection : Inspection ExactState) :
    Prop where
  hasher_eq : inspection.hasher = model.hasher
  rows_eq : inspection.rows = model.rows
  states : List.Forall₂ ColumnState.Models model.states inspection.states

namespace Inspection.Models

variable {model : Inspection (List Record)} {inspection : Inspection ExactState}

theorem set (h : model.Models inspection) (hasher : List UInt8) (column : ℕ)
    {columnModel : ColumnState (List Record)} {state : ColumnState ExactState}
    (hstate : columnModel.Models state) :
    Models { model with hasher, states := model.states.set column columnModel }
      { inspection with hasher, states := inspection.states.set column state } where
  hasher_eq := rfl
  rows_eq := h.rows_eq
  states := by
    apply List.forall₂_iff_get.mpr
    obtain ⟨hlength, hget⟩ := List.forall₂_iff_get.mp h.states
    refine ⟨by simp [hlength], fun index hmodel hinspection => ?_⟩
    simp only [List.get_eq_getElem, List.getElem_set]
    split
    · exact hstate
    · exact hget index _ _

theorem rel_getElem? (h : model.Models inspection) (column : ℕ) :
    Option.Rel ColumnState.Models model.states[column]? inspection.states[column]? := by
  obtain ⟨hlength, hget⟩ := List.forall₂_iff_get.mp h.states
  by_cases hlt : column < model.states.length
  · rw [List.getElem?_eq_getElem hlt, List.getElem?_eq_getElem (hlength ▸ hlt)]
    exact .some (hget column hlt _)
  · rw [List.getElem?_eq_none (Nat.not_lt.mp hlt),
      List.getElem?_eq_none (hlength ▸ Nat.not_lt.mp hlt)]
    exact .none

end Inspection.Models

section Scan

variable {ω : Type} [Resuming ω]

theorem refines_inspectCell (row : ℕ) {model : Inspection (List Record)}
    {inspection : Inspection ExactState} (h : model.Models inspection) (entry : ArrowArray × ℕ) :
    Refines Unbudgeted (inspectCell row inspection entry : Run ω Fault _)
      (meanCell row model entry) Inspection.Models := by
  unfold inspectCell meanCell
  rw [h.hasher_eq]
  apply (refines_lift (S := Eq) fun _ _ => rfl).bind
  rintro hasher _ _ rfl
  apply (refines_someOr (h.rel_getElem? entry.2)).bind
  intro columnModel state _ hstate
  apply (refines_lift (S := Eq) fun _ _ => rfl).bind
  rintro cell _ _ rfl
  cases cell with
  | none => exact refines_pure (h.set hasher entry.2 hstate.observeNull)
  | some value =>
      apply (refines_lift (S := Eq) fun _ _ => rfl).bind
      rintro valueKey _ _ rfl
      apply Refines.after (Q := ((columnModel.keep valueKey (model.rows + row)).Models ·))
      · rw [h.rows_eq]
        exact hstate.sat_insert valueKey _
      intro next hnext
      exact refines_pure (h.set hasher entry.2 (hnext.observeValue _ _))

theorem refines_inspectBatch (schema : Schema) {model : Inspection (List Record)}
    {inspection : Inspection ExactState} (h : model.Models inspection)
    (item : Except String RecordBatch) :
    Refines Unbudgeted (inspectBatch schema inspection item : Run ω Fault _)
      (meanBatch schema model item) Inspection.Models := by
  unfold inspectBatch traverseBatch meanBatch
  apply (refines_lift (S := Eq) fun _ _ => rfl).bind
  rintro batch _ _ rfl
  apply refines_failIf.bind
  intro _ _ _ _
  apply (refines_foldlM (R := Inspection.Models) (fun row _ _ _ h =>
    refines_foldlM (R := Inspection.Models) (fun entry _ _ _ h => refines_inspectCell row h entry) h)
    h).bind
  intro model inspection _ h
  exact refines_pure ⟨h.hasher_eq, congrArg (· + batch.rows) h.rows_eq, h.states⟩

/-- An inspection sees what its meaning sees, or stops for something other than a budget. -/
theorem refines_inspection (schema : Schema) {model : Inspection (List Record)}
    {inspection : Inspection ExactState} (h : model.Models inspection)
    (items : List (Except String RecordBatch)) :
    Refines Unbudgeted (items.foldlM (inspectBatch schema) inspection : Run ω Fault _)
      (items.foldlM (meanBatch schema) model) Inspection.Models :=
  refines_foldlM (fun item _ _ _ h => refines_inspectBatch schema h item) h

/-- The columns an inspection starts with are those of the meaning. -/
theorem sat_startInspection (schema : Schema) (mode : DistinctMode) (resources : ResourceLimits)
    (rowCountHint : Option ℕ) (spill : SpillPolicy) :
    Sat (startInspection schema mode resources rowCountHint spill : Run ω Fault _)
      ((meanStart schema mode).Models ·) ExactFault := by
  unfold startInspection newColumnStates
  apply Sat.bind (Q := List.Forall₂ ColumnState.Models (meanStart schema mode).states)
  · apply Sat.bind (Q := fun _ => True)
    · exact (sat_whenever (fun _ => sat_io_exact _) fun _ => trivial).bind
        fun _ _ => sat_pure trivial
    · intro directory _
      apply Sat.post (Q := List.Forall₂ (fun _ => ColumnState.Models
        (.initial (if mode = .exact then some [] else none))) schema.fields) _ fun _ hstates =>
          List.forall₂_map_left_iff.mpr hstates
      apply sat_mapM
      intro field _
      cases mode with
      | none => exact sat_pure ⟨rfl, rfl, rfl, rfl, rfl, .inr ⟨rfl, .none⟩⟩
      | exact =>
          apply (ExactState.sat_new _ _ _ _).bind
          intro distinct hdistinct
          exact sat_pure ⟨rfl, rfl, rfl, rfl, rfl, .inr ⟨rfl, .some hdistinct.1⟩⟩
  · intro states hstates
    exact sat_pure ⟨rfl, rfl, hstates⟩

end Scan

/-! ## What a profile reports -/

/-- The column as it is, or without the count it had. -/
def ColumnProfile.Degrades (column reported : ColumnProfile) : Prop :=
  reported = column ∨
    column.distinctCount.isSome ∧
      reported = { column with distinctCount := none, distinctLimited := true }

/-- The same profile, but that a column may have been limited. -/
structure Profile.Degrades (profile reported : Profile) : Prop where
  rows_eq : reported.rows = profile.rows
  fingerprint_eq : reported.fingerprint = profile.fingerprint
  columns : List.Forall₂ ColumnProfile.Degrades profile.columns reported.columns

theorem ColumnState.Models.sat_finish {ω : Type} [Resuming ω]
    {model : ColumnState (List Record)} {state : ColumnState ExactState} (h : model.Models state)
    (field : Field) :
    Sat (finishColumnProfile (field, state) : Run ω Fault _) ((model.meaning field).Degrades ·)
      ExactFault := by
  have hprofile : ∀ distinctCount, state.profile field distinctCount =
      { model.profile field distinctCount with distinctLimited := state.distinctLimited } := by
    intro distinctCount
    rw [ColumnState.profile, ColumnState.profile, h.nullCount_eq, h.nonNullCount_eq, h.min_eq,
      h.max_eq]
  have hunlimited : ∀ distinctCount, { model.profile field distinctCount with
      distinctLimited := false } = model.profile field distinctCount := by
    intro distinctCount
    rw [ColumnState.profile, h.unlimited]
  unfold finishColumnProfile ColumnState.meaning
  rcases h.distinct with ⟨hlimited, hnone, hsome⟩ | ⟨hlimited, hrel⟩
  · rw [hnone]
    apply sat_pure
    rw [hprofile, hlimited]
    exact .inr ⟨by rw [ColumnState.profile, Option.isSome_map, hsome], rfl⟩
  · generalize model.distinct = records, state.distinct = distinct at hrel
    cases hrel with
    | none =>
        apply sat_pure
        rw [hprofile, hlimited, hunlimited]
        exact .inl rfl
    | some hholds =>
        apply (ExactState.sat_finish hholds).bind
        intro summary hsummary
        apply sat_pure
        rw [hprofile, hlimited, hunlimited, hsummary.distinct_eq]
        exact .inl rfl

end ProofFrame
