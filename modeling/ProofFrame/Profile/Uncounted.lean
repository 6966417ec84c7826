import ProofFrame.Profile.Fingerprint
import ProofFrame.Profile.Inspection

/-!
# Profiles without distinct counts

A profile that counts no distinct values keeps nothing that could run out: every
dataset of encodable types has one, whatever the surroundings answer.
-/

namespace ProofFrame

open Lib Lib.Run Distinct

variable [Crates]

theorem exists_updateHash {array : ArrowArray} (hencodable : array.dataType.encodable = true)
    {row : ℕ} {cell : Option Value} (hcell : array.cell row = .ok cell) (column : ℕ) :
    ∃ bytes, updateHash column array row = .ok bytes := by
  obtain ⟨bytes, hbytes⟩ := exists_canonicalValueBytes hencodable cell
    (ArrowArray.admits_of_cell hcell)
  unfold updateHash
  rw [hcell, ok_bind, hbytes, ok_bind]
  exact ⟨_, rfl⟩

/-! ## Inspecting -/

/-- Columns whose distinct values are not counted. -/
def Uncounted (columns : ℕ) (inspection : Inspection ExactState) : Prop :=
  inspection.states.length = columns ∧ ∀ state ∈ inspection.states, state.distinct = none

theorem sat_inspectCell_uncounted {ω : Type} [Resuming ω] {columns row : ℕ}
    {inspection : Inspection ExactState} (h : Uncounted columns inspection)
    {entry : ArrowArray × ℕ} (hencodable : entry.1.dataType.encodable = true)
    (hrow : row < entry.1.cells.length) (hcolumn : entry.2 < columns) :
    Sat (inspectCell row inspection entry : Run ω Fault _) (Uncounted columns) fun _ => False := by
  have hcell : entry.1.cell row = .ok entry.1.cells[row] := by
    unfold ArrowArray.cell
    rw [List.getElem?_eq_getElem hrow]
  obtain ⟨bytes, hbytes⟩ := exists_updateHash hencodable hcell entry.2
  obtain ⟨valueKey, hvalueKey⟩ := exists_canonicalValueBytes hencodable _
    (ArrowArray.admits_of_cell hcell)
  have hkept : ∀ (state : ColumnState ExactState) hasher, state.distinct = none →
      Uncounted columns { inspection with hasher, states := inspection.states.set entry.2 state } := by
    intro state hasher hstate
    refine ⟨(List.length_set ..).trans h.1, fun other hother => ?_⟩
    rcases List.mem_or_eq_of_mem_set hother with hother | rfl
    · exact h.2 other hother
    · exact hstate
  unfold inspectCell
  apply (sat_lift (Q := fun _ => True) (fun _ _ => trivial) ?_).bind
  · intro hasher _
    apply (sat_someOr ?_).bind
    · intro state hstate
      have huncounted := h.2 state (List.mem_of_getElem? hstate)
      rw [hcell]
      apply (sat_lift (Q := fun cell => cell = entry.1.cells[row]) (fun _ h => by cases h; rfl)
        (by intro _ h; cases h)).bind
      rintro cell rfl
      split
      · exact sat_pure (hkept _ _ huncounted)
      · rename_i value hvalue
        rw [hvalue] at hvalueKey
        apply (sat_lift (Q := fun _ => True) (fun _ _ => trivial) ?_).bind
        · intro key _
          apply Sat.bind (Q := fun next => next.distinct = none)
          · unfold ColumnState.insert
            rw [huncounted]
            exact sat_pure huncounted
          · intro next hnext
            apply sat_pure (hkept _ _ _)
            unfold ColumnState.observeValue
            split <;> exact hnext
        · intro fault hfault
          rw [hvalueKey] at hfault
          cases hfault
    · intro hnone
      rw [List.getElem?_eq_none_iff, h.1] at hnone
      omega
  · intro fault hfault
    unfold hashCell at hfault
    rw [hbytes, ok_bind] at hfault
    cases hfault


omit [Crates] in
theorem sat_newColumnStates_uncounted {ω : Type} [Resuming ω] (schema : Schema)
    (resources : ResourceLimits) (rowCountHint : Option ℕ) (spill : SpillPolicy) :
    Sat (newColumnStates schema .none resources rowCountHint spill : Run ω Fault _)
      (fun states => states.length = schema.fields.length ∧ ∀ state ∈ states, state.distinct = none)
      fun _ => False := by
  unfold newColumnStates
  apply Sat.bind (Q := fun _ => True)
  · exact sat_pure trivial
  · intro directory _
    apply (sat_mapM (R := fun _ (state : ColumnState ExactState) => state.distinct = none)
      fun _ _ => sat_pure rfl).post
    intro states hstates
    refine ⟨hstates.length_eq.symm, fun state hstate => ?_⟩
    obtain ⟨index, hindex, rfl⟩ := List.getElem_of_mem hstate
    exact hstates.get (hstates.length_eq ▸ hindex) hindex

/-- Without distinct counts every batch of the schema is inspected. -/
theorem sat_inspectBatch_uncounted {ω : Type} [Resuming ω] {schema : Schema}
    (hencodable : schema.encodable = true) {batch : RecordBatch} (hschema : batch.schema = schema)
    {inspection : Inspection ExactState} (h : Uncounted schema.fields.length inspection) :
    Sat (inspectBatch schema inspection (.ok batch) : Run ω Fault _)
      (Uncounted schema.fields.length) fun _ => False := by
  have hcolumns : batch.columns.length = schema.fields.length := by
    rw [← hschema, ← batch.fields_eq, List.length_map]
  unfold inspectBatch traverseBatch
  apply (sat_lift (Q := fun read => read = batch) (fun _ h => by cases h; rfl)
    (by intro _ h; cases h)).bind
  rintro read rfl
  apply (sat_failIf fun hother => hother hschema).bind
  intro _ _
  apply Sat.bind (Q := Uncounted schema.fields.length)
  · apply sat_foldlM (fun _ => Uncounted schema.fields.length) h
    intro _ row rest inspection hrows h
    have hrow : row ∈ List.range read.rows := by simp [hrows]
    apply sat_foldlM (fun _ => Uncounted schema.fields.length) h
    intro _ entry _ inspection hentries h
    have hentry : entry ∈ read.columns.zipIdx := by simp [hentries]
    have harray : entry.1 ∈ read.columns := List.fst_mem_of_mem_zipIdx hentry
    have hfield : entry.1.field ∈ schema.fields := by
      rw [← hschema, ← read.fields_eq]
      exact List.mem_map_of_mem harray
    apply sat_inspectCell_uncounted h
    · rw [ArrowArray.dataType, ← Field.encodable_eq]
      exact List.all_eq_true.mp hencodable _ hfield
    · rw [← ArrowArray.length, read.lengths_eq _ harray]
      exact List.mem_range.mp hrow
    · rw [← hcolumns]
      exact List.snd_lt_of_mem_zipIdx hentry
  · intro inspection h
    exact sat_pure h

theorem sat_finishProfile_uncounted {ω : Type} [Resuming ω] {schema : Schema}
    {inspection : Inspection ExactState} (h : Uncounted schema.fields.length inspection) :
    Sat (finishProfile schema inspection : Run ω Fault _) (fun _ => True) fun _ => False := by
  unfold finishProfile
  apply Sat.bind (Q := fun _ => True)
  · apply (sat_mapM (R := fun _ _ => True) ?_).post fun _ _ => trivial
    intro entry hentry
    unfold finishColumnProfile
    rw [h.2 entry.2 (List.of_mem_zip hentry).2]
    exact sat_pure trivial
  · intro columns _
    exact sat_pure trivial

/-- Without distinct counts a dataset of encodable types always has a profile. -/
theorem total_inspectBatches_uncounted {ω : Type} [Resuming ω] {reader : BatchReader}
    (hencodable : reader.schema.encodable = true)
    (hitems : ∀ item ∈ reader.items, ∃ batch, item = .ok batch ∧ batch.schema = reader.schema)
    (resources : ResourceLimits) (rowCountHint : Option ℕ) (spill : SpillPolicy) :
    Run.Total (inspectBatches reader .none resources rowCountHint spill : Run ω Fault _) := by
  apply Sat.total (Q := fun _ => True) (E := fun _ => False) _ fun _ => id
  unfold inspectBatches
  apply Sat.bind (Q := Uncounted reader.schema.fields.length)
  · exact (sat_newColumnStates_uncounted _ _ _ _).bind fun _ hstates => sat_pure hstates
  · intro inspection h
    apply (sat_foldlM (fun _ => Uncounted reader.schema.fields.length) h ?_).bind
    · exact fun _ h => sat_finishProfile_uncounted h
    · intro done item rest inspection hsplit h
      obtain ⟨batch, rfl, hschema⟩ := hitems item (by simp [hsplit])
      exact sat_inspectBatch_uncounted hencodable hschema h

end ProofFrame
