import ProofFrame.Distinct.InMemory
import ProofFrame.Distinct.Requests
import ProofFrame.Execution.Integrity
import ProofFrame.Profile.Meaning
import ProofFrame.Profile.Uncounted

/-!
# Budgets of a profile

Only `insert` is caught when a budget is exhausted.  The samples that
`ExactState::new` reserves before the first batch, and the runs that
`ExactState::finish` seals and merges after the last one, are not: there an
exhausted budget ends the profile.  Everywhere else it costs the column its
count and nothing more.
-/

namespace ProofFrame

open Lib Lib.Run Distinct

variable [Crates]

/-! ## Profiles that went through -/

section Finish

variable {ω : Type} [Resuming ω]

theorem sat_finishProfile (schema : Schema) {model : Inspection (List Record)}
    {inspection : Inspection ExactState} (h : model.Models inspection) :
    Sat (finishProfile schema inspection : Run ω Fault _)
      ((meanProfile schema model).Degrades ·) ExactFault := by
  have hzip : List.Forall₂ (fun (entry : Field × ColumnState (List Record))
      (counted : Field × ColumnState ExactState) => counted.1 = entry.1 ∧ entry.2.Models counted.2)
      (schema.fields.zip model.states) (schema.fields.zip inspection.states) := by
    generalize schema.fields = fields
    have hstates := h.states
    generalize model.states = models, inspection.states = states at hstates
    induction hstates generalizing fields with
    | nil => simp
    | cons hstate _ ih =>
        cases fields with
        | nil => exact .nil
        | cons field fields => exact .cons ⟨rfl, hstate⟩ (ih fields)
  unfold finishProfile
  apply Sat.bind (Q := List.Forall₂ ColumnProfile.Degrades (meanProfile schema model).columns)
  · unfold meanProfile
    dsimp only
    generalize schema.fields.zip model.states = models at hzip ⊢
    generalize schema.fields.zip inspection.states = entries at hzip ⊢
    induction hzip with
    | nil => exact sat_pure .nil
    | @cons entry counted _ _ hentry _ ih =>
        obtain ⟨hfield, hmodels⟩ := hentry
        rw [List.mapM_cons, List.map_cons, ← hfield]
        apply (hmodels.sat_finish counted.1).bind
        intro column hcolumn
        apply ih.bind
        intro columns hcolumns
        exact sat_pure (.cons hcolumn hcolumns)
  · intro columns hcolumns
    exact sat_pure ⟨h.rows_eq, by rw [h.hasher_eq]; rfl, hcolumns⟩

/-- What `inspectBatches` does before the columns are finished. -/
def scanProfile (reader : BatchReader) (mode : DistinctMode) (resources : ResourceLimits)
    (rowCountHint : Option ℕ) (spill : SpillPolicy) : Run ω Fault (Inspection ExactState) := do
  let inspection ← startInspection reader.schema mode resources rowCountHint spill
  reader.items.foldlM (inspectBatch reader.schema) inspection

omit [Crates] in
theorem Profile.Degrades.eq_of_unlimited {profile reported : Profile}
    (h : profile.Degrades reported)
    (hunlimited : ∀ column ∈ reported.columns, column.distinctLimited = false) :
    reported = profile := by
  have hcolumns : reported.columns = profile.columns := by
    have hdegrades := h.columns
    generalize reported.columns = columns, profile.columns = unlimited at hdegrades hunlimited
    induction hdegrades with
    | nil => rfl
    | @cons _ column _ _ hcolumn _ ih =>
        rw [ih fun other hother => hunlimited other (List.mem_cons_of_mem _ hother)]
        rcases hcolumn with rfl | ⟨-, hlimited⟩
        · rfl
        · have := hunlimited column (List.mem_cons_self ..)
          rw [hlimited] at this
          cases this
  cases profile
  cases reported
  cases h.rows_eq
  cases h.fingerprint_eq
  cases hcolumns
  rfl

/-- A profile no column of which was limited is the meaning of its dataset. -/
theorem meaning_of_unlimited {reader : BatchReader} {mode : DistinctMode}
    {resources : ResourceLimits} {rowCountHint : Option ℕ} {spill : SpillPolicy}
    {world world' : ω} {profile : Profile}
    (h : inspectBatches reader mode resources rowCountHint spill world = .ok (profile, world'))
    (hunlimited : ∀ column ∈ profile.columns, column.distinctLimited = false) :
    ∃ last, reader.items.foldlM (meanBatch reader.schema) (meanStart reader.schema mode) =
      .ok last ∧ profile = meanProfile reader.schema last := by
  have hmeaning : Sat (inspectBatches reader mode resources rowCountHint spill : Run ω Fault _)
      (fun profile => ∃ last,
        reader.items.foldlM (meanBatch reader.schema) (meanStart reader.schema mode) = .ok last ∧
          (meanProfile reader.schema last).Degrades profile) fun _ => True := by
    unfold inspectBatches
    apply ((sat_startInspection _ _ _ _ _).mono (fun _ h => h) fun _ _ => trivial).bind
    intro inspection hstart
    apply (Sat.mono (refines_inspection _ hstart _) (fun _ h => h) fun _ _ => trivial).bind
    rintro inspection ⟨last, hlast, hmodels⟩
    apply ((sat_finishProfile _ hmodels).mono (fun _ h => h) fun _ _ => trivial).post
    intro profile hprofile
    exact ⟨last, hlast, hprofile⟩
  obtain ⟨last, hlast, hdegrades⟩ := hmeaning.of_ok h
  exact ⟨last, hlast, hdegrades.eq_of_unlimited hunlimited⟩

end Finish

/-! ## Columns of a scan -/

/-- The account of a column. -/
def columnAccount (resources : ResourceLimits) : ResourceAccount :=
  (ResourceAccount.root resources).child resources.maxMemoryBytes resources.maxTempBytes

section Counting

variable {ω : Type} [Resuming ω] {P : ExactState → Prop}

/-- The columns that count hold their values so. -/
def Inspection.Counting (P : ExactState → Prop) (inspection : Inspection ExactState) : Prop :=
  ∀ state ∈ inspection.states, ∀ distinct ∈ state.distinct, P distinct

theorem sat_inspectCell_counting
    (hinsert : ∀ distinct valueKey row, P distinct →
      Sat (distinct.insert (.bytes valueKey) row : Run ω Fault _) P fun _ => True)
    {inspection : Inspection ExactState} (h : inspection.Counting P) (row : ℕ)
    (entry : ArrowArray × ℕ) :
    Sat (inspectCell row inspection entry : Run ω Fault _) (Inspection.Counting P)
      fun _ => True := by
  have hkept : ∀ (state : ColumnState ExactState) hasher, (∀ distinct ∈ state.distinct, P distinct) →
      Inspection.Counting P
        { inspection with hasher, states := inspection.states.set entry.2 state } := by
    intro state hasher hstate other hother
    rcases List.mem_or_eq_of_mem_set hother with hother | rfl
    · exact h other hother
    · exact hstate
  unfold inspectCell
  apply (sat_known trivial).bind
  intro hasher _
  apply Sat.bind (Q := fun state => ∀ distinct ∈ state.distinct, P distinct)
  · unfold someOr
    split
    · rename_i state hstate
      exact sat_pure (h state (List.mem_of_getElem? hstate))
    · exact sat_throw trivial
  intro state hstate
  apply (sat_known trivial).bind
  intro cell _
  cases cell with
  | none => exact sat_pure (hkept _ _ hstate)
  | some value =>
      apply (sat_known trivial).bind
      intro valueKey _
      apply Sat.bind (Q := fun next => ∀ distinct ∈ next.distinct, P distinct)
      · unfold ColumnState.insert
        split
        · exact sat_pure hstate
        · rename_i distinct hdistinct
          apply (Sat.unlessLimited (hinsert distinct valueKey _ (hstate _ hdistinct))
            fun _ _ _ => trivial).bind
          intro result hresult
          cases result with
          | none =>
              apply sat_pure
              rintro _ ⟨⟩
          | some next =>
              apply sat_pure
              rintro _ ⟨⟩
              exact hresult _ rfl
      · intro next hnext
        apply sat_pure (hkept _ _ _)
        unfold ColumnState.observeValue
        split <;> exact hnext

theorem sat_scanProfile_counting
    (hinsert : ∀ distinct valueKey row, P distinct →
      Sat (distinct.insert (.bytes valueKey) row : Run ω Fault _) P fun _ => True)
    {reader : BatchReader} {mode : DistinctMode} {resources : ResourceLimits}
    {rowCountHint : Option ℕ} {spill : SpillPolicy}
    (hnew : Sat (newColumnStates reader.schema mode resources rowCountHint spill : Run ω Fault _)
      (fun states => ∀ state ∈ states, ∀ distinct ∈ state.distinct, P distinct) fun _ => True) :
    Sat (scanProfile reader mode resources rowCountHint spill : Run ω Fault _)
      (Inspection.Counting P) fun _ => True := by
  unfold scanProfile
  apply Sat.bind (Q := Inspection.Counting P)
  · exact hnew.bind fun _ hstates => sat_pure hstates
  · intro inspection h
    apply sat_foldlM (fun _ => Inspection.Counting P) h
    intro _ item _ inspection _ h
    unfold inspectBatch traverseBatch
    apply (sat_known trivial).bind
    intro batch _
    apply (sat_known trivial).bind
    intro _ _
    apply Sat.bind (Q := Inspection.Counting P)
    · apply sat_foldlM (fun _ => Inspection.Counting P) h
      intro _ row _ inspection _ h
      apply sat_foldlM (fun _ => Inspection.Counting P) h
      intro _ entry _ inspection _ h
      exact sat_inspectCell_counting hinsert h row entry
    · intro inspection h
      exact sat_pure h

omit [Crates] in
/-- Columns are set up to hold their values so, whatever the directory, if sets of values are. -/
theorem sat_newColumnStates_counting {D : Option String → Prop} {mode : DistinctMode}
    {resources : ResourceLimits} {rowCountHint : Option ℕ} {spill : SpillPolicy}
    (hdirectory : Sat (createDirectoryIf (mode = .exact && spill = .auto) : Run ω Fault _) D
      fun _ => True)
    (hnew : ∀ directory, D directory →
      Sat (ExactState.new .bytes (columnAccount resources) directory rowCountHint : Run ω Fault _) P
        fun _ => True) (schema : Schema) :
    Sat (newColumnStates schema mode resources rowCountHint spill : Run ω Fault _)
      (fun states => ∀ state ∈ states, ∀ distinct ∈ state.distinct, P distinct) fun _ => True := by
  unfold newColumnStates
  refine hdirectory.bind fun directory hfound => ?_
  apply (sat_mapM (R := fun _ (state : ColumnState ExactState) =>
    ∀ distinct ∈ state.distinct, P distinct) _).post
  · intro states hstates state hstate
    obtain ⟨index, hindex, rfl⟩ := List.getElem_of_mem hstate
    exact hstates.get (hstates.length_eq ▸ hindex) hindex
  · intro field _
    cases mode with
    | none =>
        apply sat_pure
        rintro _ ⟨⟩
    | exact =>
        refine (hnew directory hfound).bind fun distinct hdistinct => ?_
        apply sat_pure
        rintro _ ⟨⟩
        exact hdistinct

/-- After the last batch the columns that count are settled. -/
theorem settled_scanProfile (reader : BatchReader) (mode : DistinctMode) (resources : ResourceLimits)
    (rowCountHint : Option ℕ) (spill : SpillPolicy) :
    Sat (scanProfile reader mode resources rowCountHint spill : Run ω Fault _)
      (Inspection.Counting ExactState.Settled) fun _ => True :=
  sat_scanProfile_counting (fun _ _ _ hdistinct => hdistinct.sat_insert _ _)
    (sat_newColumnStates_counting (sat_known trivial) (fun _ _ => ExactState.settled_new) _)

end Counting

/-! ## When budgets never fail a profile -/

/-- A run ends in the profile, up to the counts of limited columns, or in a fault no budget has a
part in. -/
def ToleratesBudgets {ω : Type} (profile : Profile) : Except Fault (Profile × ω) → Prop
  | .ok (reported, _) => profile.Degrades reported
  | .error fault => Unbudgeted fault

section Requests

variable {ω : Type} [Resuming ω]

/-- What happens before a column reserves its samples: the columns before it are set up. -/
def beforeSamples (mode : DistinctMode) (resources : ResourceLimits) (rowCountHint : Option ℕ)
    (spill : SpillPolicy) (earlier : List Field) : Run ω Fault Unit := do
  let directory ← createDirectoryIf (mode = .exact && spill = .auto)
  let _ ← earlier.mapM fun _ => ColumnState.new mode (.root resources) directory rowCountHint
    resources.maxMemoryBytes
  whenever directory.isSome (ioOperation .openDirectory)

/-- The surroundings grant the bytes that are asked for outside of `insert`.  Before the first batch
every counting column in its turn asks for sixteen bytes of memory for each of its samples; after
the last one every column that has spilled asks for what it takes to merge its runs. -/
structure BudgetsSuffice (reader : BatchReader) (mode : DistinctMode) (resources : ResourceLimits)
    (rowCountHint : Option ℕ) (spill : SpillPolicy) (world : ω) : Prop where
  samples : mode = .exact → ∀ earlier field later, reader.schema.fields = earlier ++ field :: later →
    GrantsAfter (beforeSamples mode resources rowCountHint spill earlier) (columnAccount resources)
      .memory (resources.maxSamples * sizeOfDuplicateSample) world
  merges : ∀ inspection scanned,
    scanProfile reader mode resources rowCountHint spill world = .ok (inspection, scanned) →
      ∀ earlier entry later, reader.schema.fields.zip inspection.states = earlier ++ entry :: later →
        ∀ profiles next, earlier.mapM finishColumnProfile scanned = .ok (profiles, next) →
          ∀ distinct ∈ entry.2.distinct, distinct.runs ≠ [] → distinct.MergesWithin next

omit [Crates] in
theorem unlimited_createDirectoryIf (condition : Bool) :
    Unlimited (createDirectoryIf condition : Run ω Fault _) :=
  (Unlimited.ite (fun _ => unlimited_ioOperation _) fun _ => unlimited_pure ()).bind
    fun _ => unlimited_pure _

variable {mode : DistinctMode} {resources : ResourceLimits} {rowCountHint : Option ℕ}
  {spill : SpillPolicy} {world : ω}

omit [Crates] in
/-- The columns meet a limit if the samples of one of them are refused. -/
theorem not_meetsLimit_newColumnStates_iff {schema : Schema} :
    ¬MeetsLimit (newColumnStates schema mode resources rowCountHint spill) world ↔
      (mode = .exact → ∀ earlier field later, schema.fields = earlier ++ field :: later →
        GrantsAfter (beforeSamples mode resources rowCountHint spill earlier)
          (columnAccount resources) .memory (resources.maxSamples * sizeOfDuplicateSample) world) := by
  unfold newColumnStates
  rw [(unlimited_createDirectoryIf _).meetsLimit_bind]
  cases mode with
  | none =>
      refine iff_of_true ?_ nofun
      rintro ⟨directory, next, -, hmeets⟩
      exact unlimited_mapM (fun _ => unlimited_pure _) next hmeets
  | exact =>
      have hnew : ∀ (directory : Option String) (next : ω), MeetsLimit (ColumnState.new .exact
          (.root resources) directory rowCountHint resources.maxMemoryBytes) next ↔
            ¬GrantsAfter (whenever directory.isSome (ioOperation .openDirectory))
              (columnAccount resources) .memory (resources.maxSamples * sizeOfDuplicateSample) next := by
        intro directory next
        refine (meetsLimit_bind_unlimited fun _ => unlimited_pure _).trans ?_
        exact ExactState.meetsLimit_new_iff
      simp only [meetsLimit_mapM_iff, hnew]
      constructor
      · intro hnot _ earlier field later hfields u last hbefore
        obtain ⟨directory, next, hdirectory, hbefore⟩ := bind_ok_iff.mp hbefore
        obtain ⟨states, middle, hstates, hopen⟩ := bind_ok_iff.mp hbefore
        by_contra hrefused
        exact hnot ⟨directory, next, hdirectory, earlier, field, later, hfields, states, middle,
          hstates, fun hgranted => hrefused (hgranted u last hopen)⟩
      · rintro hsamples ⟨directory, next, hdirectory, earlier, field, later, hfields, states, middle,
          hstates, hrefused⟩
        refine hrefused fun u last hopen => hsamples trivial earlier field later hfields u last ?_
        exact bind_ok_iff.mpr ⟨directory, next, hdirectory,
          bind_ok_iff.mpr ⟨states, middle, hstates, hopen⟩⟩

/-- A column meets a limit when it is finished if its runs cannot be merged. -/
theorem meetsLimit_finishColumnProfile_iff {entry : Field × ColumnState ExactState}
    (hsettled : ∀ distinct ∈ entry.2.distinct, distinct.Settled) :
    MeetsLimit (finishColumnProfile entry) world ↔
      ∃ distinct ∈ entry.2.distinct, distinct.runs ≠ [] ∧ ¬distinct.MergesWithin world := by
  unfold finishColumnProfile
  split
  · rename_i hnone
    refine iff_of_false (unlimited_pure _ world) ?_
    rintro ⟨distinct, hdistinct, -⟩
    rw [hnone] at hdistinct
    cases hdistinct
  · rename_i distinct hdistinct
    rw [meetsLimit_bind_unlimited fun _ => unlimited_pure _,
      ExactState.meetsLimit_finish_iff (hsettled _ hdistinct)]
    simp [hdistinct]

/-- Budgets suffice where neither the columns nor their profiles meet a limit. -/
theorem budgetsSuffice_iff {reader : BatchReader} :
    BudgetsSuffice reader mode resources rowCountHint spill world ↔
      ¬MeetsLimit (newColumnStates reader.schema mode resources rowCountHint spill) world ∧
        ∀ inspection scanned,
          scanProfile reader mode resources rowCountHint spill world = .ok (inspection, scanned) →
            ¬MeetsLimit ((reader.schema.fields.zip inspection.states).mapM finishColumnProfile)
              scanned := by
  rw [not_meetsLimit_newColumnStates_iff]
  have hmerges : ∀ inspection scanned,
      scanProfile reader mode resources rowCountHint spill world = .ok (inspection, scanned) →
        (¬MeetsLimit ((reader.schema.fields.zip inspection.states).mapM finishColumnProfile) scanned ↔
          ∀ earlier entry later, reader.schema.fields.zip inspection.states =
            earlier ++ entry :: later → ∀ profiles next,
              earlier.mapM finishColumnProfile scanned = .ok (profiles, next) →
                ∀ distinct ∈ entry.2.distinct, distinct.runs ≠ [] → distinct.MergesWithin next) := by
    intro inspection scanned hscan
    have hsettled := (settled_scanProfile reader mode resources rowCountHint spill).of_ok hscan
    have hfinish : ∀ entry ∈ reader.schema.fields.zip inspection.states, ∀ next : ω,
        (MeetsLimit (finishColumnProfile entry) next ↔
          ∃ distinct ∈ entry.2.distinct, distinct.runs ≠ [] ∧ ¬distinct.MergesWithin next) :=
      fun entry hentry next =>
        meetsLimit_finishColumnProfile_iff (hsettled _ (List.of_mem_zip hentry).2)
    rw [meetsLimit_mapM_iff]
    constructor
    · intro hnot earlier entry later hentries profiles next hprofiles distinct hdistinct hruns
      by_contra hrefused
      have hmem : entry ∈ reader.schema.fields.zip inspection.states := by simp [hentries]
      exact hnot ⟨earlier, entry, later, hentries, profiles, next, hprofiles,
        (hfinish entry hmem next).mpr ⟨distinct, hdistinct, hruns, hrefused⟩⟩
    · rintro hmerges ⟨earlier, entry, later, hentries, profiles, next, hprofiles, hmeets⟩
      have hmem : entry ∈ reader.schema.fields.zip inspection.states := by simp [hentries]
      obtain ⟨distinct, hdistinct, hruns, hrefused⟩ := (hfinish entry hmem next).mp hmeets
      exact hrefused (hmerges earlier entry later hentries profiles next hprofiles distinct hdistinct
        hruns)
  constructor
  · exact fun h => ⟨h.samples, fun inspection scanned hscan =>
      (hmerges inspection scanned hscan).mpr (h.merges inspection scanned hscan)⟩
  · exact fun h => ⟨h.1, fun inspection scanned hscan =>
      (hmerges inspection scanned hscan).mp (h.2 inspection scanned hscan)⟩

end Requests

section Limits

variable {ω α β : Type} {m : Run ω Fault α} {world : ω}

omit [Crates]

/-- A step with the faults of exact state ends for want of a budget or of something else. -/
theorem unbudgeted_iff_not_meetsLimit {Q : α → Prop} (h : Sat m Q ExactFault) {fault : Fault}
    (hm : m world = .error fault) : Unbudgeted fault ↔ ¬MeetsLimit m world := by
  unfold MeetsLimit
  rw [unbudgeted_iff (h.of_error hm), hm]
  simp only [Except.error.injEq]

end Limits

/-- **Budgets of a profile.**  Let a profile of the dataset have gone through with no column
limited.  Under any budgets the dataset has the same profile, up to the counts of the columns
marked as limited, if and only if no budget is exhausted where it is not caught. -/
theorem toleratesBudgets_iff {ω₀ ω : Type} [Resuming ω₀] [Resuming ω] {reader : BatchReader}
    {mode : DistinctMode} {resources₀ : ResourceLimits} {rowCountHint₀ : Option ℕ}
    {spill₀ : SpillPolicy} {world₀ world₀' : ω₀} {unlimited : Profile}
    (h : inspectBatches reader mode resources₀ rowCountHint₀ spill₀ world₀ =
      .ok (unlimited, world₀'))
    (hunlimited : ∀ column ∈ unlimited.columns, column.distinctLimited = false)
    (resources : ResourceLimits) (rowCountHint : Option ℕ) (spill : SpillPolicy) (world : ω) :
    ToleratesBudgets unlimited (inspectBatches reader mode resources rowCountHint spill world) ↔
      BudgetsSuffice reader mode resources rowCountHint spill world := by
  rw [budgetsSuffice_iff]
  obtain ⟨last, hmeaning, rfl⟩ := meaning_of_unlimited h hunlimited
  have hstart := sat_startInspection (ω := ω) reader.schema mode resources rowCountHint spill
  have hsamples : MeetsLimit (startInspection reader.schema mode resources rowCountHint spill) world ↔
      MeetsLimit (newColumnStates reader.schema mode resources rowCountHint spill) world :=
    meetsLimit_bind_unlimited fun _ => unlimited_pure _
  unfold inspectBatches
  rw [bind_eq]
  rcases hrun : startInspection reader.schema mode resources rowCountHint spill world with
    fault | ⟨inspection, world'⟩
  · -- the columns cannot be set up
    have hfault := unbudgeted_iff_not_meetsLimit hstart hrun
    rw [hsamples] at hfault
    refine ⟨fun htolerates => ⟨hfault.mp htolerates, ?_⟩, fun hsuffice => hfault.mpr hsuffice.1⟩
    intro inspection world' hscan
    unfold scanProfile at hscan
    rw [bind_eq, hrun] at hscan
    cases hscan
  have hgranted := hsamples.not.mp (not_meetsLimit_of_ok hrun)
  have hmodels : Inspection.Models (meanStart reader.schema mode) inspection := hstart.of_ok hrun
  have hrefines := refines_inspection (ω := ω) reader.schema hmodels reader.items
  rw [hmeaning] at hrefines
  have hscan : scanProfile reader mode resources rowCountHint spill world =
      reader.items.foldlM (inspectBatch reader.schema) inspection world' := by
    unfold scanProfile
    rw [bind_eq, hrun]
  dsimp only
  rw [bind_eq]
  rcases hbatches : reader.items.foldlM (inspectBatch reader.schema) inspection world' with
    fault | ⟨inspection, world'⟩
  · -- the scan stops for something other than a budget
    have hfault : Unbudgeted fault := (hrefines.of_error hbatches).resolve_right (by rintro ⟨⟩)
    refine ⟨fun _ => ⟨hgranted, ?_⟩, fun _ => hfault⟩
    intro inspection world' h
    rw [hscan, hbatches] at h
    cases h
  rw [hbatches] at hscan
  obtain ⟨_, ⟨⟩, hlast⟩ := hrefines.of_ok hbatches
  have hfinish := sat_finishProfile (ω := ω) reader.schema hlast
  have hmerges : MeetsLimit (finishProfile reader.schema inspection) world' ↔
      MeetsLimit ((reader.schema.fields.zip inspection.states).mapM finishColumnProfile) world' :=
    meetsLimit_bind_unlimited fun _ => unlimited_pure _
  have hsuffices : (¬MeetsLimit (newColumnStates reader.schema mode resources rowCountHint spill)
      world ∧ ∀ inspection scanned,
        scanProfile reader mode resources rowCountHint spill world = .ok (inspection, scanned) →
          ¬MeetsLimit ((reader.schema.fields.zip inspection.states).mapM finishColumnProfile)
            scanned) ↔ ¬MeetsLimit (finishProfile reader.schema inspection) world' := by
    constructor
    · exact fun hsuffice => hmerges.not.mpr (hsuffice.2 _ _ hscan)
    · intro hlimit
      refine ⟨hgranted, fun other world'' hother => ?_⟩
      rw [hscan] at hother
      cases hother
      exact hmerges.not.mp hlimit
  rw [hsuffices]
  dsimp only
  rcases hprofile : finishProfile reader.schema inspection world' with fault | ⟨profile, world''⟩
  · exact unbudgeted_iff_not_meetsLimit hfinish hprofile
  · exact iff_of_true (hfinish.of_ok hprofile) (not_meetsLimit_of_ok hprofile)

/-! ## Where budgets always suffice -/

section Corollaries

variable {ω : Type} [Resuming ω]

/-- Where nothing is counted, no budget matters. -/
theorem budgetsSuffice_uncounted (reader : BatchReader) (resources : ResourceLimits)
    (rowCountHint : Option ℕ) (spill : SpillPolicy) (world : ω) :
    BudgetsSuffice reader .none resources rowCountHint spill world := by
  have hnew := sat_newColumnStates_uncounted (ω := ω) reader.schema resources rowCountHint spill
  refine ⟨by rintro ⟨⟩, fun inspection scanned hscan earlier entry later hentries _ _ _ => ?_⟩
  have huncounted : inspection.Counting fun _ => False := by
    refine (sat_scanProfile_counting (fun _ _ _ => False.elim) ?_).of_ok hscan
    apply hnew.mono _ fun _ _ => trivial
    rintro states ⟨-, hnone⟩ state hstate distinct hdistinct
    rw [hnone state hstate] at hdistinct
    cases hdistinct
  intro distinct hdistinct
  have hmem : entry ∈ reader.schema.fields.zip inspection.states := by simp [hentries]
  exact (huncounted _ (List.of_mem_zip hmem).2 _ hdistinct).elim

/-- In memory a column that has its samples needs nothing more to be finished. -/
theorem budgetsSuffice_inMemory_iff (reader : BatchReader) (mode : DistinctMode)
    (resources : ResourceLimits) (rowCountHint : Option ℕ) (world : ω) :
    BudgetsSuffice reader mode resources rowCountHint .never world ↔
      (mode = .exact → ∀ earlier field later, reader.schema.fields = earlier ++ field :: later →
        GrantsAfter (beforeSamples mode resources rowCountHint .never earlier)
          (columnAccount resources) .memory (resources.maxSamples * sizeOfDuplicateSample) world) := by
  refine ⟨fun h => h.samples,
    fun h => ⟨h, fun inspection scanned hscan earlier entry later hentries _ _ _ => ?_⟩⟩
  have hmemory : MemoryFaults ω fun _ => True :=
    ⟨fun _ _ => trivial, sat_known trivial, .inr fun _ => trivial⟩
  have hnew : Sat (newColumnStates reader.schema mode resources rowCountHint .never : Run ω Fault _)
      (fun states => ∀ state ∈ states, ∀ distinct ∈ state.distinct, distinct.Unspilled ω .bytes)
      fun _ => True := by
    refine sat_newColumnStates_counting (D := fun directory => directory = none) ?_ ?_ _
    · cases mode <;> exact sat_pure rfl
    · rintro _ rfl
      exact ExactState.sat_new_memory hmemory _ _ _ (.inr fun _ => trivial)
  have hunspilled : inspection.Counting (ExactState.Unspilled ω .bytes) :=
    (sat_scanProfile_counting (fun distinct valueKey row hdistinct =>
      hdistinct.sat_insert hmemory trivial rfl row) hnew).of_ok hscan
  intro distinct hdistinct hruns
  have hmem : entry ∈ reader.schema.fields.zip inspection.states := by simp [hentries]
  exact absurd (hunspilled _ (List.of_mem_zip hmem).2 _ hdistinct).runs_eq hruns

end Corollaries

/-! ## A budget without room for the samples -/

/-- A host that counts the bytes of memory it has handed out. -/
structure Metered where
  used : ℕ

instance : Resuming Metered where
  cancelled world := (false, world)
  reserve world account kind bytes :=
    if kind = .memory ∧ account.limits.maxMemoryBytes < world.used + bytes then
      (.error (world.used, account.limits.maxMemoryBytes), world)
    else (.ok (), { used := world.used + bytes })
  io world _ := (.ok (), world)
  peak world _ _ := world.used
  resume := id

section Metered

omit [Crates]

variable {resources : ResourceLimits} {rowCountHint : Option ℕ} {used : ℕ}

/-- The bytes of the samples of a column. -/
def sampleBytes (resources : ResourceLimits) : ℕ := resources.maxSamples * sizeOfDuplicateSample

theorem grants_metered_iff {bytes : ℕ} :
    Grants (columnAccount resources) .memory bytes (⟨used⟩ : Metered) ↔
      (bytes < 2 ^ 64 → used + bytes ≤ resources.maxMemoryBytes) := by
  refine imp_congr_right fun _ => ?_
  show (if _ then _ else _ : Except (ℕ × ℕ) Unit × Metered).1 = _ ↔ _
  split
  · rename_i hrefused
    exact iff_of_false nofun (not_le.mpr hrefused.2)
  · rename_i hgranted
    exact iff_of_true rfl (not_lt.mp fun hlt => hgranted ⟨rfl, hlt⟩)

theorem reserve_metered_iff {bytes : ℕ} {u : Unit} {next : Metered} :
    reserve (columnAccount resources) .memory bytes (⟨used⟩ : Metered) = .ok (u, next) ↔
      used + bytes ≤ resources.maxMemoryBytes ∧ next = ⟨used + bytes⟩ := by
  by_cases hroom : used + bytes ≤ resources.maxMemoryBytes
  · have hreserve : Host.reserve (⟨used⟩ : Metered) (columnAccount resources) .memory bytes =
        (.ok (), ⟨used + bytes⟩) := if_neg fun hrefused => absurd hroom (not_le.mpr hrefused.2)
    unfold reserve tryReserve
    rw [bind_eq, hreserve, and_iff_right hroom]
    exact ⟨fun h => by cases h; rfl, fun h => by rw [h]; rfl⟩
  · have hreserve : Host.reserve (⟨used⟩ : Metered) (columnAccount resources) .memory bytes =
        (.error (used, resources.maxMemoryBytes), ⟨used⟩) := if_pos ⟨rfl, not_le.mp hroom⟩
    unfold reserve tryReserve
    rw [bind_eq, hreserve]
    exact iff_of_false (by rintro ⟨⟩) fun h => hroom h.1

theorem new_metered_iff {directory : Option String} {next : Metered} :
    (∃ state, ColumnState.new .exact (.root resources) directory rowCountHint
      resources.maxMemoryBytes (⟨used⟩ : Metered) = .ok (state, next)) ↔
        (sampleBytes resources < 2 ^ 64 ∧ used + sampleBytes resources ≤ resources.maxMemoryBytes) ∧
          next = ⟨used + sampleBytes resources⟩ := by
  have hopen : whenever directory.isSome (ioOperation .openDirectory) (⟨used⟩ : Metered) =
      (.ok ((), ⟨used⟩) : Except Fault (Unit × Metered)) := by cases directory <;> rfl
  have hmul := checked_checkedMul (ω := Metered) "Exact sample size overflowed" resources.maxSamples
    sizeOfDuplicateSample ⟨used⟩
  constructor
  · rintro ⟨state, hnew⟩
    obtain ⟨distinct, last, hdistinct, hnew⟩ := bind_ok_iff.mp hnew
    cases hnew
    obtain ⟨_, opened, hopened, hdistinct⟩ := bind_ok_iff.mp hdistinct
    rw [hopen] at hopened
    cases hopened
    obtain ⟨bytes, multiplied, hbytes, hdistinct⟩ := bind_ok_iff.mp hdistinct
    rcases hmul with ⟨hlt, hmul⟩ | ⟨-, message, hmul⟩
    · have hbytes := hmul.symm.trans hbytes
      cases hbytes
      obtain ⟨u, reserved, hreserve, hdistinct⟩ := bind_ok_iff.mp hdistinct
      cases hdistinct
      obtain ⟨hroom, hnext⟩ := reserve_metered_iff.mp hreserve
      exact ⟨⟨hlt, hroom⟩, hnext⟩
    · have hbytes := hmul.symm.trans hbytes
      cases hbytes
  · rintro ⟨⟨hlt, hroom⟩, hnext⟩
    rcases hmul with ⟨-, hmul⟩ | ⟨hlarge, -⟩
    · have hreserve := (reserve_metered_iff (u := ())).mpr ⟨hroom, hnext⟩
      exact ⟨_, bind_ok_iff.mpr ⟨_, next, bind_ok_iff.mpr ⟨(), _, hopen, bind_ok_iff.mpr
        ⟨_, _, hmul, bind_ok_iff.mpr ⟨(), next, hreserve, rfl⟩⟩⟩, rfl⟩⟩
    · exact absurd hlt (not_lt.mpr hlarge)

/-- Columns are set up while there is room for the samples of all of them. -/
theorem mapM_new_metered_iff {directory : Option String} {fields : List Field} {next : Metered} :
    (∃ states, fields.mapM (fun _ => ColumnState.new .exact (.root resources) directory rowCountHint
      resources.maxMemoryBytes) (⟨used⟩ : Metered) = .ok (states, next)) ↔
        (fields ≠ [] → sampleBytes resources < 2 ^ 64 ∧
          used + fields.length * sampleBytes resources ≤ resources.maxMemoryBytes) ∧
            next = ⟨used + fields.length * sampleBytes resources⟩ := by
  induction fields generalizing used next with
  | nil =>
      simp only [List.mapM_nil, List.length_nil, Nat.zero_mul, Nat.add_zero, ne_eq, not_true_eq_false,
        false_implies, true_and]
      constructor
      · rintro ⟨_, ⟨⟩⟩
        rfl
      · rintro rfl
        exact ⟨[], rfl⟩
  | cons field fields ih =>
      have hcons : (∃ states, (field :: fields).mapM (fun _ => ColumnState.new .exact
          (.root resources) directory rowCountHint resources.maxMemoryBytes) (⟨used⟩ : Metered) =
            .ok (states, next)) ↔ ∃ middle, (∃ state, ColumnState.new .exact (.root resources) directory
              rowCountHint resources.maxMemoryBytes (⟨used⟩ : Metered) = .ok (state, middle)) ∧
            ∃ states, fields.mapM (fun _ => ColumnState.new .exact (.root resources) directory
              rowCountHint resources.maxMemoryBytes) middle = .ok (states, next) := by
        constructor
        · rintro ⟨_, hstates⟩
          obtain ⟨state, middle, hstate, states, _, hrest, ⟨⟩⟩ := mapM_cons_ok_iff.mp hstates
          exact ⟨middle, ⟨state, hstate⟩, states, hrest⟩
        · rintro ⟨middle, ⟨state, hstate⟩, states, hstates⟩
          exact ⟨_, mapM_cons_ok_iff.mpr ⟨state, middle, hstate, states, next, hstates, rfl⟩⟩
      rw [hcons]
      constructor
      · rintro ⟨middle, hnew, hrest⟩
        obtain ⟨⟨hlt, hroom⟩, rfl⟩ := new_metered_iff.mp hnew
        obtain ⟨hrooms, rfl⟩ := ih.mp hrest
        rw [List.length_cons, Nat.succ_mul]
        refine ⟨fun _ => ⟨hlt, ?_⟩, by rw [Nat.add_assoc, Nat.add_comm (sampleBytes resources)]⟩
        rcases eq_or_ne fields [] with rfl | hfields
        · simpa using hroom
        · have hrooms := (hrooms hfields).2
          omega
      · rintro ⟨hrooms, rfl⟩
        obtain ⟨hlt, hrooms⟩ := hrooms (List.cons_ne_nil _ _)
        rw [List.length_cons, Nat.succ_mul] at hrooms ⊢
        have hfirst : used + sampleBytes resources ≤ resources.maxMemoryBytes := by omega
        have hrest : used + sampleBytes resources + fields.length * sampleBytes resources ≤
            resources.maxMemoryBytes := by omega
        refine ⟨_, new_metered_iff.mpr ⟨⟨hlt, hfirst⟩, rfl⟩, ?_⟩
        rw [Nat.add_comm (fields.length * sampleBytes resources), ← Nat.add_assoc]
        exact ih.mpr ⟨fun _ => ⟨hlt, hrest⟩, rfl⟩

/-- What happens before a column reserves its samples uses the memory of the earlier ones. -/
theorem beforeSamples_metered_iff {earlier : List Field} {spill : SpillPolicy} {next : Metered} :
    (∃ u, beforeSamples .exact resources rowCountHint spill earlier (⟨used⟩ : Metered) =
        .ok (u, next)) ↔
      (earlier ≠ [] → sampleBytes resources < 2 ^ 64 ∧
        used + earlier.length * sampleBytes resources ≤ resources.maxMemoryBytes) ∧
          next = ⟨used + earlier.length * sampleBytes resources⟩ := by
  -- directories cost no memory
  obtain ⟨directory, hdirectory⟩ : ∃ directory, createDirectoryIf (decide (DistinctMode.exact =
      .exact) && decide (spill = .auto)) (⟨used⟩ : Metered) =
        (.ok (directory, ⟨used⟩) : Except Fault _) := by
    cases spill <;> exact ⟨_, rfl⟩
  have hopen : ∀ world : Metered, whenever directory.isSome (ioOperation .openDirectory) world =
      (.ok ((), world) : Except Fault _) := by
    intro world
    cases directory <;> rfl
  rw [← @mapM_new_metered_iff resources rowCountHint used directory]
  constructor
  · rintro ⟨u, h⟩
    obtain ⟨found, _, hfound, h⟩ := bind_ok_iff.mp h
    rw [hdirectory] at hfound
    cases hfound
    obtain ⟨states, middle, hstates, h⟩ := bind_ok_iff.mp h
    rw [hopen] at h
    cases h
    exact ⟨states, hstates⟩
  · rintro ⟨states, hstates⟩
    exact ⟨(), bind_ok_iff.mpr ⟨directory, _, hdirectory,
      bind_ok_iff.mpr ⟨states, next, hstates, hopen next⟩⟩⟩

/-- On a host that counts memory, samples are granted where there is room for all of them. -/
theorem samples_metered_iff {fields : List Field} {spill : SpillPolicy} :
    (∀ earlier field later, fields = earlier ++ field :: later →
      GrantsAfter (beforeSamples .exact resources rowCountHint spill earlier)
        (columnAccount resources) .memory (sampleBytes resources) (⟨used⟩ : Metered)) ↔
      (fields ≠ [] → sampleBytes resources < 2 ^ 64 →
        used + fields.length * sampleBytes resources ≤ resources.maxMemoryBytes) := by
  constructor
  · intro hsamples hfields hlt
    -- every initial part of the columns has room, one column after the other
    have hroom : ∀ k < fields.length,
        used + (k + 1) * sampleBytes resources ≤ resources.maxMemoryBytes := by
      intro k hk
      induction k with
      | zero =>
          obtain ⟨field, later, rfl⟩ := List.exists_cons_of_ne_nil hfields
          obtain ⟨u, hu⟩ := beforeSamples_metered_iff.mpr ⟨fun h => absurd rfl h, rfl⟩
          have hgranted := grants_metered_iff.mp (hsamples [] field later rfl u _ hu) hlt
          rwa [List.length_nil, Nat.zero_mul, Nat.add_zero, ← Nat.one_mul (sampleBytes _)] at hgranted
      | succ k ih =>
          have ih := ih (by omega)
          have hsplit : fields = fields.take (k + 1) ++ fields[k + 1] :: fields.drop (k + 2) := by
            rw [List.getElem_cons_drop, List.take_append_drop]
          have hlength : (fields.take (k + 1)).length = k + 1 := by
            rw [List.length_take]
            omega
          obtain ⟨u, hu⟩ := beforeSamples_metered_iff.mpr ⟨fun _ => ⟨hlt, by rwa [hlength]⟩, rfl⟩
          have hgranted := grants_metered_iff.mp (hsamples _ _ _ hsplit u _ hu) hlt
          rw [hlength, Nat.add_assoc, ← Nat.succ_mul] at hgranted
          exact hgranted
    obtain ⟨k, hk⟩ := Nat.exists_eq_succ_of_ne_zero (List.length_pos_of_ne_nil hfields).ne'
    rw [hk]
    exact hroom k (by omega)
  · intro hroom earlier field later hfields u next hnext
    obtain ⟨-, rfl⟩ := beforeSamples_metered_iff.mp ⟨u, hnext⟩
    refine grants_metered_iff.mpr fun hlt => ?_
    have hroom := hroom (by simp [hfields]) hlt
    rw [hfields, List.length_append, List.length_cons, Nat.add_mul, Nat.succ_mul] at hroom
    omega

end Metered

/-- In memory, on a host that counts it, budgets suffice exactly where there is room for the samples
of all columns. -/
theorem budgetsSuffice_metered_iff (reader : BatchReader) (resources : ResourceLimits)
    (rowCountHint : Option ℕ) (used : ℕ) :
    BudgetsSuffice reader .exact resources rowCountHint .never (⟨used⟩ : Metered) ↔
      (reader.schema.fields ≠ [] → sampleBytes resources < 2 ^ 64 →
        used + reader.schema.fields.length * sampleBytes resources ≤ resources.maxMemoryBytes) := by
  rw [budgetsSuffice_inMemory_iff, forall_prop_of_true rfl]
  exact samples_metered_iff

omit [Crates] in
/-- Twenty samples of sixteen bytes do not fit into 256 bytes. -/
theorem not_toleratesBudgets_samples :
    let _ : Crates := Crates.zeroDigests
    ∃ unlimited world', inspectBatches (idReader []) .exact smallOptions.resources none .auto
        Granting.granting = .ok (unlimited, world') ∧
      (∀ column ∈ unlimited.columns, column.distinctLimited = false) ∧
      ¬ToleratesBudgets unlimited (inspectBatches (idReader []) .exact ⟨256, 1024, 20, 20⟩ none .auto
        (⟨0⟩ : Metered)) := by
  intro _
  refine ⟨_, _, rfl, by decide +kernel, ?_⟩
  have hrun : inspectBatches (idReader []) .exact ⟨256, 1024, 20, 20⟩ none .auto (⟨0⟩ : Metered) =
      .error (.error (.resourceLimit "memory" 320 0 256)) := rfl
  rw [hrun]
  exact (by decide : ¬Unbudgeted (.error (.resourceLimit "memory" 320 0 256)))

omit [Crates] in
/-- Twenty samples of sixteen bytes fit into 320 bytes.  There is no room for a value beside them, and
the column loses its count. -/
theorem toleratesBudgets_iff_samples :
    let _ : Crates := Crates.zeroDigests
    ∃ unlimited world', inspectBatches (idReader [some 7, some 8, none]) .exact smallOptions.resources
        none .auto Granting.granting = .ok (unlimited, world') ∧
      ToleratesBudgets unlimited (inspectBatches (idReader [some 7, some 8, none]) .exact
        ⟨320, 1024, 20, 20⟩ none .never (⟨0⟩ : Metered)) := by
  intro _
  obtain ⟨unlimited, world', hrun, hunlimited⟩ : ∃ unlimited world',
      inspectBatches (idReader [some 7, some 8, none]) .exact smallOptions.resources none .auto
        Granting.granting = .ok (unlimited, world') ∧
      ∀ column ∈ unlimited.columns, column.distinctLimited = false := by
    have hrun : (inspectBatches (idReader [some 7, some 8, none]) .exact smallOptions.resources none
        .auto Granting.granting).map (fun result => decide (∀ column ∈ result.1.columns,
          column.distinctLimited = false)) = .ok true := by decide +kernel
    obtain ⟨⟨unlimited, world'⟩, hrun, hunlimited⟩ := map_eq_ok.mp hrun
    exact ⟨unlimited, world', hrun, of_decide_eq_true hunlimited⟩
  refine ⟨unlimited, world', hrun, (toleratesBudgets_iff hrun hunlimited _ _ _ _).mpr ?_⟩
  exact (budgetsSuffice_metered_iff _ _ _ _).mpr (by decide)

end ProofFrame
