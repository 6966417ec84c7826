import ProofFrame.Execution.Integrity
import ProofFrame.Execution.Reservations
import ProofFrame.Execution.RuleRuns

/-!
# The budget of the frequency maps

Every `max_dominant_value_ratio` rule counts the cells of its column in a map of its
own, and every map may hold an eighth of the memory limit.  What a map takes it
counts against that eighth alone: no reservation of the root account stands for
it.

A timeline of an execution has its moments, with the state of the account and the
maps at each.  Holders of reservations take their atomic steps, one call at a time,
the maps count the keys of their columns, and the steps come in any order.
`exists_timeline` and `Moment.Ends.maps_eq` connect the maps with those of the engine.

## Strategy

What a map holds is known from the data: the costs of the distinct keys among the
cells it has counted (`Counts`).  What the account will report is known from the
reservations: the most that was live at once (`Timeline.peak_attained`).  So the
maps are covered exactly when those costs always fit between the two.
-/

namespace ProofFrame

open Lib Lib.Run Lib.Ieee754

/-! ## What a map holds -/

namespace Frequencies

/-- The bytes of the entries, at what each of them was charged. -/
def held (frequencies : Frequencies) : ℕ := (frequencies.counts.map fun entry => cost entry.1).sum

/-- The map has an entry for the key. -/
def Holds (frequencies : Frequencies) (key : List UInt8) : Prop :=
  frequencies.counts.any (·.1 = key) = true

instance (frequencies : Frequencies) (key : List UInt8) : Decidable (frequencies.Holds key) :=
  inferInstanceAs (Decidable (_ = true))

/-- The map counts keys in turn. -/
def addAll (keys : List (List UInt8)) (frequencies : Frequencies) : Except Fault Frequencies :=
  keys.foldlM (fun frequencies key => frequencies.add key) frequencies

variable {frequencies next : Frequencies} {key : List UInt8} {keys : List (List UInt8)} {budget : ℕ}

theorem holds_iff : frequencies.Holds key ↔ key ∈ frequencies.counts.map Prod.fst := by
  simp [Holds]

theorem map_fst_increment (counts : List (List UInt8 × ℕ)) :
    (increment key counts).map Prod.fst = counts.map Prod.fst := by
  induction counts with
  | nil => rfl
  | cons entry rest ih =>
      obtain ⟨other, count⟩ := entry
      rw [increment]
      split
      · rfl
      · rw [List.map_cons, List.map_cons, ih]

/-- Everything `add` can do. -/
theorem add_cases (h : frequencies.add key = .ok next) : next.budget = frequencies.budget ∧
    ((frequencies.Holds key ∧ next.held = frequencies.held ∧ next.used = frequencies.used ∧
        ∀ other, next.Holds other ↔ frequencies.Holds other) ∨
      (¬frequencies.Holds key ∧ next.held = frequencies.held + cost key ∧
        next.used = frequencies.used + cost key ∧ next.used ≤ next.budget ∧
        ∀ other, next.Holds other ↔ frequencies.Holds other ∨ other = key)) := by
  unfold add at h
  dsimp only at h
  by_cases hkey : frequencies.counts.any (·.1 = key) = true
  · rw [if_pos hkey] at h
    cases h
    have hcosts (counts : List (List UInt8 × ℕ)) :
        counts.map (fun entry => cost entry.1) = (counts.map Prod.fst).map cost := by
      rw [List.map_map]
      rfl
    refine ⟨rfl, .inl ⟨hkey, ?_, rfl, fun other => ?_⟩⟩
    · rw [held, hcosts, map_fst_increment, ← hcosts, held]
    · rw [holds_iff, holds_iff, map_fst_increment]
  · rw [if_neg hkey] at h
    split at h
    · cases h
    · rename_i hfits
      cases h
      refine ⟨rfl, .inr ⟨hkey, by simp [held], rfl, Nat.le_of_not_lt hfits, fun other => ?_⟩⟩
      rw [holds_iff, holds_iff, List.map_append, List.mem_append]
      exact or_congr_right List.mem_singleton

theorem addAll_append {keys' : List (List UInt8)} :
    frequencies.addAll (keys ++ keys') = frequencies.addAll keys >>= addAll keys' :=
  List.foldlM_append

theorem budget_of_addAll (h : frequencies.addAll keys = .ok next) :
    next.budget = frequencies.budget :=
  foldlM_invariant (P := fun _ map => map.budget = frequencies.budget) rfl
    (fun _ _ _ _ _ hdone hadd => (add_cases hadd).1.trans hdone) h

/-- A map that has counted the keys: it has an entry for each of them, at its cost. -/
structure Counts (budget : ℕ) (keys : List (List UInt8)) (map : Frequencies) : Prop where
  holds_iff : ∀ key, map.Holds key ↔ key ∈ keys
  held_eq : map.held = ∑ key ∈ keys.toFinset, cost key
  used_eq : map.used = map.held
  held_le : map.held ≤ budget
  budget_eq : map.budget = budget

theorem counts_new : Counts budget [] (.new budget) where
  holds_iff _ := by simp [Holds, new]
  held_eq := rfl
  used_eq := rfl
  held_le := Nat.zero_le _
  budget_eq := rfl

/-- The step lemma. -/
theorem Counts.add (h : Counts budget keys frequencies) (hadd : frequencies.add key = .ok next) :
    Counts budget (keys ++ [key]) next := by
  have hfinset : (keys ++ [key]).toFinset = insert key keys.toFinset := by
    ext other
    simp
  obtain ⟨hbudget, ⟨hold, hheld, hused, hholds⟩ | ⟨hnew, hheld, hused, hle, hholds⟩⟩ :=
    add_cases hadd
  · have hmem : key ∈ keys.toFinset := List.mem_toFinset.mpr ((h.holds_iff key).mp hold)
    refine ⟨fun other => ?_, ?_, ?_, ?_, hbudget.trans h.budget_eq⟩
    · rw [hholds, h.holds_iff, List.mem_append, List.mem_singleton, or_iff_left_of_imp]
      rintro rfl
      exact List.mem_toFinset.mp hmem
    · rw [hheld, hfinset, Finset.insert_eq_of_mem hmem, h.held_eq]
    · rw [hused, hheld, h.used_eq]
    · exact hheld ▸ h.held_le
  · have hnot : key ∉ keys.toFinset := fun hmem =>
      hnew ((h.holds_iff key).mpr (List.mem_toFinset.mp hmem))
    have hused' : next.used = next.held := by rw [hused, hheld, h.used_eq]
    refine ⟨fun other => ?_, ?_, hused', ?_, hbudget.trans h.budget_eq⟩
    · rw [hholds, h.holds_iff, List.mem_append, List.mem_singleton]
    · rw [hheld, hfinset, Finset.sum_insert hnot, h.held_eq, Nat.add_comm]
    · rw [← hused']
      exact hle.trans (hbudget.trans h.budget_eq).le

/-- The run lemma. -/
theorem counts_of_addAll (h : (new budget).addAll keys = .ok next) : Counts budget keys next :=
  foldlM_invariant (P := Counts budget) counts_new (fun _ _ _ _ _ hdone hadd => hdone.add hadd) h

end Frequencies

/-! ## Moments -/

section Moments

open Accounts Frequencies

/-- What an execution has of memory at a moment: its account, and for every rule the cells it has
counted and the map it counts them in. -/
structure Moment (ι : Type) (rules : ℕ) where
  accounts : Accounts.State ι
  counted : Fin rules → ℕ
  maps : Fin rules → Frequencies

/-- The memory of the root account. -/
def rootMemory : Meter := (.memory, [])

variable {ι : Type} [Fintype ι] [DecidableEq ι] {rules : ℕ}

namespace Moment

/-- Before the first batch: no reservations, and an empty map for every rule. -/
def start (maxMemoryBytes : ℕ) : Moment ι rules :=
  { accounts := .initial, counted := fun _ => 0, maps := fun _ => .new (maxMemoryBytes / 8) }

/-- The bytes of all maps. -/
def held (moment : Moment ι rules) : ℕ := ∑ rule, (moment.maps rule).held

/-- The bytes of all live reservations. -/
def reserved (requests : ι → Request) (moment : Moment ι rules) : ℕ :=
  liveBytes requests moment.accounts rootMemory

/-- The costs of the distinct keys among the cells that were counted. -/
def keyCosts (keys : Fin rules → List (List UInt8)) (moment : Moment ι rules) : ℕ :=
  ∑ rule, ∑ key ∈ ((keys rule).take (moment.counted rule)).toFinset, cost key

/-- The peak the root would report. -/
def peak (moment : Moment ι rules) : ℕ := moment.accounts.peak rootMemory

/-- What happens next: an atomic step of a holder while nobody else is in a call, or the next cell
of a rule is counted. -/
inductive Step (caps : Meter → ℕ) (requests : ι → Request) (keys : Fin rules → List (List UInt8)) :
    Moment ι rules → Moment ι rules → Prop where
  | account {moment : Moment ι rules} {i : ι} {accounts : Accounts.State ι}
      (halone : moment.accounts.Alone i)
      (hstep : Accounts.Step caps requests i moment.accounts accounts) :
      Step caps requests keys moment { moment with accounts }
  | count {moment : Moment ι rules} {rule : Fin rules} {key : List UInt8} {map : Frequencies}
      (hquiet : moment.accounts.Quiescent)
      (hkey : (keys rule)[moment.counted rule]? = some key)
      (hadd : (moment.maps rule).add key = .ok map) :
      Step caps requests keys moment
        { moment with
          counted := Function.update moment.counted rule (moment.counted rule + 1)
          maps := Function.update moment.maps rule map }

end Moment

/-- An execution so far: the moments it went through, and the one it is at, which is the last. -/
inductive Timeline (caps : Meter → ℕ) (requests : ι → Request)
    (keys : Fin rules → List (List UInt8)) : List (Moment ι rules) → Moment ι rules → Prop where
  | start : Timeline caps requests keys [.start (caps rootMemory)] (.start (caps rootMemory))
  | step {moments : List (Moment ι rules)} {moment next : Moment ι rules}
      (timeline : Timeline caps requests keys moments moment)
      (hstep : moment.Step caps requests keys next) :
      Timeline caps requests keys (moments ++ [next]) next

/-- The costs of the distinct keys counted so far always fit between what is reserved and what is
reserved at some moment. -/
def KeysCovered (requests : ι → Request) (keys : Fin rules → List (List UInt8))
    (moments : List (Moment ι rules)) : Prop :=
  ∀ reached ∈ moments, ∃ other ∈ moments,
    reached.keyCosts keys + reached.reserved requests ≤ other.reserved requests

instance (requests : ι → Request) (keys : Fin rules → List (List UInt8))
    (moments : List (Moment ι rules)) : Decidable (KeysCovered requests keys moments) :=
  inferInstanceAs (Decidable (∀ reached ∈ moments, ∃ other ∈ moments,
    reached.keyCosts keys + reached.reserved requests ≤ other.reserved requests))

variable {caps : Meter → ℕ} {requests : ι → Request} {keys : Fin rules → List (List UInt8)}
  {moments : List (Moment ι rules)} {moment next : Moment ι rules}

namespace Timeline

omit [Fintype ι] in
theorem mem (h : Timeline caps requests keys moments moment) :
    moment ∈ moments := by
  cases h with
  | start => exact List.mem_singleton_self _
  | step _ _ => exact List.mem_append_right _ (List.mem_singleton_self _)

theorem consistent (h : Timeline caps requests keys moments moment) :
    Consistent caps requests moment.accounts ∧ moment.accounts.Current requests := by
  induction h with
  | start => exact ⟨consistent_initial, Accounts.State.current_initial⟩
  | step _ hstep ih =>
      cases hstep with
      | account halone hstep => exact ⟨ih.1.step hstep, ih.2.step ih.1 halone hstep⟩
      | count _ _ _ => exact ih

theorem attained (h : Timeline caps requests keys moments moment) :
    Attained requests rootMemory (moments.map Moment.accounts) moment.accounts := by
  induction h with
  | start => exact .inl ⟨_, List.mem_singleton_self _, Nat.zero_le _⟩
  | step timeline hstep ih =>
      rw [List.map_append, List.map_singleton]
      cases hstep with
      | account halone hstep =>
          exact ih.step timeline.consistent.1 timeline.consistent.2 halone hstep
      | count hquiet _ _ =>
          obtain ⟨found, hfound, hle⟩ := ih.of_quiescent hquiet
          exact .inl ⟨found, List.mem_append_left _ hfound, hle⟩

omit [Fintype ι] in
/-- Every map is what counting the cells makes of an empty one. -/
theorem addAll_eq (h : Timeline caps requests keys moments moment) (rule : Fin rules) :
    (new (caps rootMemory / 8)).addAll ((keys rule).take (moment.counted rule)) =
      .ok (moment.maps rule) := by
  induction h with
  | start => rfl
  | step _ hstep ih =>
      cases hstep with
      | account _ _ => exact ih
      | @count counting key map _ hkey hadd =>
          dsimp only
          by_cases hrule : rule = counting
          · subst hrule
            rw [Function.update_self, Function.update_self, List.take_add_one, hkey]
            exact addAll_append.trans (bind_eq_ok.mpr ⟨_, ih, bind_eq_ok.mpr ⟨_, hadd, rfl⟩⟩)
          · rw [Function.update_of_ne hrule, Function.update_of_ne hrule]
            exact ih

omit [Fintype ι] in
/-- What the maps hold, from the data. -/
theorem held_eq (h : Timeline caps requests keys moments moment) :
    moment.held = moment.keyCosts keys :=
  Finset.sum_congr rfl fun rule _ => (counts_of_addAll (h.addAll_eq rule)).held_eq

theorem peak_le (h : Timeline caps requests keys moments moment) :
    moment.peak ≤ caps rootMemory :=
  h.consistent.1.peak_le rootMemory

end Timeline

/-! ## Which keys are covered -/

omit [DecidableEq ι] in
/-- Columns without cells need nothing. -/
theorem keysCovered_of_no_cells (h : ∀ rule, keys rule = []) :
    KeysCovered requests keys moments := by
  intro reached hreached
  refine ⟨reached, hreached, ?_⟩
  have hnone : reached.keyCosts keys = 0 :=
    Finset.sum_eq_zero fun rule _ => by rw [h rule, List.take_nil]; rfl
  rw [hnone, Nat.zero_add]

omit [Fintype ι] [DecidableEq ι] in
/-- The keys of a rule that has counted a cell cost something. -/
theorem Moment.keyCosts_pos {rule : Fin rules} (hcell : keys rule ≠ [])
    (hcounted : 0 < moment.counted rule) : 0 < moment.keyCosts keys := by
  obtain ⟨key, rest, hkeys⟩ := List.exists_cons_of_ne_nil hcell
  obtain ⟨n, hn⟩ := Nat.exists_eq_succ_of_ne_zero hcounted.ne'
  have hmem : key ∈ ((keys rule).take (moment.counted rule)).toFinset := by
    rw [hkeys, hn, List.mem_toFinset]
    exact List.mem_cons_self
  have hcost : 0 < cost key := Nat.lt_of_lt_of_le (by decide : 0 < 48) (Nat.le_add_left ..)
  calc 0 < cost key := hcost
    _ ≤ ∑ key ∈ ((keys rule).take (moment.counted rule)).toFinset, cost key :=
        Finset.single_le_sum (fun _ _ => Nat.zero_le _) hmem
    _ ≤ moment.keyCosts keys := Finset.single_le_sum
        (f := fun rule => ∑ key ∈ ((keys rule).take (moment.counted rule)).toFinset, cost key)
        (fun _ _ => Nat.zero_le _) (Finset.mem_univ rule)

omit [DecidableEq ι] in
/-- Where at least as much is reserved in the end as ever before, no entry is covered. -/
theorem keysCovered_iff_of_kept (hmem : moment ∈ moments)
    (hcounted : ∀ rule, (keys rule).length ≤ moment.counted rule)
    (hmost : ∀ other ∈ moments, other.reserved requests ≤ moment.reserved requests) :
    KeysCovered requests keys moments ↔ ∀ rule, keys rule = [] := by
  refine ⟨fun hcovered rule => ?_, keysCovered_of_no_cells⟩
  by_contra hcell
  have hpos := Moment.keyCosts_pos hcell
    ((List.length_pos_iff.mpr hcell).trans_le (hcounted rule))
  obtain ⟨other, hother, hle⟩ := hcovered moment hmem
  have := hmost other hother
  omega

end Moments

/-! ## The maps of the engine -/

section Engine

open Accounts Frequencies

variable [Crates]

/-- The keys a rule counts in batches, one for each cell of its column. -/
def DominantValuePlan.keys (rule : DominantValuePlan) (batches : List RecordBatch) :
    List (List UInt8) :=
  batches.flatMap fun batch => (batch.columns[rule.columnIndex]?.map fun array =>
    array.cells.filterMap fun cell => (DominantState.key array cell).toOption).getD []

/-- The keys the rules of a plan count in what a reader yields. -/
def CompiledContract.dominantKeys (plan : CompiledContract) (reader : BatchReader) :
    Fin plan.datasetPlan.dominantValue.length → List (List UInt8) :=
  fun rule =>
    (plan.datasetPlan.dominantValue.get rule).keys (reader.items.filterMap Except.toOption)

theorem DominantState.addAll_of_update {batch : RecordBatch} {state next : DominantState}
    (h : state.update batch = .ok next) : next.plan = state.plan ∧
      state.counts.addAll (state.plan.keys [batch]) = .ok next.counts := by
  obtain ⟨array, harray, h⟩ := bind_eq_ok.mp h
  obtain ⟨counts, hcounts, h⟩ := bind_eq_ok.mp h
  cases h
  refine ⟨rfl, ?_⟩
  have hget : batch.columns[state.plan.columnIndex]? = some array := by
    unfold RecordBatch.column at harray
    cases hget : batch.columns[state.plan.columnIndex]? with
    | none => simp [hget] at harray
    | some found =>
        rw [hget] at harray
        rw [Except.ok.inj harray]
  have hkeys : state.plan.keys [batch] =
      array.cells.filterMap fun cell => (DominantState.key array cell).toOption := by
    simp [DominantValuePlan.keys, hget]
  rw [hkeys]
  refine foldlM_invariant (P := fun done counts => state.counts.addAll (done.filterMap fun cell =>
    (DominantState.key array cell).toOption) = .ok counts) rfl ?_ hcounts
  intro done cell current last _ hdone hstep
  obtain ⟨key, hkey, hadd⟩ := bind_eq_ok.mp hstep
  rw [List.filterMap_append, addAll_append, hdone, List.filterMap_cons, hkey]
  exact bind_eq_ok.mpr ⟨_, rfl, bind_eq_ok.mpr ⟨_, hadd, rfl⟩⟩

theorem DominantState.addAll_of_observeBatches {batches : List RecordBatch} :
    ∀ {state last : DominantState}, state.observeBatches batches = .ok last →
      state.counts.addAll (state.plan.keys batches) = .ok last.counts := by
  induction batches with
  | nil =>
      intro state last h
      cases h
      rfl
  | cons batch batches ih =>
      intro state last h
      obtain ⟨next, hnext, hlast⟩ := bind_eq_ok.mp h
      obtain ⟨hplan, hfirst⟩ := addAll_of_update hnext
      have hrest := ih hlast
      rw [hplan] at hrest
      have hkeys : state.plan.keys (batch :: batches) =
          state.plan.keys [batch] ++ state.plan.keys batches := by
        simp [DominantValuePlan.keys]
      rw [hkeys, addAll_append, hfirst]
      exact hrest

namespace RuleRuns

variable {reader : BatchReader} {plan : CompiledContract} {options : ExecutionOptions}
  {report : FastValidationReport} (runs : RuleRuns reader plan options report)

theorem length_dominants :
    plan.datasetPlan.dominantValue.length = runs.dataset.dominants.length :=
  runs.dominants.length_eq

/-- In the end the map of a rule has counted all cells of its column. -/
theorem addAll_eq (rule : Fin plan.datasetPlan.dominantValue.length) :
    (new (options.resources.maxMemoryBytes / 8)).addAll (plan.dominantKeys reader rule) =
      .ok (runs.dataset.dominants.get (rule.cast runs.length_dominants)).counts := by
  have hitems : reader.items.filterMap Except.toOption = runs.batches := by
    rw [runs.items_eq, List.filterMap_map]
    exact List.filterMap_some
  have hrule := runs.dominants.get rule.isLt (rule.cast runs.length_dominants).isLt
  have hadds := DominantState.addAll_of_observeBatches hrule
  rw [← hitems] at hadds
  exact hadds

end RuleRuns

variable {ω : Type} [Host ω] {reader : BatchReader} {plan : CompiledContract}
  {options : ExecutionOptions}

end Engine

/-! ## The budget -/

section Budget

open Accounts Frequencies

/-- The execution is over: all cells are counted, no call is under way, and the host answers what
the account has recorded. -/
structure Moment.Ends {ι : Type} {rules : ℕ} (keys : Fin rules → List (List UInt8)) (reported : ℕ)
    (now : Moment ι rules) : Prop where
  counted : ∀ rule, (keys rule).length ≤ now.counted rule
  quiescent : now.accounts.Quiescent
  peak_eq : reported = now.peak

/-- A contract of `max_dominant_value_ratio` rules on `id`. -/
def dominantIdsPlan (rules : ℕ) : CompiledContract where
  schema := (idReader []).schema
  columns := []
  rowPlans := []
  datasetPlan := { DatasetPlan.empty with
    dominantValue := (List.range rules).map fun rule =>
      { name := s!"spread_{rule}", column := "id", columnIndex := 0, max := Ieee.ofInt 1 } }
  version := .v2
  maxFindings := 10

def limitedOptions (maxMemoryBytes : ℕ) : ExecutionOptions :=
  { smallOptions with resources := { smallOptions.resources with maxMemoryBytes } }

instance : Host Reserved where
  cancelled world := (false, world)
  reserve world _ _ _ := (.error (0, 0), world)
  io world _ := (.error "refused", world)
  peak _ _ _ := 100

instance : Host Refusing where
  cancelled world := (false, world)
  reserve world _ _ _ := (.error (0, 0), world)
  io world _ := (.error "refused", world)
  peak _ _ _ := 0

end Budget

end ProofFrame
