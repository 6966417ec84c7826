import ProofFrame.Execution.Resource

/-!
# Recording violations

The state every rule records its violations into.  The count is always exact; of
the findings themselves only the first `maxFindings` are kept, and each one kept
is charged to the memory budget.  A refused charge is remembered and ends the
run at the next check.

`ValidationState.Tracks` relates the state to the list of all violations
recorded so far, kept or not.  What a run reports depends on that list and on
the limit alone.
-/

namespace ProofFrame

open Lib Lib.Run

/-- A rule violation. -/
structure Finding where
  rule : String
  column : String
  row : Option ℕ
  message : String
  deriving DecidableEq, Repr

/-- `size_of::<Finding>()`. -/
def sizeOfFinding : ℕ := 80

structure ValidationState where
  findings : List Finding
  /-- The capacity of the findings vector. -/
  capacity : ℕ
  violationCount : ℕ
  evaluated : List ℕ
  maxFindings : ℕ
  findingMemory : Option ResourceAccount
  resourceError : Option ProofFrameError

structure ValidationOutcome where
  findings : List Finding
  violationCount : ℕ
  truncated : Bool
  evaluated : List ℕ

namespace ValidationState

def new (maxFindings : ℕ) : ValidationState :=
  { findings := [], capacity := 0, violationCount := 0, evaluated := [], maxFindings
    findingMemory := none, resourceError := none }

def newAccounted (maxFindings : ℕ) (account : ResourceAccount) : ValidationState :=
  { new maxFindings with findingMemory := some account }

/-- The capacity of the vector once it has room for one more finding. -/
def grownCapacity (state : ValidationState) : ℕ :=
  if state.findings.length = state.capacity then
    if state.capacity = 0 then 4 else 2 * state.capacity
  else state.capacity

variable {ω : Type} [Host ω]

/-- Charge the finding; the flag says whether it may be kept. -/
def reserveFinding (state : ValidationState) (finding : Finding) :
    Run ω Fault (ValidationState × Bool) :=
  match state.findingMemory with
  | none => pure (state, true)
  | some account =>
      if state.resourceError.isSome then pure (state, false)
      else do
        let vectorGrowth := (state.grownCapacity - state.capacity) * sizeOfFinding
        let bytes := vectorGrowth + finding.column.utf8ByteSize + finding.message.utf8ByteSize
        match ← tryReserve account .memory bytes with
        | .ok () => pure (state, true)
        | .error e => pure ({ state with resourceError := some e }, false)

def record (state : ValidationState) (finding : Finding) : Run ω Fault ValidationState :=
  let counted := { state with violationCount := state.violationCount + 1 }
  if counted.findings.length < counted.maxFindings then do
    let (charged, reserved) ← counted.reserveFinding finding
    pure (if reserved then
      { charged with
        findings := charged.findings ++ [finding]
        capacity := charged.grownCapacity }
      else charged)
  else pure counted

/-- `record_lazy`: the message is only built for a finding that is kept. -/
def recordLazy (state : ValidationState) (finding : Finding) : Run ω Fault ValidationState :=
  if state.findings.length < state.maxFindings then state.record finding
  else pure { state with violationCount := state.violationCount + 1 }

/-- The findings in turn. -/
def recordAll (state : ValidationState) (findings : List Finding) : Run ω Fault ValidationState :=
  findings.foldlM recordLazy state

/-- Count violations without recording a finding for them. -/
def addCount (state : ValidationState) (violations : ℕ) : ValidationState :=
  { state with violationCount := state.violationCount + violations }

def prepareEvaluated (state : ValidationState) (plans : ℕ) : ValidationState :=
  { state with evaluated := List.replicate plans 0 }

def recordEvaluated (state : ValidationState) (planIndex values : ℕ) : ValidationState :=
  { state with evaluated := state.evaluated.modify planIndex (· + values) }

def checkResources (state : ValidationState) : Run ω Fault Unit :=
  match state.resourceError with
  | some e => throw (.error e)
  | none => pure ()

def finish (state : ValidationState) : ValidationOutcome :=
  { truncated := state.violationCount > state.findings.length
    violationCount := state.violationCount
    findings := state.findings
    evaluated := state.evaluated }

/-! ## The violations a state has recorded -/

/-- The state has recorded the violations `all` under the limit. -/
structure Tracks (limit : ℕ) (evaluated : List ℕ) (all : List Finding) (state : ValidationState) :
    Prop where
  max_eq : state.maxFindings = limit
  evaluated_eq : state.evaluated = evaluated
  count_eq : state.violationCount = all.length
  findings_eq : state.resourceError = none → state.findings = all.take limit
  error_code : ∀ e, state.resourceError = some e → e.code = .resourceLimit

variable {limit : ℕ} {evaluated : List ℕ} {all : List Finding} {state : ValidationState}

omit [Host ω] in
theorem tracks_new (limit : ℕ) (account : ResourceAccount) :
    Tracks limit [] [] (newAccounted limit account) := by
  constructor <;> simp [newAccounted, new]

omit [Host ω] in
theorem Tracks.prepareEvaluated (h : Tracks limit evaluated all state) (plans : ℕ) :
    Tracks limit (List.replicate plans 0) all (state.prepareEvaluated plans) :=
  ⟨h.max_eq, rfl, h.count_eq, h.findings_eq, h.error_code⟩

omit [Host ω] in
theorem Tracks.recordEvaluated (h : Tracks limit evaluated all state) (planIndex values : ℕ) :
    Tracks limit (evaluated.modify planIndex (· + values)) all
      (state.recordEvaluated planIndex values) := by
  refine ⟨h.max_eq, ?_, h.count_eq, h.findings_eq, h.error_code⟩
  rw [ValidationState.recordEvaluated, h.evaluated_eq]

omit [Host ω] in
/-- Violations counted past the limit leave the kept prefix as it is. -/
theorem Tracks.addCount (h : Tracks limit evaluated all state) {more : List Finding}
    (hfull : limit ≤ all.length ∨ more = []) :
    Tracks limit evaluated (all ++ more) (state.addCount more.length) := by
  refine ⟨h.max_eq, h.evaluated_eq, ?_, fun hnone => ?_, h.error_code⟩
  · show state.violationCount + more.length = _
    rw [h.count_eq, List.length_append]
  · show state.findings = _
    rw [h.findings_eq hnone]
    rcases hfull with hle | rfl
    · rw [List.take_append_of_le_length hle]
    · rw [List.append_nil]

/-- A refusal is remembered, and nothing else changes. -/
theorem sat_reserveFinding {finding : Finding} {E : Fault → Prop} :
    Sat (state.reserveFinding finding : Run ω Fault _) (fun (charged, reserved) =>
      (reserved = true ∧ charged = state) ∨
        (reserved = false ∧ ∃ e, charged = { state with resourceError := some e } ∧
          (state.resourceError = some e ∨ e.code = .resourceLimit))) E := by
  unfold reserveFinding
  cases hmemory : state.findingMemory with
  | none => exact sat_pure (.inl ⟨rfl, rfl⟩)
  | some account =>
      apply Sat.ite
      · intro herror
        obtain ⟨e, he⟩ := Option.isSome_iff_exists.mp herror
        exact sat_pure (.inr ⟨rfl, e, by rw [← he, ← hmemory], .inl he⟩)
      · intro _
        apply Sat.bind (Q := fun r => ∀ e, r = .error e → e.code = .resourceLimit)
        · exact sat_tryReserve (by simp) (by rintro e he e' ⟨⟩; exact he)
        · intro r hr
          cases r with
          | ok _ => exact sat_pure (.inl ⟨rfl, rfl⟩)
          | error e => exact sat_pure (.inr ⟨rfl, e, rfl, .inr (hr e rfl)⟩)

theorem Tracks.sat_record (h : Tracks limit evaluated all state) {finding : Finding}
    {E : Fault → Prop} :
    Sat (state.record finding : Run ω Fault _) (Tracks limit evaluated (all ++ [finding])) E := by
  unfold record
  have hcount : state.violationCount + 1 = (all ++ [finding]).length := by
    rw [h.count_eq, List.length_append, List.length_singleton]
  apply Sat.ite
  · intro hroom
    have hroom : state.findings.length < limit := by
      rw [← h.max_eq]
      exact hroom
    apply sat_reserveFinding.bind
    rintro ⟨charged, reserved⟩ hcharged
    rcases hcharged with ⟨hreserved, hstate⟩ | ⟨hreserved, e, hstate, hcode⟩
    · dsimp only at hreserved hstate ⊢
      rw [hreserved, hstate, if_pos rfl]
      refine sat_pure ⟨h.max_eq, h.evaluated_eq, hcount, fun hnone => ?_, h.error_code⟩
      have hfindings := h.findings_eq hnone
      have hshort : all.length < limit := by
        rw [hfindings, List.length_take] at hroom
        omega
      show state.findings ++ [finding] = _
      rw [hfindings, List.take_of_length_le (by omega), List.take_of_length_le (by simp; omega)]
    · dsimp only at hreserved hstate ⊢
      rw [hreserved, hstate, if_neg (by simp)]
      refine sat_pure ⟨h.max_eq, h.evaluated_eq, hcount, fun hnone => ?_, ?_⟩
      · simp at hnone
      · intro e' he'
        obtain rfl : e = e' := by simpa using he'
        exact hcode.elim (h.error_code e) id
  · intro hfull
    refine sat_pure ⟨h.max_eq, h.evaluated_eq, hcount, fun hnone => ?_, h.error_code⟩
    have hfindings := h.findings_eq hnone
    have hlong : limit ≤ all.length := by
      have hfull : ¬state.findings.length < state.maxFindings := hfull
      rw [h.max_eq, hfindings, List.length_take] at hfull
      omega
    show state.findings = _
    rw [hfindings, List.take_append_of_le_length hlong]

theorem Tracks.sat_recordLazy (h : Tracks limit evaluated all state) {finding : Finding}
    {E : Fault → Prop} :
    Sat (state.recordLazy finding : Run ω Fault _)
      (Tracks limit evaluated (all ++ [finding])) E := by
  unfold recordLazy
  apply Sat.ite
  · intro _
    exact h.sat_record
  · intro hfull
    -- past the limit `record` itself would only count
    have hrecord : (state.record finding : Run ω Fault _) =
        pure { state with violationCount := state.violationCount + 1 } := if_neg hfull
    exact hrecord ▸ h.sat_record

theorem Tracks.sat_recordAll {E : Fault → Prop} {findings : List Finding} :
    ∀ {all : List Finding} {state : ValidationState}, Tracks limit evaluated all state →
      Sat (state.recordAll findings : Run ω Fault _)
        (Tracks limit evaluated (all ++ findings)) E := by
  induction findings with
  | nil =>
      intro all state h
      rw [List.append_nil]
      exact sat_pure h
  | cons finding findings ih =>
      intro all state h
      apply h.sat_recordLazy.bind
      intro next hnext
      rw [List.append_cons]
      exact ih hnext

omit [Host ω] in
theorem Tracks.sat_checkResources (h : Tracks limit evaluated all state) {E : Fault → Prop}
    (hrefused : ∀ e : ProofFrameError, e.code = .resourceLimit → E (.error e)) :
    Sat (state.checkResources : Run ω Fault _) (fun _ => state.resourceError = none) E := by
  unfold checkResources
  cases herror : state.resourceError with
  | none => exact sat_pure rfl
  | some e => exact sat_throw (hrefused e (h.error_code e herror))

end ValidationState

end ProofFrame
