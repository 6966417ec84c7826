import ProofFrame.Execution.Meaning
import ProofFrame.Lib.Steps

/-!
# Counts of a report

A report counts every column of its plan once, whatever was read.
-/

namespace ProofFrame

open Lib Lib.Run

theorem length_recordCounts {columns : List (ColumnPlan × ℕ)} : ∀ {counts evaluated : List ℕ},
    (recordCounts columns counts evaluated).length = evaluated.length := by
  induction columns with
  | nil => intro counts evaluated; rfl
  | cons column columns ih =>
      intro counts evaluated
      cases counts with
      | nil => rfl
      | cons count counts => rw [recordCounts, ih, List.length_modify]

section Meaning

variable [Crates]

/-- A batch adds to the counts and leaves their number. -/
theorem length_evaluated_observeBatch {plan : CompiledContract} {scan next : ScanMeaning}
    {item : Except String RecordBatch} (h : observeBatch plan scan item = .ok next) :
    next.evaluated.length = scan.evaluated.length := by
  obtain ⟨batch, -, h⟩ := bind_eq_ok.mp h
  obtain ⟨_, -, h⟩ := bind_eq_ok.mp h
  obtain ⟨_, -, h⟩ := bind_eq_ok.mp h
  obtain ⟨columns, -, h⟩ := bind_eq_ok.mp h
  obtain ⟨_, -, h⟩ := bind_eq_ok.mp h
  obtain ⟨⟨_, _⟩, -, h⟩ := bind_eq_ok.mp h
  obtain ⟨⟨_, _⟩, -, h⟩ := bind_eq_ok.mp h
  cases h
  exact length_recordCounts

theorem length_evaluated_verdictOf {reader : BatchReader} {plan : CompiledContract}
    {fingerprint : Bool} {references : ReferenceBindings} {maxMemoryBytes : ℕ} {verdict : Verdict}
    (h : verdictOf reader plan fingerprint references maxMemoryBytes = .ok verdict) :
    verdict.evaluated.length = plan.columns.length := by
  obtain ⟨start, hstart, h⟩ := bind_eq_ok.mp h
  obtain ⟨scan, hscan, h⟩ := bind_eq_ok.mp h
  cases h
  obtain ⟨_, -, hstart⟩ := bind_eq_ok.mp hstart
  obtain ⟨_, -, hstart⟩ := bind_eq_ok.mp hstart
  obtain ⟨_, -, hstart⟩ := bind_eq_ok.mp hstart
  obtain ⟨_, -, hstart⟩ := bind_eq_ok.mp hstart
  cases hstart
  refine foldlM_invariant (P := fun _ scan => scan.evaluated.length = plan.columns.length)
    List.length_replicate (fun _ _ _ _ _ h hstep => ?_) hscan
  exact (length_evaluated_observeBatch hstep).trans h

end Meaning

variable {ω : Type} [Host ω] [Crates]

/-- A report has one count for each evaluated index. -/
theorem length_evaluatedColumns {reader : BatchReader} {plan : CompiledContract}
    {options : ExecutionOptions} {fingerprint : Bool} {references : ReferenceBindings}
    {world last : ω} {ended : FastValidationReport × Option Fingerprint}
    (h : executeReaderInner reader plan options fingerprint references world = .ok (ended, last)) :
    ended.1.evaluatedColumns.length = ended.1.evaluatedIndices.length := by
  obtain ⟨meaning, hmeaning, hshows⟩ := (refines_executeReaderInnerWithAccount reader plan options
    fingerprint (.root options.resources) references rfl).of_ok h
  obtain ⟨verdict, hverdict, hmeaning⟩ := bind_eq_ok.mp hmeaning
  obtain ⟨_, -, hmeaning⟩ := bind_eq_ok.mp hmeaning
  obtain ⟨_, -, hmeaning⟩ := bind_eq_ok.mp hmeaning
  cases hmeaning
  rw [hshows.1.evaluated_eq, hshows.1.indices_eq, List.length_map]
  exact length_evaluated_verdictOf hverdict

end ProofFrame
