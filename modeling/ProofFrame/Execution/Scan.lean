import ProofFrame.Distinct.StateSpec
import ProofFrame.Lib.Refinement
import ProofFrame.Validation

/-!
# Scanning rows

A kernel goes through the rows of a batch and does two things: it records
violations and it inserts values into an exact state.  What it does at a row is
a list of events, computed from the cells alone; the scan performs them in
order.  So the meaning of a scan is the list of all its events, and the scan
refines it: the validation state tracks the violations among them, and the exact
state holds the records among them.
-/

namespace ProofFrame

open Lib Lib.Run Distinct

/-- What a kernel does at a row. -/
inductive Event where
  | record (finding : Finding)
  | insert (value : OwnedValue) (row : ℕ)

namespace Event

def finding? : Event → Option Finding
  | .record finding => some finding
  | .insert _ _ => none

/-- The record inserted; row numbers are `u64`. -/
def record? : Event → Option Record
  | .record _ => none
  | .insert value row => some { value, row := UInt64.ofNat row }

end Event

/-- The event inserts no value of another kind. -/
def Event.Of (kind : ValueKind) : Event → Prop
  | .record _ => True
  | .insert value _ => value.kind = kind

/-- The violations among the events. -/
def findingsOf (events : List Event) : List Finding := events.filterMap Event.finding?

/-- The records among the events. -/
def recordsOf (events : List Event) : List Record := events.filterMap Event.record?

@[simp] theorem findingsOf_nil : findingsOf [] = [] := rfl

@[simp] theorem recordsOf_nil : recordsOf [] = [] := rfl

@[simp] theorem findingsOf_append (events events' : List Event) :
    findingsOf (events ++ events') = findingsOf events ++ findingsOf events' :=
  List.filterMap_append

@[simp] theorem recordsOf_append (events events' : List Event) :
    recordsOf (events ++ events') = recordsOf events ++ recordsOf events' :=
  List.filterMap_append

/-- Where a scan puts what it finds.  Only a rule that counts distinct values has an exact state. -/
structure Sink where
  validation : ValidationState
  exact : Option ExactState

/-- The events of all rows, in order, with `rowOffset` the number of the first row. -/
def collectRows {ι : Type} (events : ι → ℕ → Except Fault (List Event)) (items : List ι)
    (rowOffset : ℕ) : Except Fault (List Event) :=
  (items.zipIdx rowOffset).foldlM (fun done (item, row) => do
    let next ← events item row
    .ok (done ++ next)) []

section Scan

variable {ω : Type} [Host ω] [Crates]

def Sink.play (sink : Sink) : Event → Run ω Fault Sink
  | .record finding => do
      let validation ← sink.validation.recordLazy finding
      pure { sink with validation }
  | .insert value row =>
      match sink.exact with
      | none => pure sink
      | some exact => do
          let exact ← exact.insert value (UInt64.ofNat row)
          pure { sink with exact := some exact }

/-- The loop of every kernel over the rows of a batch. -/
def scanRows {ι : Type} (events : ι → ℕ → Except Fault (List Event)) (items : List ι)
    (rowOffset : ℕ) (sink : Sink) : Run ω Fault Sink :=
  (items.zipIdx rowOffset).foldlM (fun sink (item, row) => do
    let next ← lift (events item row)
    next.foldlM Sink.play sink) sink

/-! ## How exact states are kept -/

/-- How a run keeps its exact states: what it is for a state of a kind to hold records, which faults
may end a step, and what a finished state may have spilled.  A run uses its exact states by these
rules alone. -/
structure Keeping (ω : Type) [Host ω] where
  Env : Fault → Prop
  Holds : ValueKind → List Record → ExactState → Prop
  maxSamples : ℕ
  Spills : ℕ → ℕ → Prop
  refused : ∀ e : ProofFrameError, e.code = .resourceLimit → Env (.error e)
  cancelled : Sat (checkCancelled : Run ω Fault Unit) (fun _ => True) Env
  insert : ∀ {kind records exact value}, Holds kind records exact → value.kind = kind → ∀ row,
    Sat (exact.insert value row : Run ω Fault _) (Holds kind (records ++ [⟨value, row⟩])) Env
  finish : ∀ {kind records exact}, Holds kind records exact →
    Sat (exact.finish : Run ω Fault _) (fun summary => summary.Counts maxSamples records ∧
      Spills summary.metrics.spillBytes summary.metrics.runs) Env
  spills_zero : Spills 0 0
  spills_add : ∀ {bytes runs bytes' runs'}, Spills bytes runs → Spills bytes' runs' →
    Spills (bytes + bytes') (runs + runs')

/-- The exact state holds the records and samples under the given limits. -/
def ExactHolds (limits : ResourceLimits) (records : List Record) (exact : ExactState) : Prop :=
  exact.Holds records ∧ exact.account.limits = limits

/-- States kept in memory and on disk, as far as the surroundings go along. -/
def Keeping.spilling (limits : ResourceLimits) : Keeping ω where
  Env := ExactFault
  Holds _ := ExactHolds limits
  maxSamples := limits.maxSamples
  Spills _ _ := True
  refused e he := by
    show e.code ∈ exactCodes
    rw [he]
    decide
  cancelled := sat_checkCancelled_exact
  insert h _ row := (ExactState.sat_insert h.1 _ row).post fun next hnext =>
    ⟨hnext.1, by rw [hnext.2.1, h.2]⟩
  finish h := (ExactState.sat_finish h.1).post fun summary hsummary =>
    ⟨h.2 ▸ hsummary, trivial⟩
  spills_zero := trivial
  spills_add _ _ := trivial

/-! ## The scan refines its events -/

/-- What a sink has received. -/
structure Sink.Received (Holds : List Record → ExactState → Prop) (limit : ℕ)
    (evaluated : List ℕ) (findings : List Finding) (records : List Record) (sink : Sink) :
    Prop where
  tracks : sink.validation.Tracks limit evaluated findings
  holds : ∀ exact, sink.exact = some exact → Holds records exact

variable (keep : Keeping ω) {kind : ValueKind} {limit : ℕ} {evaluated : List ℕ}
  {findings : List Finding} {records : List Record} {sink : Sink}

theorem Sink.Received.sat_play (h : sink.Received (keep.Holds kind) limit evaluated findings records)
    {event : Event} (hevent : sink.exact.isSome = true → event.Of kind) :
    Sat (sink.play event : Run ω Fault _)
      (fun next => next.Received (keep.Holds kind) limit evaluated (findings ++ findingsOf [event])
        (records ++ recordsOf [event]) ∧ next.exact.isSome = sink.exact.isSome) keep.Env := by
  cases event with
  | record finding =>
      apply h.tracks.sat_recordLazy.bind
      intro validation hvalidation
      refine sat_pure ⟨⟨hvalidation, ?_⟩, rfl⟩
      show ∀ exact, sink.exact = some exact → keep.Holds kind (records ++ []) exact
      rw [List.append_nil]
      exact h.holds
  | insert value row =>
      have htracks : sink.validation.Tracks limit evaluated (findings ++ []) := by
        rw [List.append_nil]
        exact h.tracks
      unfold Sink.play
      cases hexact : sink.exact with
      | none =>
          refine sat_pure ⟨⟨htracks, ?_⟩, by rw [hexact]⟩
          rw [hexact]
          rintro _ ⟨⟩
      | some exact =>
          have hkind : value.kind = kind := hevent (by rw [hexact]; rfl)
          apply (keep.insert (h.holds exact hexact) hkind (UInt64.ofNat row)).bind
          intro next hnext
          refine sat_pure ⟨⟨htracks, ?_⟩, rfl⟩
          rintro _ ⟨⟩
          exact hnext

theorem Sink.Received.sat_playAll {events : List Event} :
    ∀ {findings : List Finding} {records : List Record} {sink : Sink},
      sink.Received (keep.Holds kind) limit evaluated findings records →
      (sink.exact.isSome = true → ∀ event ∈ events, event.Of kind) →
      Sat (events.foldlM Sink.play sink : Run ω Fault _)
        (fun next => next.Received (keep.Holds kind) limit evaluated
          (findings ++ findingsOf events) (records ++ recordsOf events) ∧
          next.exact.isSome = sink.exact.isSome) keep.Env := by
  induction events with
  | nil =>
      intro findings records sink h _
      refine sat_pure ⟨?_, rfl⟩
      simpa using h
  | cons event events ih =>
      intro findings records sink h hevents
      rw [List.foldlM_cons]
      apply (h.sat_play keep fun hsome => hevents hsome event (List.mem_cons_self ..)).bind
      intro next hnext
      apply (ih hnext.1 _).post
      · intro last hlast
        refine ⟨?_, hlast.2.trans hnext.2⟩
        have hcons : event :: events = [event] ++ events := rfl
        rw [hcons, findingsOf_append, recordsOf_append, ← List.append_assoc, ← List.append_assoc]
        exact hlast.1
      · intro hsome other hother
        exact hevents (hnext.2 ▸ hsome) other (List.mem_cons_of_mem _ hother)

/-- The events of every row of the scan insert values of the kind. -/
def EventsOf {ι : Type} (kind : ValueKind) (events : ι → ℕ → Except Fault (List Event))
    (items : List ι) : Prop :=
  ∀ item ∈ items, ∀ row performed, events item row = .ok performed →
    ∀ event ∈ performed, event.Of kind

/-- A scan performs the events of its rows. -/
theorem Sink.Received.refines_scanRows {ι : Type} {events : ι → ℕ → Except Fault (List Event)}
    {items : List ι} {rowOffset : ℕ}
    (h : sink.Received (keep.Holds kind) limit evaluated findings records)
    (hevents : sink.exact.isSome = true → EventsOf kind events items) :
    Refines keep.Env (scanRows events items rowOffset sink : Run ω Fault _)
      (collectRows events items rowOffset)
      (fun performed next => next.Received (keep.Holds kind) limit evaluated
        (findings ++ findingsOf performed) (records ++ recordsOf performed) ∧
        next.exact.isSome = sink.exact.isSome) := by
  apply refines_foldlM
  · rintro ⟨item, row⟩ hitem performed current ⟨hcurrent, hsome⟩
    apply (refines_lift (S := Eq) fun _ _ => rfl).bind
    rintro next _ hnext rfl
    apply Refines.of_sat
    apply (hcurrent.sat_playAll keep fun hcurrentSome =>
      hevents (hsome ▸ hcurrentSome) item (List.fst_mem_of_mem_zipIdx hitem) row next hnext).post
    intro last hlast
    simp only [findingsOf_append, recordsOf_append, ← List.append_assoc]
    exact ⟨hlast.1, hlast.2.trans hsome⟩
  · simpa using h

/-- A scan into the exact state of a rule that always has one. -/
def scanExact {ι : Type} (events : ι → ℕ → Except Fault (List Event)) (items : List ι)
    (rowOffset : ℕ) (exact : ExactState) (validation : ValidationState) :
    Run ω Fault (ExactState × ValidationState) := do
  let sink ← scanRows events items rowOffset { validation, exact := some exact }
  pure (sink.exact.getD exact, sink.validation)

theorem refines_scanExact {ι : Type} {events : ι → ℕ → Except Fault (List Event)}
    {items : List ι} {rowOffset : ℕ} {exact : ExactState} {validation : ValidationState}
    (hexact : keep.Holds kind records exact) (hevents : EventsOf kind events items)
    (h : validation.Tracks limit evaluated findings) :
    Refines keep.Env (scanExact events items rowOffset exact validation : Run ω Fault _)
      (collectRows events items rowOffset)
      (fun performed next => keep.Holds kind (records ++ recordsOf performed) next.1 ∧
        next.2.Tracks limit evaluated (findings ++ findingsOf performed)) := by
  have hsink : Sink.Received (keep.Holds kind) limit evaluated findings records
      { validation, exact := some exact } := by
    refine ⟨h, ?_⟩
    rintro _ ⟨⟩
    exact hexact
  unfold scanExact
  rw [← bind_pure (collectRows events items rowOffset)]
  apply (hsink.refines_scanRows keep fun _ => hevents).bind
  rintro performed ⟨validation', exact'⟩ _ ⟨⟨htracks, hholds⟩, hsome⟩
  apply refines_pure
  cases exact' with
  | none => simp at hsome
  | some exact' => exact ⟨hholds exact' rfl, htracks⟩

end Scan

end ProofFrame
