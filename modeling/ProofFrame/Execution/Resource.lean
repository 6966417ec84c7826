import Mathlib.Algebra.Group.Nat.Defs
import ProofFrame.Error
import ProofFrame.Lib.Run

/-!
# Resources

A run asks its surroundings for memory, for temporary storage, for file
operations and whether it was cancelled.  `Host` is whatever answers: the
budget, the other holders of the same account, the filesystem, the caller's
token.  Nothing is assumed about the answers, and everything proved of a
computation over a host holds for every host, so a released reservation, a full
disk or a concurrent cancellation needs no model of its own.
-/

namespace ProofFrame

open Lib

structure ResourceLimits where
  maxMemoryBytes : Nat
  maxTempBytes : Nat
  maxOutputRecords : Nat
  maxSamples : Nat
  deriving DecidableEq, Repr

/-- A node in a resource hierarchy: the memory and temporary-storage caps from the root down. -/
structure ResourceAccount where
  caps : List (Nat × Nat)
  limits : ResourceLimits
  deriving DecidableEq, Repr

namespace ResourceAccount

def root (limits : ResourceLimits) : ResourceAccount :=
  { caps := [(limits.maxMemoryBytes, limits.maxTempBytes)], limits }

def child (account : ResourceAccount) (memoryCap tempCap : Nat) : ResourceAccount :=
  { account with caps := account.caps ++ [(memoryCap, tempCap)] }

end ResourceAccount

inductive ResourceKind where
  | memory | temp
  deriving DecidableEq, Repr

def ResourceKind.name : ResourceKind → String
  | .memory => "memory"
  | .temp => "temporary storage"

/-- The file operations of a run. -/
inductive IoOperation where
  | createDirectory | openDirectory | createFile | writeFile | syncFile | openFile | readFile
  | persistFile
  deriving DecidableEq, Repr

/-- The surroundings of a run.  A refused reservation reports what was used and the cap. -/
class Host (ω : Type) where
  cancelled : ω → Bool × ω
  reserve : ω → ResourceAccount → ResourceKind → Nat → Except (Nat × Nat) Unit × ω
  io : ω → IoOperation → Except String Unit × ω
  peak : ω → ResourceAccount → ResourceKind → Nat

/-- A host that grants every request and whose meters stand at zero. -/
inductive Granting where
  | granting
  deriving DecidableEq

instance : Host Granting where
  cancelled world := (false, world)
  reserve world _ _ _ := (.ok (), world)
  io world _ := (.ok (), world)
  peak _ _ _ := 0

section Requests

variable {ω : Type} [Host ω]

/-- `CancellationToken::check`. -/
def checkCancelled : Run ω Fault Unit := fun world =>
  match Host.cancelled world with
  | (true, _) => .error (.error .cancelled)
  | (false, world') => .ok ((), world')

/-- `try_reserve_memory` and `try_reserve_temp`. -/
def tryReserve (account : ResourceAccount) (kind : ResourceKind) (bytes : Nat) :
    Run ω Fault (Except ProofFrameError Unit) := fun world =>
  match Host.reserve world account kind bytes with
  | (.ok (), world') => .ok (.ok (), world')
  | (.error (used, limit), world') =>
      .ok (.error (.resourceLimit kind.name bytes used limit), world')

/-- A reservation whose refusal is passed on. -/
def reserve (account : ResourceAccount) (kind : ResourceKind) (bytes : Nat) : Run ω Fault Unit := do
  match ← tryReserve account kind bytes with
  | .ok () => pure ()
  | .error e => throw (.error e)

def ioOperation (operation : IoOperation) : Run ω Fault Unit := fun world =>
  match Host.io world operation with
  | (.ok (), world') => .ok ((), world')
  | (.error message, _) => .error (.error (.io message))

def peakUsed (account : ResourceAccount) (kind : ResourceKind) : Run ω Fault Nat := fun world =>
  .ok (Host.peak world account kind, world)

end Requests

/-- The codes of the errors the surroundings can cause. -/
def environmentCodes : List ErrorCode := [.resourceLimit, .io, .cancelled]

/-- The run was stopped by its surroundings. -/
abbrev Environmental : Fault → Prop := Fault.Coded environmentCodes

section Rules

variable {ω : Type} [Host ω] {account : ResourceAccount} {kind : ResourceKind} {bytes : Nat}
  {operation : IoOperation} {Q : Unit → Prop}

/-- Nobody cancels a run on the host. -/
def Uncancelled (ω : Type) [Host ω] : Prop := ∀ world : ω, (Host.cancelled world).1 = false

theorem Uncancelled.sat_checkCancelled (h : Uncancelled ω) {E : Fault → Prop} (hok : Q ()) :
    Run.Sat (checkCancelled : Run ω Fault Unit) Q E := by
  intro world
  have hnot := h world
  unfold checkCancelled
  rcases hcancelled : Host.cancelled world with ⟨_ | _, world'⟩
  · exact hok
  · rw [hcancelled] at hnot
    cases hnot

theorem sat_checkCancelled (h : Q ()) : Run.Sat (checkCancelled : Run ω Fault Unit) Q Environmental := by
  intro world
  unfold checkCancelled
  rcases Host.cancelled world with ⟨_ | _, world'⟩
  · exact h
  · exact (by decide : ErrorCode.cancelled ∈ environmentCodes)

/-- A refusal is a resource limit. -/
theorem sat_tryReserve {Q : Except ProofFrameError Unit → Prop} {E : Fault → Prop} (hok : Q (.ok ()))
    (herror : ∀ e : ProofFrameError, e.code = .resourceLimit → Q (.error e)) :
    Run.Sat (tryReserve account kind bytes : Run ω Fault _) Q E := by
  intro world
  unfold tryReserve
  rcases Host.reserve world account kind bytes with ⟨⟨used, limit⟩ | _, world'⟩
  · exact herror _ rfl
  · exact hok

theorem sat_reserve (h : Q ()) :
    Run.Sat (reserve account kind bytes : Run ω Fault Unit) Q Environmental := by
  refine Run.Sat.bind (Q := fun r => ∀ e, r = .error e → e.code = .resourceLimit)
    (sat_tryReserve (by simp) (by rintro e he e' ⟨⟩; exact he)) fun r hr => ?_
  cases r with
  | ok _ => exact Run.sat_pure h
  | error e =>
      refine Run.sat_throw ?_
      show e.code ∈ environmentCodes
      rw [hr e rfl]
      decide

theorem sat_ioOperation (h : Q ()) :
    Run.Sat (ioOperation operation : Run ω Fault Unit) Q Environmental := by
  intro world
  unfold ioOperation
  rcases Host.io world operation with ⟨_ | _, world'⟩
  · exact (by decide : ErrorCode.io ∈ environmentCodes)
  · exact h

theorem sat_peakUsed {Q : Nat → Prop} {E : Fault → Prop} (h : ∀ n, Q n) :
    Run.Sat (peakUsed account kind : Run ω Fault Nat) Q E := fun _ => h _

end Rules

/-! ## Checked sizes -/

/-- Add with overflow checked against `u64`. -/
def checkedAdd {ω : Type} (message : String) (a b : Nat) : Run ω Fault Nat := do
  Run.failIf (2 ^ 64 ≤ a + b) (.error (.corruptData message))
  pure (a + b)

/-- Multiply with overflow checked against `u64`. -/
def checkedMul {ω : Type} (message : String) (a b : Nat) : Run ω Fault Nat := do
  Run.failIf (2 ^ 64 ≤ a * b) (.error (.corruptData message))
  pure (a * b)

theorem sat_checkedAdd {ω : Type} {message : String} {a b : Nat} {E : Fault → Prop}
    (herror : E (.error (.corruptData message))) :
    Run.Sat (checkedAdd message a b : Run ω Fault Nat) (fun n => n = a + b ∧ a + b < 2 ^ 64) E :=
  (Run.sat_failIf fun _ => herror).bind fun _ h => Run.sat_pure ⟨rfl, Nat.lt_of_not_le h⟩

/-- The sum that is checked is known. -/
theorem sat_checkedAdd_of {ω : Type} {message : String} {a b : Nat} {Q : Nat → Prop}
    {E : Fault → Prop} (herror : 2 ^ 64 ≤ a + b → E (.error (.corruptData message)))
    (hok : a + b < 2 ^ 64 → Q (a + b)) : Run.Sat (checkedAdd message a b : Run ω Fault Nat) Q E :=
  (Run.sat_failIf herror).bind fun _ h => Run.sat_pure (hok (Nat.lt_of_not_le h))

theorem sat_checkedMul {ω : Type} {message : String} {a b : Nat} {E : Fault → Prop}
    (herror : E (.error (.corruptData message))) :
    Run.Sat (checkedMul message a b : Run ω Fault Nat) (fun n => n = a * b ∧ a * b < 2 ^ 64) E :=
  (Run.sat_failIf fun _ => herror).bind fun _ h => Run.sat_pure ⟨rfl, Nat.lt_of_not_le h⟩

end ProofFrame
