import ProofFrame.Execution.Resource
import Mathlib.Order.MinMax

/-!
# Budget ledgers

A diff charges its budget in chunks: the ledger keeps what was used and what was
reserved for it, and reserves more when the use outgrows the reservation.
-/

namespace ProofFrame.Diff

open Lib Lib.Run

def ledgerChunkBytes : ℕ := 1024 * 1024

/-- `ledger_charge`. -/
def ledgerCharge (needed remaining : ℕ) : ℕ :=
  if remaining < ledgerChunkBytes then remaining
  else min (max needed ledgerChunkBytes) remaining

/-- `TempLedger` and `MemoryLedger`, which differ in what they reserve and in what a refusal calls
it. -/
structure Ledger where
  account : ResourceAccount
  kind : ResourceKind
  resource : String
  reserved : ℕ
  used : ℕ

namespace Ledger

/-- `TempLedger::new`. -/
def temp (account : ResourceAccount) : Ledger :=
  { account, kind := .temp, resource := "temporary storage", reserved := 0, used := 0 }

/-- `MemoryLedger::new`. -/
def memory (account : ResourceAccount) : Ledger :=
  { account, kind := .memory, resource := "diff partition memory", reserved := 0, used := 0 }

def limit (ledger : Ledger) : ℕ :=
  match ledger.kind with
  | .memory => ledger.account.limits.maxMemoryBytes
  | .temp => ledger.account.limits.maxTempBytes

variable {ω : Type} [Host ω]

/-- One turn of the loop of `reserve_additional`. -/
def reserveTurn (bytes : ℕ) (ledger : Ledger) : Run ω Fault (Turn Ledger Ledger) := do
  if ledger.reserved < ledger.used then
    let needed := ledger.used - ledger.reserved
    let remaining := ledger.limit - ledger.reserved
    let charge := ledgerCharge needed remaining
    failIf (charge = 0)
      (.error (.resourceLimit ledger.resource bytes ledger.reserved ledger.limit))
    reserve ledger.account ledger.kind charge
    pure (.again { ledger with reserved := ledger.reserved + charge })
  else pure (.leave ledger)

/-- `reserve_additional`. -/
def reserveAdditional (ledger : Ledger) (bytes : ℕ) : Run ω Fault Ledger := do
  failIf (2 ^ 64 ≤ ledger.used + bytes)
    (.error (.resourceLimit ledger.resource bytes ledger.used ledger.limit))
  let ledger := { ledger with used := ledger.used + bytes }
  loop .diverged (reserveTurn bytes) (ledger.used - ledger.reserved + 1) ledger

/-- A shortage the limit has room for is rounded up to a chunk, or to what the limit leaves. -/
theorem ledgerCharge_of_le {needed remaining : ℕ} (h : needed ≤ remaining) :
    ledgerCharge needed remaining = max needed (min ledgerChunkBytes remaining) := by
  unfold ledgerCharge
  split <;> omega

theorem ledgerCharge_of_lt {needed remaining : ℕ} (h : remaining < needed) :
    ledgerCharge needed remaining = remaining := by
  unfold ledgerCharge
  split <;> omega

/-- The ledger after a call has counted its bytes. -/
def count (ledger : Ledger) (bytes : ℕ) : Ledger := { ledger with used := ledger.used + bytes }

def charged (ledger : Ledger) (charge : ℕ) : Ledger :=
  { ledger with reserved := ledger.reserved + charge }

section Calls

variable {ledger : Ledger} {bytes charge : ℕ} {world : ω}

theorem reserveTurn_of_le (h : ledger.used ≤ ledger.reserved) :
    ledger.reserveTurn bytes world = .ok (.leave ledger, world) := by
  unfold reserveTurn
  rw [if_neg (Nat.not_lt.mpr h)]
  rfl

/-- A ledger that has reserved its whole limit and needs more refuses. -/
theorem reserveTurn_of_limit (h : ledger.reserved < ledger.used)
    (hlimit : ledger.limit ≤ ledger.reserved) :
    ledger.reserveTurn bytes world =
      .error (.error (.resourceLimit ledger.resource bytes ledger.reserved ledger.limit)) := by
  have hcharge : ledgerCharge (ledger.used - ledger.reserved)
      (ledger.limit - ledger.reserved) = 0 := by
    rw [ledgerCharge_of_lt (by omega)]
    omega
  unfold reserveTurn
  rw [if_pos h, hcharge]
  rfl

/-- A turn that has something to charge ends as the account answers. -/
theorem reserveTurn_of_lt (h : ledger.reserved < ledger.used)
    (hcharge : ledgerCharge (ledger.used - ledger.reserved) (ledger.limit - ledger.reserved) =
      charge) (hpos : 0 < charge) :
    ledger.reserveTurn bytes world =
      (reserve ledger.account ledger.kind charge world).map fun granted =>
        (.again (ledger.charged charge), granted.2) := by
  unfold reserveTurn
  rw [if_pos h, hcharge, failIf, if_neg hpos.ne', pure_bind, bind_eq]
  cases reserve ledger.account ledger.kind charge world <;> rfl

theorem reserveAdditional_of_overflow (h : 2 ^ 64 ≤ ledger.used + bytes) :
    ledger.reserveAdditional bytes world =
      .error (.error (.resourceLimit ledger.resource bytes ledger.used ledger.limit)) := by
  unfold reserveAdditional
  rw [bind_eq, failIf, if_pos h]
  rfl

theorem reserveAdditional_eq_loop (h : ledger.used + bytes < 2 ^ 64) :
    ledger.reserveAdditional bytes world =
      loop .diverged (reserveTurn bytes) (ledger.used + bytes - ledger.reserved + 1)
        (ledger.count bytes) world := by
  unfold reserveAdditional
  rw [bind_eq, failIf, if_neg (Nat.not_le.mpr h)]
  rfl

/-- What is already reserved is not asked for again. -/
theorem reserveAdditional_of_le (hbytes : ledger.used + bytes < 2 ^ 64)
    (h : ledger.used + bytes ≤ ledger.reserved) :
    ledger.reserveAdditional bytes world = .ok (ledger.count bytes, world) := by
  rw [reserveAdditional_eq_loop hbytes, loop, bind_eq, reserveTurn_of_le h]
  rfl

/-- A shortage takes two turns: one that asks the account, and one that sees what it got. -/
theorem reserveAdditional_of_lt (hbytes : ledger.used + bytes < 2 ^ 64)
    (h : ledger.reserved < ledger.used + bytes)
    (hcharge : ledgerCharge (ledger.used + bytes - ledger.reserved)
      (ledger.limit - ledger.reserved) = charge) (hpos : 0 < charge) :
    ∃ fuel, ledger.reserveAdditional bytes world =
      match reserve ledger.account ledger.kind charge world with
      | .ok (_, world') =>
          loop .diverged (reserveTurn bytes) (fuel + 1) ((ledger.count bytes).charged charge) world'
      | .error e => .error e := by
  obtain ⟨fuel, hfuel⟩ : ∃ fuel, ledger.used + bytes - ledger.reserved = fuel + 1 :=
    ⟨_, (Nat.succ_pred_eq_of_pos (by omega)).symm⟩
  have hturn : (ledger.count bytes).reserveTurn bytes world =
      (reserve ledger.account ledger.kind charge world).map fun granted =>
        (.again ((ledger.count bytes).charged charge), granted.2) := reserveTurn_of_lt h hcharge hpos
  refine ⟨fuel, ?_⟩
  rw [reserveAdditional_eq_loop hbytes, hfuel, loop, bind_eq, hturn]
  cases reserve ledger.account ledger.kind charge world <;> rfl

/-- A shortage within the limit is reserved at once, rounded up, if the account grants it. -/
theorem reserveAdditional_of_limit (hbytes : ledger.used + bytes < 2 ^ 64)
    (h : ledger.reserved < ledger.used + bytes) (hlimit : ledger.used + bytes ≤ ledger.limit)
    (hcharge : charge = max (ledger.used + bytes - ledger.reserved)
      (min ledgerChunkBytes (ledger.limit - ledger.reserved))) :
    ledger.reserveAdditional bytes world =
      (reserve ledger.account ledger.kind charge world).map fun granted =>
        ((ledger.count bytes).charged charge, granted.2) := by
  have hneeded : ledger.used + bytes - ledger.reserved ≤ charge := hcharge ▸ le_max_left ..
  have hrounded := ledgerCharge_of_le (Nat.sub_le_sub_right hlimit ledger.reserved)
  obtain ⟨fuel, hrun⟩ := @reserveAdditional_of_lt _ _ _ _ _ world hbytes h
    (hrounded.trans hcharge.symm) (by omega)
  rw [hrun]
  cases hreserve : reserve ledger.account ledger.kind charge world with
  | error e => rfl
  | ok granted =>
      have hcovered : ((ledger.count bytes).charged charge).used ≤
          ((ledger.count bytes).charged charge).reserved := by
        simp only [charged, count]
        omega
      dsimp only
      rw [loop, bind_eq, reserveTurn_of_le hcovered]
      rfl

/-- A use above the limit of the ledger is refused, whatever the account grants. -/
theorem reserveAdditional_of_limit_lt (h : ledger.reserved < ledger.used + bytes)
    (hlimit : ledger.limit < ledger.used + bytes) :
    ∃ e, ledger.reserveAdditional bytes world = .error e := by
  by_cases hbytes : ledger.used + bytes < 2 ^ 64
  swap
  · exact ⟨_, reserveAdditional_of_overflow (Nat.not_lt.mp hbytes)⟩
  by_cases hfull : ledger.limit ≤ ledger.reserved
  · have hturn : (ledger.count bytes).reserveTurn bytes world = _ := reserveTurn_of_limit h hfull
    rw [reserveAdditional_eq_loop hbytes, loop, bind_eq, hturn]
    exact ⟨_, rfl⟩
  · -- the first turn takes what the limit leaves, and the second finds nothing more to take
    have hall := ledgerCharge_of_lt (Nat.sub_lt_sub_right (Nat.le_of_not_le hfull) hlimit)
    obtain ⟨fuel, hrun⟩ := @reserveAdditional_of_lt _ _ _ _ _ world hbytes h hall (by omega)
    rw [hrun]
    cases reserve ledger.account ledger.kind (ledger.limit - ledger.reserved) world with
    | error e => exact ⟨e, rfl⟩
    | ok granted =>
        have hshort : ((ledger.count bytes).charged (ledger.limit - ledger.reserved)).reserved <
            ((ledger.count bytes).charged (ledger.limit - ledger.reserved)).used := by
          simp only [charged, count]
          omega
        have htaken : ((ledger.count bytes).charged (ledger.limit - ledger.reserved)).limit ≤
            ((ledger.count bytes).charged (ledger.limit - ledger.reserved)).reserved := by
          show ledger.limit ≤ ledger.reserved + (ledger.limit - ledger.reserved)
          omega
        dsimp only
        rw [loop, bind_eq, reserveTurn_of_limit hshort htaken]
        exact ⟨_, rfl⟩

end Calls

end Ledger

end ProofFrame.Diff
