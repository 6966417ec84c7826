import Mathlib.Algebra.Order.BigOperators.Group.Finset
import Mathlib.Data.Fintype.BigOperators
import ProofFrame.Diff.Ledger
import ProofFrame.Execution.Accounts

/-!
# Ledgers that share a root account

A diff opens several ledgers on one root account: memory ledgers, each on a child
of its own with the cap of the root, and a ledger of temporary storage on the
root itself.  Every ledger reserves ahead, a chunk at a time, and looks only at
its own reservations when it decides how much is left.
-/

namespace ProofFrame

open Lib Lib.Run

def ResourceLimits.cap (limits : ResourceLimits) : ResourceKind → ℕ
  | .memory => limits.maxMemoryBytes
  | .temp => limits.maxTempBytes

def ResourceAccount.capsOf (account : ResourceAccount) : ResourceKind → List ℕ
  | .memory => account.caps.map Prod.fst
  | .temp => account.caps.map Prod.snd

namespace Accounts

instance (current bytes cap : ℕ) : Decidable (Admits current bytes cap) :=
  inferInstanceAs (Decidable (_ ∧ _))

/-- `Reservation::try_new` with nobody in between: the counters are charged from the root down, and
a refusal leaves them as they were. -/
def chargeNodes (kind : ResourceKind) (bytes : ℕ) :
    List (Address × ℕ) → (Meter → ℕ) → Except (ℕ × ℕ) (Meter → ℕ)
  | [], used => .ok used
  | (node, cap) :: rest, used =>
      if Admits (used (kind, node)) bytes cap then
        chargeNodes kind bytes rest (Function.update used (kind, node) (used (kind, node) + bytes))
      else .error (used (kind, node), cap)

local instance lawfulBEqAddress : LawfulBEq Address := inferInstance

/-- The counters with the bytes added at the nodes. -/
def raised (kind : ResourceKind) (bytes : ℕ) (nodes : List Address) (used : Meter → ℕ) :
    Meter → ℕ :=
  fun meter => if meter.1 = kind ∧ meter.2 ∈ nodes then used meter + bytes else used meter

theorem raised_cons {kind : ResourceKind} {bytes : ℕ} {node : Address} {nodes : List Address}
    {used : Meter → ℕ} (hnew : node ∉ nodes) :
    raised kind bytes nodes (Function.update used (kind, node) (used (kind, node) + bytes)) =
      raised kind bytes (node :: nodes) used := by
  funext meter
  by_cases hmeter : meter = (kind, node)
  · subst hmeter
    simp [raised, hnew]
  · have hne : meter.1 = kind → meter.2 ≠ node := fun hkind hnode =>
      hmeter (Prod.ext hkind hnode)
    unfold raised
    rw [Function.update_of_ne hmeter]
    refine if_congr (and_congr_right fun hkind => ?_) rfl rfl
    rw [List.mem_cons, or_iff_right (hne hkind)]

theorem chargeNodes_of_admits {kind : ResourceKind} {bytes : ℕ} {nodes : List (Address × ℕ)}
    {used : Meter → ℕ} (hnodup : (nodes.map Prod.fst).Nodup)
    (hadmits : ∀ node ∈ nodes, Admits (used (kind, node.1)) bytes node.2) :
    chargeNodes kind bytes nodes used = .ok (raised kind bytes (nodes.map Prod.fst) used) := by
  induction nodes generalizing used with
  | nil =>
      rw [chargeNodes]
      congr
      funext meter
      simp [raised]
  | cons head rest ih =>
      rw [List.map_cons, List.nodup_cons] at hnodup
      rw [chargeNodes, if_pos (hadmits head List.mem_cons_self), ih hnodup.2,
        raised_cons hnodup.1, List.map_cons]
      intro node hnode
      have hne : node.1 ≠ head.1 := fun h => hnodup.1 (h ▸ List.mem_map_of_mem hnode)
      rw [Function.update_of_ne (by simpa using hne)]
      exact hadmits node (List.mem_cons_of_mem _ hnode)

/-- The counters as one thread finds them, and the account its next request is made on. -/
structure Seat where
  address : Address
  used : Meter → ℕ

/-- Nobody cancels and no file operation fails; the peaks are not kept. -/
instance : Host Seat where
  cancelled seat := (false, seat)
  reserve seat account kind bytes :=
    match chargeNodes kind bytes (seat.address.nodes.zip (account.capsOf kind)) seat.used with
    | .ok used => (.ok (), { seat with used })
    | .error refusal => (.error refusal, seat)
  io seat _ := (.ok (), seat)
  peak _ _ _ := 0

variable {account : ResourceAccount} {kind : ResourceKind} {bytes : ℕ} {seat : Seat}

theorem reserve_of_admits (hlength : seat.address.nodes.length ≤ (account.capsOf kind).length)
    (hadmits : ∀ node ∈ seat.address.nodes.zip (account.capsOf kind),
      Admits (seat.used (kind, node.1)) bytes node.2) :
    reserve account kind bytes seat =
      .ok ((), { seat with used := raised kind bytes seat.address.nodes seat.used }) := by
  have hnodes : (seat.address.nodes.zip (account.capsOf kind)).map Prod.fst =
      seat.address.nodes := List.map_fst_zip hlength
  have hcharge := chargeNodes_of_admits (hnodes.symm ▸ nodup_nodes seat.address) hadmits
  rw [hnodes] at hcharge
  unfold reserve tryReserve Host.reserve
  simp only [instHostSeat, bind_eq, hcharge]
  rfl

theorem reserve_of_refuses {node : Address} {cap : ℕ} {rest : List (Address × ℕ)}
    (hnodes : seat.address.nodes.zip (account.capsOf kind) = (node, cap) :: rest)
    (hrefuses : ¬Admits (seat.used (kind, node)) bytes cap) :
    ∃ e, reserve account kind bytes seat = .error e := by
  refine ⟨.error (.resourceLimit kind.name bytes (seat.used (kind, node)) cap), ?_⟩
  unfold reserve tryReserve Host.reserve
  simp only [instHostSeat, bind_eq, hnodes, chargeNodes, if_neg hrefuses]
  rfl

end Accounts

namespace Diff

open Accounts

/-! ## The ledgers of a run -/

/-- `TempLedger::new` on the root, or `MemoryLedger::new` on a child with the cap of the root. -/
def Ledger.opened (limits : ResourceLimits) : ResourceKind → Ledger
  | .memory => .memory ((ResourceAccount.root limits).child limits.maxMemoryBytes 0)
  | .temp => .temp (.root limits)

/-- Where the account of the ledger stands, if it is on this child. -/
def Ledger.address (ledger : Ledger) (child : ℕ) : Address :=
  match ledger.kind with
  | .memory => [child]
  | .temp => []

/-- The counters of the accounts and the ledgers that charge them. -/
@[ext]
structure Ledgers (n : ℕ) where
  used : Meter → ℕ
  ledgers : Fin n → Ledger

namespace Ledgers

variable {n : ℕ}

def start (limits : ResourceLimits) (kinds : Fin n → ResourceKind) : Ledgers n :=
  { used := fun _ => 0, ledgers := fun i => Ledger.opened limits (kinds i) }

def seat (s : Ledgers n) (i : Fin n) : Seat := ⟨(s.ledgers i).address i, s.used⟩

/-- One ledger is called. A refusal ends the run of the diff. -/
def call (s : Ledgers n) (i : Fin n) (bytes : ℕ) : Except Fault (Ledgers n) :=
  ((s.ledgers i).reserveAdditional bytes (s.seat i)).map fun result =>
    { used := result.2.used, ledgers := Function.update s.ledgers i result.1 }

attribute [local instance] lawfulBEqAddress

/-- One ledger is dropped with its reservations, and a new one opened in its place, as every
partition of a diff does. -/
def reopen (limits : ResourceLimits) (s : Ledgers n) (i : Fin n) : Ledgers n :=
  let ledger := s.ledgers i
  { used := fun meter =>
      if meter.1 = ledger.kind ∧ meter.2 ∈ (ledger.address i).nodes then
        s.used meter - ledger.reserved
      else s.used meter
    ledgers := Function.update s.ledgers i (Ledger.opened limits ledger.kind) }

inductive Action (n : ℕ) where
  | call (i : Fin n) (bytes : ℕ)
  | reopen (i : Fin n)

inductive Step (limits : ResourceLimits) : Action n → Ledgers n → Ledgers n → Prop where
  | call {s s' : Ledgers n} {i : Fin n} {bytes : ℕ} (hcall : s.call i bytes = .ok s') :
      Step limits (.call i bytes) s s'
  | reopen {s : Ledgers n} {i : Fin n} : Step limits (.reopen i) s (s.reopen limits i)

/-- What the ledgers of a kind amount to. -/
def total (ledgers : Fin n → Ledger) (amount : Ledger → ℕ) (kind : ResourceKind) : ℕ :=
  ∑ i, if (ledgers i).kind = kind then amount (ledgers i) else 0

/-- The bytes requested of the ledgers of a kind. -/
def requested (s : Ledgers n) (kind : ResourceKind) : ℕ := total s.ledgers Ledger.used kind

/-- The live reservations of the ledgers of a kind. -/
def reserved (s : Ledgers n) (kind : ResourceKind) : ℕ := total s.ledgers Ledger.reserved kind

/-! ## Exact ledgers -/

/-- The bytes requested, with these, fit the cap. -/
def Fits (limits : ResourceLimits) (s : Ledgers n) (i : Fin n) (bytes : ℕ) : Prop :=
  s.requested (s.ledgers i).kind + bytes ≤ limits.cap (s.ledgers i).kind

/-- Every ledger has reserved what it uses, and the reservations stay within the cap. -/
def Covered (limits : ResourceLimits) (s : Ledgers n) : Prop :=
  (∀ i, (s.ledgers i).used ≤ (s.ledgers i).reserved) ∧ ∀ kind, s.reserved kind ≤ limits.cap kind

/-- The call succeeds exactly if its bytes fit, and leaves every ledger covered. -/
def ExactCall (limits : ResourceLimits) (s : Ledgers n) (i : Fin n) (bytes : ℕ) : Prop :=
  ((∃ s', s.call i bytes = .ok s') ↔ s.Fits limits i bytes) ∧
    ∀ s', s.call i bytes = .ok s' → s'.Covered limits

/-- A call that fits and outgrows what its ledger has reserved finds its shortage, rounded up to a
chunk or to what the ledger's own reservations leave of the cap, in what the reservations of all
ledgers leave. -/
def FindsRoom (limits : ResourceLimits) (s : Ledgers n) (i : Fin n) (bytes : ℕ) : Prop :=
  s.Fits limits i bytes → (s.ledgers i).reserved < (s.ledgers i).used + bytes →
    s.reserved (s.ledgers i).kind +
      max ((s.ledgers i).used + bytes - (s.ledgers i).reserved)
        (min ledgerChunkBytes (limits.cap (s.ledgers i).kind - (s.ledgers i).reserved)) ≤
      limits.cap (s.ledgers i).kind

/-- The property of every call in the run of the actions. -/
def EveryCall (limits : ResourceLimits) (kinds : Fin n → ResourceKind) (actions : List (Action n))
    (P : Ledgers n → Fin n → ℕ → Prop) : Prop :=
  ∀ done i bytes rest, actions = done ++ .call i bytes :: rest →
    ∀ s, Trace (Step limits) (start limits kinds) done s → P s i bytes

/-! ## Totals -/

section Totals

variable {ledgers : Fin n → Ledger} {amount amount' : Ledger → ℕ} {kind : ResourceKind} {i : Fin n}
  {ledger : Ledger}

/-- Replacing a ledger by one of its kind changes the total by what they differ in. -/
theorem total_update (hkind : ledger.kind = (ledgers i).kind) :
    total (Function.update ledgers i ledger) amount (ledgers i).kind + amount (ledgers i) =
      total ledgers amount (ledgers i).kind + amount ledger := by
  unfold total
  rw [← Finset.add_sum_erase _ _ (Finset.mem_univ i),
    ← Finset.add_sum_erase Finset.univ (fun j => if (ledgers j).kind = (ledgers i).kind then
      amount (ledgers j) else 0) (Finset.mem_univ i)]
  have hothers : ∑ j ∈ Finset.univ.erase i,
      (if (Function.update ledgers i ledger j).kind = (ledgers i).kind then
        amount (Function.update ledgers i ledger j) else 0) =
      ∑ j ∈ Finset.univ.erase i,
        if (ledgers j).kind = (ledgers i).kind then amount (ledgers j) else 0 := by
    refine Finset.sum_congr rfl fun j hj => ?_
    rw [Function.update_of_ne (Finset.ne_of_mem_erase hj)]
  rw [hothers]
  simp only [Function.update_self, hkind, if_true]
  omega

/-- The total of another kind does not see it. -/
theorem total_update_of_ne (hkind : ledger.kind = (ledgers i).kind)
    (hne : kind ≠ (ledgers i).kind) :
    total (Function.update ledgers i ledger) amount kind = total ledgers amount kind := by
  unfold total
  refine Finset.sum_congr rfl fun j _ => ?_
  by_cases hj : j = i
  · subst hj
    rw [Function.update_self, hkind, if_neg hne.symm, if_neg hne.symm]
  · rw [Function.update_of_ne hj]

theorem total_le_total (h : ∀ i, amount (ledgers i) ≤ amount' (ledgers i)) :
    total ledgers amount kind ≤ total ledgers amount' kind := by
  refine Finset.sum_le_sum fun i _ => ?_
  split
  · exact h i
  · exact le_rfl

theorem le_total : amount (ledgers i) ≤ total ledgers amount (ledgers i).kind := by
  unfold total
  rw [← Finset.add_sum_erase _ _ (Finset.mem_univ i), if_pos rfl]
  exact Nat.le_add_right _ _

end Totals

/-! ## The invariant -/

variable {limits : ResourceLimits} {s s' : Ledgers n} {i : Fin n} {bytes asked : ℕ}

/-- The counter of the root stands at what the ledgers have reserved, and the counter of a child at
what its ledger has. -/
structure Consistent (limits : ResourceLimits) (s : Ledgers n) : Prop where
  account_eq : ∀ i, (s.ledgers i).account = (Ledger.opened limits (s.ledgers i).kind).account
  covered : s.Covered limits
  root_eq : ∀ kind, s.used (kind, []) = s.reserved kind
  child_eq : ∀ i : Fin n, (s.ledgers i).kind = .memory →
    s.used (.memory, [i.val]) = (s.ledgers i).reserved

theorem Consistent.limit_eq (h : s.Consistent limits) (i : Fin n) :
    (s.ledgers i).limit = limits.cap (s.ledgers i).kind := by
  unfold Ledger.limit
  rw [h.account_eq i]
  cases (s.ledgers i).kind <;> rfl

/-- A ledger can use up its own reservation, and the reservations still cover all requests. -/
theorem Covered.requested_le (h : s.Covered limits) (i : Fin n) :
    s.requested (s.ledgers i).kind + (s.ledgers i).reserved ≤
      s.reserved (s.ledgers i).kind + (s.ledgers i).used := by
  let spent : Ledger := { s.ledgers i with used := (s.ledgers i).reserved }
  have hused := @total_update _ s.ledgers Ledger.used i spent rfl
  have hreserved := @total_update _ s.ledgers Ledger.reserved i spent rfl
  have hle : total (Function.update s.ledgers i spent) Ledger.used (s.ledgers i).kind ≤
      total (Function.update s.ledgers i spent) Ledger.reserved (s.ledgers i).kind := by
    refine total_le_total fun j => ?_
    by_cases hj : j = i
    · subst hj
      rw [Function.update_self]
    · rw [Function.update_of_ne hj]
      exact h.1 j
  simp only [spent] at hused hreserved hle
  unfold requested reserved
  omega

/-- What the account of a ledger lists, from the root down. -/
theorem Consistent.nodes_eq (h : s.Consistent limits) (i : Fin n) :
    (s.seat i).address.nodes.zip ((s.ledgers i).account.capsOf (s.ledgers i).kind) =
      ([], limits.cap (s.ledgers i).kind) :: match (s.ledgers i).kind with
        | .memory => [([i.val], limits.maxMemoryBytes)]
        | .temp => [] := by
  unfold seat Ledger.address
  rw [h.account_eq i]
  cases (s.ledgers i).kind <;> rfl

/-- The child of a memory ledger has charged no more than the root, under the same cap. -/
theorem Consistent.reserve_ok (h : s.Consistent limits) (hcap : ∀ kind, limits.cap kind < 2 ^ 64)
    (hroom : s.reserved (s.ledgers i).kind + asked ≤ limits.cap (s.ledgers i).kind) :
    reserve (s.ledgers i).account (s.ledgers i).kind asked (s.seat i) =
      .ok ((), { s.seat i with
        used := raised (s.ledgers i).kind asked (s.seat i).address.nodes s.used }) := by
  have hlt := hcap (s.ledgers i).kind
  refine reserve_of_admits ?_ ?_
  · rw [h.account_eq i]
    unfold seat Ledger.address
    cases (s.ledgers i).kind <;> exact le_rfl
  · rw [h.nodes_eq i]
    intro node hnode
    rcases List.mem_cons.mp hnode with rfl | hchild
    · show Admits (s.used (_, [])) _ _
      rw [h.root_eq]
      exact ⟨by omega, hroom⟩
    · cases hkind : (s.ledgers i).kind with
      | temp => simp [hkind] at hchild
      | memory =>
          have hown := @le_total _ s.ledgers Ledger.reserved i
          rw [hkind] at hchild hroom hlt hown
          obtain rfl := List.mem_singleton.mp hchild
          show Admits (s.used (.memory, [i.val])) _ _
          rw [h.child_eq i hkind]
          unfold reserved at hroom
          exact ⟨by omega, le_trans (Nat.add_le_add_right hown _) hroom⟩

theorem Consistent.reserve_error (h : s.Consistent limits)
    (hfull : limits.cap (s.ledgers i).kind < s.reserved (s.ledgers i).kind + asked) :
    ∃ e, reserve (s.ledgers i).account (s.ledgers i).kind asked (s.seat i) = .error e := by
  refine reserve_of_refuses (h.nodes_eq i) fun hadmits => ?_
  have hroot : s.used ((s.ledgers i).kind, []) + asked ≤ limits.cap (s.ledgers i).kind :=
    hadmits.2
  rw [h.root_eq] at hroot
  omega

/-! ## What a call does -/

/-- What a call that outgrows the reservations of its ledger asks of the account. -/
def charge (limits : ResourceLimits) (s : Ledgers n) (i : Fin n) (bytes : ℕ) : ℕ :=
  max ((s.ledgers i).used + bytes - (s.ledgers i).reserved)
    (min ledgerChunkBytes (limits.cap (s.ledgers i).kind - (s.ledgers i).reserved))

/-- The ledgers after a call that needed nothing new. -/
def counted (s : Ledgers n) (i : Fin n) (bytes : ℕ) : Ledgers n :=
  { s with ledgers := Function.update s.ledgers i ((s.ledgers i).count bytes) }

/-- The ledgers after a call that was granted a charge. -/
def granted (s : Ledgers n) (i : Fin n) (bytes charge : ℕ) : Ledgers n :=
  { used := raised (s.ledgers i).kind charge (s.seat i).address.nodes s.used
    ledgers := Function.update s.ledgers i (((s.ledgers i).count bytes).charged charge) }

theorem Consistent.reserved_le (h : s.Consistent limits) (i : Fin n) :
    (s.ledgers i).reserved ≤ limits.cap (s.ledgers i).kind :=
  le_total.trans (h.covered.2 _)

theorem Consistent.charge_eq (h : s.Consistent limits) (i : Fin n) :
    s.charge limits i bytes = max ((s.ledgers i).used + bytes - (s.ledgers i).reserved)
      (min ledgerChunkBytes ((s.ledgers i).limit - (s.ledgers i).reserved)) := by
  rw [h.limit_eq]
  rfl

theorem Consistent.call_of_le (h : s.Consistent limits) (hcap : ∀ kind, limits.cap kind < 2 ^ 64)
    (hle : (s.ledgers i).used + bytes ≤ (s.ledgers i).reserved) :
    s.call i bytes = .ok (s.counted i bytes) := by
  have hbytes : (s.ledgers i).used + bytes < 2 ^ 64 :=
    (hle.trans (h.reserved_le i)).trans_lt (hcap _)
  unfold call
  rw [Ledger.reserveAdditional_of_le hbytes hle]
  rfl

theorem Consistent.call_of_room (h : s.Consistent limits) (hcap : ∀ kind, limits.cap kind < 2 ^ 64)
    (hlt : (s.ledgers i).reserved < (s.ledgers i).used + bytes)
    (hroom : s.reserved (s.ledgers i).kind + s.charge limits i bytes ≤
      limits.cap (s.ledgers i).kind) :
    s.call i bytes = .ok (s.granted i bytes (s.charge limits i bytes)) := by
  have hneeded : (s.ledgers i).used + bytes - (s.ledgers i).reserved ≤ s.charge limits i bytes :=
    le_max_left ..
  have hown : (s.ledgers i).reserved ≤ s.reserved (s.ledgers i).kind := le_total
  have hlimit : (s.ledgers i).used + bytes ≤ (s.ledgers i).limit := by
    rw [h.limit_eq]
    omega
  have hbytes : (s.ledgers i).used + bytes < 2 ^ 64 :=
    (h.limit_eq i ▸ hlimit).trans_lt (hcap _)
  unfold call
  rw [Ledger.reserveAdditional_of_limit hbytes hlt hlimit (h.charge_eq i), h.reserve_ok hcap hroom]
  rfl

theorem Consistent.call_of_full (h : s.Consistent limits)
    (hlt : (s.ledgers i).reserved < (s.ledgers i).used + bytes)
    (hfull : limits.cap (s.ledgers i).kind <
      s.reserved (s.ledgers i).kind + s.charge limits i bytes) :
    ∃ e, s.call i bytes = .error e := by
  have hrun : ∃ e, (s.ledgers i).reserveAdditional bytes (s.seat i) = .error e := by
    by_cases hlimit : (s.ledgers i).limit < (s.ledgers i).used + bytes
    · exact Ledger.reserveAdditional_of_limit_lt hlt hlimit
    by_cases hbytes : (s.ledgers i).used + bytes < 2 ^ 64
    · obtain ⟨e, hreserve⟩ := h.reserve_error hfull
      refine ⟨e, ?_⟩
      rw [Ledger.reserveAdditional_of_limit hbytes hlt (Nat.not_lt.mp hlimit)
        (h.charge_eq i), hreserve]
      rfl
    · exact ⟨_, Ledger.reserveAdditional_of_overflow (Nat.not_lt.mp hbytes)⟩
  obtain ⟨e, hrun⟩ := hrun
  refine ⟨e, ?_⟩
  unfold call
  rw [hrun]
  rfl

/-! ## What a step keeps -/

/-- The address of a ledger lies under the root. -/
theorem nil_mem_nodes (address : Address) : [] ∈ address.nodes := mem_nodes.mpr List.nil_prefix

/-- No ledger charges the child of another. -/
theorem eq_of_mem_nodes {j : Fin n} (h : [j.val] ∈ (s.seat i).address.nodes) : j = i := by
  unfold seat Ledger.address at h
  rw [mem_nodes] at h
  cases hkind : (s.ledgers i).kind with
  | memory =>
      rw [hkind] at h
      exact Fin.ext (by simpa using h)
  | temp =>
      rw [hkind] at h
      simp at h

/-- A ledger may be replaced by one on the same account if the counters of its nodes follow. -/
theorem Consistent.replace (h : s.Consistent limits) {ledger : Ledger} {used : Meter → ℕ}
    (haccount : ledger.account = (s.ledgers i).account) (hkind : ledger.kind = (s.ledgers i).kind)
    (hcovered : ledger.used ≤ ledger.reserved)
    (hcap : s.reserved (s.ledgers i).kind + ledger.reserved ≤
      limits.cap (s.ledgers i).kind + (s.ledgers i).reserved)
    (hnodes : ∀ node ∈ (s.seat i).address.nodes,
      used ((s.ledgers i).kind, node) + (s.ledgers i).reserved =
        s.used ((s.ledgers i).kind, node) + ledger.reserved)
    (hothers : ∀ meter : Meter, ¬(meter.1 = (s.ledgers i).kind ∧
      meter.2 ∈ (s.seat i).address.nodes) → used meter = s.used meter) :
    Consistent limits { used, ledgers := Function.update s.ledgers i ledger } := by
  -- only the meters on the path of the ledger change, each by what the ledger's reservation does
  have htotal := @total_update _ s.ledgers Ledger.reserved i ledger hkind
  refine ⟨fun j => ?_, ⟨fun j => ?_, fun kind => ?_⟩, fun kind => ?_, fun j hj => ?_⟩
  · dsimp only
    by_cases hj : j = i
    · subst hj
      rw [Function.update_self, haccount, hkind]
      exact h.account_eq j
    · rw [Function.update_of_ne hj]
      exact h.account_eq j
  · dsimp only
    by_cases hj : j = i
    · subst hj
      rwa [Function.update_self]
    · rw [Function.update_of_ne hj]
      exact h.covered.1 j
  · by_cases hne : kind = (s.ledgers i).kind
    · subst hne
      unfold reserved at hcap ⊢
      dsimp only
      omega
    · unfold reserved
      rw [total_update_of_ne hkind hne]
      exact h.covered.2 kind
  · by_cases hne : kind = (s.ledgers i).kind
    · subst hne
      have hroot := hnodes [] (nil_mem_nodes _)
      rw [h.root_eq] at hroot
      unfold reserved at hroot ⊢
      dsimp only
      omega
    · unfold reserved
      dsimp only
      rw [total_update_of_ne hkind hne, hothers _ fun hmem => hne hmem.1]
      exact h.root_eq kind
  · dsimp only at hj ⊢
    by_cases hji : j = i
    · subst hji
      rw [Function.update_self] at hj ⊢
      rw [hkind] at hj
      have hchild := hnodes [j.val] (by
        unfold seat Ledger.address
        rw [hj]
        exact mem_nodes.mpr List.prefix_rfl)
      rw [hj, h.child_eq j hj] at hchild
      omega
    · rw [Function.update_of_ne hji] at hj ⊢
      rw [hothers _ fun hmem => hji (eq_of_mem_nodes hmem.2)]
      exact h.child_eq j hj

theorem Consistent.counted (h : s.Consistent limits)
    (hle : (s.ledgers i).used + bytes ≤ (s.ledgers i).reserved) :
    (s.counted i bytes).Consistent limits :=
  h.replace rfl rfl hle (Nat.add_le_add_right (h.covered.2 _) _) (fun _ _ => rfl) fun _ _ => rfl

theorem Consistent.granted (h : s.Consistent limits)
    (hcovered : (s.ledgers i).used + bytes ≤ (s.ledgers i).reserved + asked)
    (hroom : s.reserved (s.ledgers i).kind + asked ≤ limits.cap (s.ledgers i).kind) :
    (s.granted i bytes asked).Consistent limits := by
  refine h.replace rfl rfl hcovered ?_ (fun node hnode => ?_) fun meter hmeter => if_neg hmeter
  · simp only [Ledger.charged, Ledger.count]
    omega
  · rw [raised, if_pos ⟨rfl, hnode⟩]
    simp only [Ledger.charged, Ledger.count]
    omega

/-- The nodes of a ledger are charged with its reservations at least. -/
theorem Consistent.reserved_le_used (h : s.Consistent limits) {node : Address}
    (hnode : node ∈ (s.seat i).address.nodes) :
    (s.ledgers i).reserved ≤ s.used ((s.ledgers i).kind, node) := by
  have hroot : (s.ledgers i).reserved ≤ s.used ((s.ledgers i).kind, []) := by
    rw [h.root_eq]
    exact le_total
  unfold seat Ledger.address at hnode
  cases hkind : (s.ledgers i).kind with
  | temp =>
      rw [hkind] at hnode hroot
      obtain rfl : node = [] := by simpa [Address.nodes] using hnode
      exact hroot
  | memory =>
      rw [hkind] at hnode hroot
      rcases (by simpa [Address.nodes] using hnode : node = [] ∨ node = [i.val]) with rfl | rfl
      · exact hroot
      · exact (h.child_eq i hkind).ge

theorem Consistent.reopen (h : s.Consistent limits) : (s.reopen limits i).Consistent limits := by
  have hopened : (Ledger.opened limits (s.ledgers i).kind).kind = (s.ledgers i).kind ∧
      (Ledger.opened limits (s.ledgers i).kind).used = 0 ∧
      (Ledger.opened limits (s.ledgers i).kind).reserved = 0 := by
    cases (s.ledgers i).kind <;> exact ⟨rfl, rfl, rfl⟩
  obtain ⟨hkind, hused, hreserved⟩ := hopened
  refine h.replace (h.account_eq i).symm hkind (by omega) ?_ (fun node hnode => ?_)
    fun meter hmeter => if_neg hmeter
  · have := h.covered.2 (s.ledgers i).kind
    omega
  · rw [if_pos ⟨rfl, hnode⟩, hreserved]
    exact Nat.sub_add_cancel (h.reserved_le_used hnode)

/-- A call that succeeded needed nothing new or found room for its charge. -/
theorem Consistent.call_cases (h : s.Consistent limits) (hcap : ∀ kind, limits.cap kind < 2 ^ 64)
    (hcall : s.call i bytes = .ok s') :
    ((s.ledgers i).used + bytes ≤ (s.ledgers i).reserved ∧ s' = s.counted i bytes) ∨
    ((s.ledgers i).reserved < (s.ledgers i).used + bytes ∧
      s.reserved (s.ledgers i).kind + s.charge limits i bytes ≤ limits.cap (s.ledgers i).kind ∧
      s' = s.granted i bytes (s.charge limits i bytes)) := by
  by_cases hle : (s.ledgers i).used + bytes ≤ (s.ledgers i).reserved
  · rw [h.call_of_le hcap hle] at hcall
    exact .inl ⟨hle, (Except.ok.inj hcall).symm⟩
  have hlt := Nat.lt_of_not_le hle
  by_cases hroom :
      s.reserved (s.ledgers i).kind + s.charge limits i bytes ≤ limits.cap (s.ledgers i).kind
  · rw [h.call_of_room hcap hlt hroom] at hcall
    exact .inr ⟨hlt, hroom, (Except.ok.inj hcall).symm⟩
  · obtain ⟨e, herror⟩ := h.call_of_full hlt (Nat.lt_of_not_le hroom)
    rw [herror] at hcall
    cases hcall

theorem Consistent.call (h : s.Consistent limits) (hcap : ∀ kind, limits.cap kind < 2 ^ 64)
    (hcall : s.call i bytes = .ok s') : s'.Consistent limits := by
  obtain ⟨hle, rfl⟩ | ⟨hlt, hroom, rfl⟩ := h.call_cases hcap hcall
  · exact h.counted hle
  · refine h.granted ?_ hroom
    have hneeded : (s.ledgers i).used + bytes - (s.ledgers i).reserved ≤
        s.charge limits i bytes := le_max_left ..
    omega

theorem Consistent.step (h : s.Consistent limits) (hcap : ∀ kind, limits.cap kind < 2 ^ 64)
    {action : Action n} (hstep : Step limits action s s') : s'.Consistent limits := by
  cases hstep with
  | call hcall => exact h.call hcap hcall
  | reopen => exact h.reopen

theorem consistent_start (limits : ResourceLimits) (kinds : Fin n → ResourceKind) :
    (start limits kinds).Consistent limits := by
  have hnothing : ∀ kind : ResourceKind, (Ledger.opened limits kind).used = 0 ∧
      (Ledger.opened limits kind).reserved = 0 ∧ (Ledger.opened limits kind).kind = kind := by
    intro kind
    cases kind <;> exact ⟨rfl, rfl, rfl⟩
  have htotal : ∀ kind, (start limits kinds).reserved kind = 0 := by
    intro kind
    unfold reserved total
    refine Finset.sum_eq_zero fun i _ => ?_
    simp [start, hnothing]
  refine ⟨fun i => ?_, ⟨fun i => ?_, fun kind => ?_⟩, fun kind => ?_, fun i _ => ?_⟩
  · simp [start, hnothing]
  · simp [start, hnothing]
  · simp [htotal]
  · rw [htotal]
    rfl
  · simp [start, hnothing]

theorem consistent_of_trace {kinds : Fin n → ResourceKind} {actions : List (Action n)}
    (hcap : ∀ kind, limits.cap kind < 2 ^ 64)
    (h : Trace (Step limits) (start limits kinds) actions s) : s.Consistent limits :=
  h.invariant (consistent_start limits kinds) fun _ _ _ hinv hstep => hinv.step hcap hstep

/-! ## When a call is exact -/

/-- A successful call fits: what the charge adds to the reservations covers what the call adds to
the requests. -/
theorem Consistent.fits_of_call (h : s.Consistent limits) (hcap : ∀ kind, limits.cap kind < 2 ^ 64)
    (hcall : s.call i bytes = .ok s') : s.Fits limits i bytes := by
  have hrequested := h.covered.requested_le i
  have hreserved := h.covered.2 (s.ledgers i).kind
  unfold Fits
  obtain ⟨hle, -⟩ | ⟨hlt, hroom, -⟩ := h.call_cases hcap hcall
  · omega
  · have hneeded : (s.ledgers i).used + bytes - (s.ledgers i).reserved ≤
        s.charge limits i bytes := le_max_left ..
    omega

theorem Consistent.exactCall_iff (h : s.Consistent limits)
    (hcap : ∀ kind, limits.cap kind < 2 ^ 64) :
    s.ExactCall limits i bytes ↔ s.FindsRoom limits i bytes := by
  constructor
  · intro hexact hfits hlt
    obtain ⟨s', hcall⟩ := hexact.1.mpr hfits
    obtain ⟨hle, -⟩ | ⟨-, hroom, -⟩ := h.call_cases hcap hcall
    · exact absurd hle (Nat.not_le.mpr hlt)
    · exact hroom
  · intro hroom
    refine ⟨⟨fun ⟨s', hcall⟩ => h.fits_of_call hcap hcall, fun hfits => ?_⟩,
      fun s' hcall => (h.call hcap hcall).covered⟩
    by_cases hle : (s.ledgers i).used + bytes ≤ (s.ledgers i).reserved
    · exact ⟨_, h.call_of_le hcap hle⟩
    · have hlt := Nat.lt_of_not_le hle
      exact ⟨_, h.call_of_room hcap hlt (hroom hfits hlt)⟩

/-- In every run, all calls are exact if and only if all find room for their chunk. -/
theorem everyCall_exact_iff (limits : ResourceLimits) (hcap : ∀ kind, limits.cap kind < 2 ^ 64)
    (kinds : Fin n → ResourceKind) (actions : List (Action n)) :
    EveryCall limits kinds actions (fun s => s.ExactCall limits) ↔
      EveryCall limits kinds actions (fun s => s.FindsRoom limits) := by
  unfold EveryCall
  refine forall_congr' fun done => forall_congr' fun i => forall_congr' fun bytes =>
    forall_congr' fun rest => imp_congr_right fun _ => forall_congr' fun s =>
      imp_congr_right fun htrace => ?_
  exact (consistent_of_trace hcap htrace).exactCall_iff hcap

/-- Two memory ledgers under a cap of one chunk and a half. -/
def smallLimits : ResourceLimits :=
  { maxMemoryBytes := 3 * 2 ^ 19, maxTempBytes := 0, maxOutputRecords := 0, maxSamples := 0 }

theorem smallLimits_cap (kind : ResourceKind) : smallLimits.cap kind < 2 ^ 64 := by
  cases kind <;> decide

def twoMemoryLedgers : Fin 2 → ResourceKind := fun _ => .memory

theorem everyCall_exact_iff_small :
    EveryCall smallLimits twoMemoryLedgers [.call 0 1, .call 0 1]
        (fun s => s.ExactCall smallLimits) ↔
      EveryCall smallLimits twoMemoryLedgers [.call 0 1, .call 0 1]
        (fun s => s.FindsRoom smallLimits) :=
  everyCall_exact_iff smallLimits smallLimits_cap twoMemoryLedgers _

/-- The first ledger asks for one byte and gets a chunk; the second asks for one byte, wants a chunk
as well and is refused. -/
theorem sibling_starves :
    ¬∀ (n : ℕ) (limits : ResourceLimits) (kinds : Fin n → ResourceKind) (actions : List (Action n)),
      (∀ kind, limits.cap kind < 2 ^ 64) →
        EveryCall limits kinds actions (fun s => s.ExactCall limits) := by
  intro hall
  let first : Ledgers 2 := start smallLimits twoMemoryLedgers
  have hfirst : first.call 0 1 = .ok (first.granted 0 1 (first.charge smallLimits 0 1)) :=
    (consistent_start _ _).call_of_room smallLimits_cap (by decide) (by decide +kernel)
  have htrace : Trace (Step smallLimits) first [.call 0 1] _ := .snoc .nil (.call hfirst)
  have hexact := hall 2 smallLimits twoMemoryLedgers [.call 0 1, .call 1 1] smallLimits_cap
    [.call 0 1] 1 1 [] rfl _ htrace
  have hroom := ((consistent_of_trace smallLimits_cap htrace).exactCall_iff smallLimits_cap).mp
    hexact (by unfold Fits; decide +kernel) (by decide +kernel)
  revert hroom
  decide +kernel

/-- A ledger that is the only one of its kind always finds room. -/
theorem findsRoom_of_alone (h : s.Consistent limits)
    (halone : ∀ j, (s.ledgers j).kind = (s.ledgers i).kind → j = i) : s.FindsRoom limits i bytes := by
  intro hfits hlt
  have htotal : s.reserved (s.ledgers i).kind = (s.ledgers i).reserved := by
    unfold reserved total
    rw [Finset.sum_eq_single i (fun j _ hj => if_neg fun hkind => hj (halone j hkind))
      fun hi => absurd (Finset.mem_univ i) hi, if_pos rfl]
  have hown := h.reserved_le i
  have hused : (s.ledgers i).used ≤ s.requested (s.ledgers i).kind := le_total
  unfold Fits at hfits
  rw [htotal]
  omega

end Ledgers

end Diff

end ProofFrame
