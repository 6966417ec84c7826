import Mathlib.Algebra.Order.BigOperators.Group.Finset
import Mathlib.Data.Fintype.BigOperators
import Mathlib.Data.List.Infix
import ProofFrame.Execution.Resource
import ProofFrame.Lib.Trace

/-!
# Resource accounts under concurrency

The accounts of one root form a tree.  A reservation charges its account and
every ancestor, one atomic counter at a time and from the root down; where a
counter refuses, the ones already charged are rolled back.  It holds the lock of
the root meanwhile.  Dropping a reservation discharges the counters one at a
time without the lock.

Every load, exchange, subtraction and maximum is a step of its own, and the
steps of different holders come in any order.
-/

namespace ProofFrame.Accounts

open Lib

/-- An account, by the number of the child at every turn from the root. -/
abbrev Address : Type := List ℕ

/-- `ResourceAccount::nodes`: the account and its ancestors, from the root down. -/
def Address.nodes (address : Address) : List Address := address.inits

/-- The counter of a kind at a node. -/
abbrev Meter : Type := ResourceKind × Address

/-- What a holder asks for. -/
structure Request where
  address : Address
  bytes : ℕ
  kind : ResourceKind

def Request.nodes (request : Request) : List Address := request.address.nodes

/-- Where a holder stands between its call of `try_reserve` and the end of its reservation. -/
inductive Phase where
  /-- `try_reserve` has not been called. -/
  | idle
  /-- The counters charged so far with the usage each was raised to, and the ones left. -/
  | loading (charged : List (Address × ℕ)) (rest : List Address)
  /-- In the loop of `try_charge` at a node, with the value last seen there. -/
  | charging (charged : List (Address × ℕ)) (current : ℕ) (node : Address) (rest : List Address)
  /-- A counter refused at `used` under `limit`; the ones to roll back. -/
  | rollingBack (rest : List Address) (used limit : ℕ)
  | failed (used limit : ℕ)
  /-- The peaks still to be raised. -/
  | raising (rest : List (Address × ℕ))
  | live
  /-- In `drop`, with the counters still to be discharged. -/
  | dropping (rest : List Address)
  | dropped

@[ext]
structure State (ι : Type) where
  used : Meter → ℕ
  peak : Meter → ℕ
  /-- The holder of the root's lock. -/
  lock : Option ι
  phases : ι → Phase

variable {ι : Type} [DecidableEq ι]

def State.initial : State ι :=
  { used := fun _ => 0, peak := fun _ => 0, lock := none, phases := fun _ => .idle }

def State.moveTo (s : State ι) (i : ι) (phase : Phase) : State ι :=
  { s with phases := Function.update s.phases i phase }

/-- `AtomicU64::fetch_sub`, which wraps around. -/
def fetchSub (used bytes : ℕ) : ℕ := (used + (2 ^ 64 - bytes)) % 2 ^ 64

def Request.meter (request : Request) (node : Address) : Meter := (request.kind, node)

/-- `try_charge` admits the charge. -/
def Admits (current bytes cap : ℕ) : Prop := current + bytes < 2 ^ 64 ∧ current + bytes ≤ cap

/-- One atomic step of the holder `i`. -/
inductive Step (caps : Meter → ℕ) (requests : ι → Request) (i : ι) : State ι → State ι → Prop where
  | lock {s : State ι} (hphase : s.phases i = .idle) (hlock : s.lock = none) :
      Step caps requests i s
        { s.moveTo i (.loading [] (requests i).nodes) with lock := some i }
  | load {s : State ι} {charged : List (Address × ℕ)} {node : Address} {rest : List Address}
      (hphase : s.phases i = .loading charged (node :: rest)) :
      Step caps requests i s
        (s.moveTo i (.charging charged (s.used ((requests i).meter node)) node rest))
  | exchange {s : State ι} {charged : List (Address × ℕ)} {current : ℕ} {node : Address}
      {rest : List Address} (hphase : s.phases i = .charging charged current node rest)
      (hadmits : Admits current (requests i).bytes (caps ((requests i).meter node)))
      (hcurrent : s.used ((requests i).meter node) = current) :
      Step caps requests i s
        { s.moveTo i (.loading (charged ++ [(node, current + (requests i).bytes)]) rest) with
          used := Function.update s.used ((requests i).meter node) (current + (requests i).bytes) }
  /-- The weak exchange fails, because the counter moved or for no reason. -/
  | retry {s : State ι} {charged : List (Address × ℕ)} {current : ℕ} {node : Address}
      {rest : List Address} (hphase : s.phases i = .charging charged current node rest)
      (hadmits : Admits current (requests i).bytes (caps ((requests i).meter node))) :
      Step caps requests i s
        (s.moveTo i (.charging charged (s.used ((requests i).meter node)) node rest))
  | refuse {s : State ι} {charged : List (Address × ℕ)} {current : ℕ} {node : Address}
      {rest : List Address} (hphase : s.phases i = .charging charged current node rest)
      (hrefuses : ¬Admits current (requests i).bytes (caps ((requests i).meter node))) :
      Step caps requests i s (s.moveTo i
        (.rollingBack (charged.map Prod.fst) current (caps ((requests i).meter node))))
  | rollBack {s : State ι} {node : Address} {rest : List Address} {used limit : ℕ}
      (hphase : s.phases i = .rollingBack (node :: rest) used limit) :
      Step caps requests i s
        { s.moveTo i (.rollingBack rest used limit) with
          used := Function.update s.used ((requests i).meter node)
            (fetchSub (s.used ((requests i).meter node)) (requests i).bytes) }
  /-- The error is returned, which releases the lock. -/
  | fail {s : State ι} {used limit : ℕ} (hphase : s.phases i = .rollingBack [] used limit) :
      Step caps requests i s { s.moveTo i (.failed used limit) with lock := none }
  | charged {s : State ι} {charged : List (Address × ℕ)}
      (hphase : s.phases i = .loading charged []) :
      Step caps requests i s (s.moveTo i (.raising charged))
  /-- `fetch_max`. -/
  | raise {s : State ι} {node : Address} {usage : ℕ} {rest : List (Address × ℕ)}
      (hphase : s.phases i = .raising ((node, usage) :: rest)) :
      Step caps requests i s
        { s.moveTo i (.raising rest) with
          peak := Function.update s.peak ((requests i).meter node)
            (max (s.peak ((requests i).meter node)) usage) }
  /-- The reservation is returned, which releases the lock. -/
  | grant {s : State ι} (hphase : s.phases i = .raising []) :
      Step caps requests i s { s.moveTo i .live with lock := none }
  | drop {s : State ι} (hphase : s.phases i = .live) :
      Step caps requests i s (s.moveTo i (.dropping (requests i).nodes))
  | release {s : State ι} {node : Address} {rest : List Address}
      (hphase : s.phases i = .dropping (node :: rest)) :
      Step caps requests i s
        { s.moveTo i (.dropping rest) with
          used := Function.update s.used ((requests i).meter node)
            (fetchSub (s.used ((requests i).meter node)) (requests i).bytes) }
  | dropped {s : State ι} (hphase : s.phases i = .dropping []) :
      Step caps requests i s (s.moveTo i .dropped)

/-! ## What a holder has charged -/

namespace Phase

/-- The nodes the holder has charged and not discharged. -/
def charges (nodes : List Address) : Phase → List Address
  | idle | failed _ _ | dropped => []
  | loading charged _ | charging charged _ _ _ => charged.map Prod.fst
  | rollingBack rest _ _ | dropping rest => rest
  | raising _ | live => nodes

/-- The nodes it has charged without having raised their peaks. -/
def unraised : Phase → List Address
  | loading charged _ | charging charged _ _ _ => charged.map Prod.fst
  | rollingBack rest _ _ => rest
  | raising rest => rest.map Prod.fst
  | idle | failed _ _ | live | dropping _ | dropped => []

/-- The usages its peaks are to be raised to. -/
def marks : Phase → List (Address × ℕ)
  | loading charged _ | charging charged _ _ _ => charged
  | raising rest => rest
  | rollingBack _ _ _ | idle | failed _ _ | live | dropping _ | dropped => []

/-- The holder is in the critical section. -/
def Locked : Phase → Prop
  | loading _ _ | charging _ _ _ _ | rollingBack _ _ _ | raising _ => True
  | idle | failed _ _ | live | dropping _ | dropped => False

/-- The nodes charged and left are those of the account. -/
def WellFormed (nodes : List Address) : Phase → Prop
  | loading charged rest => charged.map Prod.fst ++ rest = nodes
  | charging charged _ node rest => charged.map Prod.fst ++ node :: rest = nodes
  | rollingBack rest _ _ | dropping rest => rest.Nodup
  | idle | failed _ _ | raising _ | live | dropped => True

end Phase

theorem nodup_nodes (address : Address) : address.nodes.Nodup := by
  unfold Address.nodes
  induction address with
  | nil => simp
  | cons a address ih =>
      rw [List.inits_cons, List.nodup_cons]
      refine ⟨by simp, ih.map fun _ _ h => (List.cons.inj h).2⟩

/-- The node is the account or an ancestor of it. -/
theorem mem_nodes {node address : Address} : node ∈ address.nodes ↔ node <+: address :=
  List.mem_inits _ _

/-! ## The ledger -/

/-- What the request adds to a meter if it is charged at the nodes. -/
def Request.share (request : Request) (nodes : List Address) (meter : Meter) : ℕ :=
  if request.kind = meter.1 ∧ meter.2 ∈ nodes then request.bytes else 0

theorem Request.share_nil (request : Request) (meter : Meter) : request.share [] meter = 0 := by
  simp [share]

theorem Request.share_congr {nodes nodes' : List Address} (request : Request)
    (h : ∀ node, node ∈ nodes ↔ node ∈ nodes') (meter : Meter) :
    request.share nodes meter = request.share nodes' meter := by
  simp [share, h]

theorem Request.share_cons (request : Request) {node : Address} {nodes : List Address}
    (h : node ∉ nodes) (meter : Meter) : request.share (node :: nodes) meter =
      request.share nodes meter + if meter = request.meter node then request.bytes else 0 := by
  obtain ⟨kind, other⟩ := meter
  simp only [share, meter, Prod.mk.injEq, List.mem_cons]
  by_cases hkind : request.kind = kind
  · by_cases hnode : other = node
    · subst hnode
      simp [hkind, h]
    · simp [hkind, hnode]
  · simp [hkind, Ne.symm hkind]

theorem Request.share_cons_of_ne {request : Request} {node : Address} {nodes : List Address}
    {meter : Meter} (h : meter ≠ request.meter node) :
    request.share (node :: nodes) meter = request.share nodes meter := by
  have hiff : request.kind = meter.1 ∧ meter.2 ∈ node :: nodes ↔
      request.kind = meter.1 ∧ meter.2 ∈ nodes := by
    refine and_congr_right fun hkind => ?_
    rw [List.mem_cons, or_iff_right]
    exact fun hnode => h (Prod.ext hkind.symm hnode)
  simp only [share, hiff]

variable [Fintype ι]

/-- The sum of the shares of all holders. -/
def total (requests : ι → Request) (nodes : ι → Phase → List Address) (phases : ι → Phase)
    (meter : Meter) : ℕ :=
  ∑ i, (requests i).share (nodes i (phases i)) meter

/-- A step of one holder changes the sum by its own share. -/
theorem total_update (requests : ι → Request) (nodes : ι → Phase → List Address)
    (phases : ι → Phase) (i : ι) (phase : Phase) (meter : Meter) :
    total requests nodes (Function.update phases i phase) meter +
        (requests i).share (nodes i (phases i)) meter =
      total requests nodes phases meter + (requests i).share (nodes i phase) meter := by
  unfold total
  rw [← Finset.add_sum_erase _ _ (Finset.mem_univ i), ← Finset.add_sum_erase _ _ (Finset.mem_univ i)]
  have hothers : ∑ j ∈ Finset.univ.erase i,
      (requests j).share (nodes j (Function.update phases i phase j)) meter =
        ∑ j ∈ Finset.univ.erase i, (requests j).share (nodes j (phases j)) meter := by
    refine Finset.sum_congr rfl fun j hj => ?_
    rw [Function.update_of_ne (Finset.ne_of_mem_erase hj)]
  rw [hothers, Function.update_self]
  omega

omit [DecidableEq ι] in
/-- One share is part of the sum. -/
theorem share_le_total (requests : ι → Request) (nodes : ι → Phase → List Address)
    (phases : ι → Phase) (i : ι) (meter : Meter) :
    (requests i).share (nodes i (phases i)) meter ≤ total requests nodes phases meter :=
  Finset.single_le_sum (f := fun j => (requests j).share (nodes j (phases j)) meter)
    (fun _ _ => Nat.zero_le _) (Finset.mem_univ i)

/-- The nodes each holder has charged. -/
def chargesOf (requests : ι → Request) (i : ι) (phase : Phase) : List Address :=
  phase.charges (requests i).nodes

theorem fetchSub_eq {used bytes : ℕ} (hle : bytes ≤ used) (hlt : used < 2 ^ 64) :
    fetchSub used bytes = used - bytes := by
  unfold fetchSub
  omega

/-! ## The invariant -/

/-- The counters are what the ledger says, and the peaks cover them. -/
structure Consistent (caps : Meter → ℕ) (requests : ι → Request) (s : State ι) : Prop where
  wellFormed : ∀ i, (s.phases i).WellFormed (requests i).nodes
  locked_iff : ∀ i, (s.phases i).Locked ↔ s.lock = some i
  used_eq : ∀ meter, s.used meter = total requests (chargesOf requests) s.phases meter
  used_lt : ∀ meter, s.used meter < 2 ^ 64
  used_le : ∀ meter, s.used meter ≤ caps meter
  peak_le : ∀ meter, s.peak meter ≤ caps meter
  /-- A usage exceeds its peak by no more than the charges whose peaks are still to be raised. -/
  covered : ∀ meter, s.used meter ≤
    s.peak meter + total requests (fun _ => Phase.unraised) s.phases meter
  marked : ∀ i node usage, (node, usage) ∈ (s.phases i).marks →
    s.used ((requests i).meter node) ≤ usage ∧ usage ≤ caps ((requests i).meter node)

variable {caps : Meter → ℕ} {requests : ι → Request} {s : State ι} {i : ι}

omit [DecidableEq ι] in
theorem consistent_initial : Consistent caps requests (State.initial : State ι) where
  wellFormed _ := trivial
  locked_iff _ := by simp [State.initial, Phase.Locked]
  used_eq _ := by simp [State.initial, total, chargesOf, Phase.charges, Request.share_nil]
  used_lt _ := by simp [State.initial]
  used_le _ := Nat.zero_le _
  peak_le _ := Nat.zero_le _
  covered _ := Nat.zero_le _
  marked _ _ _ h := by simp [State.initial, Phase.marks] at h

omit [DecidableEq ι] in
/-- Only the holder of the lock is in the critical section. -/
theorem Consistent.not_locked (h : Consistent caps requests s) {j : ι}
    (hlocked : (s.phases i).Locked) (hne : j ≠ i) : ¬(s.phases j).Locked := by
  intro hother
  have hi := (h.locked_iff i).mp hlocked
  have hj := (h.locked_iff j).mp hother
  exact hne (Option.some_inj.mp (hj.symm.trans hi))

omit [DecidableEq ι] in
theorem Consistent.wellFormed_of (h : Consistent caps requests s) {phase : Phase}
    (hphase : s.phases i = phase) : phase.WellFormed (requests i).nodes :=
  hphase ▸ h.wellFormed i

theorem Phase.marks_of_not_locked {phase : Phase} (h : ¬phase.Locked) : phase.marks = [] := by
  cases phase <;> first | rfl | exact absurd trivial h

/-- A step that takes neither charges nor marks nor the well-formedness of the phase away. -/
theorem Consistent.silent (h : Consistent caps requests s) {phase : Phase} {lock : Option ι}
    (hwell : phase.WellFormed (requests i).nodes)
    (hcharges : phase.charges (requests i).nodes = (s.phases i).charges (requests i).nodes)
    (hunraised : phase.unraised = (s.phases i).unraised)
    (hmarks : ∀ mark ∈ phase.marks, mark ∈ (s.phases i).marks)
    (hlock : ∀ j, (Function.update s.phases i phase j).Locked ↔ lock = some j) :
    Consistent caps requests { s.moveTo i phase with lock := lock } where
  wellFormed j := by
    by_cases hj : j = i
    · subst hj
      simpa [State.moveTo] using hwell
    · simpa [State.moveTo, hj] using h.wellFormed j
  locked_iff := hlock
  used_eq meter := by
    have hupdate := total_update requests (chargesOf requests) s.phases i phase meter
    rw [chargesOf, chargesOf, hcharges] at hupdate
    have := h.used_eq meter
    dsimp only [State.moveTo]
    omega
  used_lt := h.used_lt
  used_le := h.used_le
  peak_le := h.peak_le
  covered meter := by
    have hupdate := total_update requests (fun _ => Phase.unraised) s.phases i phase meter
    rw [hunraised] at hupdate
    have := h.covered meter
    dsimp only [State.moveTo]
    omega
  marked j node usage hmark := by
    by_cases hj : j = i
    · subst hj
      exact h.marked j node usage (hmarks _ (by simpa [State.moveTo] using hmark))
    · exact h.marked j node usage (by simpa [State.moveTo, hj] using hmark)

/-- A step that leaves the lock with whom it is. -/
theorem Consistent.locked_update (h : Consistent caps requests s) {phase : Phase}
    (hlocked : phase.Locked ↔ (s.phases i).Locked) (j : ι) :
    (Function.update s.phases i phase j).Locked ↔ s.lock = some j := by
  by_cases hj : j = i
  · subst hj
    rw [Function.update_self, hlocked, h.locked_iff]
  · rw [Function.update_of_ne hj, h.locked_iff]

/-- A step that gives the lock back. -/
theorem Consistent.unlocked_update (h : Consistent caps requests s) {phase : Phase}
    (hlocked : (s.phases i).Locked) (hphase : ¬phase.Locked) (j : ι) :
    (Function.update s.phases i phase j).Locked ↔ none = some j := by
  by_cases hj : j = i
  · subst hj
    simpa using hphase
  · rw [Function.update_of_ne hj]
    simpa using h.not_locked hlocked hj

/-- Discharging the first of the nodes charged. -/
theorem Consistent.discharge (h : Consistent caps requests s) {phase : Phase} {node : Address}
    {rest : List Address} (hcharged : (s.phases i).charges (requests i).nodes = node :: rest)
    (hnodup : (node :: rest).Nodup) (hrest : phase.charges (requests i).nodes = rest)
    (hunraised : (s.phases i).unraised = phase.unraised ∨
      (s.phases i).unraised = node :: rest ∧ phase.unraised = rest)
    (hwell : phase.WellFormed (requests i).nodes) (hmarks : phase.marks = [])
    (hlocked : phase.Locked ↔ (s.phases i).Locked) :
    Consistent caps requests { s.moveTo i phase with
      used := Function.update s.used ((requests i).meter node)
        (fetchSub (s.used ((requests i).meter node)) (requests i).bytes) } ∧
      s.used ((requests i).meter node) = fetchSub (s.used ((requests i).meter node))
        (requests i).bytes + (requests i).bytes := by
  have hnot : node ∉ rest := (List.nodup_cons.mp hnodup).1
  have hshare := (requests i).share_cons hnot
  have hle : (requests i).bytes ≤ s.used ((requests i).meter node) := by
    have hpart := share_le_total requests (chargesOf requests) s.phases i ((requests i).meter node)
    rw [← h.used_eq, chargesOf, hcharged, hshare, if_pos rfl] at hpart
    omega
  have hsub := fetchSub_eq hle (h.used_lt _)
  -- what the counters are after the step
  have hused : ∀ meter, Function.update s.used ((requests i).meter node)
      (fetchSub (s.used ((requests i).meter node)) (requests i).bytes) meter +
        (if meter = (requests i).meter node then (requests i).bytes else 0) = s.used meter := by
    intro meter
    by_cases hmeter : meter = (requests i).meter node
    · subst hmeter
      rw [Function.update_self, hsub, if_pos rfl]
      omega
    · rw [Function.update_of_ne hmeter, if_neg hmeter, Nat.add_zero]
  refine ⟨⟨fun j => ?_, h.locked_update hlocked, fun meter => ?_, fun meter => ?_, fun meter => ?_,
    h.peak_le, fun meter => ?_, fun j other usage hmark => ?_⟩, by omega⟩
  · by_cases hj : j = i
    · subst hj
      simpa [State.moveTo] using hwell
    · simpa [State.moveTo, hj] using h.wellFormed j
  · have hupdate := total_update requests (chargesOf requests) s.phases i phase meter
    rw [chargesOf, chargesOf, hrest, hcharged, hshare, ← h.used_eq] at hupdate
    have := hused meter
    dsimp only [State.moveTo]
    omega
  · have := hused meter
    have := h.used_lt meter
    dsimp only
    omega
  · have := hused meter
    have := h.used_le meter
    dsimp only
    omega
  · have hupdate := total_update requests (fun _ => Phase.unraised) s.phases i phase meter
    have := hused meter
    have := h.covered meter
    dsimp only [State.moveTo]
    rcases hunraised with hsame | ⟨hbefore, hafter⟩
    · rw [hsame] at hupdate
      omega
    · rw [hbefore, hafter, hshare] at hupdate
      omega
  · have hbefore : s.used ((requests j).meter other) ≤ usage ∧
        usage ≤ caps ((requests j).meter other) := by
      refine h.marked j other usage ?_
      by_cases hj : j = i
      · subst hj
        simp [State.moveTo, hmarks] at hmark
      · simpa [State.moveTo, hj] using hmark
    have := hused ((requests j).meter other)
    dsimp only
    omega

/-- Charging the next node, at the value the counter has. -/
theorem Consistent.exchange (h : Consistent caps requests s) {charged : List (Address × ℕ)}
    {current : ℕ} {node : Address} {rest : List Address}
    (hphase : s.phases i = .charging charged current node rest)
    (hadmits : Admits current (requests i).bytes (caps ((requests i).meter node)))
    (hcurrent : s.used ((requests i).meter node) = current) :
    Consistent caps requests
      { s.moveTo i (.loading (charged ++ [(node, current + (requests i).bytes)]) rest) with
        used := Function.update s.used ((requests i).meter node)
          (current + (requests i).bytes) } := by
  subst hcurrent
  have hnodes : charged.map Prod.fst ++ node :: rest = (requests i).nodes :=
    h.wellFormed_of hphase
  have hlocked : (s.phases i).Locked := by
    rw [hphase]
    trivial
  -- the node is charged for the first time
  have hnot : node ∉ charged.map Prod.fst := by
    have hnodup : (charged.map Prod.fst ++ node :: rest).Nodup := hnodes ▸ nodup_nodes _
    have hdisjoint := (List.nodup_append.mp hnodup).2.2
    exact fun hmem => hdisjoint node hmem node (List.mem_cons_self ..) rfl
  have hshare : ∀ meter, (requests i).share (charged.map Prod.fst ++ [node]) meter =
      (requests i).share (charged.map Prod.fst) meter +
        if meter = (requests i).meter node then (requests i).bytes else 0 := by
    intro meter
    rw [← Request.share_cons _ hnot]
    exact Request.share_congr _ (fun other => by simp [or_comm]) meter
  have hused : ∀ meter, Function.update s.used ((requests i).meter node)
      (s.used ((requests i).meter node) + (requests i).bytes) meter =
        s.used meter + if meter = (requests i).meter node then (requests i).bytes else 0 := by
    intro meter
    by_cases hmeter : meter = (requests i).meter node
    · subst hmeter
      rw [Function.update_self, if_pos rfl]
    · rw [Function.update_of_ne hmeter, if_neg hmeter, Nat.add_zero]
  have hcharges : (s.phases i).charges (requests i).nodes = charged.map Prod.fst := by
    rw [hphase]
    rfl
  refine ⟨fun j => ?_, h.locked_update (by rw [hphase]; rfl), fun meter => ?_, fun meter => ?_,
    fun meter => ?_, h.peak_le, fun meter => ?_, fun j other usage hmark => ?_⟩
  · by_cases hj : j = i
    · subst hj
      simpa [State.moveTo, Phase.WellFormed] using hnodes
    · simpa [State.moveTo, hj] using h.wellFormed j
  · have hupdate := total_update requests (chargesOf requests) s.phases i
      (.loading (charged ++ [(node, s.used ((requests i).meter node) + (requests i).bytes)]) rest)
      meter
    rw [chargesOf, chargesOf, hcharges, ← h.used_eq] at hupdate
    simp only [Phase.charges, List.map_append, List.map_cons, List.map_nil, hshare] at hupdate
    have := hused meter
    dsimp only [State.moveTo]
    omega
  · dsimp only
    rw [hused]
    by_cases hmeter : meter = (requests i).meter node
    · subst hmeter
      rw [if_pos rfl]
      exact hadmits.1
    · simpa [hmeter] using h.used_lt meter
  · dsimp only
    rw [hused]
    by_cases hmeter : meter = (requests i).meter node
    · subst hmeter
      rw [if_pos rfl]
      exact hadmits.2
    · simpa [hmeter] using h.used_le meter
  · have hupdate := total_update requests (fun _ => Phase.unraised) s.phases i
      (.loading (charged ++ [(node, s.used ((requests i).meter node) + (requests i).bytes)]) rest)
      meter
    simp only [hphase, Phase.unraised, List.map_append, List.map_cons, List.map_nil, hshare]
      at hupdate
    have := hused meter
    have := h.covered meter
    dsimp only [State.moveTo]
    omega
  · dsimp only
    by_cases hj : j = i
    · subst hj
      simp only [State.moveTo, Function.update_self, Phase.marks, List.mem_append,
        List.mem_singleton, Prod.mk.injEq] at hmark
      rcases hmark with hmark | ⟨rfl, rfl⟩
      · have hother : other ≠ node := by
          rintro rfl
          exact hnot (List.mem_map_of_mem hmark)
        rw [Function.update_of_ne (by simpa [Request.meter] using hother)]
        exact h.marked j other usage (by rw [hphase]; exact hmark)
      · rw [Function.update_self]
        exact ⟨le_refl _, hadmits.2⟩
    · have hnone := Phase.marks_of_not_locked (h.not_locked hlocked hj)
      simp [State.moveTo, hj, hnone] at hmark

/-- Raising the next peak. -/
theorem Consistent.raise (h : Consistent caps requests s) {node : Address} {usage : ℕ}
    {rest : List (Address × ℕ)} (hphase : s.phases i = .raising ((node, usage) :: rest)) :
    Consistent caps requests
      { s.moveTo i (.raising rest) with
        peak := Function.update s.peak ((requests i).meter node)
          (max (s.peak ((requests i).meter node)) usage) } := by
  have hmark := h.marked i node usage (by rw [hphase]; exact List.mem_cons_self ..)
  refine ⟨fun j => ?_, h.locked_update (by rw [hphase]; rfl), fun meter => ?_, h.used_lt, h.used_le,
    fun meter => ?_, fun meter => ?_, fun j other usage' hmark' => ?_⟩
  · by_cases hj : j = i
    · subst hj
      simp [State.moveTo, Phase.WellFormed]
    · simpa [State.moveTo, hj] using h.wellFormed j
  · have hupdate := total_update requests (chargesOf requests) s.phases i (.raising rest) meter
    rw [chargesOf, chargesOf, hphase] at hupdate
    simp only [Phase.charges] at hupdate
    have := h.used_eq meter
    dsimp only [State.moveTo]
    omega
  · dsimp only
    by_cases hmeter : meter = (requests i).meter node
    · subst hmeter
      rw [Function.update_self]
      exact max_le (h.peak_le _) hmark.2
    · rw [Function.update_of_ne hmeter]
      exact h.peak_le meter
  · dsimp only [State.moveTo]
    by_cases hmeter : meter = (requests i).meter node
    · subst hmeter
      rw [Function.update_self]
      have := hmark.1
      omega
    · have hupdate := total_update requests (fun _ => Phase.unraised) s.phases i (.raising rest) meter
      simp only [hphase, Phase.unraised, List.map_cons, Request.share_cons_of_ne hmeter] at hupdate
      rw [Function.update_of_ne hmeter]
      have := h.covered meter
      omega
  · refine h.marked j other usage' ?_
    by_cases hj : j = i
    · subst hj
      rw [hphase]
      exact List.mem_cons_of_mem _ (by simpa [State.moveTo, Phase.marks] using hmark')
    · simpa [State.moveTo, hj] using hmark'

/-- **The step lemma.**  Every atomic step keeps the invariant. -/
theorem Consistent.step (h : Consistent caps requests s) {s' : State ι}
    (hstep : Step caps requests i s s') : Consistent caps requests s' := by
  cases hstep with
  | lock hphase hlock =>
      refine h.silent ?_ (by simp [hphase, Phase.charges]) (by simp [hphase, Phase.unraised])
        (by simp [Phase.marks]) fun j => ?_
      · simp [Phase.WellFormed]
      · by_cases hj : j = i
        · subst hj
          simp [Phase.Locked]
        · have hother := h.locked_iff j
          rw [hlock] at hother
          simpa [hj, Ne.symm hj] using hother
  | load hphase =>
      refine h.silent ?_ (by simp [hphase, Phase.charges]) (by simp [hphase, Phase.unraised])
        (by simp [hphase, Phase.marks]) (h.locked_update (by simp [hphase, Phase.Locked]))
      have hnodes := h.wellFormed_of hphase
      exact hnodes
  | exchange hphase hadmits hcurrent => exact h.exchange hphase hadmits hcurrent
  | retry hphase _ =>
      refine h.silent ?_ (by simp [hphase, Phase.charges]) (by simp [hphase, Phase.unraised])
        (by simp [hphase, Phase.marks]) (h.locked_update (by simp [hphase, Phase.Locked]))
      have hnodes := h.wellFormed_of hphase
      exact hnodes
  | refuse hphase _ =>
      refine h.silent ?_ (by simp [hphase, Phase.charges]) (by simp [hphase, Phase.unraised])
        (by simp [Phase.marks]) (h.locked_update (by simp [hphase, Phase.Locked]))
      have hnodes := h.wellFormed_of hphase
      have hnodup : (requests i).nodes.Nodup := nodup_nodes _
      rw [← hnodes] at hnodup
      exact hnodup.of_append_left
  | rollBack hphase =>
      refine (h.discharge (by rw [hphase]; rfl) ?_ rfl (.inr ⟨by rw [hphase]; rfl, rfl⟩) ?_ rfl
        (by rw [hphase]; rfl)).1
      · exact h.wellFormed_of hphase
      · exact List.Nodup.of_cons (h.wellFormed_of hphase)
  | fail hphase =>
      exact h.silent trivial (by simp [hphase, Phase.charges]) (by simp [hphase, Phase.unraised])
        (by simp [Phase.marks]) (h.unlocked_update (by simp [hphase, Phase.Locked])
          (by simp [Phase.Locked]))
  | charged hphase =>
      refine h.silent trivial ?_ (by simp [hphase, Phase.unraised]) (by simp [hphase, Phase.marks])
        (h.locked_update (by simp [hphase, Phase.Locked]))
      have hnodes := h.wellFormed_of hphase
      rw [Phase.WellFormed, List.append_nil] at hnodes
      rw [hphase]
      exact hnodes.symm
  | raise hphase => exact h.raise hphase
  | grant hphase =>
      exact h.silent trivial (by simp [hphase, Phase.charges]) (by simp [hphase, Phase.unraised])
        (by simp [Phase.marks]) (h.unlocked_update (by simp [hphase, Phase.Locked])
          (by simp [Phase.Locked]))
  | drop hphase =>
      refine h.silent ?_ (by simp [hphase, Phase.charges]) (by simp [hphase, Phase.unraised])
        (by simp [Phase.marks]) (h.locked_update (by simp [hphase, Phase.Locked]))
      exact nodup_nodes _
  | release hphase =>
      refine (h.discharge (by rw [hphase]; rfl) ?_ rfl (.inl (by rw [hphase]; rfl)) ?_ rfl
        (by rw [hphase]; rfl)).1
      · exact h.wellFormed_of hphase
      · exact List.Nodup.of_cons (h.wellFormed_of hphase)
  | dropped hphase =>
      exact h.silent trivial (by simp [hphase, Phase.charges]) (by simp [hphase, Phase.unraised])
        (by simp [Phase.marks]) (h.locked_update (by simp [hphase, Phase.Locked]))

/-- The states some interleaving leads to. -/
abbrev Reaches (caps : Meter → ℕ) (requests : ι → Request) (parties : List ι) (s : State ι) : Prop :=
  Trace (Step caps requests) .initial parties s

/-- **The run lemma.** -/
theorem consistent_of_reaches {parties : List ι} (h : Reaches caps requests parties s) :
    Consistent caps requests s :=
  h.invariant consistent_initial fun _ _ _ hs hstep => hs.step hstep

/-! ## Quiescent states -/

/-- No reservation and no drop is under way. -/
def State.Quiescent (s : State ι) : Prop := ∀ i, match s.phases i with
  | .idle | .failed _ _ | .live | .dropped => True
  | .loading _ _ | .charging _ _ _ _ | .rollingBack _ _ _ | .raising _ | .dropping _ => False

/-- The reservation has been granted and not dropped. -/
def Phase.isLive : Phase → Bool
  | .live => true
  | _ => false

/-- The bytes of the live reservations of a kind made at a node or below it. -/
def liveBytes (requests : ι → Request) (s : State ι) (meter : Meter) : ℕ :=
  ∑ i with (s.phases i).isLive ∧ (requests i).kind = meter.1 ∧ meter.2 <+: (requests i).address,
    (requests i).bytes

omit [DecidableEq ι] in
theorem total_charges_of_quiescent (h : s.Quiescent) (meter : Meter) :
    total requests (chargesOf requests) s.phases meter = liveBytes requests s meter := by
  unfold total liveBytes
  rw [Finset.sum_filter]
  refine Finset.sum_congr rfl fun i _ => ?_
  have hi := h i
  unfold chargesOf
  cases hphase : s.phases i with
  | live => simp [Phase.charges, Phase.isLive, Request.share, Request.nodes, mem_nodes]
  | idle | failed _ _ | dropped => simp [Phase.charges, Phase.isLive, Request.share_nil]
  | loading _ _ | charging _ _ _ _ | rollingBack _ _ _ | raising _ | dropping _ =>
      rw [hphase] at hi
      exact hi.elim

omit [DecidableEq ι] in
theorem total_unraised_of_quiescent (h : s.Quiescent) (meter : Meter) :
    total requests (fun _ => Phase.unraised) s.phases meter = 0 := by
  refine Finset.sum_eq_zero fun i _ => ?_
  have hi := h i
  cases hphase : s.phases i with
  | live | idle | failed _ _ | dropped => exact Request.share_nil _ _
  | loading _ _ | charging _ _ _ _ | rollingBack _ _ _ | raising _ | dropping _ =>
      rw [hphase] at hi
      exact hi.elim

omit [Fintype ι] in
/-- No step lowers a peak. -/
theorem peak_le_of_step {s' : State ι} (hstep : Step caps requests i s s') : s.peak ≤ s'.peak := by
  intro meter
  cases hstep with
  | raise hphase =>
      rename_i node usage rest
      dsimp only
      by_cases hmeter : meter = (requests i).meter node
      · rw [hmeter, Function.update_self]
        exact le_max_left _ _
      · rw [Function.update_of_ne hmeter]
  | _ => exact le_refl _

/-! ## Failed reservations leave no trace -/

/-- The holder may still be refused, or has been. -/
def Phase.MayFail : Phase → Prop
  | idle | loading _ _ | charging _ _ _ _ | rollingBack _ _ _ | failed _ _ => True
  | raising _ | live | dropping _ | dropped => False

def Phase.isFailed : Phase → Bool
  | .failed _ _ => true
  | _ => false

omit [Fintype ι] in
/-- Every holder that is refused in the end was on its way there. -/
theorem mayFail_of_step {s' : State ι} {j : ι} (hstep : Step caps requests i s s')
    (h : (s'.phases j).MayFail) : (s.phases j).MayFail := by
  by_cases hj : j = i
  · subst hj
    cases hstep with
    | lock hphase _ | load hphase | exchange hphase _ _ | retry hphase _ | refuse hphase _
    | rollBack hphase | fail hphase =>
        rw [hphase]
        trivial
    | charged _ | raise _ | grant _ | drop _ | release _ | dropped _ =>
        simp [State.moveTo, Phase.MayFail] at h
  · have hsame : s'.phases j = s.phases j := by
      cases hstep <;> exact Function.update_of_ne hj _ _
    rwa [hsame] at h

/-- The phases without the hidden holders. -/
def withoutPhases (hidden : ι → Bool) (phases : ι → Phase) : ι → Phase :=
  fun j => if hidden j then .idle else phases j

/-- The state without what the hidden holders did. -/
def State.without (requests : ι → Request) (hidden : ι → Bool) (s : State ι) : State ι :=
  { used := total requests (chargesOf requests) (withoutPhases hidden s.phases)
    peak := s.peak
    lock := s.lock.filter fun j => !hidden j
    phases := withoutPhases hidden s.phases }

variable {hidden : ι → Bool}

omit [Fintype ι] in
theorem withoutPhases_update_hidden (hi : hidden i = true) (phases : ι → Phase) (phase : Phase) :
    withoutPhases hidden (Function.update phases i phase) = withoutPhases hidden phases := by
  funext j
  by_cases hj : j = i
  · subst hj
    simp [withoutPhases, hi]
  · simp [withoutPhases, hj]

omit [Fintype ι] in
theorem withoutPhases_update_visible (hi : hidden i = false) (phases : ι → Phase) (phase : Phase) :
    withoutPhases hidden (Function.update phases i phase) =
      Function.update (withoutPhases hidden phases) i phase := by
  funext j
  by_cases hj : j = i
  · subst hj
    simp [withoutPhases, hi]
  · simp [withoutPhases, hj]

omit [DecidableEq ι] in
/-- Where no hidden holder has charged anything, the counters are the same without them. -/
theorem used_without (h : Consistent caps requests s)
    (hcharges : ∀ j, hidden j = true → (s.phases j).charges (requests j).nodes = []) :
    (s.without requests hidden).used = s.used := by
  funext meter
  rw [h.used_eq]
  refine Finset.sum_congr rfl fun j _ => ?_
  cases hj : hidden j with
  | true =>
      rw [chargesOf, chargesOf, hcharges j hj]
      simp [withoutPhases, hj, Phase.charges]
  | false => simp [withoutPhases, hj]

omit [DecidableEq ι] in
theorem used_without_le (hidden : ι → Bool) (h : Consistent caps requests s) (meter : Meter) :
    (s.without requests hidden).used meter ≤ s.used meter := by
  rw [h.used_eq]
  refine Finset.sum_le_sum fun j _ => ?_
  cases hj : hidden j with
  | true => simp [chargesOf, withoutPhases, hj, Phase.charges, Request.share_nil]
  | false => simp [chargesOf, withoutPhases, hj]

theorem Phase.charges_of_mayFail {phase : Phase} {nodes : List Address} (hfail : phase.MayFail)
    (hlocked : ¬phase.Locked) : phase.charges nodes = [] := by
  cases phase with
  | idle | failed _ _ => rfl
  | loading _ _ | charging _ _ _ _ | rollingBack _ _ _ => exact absurd trivial hlocked
  | raising _ | live | dropping _ | dropped => exact hfail.elim

omit [DecidableEq ι] in
/-- While a visible holder is in the critical section, the hidden ones have charged nothing. -/
theorem used_without_of_locked (h : Consistent caps requests s)
    (hcalm : ∀ j, hidden j = true → (s.phases j).MayFail) (hi : hidden i = false)
    (hlocked : (s.phases i).Locked) : (s.without requests hidden).used = s.used := by
  refine used_without h fun j hj => Phase.charges_of_mayFail (hcalm j hj) (h.not_locked hlocked ?_)
  rintro rfl
  rw [hi] at hj
  cases hj

/-- A visible step that charges and discharges nothing. -/
theorem used_without_silent (hi : hidden i = false) {phase : Phase}
    (hcharges : phase.charges (requests i).nodes = (s.phases i).charges (requests i).nodes) :
    total requests (chargesOf requests) (withoutPhases hidden (Function.update s.phases i phase)) =
      (s.without requests hidden).used := by
  funext meter
  have hupdate := total_update requests (chargesOf requests) (withoutPhases hidden s.phases) i phase
    meter
  have hphase : withoutPhases hidden s.phases i = s.phases i := by simp [withoutPhases, hi]
  rw [chargesOf, chargesOf, hphase, hcharges, ← withoutPhases_update_visible hi] at hupdate
  dsimp only [State.without]
  omega

theorem without_silent (hi : hidden i = false) {phase : Phase} {lock : Option ι}
    (hcharges : phase.charges (requests i).nodes = (s.phases i).charges (requests i).nodes) :
    State.without requests hidden { s.moveTo i phase with lock := lock } =
      { (s.without requests hidden).moveTo i phase with lock := lock.filter fun j => !hidden j } :=
  State.ext (used_without_silent hi hcharges) rfl rfl (withoutPhases_update_visible hi _ _)

/-- A visible step that discharges the first of the nodes charged. -/
theorem used_without_discharge (h : Consistent caps requests s) (hi : hidden i = false)
    {phase : Phase} {node : Address} {rest : List Address}
    (hcharged : (s.phases i).charges (requests i).nodes = node :: rest)
    (hnodup : (node :: rest).Nodup) (hrest : phase.charges (requests i).nodes = rest) :
    total requests (chargesOf requests) (withoutPhases hidden (Function.update s.phases i phase)) =
      Function.update (s.without requests hidden).used ((requests i).meter node)
        (fetchSub ((s.without requests hidden).used ((requests i).meter node))
          (requests i).bytes) := by
  have hupdate := total_update requests (chargesOf requests) (withoutPhases hidden s.phases) i phase
  have hphase : withoutPhases hidden s.phases i = s.phases i := by simp [withoutPhases, hi]
  have hshare := (requests i).share_cons (List.nodup_cons.mp hnodup).1
  funext meter
  have hsum := hupdate meter
  rw [← withoutPhases_update_visible hi] at hsum
  rw [chargesOf, chargesOf, hphase, hcharged, hrest, hshare] at hsum
  by_cases hmeter : meter = (requests i).meter node
  · subst hmeter
    have hlt := (used_without_le hidden h ((requests i).meter node)).trans_lt (h.used_lt _)
    rw [if_pos rfl] at hsum
    rw [Function.update_self]
    dsimp only [State.without] at hlt ⊢
    rw [fetchSub_eq (by omega) hlt]
    omega
  · rw [if_neg hmeter] at hsum
    rw [Function.update_of_ne hmeter]
    dsimp only [State.without]
    omega

/-- A step of a hidden holder that is refused in the end cannot be told from no step. -/
theorem without_hidden_step (h : Consistent caps requests s) {s' : State ι}
    (hi : hidden i = true) (hstep : Step caps requests i s s') (hfail : (s'.phases i).MayFail) :
    s'.without requests hidden = s.without requests hidden := by
  have hlock : ∀ {lock : Option ι}, (s.phases i).Locked → lock = none →
      lock.filter (fun j => !hidden j) = s.lock.filter fun j => !hidden j := by
    intro lock hlocked hnone
    rw [(h.locked_iff i).mp hlocked, hnone]
    exact (Option.filter_some_neg (by simp [hi])).symm
  have hphases := withoutPhases_update_hidden hi s.phases
  cases hstep with
  | lock hphase hnone =>
      refine State.ext (by simp only [State.without, State.moveTo, hphases]) rfl ?_ (hphases _)
      dsimp only [State.without, State.moveTo]
      rw [hnone]
      exact Option.filter_some_neg (by simp [hi])
  | fail hphase =>
      refine State.ext (by simp only [State.without, State.moveTo, hphases]) rfl ?_ (hphases _)
      exact hlock (by rw [hphase]; trivial) rfl
  | load _ | exchange _ _ _ | retry _ _ | refuse _ _ | rollBack _ =>
      exact State.ext (by simp only [State.without, State.moveTo, hphases]) rfl rfl (hphases _)
  | charged _ | raise _ | grant _ | drop _ | release _ | dropped _ =>
      simp [State.moveTo, Phase.MayFail] at hfail

/-- The other holders can take their steps without the hidden ones. -/
theorem without_visible_step (h : Consistent caps requests s) {s' : State ι}
    (h' : Consistent caps requests s') (hcalm : ∀ j, hidden j = true → (s'.phases j).MayFail)
    (hi : hidden i = false) (hstep : Step caps requests i s s') :
    Step caps requests i (s.without requests hidden) (s'.without requests hidden) := by
  have hbefore : ∀ j, hidden j = true → (s.phases j).MayFail :=
    fun j hj => mayFail_of_step hstep (hcalm j hj)
  have hvisible : ∀ {phase : Phase}, s.phases i = phase →
      (s.without requests hidden).phases i = phase := by
    intro phase hphase
    simpa [State.without, withoutPhases, hi] using hphase
  have hused : (s.phases i).Locked → (s.without requests hidden).used = s.used :=
    used_without_of_locked h hbefore hi
  have hown : (some i).filter (fun j => !hidden j) = some i := by simp [hi]
  cases hstep with
  -- steps that charge nothing leave the usage of the visible holders as it is; a step that charges
  -- or gives back changes it by the same amount with and without the hidden holders
  | lock hphase hnone =>
      rw [without_silent hi (by simp [hphase, Phase.charges]), hown]
      exact .lock (hvisible hphase) (by simp [State.without, hnone])
  | load hphase =>
      rw [show s.moveTo i _ = { s.moveTo i _ with lock := s.lock } from rfl,
        without_silent hi (by simp [hphase, Phase.charges]), ← hused (by rw [hphase]; trivial)]
      exact .load (hvisible hphase)
  | exchange hphase hadmits hcurrent =>
      have hbefore := hused (by rw [hphase]; trivial)
      have hafter := used_without_of_locked h' hcalm hi (by simp [State.moveTo, Phase.Locked])
      rw [← hbefore] at hafter hcurrent
      have hnext := Step.exchange (hvisible hphase) hadmits hcurrent
      convert hnext using 1
      exact State.ext hafter rfl rfl (withoutPhases_update_visible hi _ _)
  | retry hphase hadmits =>
      rw [show s.moveTo i _ = { s.moveTo i _ with lock := s.lock } from rfl,
        without_silent hi (by simp [hphase, Phase.charges]), ← hused (by rw [hphase]; trivial)]
      exact .retry (hvisible hphase) hadmits
  | refuse hphase hrefuses =>
      rw [show s.moveTo i _ = { s.moveTo i _ with lock := s.lock } from rfl,
        without_silent hi (by simp [hphase, Phase.charges])]
      exact .refuse (hvisible hphase) hrefuses
  | rollBack hphase =>
      refine Eq.mpr (congrArg (Step caps requests i (s.without requests hidden)) ?_)
        (.rollBack (hvisible hphase))
      refine State.ext (used_without_discharge h hi (by rw [hphase]; rfl) ?_ rfl) rfl rfl
        (withoutPhases_update_visible hi _ _)
      exact h.wellFormed_of hphase
  | fail hphase =>
      rw [without_silent hi (by simp [hphase, Phase.charges])]
      exact .fail (hvisible hphase)
  | charged hphase =>
      have hnodes := h.wellFormed_of hphase
      rw [Phase.WellFormed, List.append_nil] at hnodes
      rw [show s.moveTo i _ = { s.moveTo i _ with lock := s.lock } from rfl,
        without_silent hi (by rw [hphase]; exact hnodes.symm)]
      exact .charged (hvisible hphase)
  | raise hphase =>
      refine Eq.mpr (congrArg (Step caps requests i (s.without requests hidden)) ?_)
        (.raise (hvisible hphase))
      exact State.ext (used_without_silent hi (by rw [hphase]; rfl)) rfl rfl
        (withoutPhases_update_visible hi _ _)
  | grant hphase =>
      rw [without_silent hi (by simp [hphase, Phase.charges])]
      exact .grant (hvisible hphase)
  | drop hphase =>
      rw [show s.moveTo i _ = { s.moveTo i _ with lock := s.lock } from rfl,
        without_silent hi (by rw [hphase]; rfl)]
      exact .drop (hvisible hphase)
  | release hphase =>
      refine Eq.mpr (congrArg (Step caps requests i (s.without requests hidden)) ?_)
        (.release (hvisible hphase))
      refine State.ext (used_without_discharge h hi (by rw [hphase]; rfl) ?_ rfl) rfl rfl
        (withoutPhases_update_visible hi _ _)
      exact h.wellFormed_of hphase
  | dropped hphase =>
      rw [show s.moveTo i _ = { s.moveTo i _ with lock := s.lock } from rfl,
        without_silent hi (by rw [hphase]; rfl)]
      exact .dropped (hvisible hphase)

/-- The run without the holders that are refused in it. -/
theorem reaches_without_failed {parties : List ι} (h : Reaches caps requests parties s) :
    Reaches caps requests (parties.filter fun i => !(s.phases i).isFailed)
      (s.without requests fun i => (s.phases i).isFailed) := by
  have hinitial : State.without requests (fun i => (s.phases i).isFailed) State.initial =
      State.initial := by
    refine State.ext ?_ rfl rfl ?_
    · funext meter
      simp [State.without, State.initial, total, chargesOf, withoutPhases, Phase.charges,
        Request.share_nil]
    · funext j
      simp [State.without, State.initial, withoutPhases]
  suffices hrun : Trace (Step caps requests)
      (State.without requests (fun i => (s.phases i).isFailed) State.initial)
      (parties.filter fun i => !(s.phases i).isFailed)
      (s.without requests fun i => (s.phases i).isFailed) by
    rwa [hinitial] at hrun
  refine h.erase (Consistent caps requests)
    (fun now => ∀ j, (s.phases j).isFailed = true → (now.phases j).MayFail) _ _ ?_
    consistent_initial (fun _ _ _ hs hstep => hs.step hstep)
    (fun _ _ _ hstep hcalm j hj => mayFail_of_step hstep (hcalm j hj))
    (fun i _ _ hs _ hcalm hi hstep => without_hidden_step hs hi hstep (hcalm i hi))
    (fun _ _ _ hs hs' hcalm hi hstep => without_visible_step hs hs' hcalm hi hstep)
  intro j hj
  cases hphase : s.phases j with
  | failed _ _ => trivial
  | idle | loading _ _ | charging _ _ _ _ | rollingBack _ _ _ | raising _ | live | dropping _
  | dropped =>
      rw [hphase] at hj
      cases hj

/-- **Accounts are conservative and atomic.**  Whatever the interleaving was, no usage and no peak
exceeds its cap.  When nothing is under way, every usage is the sum of the live reservations made
at its node or below, and no peak is below it from then on.  And the state is the one that the same
steps without those of the reservations that failed lead to. -/
theorem accounts_conserve {parties : List ι} (h : Reaches caps requests parties s) :
    (∀ meter, s.used meter ≤ caps meter ∧ s.peak meter ≤ caps meter) ∧
    (s.Quiescent → ∀ meter, s.used meter = liveBytes requests s meter ∧
      ∀ parties' later, Trace (Step caps requests) s parties' later →
        s.used meter ≤ later.peak meter) ∧
    ∃ without, Reaches caps requests (parties.filter fun i => !(s.phases i).isFailed) without ∧
      without.used = s.used ∧ without.peak = s.peak ∧
      ∀ i, without.phases i = if (s.phases i).isFailed then .idle else s.phases i := by
  have hs := consistent_of_reaches h
  refine ⟨fun meter => ⟨hs.used_le meter, hs.peak_le meter⟩, fun hquiet meter => ⟨?_, ?_⟩,
    _, reaches_without_failed h, used_without hs ?_, rfl, fun i => rfl⟩
  · rw [hs.used_eq, total_charges_of_quiescent hquiet]
  · intro parties' later hlater
    have hcovered := hs.covered meter
    rw [total_unraised_of_quiescent hquiet] at hcovered
    have hpeak : s.peak ≤ later.peak := hlater.le fun _ _ _ => peak_le_of_step
    exact hcovered.trans (hpeak meter)
  · intro j hj
    cases hphase : s.phases j with
    | failed _ _ => rfl
    | idle | loading _ _ | charging _ _ _ _ | rollingBack _ _ _ | raising _ | live | dropping _
    | dropped =>
        rw [hphase] at hj
        cases hj

/-- A root of ten bytes with an account of five. -/
def smallCaps : Meter → ℕ
  | (_, []) => 10
  | (_, _) => 5

/-- Two reservations on the account of five. -/
def smallRequests : Fin 2 → Request
  | 0 => { address := [0], bytes := 4, kind := .memory }
  | 1 => { address := [0], bytes := 2, kind := .memory }

/-- The root takes the second reservation, its account refuses it, and the root is rolled back. -/
theorem accounts_conserve_refused : ∃ parties s, Reaches smallCaps smallRequests parties s ∧
    s.Quiescent ∧ s.phases 1 = .failed 4 5 ∧ s.used (.memory, []) = 4 ∧
    s.used (.memory, []) = liveBytes smallRequests s (.memory, []) := by
  have h : Reaches smallCaps smallRequests [] .initial := .nil
  -- the first reservation is granted
  have h := h.snoc (Step.lock (i := 0) rfl rfl)
  have h := h.snoc (Step.load (i := 0) rfl)
  have h := h.snoc (Step.exchange (i := 0) rfl ⟨by decide, by decide⟩ rfl)
  have h := h.snoc (Step.load (i := 0) rfl)
  have h := h.snoc (Step.exchange (i := 0) rfl ⟨by decide, by decide⟩ rfl)
  have h := h.snoc (Step.charged (i := 0) rfl)
  have h := h.snoc (Step.raise (i := 0) rfl)
  have h := h.snoc (Step.raise (i := 0) rfl)
  have h := h.snoc (Step.grant (i := 0) rfl)
  -- the second one is refused at the account
  have h := h.snoc (Step.lock (i := 1) rfl rfl)
  have h := h.snoc (Step.load (i := 1) rfl)
  have h := h.snoc (Step.exchange (i := 1) rfl ⟨by decide, by decide⟩ rfl)
  have h := h.snoc (Step.load (i := 1) rfl)
  have h := h.snoc (Step.refuse (i := 1) rfl fun hadmits => absurd hadmits.2 (by decide))
  have h := h.snoc (Step.rollBack (i := 1) rfl)
  have h := h.snoc (Step.fail (i := 1) rfl)
  exact ⟨_, _, h, Fin.forall_fin_two.mpr ⟨trivial, trivial⟩, rfl, rfl,
    ((accounts_conserve h).2.1 (Fin.forall_fin_two.mpr ⟨trivial, trivial⟩) _).1⟩

end ProofFrame.Accounts
