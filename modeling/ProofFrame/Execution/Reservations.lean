import ProofFrame.Execution.Accounts

/-!
# Reservations of one thread

An execution of a contract reserves and drops on one thread: while a holder is in
one of its calls nobody else is.  Then the usages a call records are those of the
moment, and the peak of a meter is the most that live reservations ever took of it
together.

## Strategy

Only a grant raises what is live, and then everything charged has its peak.  That
is `liveBytes_le_peak_of_step`, for any interleaving.  The other direction needs
the thread: `Attained` says that the peak is what was live at some moment, or what
will be once the call that is raising it returns.
-/

namespace ProofFrame.Accounts

open Lib

variable {ι : Type} {caps : Meter → ℕ} {requests : ι → Request} {s s' : State ι} {i : ι}

/-! ## Live reservations -/

/-- The nodes at which a phase holds a reservation. -/
def liveNodes (requests : ι → Request) (i : ι) (phase : Phase) : List Address :=
  if phase.isLive then (requests i).nodes else []

theorem share_liveNodes {phase : Phase} (h : phase.isLive = false) (meter : Meter) :
    (requests i).share (liveNodes requests i phase) meter = 0 := by
  rw [liveNodes, if_neg (by simp [h]), Request.share_nil]

variable [Fintype ι]

theorem liveBytes_eq_total (requests : ι → Request) (s : State ι) (meter : Meter) :
    liveBytes requests s meter = total requests (liveNodes requests) s.phases meter := by
  unfold total liveBytes
  rw [Finset.sum_filter]
  refine Finset.sum_congr rfl fun i _ => ?_
  unfold liveNodes
  cases hlive : (s.phases i).isLive with
  | true => simp [Request.share, Request.nodes, mem_nodes]
  | false => simp [Request.share_nil]

variable [DecidableEq ι]

theorem liveBytes_grant {lock : Option ι} (hphase : s.phases i = .raising []) (meter : Meter) :
    liveBytes requests { s.moveTo i .live with lock } meter =
      liveBytes requests s meter + (requests i).share (requests i).nodes meter := by
  rw [liveBytes_eq_total, liveBytes_eq_total]
  have hupdate := total_update requests (liveNodes requests) s.phases i .live meter
  have hnone : (requests i).share (liveNodes requests i (s.phases i)) meter = 0 :=
    share_liveNodes (by rw [hphase]; rfl) meter
  rw [hnone] at hupdate
  exact hupdate

/-- Raising a peak leaves alone what is live. -/
theorem liveBytes_raise {peak : Meter → ℕ} {rest rest' : List (Address × ℕ)}
    (hphase : s.phases i = .raising rest') (meter : Meter) :
    liveBytes requests { s.moveTo i (.raising rest) with peak } meter =
      liveBytes requests s meter := by
  rw [liveBytes_eq_total, liveBytes_eq_total]
  have hupdate := total_update requests (liveNodes requests) s.phases i (.raising rest) meter
  rw [hphase, share_liveNodes rfl, share_liveNodes rfl] at hupdate
  exact hupdate

/-- The holder is in no call. -/
def Phase.Settled : Phase → Prop
  | .idle | .failed _ _ | .live | .dropped => True
  | .loading _ _ | .charging _ _ _ _ | .rollingBack _ _ _ | .raising _ | .dropping _ => False

omit [Fintype ι] [DecidableEq ι] in
theorem quiescent_iff : s.Quiescent ↔ ∀ i, (s.phases i).Settled := by
  refine forall_congr' fun i => ?_
  cases s.phases i <;> exact Iff.rfl

/-- Nobody but the holder is in a call. -/
def State.Alone (s : State ι) (i : ι) : Prop := ∀ j, j ≠ i → (s.phases j).Settled

theorem Phase.Settled.marks_eq {phase : Phase} (h : phase.Settled) : phase.marks = [] := by
  cases phase <;> first | rfl | exact h.elim

omit [Fintype ι] [DecidableEq ι] in
/-- What a settled holder has charged is what it holds. -/
theorem Phase.Settled.share_charges {phase : Phase} (h : phase.Settled) (meter : Meter) :
    (requests i).share (chargesOf requests i phase) meter =
      (requests i).share (liveNodes requests i phase) meter := by
  cases phase with
  | live => rfl
  | idle | failed _ _ | dropped => rfl
  | loading _ _ | charging _ _ _ _ | rollingBack _ _ _ | raising _ | dropping _ => exact h.elim

/-- Before its call returns, what the holder has charged comes on top of what is live. -/
theorem State.Alone.used_eq (h : s.Alone i) (hs : Consistent caps requests s)
    (hlive : (s.phases i).isLive = false) (meter : Meter) :
    s.used meter = liveBytes requests s meter +
      (requests i).share (chargesOf requests i (s.phases i)) meter := by
  rw [hs.used_eq, liveBytes_eq_total]
  unfold total
  rw [← Finset.add_sum_erase _ _ (Finset.mem_univ i),
    ← Finset.add_sum_erase _ _ (Finset.mem_univ i), share_liveNodes hlive, Nat.zero_add,
    Nat.add_comm]
  congr 1
  refine Finset.sum_congr rfl fun j hj => ?_
  exact (h j (Finset.ne_of_mem_erase hj)).share_charges meter

omit [Fintype ι] in
theorem phases_of_step (hstep : Step caps requests i s s') {j : ι} (hj : j ≠ i) :
    s'.phases j = s.phases j := by
  cases hstep <;> exact Function.update_of_ne hj _ _

omit [Fintype ι] in
theorem State.Alone.step (h : s.Alone i) (hstep : Step caps requests i s s') : s'.Alone i :=
  fun j hj => phases_of_step hstep hj ▸ h j hj

/-! ## The peak -/

/-- The usages a call has recorded are those of the moment. -/
def State.Current (requests : ι → Request) (s : State ι) : Prop :=
  ∀ i node usage, (node, usage) ∈ (s.phases i).marks → usage = s.used ((requests i).meter node)

omit [Fintype ι] [DecidableEq ι] in
theorem State.current_initial : (State.initial : State ι).Current requests :=
  fun _ _ _ h => absurd h (List.not_mem_nil)

/-- A call on its own records what it charges. -/
theorem State.Current.step (h : s.Current requests) (hs : Consistent caps requests s)
    (halone : s.Alone i) (hstep : Step caps requests i s s') : s'.Current requests := by
  intro j node usage hmark
  by_cases hj : j = i
  swap
  · rw [(halone.step hstep j hj).marks_eq] at hmark
    exact absurd hmark (List.not_mem_nil)
  subst hj
  have hold := h j node usage
  cases hstep with
  | @exchange charged current other rest hphase _ hcurrent =>
      have hnodup : (charged.map Prod.fst ++ other :: rest).Nodup := by
        have hwell := hs.wellFormed_of hphase
        rw [Phase.WellFormed] at hwell
        rw [hwell]
        exact nodup_nodes _
      dsimp only [State.moveTo] at hmark ⊢
      rw [Function.update_self, Phase.marks] at hmark
      rcases List.mem_append.mp hmark with hearlier | hnew
      · -- the nodes charged before are other ones
        have hne : (requests j).meter node ≠ (requests j).meter other := by
          intro heq
          obtain rfl : node = other := congrArg Prod.snd heq
          exact (List.nodup_append.mp hnodup).2.2 node (List.mem_map_of_mem hearlier) node
            (List.mem_cons_self) rfl
        rw [Function.update_of_ne hne]
        exact hold (by rw [hphase]; exact hearlier)
      · obtain ⟨rfl, rfl⟩ := Prod.mk.inj (List.mem_singleton.mp hnew)
        rw [Function.update_self]
  | load hphase | retry hphase _ | charged hphase =>
      dsimp only [State.moveTo] at hmark
      rw [Function.update_self] at hmark
      exact hold (by rw [hphase]; exact hmark)
  | raise hphase =>
      dsimp only [State.moveTo] at hmark
      rw [Function.update_self] at hmark
      exact hold (by rw [hphase]; exact List.mem_cons_of_mem _ hmark)
  | lock _ _ | refuse _ _ | rollBack _ | fail _ | grant _ | drop _ | release _ | dropped _ =>
      dsimp only [State.moveTo] at hmark
      rw [Function.update_self] at hmark
      exact absurd hmark (List.not_mem_nil)

/-- The peak of the meter is at most what was live at one of the moments, or will be once the call
that is raising it returns. -/
def Attained (requests : ι → Request) (meter : Meter) (moments : List (State ι)) (s : State ι) :
    Prop :=
  (∃ moment ∈ moments, s.peak meter ≤ liveBytes requests moment meter) ∨
    ∃ i rest, s.phases i = .raising rest ∧
      s.peak meter ≤ liveBytes requests s meter + (requests i).share (requests i).nodes meter

omit [DecidableEq ι] in
theorem Attained.of_quiescent {meter : Meter} {moments : List (State ι)}
    (h : Attained requests meter moments s) (hquiet : s.Quiescent) :
    ∃ moment ∈ moments, s.peak meter ≤ liveBytes requests moment meter := by
  rcases h with h | ⟨i, rest, hphase, -⟩
  · exact h
  · have hsettled := quiescent_iff.mp hquiet i
    rw [hphase] at hsettled
    exact hsettled.elim

omit [DecidableEq ι] in
/-- A step that leaves the peak as it is. -/
theorem attained_of_peak_eq {meter : Meter} {moments : List (State ι)}
    (h : Attained requests meter moments s) (hpeak : s'.peak = s.peak)
    (hraising : ∀ i rest, s.phases i = .raising rest →
      s.peak meter ≤ liveBytes requests s meter + (requests i).share (requests i).nodes meter →
        Attained requests meter (moments ++ [s']) s') :
    Attained requests meter (moments ++ [s']) s' := by
  rcases h with ⟨moment, hmoment, hle⟩ | ⟨i, rest, hphase, hle⟩
  · exact .inl ⟨moment, List.mem_append_left _ hmoment, by rwa [hpeak]⟩
  · exact hraising i rest hphase hle

/-- The step lemma. -/
theorem Attained.step {meter : Meter} {moments : List (State ι)}
    (h : Attained requests meter moments s) (hs : Consistent caps requests s)
    (hcurrent : s.Current requests) (halone : s.Alone i) (hstep : Step caps requests i s s') :
    Attained requests meter (moments ++ [s']) s' := by
  -- the holder that raises peaks is the one that takes the step
  have honly (j : ι) (rest : List (Address × ℕ)) (hphase : s.phases j = .raising rest) : j = i := by
    by_contra hj
    have hsettled := halone j hj
    rw [hphase] at hsettled
    exact hsettled.elim
  cases hstep with
  | grant hphase =>
      refine attained_of_peak_eq h rfl fun j rest hraising hle => ?_
      obtain rfl := honly j rest hraising
      exact .inl ⟨_, List.mem_append_right _ (List.mem_singleton_self _),
        hle.trans (liveBytes_grant hphase meter).ge⟩
  | @raise node usage rest hphase =>
      have hlive (peak : Meter → ℕ) : liveBytes requests { s.moveTo i (.raising rest) with peak }
          meter = liveBytes requests s meter := liveBytes_raise hphase meter
      -- the raised peak is the old one, or what is live once the call of the holder returns
      have hpeak : Function.update s.peak ((requests i).meter node)
          (max (s.peak ((requests i).meter node)) usage) meter ≤
            max (s.peak meter)
              (liveBytes requests s meter + (requests i).share (requests i).nodes meter) := by
        by_cases hmeter : meter = (requests i).meter node
        · have hused := halone.used_eq hs (by rw [hphase]; rfl) meter
          rw [hphase, chargesOf, Phase.charges] at hused
          rw [← hused, hmeter, Function.update_self,
            hcurrent i node usage (by rw [hphase]; exact List.mem_cons_self)]
        · rw [Function.update_of_ne hmeter]
          exact le_max_left _ _
      rcases le_max_iff.mp hpeak with hle | hle
      · rcases h with ⟨moment, hmoment, hbound⟩ | ⟨j, later, hraising, hbound⟩
        · exact .inl ⟨moment, List.mem_append_left _ hmoment, hle.trans hbound⟩
        · obtain rfl := honly j later hraising
          exact .inr ⟨j, rest, Function.update_self .., by rw [hlive]; exact hle.trans hbound⟩
      · exact .inr ⟨i, rest, Function.update_self .., by rwa [hlive]⟩
  | lock hphase _ | load hphase | exchange hphase _ _ | retry hphase _ | refuse hphase _
  | rollBack hphase | fail hphase | charged hphase | drop hphase | release hphase
  | dropped hphase =>
      refine attained_of_peak_eq h rfl fun j rest hraising _ => ?_
      obtain rfl := honly j rest hraising
      rw [hphase] at hraising
      cases hraising

end ProofFrame.Accounts
