import Mathlib.Data.Option.Basic
import ProofFrame.Lib.Run

/-!
# Refinement of a pure computation

A computation over a world refines a pure one when it ends as the pure one does:
in a value related to its value, or in the same fault.  The world may stop it
before, with a fault of its own kind `Env`, but it has no other influence.

The rules mirror those of `Run`: the two sides are taken apart step by step, and
a step of the world that the pure side does not have is discharged by its triple.
-/

namespace ProofFrame.Lib.Run

variable {ω ε α β δ γ : Type} {Env : ε → Prop}

/-- Values are related by `R`, faults are those of the pure side or of the world. -/
def Refines (Env : ε → Prop) (m : Run ω ε α) (d : Except ε δ) (R : δ → α → Prop) : Prop :=
  Sat m (fun a => ∃ b, d = .ok b ∧ R b a) fun e => Env e ∨ d = .error e

variable {m : Run ω ε α} {d : Except ε δ} {R R' : δ → α → Prop}

theorem Refines.of_ok (h : Refines Env m d R) {world world' : ω} {a : α}
    (hm : m world = .ok (a, world')) : ∃ b, d = .ok b ∧ R b a :=
  Sat.of_ok h hm

theorem Refines.of_error (h : Refines Env m d R) {world : ω} {e : ε} (hm : m world = .error e) :
    Env e ∨ d = .error e :=
  Sat.of_error h hm

theorem Refines.post (h : Refines Env m d R) (hR : ∀ b a, d = .ok b → R b a → R' b a) :
    Refines Env m d R' := by
  apply Sat.post h
  rintro a ⟨b, hb, hba⟩
  exact ⟨b, hb, hR b a hb hba⟩

theorem refines_pure {a : α} {b : δ} (h : R b a) :
    Refines Env (pure a : Run ω ε α) (pure b) R :=
  sat_pure ⟨b, rfl, h⟩

theorem refines_lift {r : Except ε δ} {S : δ → δ → Prop} (h : ∀ b, r = .ok b → S b b) :
    Refines Env (lift r : Run ω ε δ) r S := by
  apply sat_lift
  · intro b hb
    exact ⟨b, hb, h b hb⟩
  · intro e he
    exact .inr he

/-- The pure counterpart of `failIf`. -/
def rejectIf (c : Prop) [Decidable c] (e : ε) : Except ε Unit := if c then .error e else .ok ()

theorem refines_failIf {c : Prop} [Decidable c] {e : ε} :
    Refines Env (failIf c e : Run ω ε Unit) (rejectIf c e) fun _ _ => ¬c := by
  unfold rejectIf
  by_cases hc : c
  · rw [if_pos hc]
    exact (sat_failIf fun _ => .inr rfl).post fun _ hn => absurd hc hn
  · rw [if_neg hc]
    exact (sat_failIf fun h => absurd h hc).post fun _ hn => ⟨(), rfl, hn⟩

/-- The pure counterpart of `someOr`. -/
def required (value : Option α) (e : ε) : Except ε α :=
  match value with
  | some a => .ok a
  | none => .error e

/-- The value on one side is there if the one on the other side is. -/
theorem refines_someOr {value : Option α} {model : Option δ} {e : ε} (h : Option.Rel R model value) :
    Refines Env (someOr value e : Run ω ε α) (required model e) R := by
  cases h with
  | none => exact sat_throw (.inr rfl)
  | some h => exact refines_pure h

theorem refines_someOr_self {value : Option α} {e : ε} :
    Refines Env (someOr value e : Run ω ε α) (required value e) Eq := by
  cases value with
  | none => exact sat_throw (.inr rfl)
  | some a => exact refines_pure rfl

/-- The pure side performs the same step. -/
theorem Refines.bind {f : α → Run ω ε β} {g : δ → Except ε γ} {S : γ → β → Prop}
    (h : Refines Env m d R) (hf : ∀ b a, d = .ok b → R b a → Refines Env (f a) (g b) S) :
    Refines Env (m >>= f) (d >>= g) S := by
  have hm : Sat m (fun a => ∃ b, d = .ok b ∧ R b a) fun e => Env e ∨ (d >>= g) = .error e := by
    apply Sat.mono h
    · exact fun _ ha => ha
    · rintro e (he | he)
      · exact .inl he
      · exact .inr (by rw [he]; rfl)
  apply Sat.bind hm
  rintro a ⟨b, hb, hba⟩
  have hstep : d >>= g = g b := by
    rw [hb]
    rfl
  rw [hstep]
  exact hf b a hb hba

/-- The pure side goes on to a value that the computation already has. -/
theorem Refines.goOn {g : δ → Except ε γ} {S : γ → α → Prop} (h : Refines Env m d R)
    (hg : ∀ b a, R b a → ∃ c, g b = .ok c ∧ S c a) : Refines Env m (d >>= g) S := by
  apply Sat.mono h
  · rintro a ⟨b, hb, hba⟩
    obtain ⟨c, hc, hca⟩ := hg b a hba
    refine ⟨c, ?_, hca⟩
    rw [hb]
    exact hc
  · rintro e (he | he)
    · exact .inl he
    · exact .inr (by rw [he]; rfl)

/-- The pure side has no counterpart of the step. -/
theorem Refines.after {f : α → Run ω ε β} {e : Except ε γ} {Q : α → Prop} {S : γ → β → Prop}
    (h : Sat m Q Env) (hf : ∀ a, Q a → Refines Env (f a) e S) : Refines Env (m >>= f) e S := by
  refine Sat.bind (Sat.mono h (fun _ ha => ha) ?_) hf
  exact fun _ he => .inl he

/-- A computation of the world alone refines a value. -/
theorem Refines.of_sat {b : δ} (h : Sat m (R b) Env) : Refines Env m (pure b) R :=
  Sat.mono h (fun _ ha => ⟨b, rfl, ha⟩) fun _ he => .inl he

theorem Refines.map {f : α → β} {g : δ → γ} {S : γ → β → Prop} (h : Refines Env m d R)
    (hf : ∀ b a, d = .ok b → R b a → S (g b) (f a)) : Refines Env (f <$> m) (g <$> d) S := by
  rw [map_eq_pure_bind, map_eq_pure_bind]
  exact h.bind fun b a hb hba => refines_pure (hf b a hb hba)

/-- The fold rule: both sides fold the same list. -/
theorem refines_foldlM {ι : Type} {f : α → ι → Run ω ε α} {g : δ → ι → Except ε δ} {items : List ι}
    (hstep : ∀ item ∈ items, ∀ b a, R b a → Refines Env (f a item) (g b item) R) :
    ∀ {a b}, R b a → Refines Env (items.foldlM f a) (items.foldlM g b) R := by
  induction items with
  | nil =>
      intro a b h
      exact refines_pure h
  | cons item items ih =>
      intro a b h
      rw [List.foldlM_cons, List.foldlM_cons]
      apply (hstep item (List.mem_cons_self ..) b a h).bind
      intro b' a' _ h'
      exact ih (fun other hother => hstep other (List.mem_cons_of_mem _ hother)) h'

end ProofFrame.Lib.Run
