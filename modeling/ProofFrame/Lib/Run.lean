import Mathlib.Control.Basic
import Mathlib.Data.List.Basic

/-!
# Computations over a world that may fault

`Run ω ε α` reads and updates a world `ω` and ends in a value or in a fault.
`Run.Sat m Q E` is the triple used throughout: from every world, a value that
`m` returns satisfies `Q` and a fault that `m` raises satisfies `E`.  The world
is universally quantified, so what is proved does not depend on its answers.

The rules below follow the shape of the programs: sequencing, the two folds,
and recovery from a fault.
-/

namespace ProofFrame.Lib

/-- A computation over the world `ω` that returns an `α` or faults with an `ε`. -/
abbrev Run (ω ε α : Type) : Type := StateT ω (Except ε) α

namespace Run

variable {ω ε α β : Type}

/-- Every value returned satisfies `Q`, every fault raised satisfies `E`. -/
def Sat (m : Run ω ε α) (Q : α → Prop) (E : ε → Prop) : Prop :=
  ∀ world, match m world with
    | .ok (a, _) => Q a
    | .error e => E e

/-- A computation that ends in a value from every world. -/
def Total (m : Run ω ε α) : Prop := ∀ world, ∃ a world', m world = .ok (a, world')

variable {m : Run ω ε α} {Q Q' : α → Prop} {E E' : ε → Prop}

theorem Sat.of_ok (h : Sat m Q E) {world world' : ω} {a : α} (hm : m world = .ok (a, world')) :
    Q a := by
  have := h world
  rwa [hm] at this

theorem Sat.of_error (h : Sat m Q E) {world : ω} {e : ε} (hm : m world = .error e) : E e := by
  have := h world
  rwa [hm] at this

theorem Sat.mono (h : Sat m Q E) (hQ : ∀ a, Q a → Q' a) (hE : ∀ e, E e → E' e) :
    Sat m Q' E' := by
  intro world
  have := h world
  revert this
  cases m world with
  | ok r => exact hQ r.1
  | error e => exact hE e

theorem Sat.post (h : Sat m Q E) (hQ : ∀ a, Q a → Q' a) : Sat m Q' E := h.mono hQ fun _ he => he

/-- What a run returns, whatever faults it may end in. -/
theorem Sat.returns (h : Sat m Q E) : Sat m Q fun _ => True :=
  h.mono (fun _ hQ => hQ) fun _ _ => trivial

theorem Sat.and (h : Sat m Q E) (h' : Sat m Q' E') :
    Sat m (fun a => Q a ∧ Q' a) (fun e => E e ∧ E' e) := by
  intro world
  have h₁ := h world
  have h₂ := h' world
  revert h₁ h₂
  cases m world with
  | ok r => exact fun h₁ h₂ => ⟨h₁, h₂⟩
  | error e => exact fun h₁ h₂ => ⟨h₁, h₂⟩

theorem sat_pure {a : α} (h : Q a) : Sat (pure a : Run ω ε α) Q E := fun _ => h

/-- What is known anyway is known of what a run returns. -/
theorem sat_known {P : Prop} (h : P) : Sat m (fun _ => P) fun _ => True := by
  intro world
  cases m world with
  | ok _ => exact h
  | error _ => trivial

theorem sat_throw {e : ε} (h : E e) : Sat (throw e : Run ω ε α) Q E := fun _ => h

theorem bind_eq (m : Run ω ε α) (f : α → Run ω ε β) (world : ω) :
    (m >>= f) world = match m world with
      | .ok (a, world') => f a world'
      | .error e => .error e := by
  show StateT.bind m f world = _
  unfold StateT.bind
  cases h : m world with
  | ok r => simp [bind, Except.bind]
  | error e => simp [bind, Except.bind]

theorem bind_ok_iff {f : α → Run ω ε β} {world : ω} {ended : β × ω} :
    (m >>= f) world = .ok ended ↔ ∃ a next, m world = .ok (a, next) ∧ f a next = .ok ended := by
  rw [bind_eq]
  cases m world with
  | ok r =>
      constructor
      · intro h
        exact ⟨r.1, r.2, rfl, h⟩
      · rintro ⟨a, next, ⟨⟩, h⟩
        exact h
  | error e =>
      constructor
      · rintro ⟨⟩
      · rintro ⟨_, _, ⟨⟩, -⟩

theorem mapM_cons_ok_iff {f : α → Run ω ε β} {x : α} {xs : List α} {world : ω}
    {ended : List β × ω} :
    (x :: xs).mapM f world = .ok ended ↔ ∃ y middle, f x world = .ok (y, middle) ∧
      ∃ ys next, xs.mapM f middle = .ok (ys, next) ∧ (y :: ys, next) = ended := by
  rw [List.mapM_cons, bind_ok_iff]
  refine exists₂_congr fun y middle => and_congr_right fun _ => ?_
  rw [bind_ok_iff]
  exact exists₂_congr fun ys next => and_congr_right fun _ => ⟨Except.ok.inj, congrArg _⟩

theorem Sat.bind {f : α → Run ω ε β} {R : β → Prop} (h : Sat m Q E)
    (hf : ∀ a, Q a → Sat (f a) R E) : Sat (m >>= f) R E := by
  intro world
  rw [bind_eq]
  have hm := h world
  revert hm
  cases m world with
  | ok r => exact fun hm => hf r.1 hm r.2
  | error e => exact id

theorem Sat.map {f : α → β} {R : β → Prop} (h : Sat m Q E) (hf : ∀ a, Q a → R (f a)) :
    Sat (f <$> m) R E := by
  rw [map_eq_pure_bind]
  exact h.bind fun a ha => sat_pure (hf a ha)

theorem Sat.ite {c : Prop} [Decidable c] {t e : Run ω ε α} (ht : c → Sat t Q E)
    (he : ¬c → Sat e Q E) : Sat (if c then t else e) Q E := by
  split
  · exact ht ‹c›
  · exact he ‹¬c›

/-- The fold rule: `inv done b` relates the accumulator to the part already folded. -/
theorem sat_foldlM {f : β → α → Run ω ε β} {xs : List α} {b : β} (inv : List α → β → Prop)
    (hinit : inv [] b)
    (hstep : ∀ done x rest b, xs = done ++ x :: rest → inv done b →
      Sat (f b x) (inv (done ++ [x])) E) :
    Sat (xs.foldlM f b) (inv xs) E := by
  suffices h : ∀ rest done b, xs = done ++ rest → inv done b → Sat (rest.foldlM f b) (inv xs) E from
    h xs [] b rfl hinit
  intro rest
  induction rest with
  | nil =>
      intro done b hxs hinv
      rw [List.append_nil] at hxs
      rw [List.foldlM_nil]
      exact sat_pure (hxs ▸ hinv)
  | cons x rest ih =>
      intro done b hxs hinv
      rw [List.foldlM_cons]
      refine (hstep done x rest b hxs hinv).bind fun b' hb' => ih (done ++ [x]) b' ?_ hb'
      rw [hxs, List.append_assoc, List.singleton_append]

/-- The traversal rule: each result is related to its argument. -/
theorem sat_mapM {f : α → Run ω ε β} {R : α → β → Prop} {xs : List α}
    (hf : ∀ x ∈ xs, Sat (f x) (R x) E) :
    Sat (xs.mapM f) (List.Forall₂ R xs) E := by
  induction xs with
  | nil =>
      rw [List.mapM_nil]
      exact sat_pure .nil
  | cons x xs ih =>
      rw [List.mapM_cons]
      refine (hf x (List.mem_cons_self ..)).bind fun y hy => ?_
      refine (ih fun z hz => hf z (List.mem_cons_of_mem _ hz)).bind fun ys hys => ?_
      exact sat_pure (.cons hy hys)

theorem sat_forM {f : α → Run ω ε Unit} {xs : List α}
    (hf : ∀ x ∈ xs, Sat (f x) (fun _ => True) E) : Sat (xs.forM f) (fun _ => True) E := by
  induction xs with
  | nil => exact sat_pure trivial
  | cons x xs ih =>
      refine (hf x (List.mem_cons_self ..)).bind fun _ _ => ?_
      exact ih fun y hy => hf y (List.mem_cons_of_mem _ hy)

/-- Fault if the condition holds. -/
def failIf (c : Prop) [Decidable c] (e : ε) : Run ω ε Unit := if c then throw e else pure ()

theorem sat_failIf {c : Prop} [Decidable c] {e : ε} (herror : c → E e) :
    Sat (failIf c e : Run ω ε Unit) (fun _ => ¬c) E := by
  unfold failIf
  exact Sat.ite (fun h => sat_throw (herror h)) fun h => sat_pure h

/-- Run the computation if the condition holds. -/
def whenever (c : Prop) [Decidable c] (m : Run ω ε Unit) : Run ω ε Unit := if c then m else pure ()

theorem sat_whenever {c : Prop} [Decidable c] {m : Run ω ε Unit} {Q : Unit → Prop}
    (hm : c → Sat m Q E) (hskip : ¬c → Q ()) : Sat (whenever c m) Q E :=
  Sat.ite hm fun h => sat_pure (hskip h)

/-- The value, or the fault where there is none. -/
def someOr (value : Option α) (e : ε) : Run ω ε α :=
  match value with
  | some a => pure a
  | none => throw e

theorem sat_someOr {value : Option α} {e : ε} (herror : value = none → E e) :
    Sat (someOr value e : Run ω ε α) (fun a => value = some a) E := by
  cases value with
  | none => exact sat_throw (herror rfl)
  | some a => exact sat_pure rfl

/-- What one turn of a loop decides. -/
inductive Turn (σ α : Type) where
  | again (state : σ)
  | leave (result : α)

/-- Take turns until one leaves; `exhausted` is the fault of a loop that used up its fuel. -/
def loop {σ : Type} (exhausted : ε) (turn : σ → Run ω ε (Turn σ α)) : ℕ → σ → Run ω ε α
  | 0, _ => throw exhausted
  | fuel + 1, state => do
      match ← turn state with
      | .again state => loop exhausted turn fuel state
      | .leave result => pure result

/-- The loop rule: every turn keeps the invariant and lowers the measure, or leaves with `Q`. -/
theorem sat_loop {σ : Type} {exhausted : ε} {turn : σ → Run ω ε (Turn σ α)} (inv : σ → Prop)
    (measure : σ → ℕ)
    (hturn : ∀ state, inv state → Sat (turn state) (fun
      | .again next => inv next ∧ measure next < measure state
      | .leave result => Q result) E) :
    ∀ fuel state, inv state → measure state < fuel → Sat (loop exhausted turn fuel state) Q E := by
  intro fuel
  induction fuel with
  | zero => intro state _ hlt; omega
  | succ fuel ih =>
      intro state hinv hlt
      refine (hturn state hinv).bind fun outcome houtcome => ?_
      cases outcome with
      | again next => exact ih next houtcome.1 (by omega)
      | leave result => exact sat_pure houtcome

/-- Lift a pure step that may fault. -/
def lift (r : Except ε α) : Run ω ε α := fun world => r.map fun a => (a, world)

theorem sat_lift {r : Except ε α} (hok : ∀ a, r = .ok a → Q a)
    (herror : ∀ e, r = .error e → E e) : Sat (lift r : Run ω ε α) Q E := by
  intro world
  cases r with
  | ok a => exact hok a rfl
  | error e => exact herror e rfl

theorem failIf_eq_ok {c : Prop} [Decidable c] {e : ε} {world : ω} {ended : Unit × ω} :
    (failIf c e : Run ω ε Unit) world = .ok ended ↔ ¬c ∧ ended = ((), world) := by
  unfold failIf
  split
  · next h =>
      constructor
      · rintro ⟨⟩
      · rintro ⟨hnot, -⟩
        exact absurd h hnot
  · next h =>
      constructor
      · rintro ⟨⟩
        exact ⟨h, rfl⟩
      · rintro ⟨-, rfl⟩
        rfl

theorem lift_eq_ok {r : Except ε α} {world : ω} {ended : α × ω} :
    lift r world = .ok ended ↔ ∃ a, r = .ok a ∧ ended = (a, world) := by
  cases r with
  | ok a =>
      constructor
      · rintro ⟨⟩
        exact ⟨a, rfl, rfl⟩
      · rintro ⟨_, ⟨⟩, rfl⟩
        rfl
  | error e =>
      constructor
      · rintro ⟨⟩
      · rintro ⟨_, ⟨⟩, -⟩

/-- A computation without faults ends in a value. -/
theorem Sat.total (h : Sat m Q E) (hE : ∀ e, ¬E e) : Total m := by
  intro world
  cases hm : m world with
  | ok r => exact ⟨r.1, r.2, rfl⟩
  | error e => exact absurd (h.of_error hm) (hE e)

/-- What is returned was returned from some world. -/
theorem Sat.attained (h : Sat m Q E) :
    Sat m (fun a => Q a ∧ ∃ world next, m world = .ok (a, next)) E := by
  intro world
  have hm := h world
  cases hrun : m world with
  | ok r => exact ⟨h.of_ok hrun, world, r.2, hrun⟩
  | error e => exact h.of_error hrun

theorem Total.bind {f : α → Run ω ε β} (h : Total m) (hf : ∀ a, Total (f a)) :
    Total (m >>= f) := by
  intro world
  obtain ⟨a, world', hm⟩ := h world
  obtain ⟨b, world'', hb⟩ := hf a world'
  exact ⟨b, world'', by rw [bind_eq, hm]; exact hb⟩

end Run

end ProofFrame.Lib
