import Mathlib.Data.List.Basic
import Mathlib.Order.Basic

/-!
# Runs of interleaved steps

A system of several parties takes one step at a time, and each step is labelled
with the party that takes it.  A trace is a run together with the parties in the
order they stepped.

The rules: what every step preserves holds at the end, what no step lowers is no
lower at the end, and parties whose steps nobody can tell from no step at all
can be left out of a trace.
-/

namespace ProofFrame.Lib

variable {σ ι : Type}

/-- The state is reached from `start` by steps of the parties, in the order of the list. -/
inductive Trace (step : ι → σ → σ → Prop) (start : σ) : List ι → σ → Prop where
  | nil : Trace step start [] start
  | snoc {parties : List ι} {party : ι} {s s' : σ} (trace : Trace step start parties s)
      (hstep : step party s s') : Trace step start (parties ++ [party]) s'

namespace Trace

variable {step : ι → σ → σ → Prop} {start s : σ} {parties : List ι}

theorem invariant {inv : σ → Prop} (h : Trace step start parties s) (hstart : inv start)
    (hstep : ∀ party s s', inv s → step party s s' → inv s') : inv s := by
  induction h with
  | nil => exact hstart
  | snoc _ hlast ih => exact hstep _ _ _ ih hlast

theorem le {α : Type} [Preorder α] {measure : σ → α} (h : Trace step start parties s)
    (hstep : ∀ party s s', step party s s' → measure s ≤ measure s') :
    measure start ≤ measure s := by
  induction h with
  | nil => exact le_refl _
  | snoc _ hlast ih => exact ih.trans (hstep _ _ _ hlast)

/-- The erasure rule.  `erase` forgets what the hidden parties did.  Their steps change nothing
else, and the others can take theirs without them.  `inv` holds of every state that is reached,
`calm` of every state from which a calm one is reached. -/
theorem erase (inv calm : σ → Prop) (hidden : ι → Bool) (forget : σ → σ)
    (h : Trace step start parties s) (hcalm : calm s) (hstart : inv start)
    (hinv : ∀ party s s', inv s → step party s s' → inv s')
    (hback : ∀ party s s', step party s s' → calm s' → calm s)
    (hhidden : ∀ party s s', inv s → inv s' → calm s' → hidden party = true → step party s s' →
      forget s' = forget s)
    (hvisible : ∀ party s s', inv s → inv s' → calm s' → hidden party = false → step party s s' →
      step party (forget s) (forget s')) :
    Trace step (forget start) (parties.filter fun party => !hidden party) (forget s) := by
  induction h with
  | nil => exact .nil
  | @snoc parties party s s' trace hlast ih =>
      have hs : inv s := trace.invariant hstart hinv
      have ih := ih (hback _ _ _ hlast hcalm)
      rw [List.filter_append]
      cases hparty : hidden party with
      | true =>
          rw [List.filter_cons_of_neg (by simp [hparty]), List.filter_nil, List.append_nil,
            hhidden _ _ _ hs (hinv _ _ _ hs hlast) hcalm hparty hlast]
          exact ih
      | false =>
          rw [List.filter_cons_of_pos (by simp [hparty]), List.filter_nil]
          exact ih.snoc (hvisible _ _ _ hs (hinv _ _ _ hs hlast) hcalm hparty hlast)

end Trace

end ProofFrame.Lib
