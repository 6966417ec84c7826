import Mathlib.Data.List.Forall2
import ProofFrame.Lib.Refinement

/-!
# Sequences of fallible steps

What a sequence of steps says about its parts once it has ended in a value: one
rule for each way of putting steps together.  `foldlM_invariant` is the run rule,
from what one step preserves to what a whole run preserves.
-/

namespace ProofFrame.Lib

variable {ε ι α β : Type}

theorem ok_bind (a : α) (next : α → Except ε β) : (Except.ok a >>= next) = next a := rfl

theorem bind_eq_ok {step : Except ε α} {next : α → Except ε β} {b : β} :
    (step >>= next) = .ok b ↔ ∃ a, step = .ok a ∧ next a = .ok b := by
  cases step with
  | error e => simp [bind, Except.bind]
  | ok a => simp [bind, Except.bind]

theorem bind_eq_error {step : Except ε α} {next : α → Except ε β} {e : ε} :
    (step >>= next) = .error e ↔ step = .error e ∨ ∃ a, step = .ok a ∧ next a = .error e := by
  cases step with
  | error e' => simp [bind, Except.bind]
  | ok a => simp [bind, Except.bind]

theorem map_eq_ok {step : Except ε α} {f : α → β} {b : β} :
    f <$> step = .ok b ↔ ∃ a, step = .ok a ∧ f a = b := by
  cases step with
  | error e => simp [Functor.map, Except.map]
  | ok a => simp [Functor.map, Except.map]

theorem map_seq_eq_ok {γ : Type} {f : α → β → γ} {first : Except ε α} {second : Except ε β} {c : γ} :
    f <$> first <*> second = .ok c ↔ ∃ a b, first = .ok a ∧ second = .ok b ∧ f a b = c := by
  cases first <;> cases second <;> simp [Seq.seq, Functor.map, Except.map, Except.bind]

theorem rejectIf_eq_ok {c : Prop} [Decidable c] {e : ε} {u : Unit} :
    Run.rejectIf c e = .ok u ↔ ¬c := by
  unfold Run.rejectIf
  by_cases h : c <;> simp [h]

theorem required_eq_ok {value : Option α} {e : ε} {a : α} :
    Run.required value e = .ok a ↔ value = some a := by
  cases value <;> simp [Run.required]

theorem exists_ok {step : Except ε α} (h : step.toOption.isSome = true) :
    ∃ a, step = .ok a := by
  cases step with
  | error e => cases h
  | ok a => exact ⟨a, rfl⟩

theorem exists_ended {ω : Type} {m : Run ω ε α} {w : ω} (h : (m w).toOption.isSome = true) :
    ∃ ended w', m w = .ok (ended, w') := by
  cases hrun : m w with
  | error e => simp [hrun, Except.toOption] at h
  | ok r => exact ⟨r.1, r.2, rfl⟩

theorem rejectIf_eq_error {c : Prop} [Decidable c] {e e' : ε} :
    Run.rejectIf c e = .error e' ↔ c ∧ e = e' := by
  unfold Run.rejectIf
  by_cases h : c <;> simp [h]

theorem required_eq_error {value : Option α} {e e' : ε} :
    Run.required value e = .error e' ↔ value = none ∧ e = e' := by
  cases value <;> simp [Run.required]

/-- Every error the step may end in satisfies `E`. -/
def FailsWith (E : ε → Prop) (step : Except ε α) : Prop := ∀ e, step = .error e → E e

theorem failsWith_ok {E : ε → Prop} {a : α} : FailsWith E (.ok a : Except ε α) := by
  intro e h
  cases h

theorem failsWith_error {E : ε → Prop} {e : ε} (h : E e) : FailsWith E (.error e : Except ε α) := by
  intro e' he'
  cases he'
  exact h

theorem failsWith_rejectIf {E : ε → Prop} {c : Prop} [Decidable c] {e : ε} (h : c → E e) :
    FailsWith E (Run.rejectIf c e) := by
  intro e' he'
  obtain ⟨hc, rfl⟩ := rejectIf_eq_error.mp he'
  exact h hc

theorem failsWith_required {E : ε → Prop} {value : Option α} {e : ε} (h : E e) :
    FailsWith E (Run.required value e) := by
  intro e' he'
  obtain ⟨-, rfl⟩ := required_eq_error.mp he'
  exact h

/-- The next step may use the value of the one before. -/
theorem FailsWith.bind {E : ε → Prop} {step : Except ε α} {next : α → Except ε β}
    (h : FailsWith E step) (hnext : ∀ a, step = .ok a → FailsWith E (next a)) :
    FailsWith E (step >>= next) := by
  intro e he
  rcases bind_eq_error.mp he with he | ⟨a, ha, he⟩
  · exact h e he
  · exact hnext a ha e he

theorem FailsWith.map {E : ε → Prop} {step : Except ε α} (h : FailsWith E step) (f : α → β) :
    FailsWith E (step.map f) := by
  intro e he
  cases step with
  | error e' =>
      cases he
      exact h _ rfl
  | ok a => cases he

theorem mapM_congr {f g : ι → Except ε α} {items : List ι} (h : ∀ item ∈ items, f item = g item) :
    items.mapM f = items.mapM g := by
  induction items with
  | nil => rfl
  | cons item items ih =>
      rw [List.mapM_cons, List.mapM_cons, h item (List.mem_cons_self ..),
        ih fun other hother => h other (List.mem_cons_of_mem _ hother)]

theorem mapM_eq_of_forall₂ {κ : Type} {f : ι → Except ε α} {g : κ → Except ε α} {items : List ι}
    {others : List κ} (h : List.Forall₂ (fun item other => f item = g other) items others) :
    items.mapM f = others.mapM g := by
  induction h with
  | nil => rfl
  | cons hitem _ ih => rw [List.mapM_cons, List.mapM_cons, hitem, ih]

/-- What is collected from the items, item by item. -/
theorem map_flatten_mapM (g : α → β) (f : ι → Except ε (List α)) (items : List ι) :
    List.map g <$> List.flatten <$> items.mapM f =
      List.flatten <$> items.mapM fun item => List.map g <$> f item := by
  induction items with
  | nil => rfl
  | cons item items ih =>
      rw [List.mapM_cons, List.mapM_cons]
      cases f item with
      | error fault => rfl
      | ok found =>
          cases hrest : items.mapM f with
          | error fault =>
              rw [hrest] at ih
              cases hmapped : items.mapM fun item => List.map g <$> f item with
              | error fault' =>
                  rw [hmapped] at ih
                  exact ih
              | ok parts =>
                  rw [hmapped] at ih
                  cases ih
          | ok parts =>
              rw [hrest] at ih
              cases hmapped : items.mapM fun item => List.map g <$> f item with
              | error fault' =>
                  rw [hmapped] at ih
                  cases ih
              | ok mapped =>
                  rw [hmapped] at ih
                  have hflatten : parts.flatten.map g = mapped.flatten := Except.ok.inj ih
                  show Except.ok _ = Except.ok _
                  rw [List.flatten_cons, List.flatten_cons, List.map_append, hflatten]

theorem forall₂_zipIdx {κ : Type} {R : ι → κ → Prop} {items : List ι} {others : List κ}
    (h : List.Forall₂ R items others) (offset : ℕ) :
    List.Forall₂ (fun item other => R item.1 other.1 ∧ item.2 = other.2) (items.zipIdx offset)
      (others.zipIdx offset) := by
  induction h generalizing offset with
  | nil => exact .nil
  | cons hitem _ ih => exact .cons ⟨hitem, rfl⟩ (ih (offset + 1))

theorem failsWith_foldlM {E : ε → Prop} {f : β → ι → Except ε β} {items : List ι} {b : β}
    (h : ∀ item ∈ items, ∀ b, FailsWith E (f b item)) : FailsWith E (items.foldlM f b) := by
  induction items generalizing b with
  | nil => exact failsWith_ok
  | cons item items ih =>
      rw [List.foldlM_cons]
      exact (h item (List.mem_cons_self ..) b).bind fun _ _ =>
        ih fun other hother => h other (List.mem_cons_of_mem _ hother)

/-- The same where only the states that satisfy an invariant are met. -/
theorem failsWith_foldlM_of {E : ε → Prop} {P : β → Prop} {f : β → ι → Except ε β}
    {items : List ι} (h : ∀ item ∈ items, ∀ b, P b → FailsWith E (f b item))
    (hkept : ∀ item ∈ items, ∀ b next, P b → f b item = .ok next → P next) :
    ∀ {b : β}, P b → FailsWith E (items.foldlM f b) := by
  induction items with
  | nil =>
      intro _ _
      exact failsWith_ok
  | cons item items ih =>
      intro b hb
      rw [List.foldlM_cons]
      apply (h item (List.mem_cons_self ..) b hb).bind
      intro next hnext
      apply ih
      · exact fun other hother => h other (List.mem_cons_of_mem _ hother)
      · exact fun other hother => hkept other (List.mem_cons_of_mem _ hother)
      · exact hkept item (List.mem_cons_self ..) b next hb hnext

theorem failsWith_mapM {E : ε → Prop} {f : ι → Except ε α} {items : List ι}
    (h : ∀ item ∈ items, FailsWith E (f item)) : FailsWith E (items.mapM f) := by
  induction items with
  | nil =>
      rw [List.mapM_nil]
      exact failsWith_ok
  | cons item items ih =>
      rw [List.mapM_cons]
      apply (h item (List.mem_cons_self ..)).bind
      intro a _
      apply (ih fun other hother => h other (List.mem_cons_of_mem _ hother)).bind
      intro _ _
      exact failsWith_ok

/-- The error a step ended in, if it did. -/
def errorOf : Except ε α → Option ε
  | .ok _ => none
  | .error e => some e

theorem errorOf_eq_some {step : Except ε α} {e : ε} : errorOf step = some e ↔ step = .error e := by
  cases step <;> simp [errorOf]

theorem forall₂_mem_left {R : ι → α → Prop} {items : List ι} {results : List α}
    (h : List.Forall₂ R items results) :
    List.Forall₂ (fun item a => item ∈ items ∧ R item a) items results :=
  (List.forall₂_and_left _ _).mpr ⟨fun _ hitem => hitem, h⟩

theorem exists_of_forall₂ {R : ι → α → Prop} {items : List ι} {results : List α}
    (h : List.Forall₂ R items results) {item : ι} (hitem : item ∈ items) :
    ∃ result ∈ results, R item result := by
  induction h with
  | nil => cases hitem
  | cons hhead _ ih =>
      rcases List.mem_cons.mp hitem with rfl | hitem
      · exact ⟨_, List.mem_cons_self .., hhead⟩
      · obtain ⟨result, hresult, hrelated⟩ := ih hitem
        exact ⟨result, List.mem_cons_of_mem _ hresult, hrelated⟩

theorem forall₂_comp {γ : Type} {R : ι → α → Prop} {S : α → γ → Prop} {items : List ι}
    {middle : List α} {results : List γ} (h : List.Forall₂ R items middle)
    (h' : List.Forall₂ S middle results) :
    List.Forall₂ (fun item result => ∃ a, R item a ∧ S a result) items results := by
  induction h generalizing results with
  | nil =>
      cases h'
      exact .nil
  | cons hhead _ ih =>
      cases h' with
      | cons hhead' htail' => exact .cons ⟨_, hhead, hhead'⟩ (ih htail')

/-- What a relation says of the pairs of another, where it only depends on the left. -/
theorem forall₂_iff_forall {R S : ι → α → Prop} {P : ι → Prop} {items : List ι} {results : List α}
    (h : List.Forall₂ R items results) (hiff : ∀ item a, R item a → (S item a ↔ P item)) :
    List.Forall₂ S items results ↔ ∀ item ∈ items, P item := by
  induction h with
  | nil => simp
  | cons hhead _ ih => rw [List.forall₂_cons, List.forall_mem_cons, hiff _ _ hhead, ih]

/-- A traversal ends in a value where every item does. -/
theorem forM_eq_ok {f : ι → Except ε Unit} {items : List ι} :
    items.forM f = .ok () ↔ ∀ item ∈ items, f item = .ok () := by
  induction items with
  | nil => exact ⟨fun _ _ h => absurd h (List.not_mem_nil), fun _ => rfl⟩
  | cons item items ih =>
      rw [List.forall_mem_cons, ← ih]
      constructor
      · intro h
        obtain ⟨⟨⟩, hitem, hitems⟩ := bind_eq_ok.mp h
        exact ⟨hitem, hitems⟩
      · rintro ⟨hitem, hitems⟩
        exact bind_eq_ok.mpr ⟨(), hitem, hitems⟩

theorem mapM_eq_ok {f : ι → Except ε α} {items : List ι} {results : List α} :
    items.mapM f = .ok results ↔ List.Forall₂ (fun item a => f item = .ok a) items results := by
  induction items generalizing results with
  | nil =>
      rw [List.mapM_nil, List.forall₂_nil_left_iff]
      constructor
      · intro h
        cases h
        rfl
      · rintro rfl
        rfl
  | cons item items ih =>
      rw [List.mapM_cons, bind_eq_ok, List.forall₂_cons_left_iff]
      constructor
      · rintro ⟨a, ha, h⟩
        obtain ⟨rest, hrest, h⟩ := bind_eq_ok.mp h
        cases h
        exact ⟨a, rest, ha, ih.mp hrest, rfl⟩
      · rintro ⟨a, rest, ha, hrest, rfl⟩
        exact ⟨a, ha, bind_eq_ok.mpr ⟨rest, ih.mpr hrest, rfl⟩⟩

/-- A traversal of two sequences is one of each. -/
theorem mapM_append_eq_ok {f : ι → Except ε α} {items items' : List ι} {results : List α} :
    (items ++ items').mapM f = .ok results ↔ ∃ head tail, items.mapM f = .ok head ∧
      items'.mapM f = .ok tail ∧ results = head ++ tail := by
  rw [List.mapM_append, bind_eq_ok]
  constructor
  · rintro ⟨head, hhead, h⟩
    obtain ⟨tail, htail, h⟩ := bind_eq_ok.mp h
    cases h
    exact ⟨head, tail, hhead, htail, rfl⟩
  · rintro ⟨head, tail, hhead, htail, rfl⟩
    exact ⟨head, hhead, bind_eq_ok.mpr ⟨tail, htail, rfl⟩⟩

theorem mapM_cons_eq_ok {f : ι → Except ε α} {item : ι} {items : List ι} {results : List α} :
    (item :: items).mapM f = .ok results ↔ ∃ head tail, f item = .ok head ∧
      items.mapM f = .ok tail ∧ results = head :: tail := by
  rw [List.mapM_cons, bind_eq_ok]
  constructor
  · rintro ⟨head, hhead, h⟩
    obtain ⟨tail, htail, h⟩ := bind_eq_ok.mp h
    cases h
    exact ⟨head, tail, hhead, htail, rfl⟩
  · rintro ⟨head, tail, hhead, htail, rfl⟩
    exact ⟨head, hhead, bind_eq_ok.mpr ⟨tail, htail, rfl⟩⟩

/-- What holds of every result of a step holds of the results. -/
theorem forall_of_mapM {f : ι → Except ε α} {P : α → Prop} {items : List ι} {results : List α}
    (h : items.mapM f = .ok results) (hstep : ∀ item ∈ items, ∀ a, f item = .ok a → P a) :
    ∀ a ∈ results, P a := by
  have hpairs := forall₂_mem_left (mapM_eq_ok.mp h)
  intro a ha
  obtain ⟨item, -, hitem, hresult⟩ := exists_of_forall₂ hpairs.flip ha
  exact hstep item hitem a hresult

/-- What is made of each result is made of all results. -/
theorem mapM_map_eq_ok {f : ι → Except ε α} {g : α → β} {items : List ι} :
    ∀ {results : List β}, items.mapM (fun item => g <$> f item) = .ok results ↔
      ∃ found, items.mapM f = .ok found ∧ results = found.map g := by
  induction items with
  | nil =>
      intro results
      constructor
      · rintro ⟨⟩
        exact ⟨[], rfl, rfl⟩
      · rintro ⟨_, ⟨⟩, rfl⟩
        rfl
  | cons item items ih =>
      intro results
      rw [mapM_cons_eq_ok]
      constructor
      · rintro ⟨_, _, hhead, htail, rfl⟩
        obtain ⟨head, hfound, rfl⟩ := map_eq_ok.mp hhead
        obtain ⟨tail, hrest, rfl⟩ := ih.mp htail
        exact ⟨head :: tail, mapM_cons_eq_ok.mpr ⟨head, tail, hfound, hrest, rfl⟩, rfl⟩
      · rintro ⟨_, hfound, rfl⟩
        obtain ⟨head, tail, hhead, htail, rfl⟩ := mapM_cons_eq_ok.mp hfound
        exact ⟨g head, tail.map g, map_eq_ok.mpr ⟨head, hhead, rfl⟩, ih.mpr ⟨tail, htail, rfl⟩, rfl⟩

theorem exists_mapM {f : ι → Except ε α} {items : List ι}
    (h : ∀ item ∈ items, ∃ result, f item = .ok result) :
    ∃ results, items.mapM f = .ok results := by
  induction items with
  | nil => exact ⟨[], rfl⟩
  | cons item items ih =>
      obtain ⟨⟨result, hresult⟩, hitems⟩ := List.forall_mem_cons.mp h
      obtain ⟨results, hresults⟩ := ih hitems
      exact ⟨_, mapM_cons_eq_ok.mpr ⟨result, results, hresult, hresults, rfl⟩⟩

/-- The first item that fails ends the list. -/
theorem mapM_eq_error {f : ι → Except ε α} {items : List ι} {e : ε} :
    items.mapM f = .error e ↔ ∃ before item after, items = before ++ item :: after ∧
      (∀ earlier ∈ before, ∃ result, f earlier = .ok result) ∧ f item = .error e := by
  induction items with
  | nil =>
      rw [List.mapM_nil]
      constructor
      · intro h
        cases h
      · rintro ⟨before, item, after, heq, -⟩
        exact absurd heq (by simp)
  | cons head items ih =>
      rw [List.mapM_cons, bind_eq_error]
      constructor
      · rintro (h | ⟨result, hresult, h⟩)
        · exact ⟨[], head, items, rfl, by simp, h⟩
        · rcases bind_eq_error.mp h with h | ⟨_, _, h⟩
          · obtain ⟨before, item, after, rfl, hbefore, hitem⟩ := ih.mp h
            exact ⟨head :: before, item, after, rfl,
              List.forall_mem_cons.mpr ⟨⟨result, hresult⟩, hbefore⟩, hitem⟩
          · cases h
      · rintro ⟨before, item, after, heq, hbefore, hitem⟩
        cases before with
        | nil =>
            obtain ⟨rfl, rfl⟩ := List.cons.inj heq
            exact .inl hitem
        | cons earlier before =>
            obtain ⟨rfl, rfl⟩ := List.cons.inj heq
            obtain ⟨⟨result, hresult⟩, hbefore⟩ := List.forall_mem_cons.mp hbefore
            exact .inr ⟨result, hresult, bind_eq_error.mpr (.inl (ih.mpr
              ⟨before, item, after, rfl, hbefore, hitem⟩))⟩

/-! ## Items in their order -/

/-- `P` holds at every item of the list, given the items before it. -/
def AtEach (P : List ι → ι → Prop) (items : List ι) : Prop :=
  ∀ before item after, items = before ++ item :: after → P before item

theorem atEach_nil {P : List ι → ι → Prop} : AtEach P [] := by
  intro before item after h
  exact absurd h (by simp)

theorem atEach_snoc {P : List ι → ι → Prop} {items : List ι} {last : ι} :
    AtEach P (items ++ [last]) ↔ AtEach P items ∧ P items last := by
  constructor
  · intro h
    refine ⟨?_, h items last [] rfl⟩
    rintro before item after rfl
    exact h before item (after ++ [last]) (by simp)
  · rintro ⟨hitems, hlast⟩ before item after heq
    rcases List.eq_nil_or_concat after with rfl | ⟨after, other, rfl⟩
    · obtain ⟨rfl, hitem⟩ := List.append_inj' heq rfl
      obtain rfl := List.singleton_inj.mp hitem
      exact hlast
    · refine hitems before item after ?_
      rw [List.concat_eq_append, ← List.cons_append, ← List.append_assoc] at heq
      exact (List.append_inj' heq rfl).1

section Fold

variable {f : α → ι → Except ε α} {P : List ι → α → Prop} {E : ε → Prop}

/-- The first step that fails ends the run. -/
theorem foldlM_eq_error {items : List ι} {e : ε} : ∀ {a : α}, items.foldlM f a = .error e ↔
    ∃ before item after current, items = before ++ item :: after ∧
      before.foldlM f a = .ok current ∧ f current item = .error e := by
  induction items with
  | nil =>
      intro a
      constructor
      · intro h
        cases h
      · rintro ⟨before, item, after, current, heq, -⟩
        exact absurd heq (by simp)
  | cons head items ih =>
      intro a
      rw [List.foldlM_cons, bind_eq_error]
      constructor
      · rintro (h | ⟨next, hnext, h⟩)
        · exact ⟨[], head, items, a, rfl, rfl, h⟩
        · obtain ⟨before, item, after, current, rfl, hbefore, hitem⟩ := ih.mp h
          exact ⟨head :: before, item, after, current, rfl,
            bind_eq_ok.mpr ⟨next, hnext, hbefore⟩, hitem⟩
      · rintro ⟨before, item, after, current, heq, hbefore, hitem⟩
        cases before with
        | nil =>
            obtain ⟨rfl, rfl⟩ := List.cons.inj heq
            cases hbefore
            exact .inl hitem
        | cons earlier before =>
            obtain ⟨rfl, rfl⟩ := List.cons.inj heq
            obtain ⟨next, hnext, hbefore⟩ := bind_eq_ok.mp hbefore
            exact .inr ⟨next, hnext, ih.mpr
              ⟨before, item, after, current, rfl, hbefore, hitem⟩⟩

/-- A run from the middle of its items. -/
theorem foldlM_invariant_from {l : List ι} (hstep : ∀ done item current next, item ∈ l →
      P done current → f current item = .ok next → P (done ++ [item]) next) :
    ∀ {done current last}, P done current → l.foldlM f current = .ok last → P (done ++ l) last := by
  induction l with
  | nil =>
      intro done current last h hrun
      cases hrun
      rw [List.append_nil]
      exact h
  | cons item items ih =>
      intro done current last h hrun
      rw [List.foldlM_cons] at hrun
      obtain ⟨next, hnext, hrest⟩ := bind_eq_ok.mp hrun
      rw [List.append_cons]
      apply ih _ (hstep done item current next (List.mem_cons_self ..) h hnext) hrest
      intro done' item' current' next' hmem
      exact hstep done' item' current' next' (List.mem_cons_of_mem _ hmem)

/-- The run rule.  The invariant speaks of the items done so far and of the state. -/
theorem foldlM_invariant {l : List ι} {a last : α} (hstart : P [] a)
    (hstep : ∀ done item current next, item ∈ l → P done current → f current item = .ok next →
      P (done ++ [item]) next) (hrun : l.foldlM f a = .ok last) : P l last :=
  foldlM_invariant_from hstep hstart hrun

theorem foldlM_ok_or_error_from {l : List ι} (hstep : ∀ done item current, item ∈ l →
      P done current → (∃ next, f current item = .ok next ∧ P (done ++ [item]) next) ∨
        ∃ e, f current item = .error e ∧ E e) :
    ∀ {done current}, P done current →
      (∃ last, l.foldlM f current = .ok last ∧ P (done ++ l) last) ∨
        ∃ e, l.foldlM f current = .error e ∧ E e := by
  induction l with
  | nil =>
      intro done current h
      refine .inl ⟨current, rfl, ?_⟩
      rw [List.append_nil]
      exact h
  | cons item items ih =>
      intro done current h
      rw [List.foldlM_cons, List.append_cons]
      rcases hstep done item current (List.mem_cons_self ..) h with
        ⟨next, hnext, hinvariant⟩ | ⟨e, herror, he⟩
      · rw [hnext]
        exact ih (fun done' item' current' hmem =>
          hstep done' item' current' (List.mem_cons_of_mem _ hmem)) hinvariant
      · rw [herror]
        exact .inr ⟨e, rfl, he⟩

/-- The progress rule: where the invariant lets every step end in a value or in an error of the kind
`E`, so does a run. -/
theorem foldlM_ok_or_error {l : List ι} {a : α} (hstart : P [] a)
    (hstep : ∀ done item current, item ∈ l → P done current →
      (∃ next, f current item = .ok next ∧ P (done ++ [item]) next) ∨
        ∃ e, f current item = .error e ∧ E e) :
    (∃ last, l.foldlM f a = .ok last ∧ P l last) ∨ ∃ e, l.foldlM f a = .error e ∧ E e :=
  foldlM_ok_or_error_from hstep hstart

/-- The same without errors. -/
theorem exists_foldlM {l : List ι} {a : α} (hstart : P [] a)
    (hstep : ∀ done item current, item ∈ l → P done current →
      ∃ next, f current item = .ok next ∧ P (done ++ [item]) next) :
    ∃ last, l.foldlM f a = .ok last ∧ P l last := by
  rcases foldlM_ok_or_error (E := fun _ => False) hstart
    (fun done item current hmem h => .inl (hstep done item current hmem h)) with h | ⟨_, _, h⟩
  · exact h
  · exact h.elim

end Fold

/-- A run that appends what each item yields: a pure account of the items is one of the run. -/
theorem collect_eq_ok {f : ι → Except ε (List α)} {g : ι → List α} {items : List ι}
    (hitem : ∀ item ∈ items, ∀ found, f item = .ok found → found = g item) {done result : List α}
    (h : items.foldlM (fun done item => do
      let found ← f item
      .ok (done ++ found)) done = .ok result) : result = done ++ items.flatMap g := by
  apply foldlM_invariant (P := fun seen current => current = done ++ seen.flatMap g)
    (List.append_nil _).symm _ h
  · intro seen item current next hmem hcurrent hnext
    obtain ⟨found, hfound, heq⟩ := bind_eq_ok.mp hnext
    cases heq
    rw [hcurrent, hitem item hmem found hfound, List.flatMap_append, List.append_assoc,
      List.flatMap_singleton]

theorem lift_ok_bind {ω : Type} {a : α} {next : α → Run ω ε β} :
    Run.lift (.ok a) >>= next = next a := rfl

/-- A fold over items that a pure step reads first is the fold over what it reads. -/
theorem foldlM_eq_of_mapM {ω σ : Type} {f : ι → Except ε α} {items : List ι} {results : List α}
    (h : items.mapM f = .ok results) (step : σ → α → Run ω ε σ) (state : σ) :
    items.foldlM (fun state item => Run.lift (f item) >>= step state) state =
      results.foldlM step state := by
  induction items generalizing results state with
  | nil =>
      cases h
      rfl
  | cons item items ih =>
      obtain ⟨a, rest, ha, hrest, rfl⟩ := mapM_cons_eq_ok.mp h
      rw [List.foldlM_cons, List.foldlM_cons, ha, lift_ok_bind]
      congr 1
      funext next
      exact ih hrest next

/-- A step that reads its item and appends what it found folds to all that is found. -/
theorem foldlM_eq_map_mapM {σ : Type} {state : List α → σ} {f : σ → ι → Except ε σ}
    {g : ι → Except ε (List α)} {items : List ι} (h : ∀ item ∈ items, ∀ seen,
      f (state seen) item = (fun found => state (seen ++ found)) <$> g item) (seen : List α) :
    items.foldlM f (state seen) =
      (fun found => state (seen ++ found.flatten)) <$> items.mapM g := by
  induction items generalizing seen with
  | nil =>
      rw [List.mapM_nil, List.foldlM_nil]
      show _ = Except.ok (state (seen ++ [].flatten))
      rw [List.flatten_nil, List.append_nil]
      rfl
  | cons item items ih =>
      rw [List.foldlM_cons, List.mapM_cons, h item List.mem_cons_self]
      cases g item with
      | error e => rfl
      | ok found =>
          show items.foldlM f (state (seen ++ found)) = _
          rw [ih (fun other hother => h other (List.mem_cons_of_mem _ hother)), ok_bind]
          cases items.mapM g with
          | error e => rfl
          | ok rest =>
              show Except.ok (state (seen ++ found ++ rest.flatten)) =
                Except.ok (state (seen ++ (found :: rest).flatten))
              rw [List.flatten_cons, List.append_assoc]

/-- A fold over pairs whose steps are steps of the sides. -/
theorem foldlM_pair_eq_ok {σ τ : Type} {f : σ → ι → Except ε σ} {g : τ → ι → Except ε τ}
    {step : σ × τ → ι → Except ε (σ × τ)} {P : σ → Prop} {items : List ι}
    (hkept : ∀ item ∈ items, ∀ s s', P s → f s item = .ok s' → P s')
    (hstep : ∀ item ∈ items, ∀ s t s' t', P s →
      (step (s, t) item = .ok (s', t') ↔ f s item = .ok s' ∧ g t item = .ok t')) :
    ∀ {s s' : σ} {t t' : τ}, P s → (items.foldlM step (s, t) = .ok (s', t') ↔
      items.foldlM f s = .ok s' ∧ items.foldlM g t = .ok t') := by
  induction items with
  | nil =>
      intro s s' t t' _
      simp [pure, Except.pure]
  | cons item items ih =>
      intro s s' t t' hs
      have htail := @ih (fun other hother => hkept other (List.mem_cons_of_mem _ hother))
        (fun other hother => hstep other (List.mem_cons_of_mem _ hother))
      have hhead := hstep item (List.mem_cons_self ..)
      simp only [List.foldlM_cons, bind_eq_ok]
      constructor
      · rintro ⟨⟨middle, middle'⟩, hfirst, hrest⟩
        obtain ⟨hf, hg⟩ := (hhead _ _ _ _ hs).mp hfirst
        obtain ⟨hf', hg'⟩ := (htail (hkept item (List.mem_cons_self ..) _ _ hs hf)).mp hrest
        exact ⟨⟨middle, hf, hf'⟩, middle', hg, hg'⟩
      · rintro ⟨⟨middle, hf, hf'⟩, middle', hg, hg'⟩
        exact ⟨(middle, middle'), (hhead _ _ _ _ hs).mpr ⟨hf, hg⟩,
          (htail (hkept item (List.mem_cons_self ..) _ _ hs hf)).mpr ⟨hf', hg'⟩⟩

end ProofFrame.Lib
