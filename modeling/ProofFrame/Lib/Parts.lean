import Mathlib.Algebra.Order.Group.Multiset
import ProofFrame.Lib.Steps

/-!
# Going over a sequence in parts

A step takes a state over a sequence and finds things on the way.  Where it goes
over the items one at a time, going over the whole is going over a first part
and then over the rest.  Several such steps side by side have the property too,
if the order of what they find is forgotten.
-/

namespace ProofFrame.Lib

variable {ε ι σ τ α : Type}

/-! ## Collecting -/

theorem collect_from (f : ι → Except ε (List α)) (items : List ι) : ∀ done : List α,
    items.foldlM (fun done item => do
      let next ← f item
      .ok (done ++ next)) done =
    (do
      let rest ← items.foldlM (fun done item => do
        let next ← f item
        .ok (done ++ next)) []
      .ok (done ++ rest)) := by
  induction items with
  | nil =>
      intro done
      show Except.ok done = .ok (done ++ [])
      rw [List.append_nil]
  | cons item items ih =>
      intro done
      rw [List.foldlM_cons, List.foldlM_cons]
      cases f item with
      | error => rfl
      | ok next =>
          show items.foldlM _ (done ++ next) = items.foldlM _ ([] ++ next) >>= _
          rw [ih, ih ([] ++ next), bind_assoc, List.nil_append]
          congr 1
          funext rest
          show Except.ok (done ++ next ++ rest) = .ok (done ++ (next ++ rest))
          rw [List.append_assoc]

/-- What the items yield is changed where each of them yields something changed. -/
theorem collect_map {g : α → α} {f f' : ι → Except ε (List α)} {items : List ι}
    (h : ∀ item ∈ items, f' item = List.map g <$> f item) : ∀ done : List α,
    items.foldlM (fun done item => do
      let next ← f' item
      .ok (done ++ next)) (done.map g) =
    List.map g <$> items.foldlM (fun done item => do
      let next ← f item
      .ok (done ++ next)) done := by
  induction items with
  | nil =>
      intro done
      rfl
  | cons item items ih =>
      intro done
      rw [List.foldlM_cons, List.foldlM_cons, h item (List.mem_cons_self ..)]
      cases f item with
      | error => rfl
      | ok next =>
          show items.foldlM _ (done.map g ++ next.map g) =
            List.map g <$> items.foldlM _ (done ++ next)
          rw [← List.map_append]
          exact ih (fun other hother => h other (List.mem_cons_of_mem _ hother)) (done ++ next)

/-- What two sequences yield is what the first yields and then what the second does. -/
theorem collect_append (f : ι → Except ε (List α)) (items items' : List ι) :
    (items ++ items').foldlM (fun done item => do
      let next ← f item
      .ok (done ++ next)) [] =
    (do
      let before ← items.foldlM (fun done item => do
        let next ← f item
        .ok (done ++ next)) []
      let after ← items'.foldlM (fun done item => do
        let next ← f item
        .ok (done ++ next)) []
      .ok (before ++ after)) := by
  rw [List.foldlM_append]
  congr 1
  funext before
  exact collect_from f items' before

/-- The whole yields what the first part does and then what the second does. -/
def Concatenates (whole left right : Except ε (List α)) : Prop :=
  ∀ list, whole = .ok list ↔
    ∃ before after, left = .ok before ∧ right = .ok after ∧ list = before ++ after

theorem Concatenates.of_eq {whole left right : Except ε (List α)}
    (h : whole = (do
      let before ← left
      let after ← right
      .ok (before ++ after))) : Concatenates whole left right := by
  intro list
  rw [h]
  constructor
  · intro hwhole
    obtain ⟨before, hleft, hwhole⟩ := bind_eq_ok.mp hwhole
    obtain ⟨after, hright, hwhole⟩ := bind_eq_ok.mp hwhole
    cases hwhole
    exact ⟨before, after, hleft, hright, rfl⟩
  · rintro ⟨before, after, hleft, hright, rfl⟩
    exact bind_eq_ok.mpr ⟨before, hleft, bind_eq_ok.mpr ⟨after, hright, rfl⟩⟩

theorem concatenates_error (e : ε) : Concatenates (.error e : Except ε (List α)) (.error e) (.error e) :=
  .of_eq rfl

/-- A computation may read the whole of what two parts yield first. -/
theorem Concatenates.bind {β : Type} {whole left right : Except ε (List α)}
    {next nextLeft nextRight : List α → Except ε (List β)} (h : Concatenates whole left right)
    (hnext : ∀ before after, left = .ok before → right = .ok after →
      Concatenates (next (before ++ after)) (nextLeft before) (nextRight after)) :
    Concatenates (whole >>= next) (left >>= nextLeft) (right >>= nextRight) := by
  intro list
  constructor
  · intro hwhole
    obtain ⟨read, hread, hwhole⟩ := bind_eq_ok.mp hwhole
    obtain ⟨before, after, hleft, hright, rfl⟩ := (h read).mp hread
    obtain ⟨first, second, hfirst, hsecond, rfl⟩ :=
      (hnext before after hleft hright list).mp hwhole
    exact ⟨first, second, bind_eq_ok.mpr ⟨before, hleft, hfirst⟩,
      bind_eq_ok.mpr ⟨after, hright, hsecond⟩, rfl⟩
  · rintro ⟨first, second, hfirst, hsecond, rfl⟩
    obtain ⟨before, hleft, hfirst⟩ := bind_eq_ok.mp hfirst
    obtain ⟨after, hright, hsecond⟩ := bind_eq_ok.mp hsecond
    exact bind_eq_ok.mpr ⟨before ++ after, (h _).mpr ⟨before, after, hleft, hright, rfl⟩,
      (hnext before after hleft hright _).mpr ⟨first, second, hfirst, hsecond, rfl⟩⟩

/-! ## What is found, in any order -/

/-- The step finds exactly these, in some order. -/
def Finds (step : Except ε (List α)) (found : Multiset α) : Prop :=
  ∃ list : List α, step = .ok list ∧ found = list

/-- The whole finds what its two parts find. -/
def Combines (whole left right : Except ε (List α)) : Prop :=
  ∀ found, Finds whole found ↔
    ∃ before after, Finds left before ∧ Finds right after ∧ found = before + after

theorem Concatenates.combines {whole left right : Except ε (List α)}
    (h : Concatenates whole left right) : Combines whole left right := by
  intro found
  constructor
  · rintro ⟨list, hwhole, rfl⟩
    obtain ⟨before, after, hleft, hright, rfl⟩ := (h list).mp hwhole
    exact ⟨before, after, ⟨before, hleft, rfl⟩, ⟨after, hright, rfl⟩, rfl⟩
  · rintro ⟨_, _, ⟨before, hleft, rfl⟩, ⟨after, hright, rfl⟩, rfl⟩
    exact ⟨before ++ after, (h _).mpr ⟨before, after, hleft, hright, rfl⟩, rfl⟩

theorem finds_cons {f : ι → Except ε (List α)} {item : ι} {items : List ι} {found : Multiset α} :
    Finds ((item :: items).foldlM (fun done item => do
      let next ← f item
      .ok (done ++ next)) []) found ↔
    ∃ head tail, Finds (f item) head ∧ Finds (items.foldlM (fun done item => do
      let next ← f item
      .ok (done ++ next)) []) tail ∧ found = head + tail := by
  have happend := collect_append f [item] items
  rw [List.singleton_append] at happend
  have hsingle : [item].foldlM (fun done item => do
      let next ← f item
      .ok (done ++ next)) [] = f item := by
    rw [List.foldlM_cons]
    cases f item <;> rfl
  rw [hsingle] at happend
  exact (Concatenates.of_eq happend).combines found

/-- Several things found in the whole are found in the parts. -/
theorem Combines.collect {whole left right : ι → Except ε (List α)}
    (h : ∀ item, Combines (whole item) (left item) (right item)) (items : List ι) :
    Combines
      (items.foldlM (fun done item => do
        let next ← whole item
        .ok (done ++ next)) [])
      (items.foldlM (fun done item => do
        let next ← left item
        .ok (done ++ next)) [])
      (items.foldlM (fun done item => do
        let next ← right item
        .ok (done ++ next)) []) := by
  induction items with
  | nil =>
      intro found
      constructor
      · rintro ⟨list, hlist, rfl⟩
        cases hlist
        exact ⟨0, 0, ⟨[], rfl, rfl⟩, ⟨[], rfl, rfl⟩, rfl⟩
      · rintro ⟨_, _, ⟨_, hleft, rfl⟩, ⟨_, hright, rfl⟩, rfl⟩
        cases hleft
        cases hright
        exact ⟨[], rfl, rfl⟩
  | cons item items ih =>
      intro found
      simp only [finds_cons]
      constructor
      · rintro ⟨_, _, hhead, htail, rfl⟩
        obtain ⟨before, after, hbefore, hafter, rfl⟩ := (h item _).mp hhead
        obtain ⟨before', after', hbefore', hafter', rfl⟩ := (ih _).mp htail
        exact ⟨_, _, ⟨_, _, hbefore, hbefore', rfl⟩, ⟨_, _, hafter, hafter', rfl⟩,
          add_add_add_comm before after before' after'⟩
      · rintro ⟨_, _, ⟨before, before', hbefore, hbefore', rfl⟩, ⟨after, after', hafter, hafter', rfl⟩,
          rfl⟩
        exact ⟨_, _, (h item _).mpr ⟨_, _, hbefore, hafter, rfl⟩,
          (ih _).mpr ⟨_, _, hbefore', hafter', rfl⟩, add_add_add_comm before before' after after'⟩

/-- The same where each item yields a list of its own. -/
theorem collect_eq_mapM_flatten (f : ι → Except ε (List α)) (items : List ι) :
    items.foldlM (fun done item => do
      let next ← f item
      .ok (done ++ next)) [] =
    List.flatten <$> items.mapM f := by
  induction items with
  | nil => rfl
  | cons item items ih =>
      have happend := collect_append f [item] items
      rw [List.singleton_append] at happend
      rw [happend, ih, List.mapM_cons, List.foldlM_cons]
      cases f item with
      | error => rfl
      | ok found => cases items.mapM f <;> rfl

/-! ## States -/

/-- Taking a state over the whole is taking it over the two parts in turn. -/
def Sequential (whole left right : σ → Except ε σ) : Prop :=
  ∀ state last, whole state = .ok last ↔
    ∃ middle, left state = .ok middle ∧ right middle = .ok last

theorem Sequential.of_eq {whole left right : σ → Except ε σ}
    (h : ∀ state, whole state = left state >>= right) : Sequential whole left right := by
  intro state last
  rw [h, bind_eq_ok]

/-- Several states side by side. -/
theorem Sequential.mapM {whole left right : σ → Except ε σ} (h : Sequential whole left right) :
    Sequential (List.mapM whole) (List.mapM left) (List.mapM right) := by
  intro states lasts
  constructor
  · intro hwhole
    rw [mapM_eq_ok] at hwhole
    induction hwhole with
    | nil => exact ⟨[], rfl, rfl⟩
    | cons hhead _ ih =>
        obtain ⟨middle, hleft, hright⟩ := (h _ _).mp hhead
        obtain ⟨middles, hlefts, hrights⟩ := ih
        exact ⟨middle :: middles, mapM_cons_eq_ok.mpr ⟨_, _, hleft, hlefts, rfl⟩,
          mapM_cons_eq_ok.mpr ⟨_, _, hright, hrights, rfl⟩⟩
  · rintro ⟨middles, hlefts, hrights⟩
    rw [mapM_eq_ok] at hlefts hrights ⊢
    apply (forall₂_comp hlefts hrights).imp
    rintro state last ⟨middle, hleft, hright⟩
    exact (h state last).mpr ⟨middle, hleft, hright⟩

/-! ## States and what is found -/

/-- The step ends in the state and finds exactly these, in some order. -/
def Yields (step : Except ε (σ × List α)) (last : σ) (found : Multiset α) : Prop :=
  ∃ list : List α, step = .ok (last, list) ∧ found = list

theorem Yields.unique {step : Except ε (σ × List α)} {last last' : σ} {found found' : Multiset α}
    (h : Yields step last found) (h' : Yields step last' found') : last = last' ∧ found = found' := by
  obtain ⟨list, hstep, rfl⟩ := h
  obtain ⟨list', hstep', rfl⟩ := h'
  rw [hstep] at hstep'
  cases hstep'
  exact ⟨rfl, rfl⟩

/-- The same of a step that finds things, but not of the order in which it finds them. -/
def Consecutive (whole left right : σ → Except ε (σ × List α)) : Prop :=
  ∀ state last found, Yields (whole state) last found ↔
    ∃ middle before after, Yields (left state) middle before ∧ Yields (right middle) last after ∧
      found = before + after

theorem Consecutive.of_eq {whole left right : σ → Except ε (σ × List α)}
    (h : ∀ state, whole state = (do
      let (middle, before) ← left state
      let (last, after) ← right middle
      .ok (last, before ++ after))) : Consecutive whole left right := by
  intro state last found
  constructor
  · rintro ⟨list, hwhole, rfl⟩
    rw [h] at hwhole
    obtain ⟨⟨middle, before⟩, hleft, hwhole⟩ := bind_eq_ok.mp hwhole
    obtain ⟨⟨last', after⟩, hright, hwhole⟩ := bind_eq_ok.mp hwhole
    cases hwhole
    exact ⟨middle, before, after, ⟨before, hleft, rfl⟩, ⟨after, hright, rfl⟩, rfl⟩
  · rintro ⟨middle, _, _, ⟨before, hleft, rfl⟩, ⟨after, hright, rfl⟩, rfl⟩
    refine ⟨before ++ after, ?_, rfl⟩
    rw [h]
    exact bind_eq_ok.mpr ⟨_, hleft, bind_eq_ok.mpr ⟨_, hright, rfl⟩⟩

/-- A rule that looks at its part once, and takes its state and its findings from what it saw. -/
theorem Consecutive.of_concatenates {β : Type} (whole left right : σ → Except ε (List β))
    (update : σ → List β → σ) (report : List β → List α)
    (hright : ∀ state seen, right (update state seen) = right state)
    (h : ∀ state, Concatenates (whole state) (left state) (right state))
    (hupdate : ∀ state before after,
      update (update state before) after = update state (before ++ after))
    (hreport : ∀ before after, report (before ++ after) = report before ++ report after) :
    Consecutive
      (fun state => do
        let seen ← whole state
        .ok (update state seen, report seen))
      (fun state => do
        let seen ← left state
        .ok (update state seen, report seen))
      (fun state => do
        let seen ← right state
        .ok (update state seen, report seen)) := by
  intro state last found
  constructor
  · rintro ⟨list, hwhole, rfl⟩
    obtain ⟨seen, hseen, hwhole⟩ := bind_eq_ok.mp hwhole
    cases hwhole
    obtain ⟨before, after, hbefore, hafter, rfl⟩ := (h state seen).mp hseen
    refine ⟨update state before, report before, report after,
      ⟨_, bind_eq_ok.mpr ⟨before, hbefore, rfl⟩, rfl⟩,
      ⟨_, bind_eq_ok.mpr ⟨after, (hright state before).trans hafter, ?_⟩, rfl⟩, ?_⟩
    · rw [hupdate]
    · rw [hreport]
      rfl
  · rintro ⟨middle, _, _, ⟨first, hfirst, rfl⟩, ⟨second, hsecond, rfl⟩, rfl⟩
    obtain ⟨before, hbefore, hfirst⟩ := bind_eq_ok.mp hfirst
    cases hfirst
    obtain ⟨after, hafter, hsecond⟩ := bind_eq_ok.mp hsecond
    cases hsecond
    rw [hright] at hafter
    refine ⟨report (before ++ after),
      bind_eq_ok.mpr ⟨before ++ after, (h state _).mpr ⟨before, after, hbefore, hafter, rfl⟩, ?_⟩, ?_⟩
    · rw [hupdate]
    · rw [hreport]
      rfl

/-- Going over a sequence item by item, with a state. -/
theorem foldlM_pair_from (step : σ → ι → Except ε (σ × List α)) (items : List ι) :
    ∀ (state : σ) (done : List α),
      items.foldlM (fun (state, done) item => do
        let (next, more) ← step state item
        .ok (next, done ++ more)) (state, done) =
      (do
        let (last, rest) ← items.foldlM (fun (state, done) item => do
          let (next, more) ← step state item
          .ok (next, done ++ more)) (state, [])
        .ok (last, done ++ rest)) := by
  induction items with
  | nil =>
      intro state done
      show Except.ok (state, done) = .ok (state, done ++ [])
      rw [List.append_nil]
  | cons item items ih =>
      intro state done
      rw [List.foldlM_cons, List.foldlM_cons]
      dsimp only
      cases step state item with
      | error => rfl
      | ok ended =>
          obtain ⟨next, more⟩ := ended
          show items.foldlM _ (next, done ++ more) = items.foldlM _ (next, [] ++ more) >>= _
          rw [ih, ih next ([] ++ more), bind_assoc, List.nil_append]
          congr 1
          funext ⟨last, rest⟩
          show Except.ok (last, done ++ more ++ rest) = .ok (last, done ++ (more ++ rest))
          rw [List.append_assoc]

theorem foldlM_pair_append (step : σ → ι → Except ε (σ × List α)) (items items' : List ι)
    (state : σ) :
    (items ++ items').foldlM (fun (state, done) item => do
      let (next, more) ← step state item
      .ok (next, done ++ more)) (state, []) =
    (do
      let (middle, before) ← items.foldlM (fun (state, done) item => do
        let (next, more) ← step state item
        .ok (next, done ++ more)) (state, [])
      let (last, after) ← items'.foldlM (fun (state, done) item => do
        let (next, more) ← step state item
        .ok (next, done ++ more)) (middle, [])
      .ok (last, before ++ after)) := by
  rw [List.foldlM_append]
  congr 1
  funext ⟨middle, before⟩
  exact foldlM_pair_from step items' middle before

end ProofFrame.Lib
