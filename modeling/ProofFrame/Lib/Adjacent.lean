import Mathlib.Data.List.Basic
import Mathlib.Data.List.ReduceOption

/-!
# Neighbours in a list
-/

namespace ProofFrame.Lib

variable {α β : Type*}

/-- Each item with the one after it. -/
def adjacent (items : List α) : List (α × α) := items.zip items.tail

@[simp] theorem adjacent_nil : adjacent ([] : List α) = [] := rfl

@[simp] theorem adjacent_singleton (item : α) : adjacent [item] = [] := rfl

@[simp] theorem adjacent_cons_cons (first second : α) (items : List α) :
    adjacent (first :: second :: items) = (first, second) :: adjacent (second :: items) := rfl

/-- A new last item has the old one for its neighbour. -/
theorem adjacent_append_singleton (items : List α) (item : α) :
    adjacent (items ++ [item]) = adjacent items ++ (items.getLast?.map (·, item)).toList := by
  induction items with
  | nil => rfl
  | cons first rest ih =>
      cases rest with
      | nil => rfl
      | cons second rest =>
          simp only [List.cons_append, adjacent_cons_cons] at ih ⊢
          rw [ih, List.getLast?_cons_cons]

theorem adjacent_subset_append (items more : List α) :
    adjacent items ⊆ adjacent (items ++ more) := by
  induction more generalizing items with
  | nil => simp
  | cons item more ih =>
      rw [List.append_cons]
      refine List.Subset.trans ?_ (ih (items ++ [item]))
      rw [adjacent_append_singleton]
      exact List.subset_append_left _ _

theorem adjacent_map (f : α → β) (items : List α) :
    adjacent (items.map f) = (adjacent items).map (Prod.map f f) := by
  rw [adjacent, adjacent, ← List.map_tail, List.zip_map]

/-- Under a transitive relation, neighbours speak for all. -/
theorem forall_mem_adjacent_iff_pairwise {R : α → α → Prop}
    (htrans : ∀ a b c, R a b → R b c → R a c) {items : List α} :
    (∀ pair ∈ adjacent items, R pair.1 pair.2) ↔ items.Pairwise R := by
  induction items with
  | nil => simp
  | cons first rest ih =>
      cases rest with
      | nil => simp
      | cons second rest =>
          rw [adjacent_cons_cons, List.forall_mem_cons, ih, @List.pairwise_cons _ _ first]
          refine ⟨fun ⟨hfirst, hrest⟩ => ⟨?_, hrest⟩, fun ⟨hfirst, hrest⟩ =>
            ⟨hfirst second List.mem_cons_self, hrest⟩⟩
          intro item hitem
          rcases List.mem_cons.mp hitem with rfl | hitem
          · exact hfirst
          · exact htrans _ _ _ hfirst ((List.pairwise_cons.mp hrest).1 item hitem)

end ProofFrame.Lib
