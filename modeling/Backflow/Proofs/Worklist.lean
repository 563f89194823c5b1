import Backflow.Dataflow.Order
import Mathlib.Data.List.Nodup

namespace Backflow

namespace Search

theorem nodup_postorder (succ : Nat → List Nat) (unseen stack finished : List Nat)
    (h : finished.Nodup) : (postorder succ unseen stack finished).Nodup := by
  fun_induction postorder succ unseen stack finished with
  | case1 unseen finished => exact List.nodup_reverse.2 h
  | case2 unseen finished i below hi unseen' fresh ih => exact ih h
  | case3 unseen finished i below hi hf ih => exact ih h
  | case4 unseen finished i below hi hf ih => exact ih (List.nodup_cons.2 ⟨hf, h⟩)

theorem mem_of_mem_postorder {succ : Nat → List Nat} {unseen stack finished : List Nat} {j : Nat}
    (h : j ∈ postorder succ unseen stack finished) : j ∈ unseen ∨ j ∈ stack ∨ j ∈ finished := by
  fun_induction postorder succ unseen stack finished with
  | case1 unseen finished => exact Or.inr (Or.inr (List.mem_reverse.1 h))
  | case2 unseen finished i below hi unseen' fresh ih =>
      rcases ih h with hj | hj | hj
      · exact Or.inl (List.mem_of_mem_erase hj)
      · rcases List.mem_append.1 hj with hj | hj
        · have hj := (List.mem_filter.1 (List.mem_reverse.1 hj)).2
          exact Or.inl (List.mem_of_mem_erase (of_decide_eq_true hj))
        · exact Or.inr (Or.inl hj)
      · exact Or.inr (Or.inr hj)
  | case3 unseen finished i below hi hf ih =>
      rcases ih h with hj | hj | hj
      · exact Or.inl hj
      · exact Or.inr (Or.inl (List.mem_cons_of_mem i hj))
      · exact Or.inr (Or.inr hj)
  | case4 unseen finished i below hi hf ih =>
      rcases ih h with hj | hj | hj
      · exact Or.inl hj
      · exact Or.inr (Or.inl (List.mem_cons_of_mem i hj))
      · rcases List.mem_cons.1 hj with rfl | hj
        · exact Or.inr (Or.inl List.mem_cons_self)
        · exact Or.inr (Or.inr hj)

end Search

namespace Graph

variable {g : Graph}

@[simp] theorem mem_indices {i : Nat} : i ∈ g.indices ↔ i < g.size := List.mem_range

theorem nodup_indices : g.indices.Nodup := List.nodup_range

theorem lt_size_of_mem_postorder (hg : 0 < g.size) {i : Nat} (h : i ∈ g.postorder) : i < g.size := by
  rcases Search.mem_of_mem_postorder h with hi | hi | hi
  · exact mem_indices.1 hi
  · rw [List.mem_singleton.1 hi]; exact hg
  · exact absurd hi List.not_mem_nil

theorem allInPostorder_perm (hg : 0 < g.size) : g.allInPostorder.Perm g.indices := by
  have hpost : g.postorder.Nodup := Search.nodup_postorder _ _ _ _ List.nodup_nil
  have hnodup : g.allInPostorder.Nodup := by
    refine List.nodup_append.2 ⟨hpost, nodup_indices.filter _, fun i hi j hj hij => ?_⟩
    have hj := (List.mem_filter.1 hj).2
    simp [← hij, hi] at hj
  refine (List.perm_ext_iff_of_nodup hnodup nodup_indices).2 fun i => ?_
  simp only [allInPostorder, List.mem_append, List.mem_filter, mem_indices]
  constructor
  · rintro (hi | hi)
    · exact lt_size_of_mem_postorder hg hi
    · exact hi.1
  · intro hi
    by_cases hp : i ∈ g.postorder
    · exact Or.inl hp
    · exact Or.inr ⟨hi, by simpa using hp⟩

/-- In every order, each block is visited first exactly once. -/
theorem worklist_perm (hg : 0 < g.size) (o : Order) : (g.worklist o).Perm g.indices := by
  cases o with
  | postorder => exact allInPostorder_perm hg
  | reversed => exact (List.reverse_perm _).trans (allInPostorder_perm hg)
  | byIndex => exact List.Perm.refl _

theorem length_worklist (hg : 0 < g.size) (o : Order) : (g.worklist o).length = g.size := by
  rw [(worklist_perm hg o).length_eq, indices, List.length_range]

theorem mem_worklist (hg : 0 < g.size) (o : Order) {i : Nat} : i ∈ g.worklist o ↔ i < g.size :=
  (worklist_perm hg o).mem_iff.trans mem_indices

end Graph

end Backflow
