import Backflow.Proofs.GraphFlow
import Backflow.Proofs.Worklist
import Mathlib.Logic.Relation

namespace Backflow

namespace Search

variable {succ : Nat → List Nat} {unseen stack finished : List Nat}

theorem of_mem_postorder {P : Nat → Prop} (hP : ∀ i, P i → ∀ j ∈ succ i, P j) (hstack : ∀ i ∈ stack, P i)
    (hfinished : ∀ i ∈ finished, P i) : ∀ i ∈ postorder succ unseen stack finished, P i := by
  fun_induction postorder succ unseen stack finished with
  | case1 unseen finished =>
      intro i hi
      exact hfinished i (List.mem_reverse.1 hi)
  | case2 unseen finished i below hi unseen' fresh ih =>
      refine ih (fun j hj => ?_) hfinished
      rcases List.mem_append.1 hj with hj | hj
      · exact hP i (hstack i List.mem_cons_self) j (List.mem_filter.1 (List.mem_reverse.1 hj)).1
      · exact hstack j hj
  | case3 unseen finished i below hi hf ih =>
      exact ih (fun j hj => hstack j (List.mem_cons_of_mem i hj)) hfinished
  | case4 unseen finished i below hi hf ih =>
      refine ih (fun j hj => hstack j (List.mem_cons_of_mem i hj)) fun j hj => ?_
      rcases List.mem_cons.1 hj with rfl | hj
      · exact hstack j List.mem_cons_self
      · exact hfinished j hj

/-- No node gets lost in a search from `start`: a node that was seen is on the stack or finished, and its new
successors are on the stack. -/
structure Explores (succ : Nat → List Nat) (start : Nat) (nodes unseen stack finished : List Nat) : Prop where
  start : start ∈ unseen → start ∈ stack
  kept : ∀ i ∈ nodes, i ∉ unseen → i ∈ stack ∨ i ∈ finished
  ahead : ∀ i ∈ nodes, i ∉ unseen → ∀ j ∈ succ i, j ∈ unseen → j ∈ stack

variable {start : Nat} {nodes : List Nat}

theorem explores_init (hnodes : nodes ⊆ unseen) : Explores succ start nodes unseen [start] [] where
  start _ := List.mem_singleton_self start
  kept _ hi hseen := absurd (hnodes hi) hseen
  ahead _ hi hseen := absurd (hnodes hi) hseen

theorem Explores.visit {i : Nat} {below : List Nat} (h : Explores succ start nodes unseen (i :: below) finished) :
    Explores succ start nodes (unseen.erase i)
      (((succ i).filter (· ∈ unseen.erase i)).reverse ++ i :: below) finished where
  start hs := List.mem_append_right _ (h.start (List.mem_of_mem_erase hs))
  kept k hk hseen := by
    by_cases hki : k = i
    · exact Or.inl (List.mem_append_right _ (hki ▸ List.mem_cons_self))
    · have hseen : k ∉ unseen := fun hk => hseen ((List.mem_erase_of_ne hki).2 hk)
      exact (h.kept k hk hseen).imp_left (List.mem_append_right _)
  ahead k hk hseen j hj hnew := by
    by_cases hki : k = i
    · subst hki
      exact List.mem_append_left _ (List.mem_reverse.2 (List.mem_filter.2 ⟨hj, decide_eq_true hnew⟩))
    · have hseen : k ∉ unseen := fun hk => hseen ((List.mem_erase_of_ne hki).2 hk)
      exact List.mem_append_right _ (h.ahead k hk hseen j hj (List.mem_of_mem_erase hnew))

theorem Explores.leave {i : Nat} {below finished' : List Nat}
    (h : Explores succ start nodes unseen (i :: below) finished) (hi : i ∉ unseen) (hfinished : finished ⊆ finished')
    (hmem : i ∈ finished') : Explores succ start nodes unseen below finished' where
  start hs := List.mem_of_ne_of_mem (fun he : start = i => hi (he ▸ hs)) (h.start hs)
  kept k hk hseen := by
    rcases h.kept k hk hseen with hk | hk
    · rcases List.mem_cons.1 hk with rfl | hk
      · exact Or.inr hmem
      · exact Or.inl hk
    · exact Or.inr (hfinished hk)
  ahead k hk hseen j hj hnew :=
    List.mem_of_ne_of_mem (fun he : j = i => hi (he ▸ hnew)) (h.ahead k hk hseen j hj hnew)

/-- The search finishes a set of nodes that holds the start and all successors of its members. -/
theorem Explores.mem_postorder (h : Explores succ start nodes unseen stack finished) (hstart : start ∈ nodes)
    (hnodes : ∀ i ∈ nodes, ∀ j ∈ succ i, j ∈ nodes) {i : Nat}
    (hi : Relation.ReflTransGen (fun i j => j ∈ succ i) start i) : i ∈ postorder succ unseen stack finished := by
  fun_induction postorder succ unseen stack finished with
  | case1 unseen finished =>
      have hseen : i ∈ nodes ∧ i ∉ unseen := by
        induction hi with
        | refl => exact ⟨hstart, fun hs => absurd (h.start hs) List.not_mem_nil⟩
        | tail _ hj ih =>
            refine ⟨hnodes _ ih.1 _ hj, fun hs => ?_⟩
            exact absurd (h.ahead _ ih.1 ih.2 _ hj hs) List.not_mem_nil
      rcases h.kept i hseen.1 hseen.2 with hi | hi
      · exact absurd hi List.not_mem_nil
      · exact List.mem_reverse.2 hi
  | case2 unseen finished i below hi unseen' fresh ih => exact ih h.visit
  | case3 unseen finished i below hi hf ih => exact ih (h.leave hi (List.Subset.refl _) hf)
  | case4 unseen finished i below hi hf ih =>
      exact ih (h.leave hi (List.subset_cons_self i finished) List.mem_cons_self)

end Search

namespace Graph

variable {g : Graph}

/-- Control can come from one block to another along edges. -/
def Reaches (g : Graph) : Nat → Nat → Prop := Relation.ReflTransGen fun i j => j ∈ g.successors i

theorem mem_postorder_iff (hg : g.Closed) (hpos : 0 < g.size) {i : Nat} :
    i ∈ g.postorder ↔ g.Reaches entry i := by
  constructor
  · refine Search.of_mem_postorder (fun i hi j hj => hi.tail hj) (fun i hi => ?_) nofun i
    rw [List.mem_singleton.1 hi]
    exact .refl
  · refine (Search.explores_init (List.Subset.refl _)).mem_postorder (mem_indices.2 hpos) fun i _ j hj => ?_
    exact mem_indices.2 (hg.successor_lt hj)

/-- A block with statements is marked as dead if control never comes to it. -/
theorem WellFormed.dead_iff (h : g.WellFormed) (hm : g.Marked) {i : Nat} {s : Stmt} (hs : s ∈ g.stmts i) :
    (g.block i).dead = true ↔ ¬ g.Reaches entry i := by
  have hexit : i ≠ exit := by
    rintro rfl
    rw [h.stmts_exit] at hs
    exact absurd hs List.not_mem_nil
  rw [hm i (lt_size_of_mem_stmts hs), ← mem_postorder_iff h.closed h.size_pos]
  simp [hexit]

end Graph

end Backflow
