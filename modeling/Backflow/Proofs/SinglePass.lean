import Backflow.Proofs.FinishingOrder
import Backflow.Proofs.Solved
import Backflow.Proofs.Visits

namespace Backflow

namespace Search

variable {succ : Nat → List Nat}

/-- No path leads from a node back to it. -/
def Acyclic (succ : Nat → List Nat) : Prop := ∀ i, ¬ Relation.TransGen (fun i j => j ∈ succ i) i i

theorem acyclic_of_rank (rank : Nat → Nat) (h : ∀ i, ∀ j ∈ succ i, rank j < rank i) : Acyclic succ := by
  have hpath {i j : Nat} (hij : Relation.TransGen (fun i j => j ∈ succ i) i j) : rank j < rank i := by
    induction hij with
    | single hj => exact h _ _ hj
    | tail _ hj ih => exact (h _ _ hj).trans ih
  exact fun i hi => Nat.lt_irrefl _ (hpath hi)

end Search

namespace Graph

variable {g : Graph}

theorem sublist_postorder (hg : g.Closed) (hsize : 0 < g.size) (hacyclic : Search.Acyclic g.successors) {i j : Nat}
    (hi : i ∈ g.postorder) (hj : j ∈ g.successors i) : [j, i].Sublist g.postorder :=
  (sublist_or_reaches hg hsize hi hj).resolve_right fun hback => hacyclic i (.head' hj hback)

/-- If only the exit can be out of reach and there is no cycle, then every edge leads to an earlier block of the
worklist. -/
theorem WellFormed.sublist_worklist (hg : g.WellFormed) (hm : g.Marked) (hacyclic : Search.Acyclic g.successors)
    (hlive : ∀ i < g.size, (g.block i).dead = false) {e : Edge} (he : e ∈ g.edges) :
    [e.target, e.source].Sublist (g.worklist .postorder) := by
  have hsource := (hg.edges e he).source_lt
  have hreached : e.source ∈ g.postorder := by
    have hdead := hm e.source hsource
    rw [hlive e.source hsource] at hdead
    simpa [(hg.edges e he).source_ne] using hdead
  have hpair := sublist_postorder hg.closed hg.size_pos hacyclic hreached (mem_successors.2 ⟨e, he, rfl, rfl⟩)
  exact hpair.trans (List.sublist_append_left _ _)

end Graph

namespace Solver

theorem enqueue_of_subset {queue l : List Nat} (h : l ⊆ queue) : enqueue queue l = queue := by
  induction l with
  | nil => rfl
  | cons i l ih =>
      rw [enqueue, if_pos (h List.mem_cons_self)]
      exact ih fun j hj => h (List.mem_cons_of_mem i hj)

theorem mem_of_pair_sublist {early queue : List Nat} {i j : Nat} (hnodup : (early ++ i :: queue).Nodup)
    (h : [i, j].Sublist (early ++ i :: queue)) : j ∈ queue := by
  induction early with
  | nil => exact List.singleton_sublist.1 (List.cons_sublist_cons.1 h)
  | cons k early ih =>
      rw [List.cons_append, List.nodup_cons] at hnodup
      cases h with
      | cons _ h => exact ih hnodup.2 h
      | cons_cons _ h => exact absurd (List.mem_append_right early List.mem_cons_self) hnodup.1

variable {σ S : Type} [DecidableEq S] {p : Problem σ S} {g : Graph} {bottom : S} {s s' : State S} {order : List Nat}
  {m m' : σ}

def State.InOrder (s : State S) (order : List Nat) : Prop := (s.visits.map (·.block)).reverse ++ s.queue = order

/-- In an order in which every edge leads back, the predecessors of a block wait when it is visited. -/
theorem State.InOrder.visit (hnodup : order.Nodup) (hback : ∀ e ∈ g.edges, [e.target, e.source].Sublist order)
    (hs : s.InOrder order) {i : Nat} {queue : List Nat} (hq : s.queue = i :: queue)
    (hvisit : visit p g bottom s i queue m = .ok s' m') : s'.InOrder order := by
  obtain ⟨exit, _, entry, _, _, _, _, rfl⟩ := visit_eq_ok.1 hvisit
  rw [State.InOrder, hq] at hs
  have hwait : enqueue queue (g.predecessors i) = queue := by
    apply enqueue_of_subset
    intro j hj
    obtain ⟨e, he, rfl, rfl⟩ := Graph.mem_predecessors.1 hj
    have hpair := hback e he
    rw [← hs] at hpair hnodup
    exact mem_of_pair_sublist hnodup hpair
  rw [State.InOrder, State.update, hwait, ite_self, ← hs]
  simp

theorem State.InOrder.visits_eq (hnodup : order.Nodup) (hback : ∀ e ∈ g.edges, [e.target, e.source].Sublist order)
    (hs : s.InOrder order) {budget : Nat} (h : run p g bottom budget s m = .ok (some s') m') :
    s'.visits.reverse.map (·.block) = order := by
  obtain ⟨hs', hq⟩ := run_induction (P := fun s => s.InOrder order)
    (fun s i queue m s' m' hq hvisit hs => hs.visit hnodup hback hq hvisit) h hs
  rwa [State.InOrder, hq, List.append_nil, ← List.map_reverse] at hs'

end Solver

/-- Live variables of a method without cycles and dead blocks are found in one pass: in postorder each block is visited
once, after all its successors. -/
theorem Liveness.compute_single_pass {m : Method} {g : Graph} (hg : Graph.build m = .ok g)
    (hne : ∃ s ∈ m.statements, s.isBlock = false) (hacyclic : Search.Acyclic g.successors)
    (hlive : ∀ i < g.size, (g.block i).dead = false) (check : Bool) :
    ∃ l, compute m { order := .postorder, check } = .ok l ∧ (l.flow.visits.map (·.block)).Perm g.indices ∧
      (∀ e ∈ g.edges, [e.target, e.source].Sublist (l.flow.visits.map (·.block))) ∧ l.iterations = g.size := by
  rw [← Graph.statements_ne_nil_iff hg] at hne
  have hwf := Graph.wellFormed_of_build hg
  have hperm := Graph.worklist_perm hwf.size_pos .postorder
  have hback (e : Edge) := hwf.sublist_worklist (Graph.marked_of_build hg) hacyclic hlive (e := e)
  obtain ⟨sol, hcompute, _⟩ := compute_settles hg { order := .postorder, check }
  obtain ⟨_, _, _, hsolve, heq⟩ := compute_eq_ok.1 hcompute
  cases heq
  rw [Numbering.solve_eq_ok] at hsolve
  obtain ⟨_, bottom, m₁, s, m₂, points, _, hrun, _, rfl⟩ := (Problem.solve_eq_ok_iff hne).1 hsolve
  have hstart : (Solver.start g .postorder {} bottom).InOrder (g.worklist .postorder) := rfl
  have hvisits := hstart.visits_eq (hperm.nodup_iff.2 Graph.nodup_indices) hback hrun
  refine ⟨_, hcompute, ?_, ?_, ?_⟩
  · exact hvisits ▸ hperm
  · exact hvisits ▸ hback
  · have hlen := congrArg List.length hvisits
    rw [List.length_map, Graph.length_worklist hwf.size_pos] at hlen
    exact hlen

def branching : Method where
  name := "branch"
  isStatic := false
  returns := .int
  params := []
  locals := []
  body := [.assign ⟨0, .start⟩ "x" (.int 1), .ifThen ⟨1, .start⟩ (.binary .lt (.var "x") (.int 2))
    (.assign ⟨2, .start⟩ "y" (.int 3)), .ret ⟨3, .start⟩ (some (.var "y"))]
  loc := .start

theorem build_branching : ∃ g, Graph.build branching = .ok g ∧ g.size = 5 ∧ Search.Acyclic g.successors ∧
    ∀ i < g.size, (g.block i).dead = false := by
  let edges : List Edge := [⟨4, 1, .ret⟩, ⟨2, 4, .ifFalse⟩, ⟨3, 4, .sequence⟩, ⟨2, 3, .ifTrue⟩, ⟨0, 2, .sequence⟩]
  have hrun : (Graph.build branching).toOption.any (fun g => g.size = 5 ∧ g.edges = edges) = true := by
    decide +kernel
  obtain ⟨g, hg, hshape⟩ := exists_ok_of_any hrun
  obtain ⟨hsize, hedges⟩ := of_decide_eq_true hshape
  refine ⟨g, hg, hsize, ?_, fun i hi => ?_⟩
  · apply Search.acyclic_of_rank fun i => if i = 1 then 0 else 5 - i
    intro i j hj
    obtain ⟨e, he, rfl, rfl⟩ := Graph.mem_successors.1 hj
    rw [hedges] at he
    have hrank : ∀ e ∈ edges,
        (if e.target = 1 then 0 else 5 - e.target) < if e.source = 1 then 0 else 5 - e.source := by decide
    exact hrank e he
  · have hstep {i j : Nat} (hi : g.Reaches Graph.entry i) (hj : ∃ e ∈ edges, e.source = i ∧ e.target = j) :
        g.Reaches Graph.entry j := hi.tail (Graph.mem_successors.2 (hedges ▸ hj))
    have htest : g.Reaches Graph.entry 2 := hstep .refl (by decide)
    have hret : g.Reaches Graph.entry 4 := hstep htest (by decide)
    have hreaches : g.Reaches Graph.entry i := by
      obtain rfl | rfl | rfl | rfl | rfl : i = 0 ∨ i = 1 ∨ i = 2 ∨ i = 3 ∨ i = 4 := by omega
      · exact .refl
      · exact hstep hret (by decide)
      · exact htest
      · exact hstep htest (by decide)
      · exact hret
    have hwf := Graph.wellFormed_of_build hg
    have hmem := (Graph.mem_postorder_iff hwf.closed hwf.size_pos).2 hreaches
    rw [Graph.marked_of_build hg i hi]
    simp [hmem]

theorem compute_single_pass_branching : ∃ g l, Graph.build branching = .ok g ∧ Search.Acyclic g.successors ∧
    (∀ i < g.size, (g.block i).dead = false) ∧ Liveness.compute branching {} = .ok l ∧ l.iterations = 5 := by
  obtain ⟨g, hg, hsize, hacyclic, hlive⟩ := build_branching
  have hne : ∃ s ∈ branching.statements, s.isBlock = false := ⟨_, List.mem_cons_self, rfl⟩
  obtain ⟨l, hl, _, _, hcount⟩ := Liveness.compute_single_pass hg hne hacyclic hlive true
  exact ⟨g, l, hg, hacyclic, hlive, hl, hcount.trans hsize⟩

end Backflow
