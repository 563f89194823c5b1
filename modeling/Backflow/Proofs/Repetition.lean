import Backflow.Proofs.LeastSolution

namespace Backflow

variable {σ S : Type} [SemilatticeSup S] [OrderBot S] {f : Stmt → S → S} {g : Graph}

namespace Solver

variable [DecidableEq S] {p : Problem σ S} {s : State S} {i : Nat} {queue : List Nat}

/-- A visit asks for the states that the block has already. -/
def AtRest (f : Stmt → S → S) (g : Graph) (s : State S) (i : Nat) : Prop :=
  s.exit i = g.exitOf s.entry i ∧ s.entry i = g.entryOf f s.entry i

def State.visitOf (s : State S) (i : Nat) : Visit S := ⟨i, s.exit i, s.entry i⟩

omit [DecidableEq S] in
theorem setIfInBounds_getD (a : Array S) (i : Nat) : a.setIfInBounds i (a.getD i ⊥) = a := by
  apply Array.ext
  · exact Array.size_setIfInBounds
  · intro j hj hj'
    rw [Array.getElem_setIfInBounds]
    split
    · rename_i hij
      subst hij
      simp [hj']
    · rfl

theorem AtRest.settle_eq (h : AtRest f g s i) :
    settle f g s i queue = { s with queue, visits := s.visitOf i :: s.visits } := by
  rw [settle, ← h.1, ← h.2, if_pos rfl]
  rw [State.entry, State.exit, setIfInBounds_getD, setIfInBounds_getD]
  rfl

/-- When all waiting blocks are at rest, each is visited once. -/
theorem run_atRest (hp : p.Lawful f g) (m : σ) {budget : Nat} (h : ∀ i ∈ queue, AtRest f g s i)
    (hb : queue.length ≤ budget) : run p g ⊥ budget { s with queue } m =
      .ok (some { s with queue := [], visits := (queue.map s.visitOf).reverse ++ s.visits }) m := by
  induction queue generalizing s budget with
  | nil => exact run_nil rfl budget
  | cons i queue ih =>
      obtain ⟨budget, rfl⟩ := Nat.exists_eq_add_of_lt (Nat.lt_of_lt_of_le (Nat.succ_pos _) hb)
      have hi : AtRest f g { s with queue := i :: queue } i := h i List.mem_cons_self
      rw [run_cons rfl, visit_eq hp hi.1.le hi.2.le, pure_bind, hi.settle_eq]
      refine (ih (s := { s with visits := s.visitOf i :: s.visits }) (fun j hj => h j (List.mem_cons_of_mem i hj))
        (by simpa using hb)).trans ?_
      rw [List.map_cons, List.reverse_cons, List.append_assoc]
      rfl

omit [DecidableEq S] in
theorem start_seed {sol : Solution S} (hsol : sol.Settled f g) (o : Order) :
    start g o sol.seed ⊥ = ⟨sol.entries, sol.exits, g.worklist o, []⟩ := by
  have hstart {a : Array S} (ha : a.size = g.size) :
      (Array.range g.size).map (fun i => (a[i]?).getD ⊥) = a := by
    apply Array.ext
    · simp [ha]
    · intro i hi hi'
      simp [hi']
  rw [start, Solution.seed, hstart hsol.entries_size, hstart hsol.exits_size]

end Solver

theorem Solution.Settled.growing {sol : Solution S} (hsol : sol.Settled f g) (visits : List (Visit S)) :
    Solver.Growing f g ⟨sol.entries, sol.exits, [], visits⟩ :=
  ⟨hsol.entries_size, hsol.exits_size, nofun, fun i hi => (hsol.exit_eq i hi).le,
    fun i hi => (hsol.entry_eq i hi).le, fun i hi _ => hsol.exit_eq i hi, fun i hi _ => hsol.entry_eq i hi⟩

/-- Solved again from a solution, a problem has the same solution after one visit to each block. -/
theorem Problem.Lawful.solve_again [DecidableEq S] {p : Problem σ S} (hp : p.Lawful f g) (hg : g.WellFormed)
    (hm : g.Marked) (hne : g.statements ≠ []) {sol : Solution S} (hsol : sol.Settled f g) (o : Options)
    {budget : Nat} (hb : g.size ≤ budget) (memory : σ) : p.solve g o sol.seed budget memory =
      .ok { sol with visits := (g.worklist o.order).map fun i => ⟨i, sol.exit i, sol.entry i⟩ } memory := by
  have hlen : (g.worklist o.order).length ≤ budget := by rwa [Graph.length_worklist hg.size_pos]
  have hrest (i : Nat) (hi : i ∈ g.worklist o.order) : Solver.AtRest f g ⟨sol.entries, sol.exits, [], []⟩ i := by
    have hi := (Graph.mem_worklist hg.size_pos o.order).1 hi
    exact ⟨hsol.exit_eq i hi, hsol.entry_eq i hi⟩
  have hrun := Solver.run_atRest hp memory hrest hlen
  rw [← Solver.start_seed hsol] at hrun
  rw [hp.solve_eq (hg.check_eq hm) hne o hrun (hsol.growing _) rfl, Solver.State.solution]
  simp only [hsol.points_eq, List.append_nil, List.reverse_reverse]
  rfl

namespace Liveness

variable {l : Liveness}

def revisited (l : Liveness) (o : Order) : Liveness :=
  { l with flow := { l.flow with visits := (l.graph.worklist o).map fun i => ⟨i, l.flow.exit i, l.flow.entry i⟩ } }

theorem Solved.revisited (h : l.Solved) (o : Order) : (l.revisited o).Solved :=
  ⟨h.graph, h.marked, h.covers, h.settled.entries_size, h.settled.exits_size, h.settled.exit_eq, h.settled.entry_eq,
    h.settled.points_eq⟩

theorem Solved.recompute_eq (h : l.Solved) (hne : l.graph.statements ≠ []) (o : Options) :
    l.recompute o = .ok (l.revisited o.order) := by
  have hbudget : l.graph.size ≤ l.vars.budget l.graph := Nat.le_add_right _ _
  rw [Liveness.recompute, Numbering.solve,
    (Numbering.lawful_problem h.covers).solve_again h.graph h.marked hne h.settled o hbudget]
  rfl

/-- Of a chain of repetitions only the last one's order can be seen. -/
theorem Solved.recompute_chain (h : l.Solved) (hne : l.graph.statements ≠ []) (os : List Options) (o : Options) :
    (os ++ [o]).foldlM Liveness.recompute l = .ok (l.revisited o.order) := by
  induction os generalizing l with
  | nil =>
      rw [List.nil_append, List.foldlM_cons, h.recompute_eq hne]
      rfl
  | cons o' os ih =>
      rw [List.cons_append, List.foldlM_cons, h.recompute_eq hne]
      exact ih (h.revisited o'.order) hne

/-- The analysis of a method with a statement other than a block can be repeated, as often as one likes and
with any options: the states stay what they are, and each block is visited once. -/
theorem recompute_unchanged {m : Method} {g : Graph} {s : Stmt} (hg : Graph.build m = .ok g) (hs : s ∈ m.statements)
    (hblock : s.isBlock = false) (o : Options) : ∃ l, compute m o = .ok l ∧ ∀ (os : List Options) (o' : Options),
      ∃ visits r, (os ++ [o']).foldlM Liveness.recompute l = .ok r ∧ r = { l with flow := { l.flow with visits } } ∧
        r.map = l.map ∧ visits.map (·.block) = g.worklist o'.order ∧ r.iterations = g.size := by
  obtain ⟨sol, hcompute, hsettled, _⟩ := compute_settles hg o
  have hsolved : Solved ⟨m, g, .ofMethod m, sol⟩ :=
    ⟨Graph.wellFormed_of_build hg, Graph.marked_of_build hg, Graph.covers_of_build hg, hsettled⟩
  have hne : g.statements ≠ [] := List.ne_nil_of_mem ((Graph.mem_statements_of_build hg).2 ⟨hs, hblock⟩)
  refine ⟨_, hcompute, fun os o' => ⟨_, _, hsolved.recompute_chain hne os o', rfl, rfl, ?_, ?_⟩⟩
  · simp [Function.comp_def]
  · exact List.length_map _ |>.trans (Graph.length_worklist hsolved.graph.size_pos o'.order)

end Liveness

theorem recompute_unchanged_printing : ∃ g l, Graph.build printing = .ok g ∧ Liveness.compute printing {} = .ok l ∧
    ∃ visits r, [{}, { order := .byIndex, check := false }].foldlM Liveness.recompute l = .ok r ∧
      r = { l with flow := { l.flow with visits } } ∧ r.map = l.map ∧
        visits.map (·.block) = g.worklist .byIndex ∧ r.iterations = g.size := by
  obtain ⟨g, hg⟩ := Graph.build_of_no_strays (m := printing) rfl
  obtain ⟨l, hl, hagain⟩ := Liveness.recompute_unchanged (s := .print ⟨1, .start⟩ (.int 1)) hg
    (.tail _ List.mem_cons_self) rfl {}
  exact ⟨g, l, hg, hl, hagain [{}] { order := .byIndex, check := false }⟩

end Backflow
