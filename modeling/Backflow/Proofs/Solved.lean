import Backflow.Proofs.ControlFlow
import Backflow.Proofs.LiveTables
import Backflow.Proofs.StatementNumbers

namespace Backflow

/-- The solver of live variables always finds the least solution above its seed. -/
theorem Numbering.solve_settles {n : Numbering} {g : Graph} (hg : g.WellFormed) (hm : g.Marked)
    (hn : ∀ s ∈ g.statements, n.Covers s) (o : Options) {seed : Seed (VarSet n.size)}
    (hseed : seed.Below n.carry g) (hempty : g.statements = [] → seed.Meets n.carry g) :
    ∃ sol, n.solve g o seed = .ok sol ∧ sol.Settled n.carry g ∧ sol.LeastAbove n.carry g seed := by
  obtain ⟨sol, hsolve, hsol⟩ := (lawful_problem hn).solve_settles VarSet.ranked hg.closed hg.size_pos
    (hg.check_eq hm) o hseed hempty (Nat.le_refl (n.budget g)) ()
  refine ⟨sol, ?_, hsol⟩
  rw [solve, hsolve]

theorem Numbering.solve_eq_ok {n : Numbering} {g : Graph} {o : Options} {seed : Seed (VarSet n.size)}
    {sol : Solution (VarSet n.size)} :
    n.solve g o seed = .ok sol ↔ n.problem.solve g o seed (n.budget g) () = .ok sol () := by
  rw [solve]
  cases n.problem.solve g o seed (n.budget g) () with
  | ok f m => simp
  | error e m => simp

namespace Graph

variable {m : Method} {g : Graph}

theorem mem_statements_of_build (h : build m = .ok g) {s : Stmt} :
    s ∈ g.statements ↔ s ∈ m.statements ∧ s.isBlock = false := by
  rw [statements_of_build h]
  exact Stmt.mem_actionsList

theorem statements_ne_nil_iff (h : build m = .ok g) :
    g.statements ≠ [] ↔ ∃ s ∈ m.statements, s.isBlock = false := by
  constructor
  · intro hne
    obtain ⟨s, hs⟩ := List.exists_mem_of_ne_nil _ hne
    exact ⟨s, (mem_statements_of_build h).1 hs⟩
  · rintro ⟨s, hs⟩
    exact List.ne_nil_of_mem ((mem_statements_of_build h).2 hs)

theorem covers_of_build (h : build m = .ok g) : ∀ s ∈ g.statements, (Numbering.ofMethod m).Covers s :=
  fun _ hs => Numbering.covers_ofMethod ((mem_statements_of_build h).1 hs).1

theorem nodup_ids_of_build (h : build m = .ok g) (hids : m.ids.Nodup) :
    (g.statements.map Stmt.id).Nodup := by
  rw [statements_of_build h]
  exact hids.sublist (List.filter_sublist.map _)

theorem numbered_of_build (h : build m = .ok g) (hids : m.ids.Nodup) :
    g.Numbered (Numbering.ofMethod m) :=
  ⟨(wellFormed_of_build h).closed, (nodup_ids_of_build h hids).of_map _, covers_of_build h⟩

end Graph

namespace Liveness

theorem compute_eq_ok {m : Method} {o : Options} {l : Liveness} : compute m o = .ok l ↔
    ∃ g sol, Graph.build m = .ok g ∧ (Numbering.ofMethod m).solve g o {} = .ok sol ∧ l = ⟨m, g, .ofMethod m, sol⟩ := by
  constructor
  · intro h
    obtain ⟨g, hg, h⟩ := bind_eq_ok h
    obtain ⟨sol, hsolve, h⟩ := bind_eq_ok h
    cases h
    exact ⟨g, sol, hg, hsolve, rfl⟩
  · rintro ⟨g, sol, hg, hsolve, rfl⟩
    rw [compute, hg]
    change (Numbering.ofMethod m).solve g o {} >>= (fun flow => Except.ok (Liveness.mk m g _ flow)) = _
    rw [hsolve]
    rfl

theorem compute_settles {m : Method} {g : Graph} (h : Graph.build m = .ok g) (o : Options) :
    ∃ sol, compute m o = .ok ⟨m, g, .ofMethod m, sol⟩ ∧ sol.Settled (Numbering.ofMethod m).carry g ∧
      sol.LeastAbove (Numbering.ofMethod m).carry g {} := by
  obtain ⟨sol, hsolve, hsol⟩ := Numbering.solve_settles (Graph.wellFormed_of_build h)
    (Graph.marked_of_build h) (Graph.covers_of_build h) o (Seed.below_empty _ g) (Seed.meets_empty _)
  exact ⟨sol, compute_eq_ok.2 ⟨g, sol, h, hsolve, rfl⟩, hsol⟩

structure Solved (l : Liveness) : Prop where
  graph : l.graph.WellFormed
  marked : l.graph.Marked
  covers : ∀ s ∈ l.graph.statements, l.vars.Covers s
  settled : l.flow.Settled l.vars.carry l.graph

theorem Solved.covers_stmt {l : Liveness} (h : l.Solved) {p : Point (VarSet l.vars.size)} (hp : p ∈ l.flow.points) :
    l.vars.Covers p.stmt := h.covers _ (h.settled.map_stmt_points ▸ List.mem_map_of_mem hp)

theorem Solved.recompute {l : Liveness} (h : l.Solved) (o : Options) :
    ∃ l', l.recompute o = .ok l' ∧ l'.Solved := by
  obtain ⟨sol, hsolve, hsettled, _⟩ := Numbering.solve_settles h.graph h.marked h.covers o
    h.settled.meets.below fun _ => h.settled.meets
  refine ⟨{ l with flow := sol }, ?_, h.graph, h.marked, h.covers, hsettled⟩
  rw [Liveness.recompute, hsolve]
  rfl

/-- However often the analysis is repeated, and with whatever options, it gives an answer. -/
theorem Solved.recompute_all {l : Liveness} (h : l.Solved) (os : List Options) :
    ∃ l', os.foldlM Liveness.recompute l = .ok l' ∧ l'.Solved := by
  induction os generalizing l with
  | nil => exact ⟨l, rfl, h⟩
  | cons o os ih =>
      obtain ⟨l₁, hl₁, h₁⟩ := h.recompute o
      obtain ⟨l₂, hl₂, h₂⟩ := ih h₁
      refine ⟨l₂, ?_, h₂⟩
      rw [List.foldlM_cons, hl₁]
      exact hl₂

theorem solved_of_compute {m : Method} {g : Graph} (h : Graph.build m = .ok g) (o : Options) :
    ∃ l, compute m o = .ok l ∧ l.Solved := by
  obtain ⟨sol, hcompute, hsettled, _⟩ := compute_settles h o
  exact ⟨_, hcompute, Graph.wellFormed_of_build h, Graph.marked_of_build h, Graph.covers_of_build h, hsettled⟩

end Liveness

/-- A method cannot be analyzed only because of a stray jump, and the first one is the error. Any other
method has a sound graph, and every analysis and repeated analysis of it succeeds. -/
theorem analysis_fails_iff_stray (m : Method) (o : Options) :
    ((∃ e, Graph.build m = .error e) ↔ Stmt.straysList m.body ≠ []) ∧
    (∀ s rest, Stmt.straysList m.body = s :: rest →
      ∃ k, k.text = s.construct ∧ Graph.build m = .error (.outsideLoop k s.loc)) ∧
    (Stmt.straysList m.body = [] → ∃ g l, Graph.build m = .ok g ∧ g.check = .ok () ∧
      (∀ i j, j ∈ g.successors i ↔ i ∈ g.predecessors j) ∧ Liveness.compute m o = .ok l ∧
        ∀ os : List Options, ∃ l', os.foldlM Liveness.recompute l = .ok l') := by
  have hfails : ∀ s rest, Stmt.straysList m.body = s :: rest →
      ∃ k, k.text = s.construct ∧ Graph.build m = .error (.outsideLoop k s.loc) := by
    intro s rest hs
    obtain ⟨k, herror, htext⟩ := Stmt.strayError_of_mem_strays.2 m.body s (hs ▸ List.mem_cons_self)
    exact ⟨k, htext, herror ▸ Graph.build_of_stray hs⟩
  refine ⟨⟨?_, fun hne => ?_⟩, hfails, fun hnil => ?_⟩
  · rintro ⟨e, he⟩ hnil
    obtain ⟨g, hg⟩ := Graph.build_of_no_strays hnil
    rw [hg] at he
    cases he
  · obtain ⟨s, rest, hs⟩ := List.exists_cons_of_ne_nil hne
    obtain ⟨k, _, herror⟩ := hfails s rest hs
    exact ⟨_, herror⟩
  · obtain ⟨g, hg⟩ := Graph.build_of_no_strays hnil
    obtain ⟨l, hl, hsolved⟩ := Liveness.solved_of_compute hg o
    refine ⟨g, l, hg, ?_, fun i j => Graph.mem_predecessors_iff.symm, hl, fun os => ?_⟩
    · exact (Graph.wellFormed_of_build hg).check_eq (Graph.marked_of_build hg)
    · obtain ⟨l', hl', _⟩ := hsolved.recompute_all os
      exact ⟨l', hl'⟩

/-- The search can be analyzed in one order and again in another. -/
theorem analysis_of_search : ∃ p r l l', Program.parse searchText = .ok p ∧ r ∈ p.routines ∧
    Liveness.compute r.method {} = .ok l ∧
      [{ order := .byIndex, check := false }, {}].foldlM Liveness.recompute l = .ok l' := by
  obtain ⟨p, hp, r, hr, hnil⟩ := searchText_parses
  obtain ⟨_, l, _, _, _, hl, hagain⟩ := (analysis_fails_iff_stray r.method {}).2.2 hnil
  obtain ⟨l', hl'⟩ := hagain [{ order := .byIndex, check := false }, {}]
  exact ⟨p, r, l, l', hp, hr, hl, hl'⟩

end Backflow
