import Backflow.Proofs.Solved
import Backflow.Proofs.Visits
import Mathlib.Order.WithBot

namespace Backflow

variable {σ S : Type} [SemilatticeSup S] [OrderBot S] {f : Stmt → S → S} {g : Graph}

namespace Solver

variable [DecidableEq S] {p : Problem σ S}

/-- A run from states that no equation contradicts never fails: it is not done yet, or all equations
are met. -/
theorem Growing.run_cases (hp : p.Lawful f g) (hg : g.Closed) (m : σ) (budget : Nat) {s : State S}
    (hs : Growing f g s) : run p g ⊥ budget s m = .ok none m ∨
      ∃ s', run p g ⊥ budget s m = .ok (some s') m ∧ Growing f g s' ∧ s'.queue = [] ∧ Rises f g s s' := by
  induction budget generalizing s with
  | zero =>
      cases hq : s.queue with
      | nil => exact Or.inr ⟨s, run_nil hq 0, hs, hq, Rises.refl f g s⟩
      | cons i queue => exact Or.inl (run_zero_cons hq)
  | succ budget ih =>
      cases hq : s.queue with
      | nil => exact Or.inr ⟨s, run_nil hq _, hs, hq, Rises.refl f g s⟩
      | cons i queue =>
          have hi := hs.lt_of_cons hq
          rw [run_cons hq, visit_eq hp (hs.exit_le i hi) (hs.entry_le i hi), pure_bind]
          refine (ih (hs.settle hp hg hq)).imp_right ?_
          rintro ⟨s', hrun, hs', hq', hrises⟩
          exact ⟨s', hrun, hs', hq', (hs.rises_settle hp hi).trans hrises⟩

theorem Growing.run_settles [WellFoundedGT S] (hp : p.Lawful f g) (hg : g.Closed) (m : σ) {s : State S}
    (hs : Growing f g s) : ∃ s' enough, (∀ budget ≥ enough, run p g ⊥ budget s m = .ok (some s') m) ∧
      Growing f g s' ∧ s'.queue = [] ∧ Rises f g s s' := by
  obtain ⟨enough, henough⟩ := run_ends hp.includes hg ⟨hs.entries_size, hs.queue_lt⟩ m
  rcases hs.run_cases hp hg m enough with hnone | ⟨s', hrun, hs'⟩
  · exact absurd hnone ((henough enough le_rfl).2 m)
  · exact ⟨s', enough, fun budget hb => (henough budget hb).1.trans hrun, hs'⟩

end Solver

namespace Solution

variable {sol sol' : Solution S} {seed : Seed S}

theorem LeastAbove.entry_le (h : sol.LeastAbove f g seed) (hsol' : sol'.Settled f g)
    (h' : sol'.LeastAbove f g seed) {i : Nat} (hi : i < g.size) : sol.entry i ≤ sol'.entry i :=
  h.least sol'.entry (fun j hj => (hsol'.entry_eq j hj).ge) h'.le i hi

theorem LeastAbove.eq (hsol : sol.Settled f g) (h : sol.LeastAbove f g seed) (hsol' : sol'.Settled f g)
    (h' : sol'.LeastAbove f g seed) (hg : g.Closed) : sol' = { sol with visits := sol'.visits } := by
  have hentry (i : Nat) (hi : i < g.size) : sol'.entry i = sol.entry i :=
    le_antisymm (h'.entry_le hsol h hi) (h.entry_le hsol' h' hi)
  have hexit (i : Nat) (hi : i < g.size) : sol'.exit i = sol.exit i := by
    rw [hsol'.exit_eq i hi, hsol.exit_eq i hi]
    exact Graph.exitOf_congr fun j hj => hentry j (hg.successor_lt hj)
  have hentries : sol'.entries = sol.entries := by
    apply Array.ext
    · rw [hsol'.entries_size, hsol.entries_size]
    · intro i hi hi'
      simpa [entry, hi, hi'] using hentry i (hsol'.entries_size ▸ hi)
  have hexits : sol'.exits = sol.exits := by
    apply Array.ext
    · rw [hsol'.exits_size, hsol.exits_size]
    · intro i hi hi'
      simpa [exit, hi, hi'] using hexit i (hsol'.exits_size ▸ hi)
  have hpoints : sol'.points = sol.points := by
    rw [hsol'.points_eq, hsol.points_eq, List.flatMap_def, List.flatMap_def]
    refine congrArg List.flatten (List.map_congr_left fun i hi => ?_)
    rw [hexit i (Graph.mem_indices.1 hi)]
  rw [← hentries, ← hexits, ← hpoints]

end Solution

namespace Problem.Lawful

variable [DecidableEq S] [WellFoundedGT S] {p : Problem σ S} {m : Method} {seed : Seed S}

theorem solve_settles_of_chains (hp : p.Lawful f g) (hg : g.WellFormed) (hm : g.Marked)
    (hne : g.statements ≠ []) (hseed : seed.Below f g) (memory : σ) (o : Options) :
    ∃ sol enough, (∀ budget ≥ enough, p.solve g o seed budget memory = .ok sol memory) ∧
      sol.Settled f g ∧ sol.LeastAbove f g seed := by
  obtain ⟨s, enough, hrun, hs, hq, hrises⟩ :=
    (Solver.growing_start o.order hg.closed hg.size_pos hseed).run_settles hp hg.closed memory
  refine ⟨s.solution f g, enough, fun budget hb => ?_, hs.settled hq, hrises.leastAbove⟩
  exact hp.solve_eq (hg.check_eq hm) hne o (hrun budget hb) hs hq

/-- On the graph of a method, whatever the order of visits, the solver ends with the least solution above a
seed that no equation contradicts. -/
theorem solve_least (hp : p.Lawful f g) (hg : Graph.build m = .ok g) (hne : g.statements ≠ [])
    (hseed : seed.Below f g) (memory : σ) :
    ∃ sol : Solution S, sol.Settled f g ∧ sol.LeastAbove f g seed ∧
      (m.ids.Nodup → ∀ i pre s post, g.stmts i = pre ++ s :: post →
        sol.after? s.id = some (post.foldr f (sol.exit i)) ∧
          sol.before? s.id = some (f s (post.foldr f (sol.exit i)))) ∧
      ∀ o : Options, ∃ visits enough, ∀ budget ≥ enough,
        p.solve g o seed budget memory = .ok { sol with visits } memory := by
  have hwf := Graph.wellFormed_of_build hg
  have hsolve := hp.solve_settles_of_chains hwf (Graph.marked_of_build hg) hne hseed memory
  obtain ⟨sol, _, _, hsol, hleast⟩ := hsolve {}
  refine ⟨sol, hsol, hleast, fun hids i pre s post hplace => ?_, fun o => ?_⟩
  · have hnodup : (sol.points.map (·.stmt.id)).Nodup := by
      rw [hsol.map_id_points]
      exact Graph.nodup_ids_of_build hg hids
    have hpoint := Solution.point?_of_mem hnodup (hsol.mem_points_of_place hplace)
    rw [Solution.after?, Solution.before?, hpoint]
    exact ⟨rfl, rfl⟩
  · obtain ⟨sol', enough, hrun, hsol', hleast'⟩ := hsolve o
    rw [hleast.eq hsol hsol' hleast' hwf.closed] at hrun
    exact ⟨sol'.visits, enough, hrun⟩

end Problem.Lawful

def leastWith (s : Stmt) (a : WithBot ℕᵒᵈ) : WithBot ℕᵒᵈ := a ⊔ ((OrderDual.toDual s.id : ℕᵒᵈ) : WithBot ℕᵒᵈ)

/-- The least number of a statement that control can still come to. The states have ascending chains of
every length, but no infinite ones. -/
def leastAhead : Problem Unit (WithBot ℕᵒᵈ) where
  bottom := pure ⊥
  join a b := pure (a ⊔ b)
  transfer s a := pure (leastWith s a)
  includes a b := decide (b ≤ a)
  text a := a.recBotCoe "none" fun n => toString (OrderDual.ofDual n)

theorem lawful_leastAhead (g : Graph) : leastAhead.Lawful leastWith g where
  bottom := rfl
  join _ _ := rfl
  transfer _ _ := rfl
  monotone _ _ _ h := sup_le_sup_right h _
  includes _ _ := decide_eq_true_iff

def printing : Method where
  name := "print"
  isStatic := false
  returns := .void
  params := []
  locals := []
  body := [.loop ⟨0, .start⟩ (.var "on") (.print ⟨1, .start⟩ (.int 1))]
  loc := .start

theorem solve_least_printing : ∃ g, ∃ sol : Solution (WithBot ℕᵒᵈ),
    Graph.build printing = .ok g ∧ g.statements ≠ [] ∧ sol.LeastAbove leastWith g {} ∧
      ∀ o : Options, ∃ visits enough, ∀ budget ≥ enough,
        leastAhead.solve g o {} budget () = .ok { sol with visits } () := by
  obtain ⟨g, hg⟩ := Graph.build_of_no_strays (m := printing) rfl
  have hne : g.statements ≠ [] := by
    rw [Graph.statements_of_build hg]
    exact List.cons_ne_nil _ _
  obtain ⟨sol, _, hleast, _, hsolve⟩ :=
    (lawful_leastAhead g).solve_least hg hne (Seed.below_empty _ g) ()
  exact ⟨g, sol, hg, hne, hleast, hsolve⟩

end Backflow
