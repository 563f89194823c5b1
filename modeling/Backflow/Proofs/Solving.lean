import Backflow.Proofs.Sequencing
import Backflow.Proofs.Settling
import Mathlib.Algebra.BigOperators.Ring.Finset

namespace Backflow

variable {σ S : Type} [SemilatticeSup S] [OrderBot S]

namespace Seed

def entry (seed : Seed S) (i : Nat) : S := (seed.entry? i).getD ⊥

def exit (seed : Seed S) (i : Nat) : S := (seed.exit? i).getD ⊥

/-- No seeded state is above what its equation asks for. -/
structure Below (seed : Seed S) (f : Stmt → S → S) (g : Graph) : Prop where
  exit_le : ∀ i < g.size, seed.exit i ≤ g.exitOf seed.entry i
  entry_le : ∀ i < g.size, seed.entry i ≤ g.entryOf f seed.entry i

structure Meets (seed : Seed S) (f : Stmt → S → S) (g : Graph) : Prop where
  exit_eq : ∀ i < g.size, seed.exit i = g.exitOf seed.entry i
  entry_eq : ∀ i < g.size, seed.entry i = g.entryOf f seed.entry i

theorem Meets.below {seed : Seed S} {f : Stmt → S → S} {g : Graph} (h : seed.Meets f g) : seed.Below f g :=
  ⟨fun i hi => (h.exit_eq i hi).le, fun i hi => (h.entry_eq i hi).le⟩

theorem below_empty (f : Stmt → S → S) (g : Graph) : ({} : Seed S).Below f g :=
  ⟨fun _ _ => bot_le, fun _ _ => bot_le⟩

theorem meets_empty (f : Stmt → S → S) {g : Graph} (hnil : g.statements = []) : ({} : Seed S).Meets f g := by
  have hexit (i : Nat) : g.exitOf ({} : Seed S).entry i = ⊥ :=
    le_bot_iff.1 (Graph.exitOf_le_iff.2 fun _ _ => bot_le)
  refine ⟨fun i _ => (hexit i).symm, fun i _ => ?_⟩
  rw [Graph.entryOf, Graph.stmts_eq_nil hnil, List.foldr_nil, hexit]
  rfl

end Seed

namespace Solution

def entry (sol : Solution S) (i : Nat) : S := sol.entries.getD i ⊥

def exit (sol : Solution S) (i : Nat) : S := sol.exits.getD i ⊥

/-- All equations are met, and the states around statements are those that the exits determine. -/
structure Settled (sol : Solution S) (f : Stmt → S → S) (g : Graph) : Prop where
  entries_size : sol.entries.size = g.size
  exits_size : sol.exits.size = g.size
  exit_eq : ∀ i < g.size, sol.exit i = g.exitOf sol.entry i
  entry_eq : ∀ i < g.size, sol.entry i = g.entryOf f sol.entry i
  points_eq : sol.points = g.indices.flatMap fun i => around f (g.stmts i) (sol.exit i)

/-- The solution is above a seed, but below everything above the seed that meets the equations, as an
inequality at least. -/
structure LeastAbove (sol : Solution S) (f : Stmt → S → S) (g : Graph) (seed : Seed S) : Prop where
  le : ∀ i < g.size, seed.entry i ≤ sol.entry i
  least : ∀ e : Nat → S, (∀ i < g.size, g.entryOf f e i ≤ e i) → (∀ i < g.size, seed.entry i ≤ e i) →
    ∀ i < g.size, sol.entry i ≤ e i

theorem Settled.meets {sol : Solution S} {f : Stmt → S → S} {g : Graph} (h : sol.Settled f g) :
    sol.seed.Meets f g := by
  have hentry : sol.seed.entry = sol.entry := funext fun i => by
    rw [entry, Array.getD_eq_getD_getElem?]
    rfl
  have hexit : sol.seed.exit = sol.exit := funext fun i => by
    rw [exit, Array.getD_eq_getD_getElem?]
    rfl
  refine ⟨?_, ?_⟩
  · rw [hexit, hentry]
    exact h.exit_eq
  · rw [hentry]
    exact h.entry_eq

end Solution

namespace Solver

variable {f : Stmt → S → S} {g : Graph} (o : Order) (seed : Seed S)

theorem start_entry {i : Nat} (hi : i < g.size) : (start g o seed ⊥).entry i = seed.entry i := by
  simp [State.entry, start, Seed.entry, hi]

theorem start_exit {i : Nat} (hi : i < g.size) : (start g o seed ⊥).exit i = seed.exit i := by
  simp [State.exit, start, Seed.exit, hi]

theorem start_entry_of_le {i : Nat} (hi : g.size ≤ i) : (start g o seed ⊥).entry i = ⊥ := by
  simp [State.entry, start, Nat.not_lt.2 hi]

variable {seed} in
theorem growing_start (hg : g.Closed) (hsize : 0 < g.size) (h : seed.Below f g) :
    Growing f g (start g o seed ⊥) := by
  have hqueue (i : Nat) : i ∈ (start g o seed ⊥).queue ↔ i < g.size :=
    Graph.mem_worklist hsize o
  have hsucc (i j : Nat) (hj : j ∈ g.successors i) : seed.entry j = (start g o seed ⊥).entry j :=
    (start_entry o seed (hg.successor_lt hj)).symm
  refine ⟨by simp [start], by simp [start], fun i hi => (hqueue i).1 hi, ?_, ?_, ?_, ?_⟩
  · intro i hi
    rw [start_exit o seed hi, ← Graph.exitOf_congr (hsucc i)]
    exact h.exit_le i hi
  · intro i hi
    rw [start_entry o seed hi, ← Graph.entryOf_congr (hsucc i)]
    exact h.entry_le i hi
  · exact fun i hi hout => absurd ((hqueue i).2 hi) hout
  · exact fun i hi hout => absurd ((hqueue i).2 hi) hout

theorem potential_start_le (hsize : 0 < g.size) (rank : S → Nat) (height : Nat) :
    potential rank height g (start g o seed ⊥) ≤ g.size + height * g.edges.length := by
  have hlen : (start g o seed ⊥).queue.length = g.size := Graph.length_worklist hsize o
  have hsum : ∑ i ∈ Finset.range g.size,
      (height - rank ((start g o seed ⊥).entry i)) * (g.predecessors i).length ≤
      height * ∑ i ∈ Finset.range g.size, (g.predecessors i).length := by
    rw [Finset.mul_sum]
    exact Finset.sum_le_sum fun i _ => Nat.mul_le_mul_right _ (Nat.sub_le _ _)
  have hedges := Nat.mul_le_mul_left height (sum_predecessors_le g)
  unfold potential
  omega

def State.solution (f : Stmt → S → S) (g : Graph) (s : State S) : Solution S where
  entries := s.entries
  exits := s.exits
  points := g.indices.flatMap fun i => around f (g.stmts i) (s.exit i)
  visits := s.visits.reverse

theorem Growing.settled {s : State S} (hs : Growing f g s) (hq : s.queue = []) :
    (s.solution f g).Settled f g := by
  have hout (i : Nat) : i ∉ s.queue := hq ▸ List.not_mem_nil
  exact ⟨hs.entries_size, hs.exits_size, fun i hi => hs.exit_eq i hi (hout i),
    fun i hi => hs.entry_eq i hi (hout i), rfl⟩

variable {o seed} in
theorem Rises.leastAbove {s : State S} (h : Rises f g (start g o seed ⊥) s) :
    (s.solution f g).LeastAbove f g seed := by
  refine ⟨fun i hi => ?_, fun e he hse i _ => ?_⟩
  · rw [← start_entry o seed hi]
    exact h.le i
  · refine h.least e he (fun j => ?_) i
    by_cases hj : j < g.size
    · rw [start_entry o seed hj]
      exact hse j hj
    · rw [start_entry_of_le o seed (Nat.le_of_not_lt hj)]
      exact bot_le

end Solver

namespace Problem.Lawful

variable [DecidableEq S] {p : Problem σ S} {f : Stmt → S → S} {g : Graph} {rank : S → Nat} {height : Nat}

omit [SemilatticeSup S] [OrderBot S] [DecidableEq S] in
theorem lift_check (hcheck : g.check = .ok ()) : (lift g.check : EStateM AnalysisError σ Unit) = pure () := by
  rw [hcheck]
  rfl

theorem solve_eq (hp : p.Lawful f g) (hcheck : g.check = .ok ()) (hne : g.statements ≠ []) (o : Options)
    {seed : Seed S} {budget : Nat} {m : σ} {s : Solver.State S}
    (hrun : Solver.run p g ⊥ budget (Solver.start g o.order seed ⊥) m = .ok (some s) m)
    (hs : Solver.Growing f g s) (hq : s.queue = []) :
    p.solve g o seed budget m = .ok (s.solution f g) m := by
  have hempty : g.statements.isEmpty = false := by
    rw [List.isEmpty_eq_false_iff]
    exact hne
  have hpoints := Solver.refine_eq hp hs hq fun i hi => Graph.mem_indices.1 hi
  rw [solve, lift_check hcheck, hp.bottom]
  simp only [ite_self, pure_bind, hempty, Bool.false_eq_true, if_false]
  rw [bind_of_ok hrun]
  simp only [hpoints, pure_bind]
  rfl

theorem solve_empty (hp : p.Lawful f g) (hg : g.Closed) (hcheck : g.check = .ok ())
    (hnil : g.statements = []) (o : Options) {seed : Seed S} (hseed : seed.Meets f g) (budget : Nat) (m : σ) :
    ∃ sol, p.solve g o seed budget m = .ok sol m ∧ sol.Settled f g ∧ sol.LeastAbove f g seed := by
  have hsolve : p.solve g o seed budget m = .ok ⟨(Solver.start g o.order seed ⊥).entries,
      (Solver.start g o.order seed ⊥).exits, [], []⟩ m := by
    rw [solve, lift_check hcheck, hp.bottom]
    simp only [ite_self, pure_bind, hnil, List.isEmpty_nil, if_true]
    rfl
  have hsucc (i j : Nat) (hj : j ∈ g.successors i) :
      seed.entry j = (Solver.start g o.order seed ⊥).entry j :=
    (Solver.start_entry o.order seed (hg.successor_lt hj)).symm
  refine ⟨_, hsolve, ⟨by simp [Solver.start], by simp [Solver.start], fun i hi => ?_, fun i hi => ?_, ?_⟩,
    fun i hi => ?_, fun e _ he i hi => ?_⟩
  · refine (Solver.start_exit o.order seed hi).trans ?_
    rw [hseed.exit_eq i hi]
    exact Graph.exitOf_congr (hsucc i)
  · refine (Solver.start_entry o.order seed hi).trans ?_
    rw [hseed.entry_eq i hi]
    exact Graph.entryOf_congr (hsucc i)
  · rw [List.flatMap_eq_nil_iff.2 fun i _ => ?_]
    rw [Graph.stmts_eq_nil hnil]
    rfl
  · exact (Solver.start_entry o.order seed hi).ge
  · exact (Solver.start_entry o.order seed hi).trans_le (he i hi)

/-- With a seed that no equation contradicts, the solver finds the least solution above it. -/
theorem solve_settles (hp : p.Lawful f g) (hr : Solver.Ranked rank height) (hg : g.Closed)
    (hsize : 0 < g.size) (hcheck : g.check = .ok ()) (o : Options) {seed : Seed S} (hseed : seed.Below f g)
    (hempty : g.statements = [] → seed.Meets f g) {budget : Nat}
    (hb : g.size + height * g.edges.length ≤ budget) (m : σ) :
    ∃ sol, p.solve g o seed budget m = .ok sol m ∧ sol.Settled f g ∧ sol.LeastAbove f g seed := by
  by_cases hne : g.statements = []
  · exact hp.solve_empty hg hcheck hne o (hempty hne) budget m
  have hstart := Solver.growing_start o.order hg hsize hseed
  have hpot := (Solver.potential_start_le o.order seed hsize rank height).trans hb
  obtain ⟨s, hrun, hs, hq, hrises⟩ := Solver.run_settles hp hr hg m hstart hpot
  exact ⟨_, hp.solve_eq hcheck hne o hrun hs hq, hs.settled hq, hrises.leastAbove⟩

end Backflow.Problem.Lawful
