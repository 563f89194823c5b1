import Backflow.Proofs.Consistency
import Backflow.Proofs.LeastSolution

namespace Backflow

namespace Solver

section

variable {σ S : Type} [DecidableEq S] {p : Problem σ S} {g : Graph} {bottom : S} {s s' : State S} {budget : Nat}
  {m m' : σ}

/-- The visits of a run that ends can be counted, and every budget that allows for them gives the same answer. -/
theorem run_eq_some_iff (h : run p g bottom budget s m = .ok (some s') m') :
    ∃ n, s'.visits.length = s.visits.length + n ∧
      ∀ budget, run p g bottom budget s m = .ok (some s') m' ↔ n ≤ budget := by
  induction budget generalizing s m with
  | zero =>
      cases hq : s.queue with
      | nil =>
          rw [run_nil hq] at h
          cases h
          exact ⟨0, rfl, fun budget => by simp [run_nil hq]⟩
      | cons i queue =>
          rw [run_zero_cons hq] at h
          cases h
  | succ budget ih =>
      cases hq : s.queue with
      | nil =>
          rw [run_nil hq] at h
          cases h
          exact ⟨0, rfl, fun budget => by simp [run_nil hq]⟩
      | cons i queue =>
          rw [run_cons hq, bind_ok] at h
          obtain ⟨s₁, m₁, hvisit, hrun⟩ := h
          obtain ⟨n, hlen, hiff⟩ := ih hrun
          obtain ⟨exit, _, entry, _, _, _, _, rfl⟩ := visit_eq_ok.1 hvisit
          refine ⟨n + 1, by rw [hlen, State.update, List.length_cons]; omega, fun budget => ?_⟩
          cases budget with
          | zero => simp [run_zero_cons hq]
          | succ budget =>
              rw [run_cons hq, bind_of_ok hvisit, hiff]
              omega

def State.Minds (s : State S) (i : Nat) : Prop := i ∈ s.queue ∨ i ∈ s.visits.map (·.block)

theorem State.Minds.visit {i j : Nat} {queue : List Nat} (hj : s.Minds j) (hq : s.queue = i :: queue)
    (hvisit : visit p g bottom s i queue m = .ok s' m') : s'.Minds j := by
  obtain ⟨exit, _, entry, _, _, _, _, rfl⟩ := visit_eq_ok.1 hvisit
  by_cases hout : j ∈ (s.update g bottom i queue exit entry).queue
  · exact Or.inl hout
  · right
    by_cases hji : j = i
    · simp [State.update, hji]
    · exact List.mem_cons_of_mem i (hj.resolve_left (not_mem_of_not_mem_update hq hji hout))

theorem State.Minds.mem_visits {i : Nat} (hi : s.Minds i) (h : run p g bottom budget s m = .ok (some s') m') :
    i ∈ s'.visits.map (·.block) := by
  obtain ⟨hi', hq⟩ := run_induction (P := fun s => s.Minds i)
    (fun s j queue m s' m' hq hvisit hi => hi.visit hq hvisit) h hi
  apply hi'.resolve_left
  simp [hq]

omit [DecidableEq S] in
theorem fits_start (hsize : 0 < g.size) (o : Order) (seed : Seed S) : (start g o seed bottom).Fits g :=
  ⟨by simp [start], fun _ hi => (Graph.mem_worklist hsize o).1 hi⟩

end

variable {σ S : Type} [SemilatticeSup S] [OrderBot S] [DecidableEq S] {p : Problem σ S} {g : Graph}

section

variable {rank : S → Nat} {height : Nat} {s s' : State S} {m m' : σ}

/-- A visit is paid for by the potential, whatever the operations answer: it fails, or the entry of the block does not
fall. -/
theorem potential_visit (hr : Ranked rank height) (hincl : ∀ a b, p.includes a b = true ↔ b ≤ a) (hg : g.Closed)
    (hs : s.Fits g) {i : Nat} {queue : List Nat} (hq : s.queue = i :: queue)
    (hvisit : visit p g ⊥ s i queue m = .ok s' m') : s'.Fits g ∧
      s'.visits.length + potential rank height g s' ≤ s.visits.length + potential rank height g s := by
  obtain ⟨exit, _, entry, _, _, _, hentry, rfl⟩ := visit_eq_ok.1 hvisit
  have hi := hs.lt_of_cons hq
  have hlt : potential rank height g (s.update g ⊥ i queue exit entry) < potential rank height g s :=
    potential_lt hr hi hq ((hincl _ _).1 hentry) (getD_setIfInBounds (hs.entries_size.symm ▸ hi) entry ⊥) rfl
  have hlen : (s.update g ⊥ i queue exit entry).visits.length = s.visits.length + 1 := rfl
  exact ⟨hs.update hg hq exit entry, by omega⟩

theorem length_visits_le (hr : Ranked rank height) (hincl : ∀ a b, p.includes a b = true ↔ b ≤ a) (hg : g.Closed)
    (hs : s.Fits g) {budget : Nat} (h : run p g ⊥ budget s m = .ok (some s') m') :
    s'.visits.length ≤ s.visits.length + potential rank height g s := by
  have hrun := run_induction (P := fun t => t.Fits g ∧
      t.visits.length + potential rank height g t ≤ s.visits.length + potential rank height g s)
    (fun t i queue m t' m' hq hvisit ht => by
      have hstep := potential_visit hr hincl hg ht.1 hq hvisit
      exact ⟨hstep.1, hstep.2.trans ht.2⟩) h ⟨hs, le_rfl⟩
  have hle := hrun.1.2
  omega

end

end Solver

namespace Problem

variable {σ S : Type} [DecidableEq S] {p : Problem σ S} {g : Graph} {o : Options} {seed : Seed S}
  {budget budget' : Nat} {m m' : σ} {sol : Solution S}

omit [DecidableEq S] in
theorem bind_congr_at {α β : Type} {x x' : EStateM AnalysisError σ α} {k k' : α → EStateM AnalysisError σ β}
    (hx : x m = x' m) (h : ∀ a m₁, x' m = .ok a m₁ → k a m₁ = k' a m₁) : (x >>= k) m = (x' >>= k') m := by
  change EStateM.bind x k m = EStateM.bind x' k' m
  rw [EStateM.bind, EStateM.bind, hx]
  cases hx' : x' m with
  | ok a m₁ => exact h a m₁ hx'
  | error e m₁ => rfl

omit [DecidableEq S] in
theorem first_congr {α : Type} {c : Prop} [Decidable c] {x : Except AnalysisError Unit}
    {k k' : EStateM AnalysisError σ α} (h : k m = k' m) :
    (if c then do lift x; k else k) m = (if c then do lift x; k' else k') m := by
  split
  · apply bind_congr_at rfl
    intro _ m₁ hx
    obtain ⟨_, rfl⟩ := lift_eq_ok.1 hx
    exact h
  · exact h

theorem solve_congr (h : ∀ bottom m₁, g.statements ≠ [] → p.bottom m = .ok bottom m₁ →
    Solver.run p g bottom budget (Solver.start g o.order seed bottom) m₁ =
      Solver.run p g bottom budget' (Solver.start g o.order seed bottom) m₁ ∧
    ∀ m₂, Solver.run p g bottom budget' (Solver.start g o.order seed bottom) m₁ ≠ .ok none m₂) :
    p.solve g o seed budget m = p.solve g o seed budget' m := by
  by_cases hne : g.statements = []
  · simp only [solve, hne, List.isEmpty_nil, if_true]
  have hempty : g.statements.isEmpty = false := List.isEmpty_eq_false_iff.2 hne
  simp only [solve, hempty, Bool.false_eq_true, if_false]
  apply first_congr
  apply bind_congr_at rfl
  intro bottom m₁ hbottom
  obtain ⟨hrun, hends⟩ := h bottom m₁ hne hbottom
  apply bind_congr_at hrun
  intro answer m₂ hanswer
  cases answer with
  | none => exact absurd hanswer (hends m₂)
  | some s => rfl

theorem run_start_ends [PartialOrder S] [WellFoundedGT S] (hincl : ∀ a b, p.includes a b = true ↔ b ≤ a)
    (hg : g.Closed) (o : Order) (seed : Seed S) (m : σ) : ∃ enough, ∀ bottom m₁, g.statements ≠ [] →
      p.bottom m = .ok bottom m₁ → ∀ budget ≥ enough,
        Solver.run p g bottom budget (Solver.start g o seed bottom) m₁ =
          Solver.run p g bottom enough (Solver.start g o seed bottom) m₁ ∧
        ∀ m₂, Solver.run p g bottom budget (Solver.start g o seed bottom) m₁ ≠ .ok none m₂ := by
  by_cases hloop : g.statements ≠ [] ∧ ∃ bottom m₁, p.bottom m = .ok bottom m₁
  · obtain ⟨hne, bottom, m₁, hbottom⟩ := hloop
    have hfits : (Solver.start g o seed bottom).Fits g := Solver.fits_start (Graph.size_pos_of_statements hne) o seed
    obtain ⟨enough, henough⟩ := Solver.run_ends hincl hg hfits m₁
    refine ⟨enough, fun bottom' m₁' _ hbottom' budget hb => ?_⟩
    rw [hbottom] at hbottom'
    cases hbottom'
    exact henough budget hb
  · exact ⟨0, fun bottom m₁ hne hbottom => absurd ⟨hne, bottom, m₁, hbottom⟩ hloop⟩

theorem solve_of_iterations_le (hne : g.statements ≠ []) (h : p.solve g o seed budget m = .ok sol m') :
    sol.iterations ≤ budget ∧ ∀ budget' ≥ sol.iterations, p.solve g o seed budget' m = .ok sol m' := by
  obtain ⟨hcheck, bottom, m₁, s, m₂, points, hbottom, hrun, hrefine, rfl⟩ := (solve_eq_ok_iff hne).1 h
  obtain ⟨n, hlen, hiff⟩ := Solver.run_eq_some_iff hrun
  have hn : n = s.visits.length := by simpa [Solver.start] using hlen.symm
  rw [Solution.iterations, List.length_reverse, ← hn]
  refine ⟨(hiff budget).1 hrun, fun budget' hb => ?_⟩
  exact (solve_eq_ok_iff hne).2 ⟨hcheck, bottom, m₁, s, m₂, points, hbottom, (hiff budget').2 hb, hrefine, rfl⟩

theorem size_le_iterations (hne : g.statements ≠ []) (h : p.solve g o seed budget m = .ok sol m') :
    g.size ≤ sol.iterations := by
  obtain ⟨_, bottom, m₁, s, m₂, points, _, hrun, _, rfl⟩ := (solve_eq_ok_iff hne).1 h
  have hvisited : g.indices ⊆ s.visits.map (·.block) := by
    intro i hi
    apply Solver.State.Minds.mem_visits (Or.inl _) hrun
    exact (Graph.mem_worklist (Graph.size_pos_of_statements hne) o.order).2 (Graph.mem_indices.1 hi)
  have hlen := (Graph.nodup_indices.subperm hvisited).length_le
  rw [Graph.indices, List.length_range, List.length_map] at hlen
  rwa [Solution.iterations, List.length_reverse]

/-- With states of a bounded height the visits are bounded too, monotone or not. -/
theorem iterations_le [SemilatticeSup S] [OrderBot S] {rank : S → Nat} {height : Nat} (hr : Solver.Ranked rank height)
    (hbottom : p.bottom = pure ⊥) (hincl : ∀ a b, p.includes a b = true ↔ b ≤ a) (hg : g.Closed)
    (hne : g.statements ≠ []) (h : p.solve g o seed budget m = .ok sol m') :
    sol.iterations ≤ g.size + height * g.edges.length := by
  obtain ⟨_, bottom, m₁, s, m₂, points, hb, hrun, _, rfl⟩ := (solve_eq_ok_iff hne).1 h
  rw [hbottom] at hb
  cases hb
  have hsize := Graph.size_pos_of_statements hne
  have hle := Solver.length_visits_le hr hincl hg (Solver.fits_start hsize o.order seed) hrun
  have hstart := Solver.potential_start_le o.order seed hsize rank height
  have hnone : (Solver.start g o.order seed (⊥ : S)).visits.length = 0 := rfl
  rw [Solution.iterations, List.length_reverse]
  omega

end Problem

theorem Liveness.iterations_of_compute {m : Method} {g : Graph} (hg : Graph.build m = .ok g) (hne : g.statements ≠ [])
    (o : Options) : ∃ l, compute m o = .ok l ∧ g.size ≤ l.iterations ∧
      l.iterations ≤ g.size + l.vars.size * g.edges.length ∧
        ∀ budget, l.vars.problem.solve g o {} budget () = .ok l.flow () ↔ l.iterations ≤ budget := by
  obtain ⟨sol, hcompute, _⟩ := compute_settles hg o
  obtain ⟨g', sol', hg', hsolve, heq⟩ := compute_eq_ok.1 hcompute
  cases heq
  rw [Numbering.solve_eq_ok] at hsolve
  have hlawful := Numbering.lawful_problem (Graph.covers_of_build hg)
  refine ⟨_, hcompute, Problem.size_le_iterations hne hsolve, ?_, fun budget => ⟨fun h => ?_, fun hb => ?_⟩⟩
  · exact Problem.iterations_le VarSet.ranked hlawful.bottom hlawful.includes (Graph.wellFormed_of_build hg).closed
      hne hsolve
  · exact (Problem.solve_of_iterations_le hne h).1
  · exact (Problem.solve_of_iterations_le hne hsolve).2 budget hb

/-- The loop of the solver cannot go on for ever. The states may be any partial order without infinite ascending
chains, and the operations may answer what they like: from some budget on, a larger one makes no difference, and no
block waits when the loop ends. For live variables of a method that has a statement other than a block, the visits lie
between the number of blocks and that number with one more visit for each variable and edge, and a budget does no more
than to allow for them. -/
theorem worklist_terminates :
    (∀ {σ S : Type} [DecidableEq S] [PartialOrder S] [WellFoundedGT S] (p : Problem σ S) (g : Graph),
      (∀ a b, p.includes a b = true ↔ b ≤ a) → g.Closed → ∀ (o : Options) (seed : Seed S) (memory : σ),
        ∃ enough, ∀ budget ≥ enough, p.solve g o seed budget memory = p.solve g o seed enough memory ∧
          ∀ bottom m₁ m₂, g.statements ≠ [] → p.bottom memory = .ok bottom m₁ →
            Solver.run p g bottom budget (Solver.start g o.order seed bottom) m₁ ≠ .ok none m₂) ∧
    ∀ (m : Method) (g : Graph), Graph.build m = .ok g → (∃ s ∈ m.statements, s.isBlock = false) → ∀ o : Options,
      ∃ l, Liveness.compute m o = .ok l ∧ g.size ≤ l.iterations ∧
        l.iterations ≤ g.size + l.vars.size * g.edges.length ∧
          ∀ budget, l.vars.problem.solve g o {} budget () = .ok l.flow () ↔ l.iterations ≤ budget := by
  refine ⟨?_, fun m g hg hne => Liveness.iterations_of_compute hg ((Graph.statements_ne_nil_iff hg).2 hne)⟩
  intro σ S _ _ _ p g hincl hg o seed memory
  obtain ⟨enough, henough⟩ := Problem.run_start_ends hincl hg o.order seed memory
  refine ⟨enough, fun budget hb => ⟨Problem.solve_congr fun bottom m₁ hne hbottom => ?_, ?_⟩⟩
  · exact ⟨(henough bottom m₁ hne hbottom budget hb).1, (henough bottom m₁ hne hbottom enough le_rfl).2⟩
  · exact fun bottom m₁ m₂ hne hbottom => (henough bottom m₁ hne hbottom budget hb).2 m₂

/-- A problem whose operations are no functions: the transfer counts its calls, and the first one rises further than
the others. -/
def erratic : Problem Nat (Fin 6) where
  bottom := pure 0
  join a b := pure (max a b)
  transfer _ _ := modifyGet fun calls => (if calls = 0 then 5 else 1, calls + 1)
  includes a b := decide (b ≤ a)
  text a := toString a.val

def repeated : Graph where
  blocks := #[{ kind := .entry }, { kind := .exit }, { kind := .basic, stmts := [.print ⟨0, .start⟩ (.int 1)] }]
  edges := [⟨2, 1, .ifFalse⟩, ⟨2, 2, .back⟩, ⟨0, 2, .sequence⟩]

theorem worklist_terminates_erratic :
    (∃ enough, ∀ budget ≥ enough, ∀ calls,
      Solver.run erratic repeated 0 budget (Solver.start repeated .byIndex {} 0) 0 ≠ .ok none calls) ∧
    ∃ g l, Graph.build printing = .ok g ∧ Liveness.compute printing { order := .byIndex, check := false } = .ok l ∧
      g.size ≤ l.iterations ∧ l.iterations ≤ g.size + l.vars.size * g.edges.length ∧ l.iterations = 6 := by
  have hincl : ∀ a b, erratic.includes a b = true ↔ b ≤ a := fun _ _ => decide_eq_true_iff
  have hclosed : repeated.Closed := by
    unfold Graph.Closed
    decide
  obtain ⟨enough, henough⟩ :=
    worklist_terminates.1 erratic repeated hincl hclosed { order := .byIndex, check := false } {} 0
  obtain ⟨g, hg⟩ := Graph.build_of_no_strays (m := printing) rfl
  have hne : ∃ s ∈ printing.statements, s.isBlock = false := ⟨_, List.mem_cons_self, rfl⟩
  have hcount : (Liveness.compute printing { order := .byIndex, check := false }).toOption.any (fun l =>
      l.iterations = 6) = true := by decide +kernel
  obtain ⟨l, hl, hlow, hhigh, _⟩ := worklist_terminates.2 printing g hg hne { order := .byIndex, check := false }
  rw [hl] at hcount
  refine ⟨⟨enough, fun budget hb calls => (henough budget hb).2 0 0 calls ?_ rfl⟩, ?_⟩
  · exact List.cons_ne_nil _ _
  · exact ⟨g, l, hg, hl, hlow, hhigh, of_decide_eq_true hcount⟩

end Backflow
