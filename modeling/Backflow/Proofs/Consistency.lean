import Backflow.Proofs.LiveTables
import Backflow.Proofs.Visits

namespace Backflow

variable {σ S : Type} {p : Problem σ S} {bottom : Except AnalysisError S}
  {join : S → S → Except AnalysisError S} {transfer : Stmt → S → Except AnalysisError S} {g : Graph}

namespace Problem

/-- The operations of a problem are functions of the states alone. They may fail. -/
structure Functional (p : Problem σ S) (bottom : Except AnalysisError S)
    (join : S → S → Except AnalysisError S) (transfer : Stmt → S → Except AnalysisError S) : Prop where
  bottom : p.bottom = lift bottom
  join (a b : S) : p.join a b = lift (join a b)
  transfer (s : Stmt) (a : S) : p.transfer s a = lift (transfer s a)

theorem lift_eq_ok {α : Type} {x : Except AnalysisError α} {m m' : σ} {a : α} :
    (lift x : EStateM AnalysisError σ α) m = .ok a m' ↔ x = .ok a ∧ m = m' := by
  cases x <;> simp [lift]

theorem lift_bind {α β : Type} (x : Except AnalysisError α) (k : α → Except AnalysisError β) :
    (lift x >>= fun a => lift (k a) : EStateM AnalysisError σ β) = lift (x >>= k) := by
  cases x <;> rfl

namespace Functional

theorem joinAll_eq (h : p.Functional bottom join transfer) (l : List S) (a : S) :
    p.joinAll a l = lift (l.foldlM join a) := by
  induction l generalizing a with
  | nil => rfl
  | cons x l ih => simp only [joinAll, h.join, ih, List.foldlM_cons, lift_bind]

theorem before_eq (h : p.Functional bottom join transfer) (l : List Stmt) (a : S) :
    p.before l a = lift (l.foldrM transfer a) := by
  induction l with
  | nil => rfl
  | cons s l ih => simp only [before, h.transfer, ih, List.foldrM_cons, lift_bind]

end Functional

end Problem

/-- The point holds the states around the statement before `post`, if `exit` is the state after `post`. -/
def Point.Between (q : Point S) (transfer : Stmt → S → Except AnalysisError S) (post : List Stmt) (exit : S) :
    Prop :=
  post.foldrM transfer exit = .ok q.after ∧ transfer q.stmt q.after = .ok q.before

theorem Problem.Functional.points_eq_ok (h : p.Functional bottom join transfer) {l : List Stmt} {a b : S}
    {points : List (Point S)} {m m' : σ} (hpoints : p.points l a m = .ok (b, points) m') :
    l.foldrM transfer a = .ok b ∧ points.map (·.stmt) = l ∧
      ∀ pre s post, l = pre ++ s :: post → ∃ q ∈ points, q.stmt = s ∧ q.Between transfer post a := by
  induction l generalizing b points m' with
  | nil =>
      cases hpoints
      exact ⟨rfl, rfl, fun pre s post hl => absurd hl (by simp)⟩
  | cons s l ih =>
      simp only [Problem.points, bind_ok] at hpoints
      obtain ⟨⟨after, rest⟩, m₁, hrest, before, m₂, htransfer, heq⟩ := hpoints
      cases heq
      rw [h.transfer, lift_eq_ok] at htransfer
      obtain ⟨hfold, hstmts, hplaces⟩ := ih hrest
      refine ⟨?_, by rw [List.map_cons, hstmts], fun pre u post hl => ?_⟩
      · rw [List.foldrM_cons, hfold]
        exact htransfer.1
      · cases pre with
        | nil =>
            cases hl
            exact ⟨_, List.mem_cons_self, rfl, hfold, htransfer.1⟩
        | cons v pre =>
            cases hl
            obtain ⟨q, hq, hbetween⟩ := hplaces pre u post rfl
            exact ⟨q, List.mem_cons_of_mem _ hq, hbetween⟩

namespace Solver

variable [DecidableEq S] {b : S} {s s' : State S} {seed : Seed S} {i : Nat} {queue : List Nat} {m m' : σ}

theorem refine_eq_ok (h : p.Functional bottom join transfer) {l : List Nat} {points : List (Point S)}
    (hrefine : refine p g b s l m = .ok points m') :
    points.map (·.stmt) = l.flatMap g.stmts ∧ ∀ i ∈ l, ∀ pre u post, g.stmts i = pre ++ u :: post →
      ∃ q ∈ points, q.stmt = u ∧ q.Between transfer post (s.exits.getD i b) := by
  induction l generalizing points m with
  | nil =>
      cases hrefine
      exact ⟨rfl, fun i hi => absurd hi List.not_mem_nil⟩
  | cons i l ih =>
      simp only [refine, bind_ok, Problem.guard_eq_ok] at hrefine
      obtain ⟨⟨entry, first⟩, m₁, hfirst, _, more, m₂, hmore, heq⟩ := hrefine
      cases heq
      obtain ⟨_, hstmts, hplaces⟩ := h.points_eq_ok hfirst
      obtain ⟨hstmts', hplaces'⟩ := ih hmore
      refine ⟨by rw [List.map_append, hstmts, hstmts', List.flatMap_cons], fun j hj pre u post hplace => ?_⟩
      rcases List.mem_cons.1 hj with rfl | hj
      · obtain ⟨q, hq, hbetween⟩ := hplaces pre u post hplace
        exact ⟨q, List.mem_append_left _ hq, hbetween⟩
      · obtain ⟨q, hq, hbetween⟩ := hplaces' j hj pre u post hplace
        exact ⟨q, List.mem_append_right _ hq, hbetween⟩

/-- What holds before every visit, monotone or not: the blocks that do not wait meet their own equations,
and no state has fallen below the seed. -/
structure Upheld [LE S] (join : S → S → Except AnalysisError S) (transfer : Stmt → S → Except AnalysisError S)
    (g : Graph) (seed : Seed S) (b : S) (s : State S) : Prop where
  entries_size : s.entries.size = g.size
  exits_size : s.exits.size = g.size
  exit_eq : ∀ i < g.size, i ∉ s.queue →
    ((g.successors i).map (s.entries.getD · b)).foldlM join b = .ok (s.exits.getD i b)
  entry_eq : ∀ i < g.size, i ∉ s.queue →
    (g.stmts i).foldrM transfer (s.exits.getD i b) = .ok (s.entries.getD i b)
  entry_le : ∀ i < g.size, (seed.entry? i).getD b ≤ s.entries.getD i b
  exit_le : ∀ i < g.size, (seed.exit? i).getD b ≤ s.exits.getD i b

omit [DecidableEq S] in
theorem upheld_start [Preorder S] (hsize : 0 < g.size) (o : Order) :
    Upheld join transfer g seed b (start g o seed b) := by
  have hqueue (i : Nat) (hi : i < g.size) : i ∈ (start g o seed b).queue :=
    (Graph.mem_worklist hsize o).2 hi
  refine ⟨by simp [start], by simp [start], ?_, ?_, ?_, ?_⟩
  · exact fun i hi hout => absurd (hqueue i hi) hout
  · exact fun i hi hout => absurd (hqueue i hi) hout
  · intro i hi
    simp [start, hi]
  · intro i hi
    simp [start, hi]

omit [DecidableEq S] in
theorem getD_setIfInBounds_of_ne {a : Array S} {j : Nat} (h : j ≠ i) (x : S) :
    (a.setIfInBounds i x).getD j b = a.getD j b := by
  simp [Array.getD_eq_getD_getElem?, Array.getElem?_setIfInBounds_ne (Ne.symm h)]

theorem entry_update_of_not_mem {exit entry : S} {j k : Nat}
    (hj : j ∉ (s.update g b i queue exit entry).queue) (hk : k ∈ g.successors j) :
    (s.update g b i queue exit entry).entries.getD k b = s.entries.getD k b := by
  by_cases hki : k = i
  · subst hki
    by_cases he : entry = s.entries.getD k b
    · subst he
      by_cases hlt : k < s.entries.size
      · simp [State.update, hlt]
      · simp [State.update, hlt]
    · rw [State.update, if_neg he, mem_enqueue, not_or] at hj
      exact absurd (Graph.mem_predecessors_iff.2 hk) hj.2
  · exact getD_setIfInBounds_of_ne hki entry

theorem not_mem_of_not_mem_update {exit entry : S} {j : Nat} (hq : s.queue = i :: queue) (hji : j ≠ i)
    (hj : j ∉ (s.update g b i queue exit entry).queue) : j ∉ s.queue := by
  rw [hq, List.mem_cons, not_or]
  refine ⟨hji, fun hmem => hj ?_⟩
  unfold State.update
  split
  · exact hmem
  · exact mem_enqueue.2 (Or.inl hmem)

theorem Upheld.visit [Preorder S] (h : p.Functional bottom join transfer)
    (hincl : ∀ x y, p.includes x y = true ↔ y ≤ x) (hs : Upheld join transfer g seed b s)
    (hq : s.queue = i :: queue) (hvisit : visit p g b s i queue m = .ok s' m') :
    Upheld join transfer g seed b s' := by
  obtain ⟨exit, m₁, entry, hexit, hexit_le, hentry, hentry_le, rfl⟩ := visit_eq_ok.1 hvisit
  rw [h.joinAll_eq, Problem.lift_eq_ok] at hexit
  rw [h.before_eq, Problem.lift_eq_ok] at hentry
  rw [hincl] at hexit_le hentry_le
  have hnew {a : Array S} (hsize : a.size = g.size) (hi : i < g.size) (x : S) :
      (a.setIfInBounds i x).getD i b = x := by
    rw [getD_setIfInBounds (hsize.symm ▸ hi), if_pos rfl]
  refine ⟨?_, ?_, ?_, ?_, ?_, ?_⟩
  · simp [State.update, hs.entries_size]
  · simp [State.update, hs.exits_size]
  · intro j hj hout
    have hsame : (g.successors j).map ((s.update g b i queue exit entry).entries.getD · b) =
        (g.successors j).map (s.entries.getD · b) :=
      List.map_congr_left fun k hk => entry_update_of_not_mem hout hk
    rw [hsame]
    by_cases hji : j = i
    · subst hji
      exact hexit.1.trans (congrArg Except.ok (hnew hs.exits_size hj exit).symm)
    · rw [hs.exit_eq j hj (not_mem_of_not_mem_update hq hji hout)]
      exact congrArg Except.ok (getD_setIfInBounds_of_ne hji exit).symm
  · intro j hj hout
    by_cases hji : j = i
    · subst hji
      simp only [State.update, hnew hs.exits_size hj, hnew hs.entries_size hj]
      exact hentry.1
    · simp only [State.update, getD_setIfInBounds_of_ne hji]
      exact hs.entry_eq j hj (not_mem_of_not_mem_update hq hji hout)
  · intro j hj
    by_cases hji : j = i
    · subst hji
      simp only [State.update, hnew hs.entries_size hj]
      exact (hs.entry_le j hj).trans hentry_le
    · simp only [State.update, getD_setIfInBounds_of_ne hji]
      exact hs.entry_le j hj
  · intro j hj
    by_cases hji : j = i
    · subst hji
      simp only [State.update, hnew hs.exits_size hj]
      exact (hs.exit_le j hj).trans hexit_le
    · simp only [State.update, getD_setIfInBounds_of_ne hji]
      exact hs.exit_le j hj

end Solver

/-- The answer meets the equations of all blocks, has not fallen below the seed, and its points are the
states between the statements of each block. -/
structure Solution.Consistent [LE S] (sol : Solution S) (join : S → S → Except AnalysisError S)
    (transfer : Stmt → S → Except AnalysisError S) (g : Graph) (seed : Seed S) (b : S) : Prop where
  entries_size : sol.entries.size = g.size
  exits_size : sol.exits.size = g.size
  exit_eq : ∀ i < g.size,
    ((g.successors i).map (sol.entries.getD · b)).foldlM join b = .ok (sol.exits.getD i b)
  entry_eq : ∀ i < g.size, (g.stmts i).foldrM transfer (sol.exits.getD i b) = .ok (sol.entries.getD i b)
  entry_le : ∀ i < g.size, (seed.entry? i).getD b ≤ sol.entries.getD i b
  exit_le : ∀ i < g.size, (seed.exit? i).getD b ≤ sol.exits.getD i b
  stmts_eq : sol.points.map (·.stmt) = g.statements
  points : ∀ i pre s post, g.stmts i = pre ++ s :: post →
    ∃ q ∈ sol.points, q.stmt = s ∧ q.Between transfer post (sol.exits.getD i b)

namespace Problem.Functional

/-- An answer of the solver can be trusted, whatever the seed and even if the operations are not monotone. -/
theorem solve_consistent [DecidableEq S] [Preorder S] (h : p.Functional bottom join transfer)
    (hincl : ∀ x y, p.includes x y = true ↔ y ≤ x) (hne : g.statements ≠ []) {o : Options} {seed : Seed S}
    {budget : Nat} {m m' : σ} {sol : Solution S} (hsolve : p.solve g o seed budget m = .ok sol m') :
    ∃ b, bottom = .ok b ∧ sol.Consistent join transfer g seed b ∧
      ((g.statements.map Stmt.id).Nodup → ∀ q ∈ sol.points,
        sol.before? q.stmt.id = some q.before ∧ sol.after? q.stmt.id = some q.after) := by
  obtain ⟨m₁, b, m₂, s, m₃, points, hbottom, hrun, hrefine, rfl⟩ := solve_eq_ok hne hsolve
  rw [h.bottom, lift_eq_ok] at hbottom
  have hsize : 0 < g.size := by
    obtain ⟨u, rest, hu⟩ := List.exists_cons_of_ne_nil hne
    have hmem : u ∈ g.indices.flatMap g.stmts := Graph.statements_eq g ▸ hu ▸ List.mem_cons_self
    obtain ⟨i, _, hi⟩ := List.mem_flatMap.1 hmem
    exact Nat.zero_lt_of_lt (Graph.lt_size_of_mem_stmts hi)
  obtain ⟨hs, hq⟩ := Solver.run_induction (P := Solver.Upheld join transfer g seed b)
    (fun s i queue m s' m' hq hvisit hs => hs.visit h hincl hq hvisit) hrun
    (Solver.upheld_start hsize o.order)
  have hout (i : Nat) : i ∉ s.queue := hq ▸ List.not_mem_nil
  obtain ⟨hstmts, hplaces⟩ := Solver.refine_eq_ok h hrefine
  rw [← Graph.statements_eq] at hstmts
  refine ⟨b, hbottom.1, ⟨hs.entries_size, hs.exits_size, fun i hi => hs.exit_eq i hi (hout i),
    fun i hi => hs.entry_eq i hi (hout i), hs.entry_le, hs.exit_le, hstmts, ?_⟩, fun hids q hq => ?_⟩
  · intro i pre u post hplace
    have hu : u ∈ g.stmts i := hplace ▸ List.mem_append_right pre List.mem_cons_self
    exact hplaces i (Graph.mem_indices.2 (Graph.lt_size_of_mem_stmts hu)) pre u post hplace
  · have hnodup : (points.map (·.stmt.id)).Nodup := by
      rw [← hstmts, List.map_map] at hids
      exact hids
    rw [Solution.before?, Solution.after?, Solution.point?_of_mem hnodup hq]
    exact ⟨rfl, rfl⟩

end Problem.Functional

def restless : Problem Unit Nat where
  bottom := pure 0
  join a b := pure (max a b)
  transfer _ a := pure (if a = 0 then 5 else 1)
  includes a b := decide (b ≤ a)
  text := toString

def twoPrints : Graph where
  blocks := #[{ kind := .entry }, { kind := .exit },
    { kind := .basic, stmts := [.print ⟨0, .start⟩ (.int 1), .print ⟨1, .start⟩ (.int 2)] }]
  edges := [⟨2, 1, .sequence⟩, ⟨0, 2, .sequence⟩]

def halfSeed : Seed Nat where
  entry? i := if i = 2 then some 1 else none

theorem solve_consistent_restless : ∃ sol : Solution Nat,
    restless.solve twoPrints { order := .byIndex, check := false } halfSeed 9 () = .ok sol () ∧
      sol.entries = #[1, 0, 1] ∧ sol.Consistent (fun a b => .ok (max a b))
        (fun _ a => .ok (if a = 0 then 5 else 1)) twoPrints halfSeed 0 := by
  have hp : restless.Functional (.ok 0) (fun a b => .ok (max a b)) (fun _ a => .ok (if a = 0 then 5 else 1)) :=
    ⟨rfl, fun _ _ => rfl, fun _ _ => rfl⟩
  have hne : twoPrints.statements ≠ [] := List.cons_ne_nil _ _
  have hrun : (match restless.solve twoPrints { order := .byIndex, check := false } halfSeed 9 () with
      | .ok sol _ => sol.entries == #[1, 0, 1]
      | .error _ _ => false) = true := by decide +kernel
  cases hsolve : restless.solve twoPrints { order := .byIndex, check := false } halfSeed 9 () with
  | error e m =>
      rw [hsolve] at hrun
      cases hrun
  | ok sol m =>
      rw [hsolve] at hrun
      obtain ⟨b, hb, hsol, _⟩ := hp.solve_consistent (fun _ _ => decide_eq_true_iff) hne hsolve
      cases hb
      exact ⟨sol, rfl, eq_of_beq hrun, hsol⟩

end Backflow
