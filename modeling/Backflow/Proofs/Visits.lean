import Backflow.Proofs.Sequencing
import Backflow.Proofs.Settling
import Mathlib.Data.DFinsupp.WellFounded

namespace Backflow

theorem Problem.guard_eq_ok {σ α : Type} {c : Prop} [Decidable c] {e : AnalysisError}
    {k : EStateM AnalysisError σ α} {m m' : σ} {a : α} :
    (if c then k else do throw e; k) m = .ok a m' ↔ c ∧ k m = .ok a m' := by
  by_cases hc : c
  · simp [hc]
  · simp only [hc, if_false, false_and, iff_false]
    exact nofun

theorem Problem.first_eq_ok {σ α : Type} {c : Prop} [Decidable c] {x : Except AnalysisError Unit}
    {k : EStateM AnalysisError σ α} {m m' : σ} {a : α} :
    (if c then do lift x; k else k) m = .ok a m' ↔ (c → x = .ok ()) ∧ k m = .ok a m' := by
  by_cases hc : c
  · simp only [hc, if_true, true_imp_iff, bind_ok]
    cases x with
    | ok u => simp [lift]
    | error e => simp [lift]
  · simp [hc]

namespace Solver

variable {σ S : Type} [DecidableEq S] {p : Problem σ S} {g : Graph} {bottom : S} {s s' : State S}
  {i : Nat} {queue : List Nat} {m m' : σ}

def State.update (s : State S) (g : Graph) (bottom : S) (i : Nat) (queue : List Nat) (exit entry : S) :
    State S where
  entries := s.entries.setIfInBounds i entry
  exits := s.exits.setIfInBounds i exit
  queue := if entry = s.entries.getD i bottom then queue else enqueue queue (g.predecessors i)
  visits := ⟨i, exit, entry⟩ :: s.visits

/-- All that a visit can do if it does not fail. -/
theorem visit_eq_ok : visit p g bottom s i queue m = .ok s' m' ↔ ∃ exit m₁ entry,
    p.joinAll bottom ((g.successors i).map (s.entries.getD · bottom)) m = .ok exit m₁ ∧
      p.includes exit (s.exits.getD i bottom) = true ∧ p.before (g.stmts i) exit m₁ = .ok entry m' ∧
        p.includes entry (s.entries.getD i bottom) = true ∧ s' = s.update g bottom i queue exit entry := by
  simp only [visit, bind_ok, Problem.guard_eq_ok]
  constructor
  · rintro ⟨exit, m₁, hjoin, hexit, entry, m₂, hbefore, hentry, hs⟩
    cases hs
    exact ⟨exit, m₁, entry, hjoin, hexit, hbefore, hentry, rfl⟩
  · rintro ⟨exit, m₁, entry, hjoin, hexit, hbefore, hentry, rfl⟩
    exact ⟨exit, m₁, hjoin, hexit, entry, m', hbefore, hentry, rfl⟩

/-- What every visit keeps holds at the end of a run. -/
theorem run_induction {P : State S → Prop}
    (step : ∀ s i queue m s' m', s.queue = i :: queue → visit p g bottom s i queue m = .ok s' m' → P s → P s')
    {budget : Nat} (h : run p g bottom budget s m = .ok (some s') m') (hs : P s) :
    P s' ∧ s'.queue = [] := by
  induction budget generalizing s m with
  | zero =>
      cases hq : s.queue with
      | nil =>
          rw [run_nil hq] at h
          cases h
          exact ⟨hs, hq⟩
      | cons i queue =>
          rw [run_zero_cons hq] at h
          cases h
  | succ budget ih =>
      cases hq : s.queue with
      | nil =>
          rw [run_nil hq] at h
          cases h
          exact ⟨hs, hq⟩
      | cons i queue =>
          rw [run_cons hq, bind_ok] at h
          obtain ⟨s₁, m₁, hvisit, hrun⟩ := h
          exact ih hrun (step s i queue m s₁ m₁ hq hvisit hs)

/-- The states fit the graph, and only blocks of the graph wait. -/
structure State.Fits (s : State S) (g : Graph) : Prop where
  entries_size : s.entries.size = g.size
  queue_lt : ∀ i ∈ s.queue, i < g.size

omit [DecidableEq S] in
theorem State.Fits.lt_of_cons (hs : s.Fits g) (hq : s.queue = i :: queue) : i < g.size :=
  hs.queue_lt i (hq ▸ List.mem_cons_self)

theorem State.Fits.update (hg : g.Closed) (hs : s.Fits g) (hq : s.queue = i :: queue) (exit entry : S) :
    (s.update g bottom i queue exit entry).Fits g := by
  refine ⟨by simp [State.update, hs.entries_size], fun j hj => ?_⟩
  have hrest : ∀ j ∈ queue, j < g.size := fun j hj => hs.queue_lt j (hq ▸ List.mem_cons_of_mem i hj)
  simp only [State.update] at hj
  split at hj
  · exact hrest j hj
  · rcases mem_enqueue.1 hj with hj | hj
    · exact hrest j hj
    · exact hg.predecessor_lt hj

/-- Of two states, the first has higher entries, or as high ones and fewer waiting blocks. -/
def Ahead [Preorder S] (g : Graph) (bottom : S) (s' s : State S) : Prop :=
  Prod.Lex (· < ·) (· < ·)
    ((fun i : Fin g.size => OrderDual.toDual (s'.entries.getD i bottom)), s'.queue.length)
    ((fun i : Fin g.size => OrderDual.toDual (s.entries.getD i bottom)), s.queue.length)

omit [DecidableEq S] in
theorem ahead_wf [Preorder S] [WellFoundedGT S] (g : Graph) (bottom : S) : WellFounded (Ahead g bottom) :=
  InvImage.wf _ (WellFounded.prod_lex wellFounded_lt wellFounded_lt)

theorem ahead_update [PartialOrder S] (hs : s.Fits g) (hq : s.queue = i :: queue) {entry : S}
    (hle : s.entries.getD i bottom ≤ entry) (exit : S) :
    Ahead g bottom (s.update g bottom i queue exit entry) s := by
  have hi := hs.lt_of_cons hq
  have hentry (j : Nat) : (s.update g bottom i queue exit entry).entries.getD j bottom =
      if j = i then entry else s.entries.getD j bottom :=
    getD_setIfInBounds (hs.entries_size.symm ▸ hi) entry bottom j
  unfold Ahead
  by_cases he : entry = s.entries.getD i bottom
  · have hsame (j : Nat) : (s.update g bottom i queue exit entry).entries.getD j bottom =
        s.entries.getD j bottom := by
      rw [hentry, he]
      split
      · rename_i hj
        rw [hj]
      · rfl
    simp only [hsame]
    apply Prod.Lex.right
    simp [State.update, he, hq]
  · apply Prod.Lex.left
    rw [Pi.lt_def]
    refine ⟨fun j => ?_, ⟨i, hi⟩, ?_⟩
    · simp only [hentry, OrderDual.toDual_le_toDual]
      split
      · rename_i hj
        rw [hj]
        exact hle
      · exact le_rfl
    · simp only [hentry, if_true, OrderDual.toDual_lt_toDual]
      exact lt_of_le_of_ne hle (Ne.symm he)

/-- Without infinite ascending chains a run ends, whatever the operations answer: from some budget on, a
larger one makes no difference. -/
theorem run_ends [PartialOrder S] [WellFoundedGT S] (hincl : ∀ a b, p.includes a b = true ↔ b ≤ a)
    (hg : g.Closed) (hs : s.Fits g) (m : σ) :
    ∃ enough, ∀ budget ≥ enough, run p g bottom budget s m = run p g bottom enough s m ∧
      ∀ m', run p g bottom budget s m ≠ .ok none m' := by
  induction s using (ahead_wf g bottom).induction generalizing m with
  | _ s ih =>
  cases hq : s.queue with
  | nil =>
      refine ⟨0, fun budget _ => ?_⟩
      rw [run_nil hq, run_nil hq]
      exact ⟨rfl, nofun⟩
  | cons i queue =>
      cases hvisit : visit p g bottom s i queue m with
      | error e m₁ =>
          have herror (budget : Nat) : run p g bottom (budget + 1) s m = .error e m₁ := by
            rw [run_cons hq]
            change EStateM.bind _ _ m = _
            rw [EStateM.bind, hvisit]
          refine ⟨1, fun budget hb => ?_⟩
          obtain ⟨budget, rfl⟩ := Nat.exists_eq_succ_of_ne_zero (Nat.one_le_iff_ne_zero.1 hb)
          rw [herror, herror]
          exact ⟨rfl, nofun⟩
      | ok s₁ m₁ =>
          have hrun (budget : Nat) : run p g bottom (budget + 1) s m = run p g bottom budget s₁ m₁ := by
            rw [run_cons hq]
            change EStateM.bind _ _ m = _
            rw [EStateM.bind, hvisit]
          obtain ⟨exit, _, entry, _, _, _, hentry, rfl⟩ := visit_eq_ok.1 hvisit
          obtain ⟨enough, henough⟩ := ih _ (ahead_update hs hq ((hincl _ _).1 hentry) exit)
            (hs.update hg hq exit entry) m₁
          refine ⟨enough + 1, fun budget hb => ?_⟩
          obtain ⟨budget, rfl⟩ := Nat.exists_eq_add_of_le' (Nat.le_of_add_left_le hb)
          rw [hrun, hrun]
          exact henough budget (Nat.le_of_succ_le_succ hb)

end Solver

/-- A solver that does not fail has begun with its check and bottom, run until no block waited, and worked
out the states around the statements. -/
theorem Problem.solve_eq_ok_iff {σ S : Type} [DecidableEq S] {p : Problem σ S} {g : Graph} {o : Options}
    {seed : Seed S} {budget : Nat} {m m' : σ} {sol : Solution S} (hne : g.statements ≠ []) :
    p.solve g o seed budget m = .ok sol m' ↔ (o.check = true → g.check = .ok ()) ∧ ∃ bottom m₁ s m₂ points,
      p.bottom m = .ok bottom m₁ ∧
        Solver.run p g bottom budget (Solver.start g o.order seed bottom) m₁ = .ok (some s) m₂ ∧
          Solver.refine p g bottom s g.indices m₂ = .ok points m' ∧
            sol = ⟨s.entries, s.exits, points, s.visits.reverse⟩ := by
  have hempty : g.statements.isEmpty = false := List.isEmpty_eq_false_iff.2 hne
  simp only [solve, hempty, Bool.false_eq_true, if_false, first_eq_ok, bind_ok]
  apply and_congr_right
  intro _
  constructor
  · rintro ⟨bottom, m₁, hbottom, answer, m₂, hrun, h⟩
    cases answer with
    | none => cases h
    | some s =>
        obtain ⟨points, m₃, hrefine, h⟩ := bind_ok.1 h
        cases h
        exact ⟨bottom, m₁, s, m₂, points, hbottom, hrun, hrefine, rfl⟩
  · rintro ⟨bottom, m₁, s, m₂, points, hbottom, hrun, hrefine, rfl⟩
    exact ⟨bottom, m₁, hbottom, some s, m₂, hrun, bind_ok.2 ⟨points, m', hrefine, rfl⟩⟩

theorem Problem.solve_eq_ok {σ S : Type} [DecidableEq S] {p : Problem σ S} {g : Graph} {o : Options}
    {seed : Seed S} {budget : Nat} {m m' : σ} {sol : Solution S} (hne : g.statements ≠ [])
    (h : p.solve g o seed budget m = .ok sol m') : ∃ m₁ bottom m₂ s m₃ points,
      p.bottom m₁ = .ok bottom m₂ ∧
        Solver.run p g bottom budget (Solver.start g o.order seed bottom) m₂ = .ok (some s) m₃ ∧
          Solver.refine p g bottom s g.indices m₃ = .ok points m' ∧
            sol = ⟨s.entries, s.exits, points, s.visits.reverse⟩ :=
  ⟨m, ((solve_eq_ok_iff hne).1 h).2⟩

end Backflow
