import Backflow.Proofs.LiveTables
import Backflow.Proofs.Solved

namespace Backflow

structure Effect (H V O : Type) where
  heap : H
  observed : O
  /-- The value for the variable that the statement writes, if it writes one. -/
  value : V
  /-- How the statement's test turns out, if it has one. -/
  holds : Bool

/-- A meaning of statements: the effect depends on a heap and on the values of the variables that the
statement reads, given by increasing names. -/
abbrev Interpretation (H V O : Type) := Stmt → H → List V → Effect H V O

/-- A way to keep the values of variables in cells. -/
structure Storage (C V : Type) where
  read : C → String → V
  /-- The cells after the statement has written a value. -/
  write : Stmt → V → C → C

def Storage.plain {V : Type} : Storage (String → V) V where
  read c := c
  write s v c x := if x ∈ s.defs then v else c x

/-- The execution of a statement, as it can be seen from outside. -/
structure Event (H O : Type) where
  stmt : Stmt
  heap : H
  observed : O
  outcome : Option Bool

def Stmt.isTest : Stmt → Bool
  | .ifThen _ _ _ | .ifElse _ _ _ _ | .loop _ _ _ => true
  | _ => false

structure Config (H C : Type) where
  block : Nat
  /-- The statements of the block that are still to be executed. -/
  ahead : List Stmt
  /-- How the last statement turned out, if it was a test in this block. -/
  outcome : Option Bool
  heap : H
  cells : C

namespace Graph

variable {H V O C C' : Type}

def enter (g : Graph) (i : Nat) (heap : H) (cells : C) : Config H C := ⟨i, g.stmts i, none, heap, cells⟩

/-- Executes the next statement of the block. At the end of the block control takes the edge that fits the
outcome; without one the run is over. -/
def step (g : Graph) (meaning : Interpretation H V O) (st : Storage C V) (c : Config H C) :
    Option (List (Event H O) × Config H C) :=
  match c.ahead with
  | s :: ahead =>
    let e := meaning s c.heap (s.uses.toList.map (st.read c.cells))
    let outcome := if s.isTest then some e.holds else none
    some ([⟨s, e.heap, e.observed, outcome⟩], ⟨c.block, ahead, outcome, e.heap, st.write s e.value c.cells⟩)
  | [] =>
    ((g.outgoing c.block).find? (·.branch.outcome = c.outcome)).map fun e =>
      ([], g.enter e.target c.heap c.cells)

/-- The events of the first `n` steps. -/
def run (g : Graph) (meaning : Interpretation H V O) (st : Storage C V) : Nat → Config H C → List (Event H O)
  | 0, _ => []
  | n + 1, c =>
    match g.step meaning st c with
    | none => []
    | some (events, c) => events ++ g.run meaning st n c

end Graph

section

variable {H V O C C' : Type} {n : Numbering} {g : Graph} {sol : Solution (VarSet n.size)}
  {meaning : Interpretation H V O} {st : Storage C V} {st' : Storage C' V}

/-- Two ways to keep variables read the same after every write, as far as the variable is live there, if they
do so before it. -/
def Storage.Tracks (st : Storage C V) (st' : Storage C' V) (n : Numbering) (points : List (Point (VarSet n.size))) :
    Prop :=
  ∀ q ∈ points, ∀ v c c',
    (∀ x ∈ n.namesOf q.after, x ∉ q.stmt.defs → st.read c x = st'.read c' x) →
      ∀ x ∈ n.namesOf q.after, st.read (st.write q.stmt v c) x = st'.read (st'.write q.stmt v c') x

/-- The configurations stand at the same place and read the same for each live variable. -/
structure Config.Matches (c : Config H C) (c' : Config H C') (st : Storage C V) (st' : Storage C' V)
    (g : Graph) (sol : Solution (VarSet n.size)) : Prop where
  block : c'.block = c.block
  ahead : c'.ahead = c.ahead
  outcome : c'.outcome = c.outcome
  heap : c'.heap = c.heap
  block_lt : c.block < g.size
  placed : ∃ pre, g.stmts c.block = pre ++ c.ahead
  agree : ∀ x ∈ n.namesOf (c.ahead.foldr n.carry (sol.exit c.block)), st.read c.cells x = st'.read c'.cells x

theorem Solution.Settled.matches_enter (hsol : sol.Settled n.carry g) {i : Nat} (hi : i < g.size) (heap : H)
    {c : C} {c' : C'} (h : ∀ x ∈ n.namesOf (sol.entry i), st.read c x = st'.read c' x) :
    (g.enter i heap c).Matches (g.enter i heap c') st st' g sol := by
  refine ⟨rfl, rfl, rfl, rfl, hi, ⟨[], rfl⟩, ?_⟩
  rw [hsol.entry_eq_foldr hi] at h
  exact h

theorem Config.Matches.step {c : Config H C} {c' : Config H C'} (hsol : sol.Settled n.carry g)
    (hg : g.Closed) (hn : ∀ s ∈ g.statements, n.Covers s) (hst : st.Tracks st' n sol.points)
    (h : c.Matches c' st st' g sol) :
    (g.step meaning st c = none ∧ g.step meaning st' c' = none) ∨
      ∃ events d d', g.step meaning st c = some (events, d) ∧ g.step meaning st' c' = some (events, d') ∧
        d.Matches d' st st' g sol := by
  obtain ⟨i, ahead, outcome, heap, cells⟩ := c
  obtain ⟨i', ahead', outcome', heap', cells'⟩ := c'
  obtain ⟨rfl, rfl, rfl, rfl, hi, ⟨pre, hplace⟩, hagree⟩ := h
  simp only at hi hplace hagree
  cases ahead' with
  | nil =>
      cases hedge : (g.outgoing i').find? (·.branch.outcome = outcome') with
      | none =>
          left
          simp [Graph.step, hedge]
      | some e =>
          right
          have he : e ∈ g.outgoing i' := List.mem_of_find?_eq_some hedge
          have hsucc : e.target ∈ g.successors i' := List.mem_map.2 ⟨e, he, rfl⟩
          refine ⟨[], _, _, by simp only [Graph.step, hedge]; rfl, by simp only [Graph.step, hedge]; rfl, ?_⟩
          refine hsol.matches_enter (hg.successor_lt hsucc) heap' fun x hx => hagree x ?_
          exact (hsol.mem_exit_iff hi).2 ⟨e.target, hsucc, hx⟩
  | cons s ahead =>
      right
      have hs : s ∈ g.statements :=
        Graph.mem_statements_of_mem_stmts (hplace ▸ List.mem_append_right pre List.mem_cons_self)
      have hread : s.uses.toList.map (st.read cells) = s.uses.toList.map (st'.read cells') :=
        List.map_congr_left fun x hx => hagree x ((Numbering.mem_namesOf_carry (hn s hs)).2 (Or.inl hx))
      refine ⟨_, _, _, rfl, by simp only [Graph.step, ← hread]; rfl, rfl, rfl, rfl, rfl, hi,
        ⟨pre ++ [s], ?_⟩, ?_⟩
      · rw [hplace, List.append_assoc, List.singleton_append]
      · refine hst _ (hsol.mem_points_of_place hplace) _ cells cells' fun x hx hdefs => hagree x ?_
        exact (Numbering.mem_namesOf_carry (hn s hs)).2 (Or.inr ⟨hx, hdefs⟩)

/-- Matching configurations show the same events, however far they run. -/
theorem Config.Matches.run_eq {c : Config H C} {c' : Config H C'} (hsol : sol.Settled n.carry g)
    (hg : g.Closed) (hn : ∀ s ∈ g.statements, n.Covers s) (hst : st.Tracks st' n sol.points)
    (h : c.Matches c' st st' g sol) (steps : Nat) : g.run meaning st steps c = g.run meaning st' steps c' := by
  induction steps generalizing c c' with
  | zero => rfl
  | succ steps ih =>
      rw [Graph.run, Graph.run]
      rcases h.step hsol hg hn hst with ⟨hstep, hstep'⟩ | ⟨events, d, d', hstep, hstep', hd⟩
      · rw [hstep, hstep']
      · rw [hstep, hstep']
        exact congrArg (events ++ ·) (ih hd)

end

/-- If two ways to keep variables agree on those that are live at the start and track each other, one cannot
tell them apart by a run. -/
theorem Liveness.Solved.run_eq {H V O C C' : Type} {l : Liveness} {st : Storage C V} {st' : Storage C' V}
    (h : l.Solved) (hst : st.Tracks st' l.vars l.flow.points) {c : C} {c' : C'}
    (hagree : ∀ x ∈ l.liveIn Graph.entry, st.read c x = st'.read c' x)
    (meaning : Interpretation H V O) (heap : H) (steps : Nat) :
    l.graph.run meaning st steps (l.graph.enter Graph.entry heap c) =
      l.graph.run meaning st' steps (l.graph.enter Graph.entry heap c') := by
  have hentry : Graph.entry < l.graph.size := h.graph.size_pos
  rw [liveIn_eq h.settled hentry] at hagree
  have hmatches := h.settled.matches_enter hentry heap hagree
  exact hmatches.run_eq h.settled h.graph.closed h.covers hst steps

end Backflow
