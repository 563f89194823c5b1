import Backflow.Proofs.Equations
import Mathlib.Algebra.BigOperators.Group.Finset.Piecewise
import Mathlib.Algebra.Order.BigOperators.Group.Finset

namespace Backflow.Solver

section

variable {σ S : Type} [DecidableEq S] {p : Problem σ S} {g : Graph} {bottom : S} {s : State S} {i : Nat}
  {queue : List Nat} {m : σ}

theorem run_nil (hq : s.queue = []) (budget : Nat) : run p g bottom budget s m = .ok (some s) m := by
  cases budget with
  | zero => rw [run, hq]; rfl
  | succ budget => rw [run, hq]; rfl

theorem run_zero_cons (hq : s.queue = i :: queue) : run p g bottom 0 s m = .ok none m := by
  rw [run, hq]
  rfl

theorem run_cons (hq : s.queue = i :: queue) (budget : Nat) :
    run p g bottom (budget + 1) s = visit p g bottom s i queue >>= run p g bottom budget := by
  rw [run, hq]

end

variable {σ S : Type} [SemilatticeSup S] [OrderBot S]

namespace State

def entry (s : State S) (i : Nat) : S := s.entries.getD i ⊥

def exit (s : State S) (i : Nat) : S := s.exits.getD i ⊥

end State

/-- What holds before every visit: no state is above what its equation asks for, and the equations of
the blocks that do not wait are met. -/
structure Growing (f : Stmt → S → S) (g : Graph) (s : State S) : Prop where
  entries_size : s.entries.size = g.size
  exits_size : s.exits.size = g.size
  queue_lt : ∀ i ∈ s.queue, i < g.size
  exit_le : ∀ i < g.size, s.exit i ≤ g.exitOf s.entry i
  entry_le : ∀ i < g.size, s.entry i ≤ g.entryOf f s.entry i
  exit_eq : ∀ i < g.size, i ∉ s.queue → s.exit i = g.exitOf s.entry i
  entry_eq : ∀ i < g.size, i ∉ s.queue → s.entry i = g.entryOf f s.entry i

/-- The second state is above the first one, but below everything above the first one that meets the
equations, as an inequality at least. -/
structure Rises (f : Stmt → S → S) (g : Graph) (s s' : State S) : Prop where
  le : ∀ i, s.entry i ≤ s'.entry i
  least : ∀ e : Nat → S, (∀ i < g.size, g.entryOf f e i ≤ e i) → (∀ i, s.entry i ≤ e i) →
    ∀ i, s'.entry i ≤ e i

theorem Rises.refl (f : Stmt → S → S) (g : Graph) (s : State S) : Rises f g s s :=
  ⟨fun _ => le_rfl, fun _ _ h => h⟩

theorem Rises.trans {f : Stmt → S → S} {g : Graph} {s t u : State S} (h : Rises f g s t)
    (h' : Rises f g t u) : Rises f g s u :=
  ⟨fun i => (h.le i).trans (h'.le i), fun e he hs => h'.least e he (h.least e he hs)⟩

theorem mem_enqueue {queue l : List Nat} {i : Nat} : i ∈ enqueue queue l ↔ i ∈ queue ∨ i ∈ l := by
  induction l generalizing queue with
  | nil => simp [enqueue]
  | cons j l ih =>
      rw [enqueue, ih]
      split
      · rename_i hj
        constructor
        · rintro (hi | hi)
          · exact Or.inl hi
          · exact Or.inr (List.mem_cons_of_mem j hi)
        · rintro (hi | hi)
          · exact Or.inl hi
          · rcases List.mem_cons.1 hi with rfl | hi
            · exact Or.inl hj
            · exact Or.inr hi
      · simp [or_assoc]

theorem length_enqueue_le (queue l : List Nat) : (enqueue queue l).length ≤ queue.length + l.length := by
  induction l generalizing queue with
  | nil => simp [enqueue]
  | cons j l ih =>
      rw [enqueue, List.length_cons]
      split
      · have := ih queue
        omega
      · have := ih (queue ++ [j])
        rw [List.length_append, List.length_singleton] at this
        omega

theorem getD_setIfInBounds {α : Type} {a : Array α} {i : Nat} (hi : i < a.size) (x d : α) (j : Nat) :
    (a.setIfInBounds i x).getD j d = if j = i then x else a.getD j d := by
  rw [Array.getD_eq_getD_getElem?, Array.getElem?_setIfInBounds, Array.getD_eq_getD_getElem?]
  by_cases hj : i = j
  · subst hj
    simp [hi]
  · simp [hj, Ne.symm hj]

variable [DecidableEq S]

def settle (f : Stmt → S → S) (g : Graph) (s : State S) (i : Nat) (queue : List Nat) : State S where
  entries := s.entries.setIfInBounds i (g.entryOf f s.entry i)
  exits := s.exits.setIfInBounds i (g.exitOf s.entry i)
  queue := if g.entryOf f s.entry i = s.entry i then queue else enqueue queue (g.predecessors i)
  visits := ⟨i, g.exitOf s.entry i, g.entryOf f s.entry i⟩ :: s.visits

section

variable {p : Problem σ S} {f : Stmt → S → S} {g : Graph} {s : State S} {i : Nat} {queue : List Nat}

theorem visit_eq (hp : p.Lawful f g) (hexit : s.exit i ≤ g.exitOf s.entry i)
    (hentry : s.entry i ≤ g.entryOf f s.entry i) : visit p g ⊥ s i queue = pure (settle f g s i queue) := by
  have hstmts : ∀ x ∈ g.stmts i, x ∈ g.statements := fun _ => Graph.mem_statements_of_mem_stmts
  have hincl := (hp.includes (g.exitOf s.entry i) (s.exit i)).2 hexit
  have hincl' := (hp.includes (g.entryOf f s.entry i) (s.entry i)).2 hentry
  unfold visit
  rw [hp.joinAll_eq, pure_bind]
  change (if p.includes (g.exitOf s.entry i) (s.exit i) = true then _ else _) = _
  rw [if_pos hincl, hp.before_eq hstmts]
  simp only [pure_bind]
  change (if p.includes (g.entryOf f s.entry i) (s.entry i) = true then _ else _) = _
  rw [if_pos hincl']
  rfl

theorem settle_entry (hi : i < s.entries.size) (j : Nat) :
    (settle f g s i queue).entry j = if j = i then g.entryOf f s.entry i else s.entry j :=
  getD_setIfInBounds hi _ _ j

theorem settle_exit (hi : i < s.exits.size) (j : Nat) :
    (settle f g s i queue).exit j = if j = i then g.exitOf s.entry i else s.exit j :=
  getD_setIfInBounds hi _ _ j

omit [DecidableEq S] in
theorem Growing.lt_of_cons (hs : Growing f g s) (hq : s.queue = i :: queue) : i < g.size :=
  hs.queue_lt i (hq ▸ List.mem_cons_self)

theorem Growing.le_settle (hs : Growing f g s) (hi : i < g.size) (queue : List Nat) (j : Nat) :
    s.entry j ≤ (settle f g s i queue).entry j := by
  rw [settle_entry (hs.entries_size.symm ▸ hi)]
  split
  · rename_i hj
    rw [hj]
    exact hs.entry_le i hi
  · exact le_rfl

theorem Growing.entry_settle_of_not_mem (hs : Growing f g s) (hi : i < g.size) {j k : Nat}
    (hj : j ∉ (settle f g s i queue).queue) (hk : k ∈ g.successors j) :
    (settle f g s i queue).entry k = s.entry k := by
  rw [settle_entry (hs.entries_size.symm ▸ hi)]
  split
  · rename_i hki
    subst hki
    by_cases he : g.entryOf f s.entry k = s.entry k
    · exact he
    · rw [settle, if_neg he, mem_enqueue, not_or] at hj
      exact absurd (Graph.mem_predecessors_iff.2 hk) hj.2
  · rfl

theorem Growing.settle (hp : p.Lawful f g) (hg : g.Closed) (hs : Growing f g s)
    (hq : s.queue = i :: queue) : Growing f g (settle f g s i queue) := by
  have hi := hs.lt_of_cons hq
  have hle := hs.le_settle hi queue
  have hentry (j : Nat) : (Solver.settle f g s i queue).entry j = _ :=
    settle_entry (hs.entries_size.symm ▸ hi) j
  have hexit (j : Nat) : (Solver.settle f g s i queue).exit j = _ :=
    settle_exit (hs.exits_size.symm ▸ hi) j
  have hrest (j : Nat) (hj : j ∉ (Solver.settle f g s i queue).queue) (hji : j ≠ i) : j ∉ s.queue := by
    rw [hq, List.mem_cons, not_or]
    refine ⟨hji, fun hmem => hj ?_⟩
    unfold Solver.settle
    split
    · exact hmem
    · exact mem_enqueue.2 (Or.inl hmem)
  -- Only the entry of `i` changes, so an equation can fail only at a predecessor of `i`, which then waits.
  refine ⟨?_, ?_, ?_, ?_, ?_, ?_, ?_⟩
  · rw [← hs.entries_size]
    exact Array.size_setIfInBounds
  · rw [← hs.exits_size]
    exact Array.size_setIfInBounds
  · intro j hj
    unfold Solver.settle at hj
    split at hj
    · exact hs.queue_lt j (hq ▸ List.mem_cons_of_mem i hj)
    · rcases mem_enqueue.1 hj with hj | hj
      · exact hs.queue_lt j (hq ▸ List.mem_cons_of_mem i hj)
      · exact hg.predecessor_lt hj
  · intro j hj
    have hmono := Graph.exitOf_mono (g := g) (i := j) fun k _ => hle k
    rw [hexit]
    split
    · rename_i hji
      exact hji ▸ hmono
    · exact (hs.exit_le j hj).trans hmono
  · intro j hj
    have hmono := hp.entryOf_mono (i := j) fun k _ => hle k
    rw [hentry]
    split
    · rename_i hji
      exact hji ▸ hmono
    · exact (hs.entry_le j hj).trans hmono
  · intro j hj hout
    have hsame := Graph.exitOf_congr fun k hk => hs.entry_settle_of_not_mem hi hout hk
    rw [hexit, hsame]
    split
    · rename_i hji
      rw [hji]
    · rename_i hji
      exact hs.exit_eq j hj (hrest j hout hji)
  · intro j hj hout
    have hsame := Graph.entryOf_congr (f := f) fun k hk => hs.entry_settle_of_not_mem hi hout hk
    rw [hentry, hsame]
    split
    · rename_i hji
      rw [hji]
    · rename_i hji
      exact hs.entry_eq j hj (hrest j hout hji)

theorem Growing.rises_settle (hp : p.Lawful f g) (hs : Growing f g s) (hi : i < g.size) :
    Rises f g s (Solver.settle f g s i queue) := by
  refine ⟨hs.le_settle hi queue, fun e he hse j => ?_⟩
  rw [settle_entry (hs.entries_size.symm ▸ hi)]
  split
  · rename_i hj
    rw [hj]
    exact (hp.entryOf_mono fun k _ => hse k).trans (he i hi)
  · exact hse j

end

/-- States have a rank that grows with them, up to a height. -/
structure Ranked (rank : S → Nat) (height : Nat) : Prop where
  lt {a b : S} (h : a < b) : rank a < rank b
  le (a : S) : rank a ≤ height

/-- The waiting blocks, and those that the entries can still put in line by growing. -/
def potential (rank : S → Nat) (height : Nat) (g : Graph) (s : State S) : Nat :=
  s.queue.length + ∑ i ∈ Finset.range g.size, (height - rank (s.entry i)) * (g.predecessors i).length

theorem sum_add_le_sum {n i d : Nat} {a b : Nat → Nat} (hi : i < n) (h : a i + d ≤ b i)
    (hrest : ∀ j, j ≠ i → a j = b j) : (∑ j ∈ Finset.range n, a j) + d ≤ ∑ j ∈ Finset.range n, b j := by
  have hmem : i ∈ Finset.range n := Finset.mem_range.2 hi
  rw [← Finset.add_sum_erase _ a hmem, ← Finset.add_sum_erase _ b hmem]
  have hsame : ∑ j ∈ (Finset.range n).erase i, a j = ∑ j ∈ (Finset.range n).erase i, b j :=
    Finset.sum_congr rfl fun j hj => hrest j (Finset.ne_of_mem_erase hj)
  omega

theorem sum_predecessors_le (g : Graph) :
    ∑ i ∈ Finset.range g.size, (g.predecessors i).length ≤ g.edges.length := by
  unfold Graph.predecessors Graph.incoming
  induction g.edges with
  | nil => simp
  | cons e edges ih =>
      have hcons (i : Nat) : ((e :: edges).filter (·.target = i)).length =
          (edges.filter (·.target = i)).length + if e.target = i then 1 else 0 := by
        rw [List.filter_cons]
        by_cases he : e.target = i <;> simp [he]
      simp only [List.length_map] at ih ⊢
      simp only [hcons, Finset.sum_add_distrib, Finset.sum_ite_eq, List.length_cons]
      split <;> omega

section

variable {p : Problem σ S} {f : Stmt → S → S} {g : Graph} {rank : S → Nat} {height : Nat}

theorem potential_lt (hr : Ranked rank height) {s s' : State S} {i : Nat} {queue : List Nat} {entry : S}
    (hi : i < g.size) (hq : s.queue = i :: queue) (hle : s.entry i ≤ entry)
    (hentry : ∀ j, s'.entry j = if j = i then entry else s.entry j)
    (hqueue : s'.queue = if entry = s.entry i then queue else enqueue queue (g.predecessors i)) :
    potential rank height g s' < potential rank height g s := by
  unfold potential
  rw [hq, List.length_cons]
  by_cases he : entry = s.entry i
  · have hsame : s'.entry = s.entry := by
      funext j
      rw [hentry, he]
      split
      · rename_i hj
        rw [hj]
      · rfl
    rw [hsame, hqueue, if_pos he]
    omega
  -- The rank that the entry gains pays for all the predecessors that are put in line.
  · have hlt := hr.lt (lt_of_le_of_ne hle (Ne.symm he))
    have htop := hr.le entry
    have hlen := length_enqueue_le queue (g.predecessors i)
    have hsum := sum_add_le_sum (d := (g.predecessors i).length)
      (a := fun j => (height - rank (s'.entry j)) * (g.predecessors j).length)
      (b := fun j => (height - rank (s.entry j)) * (g.predecessors j).length) hi
      (by
        simp only [hentry, if_true, ← Nat.succ_mul]
        exact Nat.mul_le_mul_right _ (by omega))
      (fun j hj => by simp only [hentry, if_neg hj])
    rw [hqueue, if_neg he]
    omega

theorem potential_settle (hr : Ranked rank height) {s : State S} (hs : Growing f g s) {i : Nat}
    {queue : List Nat} (hq : s.queue = i :: queue) :
    potential rank height g (settle f g s i queue) < potential rank height g s := by
  have hi := hs.lt_of_cons hq
  exact potential_lt hr hi hq (hs.entry_le i hi) (settle_entry (hs.entries_size.symm ▸ hi)) rfl

/-- Within its budget, a run comes to an end with all equations met. -/
theorem run_settles (hp : p.Lawful f g) (hr : Ranked rank height) (hg : g.Closed) (m : σ) {budget : Nat}
    {s : State S} (hs : Growing f g s) (hb : potential rank height g s ≤ budget) :
    ∃ s', run p g ⊥ budget s m = .ok (some s') m ∧ Growing f g s' ∧ s'.queue = [] ∧ Rises f g s s' := by
  induction budget generalizing s with
  | zero =>
      have hq : s.queue = [] := by
        rw [potential] at hb
        exact List.length_eq_zero_iff.1 (by omega)
      exact ⟨s, run_nil hq 0, hs, hq, Rises.refl f g s⟩
  | succ budget ih =>
      cases hq : s.queue with
      | nil => exact ⟨s, run_nil hq _, hs, hq, Rises.refl f g s⟩
      | cons i queue =>
          have hi := hs.lt_of_cons hq
          have hlt := potential_settle hr hs hq
          obtain ⟨s', hrun, hs', hq', hrises⟩ := ih (hs.settle hp hg hq) (by omega)
          refine ⟨s', ?_, hs', hq', (hs.rises_settle hp hi).trans hrises⟩
          rw [run_cons hq, visit_eq hp (hs.exit_le i hi) (hs.entry_le i hi), pure_bind]
          exact hrun

theorem refine_eq (hp : p.Lawful f g) {s : State S} (hs : Growing f g s) (hq : s.queue = [])
    {l : List Nat} (hl : ∀ i ∈ l, i < g.size) :
    refine p g ⊥ s l = pure (l.flatMap fun i => around f (g.stmts i) (s.exit i)) := by
  induction l with
  | nil => rfl
  | cons i l ih =>
      have hi := hl i List.mem_cons_self
      have hout : i ∉ s.queue := hq ▸ List.not_mem_nil
      have hentry : (g.stmts i).foldr f (s.exit i) = s.entry i := by
        rw [hs.exit_eq i hi hout, hs.entry_eq i hi hout]
        rfl
      have hstmts : ∀ x ∈ g.stmts i, x ∈ g.statements := fun _ => Graph.mem_statements_of_mem_stmts
      rw [refine, hp.points_eq hstmts, pure_bind, ih fun j hj => hl j (List.mem_cons_of_mem i hj)]
      change (if (g.stmts i).foldr f (s.exit i) = s.entry i then _ else _) = _
      rw [if_pos hentry]
      rfl

end

end Backflow.Solver
