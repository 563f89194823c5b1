import Backflow.Dataflow.Solver
import Backflow.Proofs.Worklist
import Mathlib.Order.BoundedOrder.Lattice

namespace Backflow

variable {σ S : Type} [SemilatticeSup S] [OrderBot S]

/-- The operations of a problem, on the statements of a graph, are those of a semilattice with
monotone functions that carry states back. None of them fails or looks at the memory. -/
structure Problem.Lawful (p : Problem σ S) (f : Stmt → S → S) (g : Graph) : Prop where
  bottom : p.bottom = pure ⊥
  join (a b : S) : p.join a b = pure (a ⊔ b)
  transfer {s : Stmt} (h : s ∈ g.statements) (a : S) : p.transfer s a = pure (f s a)
  monotone {s : Stmt} (h : s ∈ g.statements) : Monotone (f s)
  includes (a b : S) : p.includes a b = true ↔ b ≤ a

namespace Graph

/-- Every edge joins two blocks of the graph. -/
def Closed (g : Graph) : Prop := ∀ e ∈ g.edges, e.source < g.size ∧ e.target < g.size

/-- The state at the end of a block, from those at the entries of all blocks. -/
def exitOf (g : Graph) (entry : Nat → S) (i : Nat) : S :=
  ((g.successors i).map entry).foldl (· ⊔ ·) ⊥

/-- The state at the entry of a block, from those at the entries of all blocks. -/
def entryOf (f : Stmt → S → S) (g : Graph) (entry : Nat → S) (i : Nat) : S :=
  (g.stmts i).foldr f (g.exitOf entry i)

theorem mem_successors {g : Graph} {i j : Nat} :
    j ∈ g.successors i ↔ ∃ e ∈ g.edges, e.source = i ∧ e.target = j := by
  simp [successors, outgoing, and_assoc]

theorem mem_predecessors {g : Graph} {i j : Nat} :
    i ∈ g.predecessors j ↔ ∃ e ∈ g.edges, e.source = i ∧ e.target = j := by
  simp [predecessors, incoming, and_assoc, and_comm]

theorem mem_predecessors_iff {g : Graph} {i j : Nat} : i ∈ g.predecessors j ↔ j ∈ g.successors i :=
  mem_predecessors.trans mem_successors.symm

theorem Closed.successor_lt {g : Graph} (h : g.Closed) {i j : Nat} (hj : j ∈ g.successors i) :
    j < g.size := by
  obtain ⟨e, he, _, rfl⟩ := mem_successors.1 hj
  exact (h e he).2

theorem Closed.predecessor_lt {g : Graph} (h : g.Closed) {i j : Nat} (hi : i ∈ g.predecessors j) :
    i < g.size := by
  obtain ⟨e, he, rfl, _⟩ := mem_predecessors.1 hi
  exact (h e he).1

theorem block_of_le {g : Graph} {i : Nat} (hi : g.size ≤ i) : g.block i = { kind := .latch } := by
  unfold block
  rw [Array.getD_eq_getD_getElem?, Array.getElem?_eq_none hi]
  rfl

theorem stmts_of_le {g : Graph} {i : Nat} (hi : g.size ≤ i) : g.stmts i = [] := by
  rw [stmts, block_of_le hi]

theorem lt_size_of_mem_stmts {g : Graph} {i : Nat} {s : Stmt} (h : s ∈ g.stmts i) : i < g.size := by
  refine Nat.lt_of_not_le fun hle => ?_
  rw [stmts_of_le hle] at h
  exact absurd h List.not_mem_nil

theorem toList_blocks (g : Graph) : g.blocks.toList = g.indices.map g.block := by
  apply List.ext_getElem
  · simp [indices, size]
  · intro i hi _
    simp [indices, block, Array.getD_eq_getD_getElem?, Array.getElem?_eq_getElem (by simpa using hi)]

theorem statements_eq (g : Graph) : g.statements = g.indices.flatMap g.stmts := by
  rw [statements, toList_blocks, List.flatMap_map]
  rfl

theorem mem_statements_of_mem_stmts {g : Graph} {s : Stmt} {i : Nat} (h : s ∈ g.stmts i) :
    s ∈ g.statements := by
  rw [statements_eq]
  exact List.mem_flatMap.2 ⟨i, mem_indices.2 (lt_size_of_mem_stmts h), h⟩

theorem stmts_eq_nil {g : Graph} (h : g.statements = []) (i : Nat) : g.stmts i = [] :=
  List.eq_nil_iff_forall_not_mem.2 fun _ hs =>
    absurd (h ▸ mem_statements_of_mem_stmts hs) List.not_mem_nil

theorem size_pos_of_statements {g : Graph} (h : g.statements ≠ []) : 0 < g.size := by
  obtain ⟨s, rest, hs⟩ := List.exists_cons_of_ne_nil h
  have hmem : s ∈ g.indices.flatMap g.stmts := statements_eq g ▸ hs ▸ List.mem_cons_self
  obtain ⟨i, _, hi⟩ := List.mem_flatMap.1 hmem
  exact Nat.zero_lt_of_lt (lt_size_of_mem_stmts hi)

omit [OrderBot S] in
theorem foldl_sup_le_iff {l : List S} {a b : S} :
    l.foldl (· ⊔ ·) a ≤ b ↔ a ≤ b ∧ ∀ x ∈ l, x ≤ b := by
  induction l generalizing a with
  | nil => simp
  | cons x l ih => simp [ih, and_assoc]

/-- The state at the end of a block is the least one above its successors' entries. -/
theorem exitOf_le_iff {g : Graph} {entry : Nat → S} {i : Nat} {a : S} :
    g.exitOf entry i ≤ a ↔ ∀ j ∈ g.successors i, entry j ≤ a := by
  simp [exitOf, foldl_sup_le_iff]

theorem exitOf_mono {g : Graph} {entry entry' : Nat → S} {i : Nat}
    (h : ∀ j ∈ g.successors i, entry j ≤ entry' j) : g.exitOf entry i ≤ g.exitOf entry' i :=
  exitOf_le_iff.2 fun j hj => (h j hj).trans (exitOf_le_iff.1 le_rfl j hj)

theorem exitOf_congr {g : Graph} {entry entry' : Nat → S} {i : Nat}
    (h : ∀ j ∈ g.successors i, entry j = entry' j) : g.exitOf entry i = g.exitOf entry' i := by
  unfold exitOf
  rw [List.map_congr_left h]

theorem entryOf_congr {f : Stmt → S → S} {g : Graph} {entry entry' : Nat → S} {i : Nat}
    (h : ∀ j ∈ g.successors i, entry j = entry' j) : g.entryOf f entry i = g.entryOf f entry' i := by
  unfold entryOf
  rw [exitOf_congr h]

end Graph

omit [OrderBot S] in
theorem foldr_mono {f : Stmt → S → S} {l : List Stmt} (hf : ∀ s ∈ l, Monotone (f s)) :
    Monotone (l.foldr f) := by
  intro a b hab
  induction l with
  | nil => exact hab
  | cons s l ih => exact hf s List.mem_cons_self (ih fun x hx => hf x (List.mem_cons_of_mem s hx))

def around (f : Stmt → S → S) : List Stmt → S → List (Point S)
  | [], _ => []
  | s :: rest, a => ⟨s, f s (rest.foldr f a), rest.foldr f a⟩ :: around f rest a

namespace Problem.Lawful

variable {p : Problem σ S} {f : Stmt → S → S} {g : Graph}

theorem joinAll_eq (h : p.Lawful f g) (l : List S) (a : S) :
    p.joinAll a l = pure (l.foldl (· ⊔ ·) a) := by
  induction l generalizing a with
  | nil => rfl
  | cons x l ih => rw [joinAll, h.join, pure_bind, ih, List.foldl_cons]

theorem before_eq (h : p.Lawful f g) {l : List Stmt} (hl : ∀ s ∈ l, s ∈ g.statements) (a : S) :
    p.before l a = pure (l.foldr f a) := by
  induction l with
  | nil => rfl
  | cons s l ih =>
      rw [before, ih fun x hx => hl x (List.mem_cons_of_mem s hx), pure_bind,
        h.transfer (hl s List.mem_cons_self), List.foldr_cons]

theorem points_eq (h : p.Lawful f g) {l : List Stmt} (hl : ∀ s ∈ l, s ∈ g.statements) (a : S) :
    p.points l a = pure (l.foldr f a, around f l a) := by
  induction l with
  | nil => rfl
  | cons s l ih =>
      rw [points, ih fun x hx => hl x (List.mem_cons_of_mem s hx), pure_bind]
      simp only [h.transfer (hl s List.mem_cons_self), pure_bind, List.foldr_cons, around]

theorem entryOf_mono (h : p.Lawful f g) {entry entry' : Nat → S} {i : Nat}
    (hle : ∀ j ∈ g.successors i, entry j ≤ entry' j) :
    g.entryOf f entry i ≤ g.entryOf f entry' i :=
  foldr_mono (fun _ hs => h.monotone (Graph.mem_statements_of_mem_stmts hs)) (Graph.exitOf_mono hle)

end Problem.Lawful

end Backflow
