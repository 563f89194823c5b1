import Backflow.Proofs.OpenJumps
import Backflow.Proofs.StrayJumps
import Backflow.Syntax.Parser.Program

namespace Backflow

namespace Builder

variable {b : Builder} {tr : Transition} {k : Stmt.Targets}

theorem flow_run :
    (∀ s b b', stmt b s = .ok b' → b.Shaped → ∀ k tr,
      b'.Sees k tr ↔ b.Sees { k with next := s.first k.next } tr ∨ tr ∈ s.flow k) ∧
    ∀ l b b', stmts b l = .ok b' → b.Shaped → ∀ k tr,
      b'.Sees k tr ↔ b.Sees { k with next := Stmt.firstList k.next l } tr ∨ tr ∈ Stmt.flowList k l := by
  apply run_induction
  case plain =>
    intro b s hs hb k tr
    rw [Stmt.first_eq_some hs.1, hs.flow_eq, List.mem_singleton, ← hb.fixes_push s, Sees, push_front]
    exact or_congr Iff.rfl (hb.leaves_nextBlock s .sequence)
  case block =>
    intro b t body b' ih hb k tr
    rw [Stmt.first, Stmt.flow]
    exact ih hb k tr
  case ifThen => exact fun b t c yes b' hrun ih hb k tr => hb.sees_ifThen hrun (ih (hb.pushTest _ _) k tr)
  case ifElse =>
    intro b t c yes no b₁ b₂ hrun₁ ih₁ hrun₂ ih₂ hb k tr
    have hlast := hb.pushTest (.ifElse t c yes no) .ifTrue
    have helse := hb.secondBranch hrun₁ (shaped_run.1 _ _ _ hrun₁ hlast)
    exact hb.sees_ifElse hrun₁ (ih₁ hlast k tr) hrun₂ (ih₂ helse k tr)
  case loop =>
    intro b t c body b' hrun ih hb k tr
    have hbody := ih (hb.enterLoop _) ⟨some (.loop t c body), k.next, some (.loop t c body)⟩ tr
    rw [hb.sees_leaveLoop hrun, hbody, hb.sees_enterLoop, Stmt.first_eq_some (s := .loop t c body) rfl,
      Stmt.flow, List.mem_cons, List.mem_cons, Sees, Fixes]
    simp only [or_assoc, or_left_comm, or_comm]
  case ret => exact fun b t value hb k tr => hb.sees_ret t value
  case brk => exact fun b t jumps hl hb k tr => hb.sees_brk t hl
  case cont => exact fun b t jumps hl hb k tr => hb.sees_cont t hl
  case nil =>
    intro b hb k tr
    rw [Stmt.firstList, Stmt.flowList, or_iff_left List.not_mem_nil]
  case cons =>
    intro b s rest b₁ b₂ hrun ih₁ ih₂ hb k tr
    rw [ih₂ (shaped_run.1 _ _ _ hrun hb), ih₁ hb, Stmt.firstList, Stmt.flowList, List.mem_append, or_assoc]

theorem sees_start : start.Sees k tr ↔ tr = ⟨none, none, k.next⟩ := by
  have hfixes : ¬ start.Fixes k tr := by
    rintro (hp | hp | hp)
    · cases hp with
      | inside hin =>
          have hmem := Graph.mem_statements_of_mem_stmts (hin.subset List.mem_cons_self)
          exact absurd hmem List.not_mem_nil
      | along he => exact absurd he List.not_mem_nil
    · exact Graph.leaves_nil hp
    · exact Graph.leaves_nil hp
  rw [Sees, or_iff_right hfixes]
  constructor
  · rintro ⟨j, hj, x, hx, rfl⟩
    cases List.mem_singleton.1 hj
    cases x with
    | none => rfl
    | some s => cases hx
  · rintro rfl
    exact ⟨_, List.mem_cons_self, none, rfl, rfl⟩

theorem inLoop_of_run {l : List Stmt} (h : start.stmts l = .ok b) : b.inLoop = none := by
  have hrun := answers_run.2 l start
  rw [h] at hrun
  unfold Answers at hrun
  split at hrun
  case _ => cases hrun
  case _ =>
    obtain ⟨_, hb, hnone⟩ := hrun
    cases hb
    exact Option.not_isSome_iff_eq_none.1 (Bool.eq_false_iff.1 hnone)

end Builder

namespace Graph

variable {m : Method} {g : Graph}

/-- The graph of a method has the transitions that its statements say. -/
theorem passes_iff_mem_flow (h : build m = .ok g) (tr : Transition) : g.Passes tr ↔ tr ∈ m.flow := by
  obtain ⟨b, hrun, hb, rfl⟩ := build_eq_finish h
  have hsees := Builder.flow_run.2 _ _ _ hrun Builder.shaped_start ⟨none, none, none⟩ tr
  have hfixes : b.Fixes ⟨none, none, none⟩ tr ↔ b.graph.Passes tr := by
    rw [Builder.Fixes, Builder.inLoop_of_run hrun]
    exact or_iff_left (not_or.2 ⟨leaves_nil, leaves_nil⟩)
  rw [hb.connects_finish tr, Method.flow, List.mem_cons, ← Builder.sees_start (k := ⟨_, none, none⟩), ← hsees]
  exact or_congr hfixes.symm Iff.rfl

/-- The transitions of a method are those of its graph. Out of a statement control goes to the next one in
its block, or along an edge out of the block that it ends; out of the entry, along the entry block's edge. -/
theorem transitions_of_build (h : build m = .ok g) :
    (∀ s o t, ⟨some s, o, t⟩ ∈ m.flow ↔
      (o = none ∧ ∃ i u, [s, u] <:+: g.stmts i ∧ t = some u) ∨
        ∃ e ∈ g.edges, (g.stmts e.source).getLast? = some s ∧ e.branch.outcome = o ∧ g.Arrives e.target t) ∧
    ∀ o t, ⟨none, o, t⟩ ∈ m.flow ↔
      ∃ e ∈ g.edges, e.source = entry ∧ e.branch.outcome = o ∧ g.Arrives e.target t := by
  refine ⟨fun s o t => ?_, fun o t => ?_⟩
  · rw [← passes_iff_mem_flow h]
    constructor
    · intro hp
      cases hp with
      | @inside i _ u hin => exact Or.inl ⟨rfl, i, u, hin, rfl⟩
      | along he hx ht => exact Or.inr ⟨_, he, hx, rfl, ht⟩
    · rintro (⟨rfl, i, u, hin, rfl⟩ | ⟨e, he, hx, rfl, ht⟩)
      · exact .inside hin
      · exact .along (x := some s) he hx ht
  · rw [← passes_iff_mem_flow h]
    constructor
    · intro hp
      cases hp with
      | along he hx ht => exact ⟨_, he, hx, rfl, ht⟩
    · rintro ⟨e, he, hx, rfl, ht⟩
      exact .along (x := none) he hx ht

end Graph

def searchText : String :=
  "class Search \x7b int find(int n, int key) \x7b int i; i = 0; while (i < n) \x7b i = i + 1; " ++
    "if (i == key) break; else continue; \x7d return i; i = 0; \x7d \x7d"

theorem exists_ok_of_any {ε α : Type} {x : Except ε α} {f : α → Bool} (h : x.toOption.any f = true) :
    ∃ a, x = .ok a ∧ f a = true := by
  cases x with
  | error e => cases h
  | ok a => exact ⟨a, rfl, h⟩

theorem searchText_parses :
    ∃ p, Program.parse searchText = .ok p ∧ ∃ r ∈ p.routines, Stmt.straysList r.method.body = [] := by
  have hrun : (Program.parse searchText).toOption.any (fun p =>
      p.routines.any fun r => (Stmt.straysList r.method.body).isEmpty) = true := by decide +kernel
  obtain ⟨p, hp, hany⟩ := exists_ok_of_any hrun
  obtain ⟨r, hr, hnil⟩ := List.any_eq_true.1 hany
  exact ⟨p, hp, r, hr, List.isEmpty_iff.1 hnil⟩

/-- The entry of the search leads to its first statement. -/
theorem transitions_of_search : ∃ p r g, Program.parse searchText = .ok p ∧ r ∈ p.routines ∧
    Graph.build r.method = .ok g ∧
      ∃ e ∈ g.edges, e.source = Graph.entry ∧ e.branch.outcome = none ∧
        g.Arrives e.target (Stmt.firstList none r.method.body) := by
  obtain ⟨p, hp, r, hr, hnil⟩ := searchText_parses
  obtain ⟨g, hg⟩ := Graph.build_of_no_strays hnil
  exact ⟨p, r, g, hp, hr, hg, ((Graph.transitions_of_build hg).2 none _).1 List.mem_cons_self⟩

end Backflow
