import Backflow.Proofs.LiveSets
import Backflow.Proofs.Paths

namespace Backflow

variable {n : Numbering} {g : Graph} {sol : Solution (VarSet n.size)} {i : Nat} {l r : List Stmt} {v : String}

namespace Graph

/-- A graph whose statements are all different, with a numbering that has all their names. -/
structure Numbered (g : Graph) (n : Numbering) : Prop where
  closed : g.Closed
  nodup : g.statements.Nodup
  covers : ∀ s ∈ g.statements, n.Covers s

/-- Carrying back what is live at the end of a block gives what is live earlier in it. -/
theorem Numbered.liveAt_of_mem_foldr (hg : g.Numbered n) {after : VarSet n.size}
    (hafter : ∀ v ∈ n.namesOf after, g.LiveAt v i []) (h : g.stmts i = l ++ r) :
    v ∈ n.namesOf (r.foldr n.carry after) → g.LiveAt v i r := by
  induction r generalizing l with
  | nil => exact hafter v
  | cons s r ih =>
      intro hv
      have hs : s ∈ g.statements :=
        mem_statements_of_mem_stmts (h ▸ List.mem_append_right l List.mem_cons_self)
      rw [liveAt_cons, live_iff hg.nodup h]
      rw [List.foldr_cons, Numbering.mem_namesOf_carry (hg.covers s hs)] at hv
      refine hv.imp_right fun hv => ⟨hv.2, ih (l := l ++ [s]) ?_ hv.1⟩
      rw [h, List.append_assoc, List.singleton_append]

end Graph

namespace Solution.Settled

theorem mem_exit_iff (h : sol.Settled n.carry g) (hi : i < g.size) :
    v ∈ n.namesOf (sol.exit i) ↔ ∃ j ∈ g.successors i, v ∈ n.namesOf (sol.entry j) := by
  rw [h.exit_eq i hi]
  exact Graph.mem_namesOf_exitOf

theorem entry_eq_foldr (h : sol.Settled n.carry g) (hi : i < g.size) :
    sol.entry i = (g.stmts i).foldr n.carry (sol.exit i) := by
  rw [h.entry_eq i hi, Graph.entryOf, ← h.exit_eq i hi]

theorem mem_exit_of_leads {j : Nat} (h : sol.Settled n.carry g) (hg : g.Numbered n) (hi : i < g.size)
    (hlead : g.Leads i j) (hv : v ∈ n.namesOf (sol.entry j)) : v ∈ n.namesOf (sol.exit i) := by
  induction hlead with
  | edge hj => exact (h.mem_exit_iff hi).2 ⟨_, hj, hv⟩
  | @through i j k hj hnil _ ih =>
      have hlt := hg.closed.successor_lt hj
      have hentry : sol.entry j = sol.exit j := by rw [h.entry_eq_foldr hlt, hnil, List.foldr_nil]
      exact (h.mem_exit_iff hi).2 ⟨j, hj, hentry ▸ ih hlt hv⟩

theorem mem_exit_of_onward {t : Stmt} (h : sol.Settled n.carry g) (hg : g.Numbered n) (hi : i < g.size)
    (ht : g.Onward i [] t)
    (hin : ∀ j l r, g.stmts j = l ++ t :: r → v ∈ n.namesOf ((t :: r).foldr n.carry (sol.exit j))) :
    v ∈ n.namesOf (sol.exit i) := by
  obtain ⟨j, hlead, hj⟩ := ht
  obtain ⟨rest, hrest⟩ := List.head?_eq_some_iff.1 hj
  have hlt : j < g.size := Graph.lt_size_of_mem_stmts (hrest ▸ List.mem_cons_self)
  have hentry := hin j [] rest hrest
  rw [← hrest, ← h.entry_eq_foldr hlt] at hentry
  exact h.mem_exit_of_leads hg hi hlead hentry

theorem mem_of_live (h : sol.Settled n.carry g) (hg : g.Numbered n) {s : Stmt} (hlive : g.Live v s) :
    ∀ i l r, g.stmts i = l ++ s :: r → v ∈ n.namesOf ((s :: r).foldr n.carry (sol.exit i)) := by
  have hmem {i : Nat} {l r : List Stmt} {s : Stmt} (hplace : g.stmts i = l ++ s :: r) : s ∈ g.stmts i :=
    hplace ▸ List.mem_append_right l List.mem_cons_self
  have hcovers {i : Nat} {l r : List Stmt} {s : Stmt} (hplace : g.stmts i = l ++ s :: r) : n.Covers s :=
    hg.covers s (Graph.mem_statements_of_mem_stmts (hmem hplace))
  refine hlive.induction (P := fun s => ∀ i l r, g.stmts i = l ++ s :: r →
    v ∈ n.namesOf ((s :: r).foldr n.carry (sol.exit i))) ?_ ?_
  · intro s hs i l r hplace
    exact (Numbering.mem_namesOf_carry (hcovers hplace)).2 (Or.inl hs)
  · intro s t hs hfollows ih i l r hplace
    refine (Numbering.mem_namesOf_carry (hcovers hplace)).2 (Or.inr ⟨?_, hs⟩)
    have hnext := (Graph.follows_iff hg.nodup hplace).1 hfollows
    cases r with
    | cons u r =>
        cases hnext
        refine ih i (l ++ [s]) r ?_
        rw [hplace, List.append_assoc, List.singleton_append]
    | nil => exact h.mem_exit_of_onward hg (Graph.lt_size_of_mem_stmts (hmem hplace)) hnext ih

end Solution.Settled

namespace Solution.LeastAbove

theorem liveAt_of_mem_entry (h : sol.LeastAbove n.carry g {}) (hg : g.Numbered n) (hi : i < g.size)
    (hv : v ∈ n.namesOf (sol.entry i)) : g.LiveAt v i (g.stmts i) := by
  -- The live variables meet the equations too, so the least solution has no more than these.
  have hle := h.least (fun j => n.collect fun x => g.LiveAt x j (g.stmts j)) (fun j hj => ?_)
    (fun _ _ => bot_le) i hi
  · exact (Numbering.mem_namesOf_collect.1 (Numbering.le_iff_namesOf.1 hle v hv)).2
  · refine Numbering.le_iff_namesOf.2 fun x hx => Numbering.mem_namesOf_collect.2 ⟨?_, ?_⟩
    · obtain ⟨k, hk, _⟩ := Numbering.mem_namesOf.1 hx
      exact Numbering.mem_names_of_index? hk
    · refine hg.liveAt_of_mem_foldr (l := []) (fun y hy => ?_) rfl hx
      obtain ⟨k, hk, hy⟩ := Graph.mem_namesOf_exitOf.1 hy
      exact Graph.liveAt_nil.2 ⟨k, hk, (Numbering.mem_namesOf_collect.1 hy).2⟩

end Solution.LeastAbove

/-- At every place of every block the least solution has exactly the live variables. -/
theorem Solution.mem_foldr_iff (h : sol.Settled n.carry g) (hleast : sol.LeastAbove n.carry g {})
    (hg : g.Numbered n) (hi : i < g.size) (hplace : g.stmts i = l ++ r) :
    v ∈ n.namesOf (r.foldr n.carry (sol.exit i)) ↔ g.LiveAt v i r := by
  constructor
  · refine hg.liveAt_of_mem_foldr (fun x hx => ?_) hplace
    obtain ⟨j, hj, hx⟩ := (h.mem_exit_iff hi).1 hx
    exact Graph.liveAt_nil.2 ⟨j, hj, hleast.liveAt_of_mem_entry hg (hg.closed.successor_lt hj) hx⟩
  · rintro ⟨t, ht, hlive⟩
    cases r with
    | cons s r =>
        cases ht
        exact h.mem_of_live hg hlive i l r hplace
    | nil => exact h.mem_exit_of_onward hg hi ht (h.mem_of_live hg hlive)

end Backflow
