import Backflow.Proofs.Equations
import Backflow.Proofs.Statements
import Mathlib.Data.List.Nodup
import Mathlib.Data.List.Pairwise
import Mathlib.Logic.Relation

namespace Backflow

/-- On some path from the statement the variable is read, and no earlier statement of the path writes it. -/
def LiveAlong (follows : Stmt → Stmt → Prop) (v : String) (s : Stmt) : Prop :=
  ∃ t, Relation.ReflTransGen (fun a b => v ∉ a.defs ∧ follows a b) s t ∧ v ∈ t.uses

theorem liveAlong_iff {follows : Stmt → Stmt → Prop} {v : String} {s : Stmt} :
    LiveAlong follows v s ↔ v ∈ s.uses ∨ v ∉ s.defs ∧ ∃ t, follows s t ∧ LiveAlong follows v t := by
  constructor
  · rintro ⟨t, hpath, ht⟩
    rcases hpath.cases_head with rfl | ⟨u, ⟨hs, hu⟩, hpath⟩
    · exact Or.inl ht
    · exact Or.inr ⟨hs, u, hu, t, hpath, ht⟩
  · rintro (hs | ⟨hs, u, hu, t, hpath, ht⟩)
    · exact ⟨s, .refl, hs⟩
    · exact ⟨t, .head ⟨hs, hu⟩ hpath, ht⟩

/-- Induction along the path of a live variable, from its reader back. -/
theorem LiveAlong.induction {follows : Stmt → Stmt → Prop} {v : String} {P : Stmt → Prop}
    (read : ∀ s, v ∈ s.uses → P s) (step : ∀ s t, v ∉ s.defs → follows s t → P t → P s) {s : Stmt}
    (h : LiveAlong follows v s) : P s := by
  obtain ⟨t, hpath, ht⟩ := h
  induction hpath using Relation.ReflTransGen.head_induction_on with
  | refl => exact read t ht
  | head hstep _ ih => exact step _ _ hstep.1 hstep.2 ih

namespace Graph

/-- From the end of one block control comes to another, through edges and blocks without statements. -/
inductive Leads (g : Graph) : Nat → Nat → Prop
  | edge {i j} (h : j ∈ g.successors i) : Leads g i j
  | through {i j k} (h : j ∈ g.successors i) (hj : g.stmts j = []) (hk : Leads g j k) : Leads g i k

/-- The statement that control comes to in block `i` with these statements of the block still ahead. -/
def Onward (g : Graph) (i : Nat) : List Stmt → Stmt → Prop
  | s :: _, t => t = s
  | [], t => ∃ j, g.Leads i j ∧ (g.stmts j).head? = some t

/-- One statement is next to the other in a block, or begins a block that the other's block leads to. -/
def Follows (g : Graph) (s t : Stmt) : Prop :=
  (∃ i, [s, t] <:+: g.stmts i) ∨ ∃ i, (g.stmts i).getLast? = some s ∧ g.Onward i [] t

/-- The variable is live before the statement. -/
def Live (g : Graph) : String → Stmt → Prop := LiveAlong g.Follows

variable {g : Graph} {i j : Nat} {s t : Stmt} {l r : List Stmt} {v : String}

theorem onward_nil : g.Onward i [] t ↔ ∃ j ∈ g.successors i, g.Onward j (g.stmts j) t := by
  constructor
  · rintro ⟨k, hlead, ht⟩
    cases hlead with
    | edge hk =>
        obtain ⟨rest, hrest⟩ := List.head?_eq_some_iff.1 ht
        refine ⟨k, hk, ?_⟩
        rw [hrest]
        rfl
    | @through _ j _ hj hnil hlead =>
        refine ⟨j, hj, ?_⟩
        rw [hnil]
        exact ⟨k, hlead, ht⟩
  · rintro ⟨j, hj, ht⟩
    cases hstmts : g.stmts j with
    | nil =>
        rw [hstmts] at ht
        obtain ⟨k, hlead, hk⟩ := ht
        exact ⟨k, .through hj hstmts hlead, hk⟩
    | cons s rest =>
        rw [hstmts] at ht
        cases ht
        exact ⟨j, .edge hj, by rw [hstmts]; rfl⟩

theorem place_unique {l' r' : List Stmt} (hg : g.statements.Nodup) (h : g.stmts i = l ++ s :: r)
    (h' : g.stmts j = l' ++ s :: r') : i = j ∧ l = l' ∧ r = r' := by
  have hs : s ∈ g.stmts i := h ▸ List.mem_append_right l List.mem_cons_self
  have hs' : s ∈ g.stmts j := h' ▸ List.mem_append_right l' List.mem_cons_self
  rw [statements_eq] at hg
  obtain ⟨hblocks, hdisjoint⟩ := List.nodup_flatMap.1 hg
  have hi := mem_indices.2 (lt_size_of_mem_stmts hs)
  have hij : i = j := by
    by_contra hne
    have : Std.Symm (Function.onFun List.Disjoint g.stmts) := ⟨fun _ _ h => List.disjoint_symm h⟩
    exact hdisjoint.forall hi (mem_indices.2 (lt_size_of_mem_stmts hs')) hne hs hs'
  subst hij
  have hnodup := hblocks i hi
  rw [h] at hnodup h'
  have hout : s ∉ l ++ r := (List.nodup_middle.1 hnodup).notMem
  rw [List.mem_append, not_or] at hout
  obtain ⟨hl, _, hr⟩ := (List.append_cons_inj_of_notMem hout.1 hout.2).1 h'
  exact ⟨rfl, hl, hr⟩

theorem follows_iff (hg : g.statements.Nodup) (h : g.stmts i = l ++ s :: r) :
    g.Follows s t ↔ g.Onward i r t := by
  constructor
  · rintro (⟨k, a, b, hin⟩ | ⟨k, hlast, ht⟩)
    · rw [List.append_assoc] at hin
      obtain ⟨_, _, rfl⟩ := place_unique hg h hin.symm
      rfl
    · obtain ⟨a, ha⟩ := List.getLast?_eq_some_iff.1 hlast
      obtain ⟨rfl, _, rfl⟩ := place_unique hg h ha
      exact ht
  · intro ht
    cases r with
    | nil =>
        refine Or.inr ⟨i, ?_, ht⟩
        rw [h, List.getLast?_concat]
    | cons u rest =>
        cases ht
        refine Or.inl ⟨i, l, rest, ?_⟩
        rw [h, List.append_assoc]
        rfl

/-- The variable is live in block `i` with the statements `r` of the block still ahead. -/
def LiveAt (g : Graph) (v : String) (i : Nat) (r : List Stmt) : Prop := ∃ t, g.Onward i r t ∧ g.Live v t

theorem liveAt_nil : g.LiveAt v i [] ↔ ∃ j ∈ g.successors i, g.LiveAt v j (g.stmts j) := by
  constructor
  · rintro ⟨t, ht, hlive⟩
    obtain ⟨j, hj, ht⟩ := onward_nil.1 ht
    exact ⟨j, hj, t, ht, hlive⟩
  · rintro ⟨j, hj, t, ht, hlive⟩
    exact ⟨t, onward_nil.2 ⟨j, hj, ht⟩, hlive⟩

theorem liveAt_cons : g.LiveAt v i (s :: r) ↔ g.Live v s := exists_eq_left

theorem live_iff (hg : g.statements.Nodup) (h : g.stmts i = l ++ s :: r) :
    g.Live v s ↔ v ∈ s.uses ∨ v ∉ s.defs ∧ g.LiveAt v i r := by
  refine liveAlong_iff.trans (or_congr Iff.rfl (and_congr Iff.rfl ?_))
  exact exists_congr fun t => and_congr (follows_iff hg h) Iff.rfl

end Graph

end Backflow
