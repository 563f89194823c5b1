import Backflow.Proofs.Directions
import Backflow.Proofs.Execution

namespace Backflow

theorem Block.Fits.labels_of_passed {b : Block} {i : Nat} (h : b.Fits i) (hexit : i ≠ Graph.exit)
    (hlatch : b.kind ≠ .latch) (hlast : ∀ s, b.stmts.getLast? = some s → s.endsBlock = false) :
    b.labels = [[.sequence], [.back]] := by
  unfold Block.labels
  cases hk : b.kind with
  | exit => exact absurd (h.exit_iff.1 hk) hexit
  | latch => exact absurd hk hlatch
  | entry | basic =>
      cases hs : b.stmts.getLast? with
      | none => rfl
      | some s => exact Stmt.labels_of_passed (hlast s hs)

theorem Stmt.isTest_of_passed {s : Stmt} (h : s.endsBlock = false) : s.isTest = false := by
  cases s with
  | ifThen | ifElse | loop => cases h
  | _ => rfl

theorem Stmt.length_labels {s : Stmt} {l : List Branch} (hl : l ∈ s.labels) :
    l.length = 1 + [s].countP Stmt.isTest := by
  cases s with
  | ifThen | ifElse | loop | ret | brk | cont =>
      rw [List.mem_singleton.1 hl]
      rfl
  | _ =>
      rcases List.mem_cons.1 hl with rfl | hl
      · rfl
      · rw [List.mem_singleton.1 hl]
        rfl

theorem Block.Fits.length_labels {b : Block} {i : Nat} (h : b.Fits i) {l : List Branch} (hl : l ∈ b.labels) :
    l.length + (if i = Graph.exit then 1 else 0) = 1 + b.stmts.countP Stmt.isTest := by
  by_cases hexit : b.kind = .exit
  · have hnil : b.stmts = [] := not_not.1 (mt h.basic_iff.2 (by simp [hexit]))
    rw [Block.labels, hexit] at hl
    rw [List.mem_singleton.1 hl, if_pos (h.exit_iff.1 hexit), hnil]
    rfl
  rw [if_neg (mt h.exit_iff.2 hexit), Nat.add_zero]
  rcases List.eq_nil_or_concat' b.stmts with hnil | ⟨early, s, hstmts⟩
  · have hone : ∀ l ∈ b.labels, l.length = 1 := by
      unfold Block.labels
      cases hk : b.kind with
      | exit => exact absurd hk hexit
      | latch | entry | basic => simp [hnil]
    rw [hone l hl, hnil]
    rfl
  · have hkind := h.basic_iff.2 (by simp [hstmts])
    have hplain : early.countP Stmt.isTest = 0 := by
      refine List.countP_eq_zero.2 fun u hu => ?_
      rw [Stmt.isTest_of_passed (h.early u (by rwa [hstmts, List.dropLast_concat]))]
      exact Bool.false_ne_true
    rw [Block.labels_basic hkind (by rw [hstmts, List.getLast?_concat])] at hl
    rw [Stmt.length_labels hl, hstmts, List.countP_append, hplain, Nat.zero_add]

namespace Graph

variable {m : Method} {g : Graph} {i : Nat} {k : Branch} {s : Stmt}

/-- The edges of a graph are those that its blocks ask for. -/
structure Wired (g : Graph) : Prop where
  exit : g.outgoing exit = []
  test : ∀ i s, (g.stmts i).getLast? = some s → s.isTest = true →
    ((g.outgoing i).map (·.branch)).Perm [.ifTrue, .ifFalse]
  ret : ∀ i t value, (g.stmts i).getLast? = some (.ret t value) → g.outgoing i = [⟨i, Graph.exit, .ret⟩]
  brk : ∀ i t, (g.stmts i).getLast? = some (.brk t) → ∃ j, g.outgoing i = [⟨i, j, .brk⟩]
  cont : ∀ i t, (g.stmts i).getLast? = some (.cont t) → ∃ j, g.outgoing i = [⟨i, j, .cont⟩]
  latch : ∀ i < g.size, (g.block i).kind = .latch → ∃ j, g.IsHead j ∧ g.outgoing i = [⟨i, j, .back⟩]
  /-- Control passes on from every other block, the entry included. -/
  onward : ∀ i < g.size, i ≠ Graph.exit → (g.block i).kind ≠ .latch →
    (∀ s, (g.stmts i).getLast? = some s → s.endsBlock = false) →
      ∃ j, g.outgoing i = [⟨i, j, .sequence⟩] ∨ g.outgoing i = [⟨i, j, .back⟩]
  alone : ∀ i t c body, .loop t c body ∈ g.stmts i → g.stmts i = [.loop t c body]
  once : ∀ i, g.IsHead i → (g.returning i).length ≤ 1
  forward : ∀ e ∈ g.edges, e.target ≠ Graph.exit → e.target ≤ e.source → g.IsHead e.target
  joined : ∀ i < g.size, (g.block i).kind = .latch → 2 ≤ (g.incoming i).length

theorem labelsFrom_edges (g : Graph) (i : Nat) :
    labelsFrom i (g.edges.map Edge.jump) = (g.outgoing i).map (·.branch) := by
  rw [labelsFrom, List.filter_map, List.map_map]
  rfl

theorem Balanced.sends_outgoing (h : g.Balanced (g.edges.map Edge.jump)) (hi : i < g.size) :
    (g.block i).Sends ((g.outgoing i).map (·.branch)) := by
  rw [← labelsFrom_edges]
  exact h.sends i hi

theorem outgoing_eq_singleton (h : ((g.outgoing i).map (·.branch)).Perm [k]) :
    ∃ j, g.outgoing i = [⟨i, j, k⟩] ∧ ⟨i, j, k⟩ ∈ g.edges := by
  obtain ⟨e, he, hk⟩ := List.map_eq_singleton_iff.1 (List.perm_singleton.1 h)
  obtain ⟨hmem, hsource⟩ := List.mem_filter.1 (he ▸ List.mem_singleton_self e : e ∈ g.outgoing i)
  have heq : e = ⟨i, e.target, k⟩ := by
    rw [← hk, ← of_decide_eq_true hsource]
  exact ⟨e.target, heq ▸ he, heq ▸ hmem⟩

theorem WellFormed.basic_of_last (h : g.WellFormed) (hs : (g.stmts i).getLast? = some s) :
    i < g.size ∧ (g.block i).kind = .basic := by
  have hmem := List.mem_of_getLast? hs
  have hlt := lt_size_of_mem_stmts hmem
  exact ⟨hlt, (h.blocks i hlt).basic_iff.2 (List.ne_nil_of_mem hmem)⟩

theorem Balanced.labels_of_last (h : g.Balanced (g.edges.map Edge.jump)) (hg : g.WellFormed)
    (hs : (g.stmts i).getLast? = some s) : ∃ l ∈ s.labels, ((g.outgoing i).map (·.branch)).Perm l := by
  obtain ⟨hlt, hkind⟩ := hg.basic_of_last hs
  obtain ⟨l, hl, hperm⟩ := h.sends_outgoing hlt
  rw [Block.labels_basic hkind hs] at hl
  exact ⟨l, hl, hperm⟩

theorem Balanced.outgoing_of_last (h : g.Balanced (g.edges.map Edge.jump)) (hg : g.WellFormed)
    (hs : (g.stmts i).getLast? = some s) (hl : s.labels = [[k]]) :
    ∃ j, g.outgoing i = [⟨i, j, k⟩] ∧ ⟨i, j, k⟩ ∈ g.edges := by
  obtain ⟨l, hmem, hperm⟩ := h.labels_of_last hg hs
  rw [hl] at hmem
  rw [List.mem_singleton.1 hmem] at hperm
  exact outgoing_eq_singleton hperm

theorem Balanced.wired (h : g.Balanced (g.edges.map Edge.jump)) (hg : g.WellFormed) (hd : g.Directed) :
    g.Wired where
  exit := by
    obtain ⟨l, hl, hperm⟩ := h.sends_outgoing hg.exit_lt
    rw [Block.labels, (hg.blocks exit hg.exit_lt).exit_iff.2 rfl] at hl
    rw [List.mem_singleton.1 hl] at hperm
    exact List.map_eq_nil_iff.1 hperm.eq_nil
  test i s hs htest := by
    obtain ⟨l, hl, hperm⟩ := h.labels_of_last hg hs
    cases s with
    | ifThen | ifElse | loop => rwa [List.mem_singleton.1 hl] at hperm
    | _ => cases htest
  ret i t value hs := by
    obtain ⟨j, hout, hmem⟩ := h.outgoing_of_last hg hs rfl
    have htarget : j = Graph.exit := (hd.edges _ hmem).ret rfl
    rw [hout, htarget]
  brk i t hs := by
    obtain ⟨j, hout, _⟩ := h.outgoing_of_last hg hs rfl
    exact ⟨j, hout⟩
  cont i t hs := by
    obtain ⟨j, hout, _⟩ := h.outgoing_of_last hg hs rfl
    exact ⟨j, hout⟩
  latch i hi hk := by
    obtain ⟨l, hl, hperm⟩ := h.sends_outgoing hi
    rw [Block.labels, hk] at hl
    rw [List.mem_singleton.1 hl] at hperm
    obtain ⟨j, hout, hmem⟩ := outgoing_eq_singleton hperm
    exact ⟨j, (hd.edges _ hmem).latch hk, hout⟩
  onward i hi hexit hlatch hlast := by
    obtain ⟨l, hl, hperm⟩ := h.sends_outgoing hi
    rw [(hg.blocks i hi).labels_of_passed hexit hlatch hlast] at hl
    rcases List.mem_cons.1 hl with rfl | hl
    · obtain ⟨j, hout, _⟩ := outgoing_eq_singleton hperm
      exact ⟨j, Or.inl hout⟩
    · rw [List.mem_singleton.1 hl] at hperm
      obtain ⟨j, hout, _⟩ := outgoing_eq_singleton hperm
      exact ⟨j, Or.inr hout⟩
  alone i t c body hmem := (hd.blocks i (lt_size_of_mem_stmts hmem)).alone t c body hmem
  once i hi := by
    obtain ⟨t, c, body, hstmts⟩ := hi
    have hmem : Stmt.loop t c body ∈ g.stmts i := hstmts ▸ List.mem_cons_self
    refine (hd.blocks i (lt_size_of_mem_stmts hmem)).once ?_
    rintro rfl
    rw [hg.stmts_exit] at hmem
    exact absurd hmem List.not_mem_nil
  forward e he hne hle := ((hd.edges e he).forward hne).resolve_left (Nat.not_lt.2 hle)
  joined i hi hk := (hd.blocks i hi).joined hk

theorem countP_lt_succ (g : Graph) (n : Nat) :
    g.edges.countP (·.source < n + 1) = g.edges.countP (·.source < n) + (g.outgoing n).length := by
  rw [outgoing, ← List.countP_eq_length_filter]
  induction g.edges with
  | nil => rfl
  | cons e edges ih =>
      simp only [List.countP_cons, decide_eq_true_eq, ih]
      split <;> split <;> split <;> omega

/-- Counted block by block: one edge out of each but the exit, and one more for each test. -/
theorem Balanced.countP_edges (h : g.Balanced (g.edges.map Edge.jump)) (hg : g.WellFormed) {n : Nat}
    (hn : n ≤ g.size) : g.edges.countP (·.source < n) + (if exit < n then 1 else 0) =
      n + ((List.range n).flatMap g.stmts).countP Stmt.isTest := by
  induction n with
  | zero => simp
  | succ n ih =>
      obtain ⟨l, hl, hperm⟩ := h.sends_outgoing hn
      have hlen := (hg.blocks n hn).length_labels hl
      rw [← hperm.length_eq, List.length_map] at hlen
      have ih := ih (Nat.le_of_succ_le hn)
      rw [countP_lt_succ, List.range_succ, List.flatMap_append, List.countP_append, List.flatMap_singleton]
      change _ = _ + (_ + (g.block n).stmts.countP _)
      split at hlen <;> split at ih <;> split <;> omega

/-- In a method's graph no edge is lost, doubled or mislabelled, and their number is that of the blocks but
the exit and of the tests. -/
theorem edges_of_build (h : build m = .ok g) :
    g.Wired ∧ g.edges.length = g.size - 1 + m.statements.countP Stmt.isTest := by
  have hg := wellFormed_of_build h
  have hbal := balanced_of_build h
  refine ⟨hbal.wired hg (directed_of_build h), ?_⟩
  have hcount := hbal.countP_edges hg (Nat.le_refl _)
  have hall : g.edges.countP (·.source < g.size) = g.edges.length :=
    List.countP_eq_length.2 fun e he => decide_eq_true (hg.edges e he).source_lt
  have htests : g.statements.countP Stmt.isTest = m.statements.countP Stmt.isTest := by
    rw [statements_of_build h, Stmt.actionsList, List.countP_filter]
    refine List.countP_congr fun s _ => ?_
    cases s <;> simp [Stmt.isTest, Stmt.isBlock]
  have hstmts : (List.range g.size).flatMap g.stmts = g.statements := g.statements_eq.symm
  rw [hall, if_pos hg.exit_lt, hstmts, htests] at hcount
  have hpos := hg.size_pos
  omega

end Graph

def skipping : Method where
  name := "skip"
  isStatic := false
  returns := .void
  params := []
  locals := []
  body := [.loop ⟨0, .start⟩ (.var "on") (.block ⟨1, .start⟩
    [.ifThen ⟨2, .start⟩ (.var "skipped") (.cont ⟨3, .start⟩), .print ⟨4, .start⟩ (.int 1)])]
  loc := .start

theorem edges_of_skipping : ∃ g, Graph.build skipping = .ok g ∧ g.Wired ∧ g.edges.length = g.size - 1 + 2 := by
  obtain ⟨g, hg⟩ := Graph.build_of_no_strays (m := skipping) rfl
  exact ⟨g, hg, Graph.edges_of_build hg⟩

end Backflow
