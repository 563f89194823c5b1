import Backflow.Proofs.DepthFirst
import Backflow.Proofs.Iteration
import Backflow.Stats

namespace Backflow

open Search

namespace Graph

variable {m : Method} {g : Graph} {i j : Nat}

def heads (g : Graph) : List Nat := g.indices.filter fun i => (g.stmts i).any Stmt.isLoop

/-- The edges that are counted as leading back. -/
def backArcs (g : Graph) : List (Nat × Nat) :=
  Search.backArcs g.successors g.indices [(g.size, g.indices)]

theorem length_backArcs (g : Graph) : g.backArcs.length = g.backEdges := Search.length_backArcs _ _ _

theorem Directed.mem_heads_iff (hd : g.Directed) : i ∈ g.heads ↔ g.IsHead i := by
  unfold heads
  rw [List.mem_filter, mem_indices, List.any_eq_true]
  constructor
  · rintro ⟨hi, s, hs, hloop⟩
    cases s with
    | loop t c body => exact ⟨t, c, body, (hd.blocks i hi).alone t c body hs⟩
    | _ => cases hloop
  · rintro ⟨t, c, body, hstmts⟩
    have hmem : .loop t c body ∈ g.stmts i := hstmts ▸ List.mem_cons_self
    exact ⟨lt_size_of_mem_stmts hmem, _, hmem, rfl⟩

theorem Directed.map_stmts_filter (hd : g.Directed) {l : List Nat} (hl : l ⊆ g.indices) :
    (l.filter fun i => (g.stmts i).any Stmt.isLoop).map g.stmts =
      ((l.flatMap g.stmts).filter Stmt.isLoop).map fun s => [s] := by
  induction l with
  | nil => rfl
  | cons i rest ih =>
      rw [List.flatMap_cons, List.filter_append, List.map_append, ← ih fun k hk => hl (List.mem_cons_of_mem i hk)]
      by_cases hany : (g.stmts i).any Stmt.isLoop = true
      · have hhead : i ∈ g.heads := List.mem_filter.2 ⟨hl List.mem_cons_self, hany⟩
        obtain ⟨t, c, body, hstmts⟩ := hd.mem_heads_iff.1 hhead
        rw [List.filter_cons, if_pos hany, List.map_cons, hstmts]
        rfl
      · have hnone : (g.stmts i).filter Stmt.isLoop = [] := by simpa using hany
        rw [List.filter_cons, if_neg hany, hnone]
        rfl

theorem map_stmts_heads (h : build m = .ok g) :
    g.heads.map g.stmts = (m.statements.filter Stmt.isLoop).map fun s => [s] := by
  have hstatements : m.statements.filter Stmt.isLoop = g.statements.filter Stmt.isLoop := by
    rw [statements_of_build h, Stmt.actionsList, List.filter_filter]
    refine List.filter_congr fun s _ => ?_
    cases s <;> rfl
  rw [hstatements, statements_eq]
  exact (directed_of_build h).map_stmts_filter (List.Subset.refl _)

theorem reducible_of_build (h : build m = .ok g) : Reducible g.successors g.size exit := by
  have hg := wellFormed_of_build h
  refine ⟨fun i j hj => ?_, hg.exit_lt, List.eq_nil_iff_forall_not_mem.2 fun j hj => ?_, fun i j hj hle hne => ?_⟩
  · exact ⟨hg.closed.predecessor_lt (mem_predecessors_iff.2 hj), hg.closed.successor_lt hj⟩
  · obtain ⟨e, he, hsource, _⟩ := mem_successors.1 hj
    exact (hg.edges e he).source_ne hsource
  · obtain ⟨e, he, rfl, rfl⟩ := mem_successors.1 hj
    obtain ⟨t, c, body, hstmts⟩ :=
      (((directed_of_build h).edges e he).forward hne).resolve_left (Nat.not_lt.2 hle)
    obtain ⟨n, _, _, henc, _⟩ := loopAt_of_build h e.target _ (hstmts ▸ List.mem_cons_self) rfl
    exact ⟨n, henc⟩

theorem perm_flatMap_outgoing (g : Graph) {l : List Nat} (hl : l.Nodup) :
    (l.flatMap g.outgoing).Perm (g.edges.filter (·.source ∈ l)) := by
  induction l with
  | nil => simp
  | cons i rest ih =>
      obtain ⟨hi, hrest⟩ := List.nodup_cons.1 hl
      have hsplit := List.filter_append_perm (fun e : Edge => e.source = i) (g.edges.filter (·.source ∈ i :: rest))
      rw [List.filter_filter, List.filter_filter] at hsplit
      refine List.Perm.trans ?_ hsplit
      rw [List.flatMap_cons]
      refine ((ih hrest).append_left _).trans (List.Perm.of_eq ?_)
      congr 1
      · exact List.filter_congr fun e _ => by simp +contextual
      · refine List.filter_congr fun e _ => ?_
        by_cases he : e.source = i
        · simp [he, hi]
        · simp [he]

theorem Closed.perm_outgoing (hg : g.Closed) : (g.indices.flatMap g.outgoing).Perm g.edges := by
  refine (g.perm_flatMap_outgoing nodup_indices).trans (List.Perm.of_eq ?_)
  exact List.filter_eq_self.2 fun e he => decide_eq_true (mem_indices.2 (hg e he).1)

theorem Closed.perm_pending (hg : g.Closed) :
    (g.indices.flatMap fun i => (g.successors i).map (i, ·)).Perm (g.edges.map fun e => (e.source, e.target)) := by
  have harcs : (g.indices.flatMap fun i => (g.successors i).map (i, ·)) =
      (g.indices.flatMap g.outgoing).map fun e => (e.source, e.target) := by
    rw [List.map_flatMap]
    refine List.flatMap_congr fun i _ => ?_
    rw [successors, List.map_map]
    refine List.map_congr_left fun e he => ?_
    have hsource : e.source = i := by simpa using (List.mem_filter.1 he).2
    rw [← hsource]
    rfl
  rw [harcs]
  exact hg.perm_outgoing.map _

open Classical in
theorem perm_backArcs (h : build m = .ok g) :
    g.backArcs.Perm ((g.edges.filter fun e => Returns g.successors e.source e.target).map
      fun e => (e.source, e.target)) := by
  have hg := (wellFormed_of_build h).closed
  have hred := reducible_of_build h
  have hroot : (g.indices.map (g.size, ·)).filter (fun a => Returns g.successors a.1 a.2) = [] := by
    refine List.filter_eq_nil_iff.2 fun a ha hret => ?_
    obtain ⟨k, hk, rfl⟩ := List.mem_map.1 ha
    exact hred.not_reaches_root (mem_indices.1 hk) (of_decide_eq_true hret).2
  have hpending : pending g.successors g.indices [(g.size, g.indices)] =
      g.indices.map (g.size, ·) ++ g.indices.flatMap fun i => (g.successors i).map (i, ·) := by
    rw [pending, List.flatMap_singleton]
  refine ((descends_start g.successors g.size exit).perm_backArcs hred).trans ?_
  rw [← indices, hpending, List.filter_append, hroot, List.nil_append]
  refine (hg.perm_pending.filter _).trans (List.Perm.of_eq ?_)
  rw [List.filter_map]
  rfl

theorem mem_backArcs_iff (h : build m = .ok g) :
    (i, j) ∈ g.backArcs ↔ j ∈ g.successors i ∧ j ≤ i ∧ g.Reaches j i := by
  classical
  rw [(perm_backArcs h).mem_iff, mem_successors]
  constructor
  · intro hmem
    obtain ⟨e, he, heq⟩ := List.mem_map.1 hmem
    obtain ⟨he, hret⟩ := List.mem_filter.1 he
    have hret : Returns g.successors e.source e.target := of_decide_eq_true hret
    cases heq
    exact ⟨⟨e, he, rfl, rfl⟩, hret⟩
  · rintro ⟨⟨e, he, rfl, rfl⟩, hret⟩
    have hret : Returns g.successors e.source e.target := hret
    exact List.mem_map.2 ⟨e, List.mem_filter.2 ⟨he, decide_eq_true hret⟩, rfl⟩

theorem ne_exit_of_mem_backArcs (h : build m = .ok g) (hmem : (i, j) ∈ g.backArcs) : j ≠ exit := by
  rintro rfl
  have hred := reducible_of_build h
  obtain ⟨hj, _, hr⟩ := (mem_backArcs_iff h).1 hmem
  rw [hred.eq_of_reaches_exit hr, hred.exit_eq] at hj
  cases hj

theorem mem_heads_of_mem_backArcs (h : build m = .ok g) (hmem : (i, j) ∈ g.backArcs) : j ∈ g.heads := by
  have hd := directed_of_build h
  have hne := ne_exit_of_mem_backArcs h hmem
  obtain ⟨hj, hle, _⟩ := (mem_backArcs_iff h).1 hmem
  obtain ⟨e, he, rfl, rfl⟩ := mem_successors.1 hj
  exact hd.mem_heads_iff.2 (((hd.edges e he).forward hne).resolve_left (Nat.not_lt.2 hle))

/-- Of the edges into a block at most one leads back. -/
theorem nodup_targets_backArcs (h : build m = .ok g) : (g.backArcs.map (·.2)).Nodup := by
  classical
  refine List.nodup_iff_count_le_one.2 fun j => ?_
  by_cases hmem : j ∈ g.backArcs.map (·.2)
  · obtain ⟨⟨i, j⟩, ha, rfl⟩ := List.mem_map.1 hmem
    have hlt := (wellFormed_of_build h).closed.successor_lt ((mem_backArcs_iff h).1 ha).1
    refine Nat.le_trans ?_ (((directed_of_build h).blocks j hlt).once (ne_exit_of_mem_backArcs h ha))
    rw [((perm_backArcs h).map _).count_eq, List.map_map, List.count, List.countP_map, List.countP_filter, returning,
      incoming, ← List.countP_eq_length_filter, List.countP_filter]
    refine List.countP_mono_left fun e _ he => ?_
    obtain ⟨htarget, hret⟩ := Bool.and_eq_true_iff.1 he
    have htarget : e.target = j := eq_of_beq htarget
    have hret : Returns g.successors e.source e.target := of_decide_eq_true hret
    simpa [htarget] using htarget ▸ hret.1
  · rw [List.count_eq_zero.2 hmem]
    exact Nat.zero_le 1

open Classical in
theorem perm_targets_backArcs (h : build m = .ok g) :
    (g.backArcs.map (·.2)).Perm (g.heads.filter fun k => g.ComesBack k) := by
  refine (List.perm_ext_iff_of_nodup (nodup_targets_backArcs h) ((nodup_indices.filter _).filter _)).2 fun k => ?_
  rw [List.mem_filter, decide_eq_true_iff]
  constructor
  · intro hk
    obtain ⟨⟨i, k⟩, ha, rfl⟩ := List.mem_map.1 hk
    obtain ⟨hsucc, hle, hr⟩ := (mem_backArcs_iff h).1 ha
    obtain ⟨e, he, rfl, rfl⟩ := mem_successors.1 hsucc
    exact ⟨mem_heads_of_mem_backArcs h ha, e, List.mem_filter.2 ⟨he, decide_eq_true rfl⟩, hle, hr⟩
  · rintro ⟨_, e, he, hle, hr⟩
    exact List.mem_map.2 ⟨(e.source, k), (mem_backArcs_iff h).2 ⟨mem_successors_of_incoming he, hle, hr⟩, rfl⟩

theorem comesBack_iff_iterates (h : build m = .ok g) {s : Stmt} (hi : i ∈ g.heads) (hs : s ∈ g.stmts i) :
    g.ComesBack i ↔ s.iterates = true := by
  obtain ⟨t, c, body, hstmts⟩ := (directed_of_build h).mem_heads_iff.1 hi
  rw [hstmts, List.mem_singleton] at hs
  obtain ⟨n, _, _, _, hback⟩ := loopAt_of_build h i s (hs ▸ hstmts ▸ List.mem_cons_self) (hs ▸ rfl)
  exact hback

open Classical in
theorem countP_comesBack (h : build m = .ok g) :
    (g.heads.countP fun i => g.ComesBack i) = m.statements.countP Stmt.iterates := by
  have hhead : (g.heads.countP fun i => g.ComesBack i) = g.heads.countP fun i => (g.stmts i).any Stmt.iterates := by
    refine List.countP_congr fun i hi => ?_
    obtain ⟨t, c, body, hstmts⟩ := (directed_of_build h).mem_heads_iff.1 hi
    rw [decide_eq_true_iff, comesBack_iff_iterates h hi (hstmts ▸ List.mem_cons_self), hstmts, List.any_cons,
      List.any_nil, Bool.or_false]
  have hmap := congrArg (List.countP fun l => l.any Stmt.iterates) (map_stmts_heads h)
  rw [List.countP_map, List.countP_map, List.countP_filter] at hmap
  refine hhead.trans (hmap.trans (List.countP_congr fun s _ => ?_))
  cases s <;> simp [Stmt.iterates, Stmt.isLoop]

open Classical in
theorem backEdges_eq_countP (h : build m = .ok g) : g.backEdges = g.heads.countP fun i => g.ComesBack i := by
  rw [← length_backArcs, List.countP_eq_length_filter, ← (perm_targets_backArcs h).length_eq, List.length_map]

end Graph

open Classical in
/-- The edges that are counted as leading back are one for each loop that can come back to its test, in live code or
dead, and no other. -/
theorem Stats.backEdges_of_build {m : Method} {g : Graph} (h : Graph.build m = .ok g) :
    g.heads.map g.stmts = (m.statements.filter Stmt.isLoop).map (fun s => [s]) ∧
    (∀ i ∈ g.heads, ∀ s ∈ g.stmts i, g.ComesBack i ↔ s.iterates = true) ∧
    (ofGraph g).backEdges = g.heads.countP (fun i => g.ComesBack i) ∧
    (ofGraph g).backEdges = m.statements.countP Stmt.iterates ∧
    (ofGraph g).backEdges = g.backArcs.length ∧
    ∀ i j, (i, j) ∈ g.backArcs ↔ j ∈ g.successors i ∧ j ∈ g.heads ∧ j ≤ i ∧ g.Reaches j i := by
  have hcount : (ofGraph g).backEdges = g.heads.countP fun i => g.ComesBack i := Graph.backEdges_eq_countP h
  refine ⟨Graph.map_stmts_heads h, fun i hi s hs => Graph.comesBack_iff_iterates h hi hs, hcount,
    hcount.trans (Graph.countP_comesBack h), (Graph.length_backArcs g).symm, fun i j => ?_⟩
  rw [Graph.mem_backArcs_iff h]
  refine ⟨fun ⟨hj, hret⟩ => ⟨hj, ?_, hret⟩, fun ⟨hj, _, hret⟩ => ⟨hj, hret⟩⟩
  exact Graph.mem_heads_of_mem_backArcs h ((Graph.mem_backArcs_iff h).2 ⟨hj, hret⟩)

/-- Of five loops two never come back to their tests, and one that does is dead. -/
def winding : Method where
  name := "wind"
  isStatic := false
  returns := .int
  params := []
  locals := []
  body := [
    .loop ⟨0, .start⟩ (.var "a") (.block ⟨1, .start⟩ [.loop ⟨2, .start⟩ (.var "b") (.block ⟨3, .start⟩ []),
      .ifThen ⟨4, .start⟩ (.var "c") (.cont ⟨5, .start⟩), .assign ⟨6, .start⟩ "d" (.int 1)]),
    .loop ⟨7, .start⟩ (.var "a") (.block ⟨8, .start⟩ [.brk ⟨9, .start⟩, .cont ⟨10, .start⟩]),
    .loop ⟨11, .start⟩ (.var "b") (.ret ⟨12, .start⟩ (some (.var "d"))), .ret ⟨13, .start⟩ (some (.var "d")),
    .loop ⟨14, .start⟩ (.var "c") (.assign ⟨15, .start⟩ "d" (.int 2))]
  loc := .start

theorem backEdges_of_winding : ∃ g, Graph.build winding = .ok g ∧ g.heads.length = 5 ∧
    (Stats.ofGraph g).backEdges = 3 ∧
    ∀ i j, (i, j) ∈ g.backArcs ↔ j ∈ g.successors i ∧ j ∈ g.heads ∧ j ≤ i ∧ g.Reaches j i := by
  obtain ⟨g, hg⟩ := Graph.build_of_no_strays (m := winding) rfl
  obtain ⟨hheads, _, _, hcount, _, harcs⟩ := Stats.backEdges_of_build hg
  have hlength := congrArg List.length hheads
  rw [List.length_map] at hlength
  exact ⟨g, hg, hlength, hcount, harcs⟩

end Backflow
