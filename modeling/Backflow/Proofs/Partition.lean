import Backflow.Proofs.Latches
import Backflow.Proofs.Wiring

namespace Backflow

/-- The sequences of statements in a method: its body, and the statements that its tests decide on. -/
def Method.sequences (m : Method) : List (List Stmt) :=
  Stmt.spliceList m.body :: (m.statements.flatMap Stmt.branches).map Stmt.splice

namespace Graph

variable {m : Method} {g : Graph}

def ofKind (g : Graph) (k : BlockKind) : List Nat := g.indices.filter fun i => (g.block i).kind = k

/-- The blocks share out the statements of the method. -/
structure Partitions (g : Graph) (m : Method) : Prop where
  statements : g.statements = m.statements.filter (!·.isBlock)
  basic : ((g.ofKind .basic).map g.stmts).Perm (m.sequences.flatMap Stmt.cut)
  entry : g.ofKind .entry = [entry]
  exit : g.ofKind .exit = [exit]
  /-- A latch leads to the head of its loop, and all ends of the loop's body enter it. -/
  latch : ((g.ofKind .latch).map fun i => ((g.successors i).map g.stmts, (g.incoming i).length)).Perm
    ((m.statements.filter fun s => 2 ≤ s.bodyEnds).map fun s => ([[s]], s.bodyEnds))

theorem segments_of_build (h : build m = .ok g) : (g.segments g.size).Perm (m.sequences.flatMap Stmt.cut) := by
  obtain ⟨b, hrun, hb, rfl⟩ := build_eq_finish h
  have hcuts := Builder.cuts_run.2 _ _ _ hrun Builder.shaped_start []
  rw [← hb.segments_size, List.append_nil, Builder.cuts_of_after rfl] at hcuts
  rw [segments_congr (fun i _ => Builder.kind_finish b i) fun i _ => Builder.stmts_finish b i, Builder.size_finish,
    Method.sequences, List.flatMap_cons, List.flatMap_map]
  exact hcuts

theorem latches_of_build (h : build m = .ok g) : (g.latches g.size).Perm (Stmt.joinedList m.body) := by
  obtain ⟨b, hrun, hb, rfl⟩ := build_eq_finish h
  have hlatches := Builder.latches_run.2 _ _ _ hrun Builder.aimed_start
  have hjumps (j : Jump) (hj : j ∈ b.front.jumps) := (hb.continues hj).ne_latch
  have hspares : b.graph.SparesLatches b.finish := by
    have hedges := b.sparesLatches_addEdges b.front.jumps hjumps hb.graph.kind_exit_ne
    exact ⟨fun i _ => Builder.kind_finish b i, hedges.outgoing, hedges.incoming, fun i _ => Builder.stmts_finish b i⟩
  rw [Builder.size_finish]
  refine (List.Perm.of_eq (hspares.latches_eq (Builder.directed_run.2 _ _ _ hrun Builder.aimed_start))).trans ?_
  exact hlatches

theorem ofKind_eq_singleton {k : BlockKind} {i : Nat} (hi : i < g.size)
    (h : ∀ j < g.size, (g.block j).kind = k ↔ j = i) : g.ofKind k = [i] := by
  have hfilter : g.ofKind k = g.indices.filter (· = i) :=
    List.filter_congr fun j hj => decide_eq_decide.2 (h j (mem_indices.1 hj))
  rw [hfilter, List.filter_eq, List.count_eq_one_of_mem nodup_indices (mem_indices.2 hi)]
  rfl

/-- The blocks of a method's graph hold its statements in reading order, the basic ones are the segments of its
sequences, and besides there are an entry, an exit, and a latch for each loop whose body ends more than once. -/
theorem blocks_of_build (h : build m = .ok g) : g.Partitions m := by
  have hg := wellFormed_of_build h
  refine ⟨statements_of_build h, segments_of_build h, ?_, ?_, latches_of_build h⟩
  · exact ofKind_eq_singleton hg.size_pos fun i hi => (hg.blocks i hi).entry_iff
  · exact ofKind_eq_singleton hg.exit_lt fun i hi => (hg.blocks i hi).exit_iff

end Graph

theorem blocks_of_skipping : ∃ g, Graph.build skipping = .ok g ∧ g.Partitions skipping ∧
    (g.ofKind .latch).length = 1 := by
  obtain ⟨g, hg⟩ := Graph.build_of_no_strays (m := skipping) rfl
  have hblocks := Graph.blocks_of_build hg
  have hlatch := hblocks.latch.length_eq
  rw [List.length_map] at hlatch
  exact ⟨g, hg, hblocks, hlatch⟩

end Backflow
