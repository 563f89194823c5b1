import Backflow.Graph.Check
import Backflow.Proofs.Shape

namespace Backflow.Builder

variable {b : Builder} {s : Stmt} {j : Jump} {jumps : List Jump}

theorem shaped_start : start.Shaped := by
  have hcont : start.graph.Continues Graph.entry := ⟨Nat.zero_lt_two, Or.inl rfl⟩
  refine .of_after rfl ⟨Nat.one_lt_two, fun i hi => ?_, nofun⟩ (fun j hj => ?_) nofun
  · match i, hi with
    | 0, _ => exact ⟨by decide, by decide, by decide, nofun⟩
    | 1, _ => exact ⟨by decide, by decide, by decide, nofun⟩
  · rw [List.mem_singleton.1 hj]
    exact hcont

theorem statements_addEdges (b : Builder) (jumps : List Jump) (target : Nat) :
    (b.addEdges jumps target).graph.statements = b.graph.statements := by
  rw [addEdges_eq]
  rfl

theorem statements_addBlock (b : Builder) (block : Block) (jumps : List Jump) :
    (b.addBlock block jumps).graph.statements = b.graph.statements ++ block.stmts := by
  rw [addBlock, statements_addEdges]
  simp [graph, Graph.statements]

theorem statements_push (h : b.Shaped) (s : Stmt) :
    (b.push s).graph.statements = b.graph.statements ++ [s] := by
  unfold push
  cases hf : b.front with
  | after jumps => exact statements_addBlock b _ jumps
  | inBlock i =>
      have hlast := (h.opened i hf).last
      obtain ⟨early, last, heq⟩ : ∃ early last, b.blocks.toList = early ++ [last] := by
        refine (List.eq_nil_or_concat' b.blocks.toList).resolve_left fun hnil => ?_
        rw [← Array.length_toList, hnil] at hlast
        exact absurd hlast (Nat.succ_ne_zero i)
      have hi : i = early.length := by
        rw [← Array.length_toList, heq] at hlast
        simpa using hlast
      simp [graph, Graph.statements, heq, hi, List.modify_eq_take_cons_drop]

theorem statements_closeLoop (b : Builder) (ends : List Jump) (head : Nat) :
    (b.closeLoop ends head).graph.statements = b.graph.statements := by
  match ends with
  | [] => rfl
  | [j] => rfl
  | j :: k :: rest => exact (statements_addBlock b _ _).trans (List.append_nil _)

/-- The statements lie in the graph in reading order. -/
theorem statements_run :
    (∀ s b b', stmt b s = .ok b' → b.Shaped →
      b'.graph.statements = b.graph.statements ++ s.actions) ∧
    ∀ l b b', stmts b l = .ok b' → b.Shaped →
      b'.graph.statements = b.graph.statements ++ Stmt.actionsList l := by
  apply run_induction
  case plain =>
    intro b s hs hb
    rw [statements_push hb, hs.actions_eq]
  case block =>
    intro b t body b' ih hb
    rw [ih hb, Stmt.actions_block]
  case ifThen =>
    intro b t c yes b' _ ih hb
    have hpush := statements_push hb (.ifThen t c yes)
    have hyes := ih (hb.pushTest _ _)
    rw [Stmt.actions_ifThen, List.append_cons b.graph.statements, ← hpush]
    exact hyes
  case ifElse =>
    intro b t c yes no b₁ b₂ hrun₁ ih₁ hrun₂ ih₂ hb
    have hlast := hb.pushTest (.ifElse t c yes no) .ifTrue
    have hpush := statements_push hb (.ifElse t c yes no)
    have hyes := ih₁ hlast
    have hno := ih₂ (hb.secondBranch hrun₁ (shaped_run.1 _ _ _ hrun₁ hlast))
    rw [Stmt.actions_ifElse, List.append_cons b.graph.statements, ← hpush, ← List.append_assoc]
    exact hno.trans (congrArg (· ++ no.actions) hyes)
  case loop =>
    intro b t c body b' hrun ih hb
    have hbody := ih (hb.enterLoop _)
    have hhead : (b.enterLoop (.loop t c body)).graph.statements = b.graph.statements ++ [.loop t c body] :=
      statements_addBlock b _ _
    have hclose := statements_closeLoop b' (b'.front.jumps ++ (b'.inLoop.getD {}).continues) b.blocks.size
    rw [Stmt.actions_loop, List.append_cons b.graph.statements, ← hhead, ← hbody]
    exact hclose
  case ret => exact fun b t value hb => statements_push hb _
  case brk => exact fun b t jumps _ hb => statements_push hb _
  case cont => exact fun b t jumps _ hb => statements_push hb _
  case nil => exact fun b _ => (List.append_nil _).symm
  case cons =>
    intro b s rest b₁ b₂ hrun ih₁ ih₂ hb
    rw [ih₂ (shaped_run.1 _ _ _ hrun hb), ih₁ hb, Stmt.actionsList_cons, List.append_assoc]

theorem size_finish (b : Builder) : b.finish.size = b.blocks.size := by
  simp [finish, Graph.size, addEdges_eq]

theorem block_finish (b : Builder) (i : Nat) (hi : i < b.blocks.size) : b.finish.block i =
    { b.graph.block i with dead := i != Graph.exit && !(b.finish.postorder.contains i) } := by
  have hpost : b.finish.postorder = (b.addEdges b.front.jumps Graph.exit).graph.postorder := by
    have hsucc : b.finish.successors = (b.addEdges b.front.jumps Graph.exit).graph.successors := rfl
    have hsize : b.finish.size = (b.addEdges b.front.jumps Graph.exit).graph.size := by
      rw [size_finish, addEdges_eq]
      rfl
    rw [Graph.postorder, Graph.postorder, Graph.indices, Graph.indices, hsucc, hsize]
  rw [hpost, finish, Graph.block, addEdges_eq]
  simp [Graph.block, graph, hi, Array.getD_eq_getD_getElem?]

theorem stmts_finish (b : Builder) (i : Nat) : b.finish.stmts i = b.graph.stmts i := by
  by_cases hi : i < b.blocks.size
  · rw [Graph.stmts, block_finish b i hi]
    rfl
  · have hle : b.blocks.size ≤ i := Nat.le_of_not_lt hi
    rw [Graph.stmts_of_le (by rwa [size_finish]), Graph.stmts_of_le (g := b.graph) hle]

theorem kind_finish (b : Builder) (i : Nat) : (b.finish.block i).kind = (b.graph.block i).kind := by
  by_cases hi : i < b.blocks.size
  · rw [block_finish b i hi]
  · have hle : b.blocks.size ≤ i := Nat.le_of_not_lt hi
    rw [Graph.block_of_le (by rwa [size_finish]), Graph.block_of_le (g := b.graph) hle]

theorem mem_edges_finish {e : Edge} : e ∈ b.finish.edges ↔
    e ∈ b.edges ∨ ∃ j ∈ b.front.jumps, e = ⟨j.source, Graph.exit, j.branch⟩ := mem_edges_addEdges

theorem statements_finish (b : Builder) : b.finish.statements = b.graph.statements := by
  have hstmts : b.finish.blocks.toList.map (·.stmts) = b.graph.blocks.toList.map (·.stmts) := by
    apply List.ext_getElem
    · simp [finish, graph, addEdges_eq]
    · intro i _ _
      simp [finish, graph, addEdges_eq]
  rw [Graph.statements, Graph.statements, List.flatMap_def, List.flatMap_def, hstmts]

theorem Shaped.wellFormed_finish (h : b.Shaped) : b.finish.WellFormed := by
  refine ⟨?_, fun i hi => ?_, fun e he => ?_⟩
  · rw [size_finish]
    exact h.graph.exit_lt
  · rw [size_finish] at hi
    have hfits := h.graph.blocks i hi
    rw [block_finish b i hi]
    exact ⟨hfits.entry_iff, hfits.exit_iff, hfits.basic_iff, hfits.early⟩
  · rw [size_finish]
    rcases mem_edges_finish.1 he with he | ⟨j, hj, rfl⟩
    · exact h.graph.edges e he
    · have hc := h.continues hj
      exact ⟨hc.lt, h.graph.exit_lt, h.graph.continues_ne_exit hc, nofun⟩

end Backflow.Builder

namespace Backflow.Graph

variable {m : Method} {g : Graph}

def Marked (g : Graph) : Prop :=
  ∀ i < g.size, (g.block i).dead = (i != exit && !(g.postorder.contains i))

theorem build_eq_finish (h : build m = .ok g) :
    ∃ b, Builder.start.stmts m.body = .ok b ∧ b.Shaped ∧ g = b.finish := by
  obtain ⟨b, hb, h⟩ := bind_eq_ok h
  cases h
  exact ⟨b, hb, Builder.shaped_run.2 _ _ _ hb Builder.shaped_start, rfl⟩

theorem wellFormed_of_build (h : build m = .ok g) : g.WellFormed := by
  obtain ⟨b, _, hb, rfl⟩ := build_eq_finish h
  exact hb.wellFormed_finish

theorem marked_of_build (h : build m = .ok g) : g.Marked := by
  obtain ⟨b, _, hb, rfl⟩ := build_eq_finish h
  intro i hi
  rw [Builder.size_finish] at hi
  rw [Builder.block_finish b i hi]

theorem statements_of_build (h : build m = .ok g) : g.statements = Stmt.actionsList m.body := by
  obtain ⟨b, hrun, _, rfl⟩ := build_eq_finish h
  rw [Builder.statements_finish, Builder.statements_run.2 _ _ _ hrun Builder.shaped_start]
  rfl

theorem WellFormed.blockDefect?_eq (h : g.WellFormed) (hm : g.Marked) {i : Nat} (hi : i < g.size) :
    g.blockDefect? g.reachable i = none := by
  have hfits := h.blocks i hi
  have hreach : g.reachable.contains i = g.postorder.contains i := by
    simp [reachable, inOrder, hi]
  have hdead : (i != exit && g.reachable.contains i == (g.block i).dead) = false := by
    rw [hm i hi, hreach]
    cases hx : i != exit <;> cases hp : g.postorder.contains i <;> rfl
  have hempty : ((g.block i).kind = .basic && (g.block i).stmts.isEmpty) = false := by
    simp [hfits.basic_iff]
  have hfull : ((g.block i).kind != .basic && !(g.block i).stmts.isEmpty) = false := by
    simpa using mt hfits.basic_iff.2
  have hearly : (g.block i).stmts.dropLast.find? (·.endsBlock) = none :=
    List.find?_eq_none.2 fun s hs => by simp [hfits.early s hs]
  simp only [blockDefect?, hdead, hempty, hfull, hearly]
  rfl

theorem WellFormed.check_eq (h : g.WellFormed) (hm : g.Marked) : g.check = .ok () := by
  have hentry : g.incoming entry = [] :=
    List.filter_eq_nil_iff.2 fun e he => by simpa using (h.edges e he).target_ne
  have hexit : g.outgoing exit = [] :=
    List.filter_eq_nil_iff.2 fun e he => by simpa using (h.edges e he).source_ne
  have hblocks : g.indices.findSome? (g.blockDefect? g.reachable) = none :=
    List.findSome?_eq_none_iff.2 fun i hi => h.blockDefect?_eq hm (mem_indices.1 hi)
  simp [check, defect?, hentry, hexit, hblocks]

end Backflow.Graph
