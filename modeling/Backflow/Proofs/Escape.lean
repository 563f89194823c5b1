import Backflow.Proofs.Departures
import Backflow.Proofs.Reachability
import Backflow.Proofs.StrayJumps

namespace Backflow

theorem Graph.Reaches.mono {g g' : Graph} {i k : Nat} (h : g.Reaches i k) (hedges : ∀ e ∈ g.edges, e ∈ g'.edges) :
    g'.Reaches i k := by
  refine Relation.ReflTransGen.mono (fun i j hj => ?_) _ _ h
  obtain ⟨e, he, hends⟩ := mem_successors.1 hj
  exact mem_successors.2 ⟨e, hedges e he, hends⟩

namespace Builder

variable {b b' : Builder} {s : Stmt} {i : Nat} {j : Jump} {next outer outer' : List Jump}

def Escapes (b : Builder) (outer : List Jump) (i : Nat) : Prop :=
  b.graph.Reaches i Graph.exit ∨ ∃ j ∈ b.waiting outer, b.graph.Reaches i j.source

theorem escapes_waiting (hj : j ∈ b.waiting outer) : b.Escapes outer j.source := Or.inr ⟨j, hj, .refl⟩

theorem Escapes.trans {k : Nat} (h : b.Escapes outer k) (hk : b.graph.Reaches i k) : b.Escapes outer i := by
  rcases h with h | ⟨j, hj, h⟩
  · exact Or.inl (hk.trans h)
  · exact Or.inr ⟨j, hj, hk.trans h⟩

theorem Escapes.head {k : Nat} (h : b.Escapes outer k) (hk : k ∈ b.graph.successors i) : b.Escapes outer i :=
  h.trans (.single hk)

theorem Escapes.mono (h : b.Escapes outer i) (hedges : ∀ e ∈ b.edges, e ∈ b'.edges)
    (hwait : ∀ j ∈ b.waiting outer, b'.Escapes outer' j.source) : b'.Escapes outer' i := by
  rcases h with h | ⟨j, hj, h⟩
  · exact Or.inl (h.mono hedges)
  · exact (hwait j hj).trans (h.mono hedges)

/-- No block holds control for ever. -/
def Untrapped (b : Builder) (outer : List Jump) : Prop := ∀ i < b.blocks.size, b.Escapes outer i

theorem Untrapped.push (hb : b.Untrapped outer) (s : Stmt) (hsize : b'.blocks.size = (b.push s).blocks.size)
    (hedges : ∀ e ∈ (b.push s).edges, e ∈ b'.edges) (hwait : ∀ j ∈ b.early ++ outer, j ∈ b'.waiting outer')
    (hnext : b'.Escapes outer' b.nextBlock) : b'.Untrapped outer' := by
  intro i hi
  rcases lt_size_push (hsize ▸ hi) with hi | rfl
  · refine (hb i hi).mono (fun e he => hedges e (mem_edges_push.2 (Or.inl he))) fun j hj => ?_
    rw [waiting, jumps_front, List.append_assoc, List.append_assoc] at hj
    rcases List.mem_append.1 hj with hj | hj
    · rw [source_ongoing b j hj]
      exact hnext
    · rcases List.mem_append.1 hj with hj | hj
      · have he := hedges _ (mem_edges_push.2 (Or.inr ⟨j, hj, rfl⟩))
        exact hnext.head (Graph.mem_successors.2 ⟨_, he, rfl, rfl⟩)
      · exact escapes_waiting (hwait j hj)
  · exact hnext

theorem Untrapped.after (hb : b.Untrapped outer) (hwait : ∀ j ∈ b.front.jumps ++ outer, j ∈ next ++ outer') :
    { b with front := .after next }.Untrapped outer' := by
  intro i hi
  refine (hb i hi).mono (fun e he => he) fun j hj => escapes_waiting ?_
  have hj : j ∈ b.front.jumps ++ b.early ++ outer := hj
  change j ∈ next ++ b.early ++ outer'
  have := hwait j
  simp only [List.mem_append] at hj this ⊢
  tauto

theorem Untrapped.pushTest (hb : b.Untrapped outer) (s : Stmt) (k : Branch) :
    (b.pushLast s [⟨b.nextBlock, k⟩]).Untrapped outer := by
  refine hb.push s rfl (fun _ he => he) (fun j hj => ?_) (escapes_waiting (j := ⟨b.nextBlock, k⟩) List.mem_cons_self)
  rw [waiting, early_pushLast, List.append_assoc]
  exact List.mem_append_right _ hj

theorem Untrapped.leave (hb : b.Untrapped outer) (s : Stmt) {k : Branch} {l : LoopJumps}
    (hl : ∀ j ∈ ⟨b.nextBlock, k⟩ :: b.early, j ∈ l.breaks ++ l.continues) :
    { b.pushLast s [] with inLoop := some l }.Untrapped outer := by
  refine hb.push s rfl (fun _ he => he) (fun j hj => ?_) (escapes_waiting (j := ⟨b.nextBlock, k⟩) ?_)
  · rcases List.mem_append.1 hj with hj | hj
    · exact List.mem_append_left _ (hl j (List.mem_cons_of_mem _ hj))
    · exact List.mem_append_right _ hj
  · exact List.mem_append_left _ (hl _ List.mem_cons_self)

theorem Untrapped.enterLoop (hb : b.Untrapped outer) (s : Stmt) : (b.enterLoop s).Untrapped (b.early ++ outer) := by
  have hclosed : { b with front := .after b.front.jumps }.Untrapped outer := hb
  rw [enterLoop_eq]
  refine hclosed.push s rfl (fun _ he => he) (fun j hj => ?_)
    (escapes_waiting (j := ⟨b.blocks.size, .ifTrue⟩) List.mem_cons_self)
  exact List.mem_append_right _ hj

theorem mem_edges_closeLoop {ends : List Jump} {head : Nat} {e : Edge} (he : e ∈ b.edges) :
    e ∈ (b.closeLoop ends head).edges := by
  match ends with
  | [] => exact he
  | [j] => exact List.mem_cons_of_mem _ he
  | j :: k :: rest => exact List.mem_cons_of_mem _ (mem_edges_addEdges.2 (Or.inl he))

theorem lt_size_closeLoop {ends : List Jump} {head i : Nat} (hi : i < (b.closeLoop ends head).blocks.size) :
    i < b.blocks.size ∨ head ∈ (b.closeLoop ends head).graph.successors i := by
  match ends with
  | [] => exact Or.inl hi
  | [j] => exact Or.inl hi
  | j :: k :: rest =>
      have hlt : i < b.blocks.size + 1 := Nat.lt_of_lt_of_eq hi (size_addBlock b _ _)
      refine (Nat.lt_succ_iff_lt_or_eq.1 hlt).imp_right fun hi => ?_
      exact Graph.mem_successors.2 ⟨_, List.mem_cons_self, hi.symm, rfl⟩

theorem reaches_head {ends : List Jump} (hj : j ∈ ends) (head : Nat) :
    (b.closeLoop ends head).graph.Reaches j.source head := by
  match ends with
  | [k] =>
      rw [List.mem_singleton.1 hj]
      exact .single (Graph.mem_successors.2 ⟨_, List.mem_cons_self, closing_source k, rfl⟩)
  | k :: l :: rest =>
      have hlatch : ⟨j.source, b.blocks.size, j.branch⟩ ∈ (b.addBlock { kind := .latch } (k :: l :: rest)).edges :=
        mem_edges_addEdges.2 (Or.inr ⟨j, hj, rfl⟩)
      refine .head (Graph.mem_successors.2 ⟨_, List.mem_cons_of_mem _ hlatch, rfl, rfl⟩) (.single ?_)
      exact Graph.mem_successors.2 ⟨_, List.mem_cons_self, rfl, rfl⟩

theorem Untrapped.leaveLoop {inner : Builder} (hb : inner.Untrapped (b.early ++ outer)) :
    (b.leaveLoop inner).Untrapped outer := by
  have hhead : (b.leaveLoop inner).Escapes outer b.blocks.size :=
    escapes_waiting (j := ⟨b.blocks.size, .ifFalse⟩) List.mem_cons_self
  have hends (j : Jump) (hj : j ∈ inner.front.jumps ++ (inner.inLoop.getD {}).continues) :
      (b.leaveLoop inner).Escapes outer j.source := hhead.trans (reaches_head hj _)
  intro i hi
  rcases lt_size_closeLoop hi with hi | hi
  · refine (hb i hi).mono (fun e => mem_edges_closeLoop) fun j hj => ?_
    simp only [waiting, early, List.mem_append] at hj
    rcases hj with (hj | hj | hj) | hj
    · exact hends j (List.mem_append_left _ hj)
    · exact escapes_waiting (List.mem_cons_of_mem _ (List.mem_append_left _ (List.mem_append_left _ hj)))
    · exact hends j (List.mem_append_right _ hj)
    · refine escapes_waiting ?_
      rw [waiting, List.append_assoc]
      simp only [early, List.mem_append]
      exact Or.inr hj
  · exact hhead.head hi

/-- What is built later leaves no block without a way out. -/
theorem untrapped_run :
    (∀ s b b', stmt b s = .ok b' → ∀ outer, b.Untrapped outer → b'.Untrapped outer) ∧
      ∀ l b b', stmts b l = .ok b' → ∀ outer, b.Untrapped outer → b'.Untrapped outer := by
  apply run_induction
  case plain =>
    intro b s _ outer hb
    have hwait (j : Jump) (hj : j ∈ b.early ++ outer) : j ∈ (b.push s).waiting outer := by
      rw [waiting, early_push, List.append_assoc]
      exact List.mem_append_right _ hj
    refine hb.push s rfl (fun _ he => he) hwait (escapes_waiting (j := ⟨b.nextBlock, .sequence⟩) ?_)
    rw [waiting, push_front]
    exact List.mem_cons_self
  case block => exact fun b t body b' ih => ih
  case ifThen =>
    intro b t c yes b' _ ih outer hb
    refine (ih outer (hb.pushTest _ _)).after fun j hj => ?_
    rw [List.append_assoc]
    exact (List.mem_append.1 hj).elim (List.mem_append_left _) fun hj => List.mem_append_right _ (.tail _ hj)
  case ifElse =>
    intro b t c yes no b₁ b₂ _ ih₁ _ ih₂ outer hb
    have hyes := ih₁ outer (hb.pushTest _ _)
    have hno := ih₂ (b₁.front.jumps ++ outer) (hyes.after fun j hj => List.mem_append_right _ hj)
    refine hno.after fun j hj => ?_
    simp only [List.mem_append] at hj ⊢
    tauto
  case loop => exact fun b t c body b' _ ih outer hb => (ih _ (hb.enterLoop _)).leaveLoop
  case ret =>
    intro b t value outer hb
    refine hb.push (.ret t value) rfl (fun e he => List.mem_cons_of_mem _ he) (fun j hj => ?_) (Or.inl (.single ?_))
    · rw [← early_push b (.ret t value)] at hj
      exact hj
    · exact Graph.mem_successors.2 ⟨_, List.mem_cons_self, rfl, rfl⟩
  case brk =>
    intro b t jumps hl outer hb
    refine hb.leave (.brk t) (k := .brk) fun j hj => ?_
    rw [early, hl] at hj
    simp only [Option.getD_some, List.mem_cons, List.mem_append, List.not_mem_nil] at hj ⊢
    tauto
  case cont =>
    intro b t jumps hl outer hb
    refine hb.leave (.cont t) (k := .cont) fun j hj => ?_
    rw [early, hl] at hj
    simp only [Option.getD_some, List.mem_cons, List.mem_append, List.not_mem_nil] at hj ⊢
    tauto
  case nil => exact fun b _ hb => hb
  case cons => exact fun b s rest b₁ b₂ _ ih₁ ih₂ outer hb => ih₂ outer (ih₁ outer hb)

theorem untrapped_start : start.Untrapped [] := by
  intro i hi
  match i, hi with
  | 0, _ => exact escapes_waiting (j := ⟨Graph.entry, .sequence⟩) List.mem_cons_self
  | 1, _ => exact Or.inl .refl

end Builder

namespace Graph

variable {m : Method} {g : Graph}

/-- Control is never trapped: it can come to the exit from every block, dead ones and latches included, and so
the exit is never out of reach. -/
theorem reaches_exit_of_build (h : build m = .ok g) :
    (∀ i < g.size, g.Reaches i exit) ∧ g.reachable.contains exit = true := by
  have hg := wellFormed_of_build h
  have hexit (i : Nat) (hi : i < g.size) : g.Reaches i exit := by
    obtain ⟨b, hrun, _, rfl⟩ := build_eq_finish h
    rw [Builder.size_finish] at hi
    have hedges (e : Edge) (he : e ∈ b.edges) : e ∈ b.finish.edges := Builder.mem_edges_finish.2 (Or.inl he)
    have hearly : b.early = [] := by rw [Builder.early, Builder.inLoop_of_run hrun]; rfl
    rcases Builder.untrapped_run.2 _ _ _ hrun [] Builder.untrapped_start i hi with hpath | ⟨j, hj, hpath⟩
    · exact hpath.mono hedges
    · rw [Builder.waiting, hearly, List.append_nil, List.append_nil] at hj
      refine (hpath.mono hedges).tail (mem_successors.2 ⟨⟨j.source, exit, j.branch⟩, ?_, rfl, rfl⟩)
      exact Builder.mem_edges_finish.2 (Or.inr ⟨j, hj, rfl⟩)
  refine ⟨hexit, ?_⟩
  have hmem := (mem_postorder_iff hg.closed hg.size_pos).2 (hexit entry hg.size_pos)
  simpa [reachable, inOrder, hg.exit_lt] using hmem

end Graph

def spinning : Method where
  name := "spin"
  isStatic := false
  returns := .void
  params := []
  locals := []
  body := [.loop ⟨0, .start⟩ (.bool true) (.block ⟨1, .start⟩ [.cont ⟨2, .start⟩, .print ⟨3, .start⟩ (.int 1)])]
  loc := .start

theorem reaches_exit_of_spinning : ∃ g, Graph.build spinning = .ok g ∧
    (∀ i < g.size, g.Reaches i Graph.exit) ∧ g.reachable.contains Graph.exit = true := by
  obtain ⟨g, hg⟩ := Graph.build_of_no_strays (m := spinning) rfl
  exact ⟨g, hg, Graph.reaches_exit_of_build hg⟩

end Backflow
