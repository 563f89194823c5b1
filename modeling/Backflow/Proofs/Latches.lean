import Backflow.Proofs.Directions
import Backflow.Proofs.Segments
import Backflow.Proofs.StrayJumps

namespace Backflow

namespace Stmt

def isBreak : Stmt → Bool
  | .brk _ => true
  | _ => false

def isContinue : Stmt → Bool
  | .cont _ => true
  | _ => false

/-- The number of breaks that would leave a loop with this body. -/
def breaks (s : Stmt) : Nat := s.strays.countP isBreak

def continues (s : Stmt) : Nat := s.strays.countP isContinue

mutual

/-- The number of edges along which control falls through a statement, if there are `n` before it. -/
def falls : Stmt → Nat → Nat
  | .block _ body, n => fallsList body n
  | .ifThen _ _ yes, _ => yes.falls 1 + 1
  | .ifElse _ _ yes no, _ => yes.falls 1 + no.falls 1
  | .loop _ _ body, _ => 1 + body.breaks
  | .ret _ _, _ | .brk _, _ | .cont _, _ => 0
  | _, _ => 1

def fallsList : List Stmt → Nat → Nat
  | [], n => n
  | s :: rest, n => fallsList rest (s.falls n)

end

/-- The number of edges at the end of a loop's body, from where control goes back to the head. -/
def bodyEnds : Stmt → Nat
  | .loop _ _ body => body.falls 1 + body.continues
  | _ => 0

def joined (s : Stmt) : List (List (List Stmt) × Nat) :=
  (s.preorder.filter fun u => 2 ≤ u.bodyEnds).map fun u => ([[u]], u.bodyEnds)

def joinedList (l : List Stmt) : List (List (List Stmt) × Nat) :=
  ((preorderList l).filter fun u => 2 ≤ u.bodyEnds).map fun u => ([[u]], u.bodyEnds)

theorem joined_block (t : Tag) (body : List Stmt) : (block t body).joined = joinedList body := by
  simp [joined, joinedList, preorder, bodyEnds]

theorem joined_ifThen (t : Tag) (c : Expr) (yes : Stmt) : (ifThen t c yes).joined = yes.joined := by
  simp [joined, preorder, bodyEnds]

theorem joined_ifElse (t : Tag) (c : Expr) (yes no : Stmt) : (ifElse t c yes no).joined = yes.joined ++ no.joined := by
  simp [joined, preorder, bodyEnds]

theorem joined_loop (t : Tag) (c : Expr) (body : Stmt) : (loop t c body).joined =
    (if 2 ≤ (loop t c body).bodyEnds then [([[loop t c body]], (loop t c body).bodyEnds)] else []) ++ body.joined := by
  rw [joined, preorder, List.filter_cons]
  simp only [decide_eq_true_eq]
  split <;> rfl

theorem joinedList_cons (s : Stmt) (rest : List Stmt) : joinedList (s :: rest) = s.joined ++ joinedList rest := by
  simp [joined, joinedList, preorderList]

theorem Plain.falls_eq {s : Stmt} (h : s.Plain) (n : Nat) : s.falls n = 1 := by
  apply h.cases (P := fun s => s.falls n = 1) <;> intros <;> rfl

theorem Plain.joined_eq {s : Stmt} (h : s.Plain) : s.joined = [] := by
  apply h.cases (P := fun s => s.joined = []) <;> intros <;> rfl

end Stmt

namespace Builder

variable {b b' : Builder} {s : Stmt} {i : Nat} {jumps next : List Jump}

def breaks (b : Builder) : Nat := (b.inLoop.getD {}).breaks.length

def continues (b : Builder) : Nat := (b.inLoop.getD {}).continues.length

theorem breaks_pushLast (b : Builder) (s : Stmt) (next : List Jump) : (b.pushLast s next).breaks = b.breaks := by
  rw [breaks, pushLast_inLoop, breaks]

theorem continues_pushLast (b : Builder) (s : Stmt) (next : List Jump) :
    (b.pushLast s next).continues = b.continues := by
  rw [continues, pushLast_inLoop, continues]

theorem early_run :
    (∀ s b b', stmt b s = .ok b' → b'.breaks = b.breaks + s.breaks ∧ b'.continues = b.continues + s.continues) ∧
      ∀ l b b', stmts b l = .ok b' → b'.breaks = b.breaks + (Stmt.straysList l).countP Stmt.isBreak ∧
        b'.continues = b.continues + (Stmt.straysList l).countP Stmt.isContinue := by
  apply run_induction
  case plain =>
    intro b s hs
    rw [breaks, continues, push_inLoop, Stmt.breaks, Stmt.continues, hs.strays_eq]
    exact ⟨rfl, rfl⟩
  case block => exact fun b t body b' ih => ih
  case ifThen =>
    intro b t c yes b' _ ih
    rw [breaks_pushLast, continues_pushLast] at ih
    exact ih
  case ifElse =>
    intro b t c yes no b₁ b₂ _ ih₁ _ ih₂
    rw [breaks_pushLast, continues_pushLast] at ih₁
    have hno : b₂.breaks = b₁.breaks + no.breaks ∧ b₂.continues = b₁.continues + no.continues := ih₂
    change b₂.breaks = _ ∧ b₂.continues = _
    rw [hno.1, hno.2, ih₁.1, ih₁.2, Nat.add_assoc, Nat.add_assoc]
    exact ⟨congrArg _ List.countP_append.symm, congrArg _ List.countP_append.symm⟩
  case loop => exact fun b t c body b' _ _ => ⟨rfl, rfl⟩
  case ret => exact fun b t value => ⟨breaks_pushLast b _ [], continues_pushLast b _ []⟩
  case brk =>
    intro b t jumps hl
    rw [breaks, continues, breaks, continues, hl]
    exact ⟨List.length_append, rfl⟩
  case cont =>
    intro b t jumps hl
    rw [breaks, continues, breaks, continues, hl]
    exact ⟨rfl, List.length_append⟩
  case nil => exact fun b => ⟨rfl, rfl⟩
  case cons =>
    intro b s rest b₁ b₂ _ ih₁ ih₂
    rw [ih₂.1, ih₂.2, ih₁.1, ih₁.2, Nat.add_assoc, Nat.add_assoc]
    exact ⟨congrArg _ List.countP_append.symm, congrArg _ List.countP_append.symm⟩

/-- As many jumps wait after a statement as control falls through it. -/
theorem falls_run :
    (∀ s b b', stmt b s = .ok b' → b'.front.jumps.length = s.falls b.front.jumps.length) ∧
      ∀ l b b', stmts b l = .ok b' → b'.front.jumps.length = Stmt.fallsList l b.front.jumps.length := by
  apply run_induction
  case plain =>
    intro b s hs
    rw [push_front, hs.falls_eq]
    rfl
  case block => exact fun b t body b' ih => ih
  case ifThen => exact fun b t c yes b' _ ih => List.length_append.trans (congrArg (· + 1) ih)
  case ifElse =>
    intro b t c yes no b₁ b₂ _ ih₁ _ ih₂
    exact List.length_append.trans (congrArg₂ (· + ·) ih₁ ih₂)
  case loop =>
    intro b t c body b' hrun _
    have hbreaks : b'.breaks = 0 + body.breaks := (early_run.1 _ _ _ hrun).1
    rw [Nat.zero_add] at hbreaks
    exact (List.length_cons).trans ((congrArg (· + 1) hbreaks).trans (Nat.add_comm _ _))
  case ret => exact fun b t value => rfl
  case brk => exact fun b t jumps _ => rfl
  case cont => exact fun b t jumps _ => rfl
  case nil => exact fun b => rfl
  case cons =>
    intro b s rest b₁ b₂ _ ih₁ ih₂
    rw [ih₂, ih₁]
    rfl

theorem length_ends {t : Tag} {c : Expr} {body : Stmt}
    (hrun : (b.enterLoop (.loop t c body)).stmt body = .ok b') :
    (b'.front.jumps ++ (b'.inLoop.getD {}).continues).length = (Stmt.loop t c body).bodyEnds := by
  have hcontinues : b'.continues = 0 + body.continues := (early_run.1 _ _ _ hrun).2
  rw [Nat.zero_add] at hcontinues
  exact List.length_append.trans (congrArg₂ (· + ·) (falls_run.1 _ _ _ hrun) hcontinues)

end Builder

namespace Graph

variable {g g' g'' : Graph} {n : Nat}

def latches (g : Graph) (n : Nat) : List (List (List Stmt) × Nat) :=
  ((List.range n).filter fun i => (g.block i).kind = .latch).map fun i =>
    ((g.successors i).map g.stmts, (g.incoming i).length)

theorem latches_succ (g : Graph) (n : Nat) : g.latches (n + 1) = g.latches n ++
    if (g.block n).kind = .latch then [((g.successors n).map g.stmts, (g.incoming n).length)] else [] := by
  rw [latches, List.range_succ, List.filter_append, List.map_append]
  by_cases hk : (g.block n).kind = .latch <;> simp [latches, hk]

structure SparesLatches (g g' : Graph) : Prop where
  kind : ∀ i < g.size, (g'.block i).kind = (g.block i).kind
  outgoing : ∀ i < g.size, (g.block i).kind = .latch → g'.outgoing i = g.outgoing i
  incoming : ∀ i < g.size, (g.block i).kind = .latch → g'.incoming i = g.incoming i
  heads : ∀ i, g.IsHead i → g'.stmts i = g.stmts i

theorem SparesLatches.latches_eq (h : g.SparesLatches g') (hd : g.Directed) :
    g'.latches g.size = g.latches g.size := by
  have hkind : (List.range g.size).filter (fun i => (g'.block i).kind = .latch) =
      (List.range g.size).filter fun i => (g.block i).kind = .latch :=
    List.filter_congr fun i hi => by rw [h.kind i (List.mem_range.1 hi)]
  rw [latches, hkind]
  refine List.map_congr_left fun i hi => ?_
  obtain ⟨hi, hlatch⟩ := List.mem_filter.1 hi
  have hi := List.mem_range.1 hi
  have hlatch := of_decide_eq_true hlatch
  have hsucc : g'.successors i = g.successors i := by rw [successors, h.outgoing i hi hlatch, successors]
  rw [h.incoming i hi hlatch, hsucc]
  refine congrArg (·, _) (List.map_congr_left fun j hj => ?_)
  obtain ⟨e, he, rfl, rfl⟩ := mem_successors.1 hj
  exact h.heads _ ((hd.edges e he).latch hlatch)

end Graph

namespace Builder

variable {b b' : Builder} {s : Stmt} {i : Nat} {jumps next : List Jump}

theorem outgoing_addEdges (b : Builder) (jumps : List Jump) (target : Nat) (h : ∀ j ∈ jumps, j.source ≠ i) :
    (b.addEdges jumps target).graph.outgoing i = b.graph.outgoing i := by
  rw [addEdges_eq]
  unfold Graph.outgoing graph
  rw [List.filter_append, List.filter_eq_nil_iff.2 fun e he => ?_, List.nil_append]
  obtain ⟨j, hj, rfl⟩ := List.mem_map.1 (List.mem_reverse.1 he)
  simpa using h j hj

theorem sparesLatches_addEdges (b : Builder) (jumps : List Jump) {target : Nat}
    (hjumps : ∀ j ∈ jumps, (b.graph.block j.source).kind ≠ .latch) (htarget : (b.graph.block target).kind ≠ .latch) :
    b.graph.SparesLatches (b.addEdges jumps target).graph := by
  have hblocks : (b.addEdges jumps target).blocks = b.blocks := by rw [addEdges_eq]
  refine ⟨fun i _ => ?_, fun i _ hk => ?_, fun i _ hk => ?_, fun i _ => ?_⟩
  · rw [Graph.block, graph, hblocks]
    rfl
  · exact outgoing_addEdges b jumps target fun j hj he => hjumps j hj (he ▸ hk)
  · refine (incoming_addEdges _ _ _ _).trans (if_neg ?_)
    rintro rfl
    exact htarget hk
  · rw [Graph.stmts, Graph.block, graph, hblocks]
    rfl

theorem sparesLatches_addBlock (block : Block) (hjumps : ∀ j ∈ jumps, (b.graph.block j.source).kind ≠ .latch) :
    b.graph.SparesLatches (b.addBlock block jumps).graph := by
  refine ⟨fun i hi => ?_, fun i _ hk => ?_, fun i hi _ => ?_, fun i hi => ?_⟩
  · rw [block_addBlock_lt b block jumps hi]
  · exact outgoing_addEdges _ _ _ fun j hj he => hjumps j hj (he ▸ hk)
  · exact (incoming_addEdges _ _ _ _).trans (if_neg (Nat.ne_of_lt hi))
  · obtain ⟨t, c, body, hstmts⟩ := hi
    have hlt := Graph.lt_size_of_mem_stmts (hstmts ▸ List.mem_cons_self)
    exact congrArg Block.stmts (block_addBlock_lt b block jumps hlt)

theorem kind_push (h : b.InRange) (s : Stmt) (hi : i < b.blocks.size) :
    ((b.push s).graph.block i).kind = (b.graph.block i).kind := by
  rw [block_push h]
  by_cases hn : i = b.nextBlock
  · rw [if_pos hn]
    unfold nextBlock at hn
    cases hf : b.front with
    | inBlock k => rfl
    | after jumps =>
        rw [hf] at hn
        exact absurd hn (Nat.ne_of_lt hi)
  · rw [if_neg hn]

theorem outgoing_push (s : Stmt) (h : ∀ j ∈ b.entering, j.source ≠ i) :
    (b.push s).graph.outgoing i = b.graph.outgoing i := by
  unfold entering at h
  unfold push
  cases hf : b.front with
  | inBlock k => rfl
  | after jumps =>
      rw [hf] at h
      exact outgoing_addEdges _ _ _ h

theorem Shaped.sparesLatches_push (h : b.Shaped) (s : Stmt) : b.graph.SparesLatches (b.push s).graph := by
  refine ⟨fun i hi => kind_push h.inRange s hi, fun i _ hk => ?_, fun i hi hk => ?_, fun i hi => ?_⟩
  · exact outgoing_push s fun j hj he => (h.entering j hj).continues.ne_latch (he ▸ hk)
  · rw [incoming_push, if_neg]
    rintro rfl
    exact (h.continues_nextBlock s).ne_latch ((kind_push h.inRange s hi).trans hk)
  · rw [stmts_push h.inRange, if_neg]
    rintro rfl
    exact h.not_isHead_nextBlock hi

theorem Aimed.latches_push (h : b.Aimed) (s : Stmt) :
    (b.push s).graph.latches (b.push s).blocks.size = b.graph.latches b.blocks.size := by
  have hspares := (h.shaped.sparesLatches_push s).latches_eq h.directed
  rcases Nat.lt_or_ge b.blocks.size (b.push s).blocks.size with hlt | hge
  · have hnext : b.nextBlock = b.blocks.size := by
      refine ((lt_size_push hlt).resolve_left (Nat.lt_irrefl _)).symm
    rw [← h.shaped.nextBlock_last s, hnext, Graph.latches_succ, if_neg, List.append_nil]
    · exact hspares
    · exact hnext ▸ (h.shaped.continues_nextBlock s).ne_latch
  · rw [Nat.le_antisymm hge (size_le_push b s)]
    exact hspares

theorem Aimed.latches_enterLoop (h : b.Aimed) (s : Stmt) :
    (b.enterLoop s).graph.latches (b.enterLoop s).blocks.size = b.graph.latches b.blocks.size := by
  rw [enterLoop_eq]
  exact h.closed.latches_push s

theorem successors_addEdge {j : Jump} (h : b.graph.outgoing j.source = []) (target : Nat) :
    (b.addEdge j target).graph.successors j.source = [target] := by
  have hout : (b.addEdge j target).graph.outgoing j.source =
      ⟨j.source, target, j.branch⟩ :: b.graph.outgoing j.source := List.filter_cons_of_pos (decide_eq_true rfl)
  rw [Graph.successors, hout, h]
  rfl

def joinEnds (b : Builder) (ends : List Jump) (head : Nat) : Builder :=
  (b.addBlock { kind := .latch } ends).addEdge ⟨b.blocks.size, .back⟩ head

theorem sparesLatches_joinEnds {ends : List Jump} {head : Nat} (hends : ∀ j ∈ ends, b.graph.Continues j.source)
    (hhead : (b.graph.block head).kind ≠ .latch) : b.graph.SparesLatches (b.joinEnds ends head).graph := by
  have hblock : b.graph.SparesLatches (b.addBlock { kind := .latch } ends).graph :=
    sparesLatches_addBlock _ fun j hj => (hends j hj).ne_latch
  refine ⟨hblock.kind, fun i hi hk => ?_, fun i hi hk => ?_, hblock.heads⟩
  · refine (outgoing_addEdges _ [⟨b.blocks.size, .back⟩] head fun j hj => ?_).trans (hblock.outgoing i hi hk)
    rw [List.mem_singleton.1 hj]
    exact Nat.ne_of_gt hi
  · refine (incoming_addEdge _ _ _ i).trans ((if_neg ?_).trans (hblock.incoming i hi hk))
    rintro rfl
    exact hhead hk

theorem latches_joinEnds {ends : List Jump} {head : Nat} (hg : b.graph.WellFormed) (hd : b.graph.Directed)
    (hends : ∀ j ∈ ends, b.graph.Continues j.source) (hlt : head < b.blocks.size)
    (hhead : (b.graph.block head).kind ≠ .latch) : (b.joinEnds ends head).graph.latches (b.blocks.size + 1) =
      b.graph.latches b.blocks.size ++ [([b.graph.stmts head], ends.length)] := by
  have hkind : ((b.joinEnds ends head).graph.block b.blocks.size).kind = .latch :=
    congrArg Block.kind (block_addBlock_self b _ _)
  have hstmts : (b.joinEnds ends head).graph.stmts head = b.graph.stmts head :=
    congrArg Block.stmts (block_addBlock_lt b _ _ hlt)
  have hnone : b.graph.outgoing b.graph.size = [] :=
    List.filter_eq_nil_iff.2 fun e he => by simpa using Nat.ne_of_lt (hg.edges e he).source_lt
  have hout : (b.joinEnds ends head).graph.successors b.blocks.size = [head] := by
    refine successors_addEdge (j := ⟨b.blocks.size, .back⟩) ?_ head
    exact (outgoing_addEdges _ _ _ fun j hj => Nat.ne_of_lt (hends j hj).lt).trans hnone
  have hin : ((b.joinEnds ends head).graph.incoming b.blocks.size).length = ends.length := by
    rw [joinEnds, incoming_addEdge, if_neg (Nat.ne_of_gt hlt), incoming_addBlock hg, List.length_reverse,
      List.length_map]
  rw [Graph.latches_succ, if_pos hkind, hout, hin, List.map_singleton, hstmts]
  exact congrArg (· ++ _) ((sparesLatches_joinEnds hends hhead).latches_eq hd)

theorem latches_closeLoop {ends : List Jump} {head : Nat} (hg : b.graph.WellFormed) (hd : b.graph.Directed)
    (hends : ∀ j ∈ ends, b.graph.Continues j.source) (hhead : b.graph.stmts head = [s]) :
    (b.closeLoop ends head).graph.latches (b.closeLoop ends head).blocks.size =
      b.graph.latches b.blocks.size ++ if 2 ≤ ends.length then [([[s]], ends.length)] else [] := by
  have hlt : head < b.blocks.size := Graph.lt_size_of_mem_stmts (hhead ▸ List.mem_cons_self)
  have hbasic : (b.graph.block head).kind ≠ .latch := by
    rw [(hg.blocks head hlt).basic_iff.2 (List.ne_nil_of_mem (hhead ▸ List.mem_cons_self))]
    nofun
  match ends with
  | [] => exact (List.append_nil _).symm
  | [j] =>
      have hj := (hends j List.mem_cons_self).ne_latch
      have hspares : b.graph.SparesLatches (b.closeLoop [j] head).graph :=
        b.sparesLatches_addEdges [closing j] (by simpa [closing_source] using hj) hbasic
      rw [if_neg (by simp), List.append_nil]
      exact hspares.latches_eq hd
  | j :: k :: rest =>
      have hsize : (b.closeLoop (j :: k :: rest) head).blocks.size = b.blocks.size + 1 := size_addBlock b _ _
      rw [if_pos (by simp), hsize, ← hhead]
      exact latches_joinEnds hg hd hends hlt hbasic

/-- The latches that are built are those of the loops whose bodies end more than once. -/
theorem latches_run :
    (∀ s b b', stmt b s = .ok b' → b.Aimed →
      (b'.graph.latches b'.blocks.size).Perm (b.graph.latches b.blocks.size ++ s.joined)) ∧
    ∀ l b b', stmts b l = .ok b' → b.Aimed →
      (b'.graph.latches b'.blocks.size).Perm (b.graph.latches b.blocks.size ++ Stmt.joinedList l) := by
  apply run_induction
  case plain =>
    intro b s hs hb
    rw [hb.latches_push, hs.joined_eq, List.append_nil]
  case block =>
    intro b t body b' ih hb
    rw [Stmt.joined_block]
    exact ih hb
  case ifThen =>
    intro b t c yes b' _ ih hb
    have hyes := ih (hb.pushTest (by simp))
    rw [Stmt.joined_ifThen, ← hb.latches_push (.ifThen t c yes)]
    exact hyes
  case ifElse =>
    intro b t c yes no b₁ b₂ hrun₁ ih₁ hrun₂ ih₂ hb
    have htest : (b.pushLast (.ifElse t c yes no) [⟨b.nextBlock, .ifTrue⟩]).Aimed := hb.pushTest (by simp)
    have hyes := ih₁ htest
    have hno := ih₂ (hb.secondBranch hrun₁ (htest.run hrun₁))
    rw [Stmt.joined_ifElse, ← hb.latches_push (.ifElse t c yes no), ← List.append_assoc]
    exact hno.trans (hyes.append_right _)
  case loop =>
    intro b t c body b' hrun ih hb
    have henter := hb.enterLoop (.loop t c body)
    have hb' := henter.run hrun
    have hkeep := (keeps_run.1 _ _ _ hrun henter.shaped.inRange).2
    have hhead : b'.graph.stmts b.blocks.size = [.loop t c body] :=
      (hkeep.stmts (departs_enterLoop hb.shaped _ .ifTrue)).trans (stmts_enterLoop b _)
    have hclose := latches_closeLoop hb'.shaped.graph hb'.directed (fun j hj => hb'.shaped.continues_ends hj) hhead
    have hbody := ih henter
    rw [hb.latches_enterLoop] at hbody
    rw [length_ends hrun] at hclose
    rw [Stmt.joined_loop]
    refine (List.Perm.of_eq hclose).trans ((hbody.append_right _).trans ?_)
    rw [List.append_assoc]
    exact List.perm_append_comm.append_left _
  case ret =>
    intro b t value hb
    have hpush := hb.shaped.directed_push (s := .ret t value) hb.directed hb.noReturns (by simp)
    have hspares := (b.push (.ret t value)).sparesLatches_addEdges [⟨b.nextBlock, .ret⟩]
      (by simpa using (hb.shaped.continues_nextBlock _).ne_latch) (hb.shaped.wellFormed_push _).kind_exit_ne
    exact .of_eq ((hspares.latches_eq hpush).trans ((hb.latches_push _).trans (List.append_nil _).symm))
  case brk => exact fun b t jumps _ hb => .of_eq ((hb.latches_push (.brk t)).trans (List.append_nil _).symm)
  case cont => exact fun b t jumps _ hb => .of_eq ((hb.latches_push (.cont t)).trans (List.append_nil _).symm)
  case nil => exact fun b _ => .of_eq (List.append_nil _).symm
  case cons =>
    intro b s rest b₁ b₂ hrun ih₁ ih₂ hb
    rw [Stmt.joinedList_cons, ← List.append_assoc]
    exact (ih₂ (hb.run hrun)).trans ((ih₁ hb).append_right _)

end Builder

end Backflow
