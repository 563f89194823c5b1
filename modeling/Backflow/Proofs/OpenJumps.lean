import Backflow.Proofs.Connections

namespace Backflow

namespace Builder

variable {b b' : Builder} {s : Stmt} {t : Option Stmt} {tr : Transition} {k : Stmt.Targets}

/-- The transitions built so far, with those along the jumps that wait in the innermost loop. -/
def Fixes (b : Builder) (k : Stmt.Targets) (tr : Transition) : Prop :=
  b.graph.Passes tr ∨ b.graph.Leaves (b.inLoop.getD {}).breaks k.brk tr ∨
    b.graph.Leaves (b.inLoop.getD {}).continues k.cont tr

/-- The transitions once every open jump has gone to its target. -/
def Sees (b : Builder) (k : Stmt.Targets) (tr : Transition) : Prop :=
  b.Fixes k tr ∨ b.graph.Leaves b.front.jumps k.next tr

theorem Keeps.leaves {jumps : List Jump} (h : b.Keeps b') (hj : ∀ j ∈ jumps, b.Departs j) :
    b'.graph.Leaves jumps t tr ↔ b.graph.Leaves jumps t tr :=
  Graph.leaves_congr fun j hmem => h.stmts (hj j hmem)

theorem Shaped.leaves_breaks (h : b.Shaped) (hkeep : b.Keeps b') :
    b'.graph.Leaves (b.inLoop.getD {}).breaks t tr ↔ b.graph.Leaves (b.inLoop.getD {}).breaks t tr :=
  hkeep.leaves fun j hj => h.early j (List.mem_append_left _ hj)

theorem Shaped.leaves_continues (h : b.Shaped) (hkeep : b.Keeps b') :
    b'.graph.Leaves (b.inLoop.getD {}).continues t tr ↔ b.graph.Leaves (b.inLoop.getD {}).continues t tr :=
  hkeep.leaves fun j hj => h.early j (List.mem_append_right _ hj)

theorem Shaped.fixes_push (h : b.Shaped) (s : Stmt) :
    (b.push s).Fixes k tr ↔ b.Sees { k with next := some s } tr := by
  have hkeep := keeps_push h.inRange s
  unfold Sees Fixes
  rw [push_inLoop, h.connects_push s tr, h.leaves_breaks hkeep, h.leaves_continues hkeep]
  tauto

theorem Shaped.leaves_nextBlock (h : b.Shaped) (s : Stmt) (k : Branch) :
    (b.push s).graph.Leaves [⟨b.nextBlock, k⟩] t tr ↔ tr = ⟨some s, k.outcome, t⟩ :=
  Graph.leaves_singleton (getLast?_push h.inRange s) h.nextBlock_ne_entry

theorem Shaped.sees_test (h : b.Shaped) (s : Stmt) (j : Branch) :
    (b.pushLast s [⟨b.nextBlock, j⟩]).Sees k tr ↔
      b.Sees { k with next := some s } tr ∨ tr = ⟨some s, j.outcome, k.next⟩ :=
  or_congr (h.fixes_push s) (h.leaves_nextBlock s j)

theorem Shaped.leaves_test {yes : Stmt} (h : b.Shaped)
    (hrun : (b.pushLast s [⟨b.nextBlock, .ifTrue⟩]).stmt yes = .ok b') (j : Branch) :
    b'.graph.Leaves [⟨b.nextBlock, j⟩] t tr ↔ tr = ⟨some s, j.outcome, t⟩ := by
  have hkeep := (keeps_run.1 _ _ _ hrun (h.pushTest s .ifTrue).inRange).2
  rw [← h.leaves_nextBlock s j]
  refine hkeep.leaves fun i hi => ?_
  rw [List.mem_singleton.1 hi]
  exact departs_pushLast h s _ j

theorem sees_stopped (hf : b.front = .after []) : b.Sees k tr ↔ b.Fixes k tr := by
  rw [Sees, hf]
  exact or_iff_left Graph.leaves_nil

theorem fixes_break {l : LoopJumps} (hl : b.inLoop = some l) (j : Jump) :
    Fixes { b with front := .after [], inLoop := some { l with breaks := l.breaks ++ [j] } } k tr ↔
      b.Fixes k tr ∨ b.graph.Leaves [j] k.brk tr := by
  have hjump : b.graph.Leaves (l.breaks ++ [j]) k.brk tr ↔ _ := Graph.leaves_append
  rw [Fixes, Fixes, hl, or_assoc]
  exact or_congr Iff.rfl ((or_congr hjump Iff.rfl).trans or_right_comm)

theorem fixes_continue {l : LoopJumps} (hl : b.inLoop = some l) (j : Jump) :
    Fixes { b with front := .after [], inLoop := some { l with continues := l.continues ++ [j] } } k tr ↔
      b.Fixes k tr ∨ b.graph.Leaves [j] k.cont tr := by
  have hjump : b.graph.Leaves (l.continues ++ [j]) k.cont tr ↔ _ := Graph.leaves_append
  rw [Fixes, Fixes, hl, or_assoc, or_assoc]
  exact or_congr Iff.rfl (or_congr Iff.rfl hjump)

theorem sees_after_append {jumps jumps' : List Jump} :
    Sees { b with front := .after (jumps ++ jumps') } k tr ↔
      b.Fixes k tr ∨ b.graph.Leaves jumps k.next tr ∨ b.graph.Leaves jumps' k.next tr :=
  or_congr Iff.rfl Graph.leaves_append

theorem Shaped.sees_ifThen {t : Tag} {c : Expr} {yes : Stmt} (h : b.Shaped)
    (hrun : (b.pushLast (.ifThen t c yes) [⟨b.nextBlock, .ifTrue⟩]).stmt yes = .ok b')
    (hyes : b'.Sees k tr ↔ (b.pushLast (.ifThen t c yes) [⟨b.nextBlock, .ifTrue⟩]).Sees
      { k with next := yes.first k.next } tr ∨ tr ∈ yes.flow k) :
    Sees { b' with front := .after (b'.front.jumps ++ [⟨b.nextBlock, .ifFalse⟩]) } k tr ↔
      b.Sees { k with next := some (.ifThen t c yes) } tr ∨ tr ∈ (Stmt.ifThen t c yes).flow k := by
  rw [h.sees_test] at hyes
  rw [sees_after_append, h.leaves_test hrun, ← or_assoc]
  refine (or_congr hyes Iff.rfl).trans ?_
  rw [Stmt.flow, List.mem_cons, List.mem_cons, or_assoc, or_assoc, or_comm (a := tr ∈ yes.flow k)]
  rfl

theorem Shaped.sees_ifElse {t : Tag} {c : Expr} {yes no : Stmt} {b₁ b₂ : Builder} (h : b.Shaped)
    (hrun₁ : (b.pushLast (.ifElse t c yes no) [⟨b.nextBlock, .ifTrue⟩]).stmt yes = .ok b₁)
    (hyes : b₁.Sees k tr ↔ (b.pushLast (.ifElse t c yes no) [⟨b.nextBlock, .ifTrue⟩]).Sees
      { k with next := yes.first k.next } tr ∨ tr ∈ yes.flow k)
    (hrun₂ : { b₁ with front := .after [⟨b.nextBlock, .ifFalse⟩] }.stmt no = .ok b₂)
    (hno : b₂.Sees k tr ↔ Sees { b₁ with front := .after [⟨b.nextBlock, .ifFalse⟩] }
      { k with next := no.first k.next } tr ∨ tr ∈ no.flow k) :
    Sees { b₂ with front := .after (b₁.front.jumps ++ b₂.front.jumps) } k tr ↔
      b.Sees { k with next := some (.ifElse t c yes no) } tr ∨ tr ∈ (Stmt.ifElse t c yes no).flow k := by
  have h₁ := shaped_run.1 _ _ _ hrun₁ (h.pushTest _ _)
  have hkeep := (keeps_run.1 _ _ _ hrun₂ (h.secondBranch hrun₁ h₁).inRange).2
  have hends : b₂.graph.Leaves b₁.front.jumps k.next tr ↔ b₁.graph.Leaves b₁.front.jumps k.next tr :=
    hkeep.leaves fun j hj => .of_after rfl (h₁.continues hj)
  have hbegin : Sees { b₁ with front := .after [⟨b.nextBlock, .ifFalse⟩] }
      { k with next := no.first k.next } tr ↔ b₁.Fixes k tr ∨
        tr = ⟨some (.ifElse t c yes no), some false, no.first k.next⟩ :=
    or_congr Iff.rfl (h.leaves_test hrun₁ .ifFalse)
  rw [h.sees_test] at hyes
  rw [hbegin] at hno
  rw [sees_after_append, hends, ← or_assoc, or_right_comm]
  refine (or_congr hno Iff.rfl).trans ?_
  rw [or_assoc, or_comm (a := tr ∈ no.flow k), or_or_or_comm]
  refine (or_congr hyes Iff.rfl).trans ?_
  rw [Stmt.flow, List.mem_cons, List.mem_cons, List.mem_append, or_assoc, or_assoc,
    or_left_comm (a := tr ∈ yes.flow k)]
  rfl

theorem Shaped.sees_ret (h : b.Shaped) (t : Tag) (value : Option Expr) :
    Sees ((b.pushLast (.ret t value) []).addEdge ⟨b.nextBlock, .ret⟩ Graph.exit) k tr ↔
      b.Sees { k with next := some (.ret t value) } tr ∨ tr ∈ (Stmt.ret t value).flow k := by
  have hlast := h.pushLast (.ret t value) [] nofun
  have hnext := (departs_pushLast h (.ret t value) [] .ret).continues
  have hgraph := wellFormed_addEdge (j := ⟨b.nextBlock, .ret⟩) hlast.graph ⟨hnext.lt, hlast.graph.exit_lt,
    hlast.graph.continues_ne_exit hnext, nofun⟩
  have hexit := connects_addEdge hlast.graph hnext (fun u => hgraph.arrives_exit) tr
  rw [sees_stopped rfl, Fixes, Graph.exit, hexit, or_right_comm, ← h.fixes_push, Stmt.flow,
    List.mem_singleton]
  exact or_congr Iff.rfl (h.leaves_nextBlock _ .ret)

theorem Shaped.sees_brk (h : b.Shaped) (t : Tag) {jumps : LoopJumps} (hl : b.inLoop = some jumps) :
    Sees { b.pushLast (.brk t) [] with
      inLoop := some { jumps with breaks := jumps.breaks ++ [⟨b.nextBlock, .brk⟩] } } k tr ↔
      b.Sees { k with next := some (.brk t) } tr ∨ tr ∈ (Stmt.brk t).flow k := by
  have hloop : (b.push (.brk t)).inLoop = some jumps := (push_inLoop b _).trans hl
  rw [← h.fixes_push, Stmt.flow, List.mem_singleton]
  refine (sees_stopped rfl).trans ((fixes_break hloop _).trans ?_)
  exact or_congr Iff.rfl (h.leaves_nextBlock _ .brk)

theorem Shaped.sees_cont (h : b.Shaped) (t : Tag) {jumps : LoopJumps} (hl : b.inLoop = some jumps) :
    Sees { b.pushLast (.cont t) [] with
      inLoop := some { jumps with continues := jumps.continues ++ [⟨b.nextBlock, .cont⟩] } } k tr ↔
      b.Sees { k with next := some (.cont t) } tr ∨ tr ∈ (Stmt.cont t).flow k := by
  have hloop : (b.push (.cont t)).inLoop = some jumps := (push_inLoop b _).trans hl
  rw [← h.fixes_push, Stmt.flow, List.mem_singleton]
  refine (sees_stopped rfl).trans ((fixes_continue hloop _).trans ?_)
  exact or_congr Iff.rfl (h.leaves_nextBlock _ .cont)

theorem stmts_enterLoop (b : Builder) (s : Stmt) : (b.enterLoop s).graph.stmts b.blocks.size = [s] :=
  congrArg Block.stmts ((block_addBlock b _ _ _).trans (if_pos rfl))

theorem Shaped.sees_enterLoop (h : b.Shaped) (s : Stmt) : (b.enterLoop s).Sees k tr ↔
    (b.graph.Passes tr ∨ b.graph.Leaves b.front.jumps (some s) tr) ∨ tr = ⟨some s, some true, k.next⟩ := by
  have hlast : ((b.enterLoop s).graph.stmts b.blocks.size).getLast? = some s := by
    rw [stmts_enterLoop]
    rfl
  have htest : (b.enterLoop s).graph.Leaves [⟨b.blocks.size, .ifTrue⟩] k.next tr ↔
      tr = ⟨some s, some true, k.next⟩ := Graph.leaves_singleton hlast (Nat.ne_of_gt h.graph.size_pos)
  refine or_congr ?_ htest
  rw [← h.connects_enterLoop s tr]
  exact or_iff_left (not_or.2 ⟨Graph.leaves_nil, Graph.leaves_nil⟩)

theorem Shaped.sees_leaveLoop (h : b.Shaped)
    {body : Stmt} (hrun : (b.enterLoop s).stmt body = .ok b') : (b.leaveLoop b').Sees k tr ↔
      b'.Sees ⟨some s, k.next, some s⟩ tr ∨
        (b.graph.Leaves (b.inLoop.getD {}).breaks k.brk tr ∨
          b.graph.Leaves (b.inLoop.getD {}).continues k.cont tr) ∨
        tr = ⟨some s, some false, k.next⟩ := by
  have henter := h.enterLoop s
  have h' := shaped_run.1 _ _ _ hrun henter
  have hinner := (keeps_run.1 _ _ _ hrun henter.inRange).2
  have houter := ((keeps_enterLoop b s).trans hinner).trans (keeps_leaveLoop b b')
  have hhead := departs_enterLoop h s .ifFalse
  have hstmts : b'.graph.stmts b.blocks.size = [s] := (hinner.stmts hhead).trans (stmts_enterLoop b s)
  have hlt := (hinner.departs hhead).continues.lt
  have hbody : (b.leaveLoop b').graph.Passes tr ↔ b'.graph.Passes tr ∨
      b'.graph.Leaves (b'.front.jumps ++ (b'.inLoop.getD {}).continues) (some s) tr := by
    refine connects_closeLoop h'.graph (fun j hj => ?_) hlt (fun u => ?_) tr
    · rcases List.mem_append.1 hj with hj | hj
      · exact h'.continues hj
      · exact (h'.early j (List.mem_append_right _ hj)).continues
    · exact h'.graph.arrives_first hlt (by rw [hstmts]; rfl)
  have htest : (b.leaveLoop b').graph.Leaves [⟨b.blocks.size, .ifFalse⟩] k.next tr ↔
      tr = ⟨some s, some false, k.next⟩ := by
    refine Graph.leaves_singleton ?_ (Nat.ne_of_gt h.graph.size_pos)
    rw [(keeps_leaveLoop b b').stmts (hinner.departs hhead), hstmts]
    rfl
  have hnext : (b.leaveLoop b').graph.Leaves (b.leaveLoop b').front.jumps k.next tr ↔
      tr = ⟨some s, some false, k.next⟩ ∨ b'.graph.Leaves (b'.inLoop.getD {}).breaks k.next tr := by
    rw [← htest, ← h'.leaves_breaks (keeps_leaveLoop b b')]
    exact Graph.leaves_cons
  have hfixes : (b.leaveLoop b').Fixes k tr ↔ (b'.graph.Passes tr ∨
      b'.graph.Leaves (b'.front.jumps ++ (b'.inLoop.getD {}).continues) (some s) tr) ∨
        b.graph.Leaves (b.inLoop.getD {}).breaks k.brk tr ∨
          b.graph.Leaves (b.inLoop.getD {}).continues k.cont tr :=
    or_congr hbody (or_congr (h.leaves_breaks houter) (h.leaves_continues houter))
  rw [Sees, hfixes, hnext, Sees, Fixes, Graph.leaves_append]
  simp only [or_assoc, or_left_comm, or_comm]

end Builder

end Backflow
