import Backflow.Proofs.Regions

namespace Backflow

namespace Stmt

mutual

/-- Control can go on after the statement. -/
def completes : Stmt → Bool
  | block _ body => completesList body
  | ifElse _ _ yes no => yes.completes || no.completes
  | ret _ _ | brk _ | cont _ => false
  | _ => true

def completesList : List Stmt → Bool
  | [] => true
  | s :: rest => s.completes && completesList rest

end

mutual

/-- Control can come to a `continue` in the statement that belongs to the loop around it. -/
def resumes : Stmt → Bool
  | block _ body => resumesList body
  | ifThen _ _ yes => yes.resumes
  | ifElse _ _ yes no => yes.resumes || no.resumes
  | cont _ => true
  | _ => false

def resumesList : List Stmt → Bool
  | [] => false
  | s :: rest => s.resumes || s.completes && resumesList rest

end

/-- The statement is a loop whose body can come back to the test, at its end or by a `continue`. -/
def iterates : Stmt → Bool
  | loop _ _ body => body.completes || body.resumes
  | _ => false

theorem Plain.completes_eq {s : Stmt} (h : s.Plain) : s.completes = true := by
  apply h.cases (P := fun s => s.completes = true) <;> intros <;> rfl

theorem Plain.resumes_eq {s : Stmt} (h : s.Plain) : s.resumes = false := by
  apply h.cases (P := fun s => s.resumes = false) <;> intros <;> rfl

end Stmt

open Search

namespace Builder

variable {b b' inner : Builder} {s : Stmt} {h : Nat} {jumps : List Jump}

def GoesOn (b : Builder) (h : Nat) : Prop := ∃ j ∈ b.front.jumps, Beyond b.graph.successors h j.source

def Resumes (b : Builder) (h : Nat) : Prop :=
  ∃ j ∈ (b.inLoop.getD {}).continues, Beyond b.graph.successors h j.source

theorem exists_beyond_iff (hs : b.graph.Spares b'.graph) (hb : b.Shaped) (hexit : Graph.exit ≤ h)
    (hjumps : ∀ j ∈ jumps, b.graph.Continues j.source) :
    (∃ j ∈ jumps, Beyond b'.graph.successors h j.source) ↔ ∃ j ∈ jumps, Beyond b.graph.successors h j.source :=
  exists_congr fun j => and_congr_right fun hj => hs.beyond_iff hb.graph.closed hexit (hjumps j hj).lt

theorem beyond_addBlock (hb : b.graph.WellFormed) (hexit : Graph.exit ≤ h) (hlt : h < b.blocks.size)
    (hjumps : ∀ j ∈ jumps, b.graph.Continues j.source) (block : Block) :
    Beyond (b.addBlock block jumps).graph.successors h b.blocks.size ↔
      ∃ j ∈ jumps, Beyond b.graph.successors h j.source := by
  have hold {j : Jump} (hj : j ∈ jumps) : Beyond (b.addBlock block jumps).graph.successors h j.source ↔
      Beyond b.graph.successors h j.source :=
    (spares_addBlock b block jumps).beyond_iff hb.closed hexit (hjumps j hj).lt
  have hinto (i : Nat) : b.blocks.size ∈ (b.addBlock block jumps).graph.successors i ↔ ∃ j ∈ jumps, j.source = i := by
    rw [← Graph.mem_predecessors_iff, Graph.predecessors, incoming_addBlock hb]
    simp
  constructor
  · intro hpath
    rcases Relation.ReflTransGen.cases_tail hpath with heq | ⟨i, hi, _, hstep⟩
    · exact absurd heq (Nat.ne_of_gt hlt)
    · obtain ⟨j, hj, rfl⟩ := (hinto i).1 hstep
      exact ⟨j, hj, (hold hj).1 hi⟩
  · rintro ⟨j, hj, hpath⟩
    exact ((hold hj).2 hpath).tail ⟨hlt, (hinto j.source).2 ⟨j, hj, rfl⟩⟩

theorem Shaped.beyond_nextBlock (hb : b.Shaped) (hexit : Graph.exit ≤ h) (hlt : h < b.blocks.size) (s : Stmt) :
    Beyond (b.push s).graph.successors h b.nextBlock ↔ b.GoesOn h := by
  have hcont : ∀ j ∈ b.front.jumps, b.graph.Continues j.source := fun j hj => hb.continues hj
  unfold Builder.push nextBlock GoesOn
  cases hf : b.front with
  | inBlock i =>
      change Beyond b.graph.successors h i ↔ _
      simp [Front.jumps]
  | after jumps =>
      rw [hf] at hcont
      exact beyond_addBlock hb.graph hexit hlt hcont _

theorem Shaped.goesOn_test (hb : b.Shaped) (hexit : Graph.exit ≤ h) (hlt : h < b.blocks.size)
    (hs : (b.push s).graph.Spares b'.graph) (k : Branch) :
    (∃ j ∈ [(⟨b.nextBlock, k⟩ : Jump)], Beyond b'.graph.successors h j.source) ↔ b.GoesOn h := by
  rw [← hb.beyond_nextBlock hexit hlt s,
    ← hs.beyond_iff (hb.wellFormed_push s).closed hexit (nextBlock_lt_push hb.inRange s)]
  simp

theorem goesOn_append {l l' : List Jump} : { b with front := .after (l ++ l') }.GoesOn h ↔
    (∃ j ∈ l, Beyond b.graph.successors h j.source) ∨ ∃ j ∈ l', Beyond b.graph.successors h j.source := by
  change (∃ j ∈ l ++ l', Beyond b.graph.successors h j.source) ↔ _
  simp only [List.mem_append, or_and_right, exists_or]

/-- From `b` to `b'`, control that comes from `h` goes on if `completes` tells so, and comes to a `continue` if
`resumes` does. -/
structure Forwards (b b' : Builder) (h : Nat) (completes resumes : Bool) : Prop where
  goesOn : b'.GoesOn h ↔ b.GoesOn h ∧ completes = true
  resumes : b'.Resumes h ↔ b.Resumes h ∨ b.GoesOn h ∧ resumes = true

theorem Shaped.resumes_iff (hb : b.Shaped) (hs : b.graph.Spares b'.graph) (hexit : Graph.exit ≤ h)
    (hsame : (b'.inLoop.getD {}).continues = (b.inLoop.getD {}).continues) : b'.Resumes h ↔ b.Resumes h := by
  rw [Resumes, hsame]
  exact exists_beyond_iff hs hb hexit fun j hj => (hb.early j (List.mem_append_right _ hj)).continues

theorem Shaped.forwards_of_same (hb : b.Shaped) (hs : b.graph.Spares b'.graph) (hexit : Graph.exit ≤ h)
    (hsame : (b'.inLoop.getD {}).continues = (b.inLoop.getD {}).continues) {c : Bool}
    (hgoes : b'.GoesOn h ↔ b.GoesOn h ∧ c = true) : b.Forwards b' h c false :=
  ⟨hgoes, (hb.resumes_iff hs hexit hsame).trans (by simp)⟩

theorem Shaped.forwards_push (hb : b.Shaped) (hexit : Graph.exit ≤ h) (hlt : h < b.blocks.size) {f : Front}
    {k : Branch} (hf : f.jumps = [⟨b.nextBlock, k⟩]) (s : Stmt) :
    b.Forwards { b.push s with front := f } h true false := by
  have hs : b.graph.Spares { b.push s with front := f }.graph := spares_push b s
  refine hb.forwards_of_same hs hexit (by rw [push_inLoop]) ?_
  change (∃ j ∈ f.jumps, Beyond (b.push s).graph.successors h j.source) ↔ _
  rw [hf, ← hb.beyond_nextBlock hexit hlt s]
  simp

theorem Shaped.forwards_stop (hb : b.Shaped) (hexit : Graph.exit ≤ h) (hs : b.graph.Spares b'.graph)
    (hfront : b'.front = .after [])
    (hsame : (b'.inLoop.getD {}).continues = (b.inLoop.getD {}).continues) : b.Forwards b' h false false := by
  refine hb.forwards_of_same hs hexit hsame ?_
  rw [GoesOn, hfront]
  simp [Front.jumps]

theorem Forwards.trans {b₁ b₂ : Builder} {c₁ r₁ c₂ r₂ : Bool} (h₁ : b.Forwards b₁ h c₁ r₁)
    (h₂ : b₁.Forwards b₂ h c₂ r₂) : b.Forwards b₂ h (c₁ && c₂) (r₁ || c₁ && r₂) := by
  refine ⟨?_, ?_⟩
  · rw [h₂.goesOn, h₁.goesOn, Bool.and_eq_true, and_assoc]
  · rw [h₂.resumes, h₁.resumes, h₁.goesOn, Bool.or_eq_true, Bool.and_eq_true]
    tauto

theorem Springs.goesOn (h' : b.Springs b') (hb : b.Shaped) (hexit : Graph.exit ≤ h) (hlt : h < b.blocks.size) {i : Nat}
    (hi : b.blocks.size ≤ i) (hpath : Beyond b'.graph.successors h i) : b.GoesOn h := by
  induction hpath with
  | refl => exact absurd hlt (Nat.not_lt.2 hi)
  | @tail a k hpath hstep ih =>
      obtain ⟨e, he, rfl, rfl⟩ := Graph.mem_successors.1 hstep.2
      rcases h'.edges e he hi with ha | ⟨j, hj, hsource⟩
      · exact ih ha
      · rw [← hsource] at hpath
        exact ⟨j, hj, (h'.spares.beyond_iff hb.graph.closed hexit (hb.continues hj).lt).1 hpath⟩

theorem Shaped.forwards_leaveLoop (hb : b.Shaped) (hsprings : (b.enterLoop s).Springs inner) (hexit : Graph.exit ≤ h)
    (hlt : h < b.blocks.size) : b.Forwards (b.leaveLoop inner) h true false := by
  have hloop := hb.springs_leaveLoop hsprings
  refine hb.forwards_of_same hloop.spares hexit rfl ?_
  simp only [and_true]
  constructor
  · rintro ⟨j, hj, hpath⟩
    refine hloop.goesOn hb hexit hlt ?_ hpath
    rcases List.mem_cons.1 hj with rfl | hj
    · exact Nat.le_refl _
    · exact hsprings.le_breaks hj
  · intro hgoes
    refine ⟨⟨b.blocks.size, .ifFalse⟩, List.mem_cons_self, ?_⟩
    have hhead : Beyond (b.enterLoop s).graph.successors h b.blocks.size :=
      (beyond_addBlock hb.graph hexit hlt (fun j hj => hb.continues hj) _).2 hgoes
    have hbody : Beyond inner.graph.successors h b.blocks.size :=
      (hsprings.spares.beyond_iff (hb.enterLoop s).graph.closed hexit
        (departs_enterLoop hb s .ifTrue).continues.lt).2 hhead
    refine hbody.mono fun i k _ hk => ?_
    obtain ⟨e, he, hends⟩ := Graph.mem_successors.1 hk
    exact Graph.mem_successors.2 ⟨e, mem_edges_closeLoop he, hends⟩

theorem forwards_run :
    (∀ s b b', stmt b s = .ok b' → b.Shaped → ∀ h, Graph.exit ≤ h → h < b.blocks.size →
      b.Forwards b' h s.completes s.resumes) ∧
    ∀ l b b', stmts b l = .ok b' → b.Shaped → ∀ h, Graph.exit ≤ h → h < b.blocks.size →
      b.Forwards b' h (Stmt.completesList l) (Stmt.resumesList l) := by
  apply run_induction
  case plain =>
    intro b s hs hb h hexit hlt
    rw [hs.completes_eq, hs.resumes_eq]
    exact hb.forwards_push hexit hlt (congrArg Front.jumps (push_front b s)) s
  case block => exact fun b t body b' ih => ih
  case ifThen =>
    intro b t c yes b' hrun ih hb h hexit hlt
    have hspares := spares_run.1 _ _ _ hrun
    have hlt' := Nat.lt_of_lt_of_le hlt (size_le_push b (.ifThen t c yes))
    have hpush := hb.forwards_push hexit hlt (f := .after [⟨b.nextBlock, .ifTrue⟩]) rfl (.ifThen t c yes)
    have hyes := hpush.trans (ih (hb.pushTest _ _) h hexit hlt')
    refine ⟨?_, hyes.resumes⟩
    rw [goesOn_append, hb.goesOn_test (s := .ifThen t c yes) hexit hlt hspares, ← GoesOn, hyes.goesOn]
    exact ⟨fun hgoes => ⟨hgoes.elim And.left id, rfl⟩, fun hgoes => Or.inr hgoes.1⟩
  case ifElse =>
    intro b t c yes no b₁ b₂ hrun₁ ih₁ hrun₂ ih₂ hb h hexit hlt
    have htest := hb.pushTest (.ifElse t c yes no) .ifTrue
    have hb₁ := shaped_run.1 _ _ _ hrun₁ htest
    have hspares := spares_run.1 _ _ _ hrun₁
    have hlt' := Nat.lt_of_lt_of_le hlt (size_le_push b (.ifElse t c yes no))
    have hpush := hb.forwards_push hexit hlt (f := .after [⟨b.nextBlock, .ifTrue⟩]) rfl (.ifElse t c yes no)
    have hyes := hpush.trans (ih₁ htest h hexit hlt')
    have helse : { b₁ with front := .after [⟨b.nextBlock, .ifFalse⟩] }.GoesOn h ↔ b.GoesOn h :=
      hb.goesOn_test (s := .ifElse t c yes no) hexit hlt hspares .ifFalse
    have hno := ih₂ (hb.secondBranch hrun₁ hb₁) h hexit (Nat.lt_of_lt_of_le hlt' hspares.size_le)
    have hspares' := spares_run.1 _ _ _ hrun₂
    have hjoin : (∃ j ∈ b₁.front.jumps, Beyond b₂.graph.successors h j.source) ↔ b₁.GoesOn h :=
      exists_beyond_iff hspares' hb₁ hexit fun j hj => hb₁.continues hj
    refine ⟨?_, ?_⟩
    · rw [goesOn_append, hjoin, ← GoesOn, hno.goesOn, helse, hyes.goesOn, Bool.true_and, ← and_or_left,
        ← Bool.or_eq_true]
      rfl
    · refine hno.resumes.trans ?_
      have hstart : { b₁ with front := .after [⟨b.nextBlock, .ifFalse⟩] }.Resumes h ↔ _ := hyes.resumes
      rw [hstart, helse, Bool.false_or, Bool.true_and, or_assoc, ← and_or_left, ← Bool.or_eq_true]
      rfl
  case loop => exact fun b t c body b' hrun _ hb h hexit hlt =>
    hb.forwards_leaveLoop (springs_run.1 _ _ _ hrun (hb.enterLoop _)) hexit hlt
  case ret =>
    intro b t value hb h hexit hlt
    refine hb.forwards_stop hexit (spares_run.1 (.ret t value) _ _ (by rw [stmt]; rfl)) rfl ?_
    exact congrArg (fun l : Option LoopJumps => (l.getD {}).continues) (push_inLoop b (.ret t value))
  case brk =>
    intro b t jumps hl hb h hexit hlt
    exact hb.forwards_stop hexit (spares_push b (.brk t)) rfl (by rw [hl]; rfl)
  case cont =>
    intro b t jumps hl hb h hexit hlt
    have hold : (∃ j ∈ jumps.continues, Beyond (b.push (.cont t)).graph.successors h j.source) ↔ b.Resumes h := by
      rw [Resumes, hl]
      exact exists_beyond_iff (spares_push b _) hb hexit fun j hj =>
        (hb.early j (by rw [early, hl]; exact List.mem_append_right _ hj)).continues
    refine ⟨?_, ?_⟩
    · change (∃ j ∈ [], Beyond (b.push (.cont t)).graph.successors h _) ↔ _
      simp [Stmt.completes]
    · change (∃ j ∈ jumps.continues ++ [⟨b.nextBlock, .cont⟩],
        Beyond (b.push (.cont t)).graph.successors h j.source) ↔ _
      simp only [List.mem_append, or_and_right, exists_or]
      rw [hold, hb.goesOn_test (s := .cont t) hexit hlt ⟨Nat.le_refl _, fun _ _ _ => rfl⟩]
      simp [Stmt.resumes]
  case nil => exact fun b _ h _ _ => ⟨by simp [Stmt.completesList], by simp [Stmt.resumesList]⟩
  case cons =>
    intro b s rest b₁ b₂ hrun ih₁ ih₂ hb h hexit hlt
    exact (ih₁ hb h hexit hlt).trans
      (ih₂ (shaped_run.1 _ _ _ hrun hb) h hexit (Nat.lt_of_lt_of_le hlt (spares_run.1 _ _ _ hrun).size_le))

end Builder

namespace Graph

variable {g g' : Graph} {h n : Nat}

/-- An edge comes back to the block from itself or from a later one, and control can come there from the block. -/
def ComesBack (g : Graph) (h : Nat) : Prop := ∃ e ∈ g.incoming h, h ≤ e.source ∧ g.Reaches h e.source

theorem comesBack_iff (henc : Encloses g.successors h n) :
    g.ComesBack h ↔ ∃ e ∈ g.incoming h, Beyond g.successors h e.source := by
  constructor
  · rintro ⟨e, he, hle, hreach⟩
    exact ⟨e, he, henc.beyond hreach hle (henc.back e.source (mem_successors_of_incoming he) hle)⟩
  · rintro ⟨e, he, hpath⟩
    exact ⟨e, he, hpath.le, hpath.reaches⟩

/-- What holds of the test of a loop: its block encloses those of the loop, and control comes back to it just if the
loop's body can come back. -/
def LoopAt (g : Graph) (h : Nat) : Prop :=
  ∀ s ∈ g.stmts h, s.isLoop = true →
    ∃ n, h < n ∧ n ≤ g.size ∧ Encloses g.successors h n ∧ (g.ComesBack h ↔ s.iterates = true)

theorem LoopAt.mono (hloop : g.LoopAt h) (hsize : g.size ≤ g'.size)
    (hin : ∀ k, h ≤ k → k < g.size → g'.incoming k = g.incoming k)
    (hstmts : ∀ s ∈ g'.stmts h, s.isLoop = true → s ∈ g.stmts h) : g'.LoopAt h := by
  intro s hs hisLoop
  obtain ⟨n, hn, hle, henc, hback⟩ := hloop s (hstmts s hs hisLoop) hisLoop
  have hsame : ∀ k, h ≤ k → k < n → g'.incoming k = g.incoming k :=
    fun k hk hlt => hin k hk (Nat.lt_of_lt_of_le hlt hle)
  have henc' := encloses_congr hsame hn henc
  refine ⟨n, hn, Nat.le_trans hle hsize, henc', ?_⟩
  rw [← hback, comesBack_iff henc, comesBack_iff henc', hsame h (Nat.le_refl h) hn]
  refine exists_congr fun e => and_congr_right fun he => ⟨fun hpath => ?_, fun hpath => ?_⟩
  · rw [← hsame h (Nat.le_refl h) hn] at he
    have hlt := henc'.back _ (mem_successors_of_incoming he) hpath.le
    exact beyond_of_enclosed (fun k hk hlt => (hsame k hk hlt).symm) henc' hlt hpath
  · exact beyond_of_enclosed hsame henc (henc.back _ (mem_successors_of_incoming he) hpath.le) hpath

end Graph

namespace Builder

variable {b b' inner : Builder} {s : Stmt} {h : Nat} {jumps : List Jump}

theorem beyond_addEdge (b : Builder) (j : Jump) (head i : Nat) :
    Beyond (b.addEdge j head).graph.successors head i ↔ Beyond b.graph.successors head i := by
  have hsame {i k : Nat} (hk : head < k) : k ∈ (b.addEdge j head).graph.successors i ↔ k ∈ b.graph.successors i :=
    Graph.mem_successors_congr ((incoming_addEdge b j head k).trans (if_neg (Nat.ne_of_gt hk)))
  exact ⟨fun hpath => hpath.mono fun i k hk => (hsame hk).1, fun hpath => hpath.mono fun i k hk => (hsame hk).2⟩

theorem not_beyond_incoming {head : Nat} (hnone : b.graph.returning head = []) :
    ¬ ∃ e ∈ b.graph.incoming head, Beyond b.graph.successors head e.source := by
  rintro ⟨e, he, hpath⟩
  have hmem : e ∈ b.graph.returning head := List.mem_filter.2 ⟨he, decide_eq_true hpath.le⟩
  rw [hnone] at hmem
  cases hmem

theorem exists_beyond_addEdge {head : Nat} (hnone : b.graph.returning head = []) (j : Jump) :
    (∃ e ∈ (b.addEdge j head).graph.incoming head, Beyond (b.addEdge j head).graph.successors head e.source) ↔
      Beyond b.graph.successors head j.source := by
  simp only [beyond_addEdge, incoming_addEdge, if_pos, List.exists_mem_cons_iff]
  exact or_iff_left (not_beyond_incoming hnone)

/-- Control comes back to the head of a loop just if it comes to an end of the loop's body. -/
theorem exists_beyond_closeLoop {ends : List Jump} {head : Nat} (hg : b.graph.WellFormed) (hexit : Graph.exit ≤ head)
    (hlt : head < b.blocks.size) (hnone : b.graph.returning head = [])
    (hends : ∀ j ∈ ends, b.graph.Continues j.source) :
    (∃ e ∈ (b.closeLoop ends head).graph.incoming head,
      Beyond (b.closeLoop ends head).graph.successors head e.source) ↔
      ∃ j ∈ ends, Beyond b.graph.successors head j.source := by
  match ends with
  | [] => exact iff_of_false (not_beyond_incoming hnone) (by simp)
  | [j] =>
      refine (exists_beyond_addEdge hnone (closing j)).trans ?_
      rw [closing_source]
      simp
  | j :: k :: rest =>
      have hnone' : (b.addBlock { kind := .latch } (j :: k :: rest)).graph.returning head = [] := by
        rw [← hnone]
        exact congrArg (List.filter _) ((incoming_addEdges _ _ _ _).trans (if_neg (Nat.ne_of_lt hlt)))
      exact (exists_beyond_addEdge hnone' ⟨b.blocks.size, .back⟩).trans (beyond_addBlock hg hexit hlt hends _)

theorem encloses_leaveLoop (hg : (b.leaveLoop inner).graph.WellFormed) (hsprings : (b.enterLoop s).Springs inner) :
    Encloses (b.leaveLoop inner).graph.successors b.blocks.size (b.leaveLoop inner).graph.size where
  inside i k hk hlt _ := by
    obtain ⟨e, he, rfl, rfl⟩ := Graph.mem_successors.1 hk
    refine ⟨?_, (hg.edges e he).source_lt⟩
    exact (hsprings.le_source he).resolve_right fun hold => absurd hlt (Nat.not_lt.2 hold.2)
  back i hi _ := hg.closed.predecessor_lt (Graph.mem_predecessors_iff.2 hi)

theorem stmt_loop {t : Tag} {c : Expr} {body : Stmt} (hrun : (b.enterLoop (.loop t c body)).stmt body = .ok inner) :
    b.stmt (.loop t c body) = .ok (b.leaveLoop inner) := by
  rw [stmt]
  exact congrArg (Except.bind · _) hrun

theorem Aimed.loopAt_head {t : Tag} {c : Expr} {body : Stmt} (hb : b.Aimed)
    (hrun : (b.enterLoop (.loop t c body)).stmt body = .ok inner) :
    (b.leaveLoop inner).graph.LoopAt b.blocks.size := by
  have henter := hb.shaped.enterLoop (.loop t c body)
  have hdeparts := departs_enterLoop hb.shaped (.loop t c body) .ifTrue
  have hkeep := (keeps_run.1 _ _ _ hrun henter.inRange).2
  have hinner := shaped_run.1 _ _ _ hrun henter
  have hsprings := springs_run.1 _ _ _ hrun henter
  have hexit : Graph.exit ≤ b.blocks.size := Nat.le_of_lt hb.shaped.graph.exit_lt
  have hlt : b.blocks.size < inner.blocks.size := (hkeep.departs hdeparts).continues.lt
  have hstmts : (b.leaveLoop inner).graph.stmts b.blocks.size = [.loop t c body] :=
    (stmts_closeLoop inner _ _ _).trans ((hkeep.stmts hdeparts).trans (stmts_enterLoop b _))
  have henc := encloses_leaveLoop (shaped_run.1 _ _ _ (stmt_loop hrun) hb.shaped).graph hsprings
  intro s hs _
  rw [hstmts] at hs
  rw [List.mem_singleton.1 hs]
  refine ⟨_, Nat.lt_of_lt_of_le hlt (size_le_closeLoop inner _ _), Nat.le_refl _, henc, ?_⟩
  have hbody := forwards_run.1 _ _ _ hrun henter b.blocks.size hexit hdeparts.continues.lt
  have hgoes : (b.enterLoop (.loop t c body)).GoesOn b.blocks.size := ⟨_, List.mem_cons_self, .refl⟩
  have hresumes : ¬ (b.enterLoop (.loop t c body)).Resumes b.blocks.size := by
    rintro ⟨j, hj, _⟩
    cases hj
  have hends := exists_beyond_closeLoop hinner.graph hexit hlt (hb.shaped.returning_head hb.directed hrun)
    fun j hj => hinner.continues_ends hj
  rw [Graph.comesBack_iff henc, Stmt.iterates, Bool.or_eq_true]
  refine hends.trans ?_
  simp only [List.mem_append, or_and_right, exists_or]
  rw [← GoesOn, ← Resumes, hbody.goesOn, hbody.resumes]
  tauto

def Winds (b b' : Builder) : Prop := ∀ h, b.blocks.size ≤ h → b'.graph.LoopAt h

theorem Shaped.winds_push (hb : b.Shaped) (hs : s.isLoop = false)
    (hstmts : ∀ h, b'.graph.stmts h = (b.push s).graph.stmts h) : b.Winds b' := by
  intro h hle u hu hloop
  have hnone : b.graph.stmts h = [] := Graph.stmts_of_le hle
  rw [hstmts, stmts_push hb.inRange, hnone, List.nil_append] at hu
  split at hu
  · rw [List.mem_singleton.1 hu, hs] at hloop
    cases hloop
  · cases hu

theorem Winds.trans {b₁ b₂ : Builder} (h₁ : b.Winds b₁) (hs : b₁.Springs b₂) (h₂ : b₁.Winds b₂)
    (hexit : Graph.exit < b.blocks.size) : b.Winds b₂ := by
  intro h hle
  by_cases hold : h < b₁.blocks.size
  · refine (h₁ h hle).mono hs.spares.size_le (fun k hk hlt => hs.spares.incoming k hlt ?_) (hs.loops h hold)
    exact Nat.ne_of_gt (Nat.lt_of_lt_of_le hexit (Nat.le_trans hle hk))
  · exact h₂ h (Nat.le_of_not_lt hold)

theorem Aimed.winds_leaveLoop {t : Tag} {c : Expr} {body : Stmt} (hb : b.Aimed)
    (hrun : (b.enterLoop (.loop t c body)).stmt body = .ok inner)
    (hinner : (b.enterLoop (.loop t c body)).Winds inner) : b.Winds (b.leaveLoop inner) := by
  intro h hle
  rcases Nat.eq_or_lt_of_le hle with rfl | hlt
  · exact hb.loopAt_head hrun
  · have hsize : (b.enterLoop (.loop t c body)).blocks.size = b.blocks.size + 1 := size_addBlock b _ _
    refine (hinner h (Nat.le_trans (Nat.le_of_eq hsize) hlt)).mono (size_le_closeLoop inner _ _) (fun k hk hsmall => ?_)
      fun u hu _ => stmts_closeLoop inner _ _ h ▸ hu
    exact incoming_closeLoop hsmall (Nat.ne_of_gt (Nat.lt_of_lt_of_le hlt hk))

theorem Shaped.winds_test {yes : Stmt} (hb : b.Shaped) (hs : s.isLoop = false)
    (hrun : (b.pushLast s [⟨b.nextBlock, .ifTrue⟩]).stmt yes = .ok b')
    (hyes : (b.pushLast s [⟨b.nextBlock, .ifTrue⟩]).Winds b') : b.Winds b' := by
  have hpush : b.Winds (b.pushLast s [⟨b.nextBlock, .ifTrue⟩]) := hb.winds_push hs fun _ => rfl
  exact hpush.trans (springs_run.1 _ _ _ hrun (hb.pushTest s .ifTrue)) hyes hb.graph.exit_lt

theorem winds_run :
    (∀ s b b', stmt b s = .ok b' → b.Aimed → b.Winds b') ∧
      ∀ l b b', stmts b l = .ok b' → b.Aimed → b.Winds b' := by
  -- The induction takes the run along, for what the rest of a list does to the blocks before it.
  have hall : (∀ s b b', stmt b s = .ok b' → b.stmt s = .ok b' → b.Aimed → b.Winds b') ∧
      ∀ l b b', stmts b l = .ok b' → b.stmts l = .ok b' → b.Aimed → b.Winds b' := by
    apply run_induction
    case plain =>
      intro b s hs _ hb
      exact hb.shaped.winds_push (Stmt.isLoop_of_passed hs.2) fun _ => rfl
    case block =>
      intro b t body b' ih hrun hb
      rw [stmt] at hrun
      exact ih hrun hb
    case ifThen =>
      intro b t c yes b' hrun ih _ hb
      have hyes := hb.shaped.winds_test (s := .ifThen t c yes) rfl hrun (ih hrun (hb.pushTest (by simp)))
      exact hyes
    case ifElse =>
      intro b t c yes no b₁ b₂ hrun₁ ih₁ hrun₂ ih₂ _ hb
      have htest : (b.pushLast (.ifElse t c yes no) [⟨b.nextBlock, .ifTrue⟩]).Aimed := hb.pushTest (by simp)
      have hyes := hb.shaped.winds_test (s := .ifElse t c yes no) rfl hrun₁ (ih₁ hrun₁ htest)
      have helse := hb.secondBranch hrun₁ (htest.run hrun₁)
      have hjoin : b.Winds { b₁ with front := .after [⟨b.nextBlock, .ifFalse⟩] } := hyes
      have hno : b.Winds b₂ :=
        hjoin.trans (springs_run.1 _ _ _ hrun₂ helse.shaped) (ih₂ hrun₂ helse) hb.shaped.graph.exit_lt
      exact hno
    case loop => exact fun b t c body b' hrun ih _ hb => hb.winds_leaveLoop hrun (ih hrun (hb.enterLoop _))
    case ret => exact fun b t value _ hb => hb.shaped.winds_push (s := .ret t value) rfl fun _ => rfl
    case brk => exact fun b t _ _ _ hb => hb.shaped.winds_push (s := .brk t) rfl fun _ => rfl
    case cont => exact fun b t _ _ _ hb => hb.shaped.winds_push (s := .cont t) rfl fun _ => rfl
    case nil =>
      intro b _ _ h hle u hu
      have hnone : b.graph.stmts h = [] := Graph.stmts_of_le hle
      rw [hnone] at hu
      cases hu
    case cons =>
      intro b s rest b₁ b₂ hrun ih₁ ih₂ hall hb
      rw [stmts, hrun] at hall
      have hb₁ := hb.run hrun
      exact (ih₁ hrun hb).trans (springs_run.2 _ _ _ hall hb₁.shaped) (ih₂ hall hb₁) hb.shaped.graph.exit_lt
  exact ⟨fun s b b' hrun => hall.1 s b b' hrun hrun, fun l b b' hrun => hall.2 l b b' hrun hrun⟩

end Builder

namespace Graph

variable {m : Method} {g : Graph}

theorem loopAt_of_build (h : build m = .ok g) (i : Nat) : g.LoopAt i := by
  obtain ⟨b, hrun, hb, rfl⟩ := build_eq_finish h
  have hstmts := Builder.stmts_finish b
  by_cases hi : i < Builder.start.blocks.size
  · intro s hs hloop
    have hold := (Builder.springs_run.2 _ _ _ hrun Builder.shaped_start).loops i hi s (hstmts i ▸ hs) hloop
    obtain rfl | rfl : i = entry ∨ i = exit := Nat.le_one_iff_eq_zero_or_eq_one.1 (Nat.le_of_lt_succ hi)
    · cases hold
    · cases hold
  · have hle := Nat.le_of_not_lt hi
    refine (Builder.winds_run.2 _ _ _ hrun Builder.aimed_start i hle).mono
      (Nat.le_of_eq (Builder.size_finish b).symm) (fun k hk _ => ?_) fun s hs _ => hstmts i ▸ hs
    have hne : k ≠ exit := Nat.ne_of_gt (Nat.lt_of_lt_of_le (by decide) (Nat.le_trans hle hk))
    exact (Builder.incoming_addEdges _ _ _ _).trans (if_neg hne)

end Graph

end Backflow
