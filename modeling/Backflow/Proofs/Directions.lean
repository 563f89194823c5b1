import Backflow.Proofs.Departures

namespace Backflow

namespace Graph

variable {g g' : Graph} {e : Edge} {i : Nat}

/-- The block holds the test of a loop and nothing else. -/
def IsHead (g : Graph) (i : Nat) : Prop := ∃ t c body, g.stmts i = [.loop t c body]

/-- The edges that come back to a block from itself or from a later one. -/
def returning (g : Graph) (i : Nat) : List Edge := (g.incoming i).filter (i ≤ ·.source)

theorem returning_eq_nil (h : ∀ e ∈ g.incoming i, e.source < i) : g.returning i = [] :=
  List.filter_eq_nil_iff.2 fun e he => by simpa using h e he

theorem WellFormed.kind_exit_ne (h : g.WellFormed) : (g.block exit).kind ≠ .latch := by
  rw [(h.blocks exit h.exit_lt).exit_iff.2 rfl]
  nofun

end Graph

/-- The edge goes forward unless it enters the exit or a loop's head. A return goes to the exit and a latch
to a loop's head. -/
structure Edge.Directed (e : Edge) (g : Graph) : Prop where
  ret : e.branch = .ret → e.target = Graph.exit
  latch : (g.block e.source).kind = .latch → g.IsHead e.target
  forward : e.target ≠ Graph.exit → e.source < e.target ∨ g.IsHead e.target

structure Graph.Entered (g : Graph) (i : Nat) : Prop where
  alone : ∀ t c body, .loop t c body ∈ g.stmts i → g.stmts i = [.loop t c body]
  joined : (g.block i).kind = .latch → 2 ≤ (g.incoming i).length
  once : i ≠ exit → (g.returning i).length ≤ 1

namespace Graph

variable {g g' : Graph} {e : Edge} {i : Nat}

structure Directed (g : Graph) : Prop where
  edges : ∀ e ∈ g.edges, e.Directed g
  blocks : ∀ i < g.size, g.Entered i

theorem Entered.congr (h : g.Entered i) (hkind : (g'.block i).kind = (g.block i).kind)
    (hstmts : g'.stmts i = g.stmts i) (hin : g'.incoming i = g.incoming i) : g'.Entered i := by
  refine ⟨?_, ?_, ?_⟩
  · rw [hstmts]
    exact h.alone
  · rw [hkind, hin]
    exact h.joined
  · rw [returning, hin]
    exact h.once

end Graph

theorem Graph.entered_of_empty {g : Graph} {i : Nat} (hstmts : g.stmts i = []) (hkind : (g.block i).kind ≠ .latch)
    (hin : g.incoming i = []) : g.Entered i := by
  refine ⟨fun t c body hmem => absurd (hstmts ▸ hmem) List.not_mem_nil, fun hk => absurd hk hkind, fun _ => ?_⟩
  rw [returning, hin]
  exact Nat.zero_le 1

structure Graph.Spares (g g' : Graph) : Prop where
  size_le : g.size ≤ g'.size
  incoming : ∀ i < g.size, i ≠ exit → g'.incoming i = g.incoming i

theorem Graph.Spares.trans {g g' g'' : Graph} (h : g.Spares g') (h' : g'.Spares g'') : g.Spares g'' :=
  ⟨Nat.le_trans h.size_le h'.size_le, fun i hi hne =>
    (h'.incoming i (Nat.lt_of_lt_of_le hi h.size_le) hne).trans (h.incoming i hi hne)⟩

theorem Edge.Directed.mono {e : Edge} {g g' : Graph} (h : e.Directed g)
    (hkind : (g'.block e.source).kind = (g.block e.source).kind) (hhead : ∀ i, g.IsHead i → g'.IsHead i) :
    e.Directed g' :=
  ⟨h.ret, fun hk => hhead _ (h.latch (hkind ▸ hk)), fun hne => (h.forward hne).imp_right (hhead _)⟩

theorem Graph.Directed.toExit {g g' : Graph} (h : g.Directed) (hsize : g'.size = g.size)
    (hkind : ∀ i, (g'.block i).kind = (g.block i).kind) (hstmts : ∀ i, g'.stmts i = g.stmts i)
    (hedges : ∀ e ∈ g'.edges, e ∈ g.edges ∨ e.target = exit ∧ (g.block e.source).kind ≠ .latch)
    (hin : ∀ i, i ≠ exit → g'.incoming i = g.incoming i) (hexit : (g.block exit).kind ≠ .latch) : g'.Directed := by
  refine ⟨fun e he => ?_, fun i hi => ?_⟩
  · rcases hedges e he with he | ⟨htarget, hsource⟩
    · refine (h.edges e he).mono (hkind _) fun i hi => ?_
      rwa [IsHead, hstmts]
    · refine ⟨fun _ => htarget, fun hk => ?_, fun hne => absurd htarget hne⟩
      exact absurd ((hkind _).symm.trans hk) hsource
  · have hold := h.blocks i (hsize ▸ hi)
    by_cases hn : i = exit
    · refine ⟨hstmts i ▸ hold.alone, fun hk => ?_, fun hne => absurd hn hne⟩
      rw [hkind, hn] at hk
      exact absurd hk hexit
    · exact hold.congr (hkind i) (hstmts i) (hin i hn)

namespace Builder

variable {b b' : Builder} {s : Stmt} {i : Nat} {j : Jump} {jumps next : List Jump}

theorem incoming_addEdges (b : Builder) (jumps : List Jump) (target i : Nat) :
    (b.addEdges jumps target).graph.incoming i =
    if i = target then (jumps.map fun j => ⟨j.source, target, j.branch⟩).reverse ++ b.graph.incoming i
    else b.graph.incoming i := by
  rw [addEdges_eq]
  unfold Graph.incoming graph
  rw [List.filter_append]
  split
  case isTrue hi =>
    rw [List.filter_eq_self.2 fun e he => ?_]
    obtain ⟨j, _, rfl⟩ := List.mem_map.1 (List.mem_reverse.1 he)
    exact decide_eq_true hi.symm
  case isFalse hi =>
    rw [List.filter_eq_nil_iff.2 fun e he => ?_, List.nil_append]
    obtain ⟨j, _, rfl⟩ := List.mem_map.1 (List.mem_reverse.1 he)
    simpa using Ne.symm hi

theorem incoming_addEdge (b : Builder) (j : Jump) (target i : Nat) : (b.addEdge j target).graph.incoming i =
    if i = target then ⟨j.source, target, j.branch⟩ :: b.graph.incoming i else b.graph.incoming i :=
  b.incoming_addEdges [j] target i

theorem incoming_addBlock (hg : b.graph.WellFormed) (block : Block) (jumps : List Jump) :
    (b.addBlock block jumps).graph.incoming b.blocks.size =
      (jumps.map fun j => ⟨j.source, b.blocks.size, j.branch⟩).reverse := by
  have hnone : b.graph.incoming b.graph.size = [] :=
    List.filter_eq_nil_iff.2 fun e he => by simpa using Nat.ne_of_lt (hg.edges e he).target_lt
  refine (incoming_addEdges _ _ _ _).trans ((if_pos rfl).trans ?_)
  exact (congrArg (_ ++ ·) hnone).trans (List.append_nil _)

theorem spares_addBlock (b : Builder) (block : Block) (jumps : List Jump) :
    b.graph.Spares (b.addBlock block jumps).graph := by
  refine ⟨?_, fun i hi _ => ?_⟩
  · rw [Graph.size, Graph.size, graph, graph, size_addBlock]
    exact Nat.le_succ _
  · exact (incoming_addEdges _ _ _ _).trans (if_neg (Nat.ne_of_lt hi))

theorem spares_push (b : Builder) (s : Stmt) : b.graph.Spares (b.push s).graph := by
  unfold push
  cases b.front with
  | inBlock i => exact ⟨Nat.le_of_eq Array.size_modify.symm, fun _ _ _ => rfl⟩
  | after jumps => exact spares_addBlock b _ jumps

theorem incoming_closeLoop {ends : List Jump} {head : Nat} (hi : i < b.blocks.size) (hne : i ≠ head) :
    (b.closeLoop ends head).graph.incoming i = b.graph.incoming i := by
  match ends with
  | [] => rfl
  | [j] => exact (b.incoming_addEdge (closing j) head i).trans (if_neg hne)
  | j :: k :: rest =>
      refine (incoming_addEdge _ ⟨b.blocks.size, .back⟩ head i).trans ((if_neg hne).trans ?_)
      exact (incoming_addEdges _ _ _ _).trans (if_neg (Nat.ne_of_lt hi))

theorem size_le_closeLoop (b : Builder) (ends : List Jump) (head : Nat) :
    b.blocks.size ≤ (b.closeLoop ends head).blocks.size := by
  match ends with
  | [] => exact Nat.le_refl _
  | [j] => exact Nat.le_refl _
  | j :: k :: rest => exact (spares_addBlock b _ _).size_le

theorem spares_leaveLoop {inner : Builder} (h : (b.enterLoop s).graph.Spares inner.graph) :
    b.graph.Spares (b.leaveLoop inner).graph := by
  have hbody := (spares_addBlock b { kind := .basic, stmts := [s] } b.front.jumps).trans h
  refine ⟨Nat.le_trans hbody.size_le (size_le_closeLoop inner _ _), fun i hi hne => ?_⟩
  refine (incoming_closeLoop (Nat.lt_of_lt_of_le hi hbody.size_le) (Nat.ne_of_lt hi)).trans ?_
  exact hbody.incoming i hi hne

theorem spares_run :
    (∀ s b b', stmt b s = .ok b' → b.graph.Spares b'.graph) ∧
      ∀ l b b', stmts b l = .ok b' → b.graph.Spares b'.graph := by
  apply run_induction
  case plain => exact fun b s _ => spares_push b s
  case block => exact fun b t body b' h => h
  case ifThen => exact fun b t c yes b' _ ih => (spares_push b (.ifThen t c yes)).trans ih
  case ifElse =>
    exact fun b t c yes no b₁ b₂ _ ih₁ _ ih₂ => ((spares_push b (.ifElse t c yes no)).trans ih₁).trans ih₂
  case loop => exact fun b t c body b' _ ih => spares_leaveLoop ih
  case ret =>
    intro b t value
    have hpush := spares_push b (.ret t value)
    refine ⟨hpush.size_le, fun i hi hne => ?_⟩
    exact (incoming_addEdge _ ⟨b.nextBlock, .ret⟩ Graph.exit i).trans ((if_neg hne).trans (hpush.incoming i hi hne))
  case brk => exact fun b t _ _ => spares_push b (.brk t)
  case cont => exact fun b t _ _ => spares_push b (.cont t)
  case nil => exact fun b => ⟨Nat.le_refl _, fun _ _ _ => rfl⟩
  case cons => exact fun b s rest b₁ b₂ _ ih₁ ih₂ => ih₁.trans ih₂

def NoReturns (b : Builder) : Prop := ∀ j ∈ b.front.jumps ++ b.early, j.branch ≠ .ret

theorem NoReturns.front (h : b.NoReturns) (hj : j ∈ b.front.jumps) : j.branch ≠ .ret :=
  h j (List.mem_append_left _ hj)

theorem NoReturns.early (h : b.NoReturns) (hj : j ∈ b.early) : j.branch ≠ .ret :=
  h j (List.mem_append_right _ hj)

theorem noReturns_after (hnext : ∀ j ∈ next, j.branch ≠ .ret) (hearly : ∀ j ∈ b.early, j.branch ≠ .ret) :
    { b with front := .after next }.NoReturns :=
  fun j hj => (List.mem_append.1 hj).elim (hnext j) (hearly j)

theorem NoReturns.push (h : b.NoReturns) (s : Stmt) : (b.push s).NoReturns := by
  intro j hj
  rw [push_front, early_push] at hj
  rcases List.mem_append.1 hj with hj | hj
  · rw [List.mem_singleton.1 hj]
    nofun
  · exact h.early hj

theorem NoReturns.pushTest (h : b.NoReturns) (s : Stmt) (i : Nat) : (b.pushLast s [⟨i, .ifTrue⟩]).NoReturns :=
  noReturns_after (by simp) fun _ hj => (h.push s).early hj

theorem noReturns_enterLoop (b : Builder) (s : Stmt) : (b.enterLoop s).NoReturns := by
  simp [NoReturns, enterLoop, Builder.early, Front.jumps]

theorem noReturns_run :
    (∀ s b b', stmt b s = .ok b' → b.NoReturns → b'.NoReturns) ∧
      ∀ l b b', stmts b l = .ok b' → b.NoReturns → b'.NoReturns := by
  apply run_induction
  case plain => exact fun b s _ hb => hb.push s
  case block => exact fun b t body b' h => h
  case ifThen =>
    intro b t c yes b' _ ih hb
    have hyes := ih (hb.pushTest _ _)
    refine noReturns_after (fun j hj => ?_) fun j hj => hyes.early hj
    rcases List.mem_append.1 hj with hj | hj
    · exact hyes.front hj
    · rw [List.mem_singleton.1 hj]
      simp
  case ifElse =>
    intro b t c yes no b₁ b₂ _ ih₁ _ ih₂ hb
    have hyes := ih₁ (hb.pushTest _ _)
    have hno := ih₂ (noReturns_after (by simp) fun j hj => hyes.early hj)
    refine noReturns_after (fun j hj => ?_) fun j hj => hno.early hj
    exact (List.mem_append.1 hj).elim hyes.front hno.front
  case loop =>
    intro b t c body b' _ ih hb
    have hbody : b'.NoReturns := ih (noReturns_enterLoop b _)
    intro j hj
    rcases List.mem_append.1 hj with hj | hj
    · rcases List.mem_cons.1 hj with rfl | hj
      · simp
      · exact hbody.early (List.mem_append_left _ hj)
    · exact hb.early hj
  case ret => exact fun b t value hb j hj => (hb.push (.ret t value)).early hj
  case brk =>
    intro b t jumps hl hb j hj
    have hj : j ∈ jumps.breaks ++ [⟨b.nextBlock, .brk⟩] ++ jumps.continues := hj
    simp only [List.mem_append, List.mem_singleton] at hj
    rcases hj with (hj | rfl) | hj
    · exact hb.early (by rw [Builder.early, hl]; exact List.mem_append_left _ hj)
    · simp
    · exact hb.early (by rw [Builder.early, hl]; exact List.mem_append_right _ hj)
  case cont =>
    intro b t jumps hl hb j hj
    have hj : j ∈ jumps.breaks ++ (jumps.continues ++ [⟨b.nextBlock, .cont⟩]) := hj
    simp only [List.mem_append, List.mem_singleton] at hj
    rcases hj with hj | hj | rfl
    · exact hb.early (by rw [Builder.early, hl]; exact List.mem_append_left _ hj)
    · exact hb.early (by rw [Builder.early, hl]; exact List.mem_append_right _ hj)
    · simp
  case nil => exact fun b hb => hb
  case cons => exact fun b s rest b₁ b₂ _ ih₁ ih₂ hb => ih₂ (ih₁ hb)

theorem incoming_push (b : Builder) (s : Stmt) (i : Nat) : (b.push s).graph.incoming i =
    if i = b.nextBlock then
      (b.entering.map fun j => ⟨j.source, b.nextBlock, j.branch⟩).reverse ++ b.graph.incoming i
    else b.graph.incoming i := by
  unfold push entering nextBlock
  cases b.front with
  | inBlock k => simp [Graph.incoming, graph]
  | after jumps => exact incoming_addEdges _ _ _ _

theorem Shaped.source_lt_nextBlock (h : b.Shaped) (hj : j ∈ b.entering) : j.source < b.nextBlock := by
  have hlt := (h.entering j hj).continues.lt
  unfold Builder.entering at hj
  unfold nextBlock
  cases hf : b.front with
  | inBlock i =>
      rw [hf] at hj
      exact absurd hj List.not_mem_nil
  | after jumps => exact hlt

theorem Shaped.not_isHead_nextBlock (h : b.Shaped) : ¬ b.graph.IsHead b.nextBlock := by
  rintro ⟨t, c, body, hstmts⟩
  have hplain := h.plain_nextBlock (.loop t c body) (hstmts ▸ List.mem_cons_self)
  cases hplain

theorem Shaped.isHead_push (h : b.Shaped) (s : Stmt) {i : Nat} (hi : b.graph.IsHead i) :
    (b.push s).graph.IsHead i := by
  obtain ⟨t, c, body, hstmts⟩ := hi
  refine ⟨t, c, body, ?_⟩
  rw [stmts_push h.inRange, if_neg, hstmts]
  rintro rfl
  exact h.not_isHead_nextBlock ⟨t, c, body, hstmts⟩

theorem Shaped.nextBlock_ne_exit (h : b.Shaped) : b.nextBlock ≠ Graph.exit := by
  unfold nextBlock
  cases hf : b.front with
  | inBlock i => exact h.graph.continues_ne_exit ⟨h.inRange i hf, Or.inr (h.opened i hf).kind⟩
  | after jumps => exact Nat.ne_of_gt h.graph.exit_lt

theorem Shaped.incoming_nextBlock (h : b.Shaped) (hd : b.graph.Directed) (s : Stmt) :
    ∀ e ∈ (b.push s).graph.incoming b.nextBlock, e.source < b.nextBlock := by
  intro e he
  rw [incoming_push, if_pos rfl] at he
  rcases List.mem_append.1 he with he | he
  · obtain ⟨j, hj, rfl⟩ := List.mem_map.1 (List.mem_reverse.1 he)
    exact h.source_lt_nextBlock hj
  · obtain ⟨he, htarget⟩ := List.mem_filter.1 he
    have htarget : e.target = b.nextBlock := of_decide_eq_true htarget
    have hforward := (hd.edges e he).forward
    rw [htarget] at hforward
    exact (hforward h.nextBlock_ne_exit).resolve_right h.not_isHead_nextBlock

theorem Shaped.directed_push (h : b.Shaped) (hd : b.graph.Directed) (hret : b.NoReturns)
    (halone : ∀ t c body, s = .loop t c body → b.graph.stmts b.nextBlock = []) :
    (b.push s).graph.Directed := by
  refine ⟨fun e he => ?_, fun i hi => ?_⟩
  · have hkind : ((b.push s).graph.block e.source).kind = (b.graph.block e.source).kind := by
      rw [block_push h.inRange, if_neg (h.source_ne_nextBlock he)]
    rcases mem_edges_push.1 he with he | ⟨j, hj, rfl⟩
    · exact (hd.edges e he).mono hkind fun i => h.isHead_push s
    · refine ⟨fun hb => absurd hb (hret.front ?_), fun hk => ?_, fun _ => Or.inl (h.source_lt_nextBlock hj)⟩
      · rw [jumps_front]
        exact List.mem_append_right _ hj
      · exact absurd (hkind.symm.trans hk) (h.entering j hj).continues.ne_latch
  · by_cases hn : i = b.nextBlock
    · subst hn
      have hkind := (h.continues_nextBlock s).ne_latch
      refine ⟨fun t c body hmem => ?_, fun hk => absurd hk hkind, fun _ => ?_⟩
      · rw [stmts_push h.inRange, if_pos rfl] at hmem ⊢
        rcases List.mem_append.1 hmem with hmem | hmem
        · exact absurd (h.plain_nextBlock _ hmem) (by simp [Stmt.endsBlock])
        · have hs := (List.mem_singleton.1 hmem).symm
          rw [halone t c body hs, hs, List.nil_append]
      · rw [Graph.returning_eq_nil (h.incoming_nextBlock hd s)]
        exact Nat.zero_le 1
    · refine (hd.blocks i ((lt_size_push hi).resolve_right hn)).congr ?_ ?_ ?_
      · rw [block_push h.inRange, if_neg hn]
      · rw [stmts_push h.inRange, if_neg hn]
      · rw [incoming_push, if_neg hn]

theorem directed_addEdge_head {head : Nat} (hd : b.graph.Directed) (hhead : b.graph.IsHead head)
    (hnone : b.graph.returning head = []) (hret : j.branch ≠ .ret) : (b.addEdge j head).graph.Directed := by
  refine ⟨fun e he => ?_, fun i hi => ?_⟩
  · rcases List.mem_cons.1 he with rfl | he
    · exact ⟨fun hb => absurd hb hret, fun _ => hhead, fun _ => Or.inr hhead⟩
    · exact (hd.edges e he).mono rfl fun _ hi => hi
  · have hin := incoming_addEdge b j head i
    have hold := hd.blocks i hi
    by_cases hn : i = head
    · subst hn
      rw [if_pos rfl] at hin
      refine ⟨hold.alone, fun hk => ?_, fun _ => ?_⟩
      · rw [hin, List.length_cons]
        exact Nat.le_succ_of_le (hold.joined hk)
      · rw [Graph.returning, hin, List.filter_cons]
        unfold Graph.returning at hnone
        split <;> simp [hnone]
    · rw [if_neg hn] at hin
      exact hold.congr rfl rfl hin

theorem entered_latch {ends : List Jump} (hg : b.graph.WellFormed) (htwo : 2 ≤ ends.length)
    (hends : ∀ j ∈ ends, b.graph.Continues j.source) :
    (b.addBlock { kind := .latch } ends).graph.Entered b.blocks.size := by
  have hstmts : (b.addBlock { kind := .latch } ends).graph.stmts b.blocks.size = [] :=
    congrArg Block.stmts (block_addBlock_self b _ _)
  have hin := incoming_addBlock hg { kind := .latch } ends
  refine ⟨fun t c body hmem => ?_, fun _ => ?_, fun _ => ?_⟩
  · rw [hstmts] at hmem
    exact absurd hmem List.not_mem_nil
  · rw [hin, List.length_reverse, List.length_map]
    exact htwo
  · rw [Graph.returning_eq_nil fun e he => ?_]
    · exact Nat.zero_le 1
    · rw [hin] at he
      obtain ⟨j, hj, rfl⟩ := List.mem_map.1 (List.mem_reverse.1 he)
      exact (hends j hj).lt

theorem directed_addLatch {ends : List Jump} (hg : b.graph.WellFormed) (hd : b.graph.Directed)
    (htwo : 2 ≤ ends.length) (hends : ∀ j ∈ ends, b.graph.Continues j.source)
    (hret : ∀ j ∈ ends, j.branch ≠ .ret) : (b.addBlock { kind := .latch } ends).graph.Directed := by
  have hold {i : Nat} (hi : i < b.graph.size) :
      (b.addBlock { kind := .latch } ends).graph.block i = b.graph.block i := block_addBlock_lt b _ _ hi
  have hhead (i : Nat) (hi : b.graph.IsHead i) : (b.addBlock { kind := .latch } ends).graph.IsHead i := by
    obtain ⟨t, c, body, hstmts⟩ := hi
    have hlt := Graph.lt_size_of_mem_stmts (hstmts ▸ List.mem_cons_self)
    exact ⟨t, c, body, (congrArg Block.stmts (hold hlt)).trans hstmts⟩
  refine ⟨fun e he => ?_, fun i hi => ?_⟩
  · rcases mem_edges_addEdges.1 he with he | ⟨j, hj, rfl⟩
    · exact (hd.edges e he).mono (congrArg Block.kind (hold (hg.edges e he).source_lt)) hhead
    · have hlt := (hends j hj).lt
      refine ⟨fun hb => absurd hb (hret j hj), fun hk => ?_, fun _ => Or.inl hlt⟩
      exact absurd ((congrArg Block.kind (hold hlt)).symm.trans hk) (hends j hj).ne_latch
  · rw [Graph.size, graph, size_addBlock] at hi
    rcases Nat.lt_succ_iff_lt_or_eq.1 hi with hi | rfl
    · exact (hd.blocks i hi).congr (congrArg Block.kind (hold hi)) (congrArg Block.stmts (hold hi))
        ((incoming_addEdges _ _ _ _).trans (if_neg (Nat.ne_of_lt hi)))
    · exact entered_latch hg htwo hends

theorem directed_closeLoop {ends : List Jump} {head : Nat} (hg : b.graph.WellFormed) (hd : b.graph.Directed)
    (hends : ∀ j ∈ ends, b.graph.Continues j.source) (hret : ∀ j ∈ ends, j.branch ≠ .ret)
    (hhead : b.graph.IsHead head) (hnone : b.graph.returning head = []) :
    (b.closeLoop ends head).graph.Directed := by
  match ends with
  | [] => exact hd
  | [j] =>
      refine directed_addEdge_head (j := closing j) hd hhead hnone ?_
      have hj := hret j List.mem_cons_self
      unfold closing
      split
      · nofun
      · exact hj
  | j :: k :: rest =>
      have hlatch := directed_addLatch hg hd (Nat.le_add_left 2 _) hends hret
      obtain ⟨t, c, body, hstmts⟩ := hhead
      have hlt := Graph.lt_size_of_mem_stmts (hstmts ▸ List.mem_cons_self)
      have hne : head ≠ b.blocks.size := Nat.ne_of_lt hlt
      refine directed_addEdge_head hlatch ⟨t, c, body, ?_⟩ ?_ nofun
      · exact (congrArg Block.stmts (block_addBlock_lt b _ _ hlt)).trans hstmts
      · rw [← hnone]
        exact congrArg (List.filter _) ((incoming_addEdges _ _ _ _).trans (if_neg hne))

theorem Shaped.returning_head (h : b.Shaped) (hd : b.graph.Directed) {body : Stmt}
    (hrun : (b.enterLoop s).stmt body = .ok b') : b'.graph.returning b.blocks.size = [] := by
  have hlt := (departs_enterLoop h s .ifTrue).continues.lt
  have hne : b.blocks.size ≠ Graph.exit := Nat.ne_of_gt h.graph.exit_lt
  have hin : (b.enterLoop s).graph.incoming b.blocks.size =
      ({ b with front := .after b.front.jumps }.push s).graph.incoming b.blocks.size := by
    rw [enterLoop_eq]
    rfl
  apply Graph.returning_eq_nil
  rw [(spares_run.1 _ _ _ hrun).incoming _ hlt hne, hin]
  exact h.closed.incoming_nextBlock hd s

theorem Shaped.directed_enterLoop (h : b.Shaped) (hret : b.NoReturns) (hd : b.graph.Directed) (s : Stmt) :
    (b.enterLoop s).graph.Directed := by
  rw [enterLoop_eq]
  exact h.closed.directed_push hd hret fun _ _ _ _ => Graph.stmts_of_le (Nat.le_refl _)

theorem Shaped.continues_ends (h : b.Shaped) (hj : j ∈ b.front.jumps ++ (b.inLoop.getD {}).continues) :
    b.graph.Continues j.source := by
  rcases List.mem_append.1 hj with hj | hj
  · exact h.continues hj
  · exact (h.early j (List.mem_append_right _ hj)).continues

theorem Shaped.directed_leaveLoop {t : Tag} {c : Expr} {body : Stmt} (h : b.Shaped)
    (hd : b.graph.Directed) (hrun : (b.enterLoop (.loop t c body)).stmt body = .ok b')
    (hd' : b'.graph.Directed) : (b.leaveLoop b').graph.Directed := by
  have henter := h.enterLoop (.loop t c body)
  have h' := shaped_run.1 _ _ _ hrun henter
  have hkeep := (keeps_run.1 _ _ _ hrun henter.inRange).2
  have hhead : b'.graph.stmts b.blocks.size = [.loop t c body] :=
    (hkeep.stmts (departs_enterLoop h _ .ifTrue)).trans (stmts_enterLoop b _)
  have hret : b'.NoReturns := noReturns_run.1 _ _ _ hrun (noReturns_enterLoop b _)
  refine directed_closeLoop h'.graph hd' (fun j hj => h'.continues_ends hj) (fun j hj => ?_) ⟨t, c, body, hhead⟩
    (h.returning_head hd hrun)
  · rcases List.mem_append.1 hj with hj | hj
    · exact hret.front hj
    · exact hret.early (List.mem_append_right _ hj)

/-- The builder is in shape, and its edges and jumps go where they may go. -/
structure Aimed (b : Builder) : Prop where
  shaped : b.Shaped
  noReturns : b.NoReturns
  directed : b.graph.Directed

theorem Aimed.pushTest (h : b.Aimed) (hs : ∀ t c body, s ≠ .loop t c body) :
    (b.pushLast s [⟨b.nextBlock, .ifTrue⟩]).Aimed :=
  ⟨h.shaped.pushTest _ _, h.noReturns.pushTest _ _,
    h.shaped.directed_push h.directed h.noReturns fun t c body he => absurd he (hs t c body)⟩

theorem Aimed.secondBranch {yes : Stmt} (h : b.Aimed)
    (hrun : (b.pushLast s [⟨b.nextBlock, .ifTrue⟩]).stmt yes = .ok b') (h' : b'.Aimed) :
    { b' with front := .after [⟨b.nextBlock, .ifFalse⟩] }.Aimed :=
  ⟨h.shaped.secondBranch hrun h'.shaped, noReturns_after (by simp) fun _ hj => h'.noReturns.early hj, h'.directed⟩

theorem Aimed.closed (h : b.Aimed) : { b with front := .after b.front.jumps }.Aimed :=
  ⟨h.shaped.closed, h.noReturns, h.directed⟩

theorem Aimed.enterLoop (h : b.Aimed) (s : Stmt) : (b.enterLoop s).Aimed :=
  ⟨h.shaped.enterLoop s, noReturns_enterLoop b s, h.shaped.directed_enterLoop h.noReturns h.directed s⟩

theorem directed_run :
    (∀ s b b', stmt b s = .ok b' → b.Aimed → b'.graph.Directed) ∧
      ∀ l b b', stmts b l = .ok b' → b.Aimed → b'.graph.Directed := by
  apply run_induction
  case plain =>
    intro b s hs hb
    refine hb.shaped.directed_push hb.directed hb.noReturns fun t c body he => ?_
    rw [he] at hs
    exact absurd hs.2 (by simp [Stmt.endsBlock])
  case block => exact fun b t body b' h => h
  case ifThen => exact fun b t c yes b' _ ih hb => ih (hb.pushTest (by simp))
  case ifElse =>
    intro b t c yes no b₁ b₂ hrun₁ ih₁ _ ih₂ hb
    have htest : (b.pushLast (.ifElse t c yes no) [⟨b.nextBlock, .ifTrue⟩]).Aimed := hb.pushTest (by simp)
    have hyes : b₁.Aimed :=
      ⟨shaped_run.1 _ _ _ hrun₁ htest.shaped, noReturns_run.1 _ _ _ hrun₁ htest.noReturns, ih₁ htest⟩
    exact ih₂ (hb.secondBranch hrun₁ hyes)
  case loop => exact fun b t c body b' hrun ih hb => hb.shaped.directed_leaveLoop hb.directed hrun (ih (hb.enterLoop _))
  case ret =>
    intro b t value hb
    have hpush := hb.shaped.directed_push (s := .ret t value) hb.directed hb.noReturns (by simp)
    refine hpush.toExit rfl (fun _ => rfl) (fun _ => rfl) (fun e he => ?_) (fun i hi => ?_) ?_
    · rcases List.mem_cons.1 he with rfl | he
      · exact Or.inr ⟨rfl, (hb.shaped.continues_nextBlock _).ne_latch⟩
      · exact Or.inl he
    · exact (incoming_addEdge _ _ _ i).trans (if_neg hi)
    · exact (hb.shaped.wellFormed_push _).kind_exit_ne
  case brk => exact fun b t _ _ hb => hb.shaped.directed_push (s := .brk t) hb.directed hb.noReturns (by simp)
  case cont => exact fun b t _ _ hb => hb.shaped.directed_push (s := .cont t) hb.directed hb.noReturns (by simp)
  case nil => exact fun b hb => hb.directed
  case cons =>
    intro b s rest b₁ b₂ hrun ih₁ ih₂ hb
    exact ih₂ ⟨shaped_run.1 _ _ _ hrun hb.shaped, noReturns_run.1 _ _ _ hrun hb.noReturns, ih₁ hb⟩

theorem Aimed.run (h : b.Aimed) (hrun : b.stmt s = .ok b') : b'.Aimed :=
  ⟨shaped_run.1 _ _ _ hrun h.shaped, noReturns_run.1 _ _ _ hrun h.noReturns, directed_run.1 _ _ _ hrun h⟩

theorem aimed_start : start.Aimed := by
  refine ⟨shaped_start, by simp [NoReturns, start, Front.jumps, Builder.early],
    fun e he => absurd he List.not_mem_nil, fun i hi => ?_⟩
  obtain rfl | rfl : i = Graph.entry ∨ i = Graph.exit := Nat.le_one_iff_eq_zero_or_eq_one.1 (Nat.le_of_lt_succ hi)
  · exact Graph.entered_of_empty rfl (by decide) rfl
  · exact Graph.entered_of_empty rfl (by decide) rfl

end Builder

namespace Graph

theorem directed_of_build {m : Method} {g : Graph} (h : build m = .ok g) : g.Directed := by
  obtain ⟨b, hrun, hb, rfl⟩ := build_eq_finish h
  have hd := Builder.directed_run.2 _ _ _ hrun Builder.aimed_start
  refine hd.toExit (Builder.size_finish b) (Builder.kind_finish b) (Builder.stmts_finish b) (fun e he => ?_)
    (fun i hi => ?_) hb.graph.kind_exit_ne
  · rcases Builder.mem_edges_finish.1 he with he | ⟨j, hj, rfl⟩
    · exact Or.inl he
    · exact Or.inr ⟨rfl, (hb.continues hj).ne_latch⟩
  · exact (Builder.incoming_addEdges _ _ _ _).trans (if_neg hi)

end Graph

end Backflow
