import Backflow.Proofs.Growth

namespace Backflow

/-- The block at index `i` has the kind that its place asks for, holds statements exactly if it is basic,
and only its last statement sends control elsewhere. -/
structure Block.Fits (b : Block) (i : Nat) : Prop where
  entry_iff : b.kind = .entry ↔ i = Graph.entry
  exit_iff : b.kind = .exit ↔ i = Graph.exit
  basic_iff : b.kind = .basic ↔ b.stmts ≠ []
  early : ∀ s ∈ b.stmts.dropLast, s.endsBlock = false

/-- The edge joins two of the first `size` blocks, and neither leaves the exit nor enters the entry. -/
structure Edge.Fits (e : Edge) (size : Nat) : Prop where
  source_lt : e.source < size
  target_lt : e.target < size
  source_ne : e.source ≠ Graph.exit
  target_ne : e.target ≠ Graph.entry

theorem Edge.Fits.mono {e : Edge} {n m : Nat} (h : e.Fits n) (hle : n ≤ m) : e.Fits m :=
  ⟨Nat.lt_of_lt_of_le h.source_lt hle, Nat.lt_of_lt_of_le h.target_lt hle, h.source_ne, h.target_ne⟩

namespace Graph

structure WellFormed (g : Graph) : Prop where
  exit_lt : exit < g.size
  blocks : ∀ i < g.size, (g.block i).Fits i
  edges : ∀ e ∈ g.edges, e.Fits g.size

theorem WellFormed.closed {g : Graph} (h : g.WellFormed) : g.Closed :=
  fun e he => ⟨(h.edges e he).source_lt, (h.edges e he).target_lt⟩

theorem WellFormed.size_pos {g : Graph} (h : g.WellFormed) : 0 < g.size :=
  Nat.lt_trans Nat.zero_lt_one h.exit_lt

theorem WellFormed.continues_ne_exit {g : Graph} (h : g.WellFormed) {i : Nat} (hi : g.Continues i) :
    i ≠ exit := by
  intro he
  have hexit := (h.blocks i hi.lt).exit_iff.2 he
  rcases hi.kind with hk | hk
  · rw [hk] at hexit; cases hexit
  · rw [hk] at hexit; cases hexit

theorem WellFormed.fits_size {g : Graph} (h : g.WellFormed) {b : Block} (hentry : b.kind ≠ .entry)
    (hexit : b.kind ≠ .exit) (hbasic : b.kind = .basic ↔ b.stmts ≠ [])
    (hearly : ∀ s ∈ b.stmts.dropLast, s.endsBlock = false) : b.Fits g.size := by
  refine ⟨⟨fun hk => absurd hk hentry, fun he => ?_⟩, ⟨fun hk => absurd hk hexit, fun he => ?_⟩,
    hbasic, hearly⟩
  · exact absurd he (Nat.ne_of_gt h.size_pos)
  · exact absurd he (Nat.ne_of_gt h.exit_lt)

end Graph

namespace Builder

variable {b : Builder} {s : Stmt} {j : Jump} {jumps next : List Jump}

structure Opened (b : Builder) (i : Nat) : Prop where
  last : i + 1 = b.blocks.size
  kind : (b.graph.block i).kind = .basic
  plain : ∀ s ∈ b.graph.stmts i, s.endsBlock = false
  source_ne : ∀ e ∈ b.edges, e.source ≠ i

def early (b : Builder) : List Jump := (b.inLoop.getD {}).breaks ++ (b.inLoop.getD {}).continues

/-- What holds of the builder between two statements. -/
structure Shaped (b : Builder) : Prop where
  graph : b.graph.WellFormed
  opened : ∀ i, b.front = .inBlock i → b.Opened i
  entering : ∀ j ∈ b.entering, b.Departs j
  early : ∀ j ∈ b.early, b.Departs j

theorem Shaped.inRange (h : b.Shaped) : b.InRange := by
  intro i hi
  have := (h.opened i hi).last
  omega

theorem Shaped.continues (h : b.Shaped) (hj : j ∈ b.front.jumps) : b.graph.Continues j.source := by
  cases hf : b.front with
  | inBlock i =>
      rw [hf] at hj
      rw [List.mem_singleton.1 hj]
      exact ⟨h.inRange i hf, Or.inr (h.opened i hf).kind⟩
  | after jumps =>
      refine (h.entering j ?_).continues
      rw [hf] at hj
      rwa [Builder.entering, hf]

theorem Shaped.nextBlock_ne_entry (h : b.Shaped) : b.nextBlock ≠ Graph.entry := by
  unfold nextBlock
  cases hf : b.front with
  | inBlock i =>
      intro he
      have hentry := (h.graph.blocks i (h.inRange i hf)).entry_iff.2 he
      rw [(h.opened i hf).kind] at hentry
      cases hentry
  | after jumps => exact Nat.ne_of_gt h.graph.size_pos

theorem Shaped.plain_nextBlock (h : b.Shaped) : ∀ s ∈ b.graph.stmts b.nextBlock, s.endsBlock = false := by
  unfold nextBlock
  cases hf : b.front with
  | inBlock i => exact (h.opened i hf).plain
  | after jumps =>
      have hnil : b.graph.stmts b.blocks.size = [] := Graph.stmts_of_le (Nat.le_refl _)
      exact fun s hs => absurd (hnil ▸ hs) List.not_mem_nil

theorem Shaped.source_ne_nextBlock (h : b.Shaped) {e : Edge} (he : e ∈ (b.push s).edges) :
    e.source ≠ b.nextBlock := by
  rcases mem_edges_push.1 he with he | ⟨j, hj, rfl⟩
  · unfold nextBlock
    cases hf : b.front with
    | inBlock i => exact (h.opened i hf).source_ne e he
    | after jumps => exact Nat.ne_of_lt (h.graph.edges e he).source_lt
  · exact (h.entering j hj).ne_nextBlock

theorem Shaped.nextBlock_last (h : b.Shaped) (s : Stmt) : b.nextBlock + 1 = (b.push s).blocks.size := by
  unfold push nextBlock
  cases hf : b.front with
  | inBlock i => simpa using (h.opened i hf).last
  | after jumps => simp [size_addBlock]

theorem Shaped.fits_nextBlock (h : b.Shaped) (s : Stmt) :
    ((b.push s).graph.block b.nextBlock).Fits b.nextBlock := by
  have hearly := h.plain_nextBlock
  rw [block_push h.inRange, if_pos rfl]
  unfold nextBlock at hearly ⊢
  cases hf : b.front with
  | inBlock i =>
      have hi := h.graph.blocks i (h.inRange i hf)
      rw [hf] at hearly
      refine ⟨hi.entry_iff, hi.exit_iff, ?_, ?_⟩
      · simp [(h.opened i hf).kind]
      · simpa using hearly
  | after jumps => exact h.graph.fits_size nofun nofun (by simp) (by simp)

theorem Shaped.wellFormed_push (h : b.Shaped) (s : Stmt) : (b.push s).graph.WellFormed := by
  refine ⟨Nat.lt_of_lt_of_le h.graph.exit_lt (size_le_push b s), fun i hi => ?_, fun e he => ?_⟩
  · by_cases hn : i = b.nextBlock
    · rw [hn]
      exact h.fits_nextBlock s
    · rw [block_push h.inRange, if_neg hn]
      exact h.graph.blocks i ((lt_size_push hi).resolve_right hn)
  · rcases mem_edges_push.1 he with he | ⟨j, hj, rfl⟩
    · exact (h.graph.edges e he).mono (size_le_push b s)
    · have hc := (h.entering j hj).continues
      exact ⟨Nat.lt_of_lt_of_le hc.lt (size_le_push b s), nextBlock_lt_push h.inRange s,
        h.graph.continues_ne_exit hc, h.nextBlock_ne_entry⟩

theorem Shaped.continues_nextBlock (h : b.Shaped) (s : Stmt) : (b.push s).graph.Continues b.nextBlock := by
  refine ⟨nextBlock_lt_push h.inRange s, Or.inr ((h.fits_nextBlock s).basic_iff.2 ?_)⟩
  change (b.push s).graph.stmts b.nextBlock ≠ []
  rw [stmts_push h.inRange, if_pos rfl]
  simp

theorem Shaped.basic_nextBlock (h : b.Shaped) (s : Stmt) : ((b.push s).graph.block b.nextBlock).kind = .basic := by
  refine (h.continues_nextBlock s).kind.resolve_left fun hk => ?_
  exact h.nextBlock_ne_entry ((h.fits_nextBlock s).entry_iff.1 hk)

theorem early_push (b : Builder) (s : Stmt) : (b.push s).early = b.early := by
  rw [early, push_inLoop, early]

theorem Shaped.push (h : b.Shaped) (hs : s.endsBlock = false) : (b.push s).Shaped := by
  refine ⟨h.wellFormed_push s, fun i hi => ?_, ?_, ?_⟩
  · rw [push_front] at hi
    cases hi
    refine ⟨h.nextBlock_last s, h.basic_nextBlock s, ?_, fun e he => h.source_ne_nextBlock he⟩
    rw [stmts_push h.inRange, if_pos rfl]
    intro t ht
    rcases List.mem_append.1 ht with ht | ht
    · exact h.plain_nextBlock t ht
    · rwa [List.mem_singleton.1 ht]
  · rw [Builder.entering, push_front]
    exact fun j hj => absurd hj List.not_mem_nil
  · rw [early_push]
    exact fun j hj => (keeps_push h.inRange s).departs (h.early j hj)

theorem Departs.of_after (hf : b.front = .after next) (hj : b.graph.Continues j.source) : b.Departs j :=
  ⟨hj, by rw [hf]; nofun⟩

theorem Shaped.of_after (hf : b.front = .after next) (hg : b.graph.WellFormed)
    (hnext : ∀ j ∈ next, b.graph.Continues j.source) (hearly : ∀ j ∈ b.early, b.graph.Continues j.source) :
    b.Shaped := by
  refine ⟨hg, ?_, ?_, fun j hj => .of_after hf (hearly j hj)⟩
  · rw [hf]
    nofun
  · rw [Builder.entering, hf]
    exact fun j hj => .of_after hf (hnext j hj)

theorem Shaped.after (h : b.Shaped) (hnext : ∀ j ∈ next, b.graph.Continues j.source) :
    { b with front := .after next }.Shaped :=
  .of_after rfl h.graph hnext fun j hj => (h.early j hj).continues

theorem Shaped.pushLast (h : b.Shaped) (s : Stmt) (next : List Jump)
    (hnext : ∀ j ∈ next, j.source = b.nextBlock) : (b.pushLast s next).Shaped := by
  refine .of_after rfl (h.wellFormed_push s) (fun j hj => ?_) fun j hj => ?_
  · rw [hnext j hj]
    exact h.continues_nextBlock s
  · refine ((keeps_push h.inRange s).departs (h.early j ?_)).continues
    rwa [← early_push b s]

theorem Shaped.pushTest (h : b.Shaped) (s : Stmt) (k : Branch) :
    (b.pushLast s [⟨b.nextBlock, k⟩]).Shaped :=
  h.pushLast s _ fun _ hj => congrArg Jump.source (List.mem_singleton.1 hj)

theorem departs_pushLast (h : b.Shaped) (s : Stmt) (next : List Jump) (k : Branch) :
    (b.pushLast s next).Departs ⟨b.nextBlock, k⟩ := .of_after rfl (h.continues_nextBlock s)

theorem Shaped.leave (h : b.Shaped) (s : Stmt) {l : LoopJumps}
    (hl : ∀ j ∈ l.breaks ++ l.continues, j ∈ b.early ∨ j.source = b.nextBlock) :
    { b.pushLast s [] with inLoop := some l }.Shaped := by
  refine .of_after rfl (h.wellFormed_push s) nofun fun j hj => ?_
  rcases hl j hj with hj | hj
  · exact ((keeps_push h.inRange s).departs (h.early j hj)).continues
  · rw [hj]
    exact h.continues_nextBlock s

theorem enterLoop_eq (b : Builder) (s : Stmt) : b.enterLoop s =
    { { b with front := .after b.front.jumps }.pushLast s [⟨b.blocks.size, .ifTrue⟩] with
      inLoop := some {} } := by
  simp [enterLoop, pushLast, push, addBlock, addEdges_eq]

theorem Shaped.closed (h : b.Shaped) : { b with front := .after b.front.jumps }.Shaped :=
  h.after fun _ hj => h.continues hj

theorem Shaped.enterLoop (h : b.Shaped) (s : Stmt) : (b.enterLoop s).Shaped := by
  have hpush := h.closed.pushTest s .ifTrue
  rw [enterLoop_eq]
  refine .of_after rfl hpush.graph (fun j hj => (hpush.entering j hj).continues) ?_
  exact fun j hj => absurd hj List.not_mem_nil

theorem departs_enterLoop (h : b.Shaped) (s : Stmt) (k : Branch) :
    (b.enterLoop s).Departs ⟨b.blocks.size, k⟩ := by
  rw [enterLoop_eq]
  exact .of_after rfl (h.closed.continues_nextBlock s)

theorem wellFormed_addEdge {target : Nat} (h : b.graph.WellFormed)
    (he : Edge.Fits ⟨j.source, target, j.branch⟩ b.blocks.size) : (b.addEdge j target).graph.WellFormed := by
  refine ⟨h.exit_lt, h.blocks, fun e hmem => ?_⟩
  rcases List.mem_cons.1 hmem with rfl | hmem
  · exact he
  · exact h.edges e hmem

theorem wellFormed_addBlock {block : Block} (h : b.graph.WellFormed) (hblock : block.Fits b.blocks.size)
    (hjumps : ∀ j ∈ jumps, b.graph.Continues j.source) : (b.addBlock block jumps).graph.WellFormed := by
  have hsize : b.graph.size ≤ (b.addBlock block jumps).graph.size := by
    rw [Graph.size, Graph.size, graph, graph, size_addBlock]
    exact Nat.le_succ _
  refine ⟨Nat.lt_of_lt_of_le h.exit_lt hsize, fun i hi => ?_, fun e he => ?_⟩
  · rw [block_addBlock]
    by_cases hn : i = b.blocks.size
    · rw [if_pos hn, hn]
      exact hblock
    · rw [Graph.size, graph, size_addBlock] at hi
      rw [if_neg hn]
      exact h.blocks i (Nat.lt_of_le_of_ne (Nat.le_of_lt_succ hi) hn)
  · rcases mem_edges_addEdges.1 he with he | ⟨j, hj, rfl⟩
    · exact (h.edges e he).mono hsize
    · refine ⟨Nat.lt_of_lt_of_le (hjumps j hj).lt hsize, ?_, h.continues_ne_exit (hjumps j hj), ?_⟩
      · rw [Graph.size, graph, size_addBlock]
        exact Nat.lt_succ_self _
      · exact Nat.ne_of_gt h.size_pos

def closing (j : Jump) : Jump := if j.branch = .sequence then { j with branch := .back } else j

theorem closing_source (j : Jump) : (closing j).source = j.source := by
  unfold closing
  split <;> rfl

theorem wellFormed_closeLoop {ends : List Jump} {head : Nat} (h : b.graph.WellFormed)
    (hends : ∀ j ∈ ends, b.graph.Continues j.source) (hlt : head < b.blocks.size)
    (hne : head ≠ Graph.entry) : (b.closeLoop ends head).graph.WellFormed := by
  match ends with
  | [] => exact h
  | [j] =>
      have hj := hends j List.mem_cons_self
      have hsource := closing_source j
      refine wellFormed_addEdge (j := closing j) h ⟨?_, hlt, ?_, hne⟩
      · rw [hsource]
        exact hj.lt
      · rw [hsource]
        exact h.continues_ne_exit hj
  | j :: k :: rest =>
      have hlatch : Block.Fits { kind := .latch } b.blocks.size :=
        h.fits_size nofun nofun (by simp) (by simp)
      refine wellFormed_addEdge (wellFormed_addBlock h hlatch hends) ⟨?_, ?_, ?_, hne⟩
      · rw [size_addBlock]
        exact Nat.lt_succ_self _
      · rw [size_addBlock]
        exact Nat.lt_succ_of_lt hlt
      · exact Nat.ne_of_gt h.exit_lt

theorem Shaped.leaveLoop {inner : Builder} (h : inner.Shaped) (b : Builder)
    (hhead : ∀ k, inner.Departs ⟨b.blocks.size, k⟩) (hne : b.blocks.size ≠ Graph.entry)
    (hearly : ∀ j ∈ b.early, inner.Departs j) : (b.leaveLoop inner).Shaped := by
  have hloop : ∀ j ∈ (inner.inLoop.getD {}).breaks ++ (inner.inLoop.getD {}).continues, inner.Departs j :=
    h.early
  have hkeep := keeps_leaveLoop b inner
  refine .of_after rfl ?_ (fun j hj => (hkeep.departs ?_).continues) fun j hj =>
    (hkeep.departs (hearly j hj)).continues
  · refine wellFormed_closeLoop h.graph (fun j hj => ?_) (hhead .ifTrue).continues.lt hne
    rcases List.mem_append.1 hj with hj | hj
    · exact h.continues hj
    · exact (hloop j (List.mem_append_right _ hj)).continues
  · rcases List.mem_cons.1 hj with rfl | hj
    · exact hhead .ifFalse
    · exact hloop j (List.mem_append_left _ hj)

theorem Shaped.secondBranch {b' : Builder} {yes : Stmt} (h : b.Shaped)
    (hrun : (b.pushLast s [⟨b.nextBlock, .ifTrue⟩]).stmt yes = .ok b') (h' : b'.Shaped) :
    { b' with front := .after [⟨b.nextBlock, .ifFalse⟩] }.Shaped := by
  have hkeep := (keeps_run.1 _ _ _ hrun (h.pushTest s .ifTrue).inRange).2
  refine h'.after fun j hj => ?_
  rw [List.mem_singleton.1 hj]
  exact (hkeep.departs (departs_pushLast h s _ .ifFalse)).continues

theorem shaped_run :
    (∀ s b b', stmt b s = .ok b' → b.Shaped → b'.Shaped) ∧
      ∀ l b b', stmts b l = .ok b' → b.Shaped → b'.Shaped := by
  apply run_induction
  case plain => exact fun b s hs hb => hb.push hs.2
  case block => exact fun b t body b' h => h
  case ifThen =>
    intro b t c yes b' hrun ih hb
    have hb' := ih (hb.pushTest _ _)
    have helse := hb.secondBranch hrun hb'
    refine hb'.after fun j hj => ?_
    rcases List.mem_append.1 hj with hj | hj
    · exact hb'.continues hj
    · exact helse.continues hj
  case ifElse =>
    intro b t c yes no b₁ b₂ hrun₁ ih₁ hrun₂ ih₂ hb
    have hb₁ := ih₁ (hb.pushTest _ _)
    have helse := hb.secondBranch hrun₁ hb₁
    have hkeep := (keeps_run.1 _ _ _ hrun₂ helse.inRange).2
    have hb₂ := ih₂ helse
    refine hb₂.after fun j hj => ?_
    rcases List.mem_append.1 hj with hj | hj
    · exact (hkeep.departs (.of_after rfl (hb₁.continues hj))).continues
    · exact hb₂.continues hj
  case loop =>
    intro b t c body b' hrun ih hb
    have henter := hb.enterLoop (.loop t c body)
    have hkeep := (keeps_run.1 _ _ _ hrun henter.inRange).2
    refine (ih henter).leaveLoop b (fun k => hkeep.departs (departs_enterLoop hb _ k)) ?_ fun j hj => ?_
    · exact Nat.ne_of_gt hb.graph.size_pos
    · exact hkeep.departs ((keeps_enterLoop b _).departs (hb.early j hj))
  case ret =>
    intro b t value hb
    have hlast := hb.pushLast (.ret t value) [] nofun
    have htest := departs_pushLast hb (.ret t value) [] .ret
    refine .of_after rfl ?_ nofun fun j hj =>
      ((keeps_addEdge _ _ _).departs (hlast.early j hj)).continues
    exact wellFormed_addEdge hlast.graph ⟨htest.continues.lt, hlast.graph.exit_lt,
      hlast.graph.continues_ne_exit htest.continues, nofun⟩
  case brk =>
    intro b t jumps hl hb
    refine hb.leave (.brk t) fun j hj => ?_
    rw [early, hl]
    simp only [List.mem_append, List.mem_singleton] at hj ⊢
    rcases hj with (hj | rfl) | hj
    · exact Or.inl (Or.inl hj)
    · exact Or.inr rfl
    · exact Or.inl (Or.inr hj)
  case cont =>
    intro b t jumps hl hb
    refine hb.leave (.cont t) fun j hj => ?_
    rw [early, hl]
    simp only [List.mem_append, List.mem_singleton] at hj ⊢
    rcases hj with hj | hj | rfl
    · exact Or.inl (Or.inl hj)
    · exact Or.inl (Or.inr hj)
    · exact Or.inr rfl
  case nil => exact fun b hb => hb
  case cons => exact fun b s rest b₁ b₂ _ ih₁ ih₂ hb => ih₂ (ih₁ hb)

end Builder

end Backflow
