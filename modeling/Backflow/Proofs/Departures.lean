import Backflow.Proofs.ControlFlow
import Mathlib.Data.List.Perm.Basic

namespace Backflow

/-- The lists of labels with which control may leave a block after this statement. One that control passes
through is left by a single edge, which is a back edge where it ends the body of a loop. -/
def Stmt.labels : Stmt → List (List Branch)
  | .ifThen _ _ _ | .ifElse _ _ _ _ | .loop _ _ _ => [[.ifTrue, .ifFalse]]
  | .ret _ _ => [[.ret]]
  | .brk _ => [[.brk]]
  | .cont _ => [[.cont]]
  | _ => [[.sequence], [.back]]

theorem Stmt.labels_of_passed {s : Stmt} (h : s.endsBlock = false) : s.labels = [[.sequence], [.back]] := by
  cases s with
  | ifThen | ifElse | loop | ret | brk | cont => cases h
  | _ => rfl

theorem Stmt.labels_cases (s : Stmt) : s.labels = [[.sequence], [.back]] ∨ ∀ l ∈ s.labels, .sequence ∉ l := by
  cases s <;> simp [labels]

namespace Block

variable {b : Block} {out out' : List Branch}

def labels (b : Block) : List (List Branch) :=
  match b.kind with
  | .exit => [[]]
  | .latch => [[.back]]
  | .entry | .basic => (b.stmts.getLast?.map Stmt.labels).getD [[.sequence], [.back]]

theorem labels_cases (b : Block) : b.labels = [[.sequence], [.back]] ∨ ∀ l ∈ b.labels, .sequence ∉ l := by
  unfold labels
  cases b.kind with
  | exit | latch => simp
  | entry | basic =>
      cases b.stmts.getLast? with
      | none => exact Or.inl rfl
      | some s => exact s.labels_cases

theorem labels_basic {s : Stmt} (hk : b.kind = .basic) (hs : b.stmts.getLast? = some s) :
    b.labels = s.labels := by
  rw [labels, hk, hs]
  rfl

def Sends (b : Block) (out : List Branch) : Prop := ∃ l ∈ b.labels, out.Perm l

theorem Sends.perm (h : b.Sends out) (hp : out'.Perm out) : b.Sends out' := by
  obtain ⟨l, hl, hout⟩ := h
  exact ⟨l, hl, hp.trans hout⟩

theorem Sends.of_sequence (h : b.Sends (.sequence :: out)) : out = [] ∧ b.Sends [.back] := by
  obtain ⟨l, hl, hperm⟩ := h
  have hmem : .sequence ∈ l := hperm.mem_iff.1 List.mem_cons_self
  rcases b.labels_cases with hb | hb
  · rw [hb] at hl
    refine ⟨?_, [.back], by simp [hb], .refl _⟩
    rcases List.mem_cons.1 hl with rfl | hl
    · exact List.length_eq_zero_iff.1 (Nat.succ.inj hperm.length_eq)
    · rw [List.mem_singleton.1 hl] at hmem
      exact absurd hmem (by decide)
  · exact absurd hmem (hb l hl)

end Block

def Edge.jump (e : Edge) : Jump := ⟨e.source, e.branch⟩

def labelsFrom (i : Nat) (jumps : List Jump) : List Branch := (jumps.filter (·.source = i)).map (·.branch)

section

variable {i : Nat} {j : Jump} {jumps jumps' : List Jump}

theorem labelsFrom_append : labelsFrom i (jumps ++ jumps') = labelsFrom i jumps ++ labelsFrom i jumps' := by
  simp [labelsFrom]

theorem labelsFrom_cons : labelsFrom i (j :: jumps) =
    if j.source = i then j.branch :: labelsFrom i jumps else labelsFrom i jumps := by
  by_cases hj : j.source = i <;> simp [labelsFrom, hj]

theorem labelsFrom_eq_nil (h : ∀ j ∈ jumps, j.source ≠ i) : labelsFrom i jumps = [] := by
  simpa [labelsFrom] using h

theorem labelsFrom_eq_map (h : ∀ j ∈ jumps, j.source = i) : labelsFrom i jumps = jumps.map (·.branch) := by
  rw [labelsFrom, List.filter_eq_self.2 fun j hj => decide_eq_true (h j hj)]

theorem labelsFrom_perm (h : jumps.Perm jumps') : (labelsFrom i jumps).Perm (labelsFrom i jumps') :=
  (h.filter _).map _

end

namespace Graph

variable {g g' : Graph} {j : Jump} {jumps jumps' rest : List Jump}

/-- The jumps are those with which control leaves the blocks, each as often as it should. -/
structure Balanced (g : Graph) (jumps : List Jump) : Prop where
  source_lt : ∀ j ∈ jumps, j.source < g.size
  sends : ∀ i < g.size, (g.block i).Sends (labelsFrom i jumps)

theorem Balanced.perm (h : g.Balanced jumps) (hblocks : g'.blocks = g.blocks) (hp : jumps'.Perm jumps) :
    g'.Balanced jumps' := by
  have hblock (i : Nat) : g'.block i = g.block i := by rw [block, hblocks, block]
  have hsize : g'.size = g.size := congrArg Array.size hblocks
  refine ⟨fun j hj => hsize ▸ h.source_lt j (hp.subset hj), fun i hi => ?_⟩
  rw [hblock]
  exact (h.sends i (hsize ▸ hi)).perm (labelsFrom_perm hp)

theorem Balanced.closing (h : g.Balanced (j :: jumps)) : g.Balanced (Builder.closing j :: jumps) := by
  unfold Builder.closing
  split
  case isFalse => exact h
  case isTrue hseq =>
    refine ⟨fun k hk => ?_, fun i hi => ?_⟩
    · rcases List.mem_cons.1 hk with rfl | hk
      · exact h.source_lt j List.mem_cons_self
      · exact h.source_lt k (List.mem_cons_of_mem _ hk)
    · have hsends := h.sends i hi
      rw [labelsFrom_cons] at hsends ⊢
      by_cases hj : j.source = i
      · rw [if_pos hj, hseq] at hsends
        rw [if_pos hj, hsends.of_sequence.1]
        exact hsends.of_sequence.2
      · rw [if_neg hj] at hsends ⊢
        exact hsends

theorem Balanced.replace (n : Nat) (old new : List Jump) (h : g.Balanced (old ++ rest))
    (hold : ∀ j ∈ old, j.source = n) (hrest : ∀ j ∈ rest, j.source ≠ n) (hsize : ∀ i, i < g'.size ↔ i < g.size ∨ i = n)
    (hblock : ∀ i, i ≠ n → g'.block i = g.block i) (hnew : ∀ j ∈ new, j.source = n)
    (hsends : (g'.block n).Sends (new.map (·.branch))) : g'.Balanced (new ++ rest) := by
  refine ⟨fun j hj => (hsize _).2 ?_, fun i hi => ?_⟩
  · rcases List.mem_append.1 hj with hj | hj
    · exact Or.inr (hnew j hj)
    · exact Or.inl (h.source_lt j (List.mem_append_right _ hj))
  · by_cases hin : i = n
    · subst hin
      rw [labelsFrom_append, labelsFrom_eq_map hnew, labelsFrom_eq_nil hrest, List.append_nil]
      exact hsends
    · have hother {jumps : List Jump} (hjumps : ∀ j ∈ jumps, j.source = n) :
          labelsFrom i (jumps ++ rest) = labelsFrom i rest := by
        rw [labelsFrom_append, labelsFrom_eq_nil fun j hj he => hin (he.symm.trans (hjumps j hj)), List.nil_append]
      have hi := h.sends i (((hsize i).1 hi).resolve_right hin)
      rw [hother hold, ← hblock i hin] at hi
      rwa [hother hnew]

end Graph

namespace Builder

variable {b : Builder} {s : Stmt} {j : Jump} {jumps outer : List Jump}

/-- The jumps that wait for their targets. The `outer` ones belong to branches and loops around the place
where the builder stands. -/
def waiting (b : Builder) (outer : List Jump) : List Jump := b.front.jumps ++ b.early ++ outer

def departures (b : Builder) (outer : List Jump) : List Jump := b.edges.map Edge.jump ++ b.waiting outer

def elsewhere (b : Builder) (outer : List Jump) : List Jump :=
  b.edges.map Edge.jump ++ (b.entering ++ b.early ++ outer)

theorem jumps_addEdges (b : Builder) (jumps : List Jump) (target : Nat) :
    ((b.addEdges jumps target).edges.map Edge.jump).Perm (jumps ++ b.edges.map Edge.jump) := by
  have hjump : (fun j : Jump => Edge.jump ⟨j.source, target, j.branch⟩) = id := rfl
  rw [addEdges_eq]
  simp only [List.map_append, List.map_reverse, List.map_map, Function.comp_def, hjump, List.map_id]
  exact (List.reverse_perm _).append_right _

theorem jumps_push (b : Builder) (s : Stmt) :
    ((b.push s).edges.map Edge.jump).Perm (b.entering ++ b.edges.map Edge.jump) := by
  unfold push entering
  cases b.front with
  | inBlock i => exact .refl _
  | after jumps => exact jumps_addEdges _ _ _

theorem size_push (h : b.InRange) (s : Stmt) (i : Nat) :
    i < (b.push s).graph.size ↔ i < b.graph.size ∨ i = b.nextBlock := by
  refine ⟨lt_size_push, ?_⟩
  rintro (hi | rfl)
  · exact Nat.lt_of_lt_of_le hi (size_le_push b s)
  · exact nextBlock_lt_push h s

def ongoing (b : Builder) : List Jump :=
  match b.front with
  | .inBlock i => [⟨i, .sequence⟩]
  | .after _ => []

theorem jumps_front (b : Builder) : b.front.jumps = b.ongoing ++ b.entering := by
  unfold ongoing entering
  cases b.front with
  | inBlock i => rfl
  | after jumps => rfl

theorem source_ongoing (b : Builder) : ∀ j ∈ b.ongoing, j.source = b.nextBlock := by
  unfold ongoing nextBlock
  cases b.front with
  | inBlock i => simp
  | after jumps => simp

theorem departures_perm (b : Builder) (outer : List Jump) :
    (b.departures outer).Perm (b.ongoing ++ b.elsewhere outer) := by
  unfold departures waiting elsewhere
  rw [jumps_front, List.append_assoc, List.append_assoc, List.append_assoc]
  exact List.perm_append_comm_assoc _ _ _

theorem source_elsewhere (hb : b.graph.Balanced (b.departures outer)) (h : b.InRange) :
    ∀ j ∈ b.elsewhere outer, j.source ≠ b.nextBlock := by
  intro j hj
  have hb := hb.perm rfl (b.departures_perm outer).symm
  unfold ongoing at hb
  cases hf : b.front with
  | after jumps =>
      have hlt := hb.source_lt j (List.mem_append_right _ hj)
      rw [nextBlock, hf]
      exact Nat.ne_of_lt hlt
  | inBlock i =>
      have hsends := hb.sends i (h i hf)
      rw [hf, List.singleton_append, labelsFrom_cons, if_pos rfl] at hsends
      rw [nextBlock, hf]
      intro hsource
      have hmem : j.branch ∈ labelsFrom i (b.elsewhere outer) :=
        List.mem_map_of_mem (List.mem_filter.2 ⟨hj, decide_eq_true hsource⟩)
      rw [hsends.of_sequence.1] at hmem
      exact absurd hmem List.not_mem_nil

theorem early_pushLast (b : Builder) (s : Stmt) (next : List Jump) : (b.pushLast s next).early = b.early :=
  early_push b s

theorem Shaped.balanced_push (h : b.Shaped) (hb : b.graph.Balanced (b.departures outer)) (s : Stmt)
    (new : List Jump) (hnew : ∀ j ∈ new, j.source = b.nextBlock) {l : List Branch} (hl : l ∈ s.labels)
    (hperm : (new.map (·.branch)).Perm l) : (b.push s).graph.Balanced (new ++ b.elsewhere outer) := by
  refine (hb.perm rfl (b.departures_perm outer).symm).replace b.nextBlock b.ongoing new b.source_ongoing
    (source_elsewhere hb h.inRange) (size_push h.inRange s) (fun i hi => ?_) hnew ⟨l, ?_, hperm⟩
  · rw [block_push h.inRange, if_neg hi]
  · rwa [Block.labels_basic (h.basic_nextBlock s) (getLast?_push h.inRange s)]

theorem jumps_push_append {waiting : List Jump} (new : List Jump) (hw : waiting.Perm (new ++ (b.early ++ outer)))
    (s : Stmt) :
    ((b.push s).edges.map Edge.jump ++ waiting).Perm (new ++ b.elsewhere outer) := by
  refine ((b.jumps_push s).append hw).trans (List.perm_iff_count.2 fun j => ?_)
  simp only [elsewhere, List.count_append]
  omega

theorem Shaped.balanced_plain (h : b.Shaped) (hb : b.graph.Balanced (b.departures outer)) (hs : s.endsBlock = false) :
    (b.push s).graph.Balanced ((b.push s).departures outer) := by
  have hpush := h.balanced_push hb s [⟨b.nextBlock, .sequence⟩] (by simp)
    (Stmt.labels_of_passed hs ▸ List.mem_cons_self) (.refl _)
  refine hpush.perm rfl (jumps_push_append _ ?_ s)
  rw [waiting, push_front, early_push, List.append_assoc]
  exact .refl _

theorem Shaped.balanced_test (h : b.Shaped) (hb : b.graph.Balanced (b.departures outer)) (s : Stmt)
    (hs : [.ifTrue, .ifFalse] ∈ s.labels) : (b.pushLast s [⟨b.nextBlock, .ifTrue⟩]).graph.Balanced
      ((b.pushLast s [⟨b.nextBlock, .ifTrue⟩]).departures (⟨b.nextBlock, .ifFalse⟩ :: outer)) := by
  have hpush := h.balanced_push hb s [⟨b.nextBlock, .ifTrue⟩, ⟨b.nextBlock, .ifFalse⟩] (by simp) hs (.refl _)
  refine hpush.perm rfl (jumps_push_append _ ?_ s)
  rw [waiting, early_pushLast, List.append_assoc]
  exact List.perm_middle.cons _

theorem Shaped.balanced_ret (h : b.Shaped) (hb : b.graph.Balanced (b.departures outer)) (t : Tag)
    (value : Option Expr) : ((b.pushLast (.ret t value) []).addEdge ⟨b.nextBlock, .ret⟩ Graph.exit).graph.Balanced
      (((b.pushLast (.ret t value) []).addEdge ⟨b.nextBlock, .ret⟩ Graph.exit).departures outer) := by
  have hpush := h.balanced_push hb (.ret t value) [⟨b.nextBlock, .ret⟩] (by simp)
    List.mem_cons_self (.refl _)
  have hmade : ((b.push (.ret t value)).edges.map Edge.jump ++ (b.early ++ outer)).Perm (b.elsewhere outer) :=
    jumps_push_append [] (.refl _) _
  refine hpush.perm rfl (.cons _ ?_)
  rw [← early_pushLast b (.ret t value) []] at hmade
  exact hmade

theorem Shaped.balanced_leave (h : b.Shaped) (hb : b.graph.Balanced (b.departures outer)) {k : Branch}
    (hs : [k] ∈ s.labels) {l : LoopJumps}
    (hl : (l.breaks ++ l.continues).Perm (⟨b.nextBlock, k⟩ :: b.early)) :
    Graph.Balanced { b.pushLast s [] with inLoop := some l }.graph
      ({ b.pushLast s [] with inLoop := some l }.departures outer) := by
  have hpush := h.balanced_push hb s [⟨b.nextBlock, k⟩] (by simp) hs (.refl _)
  exact hpush.perm rfl (jumps_push_append _ (hl.append_right outer) s)

theorem Shaped.balanced_enterLoop (h : b.Shaped) (hb : b.graph.Balanced (b.departures outer))
    (hs : [.ifTrue, .ifFalse] ∈ s.labels) : (b.enterLoop s).graph.Balanced
      ((b.enterLoop s).departures (⟨b.blocks.size, .ifFalse⟩ :: (b.early ++ outer))) := by
  have hpush := h.closed.balanced_push hb s
    [⟨b.blocks.size, .ifTrue⟩, ⟨b.blocks.size, .ifFalse⟩] (by simp [nextBlock]) hs (.refl _)
  have hwait := jumps_push_append (b := { b with front := .after b.front.jumps })
    [⟨b.blocks.size, .ifTrue⟩, ⟨b.blocks.size, .ifFalse⟩] (.refl (_ ++ (_ ++ outer))) s
  rw [enterLoop_eq]
  exact hpush.perm rfl hwait

theorem edges_closeLoop_cons (b : Builder) (j k : Jump) (rest : List Jump) (head : Nat) :
    ((b.closeLoop (j :: k :: rest) head).edges.map Edge.jump).Perm
      (⟨b.blocks.size, .back⟩ :: (j :: k :: rest) ++ b.edges.map Edge.jump) :=
  (jumps_addEdges _ _ _).cons _

theorem balanced_closeLoop {ends waiting : List Jump}
    (hb : b.graph.Balanced (ends ++ (b.edges.map Edge.jump ++ waiting))) (head : Nat) :
    (b.closeLoop ends head).graph.Balanced ((b.closeLoop ends head).edges.map Edge.jump ++ waiting) := by
  match ends with
  | [] => exact hb
  | [j] => exact hb.closing.perm rfl (.refl _)
  | j :: k :: rest =>
      have hlatch : (b.closeLoop (j :: k :: rest) head).graph.Balanced _ := hb.replace b.blocks.size []
        [⟨b.blocks.size, .back⟩] nofun (fun i hi => Nat.ne_of_lt (hb.source_lt i hi)) (fun i => ?_)
        (fun i hi => (block_addBlock b _ _ i).trans (if_neg hi)) (by simp) ⟨[.back], ?_, .refl _⟩
      · refine hlatch.perm rfl (((edges_closeLoop_cons b j k rest head).append_right _).trans (.of_eq ?_))
        simp
      · have hsize : (b.closeLoop (j :: k :: rest) head).graph.size = b.blocks.size + 1 := size_addBlock b _ _
        rw [hsize]
        exact Nat.lt_succ_iff_lt_or_eq
      · have hblock : (b.closeLoop (j :: k :: rest) head).graph.block b.blocks.size = { kind := .latch } :=
          block_addBlock_self b _ _
        rw [hblock]
        exact List.mem_cons_self

theorem balanced_after {next outer' : List Jump} (hb : b.graph.Balanced (b.departures outer))
    (hwait : (next ++ outer').Perm (b.front.jumps ++ outer)) : Graph.Balanced
      { b with front := .after next }.graph ({ b with front := .after next }.departures outer') := by
  have hswap (l r : List Jump) : (l ++ b.early ++ r).Perm (b.early ++ (l ++ r)) := by
    rw [List.append_assoc]
    exact List.perm_append_comm_assoc _ _ _
  refine hb.perm rfl (List.Perm.append_left _ ?_)
  exact (hswap next outer').trans ((hwait.append_left _).trans (hswap _ _).symm)

theorem departures_leaveLoop (b inner : Builder) (outer : List Jump) : (b.leaveLoop inner).departures outer =
    (inner.closeLoop (inner.front.jumps ++ (inner.inLoop.getD {}).continues) b.blocks.size).edges.map Edge.jump ++
      (⟨b.blocks.size, .ifFalse⟩ :: (inner.inLoop.getD {}).breaks ++ b.early ++ outer) := rfl

theorem balanced_run :
    (∀ s b b', stmt b s = .ok b' → b.Shaped → ∀ outer, b.graph.Balanced (b.departures outer) →
      b'.graph.Balanced (b'.departures outer)) ∧
    ∀ l b b', stmts b l = .ok b' → b.Shaped → ∀ outer, b.graph.Balanced (b.departures outer) →
      b'.graph.Balanced (b'.departures outer) := by
  apply run_induction
  case plain => exact fun b s hs hb outer hbal => hb.balanced_plain hbal hs.2
  case block => exact fun b t body b' ih => ih
  case ifThen =>
    intro b t c yes b' _ ih hb outer hbal
    have hyes := ih (hb.pushTest _ _) _ (hb.balanced_test hbal _ List.mem_cons_self)
    refine balanced_after hyes ?_
    rw [List.append_assoc]
    exact .refl _
  case ifElse =>
    intro b t c yes no b₁ b₂ hrun₁ ih₁ hrun₂ ih₂ hb outer hbal
    have htest := hb.pushTest (.ifElse t c yes no) .ifTrue
    have hyes := ih₁ htest _ (hb.balanced_test hbal _ List.mem_cons_self)
    have hno := ih₂ (hb.secondBranch hrun₁ (shaped_run.1 _ _ _ hrun₁ htest)) (b₁.front.jumps ++ outer)
      (balanced_after hyes (List.perm_append_comm_assoc [_] _ _))
    refine balanced_after hno ?_
    rw [List.append_assoc]
    exact List.perm_append_comm_assoc _ _ _
  case loop =>
    intro b t c body b' hrun ih hb outer hbal
    -- While the body is built, the loop's way out and the early jumps of the loop around wait outside.
    have hbody := ih (hb.enterLoop _) _ (hb.balanced_enterLoop hbal List.mem_cons_self)
    rw [departures_leaveLoop]
    refine (balanced_closeLoop (hbody.perm rfl (List.perm_iff_count.2 fun j => ?_)) _).perm rfl (.refl _)
    simp only [departures, waiting, early, List.count_append, List.count_cons]
    omega
  case ret => exact fun b t value hb outer hbal => hb.balanced_ret hbal t value
  case brk =>
    intro b t jumps hl hb outer hbal
    refine hb.balanced_leave hbal (k := .brk) List.mem_cons_self ?_
    rw [early, hl, List.append_assoc]
    exact List.perm_middle
  case cont =>
    intro b t jumps hl hb outer hbal
    refine hb.balanced_leave hbal (k := .cont) List.mem_cons_self ?_
    rw [early, hl, ← List.append_assoc]
    exact List.perm_append_comm
  case nil => exact fun b _ _ hbal => hbal
  case cons =>
    intro b s rest b₁ b₂ hrun ih₁ ih₂ hb outer hbal
    exact ih₂ (shaped_run.1 _ _ _ hrun hb) outer (ih₁ hb outer hbal)

theorem balanced_start : start.graph.Balanced (start.departures []) := by
  refine ⟨?_, fun i hi => ?_⟩
  · decide
  · match i, hi with
    | 0, _ => exact ⟨[.sequence], List.mem_cons_self, .refl _⟩
    | 1, _ => exact ⟨[], List.mem_cons_self, .refl _⟩

end Builder

namespace Graph

variable {m : Method} {g : Graph}

/-- Every block of a method's graph is left along the edges that it should be left along. -/
theorem balanced_of_build (h : build m = .ok g) : g.Balanced (g.edges.map Edge.jump) := by
  obtain ⟨b, hrun, hb, rfl⟩ := build_eq_finish h
  have hbal := Builder.balanced_run.2 _ _ _ hrun Builder.shaped_start [] Builder.balanced_start
  have hearly : b.early = [] := by rw [Builder.early, Builder.inLoop_of_run hrun]; rfl
  have hjumps : (b.finish.edges.map Edge.jump).Perm (b.departures []) := by
    rw [Builder.departures, Builder.waiting, hearly, List.append_nil, List.append_nil]
    exact (Builder.jumps_addEdges b _ _).trans List.perm_append_comm
  refine ⟨fun j hj => ?_, fun i hi => ?_⟩
  · rw [Builder.size_finish]
    exact hbal.source_lt j (hjumps.subset hj)
  · rw [Builder.size_finish] at hi
    rw [Builder.block_finish b i hi]
    exact (hbal.sends i hi).perm (labelsFrom_perm hjumps)

end Graph

end Backflow
