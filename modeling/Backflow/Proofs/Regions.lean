import Backflow.Proofs.Directions
import Backflow.Proofs.Escape
import Backflow.Proofs.Segments

namespace Backflow

namespace Search

variable {succ : Nat → List Nat} {h i n : Nat}

def Beyond (succ : Nat → List Nat) (h : Nat) : Nat → Prop :=
  Relation.ReflTransGen (fun i j => h < j ∧ j ∈ succ i) h

theorem Beyond.le (hi : Beyond succ h i) : h ≤ i := by
  induction hi with
  | refl => exact Nat.le_refl h
  | tail _ hstep => exact Nat.le_of_lt hstep.1

theorem Beyond.mono {succ' : Nat → List Nat} (hi : Beyond succ h i)
    (hsucc : ∀ i k, h < k → k ∈ succ i → k ∈ succ' i) : Beyond succ' h i :=
  Relation.ReflTransGen.mono (fun i k hstep => ⟨hstep.1, hsucc i k hstep.1 hstep.2⟩) _ _ hi

theorem Beyond.reaches (hi : Beyond succ h i) : Relation.ReflTransGen (fun i j => j ∈ succ i) h i :=
  Relation.ReflTransGen.mono (fun _ _ hstep => hstep.2) _ _ hi

/-- The nodes from `h` up to `n` are entered through `h` only, and of the nodes from `h` on only they lead back
to `h`. -/
structure Encloses (succ : Nat → List Nat) (h n : Nat) : Prop where
  inside : ∀ i k, k ∈ succ i → h < k → k < n → h ≤ i ∧ i < n
  back : ∀ i, h ∈ succ i → h ≤ i → i < n

/-- A path from `h` to a node that `h` encloses need not come back to `h`. -/
theorem Encloses.beyond (henc : Encloses succ h n) (hr : Relation.ReflTransGen (fun i j => j ∈ succ i) h i)
    (hle : h ≤ i) (hlt : i < n) : Beyond succ h i := by
  induction hr with
  | refl => exact .refl
  | @tail a k _ hstep ih =>
      rcases Nat.eq_or_lt_of_le hle with rfl | hk
      · exact .refl
      · obtain ⟨ha, han⟩ := henc.inside a k hstep hk hlt
        exact (ih ha han).tail ⟨hk, hstep⟩

end Search

open Search

namespace Graph

variable {g g' : Graph} {h i k n : Nat}

theorem mem_successors_congr (hin : g'.incoming k = g.incoming k) : k ∈ g'.successors i ↔ k ∈ g.successors i := by
  rw [← mem_predecessors_iff, ← mem_predecessors_iff, predecessors, predecessors, hin]

theorem mem_successors_of_incoming {e : Edge} (he : e ∈ g.incoming i) : i ∈ g.successors e.source :=
  mem_predecessors_iff.1 (List.mem_map_of_mem he)

theorem Spares.beyond_iff (hs : g.Spares g') (hg : g.Closed) (hexit : exit ≤ h) (hi : i < g.size) :
    Beyond g'.successors h i ↔ Beyond g.successors h i := by
  have hsame {a k : Nat} (hk : h < k) (hlt : k < g.size) : k ∈ g'.successors a ↔ k ∈ g.successors a :=
    mem_successors_congr (hs.incoming k hlt (Nat.ne_of_gt (Nat.lt_of_le_of_lt hexit hk)))
  constructor
  · intro hpath
    induction hpath with
    | refl => exact .refl
    | tail _ hstep ih =>
        have hold := (hsame hstep.1 hi).1 hstep.2
        exact (ih (hg.predecessor_lt (mem_predecessors_iff.2 hold))).tail ⟨hstep.1, hold⟩
  · intro hpath
    induction hpath with
    | refl => exact .refl
    | tail _ hstep ih =>
        have hlt := hg.predecessor_lt (mem_predecessors_iff.2 hstep.2)
        exact (ih hlt).tail ⟨hstep.1, (hsame hstep.1 hi).2 hstep.2⟩

/-- The blocks that a block encloses stay the same while no edge into one of them is added. -/
theorem encloses_congr (hin : ∀ k, h ≤ k → k < n → g'.incoming k = g.incoming k) (hn : h < n)
    (henc : Encloses g.successors h n) : Encloses g'.successors h n where
  inside i k hk hle hlt := henc.inside i k ((mem_successors_congr (hin k (Nat.le_of_lt hle) hlt)).1 hk) hle hlt
  back i hi := henc.back i ((mem_successors_congr (hin h (Nat.le_refl h) hn)).1 hi)

theorem beyond_of_enclosed (hin : ∀ k, h ≤ k → k < n → g'.incoming k = g.incoming k)
    (henc : Encloses g.successors h n) (hi : i < n) (hpath : Beyond g.successors h i) : Beyond g'.successors h i := by
  induction hpath with
  | refl => exact .refl
  | @tail a k _ hstep ih =>
      have hnew := (mem_successors_congr (hin k (Nat.le_of_lt hstep.1) hi)).2 hstep.2
      exact (ih (henc.inside a k hstep.2 hstep.1 hi).2).tail ⟨hstep.1, hnew⟩

end Graph

namespace Builder

variable {b b₁ b₂ inner : Builder} {s : Stmt} {i : Nat} {j : Jump} {next : List Jump}

def Origin (b : Builder) (i : Nat) : Prop := b.blocks.size ≤ i ∨ ∃ j ∈ b.front.jumps, j.source = i

/-- No new edge enters an old block, the exit apart, and no new loop stands in one. Into the blocks that `b'` has beyond
those of `b`, and to the places where its jumps wait, control comes from where it goes on in `b`. -/
structure Springs (b b' : Builder) : Prop where
  spares : b.graph.Spares b'.graph
  loops : ∀ i < b.blocks.size, ∀ s ∈ b'.graph.stmts i, s.isLoop = true → s ∈ b.graph.stmts i
  edges : ∀ e ∈ b'.edges, b.blocks.size ≤ e.target → b.Origin e.source
  front : ∀ j ∈ b'.front.jumps, b.Origin j.source
  early : ∀ j ∈ b'.early, j ∈ b.early ∨ b.Origin j.source

theorem origin_nextBlock (b : Builder) : b.Origin b.nextBlock := by
  unfold Origin nextBlock
  cases b.front with
  | inBlock i => exact Or.inr ⟨⟨i, .sequence⟩, List.mem_cons_self, rfl⟩
  | after jumps => exact Or.inl (Nat.le_refl _)

theorem origin_of_mem (hj : j ∈ b.front.jumps) : b.Origin j.source := Or.inr ⟨j, hj, rfl⟩

theorem mem_front_of_entering (hj : j ∈ b.entering) : j ∈ b.front.jumps := by
  rw [jumps_front]
  exact List.mem_append_right _ hj

theorem Shaped.springs_push (h : b.Shaped) (hs : s.isLoop = false) (hspares : b.graph.Spares b₁.graph)
    (hblocks : b₁.blocks = (b.push s).blocks)
    (hedges : ∀ e ∈ b₁.edges, b.blocks.size ≤ e.target → e ∈ (b.push s).edges)
    (hfront : ∀ j ∈ b₁.front.jumps, j.source = b.nextBlock)
    (hearly : ∀ j ∈ b₁.early, j ∈ b.early ∨ j.source = b.nextBlock) : b.Springs b₁ := by
  refine ⟨hspares, fun i _ u hu hloop => ?_, fun e he htarget => ?_, fun j hj => ?_,
    fun j hj => (hearly j hj).imp_right fun hj => ?_⟩
  · have hsame : b₁.graph.stmts i = (b.push s).graph.stmts i :=
      congrArg (fun blocks : Array Block => (blocks.getD i { kind := .latch }).stmts) hblocks
    rw [hsame, stmts_push h.inRange] at hu
    split at hu
    · refine (List.mem_append.1 hu).resolve_right fun hmem => ?_
      rw [List.mem_singleton.1 hmem, hs] at hloop
      cases hloop
    · exact hu
  · rcases mem_edges_push.1 (hedges e he htarget) with he | ⟨j, hj, rfl⟩
    · exact absurd (h.graph.edges e he).target_lt (Nat.not_lt.2 htarget)
    · exact origin_of_mem (mem_front_of_entering hj)
  · rw [hfront j hj]
    exact b.origin_nextBlock
  · rw [hj]
    exact b.origin_nextBlock

theorem Shaped.springs_pushTest (h : b.Shaped) (hs : s.isLoop = false) (k : Branch) :
    b.Springs (b.pushLast s [⟨b.nextBlock, k⟩]) := by
  refine h.springs_push hs (spares_push b s) rfl (fun _ he _ => he) (fun j hj => ?_) fun j hj => Or.inl ?_
  · rw [List.mem_singleton.1 hj]
  · rwa [early_pushLast] at hj

theorem Springs.after (h : b.Springs b₁) (hnext : ∀ j ∈ next, b.Origin j.source) :
    b.Springs { b₁ with front := .after next } :=
  ⟨h.spares, h.loops, h.edges, hnext, h.early⟩

theorem Springs.trans (h₁ : b.Springs b₁) (h₂ : b₁.Springs b₂) (hexit : Graph.exit < b.blocks.size) :
    b.Springs b₂ := by
  have hsize : b.blocks.size ≤ b₁.blocks.size := h₁.spares.size_le
  have horigin {i : Nat} (hi : b₁.Origin i) : b.Origin i := by
    rcases hi with hi | ⟨j, hj, rfl⟩
    · exact Or.inl (Nat.le_trans hsize hi)
    · exact h₁.front j hj
  refine ⟨h₁.spares.trans h₂.spares, fun i hi s hs hloop => ?_, fun e he htarget => ?_,
    fun j hj => horigin (h₂.front j hj), fun j hj => ?_⟩
  · exact h₁.loops i hi s (h₂.loops i (Nat.lt_of_lt_of_le hi hsize) s hs hloop) hloop
  · by_cases hold : e.target < b₁.blocks.size
    · have hne : e.target ≠ Graph.exit := Nat.ne_of_gt (Nat.lt_of_lt_of_le hexit htarget)
      have hin : e ∈ b₂.graph.incoming e.target := List.mem_filter.2 ⟨he, decide_eq_true rfl⟩
      rw [h₂.spares.incoming e.target hold hne] at hin
      exact h₁.edges e (List.mem_filter.1 hin).1 htarget
    · exact horigin (h₂.edges e he (Nat.le_of_not_lt hold))
  · rcases h₂.early j hj with hj | hj
    · exact h₁.early j hj
    · exact Or.inr (horigin hj)

theorem le_of_origin_enterLoop (h : (b.enterLoop s).Origin i) : b.blocks.size ≤ i := by
  rcases h with h | ⟨j, hj, rfl⟩
  · rw [show (b.enterLoop s).blocks.size = b.blocks.size + 1 from size_addBlock b _ _] at h
    exact Nat.le_of_succ_le h
  · rw [List.mem_singleton.1 hj]

theorem source_closeLoop {ends : List Jump} {head : Nat} {e : Edge} (he : e ∈ (b.closeLoop ends head).edges) :
    e ∈ b.edges ∨ b.blocks.size ≤ e.source ∨ ∃ j ∈ ends, j.source = e.source := by
  match ends with
  | [] => exact Or.inl he
  | [j] =>
      rcases List.mem_cons.1 he with rfl | he
      · exact Or.inr (Or.inr ⟨j, List.mem_cons_self, (closing_source j).symm⟩)
      · exact Or.inl he
  | j :: k :: rest =>
      rcases List.mem_cons.1 he with rfl | he
      · exact Or.inr (Or.inl (Nat.le_refl _))
      · rcases mem_edges_addEdges.1 he with he | ⟨l, hl, rfl⟩
        · exact Or.inl he
        · exact Or.inr (Or.inr ⟨l, hl, rfl⟩)

theorem Springs.le_ends (h : (b.enterLoop s).Springs inner)
    (hj : j ∈ inner.front.jumps ++ (inner.inLoop.getD {}).continues) : b.blocks.size ≤ j.source := by
  rcases List.mem_append.1 hj with hj | hj
  · exact le_of_origin_enterLoop (h.front j hj)
  · exact le_of_origin_enterLoop ((h.early j (List.mem_append_right _ hj)).resolve_left List.not_mem_nil)

theorem Springs.le_breaks (h : (b.enterLoop s).Springs inner) (hj : j ∈ (inner.inLoop.getD {}).breaks) :
    b.blocks.size ≤ j.source :=
  le_of_origin_enterLoop ((h.early j (List.mem_append_left _ hj)).resolve_left List.not_mem_nil)

theorem Springs.le_source {e : Edge} (h : (b.enterLoop s).Springs inner) (he : e ∈ (b.leaveLoop inner).edges) :
    b.blocks.size ≤ e.source ∨ e ∈ inner.edges ∧ e.target ≤ b.blocks.size := by
  have hsize : (b.enterLoop s).blocks.size = b.blocks.size + 1 := size_addBlock b _ _
  rcases source_closeLoop he with he | hnew | ⟨j, hj, hsource⟩
  · by_cases htarget : e.target ≤ b.blocks.size
    · exact Or.inr ⟨he, htarget⟩
    · exact Or.inl (le_of_origin_enterLoop (h.edges e he (by omega)))
  · have hle : (b.enterLoop s).blocks.size ≤ inner.blocks.size := h.spares.size_le
    exact Or.inl (by omega)
  · exact Or.inl (hsource ▸ h.le_ends hj)

theorem stmts_closeLoop (b : Builder) (ends : List Jump) (head i : Nat) :
    (b.closeLoop ends head).graph.stmts i = b.graph.stmts i := by
  match ends with
  | [] => rfl
  | [j] => rfl
  | j :: k :: rest =>
      refine (congrArg Block.stmts (block_addBlock b { kind := .latch } (j :: k :: rest) i)).trans ?_
      split
      case isTrue hi =>
        have hnone : b.graph.stmts i = [] := Graph.stmts_of_le (Nat.le_of_eq hi.symm)
        exact hnone.symm
      case isFalse => rfl

theorem Shaped.springs_leaveLoop (h : b.Shaped) (hsprings : (b.enterLoop s).Springs inner) :
    b.Springs (b.leaveLoop inner) := by
  have hlt : b.blocks.size < (b.enterLoop s).graph.size := (departs_enterLoop h s .ifTrue).continues.lt
  have hin : inner.graph.incoming b.blocks.size =
      (b.front.jumps.map fun j => ⟨j.source, b.blocks.size, j.branch⟩).reverse :=
    (hsprings.spares.incoming _ hlt (Nat.ne_of_gt h.graph.exit_lt)).trans (incoming_addBlock h.graph _ _)
  refine ⟨spares_leaveLoop hsprings.spares, fun i hi u hu hloop => ?_, fun e he htarget => ?_, fun j hj => ?_,
    fun j hj => Or.inl hj⟩
  · have hi' := Nat.lt_trans hi hlt
    have hu : u ∈ inner.graph.stmts i := stmts_closeLoop inner _ _ i ▸ hu
    have hold : (b.enterLoop s).graph.stmts i = b.graph.stmts i := congrArg Block.stmts (block_addBlock_lt b _ _ hi)
    exact hold ▸ hsprings.loops i hi' u hu hloop
  · rcases hsprings.le_source he with hle | ⟨he, hle⟩
    · exact Or.inl hle
    · have hmem : e ∈ inner.graph.incoming b.blocks.size :=
        List.mem_filter.2 ⟨he, decide_eq_true (Nat.le_antisymm hle htarget)⟩
      rw [hin] at hmem
      obtain ⟨j, hj, rfl⟩ := List.mem_map.1 (List.mem_reverse.1 hmem)
      exact origin_of_mem hj
  · rcases List.mem_cons.1 hj with rfl | hj
    · exact Or.inl (Nat.le_refl _)
    · exact Or.inl (hsprings.le_breaks hj)

theorem springs_run :
    (∀ s b b', stmt b s = .ok b' → b.Shaped → b.Springs b') ∧
      ∀ l b b', stmts b l = .ok b' → b.Shaped → b.Springs b' := by
  apply run_induction
  case plain =>
    intro b s hs hb
    refine hb.springs_push (Stmt.isLoop_of_passed hs.2) (spares_push b s) rfl (fun _ he _ => he) (fun j hj => ?_)
      fun j hj => Or.inl ?_
    · rw [push_front] at hj
      rw [List.mem_singleton.1 hj]
    · rwa [early_push] at hj
  case block => exact fun b t body b' h => h
  case ifThen =>
    intro b t c yes b' _ ih hb
    have hyes := (hb.springs_pushTest (s := .ifThen t c yes) rfl .ifTrue).trans (ih (hb.pushTest _ _)) hb.graph.exit_lt
    refine hyes.after fun j hj => ?_
    rcases List.mem_append.1 hj with hj | hj
    · exact hyes.front j hj
    · rw [List.mem_singleton.1 hj]
      exact b.origin_nextBlock
  case ifElse =>
    intro b t c yes no b₁ b₂ hrun₁ ih₁ _ ih₂ hb
    have htest := hb.pushTest (.ifElse t c yes no) .ifTrue
    have hyes := (hb.springs_pushTest (s := .ifElse t c yes no) rfl .ifTrue).trans (ih₁ htest) hb.graph.exit_lt
    have hstart : b.Springs { b₁ with front := .after [⟨b.nextBlock, .ifFalse⟩] } :=
      hyes.after fun j hj => List.mem_singleton.1 hj ▸ b.origin_nextBlock
    have hno := hstart.trans (ih₂ (hb.secondBranch hrun₁ (shaped_run.1 _ _ _ hrun₁ htest))) hb.graph.exit_lt
    exact hno.after fun j hj => (List.mem_append.1 hj).elim (hyes.front j) (hno.front j)
  case loop => exact fun b t c body b' _ ih hb => hb.springs_leaveLoop (ih (hb.enterLoop _))
  case ret =>
    intro b t value hb
    have hspares : b.graph.Spares ((b.pushLast (.ret t value) []).addEdge ⟨b.nextBlock, .ret⟩ Graph.exit).graph :=
      spares_run.1 (.ret t value) _ _ (by rw [stmt]; rfl)
    refine hb.springs_push (s := .ret t value) rfl hspares rfl (fun e he htarget => ?_)
      (fun j hj => absurd hj List.not_mem_nil) fun j hj => Or.inl ?_
    · rcases List.mem_cons.1 he with rfl | he
      · exact absurd hb.graph.exit_lt (Nat.not_lt.2 htarget)
      · exact he
    · exact early_pushLast b (.ret t value) [] ▸ hj
  case brk =>
    intro b t jumps hl hb
    refine hb.springs_push (s := .brk t) rfl (spares_push b _) rfl (fun _ he _ => he)
      (fun j hj => absurd hj List.not_mem_nil) fun j hj => ?_
    rw [early, hl]
    simp only [early, Option.getD_some, List.mem_append, List.mem_singleton] at hj ⊢
    rcases hj with (hj | rfl) | hj
    · exact Or.inl (Or.inl hj)
    · exact Or.inr rfl
    · exact Or.inl (Or.inr hj)
  case cont =>
    intro b t jumps hl hb
    refine hb.springs_push (s := .cont t) rfl (spares_push b _) rfl (fun _ he _ => he)
      (fun j hj => absurd hj List.not_mem_nil) fun j hj => ?_
    rw [early, hl]
    simp only [early, Option.getD_some, List.mem_append, List.mem_singleton] at hj ⊢
    rcases hj with hj | hj | rfl
    · exact Or.inl (Or.inl hj)
    · exact Or.inl (Or.inr hj)
    · exact Or.inr rfl
  case nil =>
    intro b hb
    refine ⟨⟨Nat.le_refl _, fun _ _ _ => rfl⟩, fun _ _ _ hs _ => hs, fun e he htarget => ?_,
      fun j hj => origin_of_mem hj, fun j hj => Or.inl hj⟩
    exact absurd (hb.graph.edges e he).target_lt (Nat.not_lt.2 htarget)
  case cons =>
    intro b s rest b₁ b₂ hrun ih₁ ih₂ hb
    exact (ih₁ hb).trans (ih₂ (shaped_run.1 _ _ _ hrun hb)) hb.graph.exit_lt

end Builder

end Backflow
