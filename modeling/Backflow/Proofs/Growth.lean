import Backflow.Proofs.Construction
import Backflow.Proofs.Equations

namespace Backflow

namespace Graph

structure Continues (g : Graph) (i : Nat) : Prop where
  lt : i < g.size
  kind : (g.block i).kind = .entry ∨ (g.block i).kind = .basic

theorem block_push (blocks : Array Block) (edges edges' : List Edge) (block : Block) (i : Nat) :
    (⟨blocks.push block, edges⟩ : Graph).block i =
      if i = blocks.size then block else (⟨blocks, edges'⟩ : Graph).block i := by
  unfold Graph.block
  rw [Array.getD_eq_getD_getElem?, Array.getElem?_push, Array.getD_eq_getD_getElem?]
  split <;> simp

end Graph

namespace Builder

variable {b b' : Builder} {s : Stmt} {j : Jump} {jumps next : List Jump}

theorem addEdges_eq (b : Builder) (jumps : List Jump) (target : Nat) : b.addEdges jumps target =
    { b with edges := (jumps.map fun j => ⟨j.source, target, j.branch⟩).reverse ++ b.edges } := by
  unfold addEdges
  induction jumps generalizing b with
  | nil => rfl
  | cons j jumps ih =>
      rw [List.foldl_cons, ih]
      simp [addEdge]

theorem mem_edges_addEdges {target : Nat} {e : Edge} : e ∈ (b.addEdges jumps target).edges ↔
    e ∈ b.edges ∨ ∃ j ∈ jumps, e = ⟨j.source, target, j.branch⟩ := by
  rw [addEdges_eq]
  simp [or_comm, eq_comm]

theorem size_addBlock (b : Builder) (block : Block) (jumps : List Jump) :
    (b.addBlock block jumps).blocks.size = b.blocks.size + 1 := by
  simp [addBlock, addEdges_eq]

theorem block_addBlock (b : Builder) (block : Block) (jumps : List Jump) (i : Nat) :
    (b.addBlock block jumps).graph.block i = if i = b.blocks.size then block else b.graph.block i := by
  rw [addBlock, addEdges_eq]
  exact Graph.block_push _ _ _ _ _

theorem block_addBlock_self (b : Builder) (block : Block) (jumps : List Jump) :
    (b.addBlock block jumps).graph.block b.blocks.size = block := by
  rw [block_addBlock, if_pos rfl]

theorem block_addBlock_lt (b : Builder) (block : Block) (jumps : List Jump) {i : Nat} (hi : i < b.blocks.size) :
    (b.addBlock block jumps).graph.block i = b.graph.block i := by
  rw [block_addBlock, if_neg (Nat.ne_of_lt hi)]

def entering (b : Builder) : List Jump :=
  match b.front with
  | .inBlock _ => []
  | .after jumps => jumps

theorem mem_edges_push {e : Edge} : e ∈ (b.push s).edges ↔
    e ∈ b.edges ∨ ∃ j ∈ b.entering, e = ⟨j.source, b.nextBlock, j.branch⟩ := by
  unfold push entering nextBlock
  cases b.front with
  | inBlock i => simp
  | after jumps => exact mem_edges_addEdges

theorem push_inLoop (b : Builder) (s : Stmt) : (b.push s).inLoop = b.inLoop := by
  unfold push
  cases b.front with
  | inBlock i => rfl
  | after jumps => simp [addBlock, addEdges_eq]

theorem push_front (b : Builder) (s : Stmt) : (b.push s).front = .inBlock b.nextBlock := by
  unfold push nextBlock
  cases b.front with
  | inBlock i => rfl
  | after jumps => rfl

def InRange (b : Builder) : Prop := ∀ i, b.front = .inBlock i → i < b.blocks.size

theorem inRange_after (b : Builder) (h : b.front = .after next) : b.InRange := by
  intro i hi
  rw [h] at hi
  cases hi

theorem block_push (h : b.InRange) (s : Stmt) (i : Nat) :
    (b.push s).graph.block i = if i = b.nextBlock then
      match b.front with
      | .inBlock _ => { b.graph.block i with stmts := b.graph.stmts i ++ [s] }
      | .after _ => { kind := .basic, stmts := [s] }
    else b.graph.block i := by
  unfold push nextBlock
  cases hf : b.front with
  | inBlock k =>
      have hk := h k hf
      unfold Graph.stmts Graph.block graph
      simp only [Array.getD_eq_getD_getElem?, Array.getElem?_modify]
      by_cases hi : i = k
      · subst hi
        simp [hk]
      · simp [hi, Ne.symm hi]
  | after jumps => exact block_addBlock b _ jumps i

theorem stmts_push (h : b.InRange) (s : Stmt) (i : Nat) : (b.push s).graph.stmts i =
    if i = b.nextBlock then b.graph.stmts i ++ [s] else b.graph.stmts i := by
  rw [Graph.stmts, block_push h]
  by_cases hi : i = b.nextBlock
  · rw [if_pos hi, if_pos hi]
    unfold nextBlock at hi
    cases hf : b.front with
    | inBlock k => rfl
    | after jumps =>
        rw [hf] at hi
        have hnil : b.graph.stmts i = [] := Graph.stmts_of_le (Nat.le_of_eq hi.symm)
        simp [hnil]
  · rw [if_neg hi, if_neg hi]
    rfl

theorem size_le_push (b : Builder) (s : Stmt) : b.blocks.size ≤ (b.push s).blocks.size := by
  unfold push
  cases b.front with
  | inBlock i => simp
  | after jumps => simp [size_addBlock]

theorem nextBlock_lt_push (h : b.InRange) (s : Stmt) : b.nextBlock < (b.push s).blocks.size := by
  unfold push nextBlock
  cases hf : b.front with
  | inBlock i => simpa using h i hf
  | after jumps => simp [size_addBlock]

theorem lt_size_push {i : Nat} (h : i < (b.push s).blocks.size) : i < b.blocks.size ∨ i = b.nextBlock := by
  unfold push at h
  unfold nextBlock
  cases hf : b.front with
  | inBlock k =>
      rw [hf] at h
      exact Or.inl (by simpa using h)
  | after jumps =>
      rw [hf] at h
      exact Nat.lt_succ_iff_lt_or_eq.1 (by simpa [size_addBlock] using h)

theorem InRange.push (h : b.InRange) (s : Stmt) : (b.push s).InRange := by
  intro i hi
  rw [push_front] at hi
  cases hi
  exact nextBlock_lt_push h s

structure Departs (b : Builder) (j : Jump) : Prop where
  continues : b.graph.Continues j.source
  closed : b.front ≠ .inBlock j.source

theorem Departs.ne_nextBlock (h : b.Departs j) : j.source ≠ b.nextBlock := by
  unfold nextBlock
  cases hf : b.front with
  | inBlock i => exact fun he => h.closed (hf.trans (congrArg Front.inBlock he.symm))
  | after jumps => exact Nat.ne_of_lt h.continues.lt

/-- The jumps that may be left open in the first builder may be so in the second, and nothing has been
added to their blocks. -/
def Keeps (b b' : Builder) : Prop :=
  ∀ j, b.Departs j → b'.Departs j ∧ b'.graph.stmts j.source = b.graph.stmts j.source

theorem Keeps.departs (h : b.Keeps b') (hj : b.Departs j) : b'.Departs j := (h j hj).1

theorem Keeps.stmts (h : b.Keeps b') (hj : b.Departs j) :
    b'.graph.stmts j.source = b.graph.stmts j.source := (h j hj).2

theorem Keeps.trans {b'' : Builder} (h : b.Keeps b') (h' : b'.Keeps b'') : b.Keeps b'' :=
  fun _ hj => ⟨h'.departs (h.departs hj), (h'.stmts (h.departs hj)).trans (h.stmts hj)⟩

theorem keeps_after (b : Builder) (next : List Jump) (l : Option LoopJumps) :
    b.Keeps { b with front := .after next, inLoop := l } :=
  fun _ hj => ⟨⟨hj.continues, nofun⟩, rfl⟩

theorem keeps_push (hb : b.InRange) (s : Stmt) : b.Keeps (b.push s) := by
  intro j hj
  refine ⟨⟨⟨Nat.lt_of_lt_of_le hj.continues.lt (size_le_push b s), ?_⟩, ?_⟩, ?_⟩
  · rw [block_push hb, if_neg hj.ne_nextBlock]
    exact hj.continues.kind
  · rw [push_front]
    exact fun he => hj.ne_nextBlock (Front.inBlock.inj he).symm
  · rw [stmts_push hb, if_neg hj.ne_nextBlock]

theorem keeps_pushLast (hb : b.InRange) (s : Stmt) (next : List Jump) : b.Keeps (b.pushLast s next) :=
  (keeps_push hb s).trans (keeps_after _ _ _)

theorem keeps_addEdge (b : Builder) (k : Jump) (target : Nat) : b.Keeps (b.addEdge k target) :=
  fun _ hj => ⟨⟨⟨hj.continues.lt, hj.continues.kind⟩, hj.closed⟩, rfl⟩

theorem keeps_addBlock (b : Builder) (block : Block) (jumps : List Jump) :
    b.Keeps (b.addBlock block jumps) := by
  intro j hj
  have hne : j.source ≠ b.blocks.size := Nat.ne_of_lt hj.continues.lt
  refine ⟨⟨⟨?_, ?_⟩, ?_⟩, ?_⟩
  · rw [Graph.size, graph, size_addBlock]
    exact Nat.lt_succ_of_lt hj.continues.lt
  · rw [block_addBlock, if_neg hne]
    exact hj.continues.kind
  · rw [addBlock, addEdges_eq]
    exact hj.closed
  · rw [Graph.stmts, block_addBlock, if_neg hne]
    rfl

theorem keeps_enterLoop (b : Builder) (s : Stmt) : b.Keeps (b.enterLoop s) :=
  (keeps_addBlock b _ _).trans (keeps_after _ _ _)

theorem keeps_closeLoop (b : Builder) (ends : List Jump) (head : Nat) :
    b.Keeps (b.closeLoop ends head) := by
  match ends with
  | [] => exact fun j hj => ⟨hj, rfl⟩
  | [k] => exact keeps_addEdge b _ _
  | k :: l :: rest => exact (keeps_addBlock b _ _).trans (keeps_addEdge _ _ _)

theorem keeps_leaveLoop (b inner : Builder) : inner.Keeps (b.leaveLoop inner) :=
  (keeps_closeLoop inner _ _).trans (keeps_after _ _ _)

theorem keeps_run :
    (∀ s b b', stmt b s = .ok b' → b.InRange → b'.InRange ∧ b.Keeps b') ∧
      ∀ l b b', stmts b l = .ok b' → b.InRange → b'.InRange ∧ b.Keeps b' := by
  apply run_induction
  case plain => exact fun b s _ hb => ⟨hb.push s, keeps_push hb s⟩
  case block => exact fun b t body b' h => h
  case ifThen =>
    intro b t c yes b' _ ih hb
    have hyes := (ih (inRange_after _ rfl)).2
    exact ⟨inRange_after _ rfl, ((keeps_pushLast hb _ _).trans hyes).trans (keeps_after _ _ _)⟩
  case ifElse =>
    intro b t c yes no b₁ b₂ _ ih₁ _ ih₂ hb
    have hyes := (ih₁ (inRange_after _ rfl)).2
    have hno := (ih₂ (inRange_after _ rfl)).2
    have hboth := (hyes.trans (keeps_after b₁ _ _)).trans hno
    exact ⟨inRange_after _ rfl, ((keeps_pushLast hb _ _).trans hboth).trans (keeps_after _ _ _)⟩
  case loop =>
    intro b t c body b' _ ih hb
    have hbody := (ih (inRange_after _ rfl)).2
    exact ⟨inRange_after _ rfl, ((keeps_enterLoop b _).trans hbody).trans (keeps_leaveLoop b b')⟩
  case ret =>
    intro b t value hb
    exact ⟨inRange_after _ rfl, (keeps_pushLast hb _ _).trans (keeps_addEdge _ _ _)⟩
  case brk =>
    intro b t jumps _ hb
    exact ⟨inRange_after _ rfl, (keeps_pushLast hb _ []).trans (keeps_after _ _ _)⟩
  case cont =>
    intro b t jumps _ hb
    exact ⟨inRange_after _ rfl, (keeps_pushLast hb _ []).trans (keeps_after _ _ _)⟩
  case nil => exact fun b hb => ⟨hb, fun j hj => ⟨hj, rfl⟩⟩
  case cons =>
    intro b s rest b₁ b₂ _ ih₁ ih₂ hb
    obtain ⟨hb₁, hkeep₁⟩ := ih₁ hb
    obtain ⟨hb₂, hkeep₂⟩ := ih₂ hb₁
    exact ⟨hb₂, hkeep₁.trans hkeep₂⟩

end Builder

end Backflow
