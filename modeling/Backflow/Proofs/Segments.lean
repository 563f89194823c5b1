import Backflow.Proofs.ControlFlow
import Mathlib.Data.List.Perm.Basic
import Mathlib.Data.List.SplitBy

namespace Backflow

namespace Stmt

mutual

/-- A statement as part of a sequence: the statements of a block stand in its place. -/
def splice : Stmt → List Stmt
  | .block _ body => spliceList body
  | s => [s]

def spliceList : List Stmt → List Stmt
  | [] => []
  | s :: rest => s.splice ++ spliceList rest

end

/-- The statements that a test decides on. Each begins a sequence of its own. -/
def branches : Stmt → List Stmt
  | .ifThen _ _ yes => [yes]
  | .ifElse _ _ yes no => [yes, no]
  | .loop _ _ body => [body]
  | _ => []

def isLoop : Stmt → Bool
  | .loop _ _ _ => true
  | _ => false

/-- A sequence cut after each statement that ends a block and before each loop. -/
def cut (l : List Stmt) : List (List Stmt) := l.splitBy fun s u => !s.endsBlock && !u.isLoop

def inner (s : Stmt) : List (List Stmt) := (s.preorder.flatMap branches).flatMap fun u => cut u.splice

def innerList (l : List Stmt) : List (List Stmt) := ((preorderList l).flatMap branches).flatMap fun u => cut u.splice

variable {s : Stmt} {l rest : List Stmt}

theorem isLoop_of_passed (h : s.endsBlock = false) : s.isLoop = false := by
  cases s with
  | loop => cases h
  | _ => rfl

theorem Plain.splice_eq (h : s.Plain) : s.splice = [s] := by
  apply h.cases (P := fun s => s.splice = [s]) <;> intros <;> rfl

theorem Plain.inner_eq (h : s.Plain) : s.inner = [] := by
  apply h.cases (P := fun s => s.inner = []) <;> intros <;> rfl

theorem inner_block (t : Tag) (body : List Stmt) : (block t body).inner = innerList body := by
  simp [inner, innerList, preorder, branches]

theorem inner_ifThen (t : Tag) (c : Expr) (yes : Stmt) : (ifThen t c yes).inner = cut yes.splice ++ yes.inner := by
  simp [inner, preorder, branches]

theorem inner_ifElse (t : Tag) (c : Expr) (yes no : Stmt) : (ifElse t c yes no).inner =
    cut yes.splice ++ (cut no.splice ++ (yes.inner ++ no.inner)) := by
  simp [inner, preorder, branches]

theorem inner_loop (t : Tag) (c : Expr) (body : Stmt) : (loop t c body).inner = cut body.splice ++ body.inner := by
  simp [inner, preorder, branches]

theorem innerList_cons (s : Stmt) (rest : List Stmt) : innerList (s :: rest) = s.inner ++ innerList rest := by
  simp [inner, innerList, preorderList]

theorem cut_concat (hl : ∀ u ∈ l, u.endsBlock = false) (hs : s.isLoop = false) : cut (l ++ [s]) = [l ++ [s]] := by
  refine List.splitBy_of_isChain (by simp) (List.Pairwise.isChain ?_)
  refine List.pairwise_append.2 ⟨?_, List.pairwise_singleton _ _, fun u hu v hv => ?_⟩
  · refine List.pairwise_of_forall_mem_list fun u hu v hv => ?_
    simp [hl u hu, isLoop_of_passed (hl v hv)]
  · rw [List.mem_singleton.1 hv]
    simp [hl u hu, hs]

theorem cut_ends (hs : s.endsBlock = true) (l rest : List Stmt) :
    cut (l ++ s :: rest) = cut (l ++ [s]) ++ cut rest := by
  rw [List.append_cons]
  exact List.splitBy_append fun u hu v _ => by simp_all

theorem cut_loop (t : Tag) (c : Expr) (body : Stmt) (l rest : List Stmt) :
    cut (l ++ loop t c body :: rest) = cut l ++ [loop t c body] :: cut rest := by
  have halone : cut (loop t c body :: rest) = [loop t c body] :: cut rest := cut_ends (l := []) rfl rest
  rw [← halone]
  exact List.splitBy_append_cons rest fun u _ => by simp [isLoop]

theorem cut_passed (hl : ∀ u ∈ l, u.endsBlock = false) (hne : l ≠ []) : cut l = [l] := by
  obtain ⟨early, s, rfl⟩ := (List.eq_nil_or_concat' l).resolve_left hne
  refine cut_concat (fun u hu => hl u (List.mem_append_left _ hu)) (isLoop_of_passed (hl s ?_))
  exact List.mem_append_right _ List.mem_cons_self

end Stmt

open Stmt (cut)

namespace Graph

variable {g g' : Graph} {n : Nat}

def segments (g : Graph) (n : Nat) : List (List Stmt) :=
  ((List.range n).filter fun i => (g.block i).kind = .basic).map g.stmts

theorem segments_succ (g : Graph) (n : Nat) : g.segments (n + 1) =
    g.segments n ++ if (g.block n).kind = .basic then [g.stmts n] else [] := by
  rw [segments, List.range_succ, List.filter_append, List.map_append]
  by_cases hk : (g.block n).kind = .basic <;> simp [segments, hk]

theorem segments_congr (hkind : ∀ i < n, (g'.block i).kind = (g.block i).kind)
    (hstmts : ∀ i < n, g'.stmts i = g.stmts i) : g'.segments n = g.segments n := by
  have hbasic : (List.range n).filter (fun i => (g'.block i).kind = .basic) =
      (List.range n).filter fun i => (g.block i).kind = .basic :=
    List.filter_congr fun i hi => by rw [hkind i (List.mem_range.1 hi)]
  rw [segments, hbasic]
  exact List.map_congr_left fun i hi => hstmts i (List.mem_range.1 (List.mem_of_mem_filter hi))

end Graph

namespace Builder

variable {b : Builder} {s : Stmt} {rest : List Stmt} {next : List Jump}

def cuts (b : Builder) (rest : List Stmt) : List (List Stmt) :=
  b.graph.segments b.nextBlock ++ cut (b.graph.stmts b.nextBlock ++ rest)

theorem cuts_ends (hs : s.endsBlock = true) (b : Builder) (rest : List Stmt) :
    b.cuts (s :: rest) = b.cuts [s] ++ cut rest := by
  rw [cuts, cuts, Stmt.cut_ends hs, List.append_assoc]

theorem cuts_of_after (hf : b.front = .after next) (rest : List Stmt) :
    b.cuts rest = b.graph.segments b.blocks.size ++ cut rest := by
  have hnil : b.graph.stmts b.blocks.size = [] := Graph.stmts_of_le (Nat.le_refl _)
  rw [cuts, nextBlock, hf]
  simp only [hnil, List.nil_append]

theorem Shaped.segments_size (h : b.Shaped) : b.graph.segments b.blocks.size = b.cuts [] := by
  have hplain := h.plain_nextBlock
  cases hf : b.front with
  | after jumps => rw [cuts_of_after hf, cut, List.splitBy_nil, List.append_nil]
  | inBlock i =>
      have hopen := h.opened i hf
      have hstmts := (h.graph.blocks i (h.inRange i hf)).basic_iff.1 hopen.kind
      rw [nextBlock, hf] at hplain
      rw [cuts, nextBlock, hf, ← hopen.last, Graph.segments_succ, if_pos hopen.kind]
      simp only [List.append_nil]
      rw [Stmt.cut_passed hplain hstmts]

theorem Shaped.cuts_after (h : b.Shaped) (next : List Jump) (rest : List Stmt) :
    cuts { b with front := .after next } rest = b.cuts [] ++ cut rest := by
  rw [cuts_of_after rfl, ← h.segments_size]
  rfl

theorem Shaped.segments_nextBlock (h : b.Shaped) (s : Stmt) :
    (b.push s).graph.segments b.nextBlock = b.graph.segments b.nextBlock := by
  have hblock (i : Nat) (hi : i < b.nextBlock) : (b.push s).graph.block i = b.graph.block i := by
    rw [block_push h.inRange, if_neg (Nat.ne_of_lt hi)]
  exact Graph.segments_congr (fun i hi => congrArg Block.kind (hblock i hi))
    fun i hi => congrArg Block.stmts (hblock i hi)

theorem Shaped.cuts_push (h : b.Shaped) (s : Stmt) (rest : List Stmt) : (b.push s).cuts rest = b.cuts (s :: rest) := by
  have hnext : (b.push s).nextBlock = b.nextBlock := by rw [nextBlock, push_front]
  rw [cuts, hnext, h.segments_nextBlock, stmts_push h.inRange, if_pos rfl, List.append_assoc]
  rfl

theorem Shaped.cuts_pushLast (h : b.Shaped) (hs : s.endsBlock = true) (hloop : s.isLoop = false) (next : List Jump)
    (rest : List Stmt) : (b.pushLast s next).cuts rest = b.cuts (s :: rest) := by
  have hsegments : (b.push s).graph.segments (b.push s).blocks.size = b.cuts [s] := by
    rw [← h.nextBlock_last s, Graph.segments_succ, if_pos (h.basic_nextBlock s), h.segments_nextBlock,
      stmts_push h.inRange, if_pos rfl, cuts, Stmt.cut_concat h.plain_nextBlock hloop]
  rw [cuts_of_after rfl, cuts_ends hs, ← hsegments]
  rfl

theorem segments_addBlock (b : Builder) (block : Block) (jumps : List Jump) :
    (b.addBlock block jumps).graph.segments (b.addBlock block jumps).blocks.size =
      b.graph.segments b.blocks.size ++ if block.kind = .basic then [block.stmts] else [] := by
  have hold : (b.addBlock block jumps).graph.segments b.blocks.size = b.graph.segments b.blocks.size :=
    Graph.segments_congr (fun i hi => congrArg Block.kind (block_addBlock_lt b _ _ hi))
      fun i hi => congrArg Block.stmts (block_addBlock_lt b _ _ hi)
  rw [size_addBlock, Graph.segments_succ, Graph.stmts, block_addBlock_self, hold]

theorem Shaped.cuts_enterLoop (h : b.Shaped) (t : Tag) (c : Expr) (body : Stmt) (rest : List Stmt) :
    (b.enterLoop (.loop t c body)).cuts rest = b.cuts (.loop t c body :: rest) := by
  have hhead := segments_addBlock b { kind := .basic, stmts := [.loop t c body] } b.front.jumps
  rw [cuts_of_after rfl, cuts, Stmt.cut_loop]
  refine (congrArg (· ++ cut rest) hhead).trans ?_
  rw [h.segments_size, cuts]
  simp

theorem segments_closeLoop (b : Builder) (ends : List Jump) (head : Nat) :
    (b.closeLoop ends head).graph.segments (b.closeLoop ends head).blocks.size = b.graph.segments b.blocks.size := by
  match ends with
  | [] => rfl
  | [j] => rfl
  | j :: k :: rest => exact (segments_addBlock b _ _).trans (List.append_nil _)

theorem perm_cuts_ends {b' : Builder} {inside : List (List Stmt)} (hs : s.endsBlock = true)
    (h : (b'.cuts []).Perm (b.cuts [s] ++ inside)) (rest : List Stmt) :
    (b'.cuts [] ++ cut rest).Perm (b.cuts (s :: rest) ++ inside) := by
  refine (h.append_right _).trans ?_
  rw [cuts_ends hs b rest, List.append_assoc, List.append_assoc]
  exact List.perm_append_comm.append_left _

/-- The statements that are built lie in the blocks as the cuts say. -/
theorem cuts_run :
    (∀ s b b', stmt b s = .ok b' → b.Shaped → ∀ rest, (b'.cuts rest).Perm (b.cuts (s.splice ++ rest) ++ s.inner)) ∧
      ∀ l b b', stmts b l = .ok b' → b.Shaped → ∀ rest,
        (b'.cuts rest).Perm (b.cuts (Stmt.spliceList l ++ rest) ++ Stmt.innerList l) := by
  apply run_induction
  case plain =>
    intro b s hs hb rest
    rw [hb.cuts_push, hs.splice_eq, hs.inner_eq, List.append_nil]
    exact .refl _
  case block =>
    intro b t body b' ih hb rest
    rw [Stmt.inner_block, Stmt.splice]
    exact ih hb rest
  case ifThen =>
    intro b t c yes b' hrun ih hb rest
    have htest := hb.pushTest (.ifThen t c yes) .ifTrue
    have hyes := ih htest []
    rw [List.append_nil, hb.cuts_pushLast rfl rfl, cuts_ends rfl, List.append_assoc] at hyes
    rw [(shaped_run.1 _ _ _ hrun htest).cuts_after, Stmt.inner_ifThen]
    exact perm_cuts_ends rfl hyes rest
  case ifElse =>
    intro b t c yes no b₁ b₂ hrun₁ ih₁ hrun₂ ih₂ hb rest
    have htest := hb.pushTest (.ifElse t c yes no) .ifTrue
    have hb₁ := shaped_run.1 _ _ _ hrun₁ htest
    have helse := hb.secondBranch hrun₁ hb₁
    have hyes := ih₁ htest []
    have hno := ih₂ helse []
    rw [List.append_nil, hb.cuts_pushLast rfl rfl, cuts_ends rfl, List.append_assoc] at hyes
    rw [List.append_nil, hb₁.cuts_after, List.append_assoc] at hno
    rw [(shaped_run.1 _ _ _ hrun₂ helse).cuts_after, Stmt.inner_ifElse]
    refine perm_cuts_ends rfl (hno.trans ((hyes.append_right _).trans ?_)) rest
    rw [List.append_assoc, List.append_assoc]
    exact ((List.perm_append_comm_assoc _ _ _).append_left _).append_left _
  case loop =>
    intro b t c body b' hrun ih hb rest
    have henter := hb.enterLoop (.loop t c body)
    have hbody := ih henter []
    rw [List.append_nil, hb.cuts_enterLoop, cuts_ends rfl, List.append_assoc] at hbody
    have hleave : (b.leaveLoop b').cuts rest = b'.cuts [] ++ cut rest := by
      rw [cuts_of_after rfl, ← (shaped_run.1 _ _ _ hrun henter).segments_size, ← segments_closeLoop b']
      rfl
    rw [hleave, Stmt.inner_loop]
    exact perm_cuts_ends rfl hbody rest
  case ret =>
    intro b t value hb rest
    refine .of_eq ((hb.cuts_pushLast (s := .ret t value) rfl rfl [] rest).trans ?_)
    exact (List.append_nil _).symm
  case brk =>
    intro b t jumps _ hb rest
    refine .of_eq ((hb.cuts_pushLast (s := .brk t) rfl rfl [] rest).trans ?_)
    exact (List.append_nil _).symm
  case cont =>
    intro b t jumps _ hb rest
    refine .of_eq ((hb.cuts_pushLast (s := .cont t) rfl rfl [] rest).trans ?_)
    exact (List.append_nil _).symm
  case nil =>
    intro b _ rest
    exact .of_eq (List.append_nil _).symm
  case cons =>
    intro b s rest b₁ b₂ hrun ih₁ ih₂ hb more
    have hfirst := ih₁ hb (Stmt.spliceList rest ++ more)
    have hrest := ih₂ (shaped_run.1 _ _ _ hrun hb) more
    rw [Stmt.spliceList, Stmt.innerList_cons, List.append_assoc, ← List.append_assoc (b.cuts _)]
    exact hrest.trans (hfirst.append_right _)

end Builder

end Backflow
