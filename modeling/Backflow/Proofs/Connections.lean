import Backflow.Proofs.GraphFlow

namespace Backflow

namespace Graph

variable {g g' : Graph} {i : Nat} {e : Edge} {new : Edge → Prop}

theorem Continues.ne_latch (h : g.Continues i) : (g.block i).kind ≠ .latch := by
  rcases h.kind with hk | hk
  · rw [hk]; nofun
  · rw [hk]; nofun

theorem extends_refl (g : Graph) : g.Extends g fun _ => False where
  stmts _ _ := rfl
  kind _ _ := rfl
  short i hi := by rw [stmts_of_le hi]; exact Nat.zero_le 1
  edges _ := by rw [or_false]
  source _ h := h.elim

theorem Extends.cons_edge (h : g.Extends g' new)
    (he : e.source < g.size → (g.block e.source).kind ≠ .latch) :
    g.Extends ⟨g'.blocks, e :: g'.edges⟩ fun e' => new e' ∨ e' = e where
  stmts := h.stmts
  kind := h.kind
  short := h.short
  edges e' := by rw [List.mem_cons, h.edges, or_comm, or_assoc]
  source e' := by
    rintro (he' | rfl)
    · exact h.source e' he'
    · exact he

theorem infix_concat {l : List Stmt} {a c s : Stmt} :
    [a, c] <:+: l ++ [s] ↔ [a, c] <:+: l ∨ l.getLast? = some a ∧ c = s := by
  rw [List.infix_concat_iff, List.suffix_concat_iff, or_comm]
  refine or_congr Iff.rfl ⟨?_, ?_⟩
  · rintro (h | ⟨r, hr, hsuff⟩)
    · cases h
    · obtain ⟨rfl, rfl⟩ : r = [a] ∧ s = c := by
        have := List.append_inj' (show [a] ++ [c] = r ++ [s] from hr) rfl
        exact ⟨this.1.symm, (List.cons.inj this.2).1.symm⟩
      obtain ⟨early, rfl⟩ := hsuff
      simp
  · rintro ⟨hlast, rfl⟩
    obtain ⟨early, rfl⟩ := List.getLast?_eq_some_iff.1 hlast
    exact Or.inr ⟨[a], rfl, early, rfl⟩

theorem Arrives.congr {t : Option Stmt} (h : g.Arrives i t)
    (hhead : ∀ i, (g'.stmts i).head? = (g.stmts i).head?)
    (hkind : ∀ i, (g'.block i).kind = (g.block i).kind) (hedges : g'.edges = g.edges) :
    g'.Arrives i t := by
  induction h with
  | exit => exact .exit
  | first hs => exact .first ((hhead _).trans hs)
  | latch he hk _ ih => exact .latch (hedges ▸ he) ((hkind _).trans hk) ih

theorem Extends.connects_latch {head : Nat} {t : Option Stmt} {jumps : List Jump}
    (h : g.Extends g' fun e => (∃ j ∈ jumps, e = ⟨j.source, g.size, j.branch⟩) ∨ e = ⟨g.size, head, .back⟩)
    (hg : g.WellFormed) (hjumps : ∀ j ∈ jumps, g.Continues j.source) (hlt : head < g.size)
    (ht : ∀ u, g.Arrives head u ↔ u = t) (hlatch : g'.block g.size = { kind := .latch }) :
    g.Connects g' jumps t := by
  have hnil : g'.stmts g.size = [] := congrArg Block.stmts hlatch
  refine h.connects hg.closed g.size (fun e x he hx => ?_) (fun j hj => ?_) fun u => ?_
  · rcases he with he | rfl
    · exact he
    · cases x with
      | none => exact absurd hx (Nat.ne_of_gt hg.size_pos)
      | some a =>
          rw [Ends, hnil] at hx
          cases hx
  · exact ⟨(hjumps j hj).lt, Or.inl ⟨j, hj, rfl⟩⟩
  · rw [← ht, ← h.arrives hg.closed hlt]
    constructor
    · intro ha
      generalize hn : g.size = n at ha
      cases ha with
      | exit => exact absurd hn (Nat.ne_of_gt hg.exit_lt)
      | first hs =>
          rw [← hn, hnil] at hs
          cases hs
      | @latch e _ he _ ha =>
          rcases (h.edges e).1 he with he | ⟨j, hj, rfl⟩ | rfl
          · exact absurd hn (Nat.ne_of_gt (hg.edges e he).source_lt)
          · exact absurd hn (Nat.ne_of_gt (hjumps j hj).lt)
          · exact ha
    · intro ha
      have he := (h.edges ⟨g.size, head, .back⟩).2 (Or.inr (Or.inr rfl))
      exact .latch he (congrArg Block.kind hlatch) ha

end Graph

namespace Builder

variable {b : Builder} {s : Stmt} {t : Option Stmt} {jumps : List Jump}

theorem extends_addBlock (b : Builder) (block : Block) (hblock : block.stmts.length ≤ 1)
    (hjumps : ∀ j ∈ jumps, b.graph.Continues j.source) :
    b.graph.Extends (b.addBlock block jumps).graph
      fun e => ∃ j ∈ jumps, e = ⟨j.source, b.blocks.size, j.branch⟩ where
  stmts i hi := by
    have hne : i ≠ b.blocks.size := Nat.ne_of_lt hi
    rw [Graph.stmts, block_addBlock, if_neg hne]
    rfl
  kind i hi := by
    have hne : i ≠ b.blocks.size := Nat.ne_of_lt hi
    rw [block_addBlock, if_neg hne]
  short i hi := by
    rw [Graph.stmts, block_addBlock]
    split
    · exact hblock
    · rw [Graph.block_of_le hi]
      exact Nat.zero_le 1
  edges e := mem_edges_addEdges
  source e he _ := by
    obtain ⟨j, hj, rfl⟩ := he
    exact (hjumps j hj).ne_latch

theorem Shaped.connects_push_open (h : b.Shaped) (s : Stmt) {i : Nat} (hf : b.front = .inBlock i) :
    b.graph.Connects (b.push s).graph [⟨i, .sequence⟩] (some s) := by
  have hopen := h.opened i hf
  have hnext : b.nextBlock = i := by rw [nextBlock, hf]
  have hstmts : ∀ k, (b.push s).graph.stmts k =
      if k = i then b.graph.stmts k ++ [s] else b.graph.stmts k := fun k => by
    rw [stmts_push h.inRange, hnext]
  have hsource : ∀ e ∈ b.edges, (b.push s).graph.stmts e.source = b.graph.stmts e.source :=
    fun e he => by rw [hstmts, if_neg (hopen.source_ne e he)]
  have hedges : (b.push s).graph.edges = b.graph.edges := by rw [Builder.push, hf]; rfl
  have hkind : ∀ k, ((b.push s).graph.block k).kind = (b.graph.block k).kind := by
    intro k
    rw [block_push h.inRange, hf]
    split <;> rfl
  have hhead : ∀ k, ((b.push s).graph.stmts k).head? = (b.graph.stmts k).head? := by
    intro k
    rw [hstmts]
    split
    case isTrue hk =>
      have hne : b.graph.stmts k ≠ [] := by
        rw [hk]
        exact (h.graph.blocks i (h.inRange i hf)).basic_iff.1 hopen.kind
      exact List.head?_append_of_ne_nil _ hne
    case isFalse => rfl
  intro tr
  constructor
  · intro hp
    cases hp with
    | @inside k a c hin =>
        rw [hstmts] at hin
        split at hin
        case isTrue hk =>
          rcases Graph.infix_concat.1 hin with hin | ⟨hlast, rfl⟩
          · exact Or.inl (.inside hin)
          · exact Or.inr ⟨_, List.mem_cons_self, some a, hk ▸ hlast, rfl⟩
        case isFalse => exact Or.inl (.inside hin)
    | along he hx ha =>
        rw [hedges] at he
        refine Or.inl (.along he ((Graph.ends_congr (hsource _ he)).1 hx) ?_)
        exact ha.congr (fun k => (hhead k).symm) (fun k => (hkind k).symm) hedges.symm
  · rintro (hp | ⟨j, hj, x, hx, rfl⟩)
    · cases hp with
      | @inside k a c hin =>
          refine .inside (i := k) ?_
          rw [hstmts]
          split
          · exact Graph.infix_concat.2 (Or.inl hin)
          · exact hin
      | along he hx ha =>
          refine .along (hedges ▸ he) ((Graph.ends_congr (hsource _ he)).2 hx) ?_
          exact ha.congr hhead hkind hedges
    · cases List.mem_singleton.1 hj
      cases x with
      | none => exact absurd (hnext.trans hx) h.nextBlock_ne_entry
      | some a =>
          refine .inside (i := i) ?_
          rw [hstmts, if_pos rfl]
          exact Graph.infix_concat.2 (Or.inr ⟨hx, rfl⟩)

theorem Shaped.connects_push (h : b.Shaped) (s : Stmt) :
    b.graph.Connects (b.push s).graph b.front.jumps (some s) := by
  cases hf : b.front with
  | after jumps =>
      have hjumps : ∀ j ∈ jumps, b.graph.Continues j.source := by
        intro j hj
        refine h.continues ?_
        rwa [hf]
      have hnext : b.nextBlock = b.blocks.size := by rw [nextBlock, hf]
      have hpush : (b.push s).graph = (b.addBlock { kind := .basic, stmts := [s] } jumps).graph := by
        rw [Builder.push, hf]
        rfl
      have hext := extends_addBlock b { kind := .basic, stmts := [s] } (Nat.le_refl 1) hjumps
      rw [← hpush] at hext
      refine hext.connects h.graph.closed _ (fun e x he _ => he)
        (fun j hj => ⟨(hjumps j hj).lt, j, hj, rfl⟩) ?_
      intro u
      refine (h.wellFormed_push s).arrives_first ?_ ?_
      · exact hnext ▸ nextBlock_lt_push h.inRange s
      · rw [hpush, Graph.stmts, block_addBlock, if_pos rfl]
        rfl
  | inBlock i => exact h.connects_push_open s hf

theorem getLast?_push (h : b.InRange) (s : Stmt) :
    ((b.push s).graph.stmts b.nextBlock).getLast? = some s := by
  rw [stmts_push h, if_pos rfl, List.getLast?_concat]

theorem Shaped.connects_enterLoop (h : b.Shaped) (s : Stmt) :
    b.graph.Connects (b.enterLoop s).graph b.front.jumps (some s) := by
  have hconn := h.closed.connects_push s
  rw [enterLoop_eq]
  exact hconn

theorem connects_addEdge {j : Jump} {target : Nat} (hg : b.graph.WellFormed)
    (hj : b.graph.Continues j.source) (ht : ∀ u, (b.addEdge j target).graph.Arrives target u ↔ u = t) :
    b.graph.Connects (b.addEdge j target).graph [j] t := by
  have hext := (Graph.extends_refl b.graph).cons_edge (e := ⟨j.source, target, j.branch⟩)
    fun _ => hj.ne_latch
  refine hext.connects hg.closed target (fun e x he _ => ⟨j, List.mem_cons_self, ?_⟩) (fun k hk => ?_) ht
  · exact he.resolve_left id
  · rw [List.mem_singleton.1 hk]
    exact ⟨hj.lt, Or.inr rfl⟩

theorem leaves_closing {g : Graph} {j : Jump} {tr : Transition} :
    g.Leaves [closing j] t tr ↔ g.Leaves [j] t tr := by
  have houtcome : (closing j).branch.outcome = j.branch.outcome := by
    unfold closing
    split
    case isTrue hb => rw [hb]; rfl
    case isFalse => rfl
  simp only [Graph.Leaves, List.mem_singleton, exists_eq_left, closing_source, houtcome]

/-- The ends of a loop's body are connected to its head, through a latch or not. -/
theorem connects_closeLoop {ends : List Jump} {head : Nat} (hg : b.graph.WellFormed)
    (hends : ∀ j ∈ ends, b.graph.Continues j.source) (hlt : head < b.blocks.size)
    (ht : ∀ u, b.graph.Arrives head u ↔ u = t) :
    b.graph.Connects (b.closeLoop ends head).graph ends t := by
  match ends with
  | [] =>
      intro tr
      rw [or_iff_left Graph.leaves_nil]
      exact Iff.rfl
  | [j] =>
      have hj := hends j List.mem_cons_self
      have hclosing : b.graph.Continues (closing j).source := by rwa [closing_source]
      have hext := (Graph.extends_refl b.graph).cons_edge
        (e := ⟨(closing j).source, head, (closing j).branch⟩) fun _ => hclosing.ne_latch
      intro tr
      rw [← leaves_closing]
      refine connects_addEdge (j := closing j) hg hclosing (fun u => ?_) tr
      exact (hext.arrives hg.closed hlt).trans (ht u)
  | j :: k :: rest =>
      have hext := (extends_addBlock b { kind := .latch } (Nat.zero_le 1) hends).cons_edge
        (e := ⟨b.blocks.size, head, .back⟩) fun hlt => absurd hlt (Nat.lt_irrefl _)
      exact hext.connects_latch hg hends hlt ht ((block_addBlock b _ _ _).trans (if_pos rfl))

theorem Shaped.connects_finish (h : b.Shaped) : b.graph.Connects b.finish b.front.jumps none := by
  have hext : b.graph.Extends b.finish fun e => ∃ j ∈ b.front.jumps, e = ⟨j.source, Graph.exit, j.branch⟩ :=
    { stmts := fun i _ => stmts_finish b i
      kind := fun i _ => kind_finish b i
      short := fun i hi => by
        rw [stmts_finish, Graph.stmts_of_le hi]
        exact Nat.zero_le 1
      edges := fun e => mem_edges_finish
      source := fun e he _ => by
        obtain ⟨j, hj, rfl⟩ := he
        exact (h.continues hj).ne_latch }
  refine hext.connects h.graph.closed Graph.exit (fun e x he _ => he) (fun j hj => ?_) fun u => ?_
  · exact ⟨(h.continues hj).lt, j, hj, rfl⟩
  · exact h.wellFormed_finish.arrives_exit

end Builder

end Backflow
