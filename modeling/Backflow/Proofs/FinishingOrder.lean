import Backflow.Proofs.Escape

namespace Backflow

namespace Search

variable {succ : Nat → List Nat} {start i : Nat} {nodes unseen stack finished below : List Nat}

/-- The search has come to the node and is not done with it; `high` is what lies above it on the stack. -/
structure Open (unseen stack finished high : List Nat) (i : Nat) : Prop where
  seen : i ∉ unseen
  unfinished : i ∉ finished
  first : i ∉ high
  place : ∃ low, stack = high ++ i :: low

theorem Open.of_leave {finished' high : List Nat} {k : Nat} (h : Open unseen below finished' high k)
    (hfinished : finished ⊆ finished') (hi : i ∈ finished') : Open unseen (i :: below) finished (i :: high) k := by
  obtain ⟨low, hlow⟩ := h.place
  refine ⟨h.seen, fun hk => h.unfinished (hfinished hk), fun hk => ?_, low, by rw [hlow]; rfl⟩
  rcases List.mem_cons.1 hk with rfl | hk
  · exact h.unfinished hi
  · exact h.first hk

theorem Open.of_visit {fresh high : List Nat} {k : Nat}
    (h : Open (unseen.erase i) (fresh ++ i :: below) finished high k)
    (hfresh : ∀ j ∈ fresh, j ∈ unseen.erase i) : (k = i ∧ high = fresh) ∨
      ∃ high', high = fresh ++ i :: high' ∧ Open unseen (i :: below) finished (i :: high') k := by
  obtain ⟨low, hlow⟩ := h.place
  obtain ⟨rest, rfl, hrest⟩ : ∃ rest, high = fresh ++ rest ∧ i :: below = rest ++ k :: low := by
    rcases List.append_eq_append_iff.1 hlow with ⟨rest, hhigh, hrest⟩ | ⟨rest, hsplit, hrest⟩
    · exact ⟨rest, hhigh, hrest⟩
    · cases rest with
      | nil => exact ⟨[], by simpa using hsplit.symm, by simpa using hrest.symm⟩
      | cons j rest =>
          obtain ⟨rfl, _⟩ := List.cons_eq_cons.1 hrest
          exact absurd (hfresh k (by simp [hsplit])) h.seen
  cases rest with
  | nil =>
      obtain ⟨rfl, _⟩ := List.cons_eq_cons.1 hrest
      exact Or.inl ⟨rfl, List.append_nil fresh⟩
  | cons j high' =>
      obtain ⟨rfl, hbelow⟩ := List.cons_eq_cons.1 hrest
      have hfirst : k ∉ i :: high' := fun hk => h.first (List.mem_append_right fresh hk)
      have hki : k ≠ i := List.ne_of_not_mem_cons hfirst
      refine Or.inr ⟨high', rfl, fun hk => h.seen ((List.mem_erase_of_ne hki).2 hk), h.unfinished, hfirst, low, ?_⟩
      rw [hbelow]
      rfl

/-- What a search keeps for the order in which it finishes the nodes: paths lead from an open node to all that lies
above it. Each successor of an open node lies above it or is finished, and each successor of a finished node was
finished earlier, if no path leads from the successor back to the node. -/
structure Unwinds (succ : Nat → List Nat) (start : Nat) (nodes unseen stack finished : List Nat) : Prop
    extends Explores succ start nodes unseen stack finished where
  inside : stack ⊆ nodes
  found : ∀ high i, Open unseen stack finished high i →
    ∀ j ∈ high, Relation.ReflTransGen (fun i j => j ∈ succ i) i j
  above : ∀ high i, Open unseen stack finished high i →
    ∀ j ∈ succ i, (j ∈ high ∨ j ∈ finished) ∨ Relation.ReflTransGen (fun i j => j ∈ succ i) j i
  sorted : ∀ late i early, finished = late ++ i :: early →
    ∀ j ∈ succ i, j ∈ early ∨ Relation.ReflTransGen (fun i j => j ∈ succ i) j i

theorem unwinds_init (hstart : start ∈ nodes) : Unwinds succ start nodes nodes [start] [] := by
  have hopen (high : List Nat) (i : Nat) : ¬ Open nodes [start] [] high i := by
    rintro ⟨hseen, _, _, low, hlow⟩
    have hi : i ∈ [start] := hlow ▸ List.mem_append_right high List.mem_cons_self
    rw [List.mem_singleton.1 hi] at hseen
    exact hseen hstart
  refine ⟨explores_init (List.Subset.refl _), by simpa using hstart, fun high i h => absurd h (hopen high i),
    fun high i h => absurd h (hopen high i), fun late i early h => ?_⟩
  simp at h

/-- A node that was seen is done with, or leads to the node that the search is at. -/
theorem Unwinds.finished_or_back (h : Unwinds succ start nodes unseen (i :: below) finished) {j : Nat}
    (hnode : j ∈ nodes) (hseen : j ∉ unseen) :
    j ∈ finished ∨ Relation.ReflTransGen (fun i j => j ∈ succ i) j i := by
  refine Classical.or_iff_not_imp_left.2 fun hf => ?_
  obtain ⟨high, low, hplace, hfirst⟩ := List.eq_append_cons_of_mem ((h.kept j hnode hseen).resolve_right hf)
  cases high with
  | nil =>
      rw [(List.cons_eq_cons.1 hplace).1]
  | cons k high =>
      have hpaths := h.found (k :: high) j ⟨hseen, hf, hfirst, low, hplace⟩
      rw [(List.cons_eq_cons.1 hplace).1]
      exact hpaths k List.mem_cons_self

theorem Unwinds.visit (h : Unwinds succ start nodes unseen (i :: below) finished)
    (hnodes : ∀ i ∈ nodes, ∀ j ∈ succ i, j ∈ nodes) : Unwinds succ start nodes (unseen.erase i)
      (((succ i).filter (· ∈ unseen.erase i)).reverse ++ i :: below) finished := by
  have hi : i ∈ nodes := h.inside List.mem_cons_self
  have hmem (j : Nat) : j ∈ ((succ i).filter (· ∈ unseen.erase i)).reverse ↔ j ∈ succ i ∧ j ∈ unseen.erase i := by
    simp
  have hfresh (j : Nat) (hj : j ∈ ((succ i).filter (· ∈ unseen.erase i)).reverse) := ((hmem j).1 hj).2
  refine ⟨h.toExplores.visit, fun k hk => ?_, fun high k hk j hj => ?_, fun high k hk j hj => ?_, h.sorted⟩
  · rcases List.mem_append.1 hk with hk | hk
    · exact hnodes i hi k ((hmem k).1 hk).1
    · exact h.inside hk
  · rcases hk.of_visit hfresh with ⟨rfl, rfl⟩ | ⟨high', rfl, hopen⟩
    · exact .single ((hmem j).1 hj).1
    · have hpaths := h.found _ k hopen
      rcases List.mem_append.1 hj with hj | hj
      · exact (hpaths i List.mem_cons_self).tail ((hmem j).1 hj).1
      · exact hpaths j hj
  · rcases hk.of_visit hfresh with ⟨rfl, rfl⟩ | ⟨high', rfl, hopen⟩
    · by_cases hnew : j ∈ unseen.erase k
      · exact Or.inl (Or.inl ((hmem j).2 ⟨hj, hnew⟩))
      · rcases eq_or_ne j k with rfl | hjk
        · exact Or.inr .refl
        · have hseen : j ∉ unseen := fun hj => hnew ((List.mem_erase_of_ne hjk).2 hj)
          exact (h.finished_or_back (hnodes k hi j hj) hseen).imp_left Or.inr
    · exact (h.above _ k hopen j hj).imp_left fun hj => hj.imp_left (List.mem_append_right _)

theorem Unwinds.leave {finished' : List Nat} (h : Unwinds succ start nodes unseen (i :: below) finished)
    (hseen : i ∉ unseen) (hfinished : finished ⊆ finished') (hi : i ∈ finished')
    (hsorted : ∀ late i early, finished' = late ++ i :: early →
      ∀ j ∈ succ i, j ∈ early ∨ Relation.ReflTransGen (fun i j => j ∈ succ i) j i) :
    Unwinds succ start nodes unseen below finished' := by
  refine ⟨h.toExplores.leave hseen hfinished hi, fun k hk => h.inside (List.mem_cons_of_mem i hk),
    fun high k hk j hj => ?_, fun high k hk j hj => ?_, hsorted⟩
  · exact h.found _ k (hk.of_leave hfinished hi) j (List.mem_cons_of_mem i hj)
  · refine (h.above _ k (hk.of_leave hfinished hi) j hj).imp_left fun hj => ?_
    rcases hj with hj | hj
    · rcases List.mem_cons.1 hj with rfl | hj
      · exact Or.inr hi
      · exact Or.inl hj
    · exact Or.inr (hfinished hj)

theorem Unwinds.postorder_sorted (h : Unwinds succ start nodes unseen stack finished)
    (hnodes : ∀ i ∈ nodes, ∀ j ∈ succ i, j ∈ nodes) :
    ∀ early i late, postorder succ unseen stack finished = early ++ i :: late →
      ∀ j ∈ succ i, j ∈ early ∨ Relation.ReflTransGen (fun i j => j ∈ succ i) j i := by
  fun_induction postorder succ unseen stack finished with
  | case1 unseen finished =>
      intro early i late heq j hj
      have hrev : finished = late.reverse ++ i :: early.reverse := by
        rw [← List.reverse_reverse finished, heq]
        simp
      exact (h.sorted _ i _ hrev j hj).imp_left List.mem_reverse.1
  | case2 unseen finished i below hi unseen' fresh ih => exact ih (h.visit hnodes)
  | case3 unseen finished i below hi hf ih => exact ih (h.leave hi (List.Subset.refl _) hf h.sorted)
  | case4 unseen finished i below hi hf ih =>
      refine ih (h.leave hi (List.subset_cons_self i finished) List.mem_cons_self fun late k early heq => ?_)
      cases late with
      | nil =>
          obtain ⟨rfl, rfl⟩ := List.cons_eq_cons.1 heq
          intro j hj
          have habove := h.above [] i ⟨hi, hf, List.not_mem_nil, below, rfl⟩ j hj
          exact habove.imp_left fun hj => hj.resolve_left List.not_mem_nil
      | cons l late => exact h.sorted late k early (List.cons_eq_cons.1 heq).2

theorem postorder_eq_concat (hseen : start ∉ unseen) (hfinished : start ∉ finished)
    (hbottom : ∃ high, start ∉ high ∧ stack = high ++ [start]) :
    ∃ early, postorder succ unseen stack finished = early ++ [start] := by
  fun_induction postorder succ unseen stack finished with
  | case1 unseen finished => simp at hbottom
  | case2 unseen finished i below hi unseen' fresh ih =>
      obtain ⟨high, hhigh, hstack⟩ := hbottom
      have hseen' : start ∉ unseen' := fun hs => hseen (List.mem_of_mem_erase hs)
      have hfresh : start ∉ fresh.reverse := fun hs =>
        hseen' (of_decide_eq_true (List.mem_filter.1 (List.mem_reverse.1 hs)).2)
      refine ih hseen' hfinished ⟨fresh.reverse ++ high, fun hs => ?_, by rw [hstack, List.append_assoc]⟩
      exact (List.mem_append.1 hs).elim hfresh hhigh
  | case3 unseen finished i below hi hf ih =>
      obtain ⟨high, hhigh, hstack⟩ := hbottom
      cases high with
      | nil => exact absurd ((List.cons_eq_cons.1 hstack).1 ▸ hf) hfinished
      | cons k high =>
          obtain ⟨rfl, hbelow⟩ := List.cons_eq_cons.1 hstack
          exact ih hseen hfinished ⟨high, List.not_mem_of_not_mem_cons hhigh, hbelow⟩
  | case4 unseen finished i below hi hf ih =>
      obtain ⟨high, hhigh, hstack⟩ := hbottom
      cases high with
      | nil =>
          obtain ⟨rfl, rfl⟩ := List.cons_eq_cons.1 hstack
          exact ⟨finished.reverse, by rw [postorder, List.reverse_cons]⟩
      | cons k high =>
          obtain ⟨rfl, hbelow⟩ := List.cons_eq_cons.1 hstack
          have hfinished' : start ∉ i :: finished :=
            List.not_mem_cons_of_ne_of_not_mem (List.ne_of_not_mem_cons hhigh) hfinished
          exact ih hseen hfinished' ⟨high, List.not_mem_of_not_mem_cons hhigh, hbelow⟩

end Search

namespace Graph

variable {g : Graph} {m : Method}

theorem sublist_or_reaches (hg : g.Closed) (hsize : 0 < g.size) {i j : Nat} (hi : i ∈ g.postorder)
    (hj : j ∈ g.successors i) : [j, i].Sublist g.postorder ∨ g.Reaches j i := by
  have hentry : entry ∈ g.indices := mem_indices.2 hsize
  obtain ⟨early, late, hsplit⟩ := List.append_of_mem hi
  have hsorted := (Search.unwinds_init hentry).postorder_sorted
    (fun k _ l hl => mem_indices.2 (hg.successor_lt hl)) early i late hsplit j hj
  refine hsorted.imp_left fun hearly => ?_
  rw [hsplit]
  exact (List.singleton_sublist.2 hearly).append (List.singleton_sublist.2 List.mem_cons_self)

theorem postorder_ends_at_entry (hsize : 0 < g.size) : ∃ early, g.postorder = early ++ [entry] := by
  have hentry : entry ∈ g.indices := mem_indices.2 hsize
  have hseen : entry ∉ g.indices.erase entry := nodup_indices.not_mem_erase
  rw [postorder, Search.postorder, if_pos hentry]
  refine Search.postorder_eq_concat hseen List.not_mem_nil ⟨_, fun hs => ?_, rfl⟩
  exact hseen (of_decide_eq_true (List.mem_filter.1 (List.mem_reverse.1 hs)).2)

theorem exit_reached_of_build (h : build m = .ok g) : g.Reaches entry exit := by
  obtain ⟨b, hrun, hshaped, rfl⟩ := build_eq_finish h
  have hearly : b.early = [] := by rw [Builder.early, Builder.inLoop_of_run hrun]; rfl
  let last : Builder := { b.addEdges b.front.jumps exit with front := .after [], inLoop := none }
  have hentry : b.Escapes [] entry :=
    Builder.untrapped_run.2 _ _ _ hrun [] Builder.untrapped_start entry (Nat.zero_lt_of_lt hshaped.graph.exit_lt)
  have hlast : last.Escapes [] entry := by
    refine hentry.mono (fun e he => Builder.mem_edges_addEdges.2 (Or.inl he)) fun j hj => Or.inl (.single ?_)
    rw [Builder.waiting, hearly, List.append_nil, List.append_nil] at hj
    exact mem_successors.2 ⟨_, Builder.mem_edges_addEdges.2 (Or.inr ⟨j, hj, rfl⟩), rfl, rfl⟩
  apply hlast.resolve_right
  rintro ⟨j, hj, _⟩
  exact List.not_mem_nil hj

theorem dead_iff_of_build (h : build m = .ok g) {i : Nat} (hi : i < g.size) :
    (g.block i).dead = true ↔ i ∉ g.postorder := by
  have hg := wellFormed_of_build h
  have hexit : exit ∈ g.postorder := (mem_postorder_iff hg.closed hg.size_pos).2 (exit_reached_of_build h)
  rw [marked_of_build h i hi]
  rcases eq_or_ne i exit with rfl | hne
  · simp [hexit]
  · simp [hne]

theorem worklist_postorder_of_build (h : build m = .ok g) :
    g.worklist .postorder = g.postorder ++ g.indices.filter fun i => (g.block i).dead := by
  have hdead : g.indices.filter (!g.postorder.contains ·) = g.indices.filter fun i => (g.block i).dead := by
    refine List.filter_congr fun i hi => ?_
    rw [Bool.eq_iff_iff, dead_iff_of_build h (mem_indices.1 hi)]
    simp
  rw [← hdead]
  rfl

/-- The worklist holds every block once. In postorder, the blocks that control can come to are the first, with the
entry as the last of them, and an edge between two of them leads to an earlier one or on a way back to its source; the
dead blocks follow by index. The reversed order is the exact reverse. -/
theorem worklist_of_build (h : build m = .ok g) :
    (∀ o, (g.worklist o).Perm g.indices) ∧
      (∃ reached dead, g.worklist .postorder = reached ++ dead ∧ (∀ i, i ∈ reached ↔ g.Reaches entry i) ∧
        reached.getLast? = some entry ∧
        (∀ e ∈ g.edges, e.source ∈ reached → e.target ∈ reached →
          [e.target, e.source].Sublist reached ∨ g.Reaches e.target e.source) ∧
        dead = g.indices.filter (fun i => (g.block i).dead) ∧ dead.Pairwise (· < ·)) ∧
      g.worklist .reversed = (g.worklist .postorder).reverse := by
  have hg := wellFormed_of_build h
  obtain ⟨early, hearly⟩ := postorder_ends_at_entry hg.size_pos
  refine ⟨worklist_perm hg.size_pos, ⟨g.postorder, _, worklist_postorder_of_build h, fun i => ?_, ?_,
    fun e he hsource _ => ?_, rfl, ?_⟩, rfl⟩
  · exact mem_postorder_iff hg.closed hg.size_pos
  · rw [hearly, List.getLast?_concat]
  · exact sublist_or_reaches hg.closed hg.size_pos hsource (mem_successors.2 ⟨e, he, rfl, rfl⟩)
  · exact List.pairwise_lt_range.filter _

end Graph

def circling : Method where
  name := "circle"
  isStatic := false
  returns := .void
  params := []
  locals := []
  body := [.loop ⟨0, .start⟩ (.bool true) (.block ⟨1, .start⟩ [.ifThen ⟨2, .start⟩ (.var "x") (.block ⟨3, .start⟩ []),
    .cont ⟨4, .start⟩, .print ⟨5, .start⟩ (.int 1)])]
  loc := .start

theorem worklist_of_circling : ∃ g, Graph.build circling = .ok g ∧
    g.worklist .postorder = [6, 4, 3, 1, 2, 0, 5] ∧ g.worklist .reversed = [5, 0, 2, 1, 3, 4, 6] ∧
    (∀ i, i ∈ [6, 4, 3, 1, 2, 0] ↔ g.Reaches Graph.entry i) ∧ g.Reaches 2 6 := by
  have hrun : (Graph.build circling).toOption.any (fun g => g.worklist .postorder = [6, 4, 3, 1, 2, 0, 5] &&
      g.indices.filter (fun i => (g.block i).dead) = [5] && g.edges.contains ⟨6, 2, .back⟩) = true := by
    cbv
  obtain ⟨g, hg, hshape⟩ := exists_ok_of_any hrun
  simp only [Bool.and_eq_true, decide_eq_true_eq, List.contains_iff_mem] at hshape
  obtain ⟨⟨hlist, hdead⟩, hback⟩ := hshape
  obtain ⟨_, ⟨reached, dead, hsplit, hreached, _, hedges, rfl, _⟩, hreverse⟩ := Graph.worklist_of_build hg
  rw [hlist, hdead] at hsplit
  obtain rfl : [6, 4, 3, 1, 2, 0] = reached := (List.append_left_inj [5]).1 hsplit
  refine ⟨g, hg, hlist, by rw [hreverse, hlist]; rfl, hreached, ?_⟩
  exact (hedges _ hback (by decide) (by decide)).resolve_left (by decide)

end Backflow
