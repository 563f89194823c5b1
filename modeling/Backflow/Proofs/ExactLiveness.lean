import Backflow.Proofs.ControlFlow
import Backflow.Proofs.Solved

namespace Backflow.Liveness

/-- A first analysis of a graph whose statements have numbers of their own. -/
structure Exact (l : Liveness) : Prop where
  settled : l.flow.Settled l.vars.carry l.graph
  least : l.flow.LeastAbove l.vars.carry l.graph {}
  numbered : l.graph.Numbered l.vars
  ids : (l.graph.statements.map Stmt.id).Nodup

theorem exact_of_compute {m : Method} {g : Graph} (h : Graph.build m = .ok g) (hids : m.ids.Nodup)
    (o : Options) : ∃ l, compute m o = .ok l ∧ l.graph = g ∧ l.Exact := by
  obtain ⟨sol, hcompute, hsettled, hleast⟩ := compute_settles h o
  exact ⟨_, hcompute, rfl, hsettled, hleast, Graph.numbered_of_build h hids, Graph.nodup_ids_of_build h hids⟩

namespace Exact

variable {l : Liveness} {p : Point (VarSet l.vars.size)} {s : Stmt} {i : Nat} {v : String}

theorem nodup_points (h : l.Exact) : (l.flow.points.map (·.stmt.id)).Nodup := by
  rw [h.settled.map_id_points]
  exact h.ids

theorem exists_point (h : l.Exact) (hs : s ∈ l.graph.statements) : ∃ p ∈ l.flow.points, p.stmt = s := by
  rw [← h.settled.map_stmt_points] at hs
  exact List.mem_map.1 hs

theorem mem_before_iff (h : l.Exact) (hp : p ∈ l.flow.points) :
    v ∈ l.vars.namesOf p.before ↔ l.graph.Live v p.stmt := by
  obtain ⟨i, pre, post, hi, hplace, hbefore, _⟩ := h.settled.exists_place hp
  rw [hbefore, Solution.mem_foldr_iff h.settled h.least h.numbered hi hplace, Graph.liveAt_cons]

theorem mem_after_iff (h : l.Exact) (hp : p ∈ l.flow.points) :
    v ∈ l.vars.namesOf p.after ↔ ∃ t, l.graph.Follows p.stmt t ∧ l.graph.Live v t := by
  obtain ⟨i, pre, post, hi, hplace, _, hafter⟩ := h.settled.exists_place hp
  have hrest : l.graph.stmts i = (pre ++ [p.stmt]) ++ post := by
    rw [hplace, List.append_assoc, List.singleton_append]
  rw [hafter, Solution.mem_foldr_iff h.settled h.least h.numbered hi hrest]
  exact exists_congr fun t => and_congr (Graph.follows_iff h.numbered.nodup hplace).symm Iff.rfl

theorem nodup_keys (h : l.Exact) :
    ((l.flow.points.map fun p => (p.stmt.id, l.vars.namesOf p.before)).map (·.1)).Nodup := by
  rw [List.map_map]
  exact h.nodup_points

theorem get?_map (h : l.Exact) (hp : p ∈ l.flow.points) :
    l.map.get? p.stmt.id = some (l.vars.namesOf p.before) :=
  LiveMap.get?_ofList_of_mem h.nodup_keys (List.mem_map.2 ⟨p, hp, rfl⟩)

theorem isSome_get?_map (h : l.Exact) (id : Nat) :
    (l.map.get? id).isSome ↔ ∃ s ∈ l.graph.statements, s.id = id := by
  refine (LiveMap.isSome_get?_ofList h.nodup_keys).trans ?_
  rw [List.map_map, ← List.mem_map, ← h.settled.map_id_points]
  rfl

theorem liveBefore?_eq (h : l.Exact) (hp : p ∈ l.flow.points) :
    l.liveBefore? p.stmt.id = some (l.vars.namesOf p.before) := by
  rw [liveBefore?_eq_map, Solution.point?_of_mem h.nodup_points hp]
  rfl

theorem liveAfter?_eq (h : l.Exact) (hp : p ∈ l.flow.points) :
    l.liveAfter? p.stmt.id = some (l.vars.namesOf p.after) := by
  rw [liveAfter?_eq_map, Solution.point?_of_mem h.nodup_points hp]
  rfl

theorem mem_liveIn_iff (h : l.Exact) (hi : i < l.graph.size) :
    v ∈ l.liveIn i ↔ l.graph.LiveAt v i (l.graph.stmts i) := by
  rw [liveIn_eq h.settled hi, h.settled.entry_eq_foldr hi]
  exact Solution.mem_foldr_iff (l := []) h.settled h.least h.numbered hi rfl

theorem mem_liveOut_iff (h : l.Exact) (hi : i < l.graph.size) :
    v ∈ l.liveOut i ↔ l.graph.LiveAt v i [] := by
  rw [liveOut_eq h.settled hi]
  exact Solution.mem_foldr_iff (r := []) h.settled h.least h.numbered hi (List.append_nil _).symm

end Exact

/-- The analysis of a parsed method finds exactly the variables that some path reads before it writes them:
before and after each statement, and at both ends of each block. -/
theorem compute_exact {source : String} {p : Program} {r : Routine} {g : Graph}
    (hp : Program.parse source = .ok p) (hr : r ∈ p.routines) (hg : Graph.build r.method = .ok g)
    (o : Options) : ∃ l, compute r.method o = .ok l ∧ l.graph = g ∧
      (∀ id, (l.map.get? id).isSome ↔ ∃ s ∈ r.method.statements, s.isBlock = false ∧ s.id = id) ∧
      (∀ s ∈ r.method.statements, s.isBlock = false → ∃ before after,
        l.map.get? s.id = some before ∧ l.liveBefore? s.id = some before ∧ l.liveAfter? s.id = some after ∧
          ∀ v, (v ∈ before ↔ g.Live v s) ∧ (v ∈ after ↔ ∃ t, g.Follows s t ∧ g.Live v t)) ∧
      ∀ i < g.size, ∀ v, (v ∈ l.liveIn i ↔ ∃ t, g.Onward i (g.stmts i) t ∧ g.Live v t) ∧
        (v ∈ l.liveOut i ↔ ∃ t, g.Onward i [] t ∧ g.Live v t) := by
  obtain ⟨l, hl, rfl, hexact⟩ := exact_of_compute hg (Program.ids_nodup_of_parse hp hr) o
  refine ⟨l, hl, rfl, fun id => ?_, fun s hs hblock => ?_, fun i hi v => ?_⟩
  · rw [hexact.isSome_get?_map]
    simp only [Graph.mem_statements_of_build hg, and_assoc]
  · obtain ⟨p, hp, rfl⟩ := hexact.exists_point ((Graph.mem_statements_of_build hg).2 ⟨hs, hblock⟩)
    exact ⟨_, _, hexact.get?_map hp, hexact.liveBefore?_eq hp, hexact.liveAfter?_eq hp,
      fun v => ⟨hexact.mem_before_iff hp, hexact.mem_after_iff hp⟩⟩
  · exact ⟨hexact.mem_liveIn_iff hi, hexact.mem_liveOut_iff hi⟩

/-- In the search, what is live at the entry is read on some path from there. -/
theorem compute_exact_search : ∃ p r g l, Program.parse searchText = .ok p ∧ r ∈ p.routines ∧
    Graph.build r.method = .ok g ∧ compute r.method {} = .ok l ∧
      ∀ v, v ∈ l.liveOut Graph.entry ↔ ∃ t, g.Onward Graph.entry [] t ∧ g.Live v t := by
  obtain ⟨p, hp, r, hr, hnil⟩ := searchText_parses
  obtain ⟨g, hg⟩ := Graph.build_of_no_strays hnil
  obtain ⟨l, hl, _, _, _, hblocks⟩ := compute_exact hp hr hg {}
  exact ⟨p, r, g, l, hp, hr, hg, hl, fun v => (hblocks _ (Graph.wellFormed_of_build hg).size_pos v).2⟩

end Backflow.Liveness
