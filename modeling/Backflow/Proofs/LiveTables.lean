import Backflow.Proofs.LivePaths

namespace Backflow

namespace LiveMap

theorem lookup_cons (k : Nat) (p : Nat × NameSet) (l : List (Nat × NameSet)) :
    (p :: l).lookup k = if k = p.1 then some p.2 else l.lookup k := by
  rw [List.lookup_cons]
  by_cases hk : k = p.1
  · rw [if_pos hk, beq_iff_eq.2 hk]
  · rw [if_neg hk, beq_eq_false_iff_ne.2 hk]

theorem lookup_insertInto (id k : Nat) (names : NameSet) (l : List (Nat × NameSet)) :
    (insertInto id names l).lookup k = if k = id then some names else l.lookup k := by
  induction l with
  | nil => exact lookup_cons k (id, names) []
  | cons p rest ih =>
      unfold insertInto
      split
      · exact lookup_cons k (id, names) (p :: rest)
      · split
        case isTrue hid =>
          rw [lookup_cons, lookup_cons, ← hid]
          by_cases hk : k = id
          · rw [if_pos hk, if_pos hk]
          · rw [if_neg hk, if_neg hk, if_neg hk]
        case isFalse hid =>
          rw [lookup_cons, lookup_cons, ih]
          by_cases hk : k = p.1
          · have hne : k ≠ id := fun he => hid (he.symm.trans hk)
            rw [if_pos hk, if_neg hne, if_pos hk]
          · rw [if_neg hk, if_neg hk]

theorem get?_insert (m : LiveMap) (id k : Nat) (names : NameSet) :
    (m.insert id names).get? k = if k = id then some names else m.get? k :=
  lookup_insertInto id k names m.toList

theorem get?_foldl_of_not_mem {l : List (Nat × NameSet)} {k : Nat} (hk : k ∉ l.map (·.1)) (m : LiveMap) :
    (l.foldl (fun m p => m.insert p.1 p.2) m).get? k = m.get? k := by
  induction l generalizing m with
  | nil => rfl
  | cons p l ih =>
      rw [List.map_cons, List.mem_cons, not_or] at hk
      rw [List.foldl_cons, ih hk.2, get?_insert, if_neg hk.1]

theorem get?_foldl_of_mem {l : List (Nat × NameSet)} (hl : (l.map (·.1)).Nodup) {p : Nat × NameSet}
    (hp : p ∈ l) (m : LiveMap) : (l.foldl (fun m p => m.insert p.1 p.2) m).get? p.1 = some p.2 := by
  induction l generalizing m with
  | nil => exact absurd hp List.not_mem_nil
  | cons q l ih =>
      rw [List.map_cons, List.nodup_cons] at hl
      rw [List.foldl_cons]
      rcases List.mem_cons.1 hp with rfl | hp
      · rw [get?_foldl_of_not_mem hl.1, get?_insert, if_pos rfl]
      · exact ih hl.2 hp _

theorem get?_ofList_of_mem {l : List (Nat × NameSet)} (hl : (l.map (·.1)).Nodup) {p : Nat × NameSet}
    (hp : p ∈ l) : (ofList l).get? p.1 = some p.2 := get?_foldl_of_mem hl hp empty

theorem isSome_get?_ofList {l : List (Nat × NameSet)} (hl : (l.map (·.1)).Nodup) {k : Nat} :
    ((ofList l).get? k).isSome ↔ k ∈ l.map (·.1) := by
  constructor
  · intro hsome
    by_contra hk
    rw [ofList, get?_foldl_of_not_mem hk] at hsome
    cases hsome
  · intro hk
    obtain ⟨p, hp, rfl⟩ := List.mem_map.1 hk
    rw [get?_ofList_of_mem hl hp]
    rfl

end LiveMap

variable {S : Type} {f : Stmt → S → S} {a : S} {l : List Stmt}

theorem map_stmt_around : (around f l a).map (·.stmt) = l := by
  induction l with
  | nil => rfl
  | cons s l ih => rw [around, List.map_cons, ih]

theorem exists_place_of_mem_around {p : Point S} (hp : p ∈ around f l a) :
    ∃ pre post, l = pre ++ p.stmt :: post ∧ p.before = (p.stmt :: post).foldr f a ∧
      p.after = post.foldr f a := by
  induction l with
  | nil => exact absurd hp List.not_mem_nil
  | cons s l ih =>
      rcases List.mem_cons.1 hp with rfl | hp
      · exact ⟨[], l, rfl, rfl, rfl⟩
      · obtain ⟨pre, post, hl, hbefore, hafter⟩ := ih hp
        exact ⟨s :: pre, post, by rw [hl]; rfl, hbefore, hafter⟩

theorem mem_around_of_place {s : Stmt} {pre post : List Stmt} (h : l = pre ++ s :: post) :
    ⟨s, f s (post.foldr f a), post.foldr f a⟩ ∈ around f l a := by
  induction pre generalizing l with
  | nil =>
      rw [h]
      exact List.mem_cons_self
  | cons u pre ih =>
      rw [h]
      exact List.mem_cons_of_mem _ (ih rfl)

namespace Solution

theorem mem_of_point? {sol : Solution S} {id : Nat} {p : Point S} (h : sol.point? id = some p) :
    p ∈ sol.points ∧ p.stmt.id = id := by
  rw [point?] at h
  exact ⟨List.mem_of_find?_eq_some h, by simpa using List.find?_some h⟩

theorem point?_of_mem {sol : Solution S} (hids : (sol.points.map (·.stmt.id)).Nodup) {p : Point S}
    (hp : p ∈ sol.points) : sol.point? p.stmt.id = some p := by
  cases hfind : sol.point? p.stmt.id with
  | none => exact absurd (decide_eq_true rfl) (List.find?_eq_none.1 hfind p hp)
  | some q =>
      obtain ⟨hq, hid⟩ := mem_of_point? hfind
      rw [List.inj_on_of_nodup_map hids hq hp hid]

variable [SemilatticeSup S] [OrderBot S] {sol : Solution S} {g : Graph}

theorem Settled.map_stmt_points (h : sol.Settled f g) : sol.points.map (·.stmt) = g.statements := by
  rw [h.points_eq, List.map_flatMap, Graph.statements_eq]
  simp only [map_stmt_around]

theorem Settled.map_id_points (h : sol.Settled f g) :
    sol.points.map (·.stmt.id) = g.statements.map Stmt.id := by
  rw [← h.map_stmt_points, List.map_map]
  rfl

theorem Settled.mem_points_of_place (h : sol.Settled f g) {i : Nat} {pre post : List Stmt} {s : Stmt}
    (hplace : g.stmts i = pre ++ s :: post) :
    ⟨s, f s (post.foldr f (sol.exit i)), post.foldr f (sol.exit i)⟩ ∈ sol.points := by
  have hs : s ∈ g.stmts i := hplace ▸ List.mem_append_right pre List.mem_cons_self
  rw [h.points_eq]
  exact List.mem_flatMap.2 ⟨i, Graph.mem_indices.2 (Graph.lt_size_of_mem_stmts hs), mem_around_of_place hplace⟩

theorem Settled.exists_place (h : sol.Settled f g) {p : Point S} (hp : p ∈ sol.points) : ∃ i pre post, i < g.size ∧
    g.stmts i = pre ++ p.stmt :: post ∧ p.before = (p.stmt :: post).foldr f (sol.exit i) ∧
      p.after = post.foldr f (sol.exit i) := by
  rw [h.points_eq] at hp
  obtain ⟨i, hi, hp⟩ := List.mem_flatMap.1 hp
  obtain ⟨pre, post, hplace⟩ := exists_place_of_mem_around hp
  exact ⟨i, pre, post, Graph.mem_indices.1 hi, hplace⟩

theorem Settled.before_eq (h : sol.Settled f g) {p : Point S} (hp : p ∈ sol.points) : p.before = f p.stmt p.after := by
  obtain ⟨i, pre, post, _, _, hbefore, hafter⟩ := h.exists_place hp
  rw [hbefore, hafter, List.foldr_cons]

end Solution

namespace Liveness

variable {l : Liveness} {i : Nat}

theorem liveBefore?_eq_map (l : Liveness) (id : Nat) :
    l.liveBefore? id = (l.flow.point? id).map fun p => l.vars.namesOf p.before := by
  rw [liveBefore?, Solution.before?, Option.map_map]
  rfl

theorem liveAfter?_eq_map (l : Liveness) (id : Nat) :
    l.liveAfter? id = (l.flow.point? id).map fun p => l.vars.namesOf p.after := by
  rw [liveAfter?, Solution.after?, Option.map_map]
  rfl

theorem liveIn_eq (h : l.flow.Settled l.vars.carry l.graph) (hi : i < l.graph.size) :
    l.liveIn i = l.vars.namesOf (l.flow.entry i) := by
  rw [liveIn, Solution.entry, Array.getD_eq_getD_getElem?, Array.getElem?_eq_getElem (by rwa [h.entries_size])]
  rfl

theorem liveOut_eq (h : l.flow.Settled l.vars.carry l.graph) (hi : i < l.graph.size) :
    l.liveOut i = l.vars.namesOf (l.flow.exit i) := by
  rw [liveOut, Solution.exit, Array.getD_eq_getD_getElem?, Array.getElem?_eq_getElem (by rwa [h.exits_size])]
  rfl

end Liveness

end Backflow
