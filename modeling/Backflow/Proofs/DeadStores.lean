import Backflow.Proofs.ExactLiveness
import Backflow.Proofs.Execution
import Backflow.Proofs.Reachability

namespace Backflow

/-- One cell for each variable. The listed assignments do not write. -/
def Storage.skipping {V : Type} (stores : List DeadStore) : Storage (String → V) V where
  read c := c
  write s v c := if s.id ∈ stores.map (·.stmt.id) then c else Storage.plain.write s v c

namespace Liveness

variable {V : Type} {l : Liveness} {d : DeadStore} {s : Stmt} {x : String}

theorem deadStore?_eq_some {dead : Bool} : l.deadStore? dead s = some d ↔
    ∃ t x e, s = .assign t x e ∧ l.isLiveAfter t.id x = false ∧ d = ⟨.assign t x e, x, dead⟩ := by
  cases s with
  | assign t x e =>
      by_cases hlive : l.isLiveAfter t.id x = true
      · simp [deadStore?, hlive]
      · rw [deadStore?, if_neg hlive]
        constructor
        · rintro ⟨⟩
          exact ⟨t, x, e, rfl, Bool.eq_false_iff.2 hlive, rfl⟩
        · rintro ⟨_, _, _, hs, _, rfl⟩
          cases hs
          rfl
  | _ => simp [deadStore?]

theorem mem_deadStores : d ∈ l.deadStores ↔
    ∃ i, ∃ s ∈ l.graph.stmts i, l.deadStore? (l.graph.block i).dead s = some d := by
  rw [deadStores, (List.mergeSort_perm _ _).mem_iff, Graph.toList_blocks, List.flatMap_map, List.mem_flatMap]
  constructor
  · rintro ⟨i, _, hd⟩
    exact ⟨i, List.mem_filterMap.1 hd⟩
  · rintro ⟨i, s, hs, hd⟩
    exact ⟨i, Graph.mem_indices.2 (Graph.lt_size_of_mem_stmts hs), List.mem_filterMap.2 ⟨s, hs, hd⟩⟩

theorem map_stmt_deadStore? (dead : Bool) (s : Stmt) :
    (l.deadStore? dead s).map (·.stmt) = Option.guard (fun s => (l.deadStore? false s).isSome) s := by
  cases s with
  | assign t x e =>
      by_cases hlive : l.isLiveAfter t.id x = true
      · simp [deadStore?, Option.guard, hlive]
      · simp [deadStore?, Option.guard, hlive]
  | _ => rfl

theorem map_stmt_deadStores : (l.deadStores.map (·.stmt)).Perm
    (l.graph.statements.filter fun s => (l.deadStore? false s).isSome) := by
  refine ((List.mergeSort_perm _ _).map _).trans (.of_eq ?_)
  simp only [Graph.statements, List.map_flatMap, List.filter_flatMap, List.map_filterMap, map_stmt_deadStore?,
    List.filterMap_eq_filter]

theorem pairwise_le_deadStores : l.deadStores.Pairwise fun d d' => d.stmt.id ≤ d'.stmt.id := by
  have hsorted : l.deadStores.Pairwise fun d d' => decide (d.stmt.id ≤ d'.stmt.id) = true := by
    apply List.pairwise_mergeSort
    · simpa using fun _ _ _ => Nat.le_trans
    · simpa using fun _ _ => Nat.le_total _ _
  exact hsorted.imp of_decide_eq_true

namespace Exact

/-- Each listed assignment occurs once, and they come by increasing numbers. -/
theorem pairwise_deadStores (h : l.Exact) : (l.deadStores.map (·.stmt.id)).Pairwise (· < ·) := by
  have hnodup : (l.deadStores.map (·.stmt.id)).Nodup := by
    have hperm := (map_stmt_deadStores (l := l)).map Stmt.id
    rw [List.map_map] at hperm
    exact hperm.nodup_iff.2 (h.ids.sublist (List.filter_sublist.map _))
  rw [List.pairwise_map]
  exact (List.pairwise_map.1 hnodup).imp₂ (fun _ _ hne hle => Nat.lt_of_le_of_ne hle hne) pairwise_le_deadStores

theorem isLiveAfter_iff (h : l.Exact) (hs : s ∈ l.graph.statements) :
    l.isLiveAfter s.id x = true ↔ ∃ u, l.graph.Follows s u ∧ l.graph.Live x u := by
  obtain ⟨p, hp, rfl⟩ := h.exists_point hs
  rw [← h.mem_after_iff hp, Numbering.mem_namesOf, isLiveAfter, Solution.after?,
    Solution.point?_of_mem h.nodup_points hp]
  cases hx : l.vars.index? x with
  | none => simp
  | some i => simp

theorem not_mem_defs_of_listed (h : l.Exact) {q : Point (VarSet l.vars.size)} (hq : q ∈ l.flow.points)
    (hlisted : q.stmt.id ∈ l.deadStores.map (·.stmt.id)) (hx : x ∈ l.vars.namesOf q.after) :
    x ∉ q.stmt.defs := by
  obtain ⟨d, hd, hid⟩ := List.mem_map.1 hlisted
  obtain ⟨i, s, hs, hd⟩ := mem_deadStores.1 hd
  obtain ⟨t, y, e, rfl, hdead, rfl⟩ := deadStore?_eq_some.1 hd
  have hmem := Graph.mem_statements_of_mem_stmts hs
  have hstmt : Stmt.assign t y e = q.stmt :=
    List.inj_on_of_nodup_map h.ids hmem (h.settled.map_stmt_points ▸ List.mem_map_of_mem hq) hid
  rw [← hstmt]
  intro hdefs
  obtain rfl : x = y := by simpa [Stmt.defs, Stmt.writes] using hdefs
  rw [h.mem_after_iff hq, ← hstmt, ← h.isLiveAfter_iff hmem] at hx
  exact absurd hx (Bool.eq_false_iff.1 hdead)

theorem tracks_skipping (h : l.Exact) :
    (Storage.skipping (V := V) l.deadStores).Tracks .plain l.vars l.flow.points := by
  intro q hq v c c' hagree x hx
  simp only [Storage.skipping, Storage.plain] at hagree ⊢
  by_cases hlisted : q.stmt.id ∈ l.deadStores.map (·.stmt.id)
  · have hdefs := h.not_mem_defs_of_listed hq hlisted hx
    rw [if_pos hlisted, if_neg hdefs, hagree x hx hdefs]
  · rw [if_neg hlisted]
    by_cases hdefs : x ∈ q.stmt.defs
    · rw [if_pos hdefs, if_pos hdefs]
    · rw [if_neg hdefs, if_neg hdefs, hagree x hx hdefs]

theorem exists_deadStore_iff (h : l.Exact) {t : Tag} {e : Expr} (hs : .assign t x e ∈ l.graph.statements) :
    (∃ d ∈ l.deadStores, d.stmt = .assign t x e) ↔
      ¬ ∃ u, l.graph.Follows (.assign t x e) u ∧ l.graph.Live x u := by
  rw [← List.mem_map, map_stmt_deadStores.mem_iff, List.mem_filter, ← h.isLiveAfter_iff hs]
  simp [hs, deadStore?, Stmt.id, Stmt.tag]

theorem unreachable_iff (h : l.Exact) (hl : l.Solved) (hd : d ∈ l.deadStores) :
    d.unreachable = true ↔ ¬ ∃ i, l.graph.Reaches Graph.entry i ∧ d.stmt ∈ l.graph.stmts i := by
  obtain ⟨i, s, hs, hd⟩ := mem_deadStores.1 hd
  obtain ⟨t, x, e, rfl, _, rfl⟩ := deadStore?_eq_some.1 hd
  rw [hl.graph.dead_iff hl.marked hs]
  refine not_congr ⟨fun hi => ⟨i, hi, hs⟩, ?_⟩
  rintro ⟨j, hj, hs'⟩
  obtain ⟨_, _, hplace⟩ := List.append_of_mem hs
  obtain ⟨_, _, hplace'⟩ := List.append_of_mem hs'
  obtain ⟨rfl, _⟩ := Graph.place_unique h.numbered.nodup hplace hplace'
  exact hj

end Exact

/-- The reported assignments can all do without their writes: no run of the method shows it. Of the other
assignments, each has a path to a read of its value. The report lists each assignment once, by increasing
numbers, and says of those that control never comes to that they are unreachable. -/
theorem deadStores_exact {source : String} {p : Program} {r : Routine} {g : Graph}
    (hp : Program.parse source = .ok p) (hr : r ∈ p.routines) (hg : Graph.build r.method = .ok g)
    (o : Options) : ∃ l, compute r.method o = .ok l ∧ l.graph = g ∧
      (∀ (H V O : Type) (meaning : Interpretation H V O) (heap : H) (ρ : String → V) (steps : Nat),
        g.run meaning (.skipping l.deadStores) steps (g.enter Graph.entry heap ρ) =
          g.run meaning .plain steps (g.enter Graph.entry heap ρ)) ∧
      (∀ t x e, .assign t x e ∈ r.method.statements →
        ((∃ d ∈ l.deadStores, d.stmt = .assign t x e) ↔ ¬ ∃ u, g.Follows (.assign t x e) u ∧ g.Live x u)) ∧
      (l.deadStores.map (·.stmt.id)).Pairwise (· < ·) ∧
      ∀ d ∈ l.deadStores, (∃ t e, d.stmt = .assign t d.var e ∧ .assign t d.var e ∈ r.method.statements) ∧
        (d.unreachable = true ↔ ¬ ∃ i, g.Reaches Graph.entry i ∧ d.stmt ∈ g.stmts i) := by
  obtain ⟨l, hcompute, rfl, hexact⟩ := exact_of_compute hg (Program.ids_nodup_of_parse hp hr) o
  have hl : l.Solved :=
    ⟨Graph.wellFormed_of_build hg, Graph.marked_of_build hg, hexact.numbered.covers, hexact.settled⟩
  refine ⟨l, hcompute, rfl, fun H V O meaning heap ρ steps => ?_, fun t x e hs => ?_, hexact.pairwise_deadStores,
    fun d hd => ⟨?_, hexact.unreachable_iff hl hd⟩⟩
  · exact hl.run_eq hexact.tracks_skipping (fun _ _ => rfl) meaning heap steps
  · exact hexact.exists_deadStore_iff ((Graph.mem_statements_of_build hg).2 ⟨hs, rfl⟩)
  · obtain ⟨i, s, hs, hd⟩ := mem_deadStores.1 hd
    obtain ⟨t, x, e, rfl, _, rfl⟩ := deadStore?_eq_some.1 hd
    exact ⟨t, e, rfl, ((Graph.mem_statements_of_build hg).1 (Graph.mem_statements_of_mem_stmts hs)).1⟩

def copiesText : String :=
  "class Copies \x7b int last(int n) \x7b int i; int t; i = 0; t = n; while (i < n) \x7b t = i; " ++
    "i = i + 1; \x7d t = i; return i; i = 0; \x7d \x7d"

theorem deadStores_exact_copies : ∃ p r g l, Program.parse copiesText = .ok p ∧ r ∈ p.routines ∧
    Graph.build r.method = .ok g ∧ compute r.method { order := .byIndex, check := false } = .ok l ∧
      l.deadStores.map (·.stmt.id) = [1, 4, 6, 8] ∧
        ∀ (H V O : Type) (meaning : Interpretation H V O) (heap : H) (ρ : String → V) (steps : Nat),
          g.run meaning (.skipping l.deadStores) steps (g.enter Graph.entry heap ρ) =
            g.run meaning .plain steps (g.enter Graph.entry heap ρ) := by
  have hrun : (Program.parse copiesText).toOption.any (fun p => p.routines.any fun r =>
      (Stmt.straysList r.method.body).isEmpty &&
        (compute r.method { order := .byIndex, check := false }).toOption.any fun l =>
          (l.graph.statements.filter fun s => (l.deadStore? false s).isSome).map Stmt.id = [1, 4, 6, 8]) =
      true := by decide +kernel
  obtain ⟨p, hp, hany⟩ := exists_ok_of_any hrun
  obtain ⟨r, hr, hall⟩ := List.any_eq_true.1 hany
  obtain ⟨hnil, hids⟩ := Bool.and_eq_true_iff.1 hall
  obtain ⟨g, hg⟩ := Graph.build_of_no_strays (List.isEmpty_iff.1 hnil)
  obtain ⟨l, hl, _, hsafe, _, hsorted, _⟩ := deadStores_exact hp hr hg { order := .byIndex, check := false }
  rw [hl] at hids
  refine ⟨p, r, g, l, hp, hr, hg, hl, ?_, hsafe⟩
  have hperm := (map_stmt_deadStores (l := l)).map Stmt.id
  rw [of_decide_eq_true hids, List.map_map] at hperm
  exact hperm.eq_of_pairwise (fun _ _ _ _ h h' => absurd h' (Nat.lt_asymm h)) hsorted (by decide)

end Liveness

end Backflow
