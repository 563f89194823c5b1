import Backflow.Proofs.ExactLiveness
import Backflow.Proofs.StructuredPaths

namespace Backflow

namespace Graph

variable {m : Method} {g : Graph} {i : Nat}

theorem WellFormed.latch_of_source (h : g.WellFormed) {e : Edge} (he : e ∈ g.edges)
    (hne : e.source ≠ entry) (hnil : g.stmts e.source = []) : (g.block e.source).kind = .latch := by
  have hfits := h.blocks _ (h.edges e he).source_lt
  cases hk : (g.block e.source).kind with
  | entry => exact absurd (hfits.entry_iff.1 hk) hne
  | exit => exact absurd (hfits.exit_iff.1 hk) (h.edges e he).source_ne
  | basic => exact absurd hnil (hfits.basic_iff.1 hk)
  | latch => rfl

theorem WellFormed.arrives_of_leads (h : g.WellFormed) {j : Nat} {t : Stmt} (hlead : g.Leads i j)
    (hi : i ≠ entry) (hnil : g.stmts i = []) (ht : (g.stmts j).head? = some t) : g.Arrives i (some t) := by
  induction hlead with
  | edge hj =>
      obtain ⟨e, he, rfl, rfl⟩ := mem_successors.1 hj
      exact .latch he (h.latch_of_source he hi hnil) (.first ht)
  | through hj hnil' _ ih =>
      obtain ⟨e, he, rfl, rfl⟩ := mem_successors.1 hj
      exact .latch he (h.latch_of_source he hi hnil) (ih (h.edges e he).target_ne hnil' ht)

theorem WellFormed.arrives_iff_onward (h : g.WellFormed) (hi : i ≠ entry) {t : Stmt} :
    g.Arrives i (some t) ↔ g.Onward i (g.stmts i) t := by
  constructor
  · intro ha
    generalize hu : some t = u at ha
    induction ha with
    | exit => cases hu
    | first hs =>
        cases hu
        obtain ⟨rest, hrest⟩ := List.head?_eq_some_iff.1 hs
        rw [hrest]
        rfl
    | @latch e _ he hk _ ih =>
        have hnil : g.stmts e.source = [] := by
          by_contra hne
          rw [(h.blocks _ (h.edges e he).source_lt).basic_iff.2 hne] at hk
          cases hk
        rw [hnil, onward_nil]
        exact ⟨e.target, mem_successors.2 ⟨e, he, rfl, rfl⟩, ih (h.edges e he).target_ne hu⟩
  · intro ht
    cases hstmts : g.stmts i with
    | nil =>
        rw [hstmts] at ht
        obtain ⟨j, hlead, hj⟩ := ht
        exact h.arrives_of_leads hlead hi hstmts hj
    | cons s rest =>
        rw [hstmts] at ht
        cases ht
        exact .first (by rw [hstmts]; rfl)

/-- One statement follows another in the graph if control passes between them in the method's text. -/
theorem joins_iff_follows (h : build m = .ok g) {s t : Stmt} :
    Transition.Joins m.flow s t ↔ g.Follows s t := by
  have hg := wellFormed_of_build h
  constructor
  · rintro ⟨o, ho⟩
    cases (passes_iff_mem_flow h _).2 ho with
    | inside hin => exact Or.inl ⟨_, hin⟩
    | @along e _ _ he hx ht =>
        rw [hg.arrives_iff_onward (hg.edges e he).target_ne] at ht
        exact Or.inr ⟨e.source, hx, onward_nil.2 ⟨e.target, mem_successors.2 ⟨e, he, rfl, rfl⟩, ht⟩⟩
  · rintro (⟨i, hin⟩ | ⟨i, hlast, ht⟩)
    · exact ⟨none, (passes_iff_mem_flow h _).1 (.inside hin)⟩
    · obtain ⟨j, hj, ht⟩ := onward_nil.1 ht
      obtain ⟨e, he, rfl, rfl⟩ := mem_successors.1 hj
      rw [← hg.arrives_iff_onward (hg.edges e he).target_ne] at ht
      exact ⟨_, (passes_iff_mem_flow h _).1 (.along (x := some s) he hlast ht)⟩

end Graph

/-- The graph's live variables are those of the computation by the text: of a parsed method without stray
jumps, each statement that is no block has the set that the computation gives it. -/
theorem Liveness.compute_eq_structured {source : String} {p : Program} {r : Routine}
    (hp : Program.parse source = .ok p) (hr : r ∈ p.routines) (hnil : Stmt.straysList r.method.body = [])
    (o : Options) (atBreak atContinue : Set String) : ∃ l, compute r.method o = .ok l ∧
      (∀ s ∈ r.method.statements, s.isBlock = false →
        ∃ X, (s, X) ∈ Stmt.liveValuesList ⟨∅, atBreak, atContinue⟩ r.method.body) ∧
      ∀ s X, (s, X) ∈ Stmt.liveValuesList ⟨∅, atBreak, atContinue⟩ r.method.body →
        ∃ names, l.map.get? s.id = some names ∧ ∀ v, v ∈ names ↔ v ∈ X := by
  obtain ⟨g, hg⟩ := Graph.build_of_no_strays hnil
  obtain ⟨l, hl, rfl, hexact⟩ := exact_of_compute hg (Program.ids_nodup_of_parse hp hr) o
  have hvalues := (Stmt.live_of_no_strays.2 r.method.body ⟨∅, atBreak, atContinue⟩ ⟨∅, ∅, ∅⟩ hnil rfl).2
  have hkeys := Stmt.map_fst_liveValues.2 r.method.body ⟨∅, ∅, ∅⟩
  have hnodup : (Stmt.actionsList r.method.body).Nodup := by
    rw [← Graph.statements_of_build hg]
    exact hexact.numbered.nodup
  have hsteps : Transition.Joins r.method.flow = l.graph.Follows :=
    funext fun s => funext fun t => propext (Graph.joins_iff_follows hg)
  rw [hvalues]
  refine ⟨l, hl, fun s hs hblock => ?_, fun s X hX => ?_⟩
  · have hmem : s ∈ Stmt.actionsList r.method.body := Stmt.mem_actionsList.2 ⟨hs, hblock⟩
    rw [← hkeys] at hmem
    obtain ⟨x, hx, rfl⟩ := List.mem_map.1 hmem
    exact ⟨x.2, hx⟩
  · have hmem : s ∈ l.graph.statements := by
      rw [Graph.statements_of_build hg, ← hkeys]
      exact List.mem_map.2 ⟨(s, X), hX, rfl⟩
    obtain ⟨q, hq, rfl⟩ := hexact.exists_point hmem
    refine ⟨_, hexact.get?_map hq, fun v => ?_⟩
    rw [hexact.mem_before_iff hq, r.method.mem_liveValues_iff hnodup hX, hsteps]
    rfl

theorem Liveness.compute_eq_structured_search : ∃ p r l, Program.parse searchText = .ok p ∧
    r ∈ p.routines ∧ Stmt.straysList r.method.body = [] ∧ compute r.method {} = .ok l ∧
      ∀ s X, (s, X) ∈ Stmt.liveValuesList ⟨∅, ∅, ∅⟩ r.method.body →
        ∃ names, l.map.get? s.id = some names ∧ ∀ v, v ∈ names ↔ v ∈ X := by
  obtain ⟨p, hp, r, hr, hnil⟩ := searchText_parses
  obtain ⟨l, hl, _, hvalues⟩ := compute_eq_structured hp hr hnil {} ∅ ∅
  exact ⟨p, r, l, hp, hr, hnil, hl, hvalues⟩

end Backflow
