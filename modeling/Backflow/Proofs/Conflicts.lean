import Backflow.Proofs.Coloring
import Backflow.Proofs.Solved

namespace Backflow

/-- The variable is declared in the method, or occurs in one of its statements. -/
def Method.Mentions (m : Method) (x : String) : Prop :=
  (∃ v ∈ m.params ++ m.locals, v.name = x) ∨ ∃ s ∈ m.statements, x ∈ s.uses ∨ x ∈ s.defs

theorem Numbering.mem_names_ofMethod {m : Method} {x : String} : x ∈ (ofMethod m).names ↔ m.Mentions x := by
  rw [ofMethod, mem_names_foldl_add, List.mem_append, List.mem_map, List.mem_flatMap]
  simp only [List.mem_append (s := NameSet.toList _), ← NameSet.mem_def]
  exact or_iff_right List.not_mem_nil

namespace Liveness

variable {m : Method} {l l' : Liveness} {o : Options} {p : Point (VarSet l.vars.size)} {a b : String} {i : Nat}

structure Analyzes (l : Liveness) (m : Method) : Prop where
  built : Graph.build m = .ok l.graph
  vars : l.vars = .ofMethod m
  settled : l.flow.Settled l.vars.carry l.graph

theorem analyzes_of_compute (h : compute m o = .ok l) : l.Analyzes m := by
  obtain ⟨g, sol, hg, _, rfl⟩ := compute_eq_ok.1 h
  obtain ⟨sol', hcompute, hsettled, _⟩ := compute_settles hg o
  rw [h] at hcompute
  cases hcompute
  exact ⟨hg, rfl, hsettled⟩

namespace Analyzes

theorem solved (h : l.Analyzes m) : l.Solved :=
  ⟨Graph.wellFormed_of_build h.built, Graph.marked_of_build h.built, h.vars ▸ Graph.covers_of_build h.built, h.settled⟩

theorem recompute (h : l.Analyzes m) (hl : l.recompute o = .ok l') : l'.Analyzes m := by
  obtain ⟨r, hr, hsolved⟩ := h.solved.recompute o
  obtain ⟨sol, _, heq⟩ := bind_eq_ok hl
  cases heq
  rw [hl] at hr
  cases hr
  exact ⟨h.built, h.vars, hsolved.settled⟩

theorem recompute_all (h : l.Analyzes m) {os : List Options} (hl : os.foldlM Liveness.recompute l = .ok l') :
    l'.Analyzes m := by
  induction os generalizing l with
  | nil =>
      cases hl
      exact h
  | cons o os ih =>
      rw [List.foldlM_cons] at hl
      obtain ⟨l₁, hl₁, hl⟩ := bind_eq_ok hl
      exact ih (h.recompute hl₁) hl

theorem mem_statements (h : l.Analyzes m) (hp : p ∈ l.flow.points) : p.stmt ∈ m.statements := by
  have hs : p.stmt ∈ l.graph.statements := h.settled.map_stmt_points ▸ List.mem_map_of_mem hp
  exact ((Graph.mem_statements_of_build h.built).1 hs).1

theorem nodup_points (h : l.Analyzes m) (hids : m.ids.Nodup) : (l.flow.points.map (·.stmt.id)).Nodup := by
  rw [h.settled.map_id_points]
  exact Graph.nodup_ids_of_build h.built hids

theorem exists_stmt_iff (h : l.Analyzes m) (hids : m.ids.Nodup) {P : Stmt → NameSet → Prop}
    {live : Nat → Option NameSet} {state : Point (VarSet l.vars.size) → VarSet l.vars.size}
    (hlive : ∀ id, live id = (l.flow.point? id).map fun p => l.vars.namesOf (state p)) :
    (∃ s ∈ m.statements, ∃ names ∈ live s.id, P s names) ↔
      ∃ p ∈ l.flow.points, P p.stmt (l.vars.namesOf (state p)) := by
  constructor
  · rintro ⟨s, hs, names, hnames, hP⟩
    rw [hlive, Option.mem_def, Option.map_eq_some_iff] at hnames
    obtain ⟨p, hfind, rfl⟩ := hnames
    obtain ⟨hp, hid⟩ := Solution.mem_of_point? hfind
    obtain rfl := List.inj_on_of_nodup_map hids (h.mem_statements hp) hs hid
    exact ⟨p, hp, hP⟩
  · rintro ⟨p, hp, hP⟩
    refine ⟨p.stmt, h.mem_statements hp, _, ?_, hP⟩
    rw [hlive, Solution.point?_of_mem (h.nodup_points hids) hp]
    rfl

end Analyzes

namespace Solved

theorem interferes_iff (h : l.Solved) (hne : a ≠ b) : l.interference.interferes a b = true ↔
    (∃ p ∈ l.flow.points, a ∈ l.vars.namesOf p.before ∧ b ∈ l.vars.namesOf p.before) ∨
    (∃ i < l.graph.size, a ∈ l.vars.namesOf (l.flow.entry i) ∧ b ∈ l.vars.namesOf (l.flow.entry i)) ∨
    ∃ p ∈ l.flow.points, (a ∈ p.stmt.defs ∧ b ∈ l.vars.namesOf p.after) ∨
      (b ∈ p.stmt.defs ∧ a ∈ l.vars.namesOf p.after) := by
  constructor
  · intro hab
    obtain ⟨i, j, hi, hj, hij⟩ := interferes_iff_conflicts.1 hab
    have hji : j ≠ i := fun he => hne (Numbering.index?_inj hi (he ▸ hj))
    rcases (contains_conflicts hji).1 hij with ⟨s, hs, his, hjs⟩ | ⟨w, hw, hwrite⟩
    · have ha := Numbering.mem_namesOf.2 ⟨i, hi, his⟩
      have hb := Numbering.mem_namesOf.2 ⟨j, hj, hjs⟩
      rcases (mem_liveSets h.settled).1 hs with ⟨p, hp, rfl⟩ | ⟨k, hk, rfl⟩
      · exact Or.inl ⟨p, hp, ha, hb⟩
      · exact Or.inr (Or.inl ⟨k, hk, ha, hb⟩)
    · obtain ⟨p, hp, hafter, x, hx, hxw⟩ := mem_writes.1 hw
      refine Or.inr (Or.inr ⟨p, hp, ?_⟩)
      rw [hafter]
      rcases hwrite with ⟨rfl, hlive⟩ | ⟨rfl, hlive⟩
      · exact Or.inl ⟨Numbering.index?_inj hxw hi ▸ hx, Numbering.mem_namesOf.2 ⟨j, hj, hlive⟩⟩
      · exact Or.inr ⟨Numbering.index?_inj hxw hj ▸ hx, Numbering.mem_namesOf.2 ⟨i, hi, hlive⟩⟩
  · rintro (⟨p, hp, ha, hb⟩ | ⟨i, hi, ha, hb⟩ | ⟨p, hp, ⟨ha, hb⟩ | ⟨hb, ha⟩⟩)
    · exact interferes_of_together ((mem_liveSets h.settled).2 (Or.inl ⟨p, hp, rfl⟩)) hne ha hb
    · exact interferes_of_together ((mem_liveSets h.settled).2 (Or.inr ⟨i, hi, rfl⟩)) hne ha hb
    · exact interferes_of_write hp (h.covers_stmt hp) hne ha hb
    · exact interferes_symm (interferes_of_write hp (h.covers_stmt hp) hne.symm hb ha)

theorem interferes_of_after (h : l.Solved) (hp : p ∈ l.flow.points) (hne : a ≠ b) (ha : a ∈ l.vars.namesOf p.after)
    (hb : b ∈ l.vars.namesOf p.after) : l.interference.interferes a b = true := by
  rw [h.interferes_iff hne]
  by_cases hda : a ∈ p.stmt.defs
  · exact Or.inr (Or.inr ⟨p, hp, Or.inl ⟨hda, hb⟩⟩)
  by_cases hdb : b ∈ p.stmt.defs
  · exact Or.inr (Or.inr ⟨p, hp, Or.inr ⟨hdb, ha⟩⟩)
  have hkeep {x : String} (hx : x ∈ l.vars.namesOf p.after) (hd : x ∉ p.stmt.defs) : x ∈ l.vars.namesOf p.before := by
    rw [h.settled.before_eq hp, Numbering.mem_namesOf_carry (h.covers_stmt hp)]
    exact Or.inr ⟨hx, hd⟩
  exact Or.inl ⟨p, hp, hkeep ha hda, hkeep hb hdb⟩

/-- The variables that are live at the exit of a block are those live after its last statement, or, if it has none,
those live at its entry. -/
theorem interferes_of_exit (h : l.Solved) (hi : i < l.graph.size) (hne : a ≠ b)
    (ha : a ∈ l.vars.namesOf (l.flow.exit i)) (hb : b ∈ l.vars.namesOf (l.flow.exit i)) :
    l.interference.interferes a b = true := by
  rcases List.eq_nil_or_concat' (l.graph.stmts i) with hnil | ⟨init, s, hlast⟩
  · have hentry : l.flow.entry i = l.flow.exit i := by
      rw [h.settled.entry_eq_foldr hi, hnil]
      rfl
    rw [← hentry] at ha hb
    exact (h.interferes_iff hne).2 (Or.inr (Or.inl ⟨i, hi, ha, hb⟩))
  · exact h.interferes_of_after (h.settled.mem_points_of_place hlast) hne ha hb

end Solved

/-- The interference of an analysis of a parsed method has every conflict of two variables and nothing else: they
interfere if they are live together before a statement or at the entry of a block, or if one is live after a statement
that writes the other. That covers those that are live together after a statement or at the exit of a block. And any
number of registers is assigned accordingly. -/
theorem interference_exact {source : String} {q : Program} {r : Routine} {o : Options} {os : List Options}
    {first l : Liveness} (hq : Program.parse source = .ok q) (hr : r ∈ q.routines)
    (hfirst : compute r.method o = .ok first) (hl : os.foldlM Liveness.recompute first = .ok l) :
    (∀ a b, l.interference.interferes a b = l.interference.interferes b a) ∧
    (∀ a, l.interference.interferes a a = false) ∧
    (∀ a b, a ≠ b → (l.interference.interferes a b = true ↔
      (∃ s ∈ r.method.statements, ∃ live ∈ l.liveBefore? s.id, a ∈ live ∧ b ∈ live) ∨
      (∃ i < l.graph.size, a ∈ l.liveIn i ∧ b ∈ l.liveIn i) ∨
      ∃ s ∈ r.method.statements, ∃ live ∈ l.liveAfter? s.id, (a ∈ s.defs ∧ b ∈ live) ∨ (b ∈ s.defs ∧ a ∈ live))) ∧
    (∀ a b, a ≠ b → ((∃ s ∈ r.method.statements, ∃ live ∈ l.liveAfter? s.id, a ∈ live ∧ b ∈ live) ∨
      ∃ i < l.graph.size, a ∈ l.liveOut i ∧ b ∈ l.liveOut i) → l.interference.interferes a b = true) ∧
    ∀ k, ((l.interference.assign k).places.map (·.1)).Nodup ∧
      (∀ x, (∃ place, (l.interference.assign k).get? x = some place) ↔ r.method.Mentions x) ∧
      (∀ x n, (l.interference.assign k).get? x = some (.register n) → n < k) ∧
      ∀ a b n, l.interference.interferes a b = true → (l.interference.assign k).get? a = some (.register n) →
        (l.interference.assign k).get? b ≠ some (.register n) := by
  have h := (analyzes_of_compute hfirst).recompute_all hl
  have hids := Program.ids_nodup_of_parse hq hr
  refine ⟨fun a b => Bool.eq_iff_iff.2 ⟨interferes_symm, interferes_symm⟩, not_interferes_self, fun a b hne => ?_,
    fun a b hne hlive => ?_, fun k => ⟨l.interference.nodup_keys_assign k, fun x => ?_, fun x n hx => ?_, ?_⟩⟩
  · rw [h.solved.interferes_iff hne,
      h.exists_stmt_iff hids l.liveBefore?_eq_map (P := fun _ live => a ∈ live ∧ b ∈ live),
      h.exists_stmt_iff hids l.liveAfter?_eq_map (P := fun s live => (a ∈ s.defs ∧ b ∈ live) ∨ (b ∈ s.defs ∧ a ∈ live))]
    refine or_congr_right (or_congr_left (exists_congr fun i => and_congr_right fun hi => ?_))
    rw [liveIn_eq h.settled hi]
  · rw [h.exists_stmt_iff hids l.liveAfter?_eq_map (P := fun _ live => a ∈ live ∧ b ∈ live)] at hlive
    rcases hlive with ⟨p, hp, ha, hb⟩ | ⟨i, hi, ha, hb⟩
    · exact h.solved.interferes_of_after hp hne ha hb
    · rw [liveOut_eq h.settled hi] at ha hb
      exact h.solved.interferes_of_exit hi hne ha hb
  · rw [← Numbering.mem_names_ofMethod, ← h.vars]
    exact Interference.exists_place_iff
  · exact Interference.register_lt hx
  · exact fun a b n hab ha => register_ne hab ha

end Liveness

theorem interference_exact_search : ∃ q r first l, Program.parse searchText = .ok q ∧ r ∈ q.routines ∧
    Liveness.compute r.method { order := .byIndex, check := false } = .ok first ∧
    [{ order := .byIndex, check := false }].foldlM Liveness.recompute first = .ok l ∧
    l.interference.interferes "i" "key" = true ∧ l.interference.interferes "key" "i" = true ∧
    ∀ k n, (l.interference.assign k).get? "i" = some (.register n) →
      (l.interference.assign k).get? "key" ≠ some (.register n) := by
  have hrun : (Program.parse searchText).toOption.any (fun q => q.routines.any fun r =>
      (Liveness.compute r.method { order := .byIndex, check := false }).toOption.any fun first =>
        ([{ order := .byIndex, check := false }].foldlM Liveness.recompute first).toOption.any fun l =>
          l.interference.interferes "i" "key") = true := by decide +kernel
  obtain ⟨q, hq, hany⟩ := exists_ok_of_any hrun
  obtain ⟨r, hr, hany⟩ := List.any_eq_true.1 hany
  obtain ⟨first, hfirst, hany⟩ := exists_ok_of_any hany
  obtain ⟨l, hl, hinterferes⟩ := exists_ok_of_any hany
  obtain ⟨hcomm, _, _, _, hassign⟩ := Liveness.interference_exact hq hr hfirst hl
  refine ⟨q, r, first, l, hq, hr, hfirst, hl, hinterferes, hcomm "key" "i" ▸ hinterferes, fun k n hi => ?_⟩
  exact (hassign k).2.2.2 "i" "key" n hinterferes hi

end Backflow
